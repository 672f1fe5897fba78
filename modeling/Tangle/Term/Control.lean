/-
The control functions: what the final character of a control sequence calls, with the numbers before
it. `params` has at least one number where these are called.
-/
import Tangle.Term.Terminal

namespace Tangle.Term.Terminal

open JsArray

/-- `params[0]`. -/
def first (params : List Nat) : Nat := params.headD 0

/-- `params[0]`, or 1 where it is 0. -/
def count (params : List Nat) : Nat := if first params < 1 then 1 else first params

/-! ## Character sets -/

def setgLevel (g : Nat) (t : Terminal) : Terminal :=
  { t with charsets := { t.charsets with glevel := g, charset := t.charsets.charsets g } }

def setgCharset (g : Nat) (charset : Option Charset) (t : Terminal) : Terminal :=
  { t with charsets := { t.charsets with
      charsets := Function.update t.charsets.charsets g charset
      charset := if t.charsets.glevel = g then charset else t.charsets.charset } }

/-! ## What is sent -/

/-- The first data since the queue was last empty sets a timeout. -/
def send (data : List CodeUnit) (t : Terminal) : Terminal :=
  { t with out := { t.out with
      timers := if t.out.queue = [] then t.out.timers + 1 else t.out.timers
      queue := t.out.queue ++ data } }

/-- `this.emit(...)`. -/
def emit (event : Event) (t : Terminal) : Terminal :=
  { t with out := { t.out with emitted := t.out.emitted ++ [event] } }

def handler (data : List CodeUnit) (t : Terminal) : Terminal := t.emit (.data data)

/-- A timeout of `send` runs out. -/
def timeout (t : Terminal) : Option Terminal :=
  if t.out.timers = 0 then none
  else
    let t := t.handler t.out.queue
    some { t with out := { t.out with queue := [], timers := t.out.timers - 1 } }

def handleTitle (title : List CodeUnit) (t : Terminal) : Terminal := t.emit (.title title)

/-! ## The cursor -/

/-- To a row, or to the last one. -/
def goRow (y : Nat) (t : Terminal) : Terminal := { t with y := if t.rows ≤ y then t.rows - 1 else y }

/-- To a column, or to the last one. -/
def goCol (x : Nat) (t : Terminal) : Terminal := { t with x := some (if t.cols ≤ x then t.cols - 1 else x) }

/-- To a column further right. -/
def goRight (n : Nat) (t : Terminal) : Terminal := t.x.elim t fun x => t.goCol (x + n)

def cursorUp (params : List Nat) (t : Terminal) : Terminal := { t with y := t.y - count params }

def cursorDown (params : List Nat) (t : Terminal) : Terminal := t.goRow (t.y + count params)

def cursorForward (params : List Nat) (t : Terminal) : Terminal := t.goRight (count params)

def cursorBackward (params : List Nat) (t : Terminal) : Terminal := { t with x := t.x.map (· - count params) }

def cursorPos (params : List Nat) (t : Terminal) : Terminal :=
  let row := first params - 1
  let col := if 2 ≤ params.length then params[1]?.getD 0 - 1 else 0
  (t.goCol col).goRow row

def cursorNextLine (params : List Nat) (t : Terminal) : Terminal := { t.goRow (t.y + count params) with x := some 0 }

def cursorPrecedingLine (params : List Nat) (t : Terminal) : Terminal := { t with y := t.y - count params, x := some 0 }

/-- The column is not compared with the width. -/
def cursorCharAbsolute (params : List Nat) (t : Terminal) : Terminal := { t with x := some (count params - 1) }

def charPosAbsolute (params : List Nat) (t : Terminal) : Terminal := t.goCol (count params - 1)

def HPositionRelative (params : List Nat) (t : Terminal) : Terminal := t.goRight (count params)

def linePosAbsolute (params : List Nat) (t : Terminal) : Terminal := t.goRow (count params - 1)

def VPositionRelative (params : List Nat) (t : Terminal) : Terminal := t.goRow (t.y + count params)

/-- Without a second parameter the column is `NaN`. -/
def HVPosition (params : List Nat) (t : Terminal) : Terminal :=
  let t := t.goRow (count params - 1)
  params[1]?.elim { t with x := none } fun col => t.goCol ((if col < 1 then 1 else col) - 1)

def saveCursor (t : Terminal) : Terminal := { t with savedX := t.x, savedY := some t.y }

/-- `this.savedX || 0` and `this.savedY || 0`. -/
def restoreCursor (t : Terminal) : Terminal := { t with x := some (t.savedX.getD 0), y := t.savedY.getD 0 }

def cursorForwardTab (params : List Nat) (t : Terminal) : Terminal :=
  { t with x := t.x.map t.nextStop^[count params] }

def cursorBackwardTab (params : List Nat) (t : Terminal) : Terminal :=
  { t with x := t.x.map t.prevStop^[count params] }

def tabClear (params : List Nat) (t : Terminal) : Terminal :=
  if first params = 0 then { t with tabs := t.x.elim t.tabs t.tabs.erase }
  else if first params = 3 then { t with tabs := ∅ }
  else t

/-- `(params[0] || 1) - 1` and `(params[1] || this.rows) - 1`. -/
def regionTop (params : List Nat) : Nat := count params - 1
def regionBottom (params : List Nat) (t : Terminal) : Nat :=
  (if params[1]?.getD 0 = 0 then t.rows else params[1]?.getD 0) - 1

/-- The region is not compared with the rows. -/
def setScrollRegion (params : List Nat) (t : Terminal) : Terminal :=
  if t.parser.prefixText ≠ [] then t
  else { t with scrollTop := regionTop params, scrollBottom := regionBottom params t, x := some 0, y := 0 }

/-! ## Erasing -/

def eraseInDisplay (params : List Nat) : Terminal → Option Terminal :=
  match first params with
  | 0 => fun t => (t.eraseRight t.x t.y).bind fun t =>
    (List.range' (t.y + 1) (t.rows - (t.y + 1))).foldlM (fun t j => t.eraseLine j) t
  | 1 => fun t => (t.eraseLeft t.x t.y).bind fun t => (List.range t.y).reverse.foldlM (fun t j => t.eraseLine j) t
  | 2 => fun t => (List.range t.rows).reverse.foldlM (fun t j => t.eraseLine j) t
  | _ => some

def eraseInLine (params : List Nat) : Terminal → Option Terminal :=
  match first params with
  | 0 => fun t => t.eraseRight t.x t.y
  | 1 => fun t => t.eraseLeft t.x t.y
  | 2 => fun t => t.eraseLine t.y
  | _ => some

/-! ## Cells of a line

None of these reports its row with `updateRange`. -/

/-- The loop of `insertChars`, `n` rounds from column `j` on. -/
def insertCells (cols : Nat) (ch : Cell) : Nat → Nat → Line → Line
  | 0, _, line => line
  | n + 1, j, line =>
    if j < cols then insertCells cols ch n (j + 1) (splice line j 0 [some ch]).dropLast else line

def insertChars (params : List Nat) (t : Terminal) : Option Terminal :=
  t.x.elim (some t) fun x =>
    if x < t.cols then t.onLine t.y (insertCells t.cols (t.curAttr, 0x20) (count params) x) else some t

/-- `splice` takes `NaN` for 0. -/
def deleteChars (params : List Nat) (t : Terminal) : Option Terminal :=
  t.onLine t.y (fun line => splice line (t.x.getD 0) 1 [] ++ [some (t.curAttr, 0x20)])^[count params]

def eraseChars (params : List Nat) (t : Terminal) : Option Terminal :=
  t.x.elim (some t) fun x =>
    if x < t.cols then t.onLine t.y fun line => fill line x (min (count params) (t.cols - x)) (t.curAttr, 0x20)
    else some t

/-- The columns are not compared with the width; in column `NaN` the line stays as it is. -/
def repeatPrecedingCharacter (params : List Nat) (t : Terminal) : Option Terminal :=
  (t.onLine t.y fun line => t.x.elim line fun x =>
    let ch := (if x = 0 then none else JsArray.get line (x - 1)).getD (defAttr, 0x20)
    fill line x (count params) ch).map fun t => { t with x := t.x.map (· + count params) }

/-! ## Lines of the scroll region -/

/-- `j` is `this.rows - 1 + this.ybase` less `this.rows - 1 - this.scrollBottom`, and one more. -/
def insertLines (params : List Nat) (t : Terminal) : Terminal :=
  let row := t.y + t.ybase
  let j := t.ybase + t.scrollBottom + 1
  let lines := (fun lines => splice (splice lines row 0 [t.blankLine true]) j 1 [])^[count params] t.lines
  ({ t with lines }.updateRange t.y).updateRange t.scrollBottom

def deleteLines (params : List Nat) (t : Terminal) : Terminal :=
  let row := t.y + t.ybase
  let j := t.ybase + t.scrollBottom
  let lines := (fun lines => splice (splice lines (j + 1) 0 [t.blankLine true]) row 1 [])^[count params] t.lines
  ({ t with lines }.updateRange t.y).updateRange t.scrollBottom

def scrollUp (params : List Nat) (t : Terminal) : Terminal :=
  let top := t.ybase + t.scrollTop
  let bottom := t.ybase + t.scrollBottom
  let lines := (fun lines => splice (splice lines top 1 []) bottom 0 [t.blankLine false])^[count params] t.lines
  ({ t with lines }.updateRange t.scrollTop).updateRange t.scrollBottom

def scrollDown (params : List Nat) (t : Terminal) : Terminal :=
  let top := t.ybase + t.scrollTop
  let bottom := t.ybase + t.scrollBottom
  let lines := (fun lines => splice (splice lines bottom 1 []) top 0 [t.blankLine false])^[count params] t.lines
  ({ t with lines }.updateRange t.scrollTop).updateRange t.scrollBottom

/-! ## Reports -/

/-- `(this.y + 1) + ';' + (this.x + 1) + 'R'`. -/
def position (t : Terminal) : List CodeUnit :=
  units ((t.y + 1).repr ++ ";" ++ t.x.elim "NaN" (fun x => (x + 1).repr) ++ "R")

/-- Sends a reply, where there is one. -/
def reply (data : Option (List CodeUnit)) (t : Terminal) : Terminal := data.elim t fun data => t.send data

def statusReport (params : List Nat) (t : Terminal) : Option (List CodeUnit) :=
  if t.parser.prefixText = [] then
    if first params = 5 then some (units "\x1b[0n")
    else if first params = 6 then some (units "\x1b[" ++ t.position)
    else none
  else if t.parser.prefixText = units "?" then
    if first params = 6 then some (units "\x1b[?" ++ t.position) else none
  else none

def deviceStatus (params : List Nat) (t : Terminal) : Terminal := t.reply (t.statusReport params)

/-- `Terminal.termName` is `xterm`. -/
def deviceAttributes (params : List Nat) (t : Terminal) : Option (List CodeUnit) :=
  if 0 < first params then none
  else if t.parser.prefixText = [] then some (units "\x1b[?1;2c")
  else if t.parser.prefixText = units ">" then some (units "\x1b[>0;276;0c")
  else none

def sendDeviceAttributes (params : List Nat) (t : Terminal) : Terminal := t.reply (t.deviceAttributes params)

/-! ## Modes -/

/-- `this.normal = normal`. -/
def keep (normal : Option Saved) (t : Terminal) : Terminal := { t with normal }

def saved (t : Terminal) : Saved :=
  { lines := t.lines, ybase := t.ybase, ydisp := t.ydisp, x := t.x, y := t.y,
    scrollTop := t.scrollTop, scrollBottom := t.scrollBottom, tabs := t.tabs }

/-- A reset, after which the normal screen is kept. -/
def alternate (normal : Saved) (t : Terminal) : Option Terminal := (t.reset.map (keep (some normal))).bind showCursor

/-- To the alternate screen, unless it is shown. -/
def enterAlternate (t : Terminal) : Option Terminal := if t.normal.isSome then some t else alternate t.saved t

/-- The normal screen that was kept. -/
def restore (normal : Saved) (t : Terminal) : Terminal :=
  { t with
    lines := normal.lines, ybase := normal.ybase, ydisp := normal.ydisp, x := normal.x, y := normal.y,
    scrollTop := normal.scrollTop, scrollBottom := normal.scrollBottom, tabs := normal.tabs, normal := none }

/-- Back to the normal screen. -/
def leaveAlternate (t : Terminal) : Option Terminal :=
  t.normal.elim (some t) fun normal =>
    let t := t.restore normal
    (t.refresh 0 (t.rows - 1)).bind showCursor

/-- Other modes. -/
def withModes (f : Modes → Modes) (t : Terminal) : Terminal := { t with modes := f t.modes }

/-- `setMode` of one parameter behind `?`. -/
def setPrivateMode (p : Nat) : Terminal → Option Terminal :=
  match p with
  | 1 => some ∘ withModes ({ · with applicationCursor := true })
  | 2 => some ∘ setgCharset 3 none ∘ setgCharset 2 none ∘ setgCharset 1 none ∘ setgCharset 0 none
  | 3 => fun t => { t with savedCols := some t.cols }.resize 132 t.rows
  | 6 => some ∘ withModes ({ · with originMode := true })
  | 7 => some ∘ withModes ({ · with wraparoundMode := true })
  | 9 | 1000 | 1002 | 1003 => some ∘ withModes ({ · with
      x10Mouse := decide (p = 9), vt200Mouse := decide (p = 1000), normalMouse := decide (1000 < p),
      mouseEvents := true, cursorStyle := "default" })
  | 1004 => some ∘ withModes ({ · with sendFocus := true })
  | 1005 => some ∘ withModes ({ · with utfMouse := true })
  | 1006 => some ∘ withModes ({ · with sgrMouse := true })
  | 1015 => some ∘ withModes ({ · with urxvtMouse := true })
  | 25 => some ∘ withModes ({ · with cursorHidden := false })
  | 1049 | 47 | 1047 => enterAlternate
  | _ => some

/-- `setMode` of one parameter. The prefix is read again for each, and a reset clears it. -/
def setModeOne (t : Terminal) (p : Nat) : Option Terminal :=
  if t.parser.prefixText = [] then some (if p = 4 then t.withModes ({ · with insertMode := true }) else t)
  else if t.parser.prefixText = units "?" then setPrivateMode p t
  else some t

def setMode (params : List Nat) (t : Terminal) : Option Terminal := params.foldlM setModeOne t

/-- `case 3` of `resetMode`. -/
def resetColumns (t : Terminal) : Option Terminal :=
  let savedCols := t.savedCols.getD 0
  (if t.cols = 132 ∧ savedCols ≠ 0 then t.resize savedCols t.rows else some t).map
    fun t => { t with savedCols := none }

/-- `resetMode` of one parameter behind `?`. -/
def resetPrivateMode (p : Nat) : Terminal → Option Terminal :=
  match p with
  | 1 => some ∘ withModes ({ · with applicationCursor := false })
  | 3 => resetColumns
  | 6 => some ∘ withModes ({ · with originMode := false })
  | 7 => some ∘ withModes ({ · with wraparoundMode := false })
  | 9 | 1000 | 1002 | 1003 => some ∘ withModes ({ · with
      x10Mouse := false, vt200Mouse := false, normalMouse := false, mouseEvents := false, cursorStyle := "" })
  | 1004 => some ∘ withModes ({ · with sendFocus := false })
  | 1005 => some ∘ withModes ({ · with utfMouse := false })
  | 1006 => some ∘ withModes ({ · with sgrMouse := false })
  | 1015 => some ∘ withModes ({ · with urxvtMouse := false })
  | 25 => some ∘ withModes ({ · with cursorHidden := true })
  | 1049 | 47 | 1047 => leaveAlternate
  | _ => some

/-- `resetMode` of one parameter. -/
def resetModeOne (t : Terminal) (p : Nat) : Option Terminal :=
  if t.parser.prefixText = [] then some (if p = 4 then t.withModes ({ · with insertMode := false }) else t)
  else if t.parser.prefixText = units "?" then resetPrivateMode p t
  else some t

def resetMode (params : List Nat) (t : Terminal) : Option Terminal := params.foldlM resetModeOne t

def softReset (t : Terminal) : Terminal :=
  { t with
    scrollTop := 0, scrollBottom := t.rows - 1, curAttr := defAttr, x := some 0, y := 0
    modes := { t.modes with
      cursorHidden := false, insertMode := false, originMode := false, wraparoundMode := false,
      applicationKeypad := false, applicationCursor := false }
    charsets := { t.charsets with charset := none, glevel := 0, charsets := fun _ => none } }

end Tangle.Term.Terminal
