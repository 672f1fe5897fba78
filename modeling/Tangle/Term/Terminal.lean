/-
A terminal of the browser: its state, the lines with the part of them that is on the screen, and how
they are drawn, scrolled, erased and resized. An exception is `none`. Coordinates are natural
numbers; where the source would go below zero the comparison is turned around.
-/
import Tangle.Lib.JsArray
import Tangle.Term.Attr
import Tangle.Term.Text
import Mathlib.Data.Finset.Insert
import Mathlib.Data.Finset.Erase
import Mathlib.Logic.Function.Basic

namespace Tangle.Term

open JsArray

/-- `[attr, ch]`. -/
abbrev Cell := Attr × CodeUnit

/-- A line may be stored to behind its end. -/
abbrev Line := List (Option Cell)

/-- HTML. -/
abbrev Html := List CodeUnit

/-- The states of the parser. -/
inductive State
  | normal
  | escaped
  | csi
  | osc
  | charset
  | dcs
  | ignore
deriving DecidableEq

/-- A parameter is a number, or the text of an operating system command or a control string. -/
inductive Param
  | number (n : Nat)
  | text (s : List CodeUnit)
deriving DecidableEq

/-- What `setMode` keeps of the normal screen while the alternate one is shown. -/
structure Saved where
  lines : List Line
  ybase : Nat
  ydisp : Nat
  x : Option Nat
  y : Nat
  scrollTop : Nat
  scrollBottom : Nat
  tabs : Finset Nat

/-- What a terminal tells its listeners. -/
inductive Event
  | data (d : List CodeUnit)
  | title (s : List CodeUnit)
deriving DecidableEq

/-- What the modes switch; `cursorStyle` is `element.style.cursor`. -/
structure Modes where
  cursorHidden : Bool
  convertEol : Bool
  applicationKeypad : Bool
  applicationCursor : Bool
  originMode : Bool
  insertMode : Bool
  wraparoundMode : Bool
  x10Mouse : Bool
  vt200Mouse : Bool
  normalMouse : Bool
  mouseEvents : Bool
  sendFocus : Bool
  utfMouse : Bool
  sgrMouse : Bool
  urxvtMouse : Bool
  cursorStyle : String
deriving DecidableEq

structure Charsets where
  charset : Option Charset
  gcharset : Option Nat
  glevel : Nat
  charsets : Nat → Option Charset

structure Parser where
  state : State
  params : List Param
  currentParam : Param
  prefixText : List CodeUnit
  postfixText : List CodeUnit
deriving DecidableEq

/-- The rows of the page, and the range of them that is to be drawn. -/
structure Page where
  children : List Html
  brokenBold : Bool
  refreshStart : Nat
  refreshEnd : Nat
deriving DecidableEq

/-- What leaves the terminal: `timers` counts the timeouts that `send` has set, and `emitted` records the
events. -/
structure Outbox where
  queue : List CodeUnit
  timers : Nat
  title : List CodeUnit
  emitted : List Event
deriving DecidableEq

/-- The properties of a terminal, some of them grouped. The column `x` is `none` where it is `NaN`; a column that was
saved as `NaN` is 0 when it is restored, as one is that was not saved. -/
structure Terminal where
  cols : Nat
  rows : Nat
  ybase : Nat
  ydisp : Nat
  x : Option Nat
  y : Nat
  cursorState : Bool
  scrollTop : Nat
  scrollBottom : Nat
  normal : Option Saved
  savedX : Option Nat
  savedY : Option Nat
  savedCols : Option Nat
  curAttr : Attr
  lines : List Line
  tabs : Finset Nat
  modes : Modes
  charsets : Charsets
  parser : Parser
  page : Page
  out : Outbox

/-- `Terminal.scrollback`. -/
def scrollback : Nat := 1000

namespace Terminal

/-! ## Tab stops -/

/-- The loop of `prevStop`; below the first column it ends there. -/
def prevStopFrom (tabs : Finset Nat) : Nat → Nat
  | 0 => 0
  | x + 1 => if x ∉ tabs ∧ 0 < x then prevStopFrom tabs x else x

/-- The loop of `nextStop`, which ends after as many steps as there are columns. -/
def nextStopFrom (tabs : Finset Nat) (cols : Nat) : Nat → Nat → Nat
  | 0, x => x + 1
  | n + 1, x => if x + 1 ∉ tabs ∧ x + 1 < cols then nextStopFrom tabs cols n (x + 1) else x + 1

def prevStop (t : Terminal) (x : Nat) : Nat :=
  let x := prevStopFrom t.tabs x
  if t.cols ≤ x then t.cols - 1 else x

def nextStop (t : Terminal) (x : Nat) : Nat :=
  let x := nextStopFrom t.tabs t.cols t.cols x
  if t.cols ≤ x then t.cols - 1 else x

/-- `for (; i < this.cols; i += 8)`, in at most as many rounds as there are columns. -/
def setStops (cols : Nat) : Nat → Nat → Finset Nat → Finset Nat
  | 0, _, tabs => tabs
  | n + 1, i, tabs => if i < cols then setStops cols n (i + 8) (insert i tabs) else tabs

/-- The stops after `setupStops(i)`. -/
def setupStops (i : Option Nat) (t : Terminal) : Finset Nat :=
  match i with
  | some i => setStops t.cols t.cols (if i ∈ t.tabs then i else t.prevStop i) t.tabs
  | none => setStops t.cols t.cols 0 ∅

/-! ## Blank lines -/

def blankLine (t : Terminal) (cur : Bool) : Line :=
  List.replicate t.cols (some (if cur then t.curAttr else defAttr, 0x20))

/-! ## What is drawn

`updateRange` collects the rows that a write has to draw again; `refresh` draws a range of rows. -/

def updateRange (y : Nat) (t : Terminal) : Terminal :=
  { t with page := { t.page with
      refreshStart := if y < t.page.refreshStart then y else t.page.refreshStart
      refreshEnd := if t.page.refreshEnd < y then y else t.page.refreshEnd } }

def maxRange (t : Terminal) : Terminal :=
  { t with page := { t.page with refreshStart := 0, refreshEnd := t.rows - 1 } }

/-- The start of a span that is not the default; the cursor has -1. -/
def openSpan (brokenBold : Bool) (data : Attr) : Html :=
  if data = -1#32 then units "<span class=\"reverse-video\">"
  else
    let bgColor := (data &&& 0x1ff#32).toNat
    let fgColor := (data.sshiftRight 9 &&& 0x1ff#32).toNat
    let flags := data.sshiftRight 18
    let bold := flags &&& 1#32 ≠ 0
    let fgColor := if bold ∧ fgColor < 8 then fgColor + 8 else fgColor
    units "<span style=\"" ++
    (if bold ∧ !brokenBold then units "font-weight:bold;" else []) ++
    (if flags &&& 2#32 ≠ 0 then units "text-decoration:underline;" else []) ++
    (if bgColor ≠ 256 then units "background-color:" ++ units (colors[bgColor]?.getD "undefined") ++ units ";"
      else []) ++
    (if fgColor ≠ 257 then units "color:" ++ units (colors[fgColor]?.getD "undefined") ++ units ";" else []) ++
    units "\">"

def closeSpan : Html := units "</span>"

def escape (ch : CodeUnit) : Html :=
  if ch.char = '&' then units "&amp;"
  else if ch.char = '<' then units "&lt;"
  else if ch.char = '>' then units "&gt;"
  else if ch ≤ 0x20 then units "&nbsp;"
  else [ch]

/-- One round of the loop over a line, from `attr` and `out`. -/
def refreshCell (brokenBold : Bool) (attr : Attr) (out : Html) (data : Attr) (ch : CodeUnit) : Attr × Html :=
  let out := if data ≠ attr then
      let out := if attr ≠ defAttr then out ++ closeSpan else out
      if data ≠ defAttr then out ++ openSpan brokenBold data else out
    else out
  (data, out ++ escape ch)

/-- The loop over the first `n` columns of a line, with the cursor in column `x` if in any. -/
def refreshCells (brokenBold : Bool) (x : Option Nat) (line : Line) : Nat → Option (Attr × Html)
  | 0 => some (defAttr, [])
  | i + 1 => (refreshCells brokenBold x line i).bind fun (attr, out) =>
    (JsArray.get line i).map fun (data, ch) =>
      refreshCell brokenBold attr out (if x = some i then -1#32 else data) ch

/-- A row of the page. -/
def refreshLine (brokenBold : Bool) (x : Option Nat) (line : Line) (width : Nat) : Option Html :=
  (refreshCells brokenBold x line width).map fun (attr, out) => if attr ≠ defAttr then out ++ closeSpan else out

/-- The column of the cursor, in the row that shows it. -/
def cursorAt (t : Terminal) (y : Nat) : Option Nat :=
  if y = t.y ∧ t.cursorState ∧ t.ydisp = t.ybase ∧ !t.modes.cursorHidden then t.x else none

def refreshRow (t : Terminal) (y : Nat) : Option Html :=
  t.lines[y + t.ydisp]?.bind fun line => refreshLine t.page.brokenBold (t.cursorAt y) line t.cols

/-- One round of the loop of `refresh`. -/
def draw (t : Terminal) (y : Nat) : Option Terminal :=
  (t.refreshRow y).bind fun out =>
    if y < t.page.children.length then
      some { t with page := { t.page with children := t.page.children.set y out } }
    else none

def refresh (first last : Nat) (t : Terminal) : Option Terminal :=
  (List.range' first (last + 1 - first)).foldlM draw t

/-- `this.cursorState ^= 1`, for the terminal that has the focus. -/
def cursorBlink (t : Terminal) : Option Terminal := { t with cursorState := !t.cursorState }.refresh t.y t.y

def showCursor (t : Terminal) : Option Terminal :=
  if !t.cursorState then { t with cursorState := true }.refresh t.y t.y else some t

/-! ## Construction -/

/-- `Terminal.call(this, cols, rows)`. What only the prototype or a method sets stays as it is. -/
def construct (cols rows : Nat) (this : Terminal) : Terminal :=
  let cols := if cols = 0 then 80 else cols
  let rows := if rows = 0 then 24 else rows
  { this with
    cols, rows, ybase := 0, ydisp := 0, x := some 0, y := 0, cursorState := false, scrollTop := 0,
    scrollBottom := rows - 1, normal := none, curAttr := defAttr,
    lines := List.replicate rows (List.replicate cols (some (defAttr, 0x20)))
    tabs := setStops cols cols 0 ∅
    modes := { this.modes with
      cursorHidden := false, convertEol := false, applicationKeypad := false, applicationCursor := false,
      originMode := false, insertMode := false, wraparoundMode := false }
    charsets := { charset := none, gcharset := none, glevel := 0, charsets := fun _ => none }
    parser := { state := .normal, params := [], currentParam := .number 0, prefixText := [], postfixText := [] }
    out := { this.out with queue := [] } }

/-- An object that no constructor has seen. -/
def object : Terminal where
  cols := 0
  rows := 0
  ybase := 0
  ydisp := 0
  x := some 0
  y := 0
  cursorState := false
  scrollTop := 0
  scrollBottom := 0
  normal := none
  savedX := none
  savedY := none
  savedCols := none
  curAttr := defAttr
  lines := []
  tabs := ∅
  modes :=
    { cursorHidden := false, convertEol := false, applicationKeypad := false, applicationCursor := false,
      originMode := false, insertMode := false, wraparoundMode := false, x10Mouse := false, vt200Mouse := false,
      normalMouse := false, mouseEvents := false, sendFocus := false, utfMouse := false, sgrMouse := false,
      urxvtMouse := false, cursorStyle := "" }
  charsets := { charset := none, gcharset := none, glevel := 0, charsets := fun _ => none }
  parser := { state := .normal, params := [], currentParam := .number 0, prefixText := [], postfixText := [] }
  page := { children := [], brokenBold := false, refreshStart := 0, refreshEnd := 0 }
  out := { queue := [], timers := 0, title := [], emitted := [] }

def new (cols rows : Nat) : Terminal := construct cols rows object

/-- The rows of the page, and the first drawing of them. -/
def opened (t : Terminal) : Option Terminal :=
  { t with page := { t.page with children := List.replicate t.rows [] } }.refresh 0 (t.rows - 1)

/-- `ESC c`. -/
def reset (t : Terminal) : Option Terminal :=
  let t := construct t.cols t.rows t
  t.refresh 0 (t.rows - 1)

/-- To another state of the parser. -/
def toState (state : State) (t : Terminal) : Terminal := { t with parser := { t.parser with state } }

/-! ## Lines -/

/-- Works on the line of a row; a row without one raises. -/
def onLine (t : Terminal) (y : Nat) (f : Line → Line) : Option Terminal :=
  t.lines[t.ybase + y]?.map fun line => { t with lines := t.lines.set (t.ybase + y) (f line) }

/-- What `scroll` makes of `ybase` and `lines`. `row` is `this.ybase + this.rows - 1` less
`this.rows - 1 - this.scrollBottom`. -/
def scrollLines (t : Terminal) : Nat × List Line :=
  let ybase := t.ybase + 1
  let (ybase, lines) :=
    if ybase = scrollback then (ybase / 2, last (ybase / 2 + t.rows - 1) t.lines) else (ybase, t.lines)
  let row := ybase + t.scrollBottom
  let lines :=
    if row = lines.length then lines ++ [t.blankLine false] else splice lines row 0 [t.blankLine false]
  if t.scrollTop ≠ 0 then
    let ybase := if ybase ≠ 0 then ybase - 1 else ybase
    (ybase, splice lines (ybase + t.scrollTop) 1 [])
  else (ybase, lines)

def scroll (t : Terminal) : Terminal :=
  let (ybase, lines) := t.scrollLines
  ({ t with ybase, ydisp := ybase, lines }.updateRange t.scrollTop).updateRange t.scrollBottom

/-- The wheel moves the view, by as much up or down. -/
def scrollDisp (disp : Int) (t : Terminal) : Option Terminal :=
  let ydisp := (t.ydisp : Int) + disp
  { t with ydisp := if ydisp > t.ybase then t.ybase else if ydisp < 0 then 0 else ydisp.toNat }.refresh 0 (t.rows - 1)

/-- `NaN` is not less than `this.cols`. -/
def eraseRight (x : Option Nat) (y : Nat) (t : Terminal) : Option Terminal :=
  (x.elim (some t) fun x =>
    if x < t.cols then t.onLine y fun line => fill line x (t.cols - x) (t.curAttr, 0x20) else some t).map
    fun t => t.updateRange y

/-- The source stores from the right to the left, from `NaN` nothing. -/
def eraseLeft (x : Option Nat) (y : Nat) (t : Terminal) : Option Terminal :=
  (x.elim (some t) fun x => t.onLine y fun line => fill line 0 (x + 1) (t.curAttr, 0x20)).map fun t => t.updateRange y

def eraseLine (y : Nat) (t : Terminal) : Option Terminal := t.eraseRight (some 0) y

/-- `this.y++`, and a scroll instead where that leaves the region. -/
def nextRow (t : Terminal) : Terminal := if t.scrollBottom < t.y + 1 then t.scroll else { t with y := t.y + 1 }

/-- `ESC D`. -/
def index (t : Terminal) : Terminal := t.nextRow.toState .normal

/-- `ESC M`. The row may be the first, so `this.y--` is done after the comparison. -/
def reverseIndex (t : Terminal) : Terminal :=
  let t :=
    if t.y < t.scrollTop + 1 then
      let lines := splice t.lines (t.y + t.ybase) 0 [t.blankLine true]
      ({ t with lines := splice lines (t.ybase + t.scrollBottom + 1) 1 [] }.updateRange t.scrollTop).updateRange
        t.scrollBottom
    else { t with y := t.y - 1 }
  t.toState .normal

/-- `ESC H`. A stop at `NaN` is looked up from that column only, where the search ends with or without it. -/
def tabSet (t : Terminal) : Terminal :=
  { t with tabs := t.x.elim t.tabs fun x => insert x t.tabs }.toState .normal

/-! ## Resizing -/

/-- `push` or `pop` until the line has `x` cells. -/
def fitLine (cols x : Nat) (line : Line) : Line :=
  if cols < x then line ++ List.replicate (x - line.length) (some (defAttr, 0x20))
  else if x < cols then line.take x
  else line

/-- The loops over the rows that are new or gone: in each round the last element is added or taken away where
there are too few or too many. -/
def fitRows {α : Type} (rows y size : Nat) (a : α) (l : List α) : List α :=
  if rows < y then (fun l => if l.length < size then l ++ [a] else l)^[y - rows] l
  else if y < rows then (fun l => if size < l.length then l.dropLast else l)^[rows - y] l
  else l

/-- What `resize` makes of the terminal before it draws. The stops are set up before `cols` is. -/
def fit (x y : Nat) (t : Terminal) : Terminal :=
  let blank : Line := List.replicate x (some (defAttr, 0x20))
  { t with
    cols := x
    rows := y
    x := t.x.map fun col => if x ≤ col then x - 1 else col
    y := if y ≤ t.y then y - 1 else t.y
    scrollTop := 0
    scrollBottom := y - 1
    lines := fitRows t.rows y (y + t.ybase) blank (t.lines.map (fitLine t.cols x))
    tabs := t.setupStops (some t.cols)
    page := { t.page with children := fitRows t.rows y y [] t.page.children } }

def resize (x y : Nat) (t : Terminal) : Option Terminal :=
  let x := if x < 1 then 1 else x
  let y := if y < 1 then 1 else y
  ((t.fit x y).refresh 0 (y - 1)).map fun t => { t with normal := none }

end Terminal
end Tangle.Term
