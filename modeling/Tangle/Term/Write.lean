/-
`write`: the parser of what a program prints, one code unit after the other. A unit may make the loop
pass over the next one (`i++`), so the parser carries whether it does.
-/
import Tangle.Lib.Machine
import Tangle.Term.Control

namespace Tangle.Term

namespace Param

/-- `this.currentParam * 10 + ch.charCodeAt(0) - 48`. The numbers of the source are doubles: with more than 15 digits
they are rounded, which these are not. -/
def digit : Param → Nat → Param
  | number n, d => number (n * 10 + d)
  | text s, _ => text s

/-- `this.currentParam += ch`. -/
def append : Param → CodeUnit → Param
  | number n, ch => text (units n.repr ++ [ch])
  | text s, ch => text (s ++ [ch])

/-- As part of a string. -/
def toText : Param → List CodeUnit
  | number n => units n.repr
  | text s => s

/-- The parameters of a control sequence are numbers. -/
def value : Param → Nat
  | number n => n
  | text _ => 0

/-- `!this.currentParam`. -/
def Falsy : Param → Prop
  | number n => n = 0
  | text s => s = []

instance : DecidablePred Falsy
  | number n => inferInstanceAs (Decidable (n = 0))
  | text s => inferInstanceAs (Decidable (s = []))

end Param

namespace Terminal

open JsArray

/-! ## The states -/

/-- What the character set in use has for a character. -/
def translate (t : Terminal) (ch : CodeUnit) : CodeUnit :=
  (t.charsets.charset.bind fun charset => charset.get ch).getD ch

/-- To the next row, where this one is full. -/
def wrap (t : Terminal) : Terminal :=
  t.x.elim t fun x => if t.cols ≤ x then { t with x := some 0 }.nextRow else t

theorem wrap_of_none {t : Terminal} (h : t.x = none) : t.wrap = t := by
  rw [wrap, h]
  rfl

theorem wrap_of_some {t : Terminal} {x : Nat} (h : t.x = some x) :
    t.wrap = if t.cols ≤ x then { t with x := some 0 }.nextRow else t := by
  rw [wrap, h]
  rfl

/-- Stores a character at the cursor, which moves on. What is stored in column `NaN` is no element of the line. -/
def put (ch : CodeUnit) (t : Terminal) : Option Terminal :=
  (t.onLine t.y fun line => t.x.elim line fun x => store line x (t.curAttr, ch)).map
    fun t => { t with x := t.x.map (· + 1) }.updateRange t.y

def print (ch : CodeUnit) (t : Terminal) : Option Terminal := t.wrap.put (t.translate ch)

/-- `case normal`. The bell does not change the terminal. -/
def normalState (ch : CodeUnit) : Terminal → Option Terminal :=
  match ch.char with
  | '\x07' => some
  | '\n' | '\x0b' | '\x0c' => fun t => some { t with x := if t.modes.convertEol then some 0 else t.x }.nextRow
  | '\r' => fun t => some { t with x := some 0 }
  | '\x08' => fun t => some { t with x := t.x.map fun x => if 0 < x then x - 1 else x }
  | '\t' => fun t => some { t with x := t.x.map t.nextStop }
  | '\x0e' => some ∘ setgLevel 1
  | '\x0f' => some ∘ setgLevel 0
  | '\x1b' => some ∘ toState .escaped
  | _ => if 0x20 ≤ ch then print ch else some

/-- `this.gcharset = g`. -/
def designate (g : Option Nat) (t : Terminal) : Terminal := { t with charsets := { t.charsets with gcharset := g } }

/-- The set that a character names; all but one are null. -/
def charsetOf (ch : CodeUnit) : Option Charset := if ch.char = '0' then some .SCLD else none

/-- `case charset`. The name `/A` has a second character. -/
def charsetState (ch : CodeUnit) (t : Terminal) : Terminal × Bool :=
  let t := t.charsets.gcharset.elim t fun g => t.setgCharset g (charsetOf ch)
  ((t.designate none).toState .normal, decide (ch.char = '/'))

/-- `this.params = []`, `this.currentParam = 0` and the state that reads them. -/
def clearParams (state : State) (t : Terminal) : Terminal :=
  { t with parser := { t.parser with params := [], currentParam := .number 0, state } }

/-- A function of the terminal that does not pass over the next character, and one that does. -/
def stay (f : Terminal → Terminal) (t : Terminal) : Option (Terminal × Bool) := some (f t, false)
def passOver (f : Terminal → Terminal) (t : Terminal) : Option (Terminal × Bool) := some (f t, true)

/-- `case escaped`. After `ESC /` the same character is read again, as a character set. -/
def escapedState (ch : CodeUnit) : Terminal → Option (Terminal × Bool) :=
  match ch.char with
  | '[' => stay (clearParams .csi)
  | ']' => stay (clearParams .osc)
  | 'P' => stay (clearParams .dcs)
  | '_' | '^' => stay (toState .ignore)
  | 'c' => fun t => t.reset.map fun t => (t, false)
  | 'E' => stay fun t => { t with x := some 0 }.index
  | 'D' => stay index
  | 'M' => stay reverseIndex
  | '%' => passOver (toState .normal ∘ setgCharset 0 none ∘ setgLevel 0)
  | '(' => stay (toState .charset ∘ designate (some 0))
  | ')' | '-' => stay (toState .charset ∘ designate (some 1))
  | '*' | '.' => stay (toState .charset ∘ designate (some 2))
  | '+' => stay (toState .charset ∘ designate (some 3))
  | '/' => some ∘ charsetState ch ∘ toState .charset ∘ designate (some 3)
  | 'N' | 'O' => stay id
  | 'n' | '}' => stay (setgLevel 2)
  | 'o' | '|' => stay (setgLevel 3)
  | '~' => stay (setgLevel 1)
  | '7' => stay (toState .normal ∘ saveCursor)
  | '8' => stay (toState .normal ∘ restoreCursor)
  | '#' => passOver (toState .normal)
  | 'H' => stay tabSet
  | '=' => stay (toState .normal ∘ withModes ({ · with applicationKeypad := true }))
  | '>' => stay (toState .normal ∘ withModes ({ · with applicationKeypad := false }))
  | _ => stay (toState .normal)

/-- The title that an operating system command sets: it has the number 0, 1 or 2, and its text is not empty. -/
def titleOf (params : List Param) : Option (List CodeUnit) :=
  match params with
  | .number n :: title :: _ => if n ≤ 2 ∧ ¬ title.Falsy then some title.toText else none
  | _ => none

def setTitle (title : List CodeUnit) (t : Terminal) : Terminal :=
  { t with out := { t.out with title } }.handleTitle title

def oscEnd (t : Terminal) : Terminal :=
  let t := (titleOf (t.parser.params ++ [t.parser.currentParam])).elim t fun title => t.setTitle title
  t.clearParams .normal

/-- Another current parameter. -/
def setParam (p : Param) (t : Terminal) : Terminal := { t with parser := { t.parser with currentParam := p } }

/-- `this.params.push(this.currentParam)` and a new one. -/
def pushParam (p : Param) (t : Terminal) : Terminal :=
  { t with parser := { t.parser with params := t.parser.params ++ [t.parser.currentParam], currentParam := p } }

/-- `ch === '\x1b' || ch === '\x07'`. -/
def Ends (ch : CodeUnit) : Prop := ch.char = '\x1b' ∨ ch.char = '\x07'

instance (ch : CodeUnit) : Decidable (Ends ch) := inferInstanceAs (Decidable (_ ∨ _))

/-- A character of an operating system command: a digit of its number, or one of its text. -/
def oscText (ch : CodeUnit) (t : Terminal) : Terminal :=
  if t.parser.params = [] then
    match digit ch with
    | some d => t.setParam (t.parser.currentParam.digit d)
    | none => if ch.char = ';' then t.pushParam (.text []) else t
  else t.setParam (t.parser.currentParam.append ch)

/-- `case osc`. -/
def oscState (ch : CodeUnit) (t : Terminal) : Terminal × Bool :=
  if Ends ch then (t.oscEnd, decide (ch.char = '\x1b')) else (t.oscText ch, false)

/-- What the final character of a control sequence calls. -/
def csiFinal (ch : CodeUnit) (params : List Nat) : Terminal → Option Terminal :=
  match ch.char with
  | 'A' => some ∘ cursorUp params
  | 'B' => some ∘ cursorDown params
  | 'C' => some ∘ cursorForward params
  | 'D' => some ∘ cursorBackward params
  | 'H' => some ∘ cursorPos params
  | 'J' => eraseInDisplay params
  | 'K' => eraseInLine params
  | 'm' => fun t => some { t with curAttr := charAttributes params t.curAttr }
  | 'n' => some ∘ deviceStatus params
  | '@' => insertChars params
  | 'E' => some ∘ cursorNextLine params
  | 'F' => some ∘ cursorPrecedingLine params
  | 'G' => some ∘ cursorCharAbsolute params
  | 'L' => some ∘ insertLines params
  | 'M' => some ∘ deleteLines params
  | 'P' => deleteChars params
  | 'X' => eraseChars params
  | '`' => some ∘ charPosAbsolute params
  | 'a' => some ∘ HPositionRelative params
  | 'c' => some ∘ sendDeviceAttributes params
  | 'd' => some ∘ linePosAbsolute params
  | 'e' => some ∘ VPositionRelative params
  | 'f' => some ∘ HVPosition params
  | 'h' => setMode params
  | 'l' => resetMode params
  | 'r' => some ∘ setScrollRegion params
  | 's' => some ∘ saveCursor
  | 'u' => some ∘ restoreCursor
  | 'I' => some ∘ cursorForwardTab params
  | 'S' => some ∘ scrollUp params
  | 'T' => fun t => if params.length < 2 ∧ t.parser.prefixText = [] then some (t.scrollDown params) else some t
  | 'Z' => some ∘ cursorBackwardTab params
  | 'b' => repeatPrecedingCharacter params
  | 'g' => some ∘ tabClear params
  | 'p' => fun t => if t.parser.prefixText = units "!" then some t.softReset else some t
  | _ => some

/-- `this.prefix` and `this.postfix`. -/
def affixes (before after : List CodeUnit) (t : Terminal) : Terminal :=
  { t with parser := { t.parser with prefixText := before, postfixText := after } }

/-- The end of a control sequence. -/
def csiEnd (ch : CodeUnit) (t : Terminal) : Option Terminal :=
  let t := (t.pushParam (.number 0)).toState .normal
  (csiFinal ch (t.parser.params.map Param.value) t).map (affixes [] [])

/-- `case csi`. -/
def csiState (ch : CodeUnit) : Terminal → Option Terminal :=
  if ch.char = '?' ∨ ch.char = '>' ∨ ch.char = '!' then fun t => some (t.affixes [ch] t.parser.postfixText)
  else match digit ch with
  | some d => fun t => some (t.setParam (t.parser.currentParam.digit d))
  | none =>
    if ch.char = '$' ∨ ch.char = '"' ∨ ch.char = ' ' ∨ ch.char = '\'' then
      fun t => some (t.affixes t.parser.prefixText [ch])
    else if ch.char = ';' then some ∘ pushParam (.number 0)
    else csiEnd ch

/-- The setting that a device control string asks for. -/
def setting (t : Terminal) (pt : Param) : List CodeUnit :=
  if pt = .text (units "\"q") then units "0\"q"
  else if pt = .text (units "\"p") then units "61\"p"
  else if pt = .text (units "r") then units ((t.scrollTop + 1).repr ++ ";" ++ (t.scrollBottom + 1).repr ++ "r")
  else if pt = .text (units "m") then units "0m"
  else []

/-- The answer to a device control string. -/
def controlReply (t : Terminal) : Option (List CodeUnit) :=
  let pt := t.parser.currentParam
  if t.parser.prefixText = units "$q" then some (units "\x1bP0$r" ++ t.setting pt ++ units "\x1b\\")
  else if t.parser.prefixText = units "+q" then some (units "\x1bP0+r" ++ pt.toText ++ units "\x1b\\")
  else none

def dcsEnd (t : Terminal) : Terminal :=
  (((t.reply t.controlReply).setParam (.number 0)).affixes [] t.parser.postfixText).toState .normal

/-- A character of a device control string: one of its prefix, or one of its text. -/
def dcsText (ch : CodeUnit) (t : Terminal) : Terminal :=
  if t.parser.currentParam.Falsy then
    if t.parser.prefixText = [] ∧ ch.char ≠ '$' ∧ ch.char ≠ '+' then t.setParam (.text [ch])
    else if t.parser.prefixText.length = 2 then t.setParam (.text [ch])
    else t.affixes (t.parser.prefixText ++ [ch]) t.parser.postfixText
  else t.setParam (t.parser.currentParam.append ch)

/-- `case dcs`. -/
def dcsState (ch : CodeUnit) (t : Terminal) : Terminal × Bool :=
  if Ends ch then (t.dcsEnd, decide (ch.char = '\x1b')) else (t.dcsText ch, false)

/-- `case ignore`. -/
def ignoreState (ch : CodeUnit) (t : Terminal) : Terminal × Bool :=
  if Ends ch then (t.toState .normal, decide (ch.char = '\x1b')) else (t, false)

/-! ## The loop -/

/-- One round, and whether it passes over the next character. -/
def round (t : Terminal) (ch : CodeUnit) : Option (Terminal × Bool) :=
  match t.parser.state with
  | .normal => (normalState ch t).map fun t => (t, false)
  | .escaped => escapedState ch t
  | .charset => some (charsetState ch t)
  | .osc => some (oscState ch t)
  | .csi => (csiState ch t).map fun t => (t, false)
  | .dcs => some (dcsState ch t)
  | .ignore => some (ignoreState ch t)

/-- The loop as a machine: its state is the terminal and whether the next character is passed over. -/
def parse : Terminal × Bool → CodeUnit → Option (Terminal × Bool)
  | (t, true), _ => some (t, false)
  | (t, false), ch => t.round ch

/-- Before the loop the view is scrolled down. -/
def begin (t : Terminal) : Terminal :=
  let t := { t with page := { t.page with refreshStart := t.y, refreshEnd := t.y } }
  if t.ybase ≠ t.ydisp then { t with ydisp := t.ybase }.maxRange else t

/-- After the loop the rows in between are drawn. -/
def finish (t : Terminal) : Option Terminal :=
  let t := t.updateRange t.y
  t.refresh t.page.refreshStart t.page.refreshEnd

def write (data : List CodeUnit) (t : Terminal) : Option Terminal :=
  (Machine.exec parse (t.begin, false) data).bind fun (t, _) => t.finish

end Terminal
end Tangle.Term
