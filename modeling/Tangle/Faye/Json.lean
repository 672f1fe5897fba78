/-
The values Faye messages carry, as both ends use them: the Ruby server indexes them with symbols and
joins arrays, the browser converts them to property names. A number is an integer or has a fraction; the
latter never equals an object id, which is all the server and the browser compare numbers with.
-/
import Mathlib.Data.List.Basic

namespace Tangle

/-- The exceptions the modelled code meets. -/
inductive Exn
  | noMethodError
  | typeError
  /-- Raised by code that is not modelled: a gem, the network, a cloud service. -/
  | standardError (message : String)
  deriving DecidableEq, Repr

inductive Json
  | null
  | bool (b : Bool)
  | int (n : Int)
  /-- A number with a fraction, by the shortest digits on both sides of the point. Both ends write it so, as long as
  neither falls back on an exponent. -/
  | frac (negative : Bool) (whole : Nat) (digits : String)
  | str (s : String)
  | arr (elems : List Json)
  | obj (fields : List (String × Json))

namespace Json

def fraction (negative : Bool) (whole : Nat) (digits : String) : String :=
  (if negative then "-" else "") ++ whole.repr ++ "." ++ digits

/-! ## Ruby -/

/-- `value[:key]`, after `with_indifferent_access`. -/
def index (key : String) : Json → Except Exn Json
  | .obj fields => .ok ((fields.lookup key).getD .null)
  | .str _ | .int _ | .arr _ => .error .typeError
  | .null | .bool _ | .frac .. => .error .noMethodError

/-- The body of `String#inspect`; characters beyond ASCII are taken to be printable. -/
def inspectChars : List Char → List Char
  | [] => []
  | '#' :: '{' :: cs => '\\' :: '#' :: '{' :: inspectChars cs
  | '#' :: '$' :: cs => '\\' :: '#' :: '$' :: inspectChars cs
  | '#' :: '@' :: cs => '\\' :: '#' :: '@' :: inspectChars cs
  | '"' :: cs => '\\' :: '"' :: inspectChars cs
  | '\\' :: cs => '\\' :: '\\' :: inspectChars cs
  | '\n' :: cs => '\\' :: 'n' :: inspectChars cs
  | '\r' :: cs => '\\' :: 'r' :: inspectChars cs
  | '\t' :: cs => '\\' :: 't' :: inspectChars cs
  | '\x07' :: cs => '\\' :: 'a' :: inspectChars cs
  | '\x08' :: cs => '\\' :: 'b' :: inspectChars cs
  | '\x0b' :: cs => '\\' :: 'v' :: inspectChars cs
  | '\x0c' :: cs => '\\' :: 'f' :: inspectChars cs
  | '\x1b' :: cs => '\\' :: 'e' :: inspectChars cs
  | c :: cs =>
    if c.toNat < 32 ∨ c.toNat = 127 then
      ['\\', 'u', '0', '0', (Nat.digitChar (c.toNat / 16)).toUpper, (Nat.digitChar (c.toNat % 16)).toUpper] ++
        inspectChars cs
    else c :: inspectChars cs

def inspectString (s : String) : String := "\"" ++ String.ofList (inspectChars s.toList) ++ "\""

mutual

def inspect : Json → String
  | .null => "nil"
  | .bool b => if b then "true" else "false"
  | .int n => n.repr
  | .frac negative whole digits => fraction negative whole digits
  | .str s => inspectString s
  | .arr elems => "[" ++ String.intercalate ", " (inspectElems elems) ++ "]"
  | .obj fields => "\x7b" ++ String.intercalate ", " (inspectFields fields) ++ "\x7d"

def inspectElems : List Json → List String
  | [] => []
  | x :: xs => inspect x :: inspectElems xs

def inspectFields : List (String × Json) → List String
  | [] => []
  | f :: fs => inspectField f :: inspectFields fs

def inspectField : String × Json → String
  | (key, x) => inspectString key ++ "=>" ++ inspect x

end

mutual

/-- An element as `Array#join` writes it: `to_s`, nested arrays joined in place. -/
def joinElem : Json → String
  | .null => ""
  | .bool b => if b then "true" else "false"
  | .int n => n.repr
  | .frac negative whole digits => fraction negative whole digits
  | .str s => s
  | .arr elems => joinElems elems
  | .obj fields => inspect (.obj fields)

def joinElems : List Json → String
  | [] => ""
  | x :: xs => joinElem x ++ joinElems xs

end

/-- `value.join`: only arrays have it. -/
def join : Json → Except Exn String
  | .arr elems => .ok (joinElems elems)
  | _ => .error .noMethodError

/-! ## JavaScript -/

mutual

/-- The property name a value is converted to in `obj[value]`. -/
def propertyKey : Json → String
  | .null => "null"
  | .bool b => if b then "true" else "false"
  | .int n => n.repr
  | .frac negative whole digits => fraction negative whole digits
  | .str s => s
  | .arr elems => String.intercalate "," (propertyKeys elems)
  | .obj _ => "[object Object]"

/-- The elements of an array conversion, where `null` is written as the empty string. -/
def propertyKeys : List Json → List String
  | [] => []
  | .null :: xs => "" :: propertyKeys xs
  | x :: xs => propertyKey x :: propertyKeys xs

end

/-- `value.key` with `undefined` for a property that is not there; `none` where reading it throws. -/
def property (key : String) : Json → Option (Option Json)
  | .null => none
  | .obj fields => some (fields.lookup key)
  | _ => some none

end Json

end Tangle
