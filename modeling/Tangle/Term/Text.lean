/-
Text as the terminal sees it: the code units of a string, one to a cell, and the line drawing
characters that it puts for some of them.
-/
import Mathlib.Data.List.Basic

namespace Tangle.Term

/-- What `data[i]` is: half a character, for some. -/
abbrev CodeUnit := UInt16

/-- For comparisons with the characters that the source names. A surrogate is none of them. -/
def CodeUnit.char (c : CodeUnit) : Char := Char.ofNat c.toNat

/-- The code units of a character. -/
def utf16 (c : Char) : List CodeUnit :=
  if c.toNat < 0x10000 then [c.toNat.toUInt16]
  else [((c.toNat - 0x10000) / 0x400 + 0xd800).toUInt16, ((c.toNat - 0x10000) % 0x400 + 0xdc00).toUInt16]

def units (s : String) : List CodeUnit := s.toList.flatMap utf16

theorem units_append (s s' : String) : units (s ++ s') = units s ++ units s' := by
  rw [units, String.toList_append, List.flatMap_append]
  rfl

/-- `ch >= '0' && ch <= '9'`, and what it stands for. -/
def digit (c : CodeUnit) : Option Nat := if 0x30 ≤ c ∧ c ≤ 0x39 then some (c.toNat - 48) else none

/-! ## Character sets -/

/-- `Terminal.charsets` has only one that is not null. -/
inductive Charset
  | SCLD
deriving DecidableEq

/-- `this.charset[ch]`. -/
def Charset.get : Charset → CodeUnit → Option CodeUnit
  | .SCLD, c => match c.char with
    | '`' => some 0x25c6
    | 'a' => some 0x2592
    | 'b' => some 0x0009
    | 'c' => some 0x000c
    | 'd' => some 0x000d
    | 'e' => some 0x000a
    | 'f' => some 0x00b0
    | 'g' => some 0x00b1
    | 'h' => some 0x2424
    | 'i' => some 0x000b
    | 'j' => some 0x2518
    | 'k' => some 0x2510
    | 'l' => some 0x250c
    | 'm' => some 0x2514
    | 'n' => some 0x253c
    | 'o' => some 0x23ba
    | 'p' => some 0x23bb
    | 'q' => some 0x2500
    | 'r' => some 0x23bc
    | 's' => some 0x23bd
    | 't' => some 0x251c
    | 'u' => some 0x2524
    | 'v' => some 0x2534
    | 'w' => some 0x252c
    | 'x' => some 0x2502
    | 'y' => some 0x2264
    | 'z' => some 0x2265
    | '{' => some 0x03c0
    | '|' => some 0x2260
    | '}' => some 0x00a3
    | '~' => some 0x00b7
    | _ => none

end Tangle.Term
