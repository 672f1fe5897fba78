/-
What a browser makes of the rows that are drawn: read as HTML, a row gives in each column the character of
its cell, in a span that has the style of the cell. Whatever characters a line holds, none of them is taken
for markup, and the spans are balanced.
-/
import Tangle.Term.Run

namespace Tangle.Term

open Machine

/-! ## Reading HTML

The part of HTML that is drawn: text with entities, in spans that are not nested. -/

/-- In the text, or behind a `<` or an `&`. -/
inductive Place
  | text
  | tag (name : Html)
  | entity (name : Html)
deriving DecidableEq

/-- `span` are the attributes of the span that is open, and `shown` the characters with their spans. -/
structure Reader where
  span : Option Html
  place : Place
  shown : List (Option Html × CodeUnit)
deriving DecidableEq

namespace Reader

def start : Reader := { span := none, place := .text, shown := [] }

def addChar (ch : CodeUnit) (r : Reader) : Reader := { r with place := .text, shown := r.shown ++ [(r.span, ch)] }

/-- The end of a tag: a span opens where none is open, or the open one closes. -/
def endTag (name : Html) (r : Reader) : Option Reader :=
  if name.take 5 = units "span " then
    if r.span = none then some { r with span := some (name.drop 5), place := .text } else none
  else if name = units "/span" then
    if r.span = none then none else some { r with span := none, place := .text }
  else none

def endEntity (name : Html) (r : Reader) : Option Reader :=
  if name = units "amp" then some (r.addChar 0x26)
  else if name = units "lt" then some (r.addChar 0x3c)
  else if name = units "gt" then some (r.addChar 0x3e)
  else if name = units "nbsp" then some (r.addChar 0xa0)
  else none

def step (r : Reader) (ch : CodeUnit) : Option Reader :=
  match r.place with
  | .text =>
    if ch.char = '<' then some { r with place := .tag [] }
    else if ch.char = '&' then some { r with place := .entity [] }
    else if ch.char = '>' then none
    else some (r.addChar ch)
  | .tag name => if ch.char = '>' then r.endTag name else some { r with place := .tag (name ++ [ch]) }
  | .entity name => if ch.char = ';' then r.endEntity name else some { r with place := .entity (name ++ [ch]) }

end Reader

/-- The characters of a row with the attributes of their spans. No tag, entity or span is left open. -/
def readHtml (html : Html) : Option (List (Option Html × CodeUnit)) :=
  (exec Reader.step .start html).bind fun r => if r.place = .text ∧ r.span = none then some r.shown else none

/-! ## Styles as attributes -/

/-- The attributes of a span. Bold text has the bright one of a dark colour. -/
def Style.css (brokenBold : Bool) (s : Style) : Html :=
  let fg := if s.bold = true ∧ s.fg < 8 then s.fg + 8 else s.fg
  units "style=\"" ++
  (if s.bold = true ∧ !brokenBold then units "font-weight:bold;" else []) ++
  (if s.underline = true then units "text-decoration:underline;" else []) ++
  (if s.bg ≠ 256 then units "background-color:" ++ units (colors[s.bg]?.getD "undefined") ++ units ";" else []) ++
  (if fg ≠ 257 then units "color:" ++ units (colors[fg]?.getD "undefined") ++ units ";" else []) ++
  units "\""

/-- The span that an attribute stands in, if any; the cursor has -1. -/
def look (brokenBold : Bool) (a : Attr) : Option Html :=
  if a = -1#32 then some (units "class=\"reverse-video\"")
  else if a = defAttr then none
  else some ((style a).css brokenBold)

/-- The character that a browser shows. -/
def shownChar (ch : CodeUnit) : CodeUnit := if ch ≤ 0x20 then 0xa0 else ch

namespace Terminal

/-- A test of a flag. -/
theorem flag_test (a : Attr) {k : Nat} (hk : k < 14) :
    (a.sshiftRight 18 &&& (1#32 <<< k) ≠ 0#32) ↔ a.getLsbD (18 + k) = true := by
  rw [BitField.and_bit_ne_zero (by omega), BitVec.getLsbD_sshiftRight]
  simp only [show ¬ 32 ≤ k by omega, show 18 + k < 32 by omega, decide_false, Bool.not_false, Bool.true_and, if_true]

theorem openSpan_style {a : Attr} (ha : a ≠ -1#32) (brokenBold : Bool) :
    openSpan brokenBold a = units "<span " ++ (style a).css brokenBold ++ units ">" := by
  have hfg : a.sshiftRight 9 &&& 0x1ff#32 = BitField.get 9 9 a :=
    BitField.sshiftRight_and_mask (k := 9) (n := 9) a (by decide)
  have hbg : a &&& 0x1ff#32 = BitField.get 0 9 a := (BitField.get_zero 9 a).symm
  have hbold : (a.sshiftRight 18 &&& 1#32 ≠ 0) ↔ (style a).bold = true := flag_test a (k := 0) (by decide)
  have hunderline : (a.sshiftRight 18 &&& 2#32 ≠ 0) ↔ (style a).underline = true := flag_test a (k := 1) (by decide)
  unfold openSpan Style.css
  rw [if_neg ha]
  simp only [hfg, hbg, hbold, hunderline]
  rw [show units "<span style=\"" = units "<span " ++ units "style=\"" by decide,
    show units "\">" = units "\"" ++ units ">" by decide]
  simp only [List.append_assoc]
  rfl

/-! ## Tags -/

/-- Without the end of a tag. -/
def Unended (html : Html) : Prop := ∀ c ∈ html, c.char ≠ '>'

instance (html : Html) : Decidable (Unended html) := List.decidableBAll (fun c : CodeUnit => c.char ≠ '>') html

theorem Unended.append {a b : Html} (ha : Unended a) (hb : Unended b) : Unended (a ++ b) := by
  intro c hc
  rcases List.mem_append.1 hc with hc | hc
  · exact ha c hc
  · exact hb c hc

theorem unended_ite {p : Prop} [Decidable p] {a b : Html} (ha : Unended a) (hb : Unended b) :
    Unended (if p then a else b) := by
  split
  · exact ha
  · exact hb

theorem mem_toDigitsCore {b : Nat} (hb : 0 < b) {c : Char} : ∀ {fuel n : Nat} {cs : List Char},
    c ∈ Nat.toDigitsCore b fuel n cs → c ∈ cs ∨ ∃ m < b, c = Nat.digitChar m
  | 0, n, cs, h => .inl h
  | fuel + 1, n, cs, h => by
    have hcons : c ∈ Nat.digitChar (n % b) :: cs → c ∈ cs ∨ ∃ m < b, c = Nat.digitChar m := by
      intro h
      rcases List.mem_cons.1 h with h | h
      · exact .inr ⟨_, Nat.mod_lt n hb, h⟩
      · exact .inl h
    rw [Nat.toDigitsCore] at h
    split at h
    · exact hcons h
    · rcases mem_toDigitsCore hb h with h | h
      · exact hcons h
      · exact .inr h

theorem unended_digitChar : ∀ n < 16, Unended (utf16 (Nat.digitChar n)) := by decide

theorem unended_hex (n : Nat) : Unended (units (hex n)) := by
  have hdigits : Unended (units (String.ofList (Nat.toDigits 16 n))) := by
    intro u hu
    rw [units, String.toList_ofList] at hu
    obtain ⟨c, hc, hu⟩ := List.mem_flatMap.1 hu
    rcases mem_toDigitsCore (by decide) hc with hc | ⟨m, hm, rfl⟩
    · exact absurd hc List.not_mem_nil
    · exact unended_digitChar m hm u hu
  unfold hex
  dsimp only
  split
  · rw [units_append]
    exact .append (by decide) hdigits
  · exact hdigits

theorem unended_rgb (r g b : Nat) : Unended (units (rgb r g b)) := by
  simp only [rgb, units_append]
  exact .append (.append (.append (by decide) (unended_hex r)) (unended_hex g)) (unended_hex b)

theorem unended_color (i : Nat) : Unended (units (colors[i]?.getD "undefined")) := by
  cases h : colors[i]? with
  | none => exact (by decide : Unended (units "undefined"))
  | some s =>
    show Unended (units s)
    have hs := List.mem_of_getElem? h
    clear h
    simp only [colors, List.mem_append, List.mem_map] at hs
    rcases hs with ((hs | ⟨_, _, rfl⟩) | ⟨_, _, rfl⟩) | hs
    · revert s
      decide +kernel
    · exact unended_rgb _ _ _
    · exact unended_rgb _ _ _
    · revert s
      decide +kernel

theorem unended_css (brokenBold : Bool) (s : Style) : Unended (s.css brokenBold) := by
  have hnil : Unended [] := by decide
  have hcolor : ∀ (name : String) (i : Nat), Unended (units name) →
      Unended (units name ++ units (colors[i]?.getD "undefined") ++ units ";") := fun name i h =>
    (h.append (unended_color i)).append (by decide)
  refine .append (.append (.append (.append (.append ?_ ?_) ?_) ?_) ?_) ?_
  · decide
  · exact unended_ite (by decide) hnil
  · exact unended_ite (by decide) hnil
  · exact unended_ite (hcolor _ _ (by decide)) hnil
  · exact unended_ite (hcolor _ _ (by decide)) hnil
  · decide

/-- The name and the attributes of a tag are read up to its end. -/
theorem read_tag : ∀ {html name : Html} {r : Reader}, Unended html → r.place = .tag name →
    exec Reader.step r html = some { r with place := .tag (name ++ html) }
  | [], name, r, _, hr => by
    rw [exec_nil, List.append_nil, ← hr]
  | c :: html, name, r, hh, hr => by
    have hstep : Reader.step r c = some { r with place := .tag (name ++ [c]) } := by
      rw [Reader.step, hr]
      dsimp only
      rw [if_neg (hh c List.mem_cons_self)]
    have hrest := read_tag (r := { r with place := .tag (name ++ [c]) })
      (fun c h => hh c (List.mem_cons_of_mem _ h)) rfl
    rw [exec_cons_of hstep, hrest, List.append_assoc]
    rfl

theorem read_open {attributes : Html} (ha : Unended attributes) (shown : List (Option Html × CodeUnit)) :
    exec Reader.step ⟨none, .text, shown⟩ (units "<span " ++ attributes ++ units ">") =
      some ⟨some attributes, .text, shown⟩ := by
  have hstart : exec Reader.step ⟨none, .text, shown⟩ (units "<span ") = some ⟨none, .tag (units "span "), shown⟩ := rfl
  have htag := read_tag (r := ⟨none, .tag (units "span "), shown⟩) ha rfl
  have hname : (units "span " ++ attributes).take 5 = units "span " := List.take_left' rfl
  have hrest : (units "span " ++ attributes).drop 5 = attributes := List.drop_left' rfl
  have hend : Reader.step ⟨none, .tag (units "span " ++ attributes), shown⟩ 0x3e =
      some ⟨some attributes, .text, shown⟩ := by
    rw [Reader.step]
    dsimp only
    rw [if_pos (by decide), Reader.endTag, if_pos hname, if_pos rfl, hrest]
  rw [List.append_assoc, exec_append_of hstart, exec_append_of htag]
  exact exec_singleton.2 hend

theorem read_close (attributes : Html) (shown : List (Option Html × CodeUnit)) :
    exec Reader.step ⟨some attributes, .text, shown⟩ closeSpan = some ⟨none, .text, shown⟩ := rfl

/-! ## Characters -/

theorem toNat_of_char {c : CodeUnit} {k : Char} (hk : k.toNat ≠ 0) (h : c.char = k) : c.toNat = k.toNat := by
  by_cases hvalid : Nat.isValidChar c.toNat
  · have hchar : c.char = Char.ofNatAux c.toNat hvalid := dif_pos hvalid
    rw [← h, hchar]
    rfl
  · -- a surrogate
    have hchar : c.char.toNat = 0 := congrArg Char.toNat (dif_neg hvalid)
    rw [← h] at hk
    exact absurd hchar hk

theorem eq_of_char {c : CodeUnit} {k : Char} (hk : k.toNat ≠ 0) (h : c.char = k) : c = k.toNat.toUInt16 := by
  rw [← toNat_of_char hk h, Nat.toUInt16, UInt16.ofNat_toNat]

theorem read_char {ch : CodeUnit} (hlt : ch.char ≠ '<') (hamp : ch.char ≠ '&') (hgt : ch.char ≠ '>')
    (span : Option Html) (shown : List (Option Html × CodeUnit)) :
    exec Reader.step ⟨span, .text, shown⟩ [ch] = some ⟨span, .text, shown ++ [(span, ch)]⟩ := by
  refine exec_singleton.2 ?_
  rw [Reader.step]
  dsimp only
  rw [if_neg hlt, if_neg hamp, if_neg hgt]
  rfl

/-- No character is taken for markup. -/
theorem read_escape (ch : CodeUnit) (span : Option Html) (shown : List (Option Html × CodeUnit)) :
    exec Reader.step ⟨span, .text, shown⟩ (escape ch) = some ⟨span, .text, shown ++ [(span, shownChar ch)]⟩ := by
  unfold escape
  split_ifs with hamp hlt hgt hblank
  · rw [eq_of_char (by decide) hamp]
    rfl
  · rw [eq_of_char (by decide) hlt]
    rfl
  · rw [eq_of_char (by decide) hgt]
    rfl
  · rw [shownChar, if_pos hblank]
    rfl
  · rw [shownChar, if_neg hblank]
    exact read_char hlt hamp hgt span shown

/-! ## Rows -/

/-- What is to be seen of a cell, where the cursor may be. -/
def shownCell (brokenBold : Bool) (x : Option Nat) (i : Nat) (cell : Cell) : Option Html × CodeUnit :=
  (look brokenBold (if x = some i then -1#32 else cell.1), shownChar cell.2)

theorem look_eq_none {brokenBold : Bool} {a : Attr} : look brokenBold a = none ↔ a = defAttr := by
  unfold look
  split_ifs with hcursor hdef
  · subst hcursor
    decide
  · simp [hdef]
  · simp [hdef]

theorem read_openSpan {brokenBold : Bool} {a : Attr} (ha : a ≠ defAttr) (shown : List (Option Html × CodeUnit)) :
    exec Reader.step ⟨none, .text, shown⟩ (openSpan brokenBold a) =
      some ⟨look brokenBold a, .text, shown⟩ := by
  by_cases hcursor : a = -1#32
  · rw [openSpan, look, if_pos hcursor, if_pos hcursor]
    have hclass : Unended (units "class=\"reverse-video\"") := by decide
    exact read_open hclass shown
  · rw [openSpan_style hcursor, look, if_neg hcursor, if_neg ha]
    exact read_open (unended_css brokenBold (style a)) shown

/-- From one span to the next, through the text between them where there is any. -/
theorem read_change {brokenBold : Bool} {attr data : Attr} (shown : List (Option Html × CodeUnit)) :
    exec Reader.step ⟨look brokenBold attr, .text, shown⟩
      ((if attr ≠ defAttr then closeSpan else []) ++ (if data ≠ defAttr then openSpan brokenBold data else [])) =
      some ⟨look brokenBold data, .text, shown⟩ := by
  have hclose : exec Reader.step ⟨look brokenBold attr, .text, shown⟩ (if attr ≠ defAttr then closeSpan else []) =
      some ⟨none, .text, shown⟩ := by
    split_ifs with h
    · obtain ⟨attributes, hlook⟩ := Option.ne_none_iff_exists'.1 (mt look_eq_none.1 h)
      rw [hlook]
      exact read_close attributes shown
    · rw [look_eq_none.2 (not_not.1 h)]
      rfl
  rw [exec_append_of hclose]
  split_ifs with h
  · exact read_openSpan h shown
  · rw [look_eq_none.2 (not_not.1 h)]
    rfl

theorem refreshCell_eq (brokenBold : Bool) (attr : Attr) (out : Html) (data : Attr) (ch : CodeUnit) :
    refreshCell brokenBold attr out data ch = (data, out ++
      ((if data ≠ attr then (if attr ≠ defAttr then closeSpan else []) ++
        (if data ≠ defAttr then openSpan brokenBold data else []) else []) ++ escape ch)) := by
  unfold refreshCell
  split_ifs <;> simp

/-- One round of the loop over a line, read behind what it has written so far. -/
theorem read_cell {brokenBold : Bool} {attr : Attr} {out : Html} {shown : List (Option Html × CodeUnit)}
    (h : exec Reader.step .start out = some ⟨look brokenBold attr, .text, shown⟩) (data : Attr) (ch : CodeUnit) :
    exec Reader.step .start (refreshCell brokenBold attr out data ch).2 =
      some ⟨look brokenBold data, .text, shown ++ [(look brokenBold data, shownChar ch)]⟩ := by
  have hspan : exec Reader.step ⟨look brokenBold attr, .text, shown⟩
      (if data ≠ attr then (if attr ≠ defAttr then closeSpan else []) ++
        (if data ≠ defAttr then openSpan brokenBold data else []) else []) =
      some ⟨look brokenBold data, .text, shown⟩ := by
    by_cases hsame : data = attr
    · rw [if_neg (not_not.2 hsame), hsame]
      rfl
    · rw [if_pos hsame]
      exact read_change shown
  rw [refreshCell_eq, exec_append_of h, exec_append_of hspan]
  exact read_escape ch _ shown

/-- The loop over a line, by induction on its rounds: the reader is left in the span of the last cell. -/
theorem read_cells {brokenBold : Bool} {x : Option Nat} {line : Line} : ∀ {n : Nat} {attr : Attr} {out : Html},
    refreshCells brokenBold x line n = some (attr, out) → ∃ cells : List Cell, line.take n = cells.map some ∧
      cells.length = n ∧ exec Reader.step .start out =
        some ⟨look brokenBold attr, .text, cells.mapIdx (shownCell brokenBold x)⟩
  | 0, attr, out, h => by
    cases h
    exact ⟨[], rfl, rfl, rfl⟩
  | n + 1, attr, out, h => by
    obtain ⟨⟨before, written⟩, hbefore, h⟩ := Option.bind_eq_some_iff.1 h
    obtain ⟨⟨data, ch⟩, hcell, h⟩ := Option.map_eq_some_iff.1 h
    obtain ⟨cells, htake, hlength, hread⟩ := read_cells hbefore
    have hout : (refreshCell brokenBold before written (if x = some n then -1#32 else data) ch).2 = out :=
      congrArg Prod.snd h
    have hattr : (if x = some n then -1#32 else data) = attr := congrArg Prod.fst h
    refine ⟨cells ++ [(data, ch)], ?_, ?_, ?_⟩
    · rw [List.take_add_one, htake, JsArray.get_eq_some.1 hcell, List.map_append]
      rfl
    · rw [List.length_append, hlength]
      rfl
    · rw [← hout, read_cell hread, hattr, List.mapIdx_concat, hlength, ← hattr]
      rfl

/-- A row that is drawn is read back as its cells, each with the style of its attribute and the cursor in
reverse video. -/
theorem read_refreshLine {brokenBold : Bool} {x : Option Nat} {line : Line} {width : Nat} {html : Html}
    (h : refreshLine brokenBold x line width = some html) : ∃ cells : List Cell,
    line.take width = cells.map some ∧ cells.length = width ∧
    readHtml html = some (cells.mapIdx (shownCell brokenBold x)) := by
  obtain ⟨⟨attr, out⟩, hcells, rfl⟩ := Option.map_eq_some_iff.1 h
  obtain ⟨cells, htake, hlength, hread⟩ := read_cells hcells
  refine ⟨cells, htake, hlength, ?_⟩
  have hend : exec Reader.step .start (if attr ≠ defAttr then out ++ closeSpan else out) =
      some ⟨none, .text, cells.mapIdx (shownCell brokenBold x)⟩ := by
    have hchange := @read_change brokenBold attr defAttr (cells.mapIdx (shownCell brokenBold x))
    rw [look_eq_none.2 (rfl : defAttr = defAttr)] at hchange
    rw [if_neg (not_not.2 rfl), List.append_nil] at hchange
    rw [← hchange, ← exec_append_of hread]
    split_ifs
    · rfl
    · rw [List.append_nil]
  rw [readHtml, hend]
  rfl

theorem read_refreshLine_small : ∃ cells : List Cell,
    [some (defAttr, 0x3c), some (defAttr, 0x20)].take 2 = cells.map some ∧ cells.length = 2 ∧
    readHtml (units "&lt;<span class=\"reverse-video\">&nbsp;</span>") =
      some (cells.mapIdx (shownCell false (some 1))) :=
  read_refreshLine (by decide +kernel)

end Terminal

end Tangle.Term
