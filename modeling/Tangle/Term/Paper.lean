/-
What a terminal is for, as far as its lines are concerned: paper that has no end. A program that only types,
without moving up, finds that the lines of the terminal, the screen and its history, are the last rows of
the paper, whatever the number of rows of the terminal is; of the rows above the screen at least half the
limit of the history is kept.
-/
import Mathlib.Data.Finset.Max
import Tangle.Lib.Window
import Tangle.Term.Commands

namespace Tangle.Term

open JsArray Terminal

/-! ## Paper -/

/-- Rows without end, and where the next character comes. -/
structure Paper where
  cols : Nat
  row : Nat
  x : Nat
  lines : Nat → Line
  curAttr : Attr
  tabs : Finset Nat

namespace Paper

def blank (cols : Nat) : Line := List.replicate cols (some (defAttr, 0x20))

/-- A stop in every eighth column. -/
def new (cols : Nat) : Paper :=
  { cols, row := 0, x := 0, lines := fun _ => blank cols, curAttr := defAttr,
    tabs := (Finset.range cols).filter (8 ∣ ·) }

/-- The least stop behind a column, or the last column. -/
def stopAfter (cols : Nat) (tabs : Finset Nat) (x : Nat) : Nat :=
  if h : (tabs.filter fun i => x < i ∧ i < cols).Nonempty then (tabs.filter fun i => x < i ∧ i < cols).min' h
  else cols - 1

def feed (p : Paper) : Paper := { p with row := p.row + 1 }

/-- Another line in the row. -/
def onRow (f : Line → Line) (p : Paper) : Paper :=
  { p with lines := Function.update p.lines p.row (f (p.lines p.row)) }

/-- To the first column of the next row, where this one is full. -/
def wrap (p : Paper) : Paper := if p.cols ≤ p.x then { p.feed with x := 0 } else p

def put (ch : CodeUnit) (p : Paper) : Paper :=
  { p.onRow fun line => store line p.x (p.curAttr, ch) with x := p.x + 1 }

/-- A character that is typed. -/
def type (ch : CodeUnit) (p : Paper) : Paper :=
  match ch.char with
  | '\x07' => p
  | '\n' | '\x0b' | '\x0c' => p.feed
  | '\r' => { p with x := 0 }
  | '\x08' => { p with x := p.x - 1 }
  | '\t' => { p with x := stopAfter p.cols p.tabs p.x }
  | _ => if 0x20 ≤ ch then p.wrap.put ch else p

/-- Erases from the cursor on, up to the cursor, or the whole row. -/
def erase (n : Nat) (p : Paper) : Paper :=
  match n with
  | 0 => p.onRow fun line => fill line p.x (p.cols - p.x) (p.curAttr, 0x20)
  | 1 => p.onRow fun line => fill line 0 (p.x + 1) (p.curAttr, 0x20)
  | 2 => p.onRow fun line => fill line 0 p.cols (p.curAttr, 0x20)
  | _ => p

def control (f : CodeUnit) (params : List Nat) (p : Paper) : Paper :=
  match f.char with
  | 'm' => { p with curAttr := charAttributes params p.curAttr }
  | 'C' => { p with x := min (p.x + count params) (p.cols - 1) }
  | 'D' => { p with x := p.x - count params }
  | 'K' => p.erase (first params)
  | 'g' =>
    if first params = 0 then { p with tabs := p.tabs.erase p.x }
    else if first params = 3 then { p with tabs := ∅ }
    else p
  | _ => p

def escape (ch : CodeUnit) (p : Paper) : Paper :=
  match ch.char with
  | 'D' => p.feed
  | 'E' => { p.feed with x := 0 }
  | 'H' => { p with tabs := insert p.x p.tabs }
  | _ => p

def perform (p : Paper) : Command → Paper
  | .char ch => p.type ch
  | .escape ch => p.escape ch
  | .charset _ _ => p
  | .control _ params f => p.control f (readParams params)
  | .osc _ _ => p

end Paper

/-- A command that types: it stays in its row or goes to the next one, with the characters as they are. -/
def Terminal.Command.Typed : Command → Prop
  | .char ch => ch.char ∉ ['\x0e', '\x0f']
  | .escape ch => ch.char ∈ ['D', 'E', 'H']
  | .charset _ _ => False
  | .control before _ f => before = [] ∧ f.char ∈ ['m', 'C', 'D', 'K', 'g']
  | .osc _ _ => True

/-! ## Tab stops -/

theorem nextStopFrom_spec {tabs : Finset Nat} {cols : Nat} : ∀ {n x : Nat}, cols ≤ x + n →
    x < nextStopFrom tabs cols n x ∧ (∀ i, x < i → i < nextStopFrom tabs cols n x → i ∉ tabs) ∧
    (nextStopFrom tabs cols n x < cols → nextStopFrom tabs cols n x ∈ tabs)
  | 0, x, hn => by
    rw [nextStopFrom]
    exact ⟨Nat.lt_succ_self x, fun i hi hi' => absurd hi' (by omega), fun (h : x + 1 < cols) => absurd h (by omega)⟩
  | n + 1, x, hn => by
    rw [nextStopFrom]
    split
    · rename_i h
      obtain ⟨hlt, hnone, hmem⟩ := @nextStopFrom_spec tabs cols n (x + 1) (by omega)
      refine ⟨by omega, fun i hi hi' => ?_, hmem⟩
      by_cases hx : i = x + 1
      · exact hx ▸ h.1
      · exact hnone i (by omega) hi'
    · rename_i h
      refine ⟨by omega, fun i hi hi' => by omega, fun hlt => ?_⟩
      by_contra hmem
      exact h ⟨hmem, hlt⟩

theorem nextStop_eq (t : Terminal) (x : Nat) : t.nextStop x = Paper.stopAfter t.cols t.tabs x := by
  obtain ⟨hlt, hnone, hmem⟩ := @nextStopFrom_spec t.tabs t.cols t.cols x (by omega)
  unfold nextStop Paper.stopAfter
  generalize nextStopFrom t.tabs t.cols t.cols x = z at hlt hnone hmem
  dsimp only
  by_cases hz : t.cols ≤ z
  · have hempty : ¬ (t.tabs.filter fun i => x < i ∧ i < t.cols).Nonempty := by
      rintro ⟨i, hi⟩
      obtain ⟨hi, hxi, hic⟩ := Finset.mem_filter.1 hi
      exact hnone i hxi (by omega) hi
    rw [if_pos hz, dif_neg hempty]
  · have hz : z < t.cols := Nat.lt_of_not_le hz
    have hin : z ∈ t.tabs.filter fun i => x < i ∧ i < t.cols := Finset.mem_filter.2 ⟨hmem hz, hlt, hz⟩
    rw [if_neg (Nat.not_le.2 hz), dif_pos ⟨z, hin⟩]
    apply Nat.le_antisymm
    · refine Finset.le_min' _ _ _ fun i hi => ?_
      obtain ⟨hi, hxi, -⟩ := Finset.mem_filter.1 hi
      by_contra hlt
      exact hnone i hxi (by omega) hi
    · exact Finset.min'_le _ _ hin

/-- From the last column on there are no stops to come. -/
theorem no_stops {cols i : Nat} (h : cols ≤ i) (tabs : Finset Nat) (j : Nat) :
    j ∈ tabs ↔ j ∈ tabs ∨ i ≤ j ∧ j < cols ∧ 8 ∣ j - i := by
  constructor
  · exact .inl
  · rintro (hj | ⟨hij, hj, -⟩)
    · exact hj
    · omega

theorem mem_setStops {cols j : Nat} : ∀ {n i : Nat} {tabs : Finset Nat}, cols ≤ i + 8 * n →
    (j ∈ setStops cols n i tabs ↔ j ∈ tabs ∨ i ≤ j ∧ j < cols ∧ 8 ∣ j - i)
  | 0, i, tabs, h => no_stops h tabs j
  | n + 1, i, tabs, h => by
    rw [setStops]
    split
    · rename_i hi
      rw [mem_setStops (by omega), Finset.mem_insert]
      constructor
      · rintro ((rfl | hj) | ⟨hij, hj, hdvd⟩)
        · exact .inr ⟨Nat.le_refl _, hi, by simp⟩
        · exact .inl hj
        · exact .inr ⟨by omega, hj, by omega⟩
      · rintro (hj | ⟨hij, hj, hdvd⟩)
        · exact .inl (.inr hj)
        · by_cases heq : j = i
          · exact .inl (.inl heq)
          · exact .inr ⟨by omega, hj, by omega⟩
    · rename_i hi
      exact no_stops (Nat.le_of_not_lt hi) tabs j

theorem setStops_eq (cols : Nat) : setStops cols cols 0 ∅ = (Finset.range cols).filter (8 ∣ ·) := by
  ext j
  rw [mem_setStops (by omega), Finset.mem_filter, Finset.mem_range]
  simp

namespace Terminal

/-! ## The terminal as a window -/

/-- The lines of the terminal are the rows of the paper from `d` on. Below them it is blank, and where rows above
them are gone, half the limit of the history is full. -/
structure WindowAt (p : Paper) (t : Terminal) (d : Nat) : Prop where
  shows : Window.Shows p.lines d t.lines
  row_eq : p.row = d + (t.ybase + t.y)
  below : ∀ r, d + t.lines.length ≤ r → p.lines r = Paper.blank p.cols
  kept : d ≠ 0 → scrollback / 2 ≤ t.ybase

/-- What is typed on the paper is what the terminal has. -/
structure OnPaper (p : Paper) (t : Terminal) : Prop where
  cols_eq : t.cols = p.cols
  x_eq : t.x = some p.x
  attr_eq : t.curAttr = p.curAttr
  tabs_eq : t.tabs = p.tabs
  charset_eq : t.charsets.charset = none
  eol_eq : t.modes.convertEol = false
  top_eq : t.scrollTop = 0
  bottom_eq : t.scrollBottom + 1 = t.rows
  y_lt : t.y < t.rows
  ybase_lt : t.ybase < scrollback
  length : t.lines.length = t.ybase + t.rows
  window : ∃ d, WindowAt p t d

variable {p : Paper} {t u : Terminal}

theorem OnPaper.idle (hp : OnPaper p t) (h : Idle t u) : OnPaper p u := by
  obtain ⟨ydisp, cursorState, page, out, rfl⟩ := h
  obtain ⟨d, hw⟩ := hp.window
  exact { hp with window := ⟨d, { hw with }⟩ }

/-- Another column. -/
theorem OnPaper.goX (hp : OnPaper p t) (x : Nat) : OnPaper { p with x } { t with x := some x } := by
  obtain ⟨d, hw⟩ := hp.window
  exact { hp with x_eq := rfl, window := ⟨d, { hw with }⟩ }

theorem OnPaper.scroll (hp : OnPaper p t) (hy : t.y + 1 = t.rows) : OnPaper p.feed t.scroll := by
  obtain ⟨k, b, hk, -, hlt, hkept, heq⟩ := scrollLines_eq hp.length hp.ybase_lt
  obtain ⟨d, hw⟩ := hp.window
  have hlen := hp.length
  have hbottom := hp.bottom_eq
  have hdrop : (t.lines.drop k).length + 1 = b + t.rows := by rw [List.length_drop]; omega
  have hybase : t.scroll.ybase = b := by
    show t.scrollLines.1 = b
    rw [heq, if_pos hp.top_eq]
  have hlines : t.scroll.lines = t.lines.drop k ++ [Paper.blank p.cols] := by
    show t.scrollLines.2 = _
    rw [heq, if_pos hp.top_eq]
    show JsArray.splice (t.lines.drop k) (b + t.scrollBottom) 0 [t.blankLine false] = _
    have hend : b + t.scrollBottom = (t.lines.drop k).length := by omega
    rw [splice, hend, List.take_length, Nat.add_zero, List.drop_length, List.append_nil, blankLine, hp.cols_eq]
    rfl
  have hlength : t.scroll.lines.length = b + t.rows := by
    rw [hlines, List.length_append, List.length_singleton]
    exact hdrop
  refine { hp with ybase_lt := hybase ▸ hlt, length := by rw [hybase]; exact hlength, window := ⟨d + k, ?_⟩ }
  constructor
  · have hblank : p.lines (d + k + (t.lines.drop k).length) = Paper.blank p.cols := by
      refine hw.below _ ?_
      rw [List.length_drop]
      omega
    have hshows := (hw.shows.drop k).concat
    rw [hblank] at hshows
    rw [hlines]
    exact hshows
  · have hrow := hw.row_eq
    show p.row + 1 = d + k + (t.scroll.ybase + t.y)
    rw [hybase]
    omega
  · intro r hr
    rw [hlength] at hr
    refine hw.below r ?_
    omega
  · intro hne
    rw [hybase]
    by_cases hk0 : k = 0
    · have := hw.kept (by omega)
      omega
    · exact hkept hk0

theorem OnPaper.nextRow (hp : OnPaper p t) : OnPaper p.feed t.nextRow := by
  have hy := hp.y_lt
  have hbottom := hp.bottom_eq
  by_cases h : t.scrollBottom < t.y + 1
  · have hscroll : t.nextRow = t.scroll := if_pos h
    rw [hscroll]
    exact hp.scroll (by omega)
  · have hdown : t.nextRow = { t with y := t.y + 1 } := if_neg h
    rw [hdown]
    obtain ⟨d, hw⟩ := hp.window
    have hrow := hw.row_eq
    refine { hp with y_lt := ?_, window := ⟨d, { hw with row_eq := ?_ }⟩ }
    · show t.y + 1 < t.rows
      omega
    · show p.row + 1 = d + (t.ybase + (t.y + 1))
      omega

/-- What is done to the line of the cursor is done to the row. -/
theorem OnPaper.onRow (hp : OnPaper p t) {f : Line → Line} (h : t.onLine t.y f = some u) : OnPaper (p.onRow f) u := by
  rw [onLine_eq_some h]
  obtain ⟨d, hw⟩ := hp.window
  have hlen := hp.length
  have hy := hp.y_lt
  have hrow := hw.row_eq
  refine { hp with length := ?_, window := ⟨d, { shows := ?_, row_eq := hrow, below := ?_, kept := hw.kept }⟩ }
  · show (t.lines.modify _ _).length = _
    rw [List.length_modify]
    exact hlen
  · have hshows := hw.shows.modify (t.ybase + t.y) f
    rw [← hrow] at hshows
    exact hshows
  · intro r hr
    rw [List.length_modify] at hr
    have hne : r ≠ p.row := by omega
    exact (Function.update_of_ne hne _ _).trans (hw.below r hr)

theorem OnPaper.updateRange (hp : OnPaper p t) (y : Nat) : OnPaper p (t.updateRange y) :=
  hp.idle ⟨t.ydisp, t.cursorState, _, t.out, rfl⟩

theorem OnPaper.wrap (hp : OnPaper p t) : OnPaper p.wrap t.wrap := by
  by_cases h : p.cols ≤ p.x
  · have hpaper : p.wrap = { p.feed with x := 0 } := if_pos h
    have hterm : t.wrap = { t with x := some 0 }.nextRow := by
      rw [wrap_of_some hp.x_eq, hp.cols_eq, if_pos h]
    rw [hpaper, hterm]
    exact (hp.goX 0).nextRow
  · have hpaper : p.wrap = p := if_neg h
    have hterm : t.wrap = t := by rw [wrap_of_some hp.x_eq, hp.cols_eq, if_neg h]
    rw [hpaper, hterm]
    exact hp

theorem OnPaper.print (hp : OnPaper p t) {ch : CodeUnit} (h : t.print ch = some u) : OnPaper (p.wrap.put ch) u := by
  have hwrap := hp.wrap
  have hch : t.translate ch = ch := by
    rw [translate, hp.charset_eq]
    rfl
  obtain ⟨v, hv, rfl⟩ := Option.map_eq_some_iff.1 h
  rw [hch] at hv
  have hline := hwrap.onRow hv
  rw [hwrap.x_eq, hwrap.attr_eq] at hline
  have hx : v.x = some p.wrap.x := hline.x_eq
  rw [hx]
  exact (hline.goX (p.wrap.x + 1)).updateRange v.y

/-- A character, case by case. -/
theorem OnPaper.type (hp : OnPaper p t) {ch : CodeUnit} (hesc : ch.char ≠ '\x1b')
    (hshift : ch.char ∉ ['\x0e', '\x0f']) (h : normalState ch t = some u) : OnPaper (p.type ch) u := by
  have hfeed : ∀ v, some { t with x := if t.modes.convertEol then some 0 else t.x }.nextRow = some v →
      OnPaper p.feed v := by
    rintro v ⟨⟩
    rw [hp.eol_eq]
    exact hp.nextRow
  unfold normalState at h
  unfold Paper.type
  generalize ch.char = c at h hesc hshift ⊢
  split at h
  case h_1 =>
    cases h
    exact hp
  case h_2 | h_3 | h_4 => exact hfeed u h
  case h_5 =>
    cases h
    exact hp.goX 0
  case h_6 =>
    cases h
    have hx : (t.x.map fun x => if 0 < x then x - 1 else x) = some (p.x - 1) := by
      rw [hp.x_eq, Option.map_some]
      congr 1
      split <;> omega
    rw [hx]
    exact hp.goX (p.x - 1)
  case h_7 =>
    cases h
    have hx : t.x.map t.nextStop = some (Paper.stopAfter p.cols p.tabs p.x) := by
      rw [hp.x_eq, Option.map_some, nextStop_eq, hp.cols_eq, hp.tabs_eq]
    rw [hx]
    exact hp.goX _
  case h_8 => exact absurd (by decide) hshift
  case h_9 => exact absurd (by decide) hshift
  case h_10 => exact absurd rfl hesc
  case h_11 =>
    have hother : OnPaper (if 0x20 ≤ ch then p.wrap.put ch else p) u := by
      split at h
      · rename_i hle
        rw [if_pos hle]
        exact hp.print h
      · rename_i hle
        rw [if_neg hle]
        cases h
        exact hp
    split
    all_goals first | contradiction | exact hother

theorem OnPaper.eraseRight (hp : OnPaper p t) {x : Nat} (h : t.eraseRight (some x) t.y = some u) :
    OnPaper (p.onRow fun line => fill line x (p.cols - x) (p.curAttr, 0x20)) u := by
  obtain ⟨v, hv, rfl⟩ := Option.map_eq_some_iff.1 h
  rw [Option.elim_some, hp.cols_eq, hp.attr_eq] at hv
  split at hv
  · exact (hp.onRow hv).updateRange t.y
  · -- nothing is left to erase
    cases hv
    have hnone : p.cols - x = 0 := by omega
    have hself : (p.onRow fun line => fill line x 0 (p.curAttr, 0x20)) = p := by
      show { p with lines := Function.update p.lines p.row (p.lines p.row) } = p
      rw [Function.update_eq_self]
    rw [hnone, hself]
    exact hp.updateRange t.y

theorem OnPaper.eraseLeft (hp : OnPaper p t) {x : Nat} (h : t.eraseLeft (some x) t.y = some u) :
    OnPaper (p.onRow fun line => fill line 0 (x + 1) (p.curAttr, 0x20)) u := by
  obtain ⟨v, hv, rfl⟩ := Option.map_eq_some_iff.1 h
  rw [Option.elim_some, hp.attr_eq] at hv
  exact (hp.onRow hv).updateRange t.y

theorem erase_other {n : Nat} (h0 : n ≠ 0) (h1 : n ≠ 1) (h2 : n ≠ 2) (p : Paper) : p.erase n = p := by
  obtain ⟨k, rfl⟩ : ∃ k, n = k + 3 := ⟨n - 3, by omega⟩
  rfl

theorem OnPaper.erase (hp : OnPaper p t) {params : List Nat} (h : t.eraseInLine params = some u) :
    OnPaper (p.erase (first params)) u := by
  unfold eraseInLine at h
  generalize first params = n at h ⊢
  split at h
  case h_1 =>
    dsimp only at h
    rw [hp.x_eq] at h
    exact hp.eraseRight h
  case h_2 =>
    dsimp only at h
    rw [hp.x_eq] at h
    exact hp.eraseLeft h
  case h_3 => exact hp.eraseRight (x := 0) h
  case h_4 h0 h1 h2 =>
    cases h
    rw [erase_other h0 h1 h2]
    exact hp

theorem OnPaper.parser (hp : OnPaper p t) (parser : Parser) : OnPaper p { t with parser } := by
  obtain ⟨d, hw⟩ := hp.window
  exact { hp with window := ⟨d, { hw with }⟩ }

theorem OnPaper.tabs (hp : OnPaper p t) (tabs : Finset Nat) : OnPaper { p with tabs } { t with tabs } := by
  obtain ⟨d, hw⟩ := hp.window
  exact { hp with tabs_eq := rfl, window := ⟨d, { hw with }⟩ }

theorem OnPaper.attr (hp : OnPaper p t) (curAttr : Attr) : OnPaper { p with curAttr } { t with curAttr } := by
  obtain ⟨d, hw⟩ := hp.window
  exact { hp with attr_eq := rfl, window := ⟨d, { hw with }⟩ }

theorem OnPaper.control (hp : OnPaper p t) {f : CodeUnit} (hf : f.char ∈ ['m', 'C', 'D', 'K', 'g']) {params : List Nat}
    (h : csiFinal f params t = some u) : OnPaper (p.control f params) u := by
  unfold csiFinal at h
  unfold Paper.control
  generalize f.char = c at hf h ⊢
  simp only [List.mem_cons, List.not_mem_nil, or_false] at hf
  rcases hf with rfl | rfl | rfl | rfl | rfl
  · cases h
    rw [hp.attr_eq]
    exact hp.attr _
  · cases h
    have hx : (if t.cols ≤ p.x + count params then t.cols - 1 else p.x + count params) =
        min (p.x + count params) (p.cols - 1) := by
      rw [hp.cols_eq]
      split <;> omega
    show OnPaper _ (t.goRight (count params))
    rw [goRight, hp.x_eq, Option.elim_some, goCol, hx]
    exact hp.goX _
  · cases h
    show OnPaper _ (t.cursorBackward params)
    rw [cursorBackward, hp.x_eq, Option.map_some]
    exact hp.goX _
  · exact hp.erase h
  · cases h
    have herase : t.x.elim t.tabs t.tabs.erase = p.tabs.erase p.x := by rw [hp.x_eq, Option.elim_some, hp.tabs_eq]
    show OnPaper _ (t.tabClear params)
    unfold tabClear
    split_ifs
    · rw [herase]
      exact hp.tabs _
    · exact hp.tabs ∅
    · exact hp

theorem OnPaper.escape (hp : OnPaper p t) {ch : CodeUnit} (hch : ch.char ∈ ['D', 'E', 'H'])
    (h : Command.performEscape ch t = some u) : OnPaper (p.escape ch) u := by
  have hindex : ∀ {p : Paper} {t : Terminal}, OnPaper p t → OnPaper p.feed t.index := fun hp => hp.nextRow.parser _
  unfold Command.performEscape at h
  unfold Paper.escape
  generalize ch.char = c at hch h ⊢
  simp only [List.mem_cons, List.not_mem_nil, or_false] at hch
  rcases hch with rfl | rfl | rfl
  · cases h
    exact hindex hp
  · cases h
    exact hindex (hp.goX 0)
  · cases h
    have htabs : (t.x.elim t.tabs fun x => insert x t.tabs) = insert p.x p.tabs := by
      rw [hp.x_eq, Option.elim_some, hp.tabs_eq]
    rw [tabSet, htabs]
    exact (hp.tabs (insert p.x p.tabs)).parser { t.parser with state := .normal }

theorem OnPaper.perform (hp : OnPaper p t) {c : Command} (hc : c.Valid) (hty : c.Typed) (h : c.perform t = some u) :
    OnPaper (p.perform c) u := by
  cases c with
  | char ch => exact hp.type hc hty h
  | escape ch => exact hp.escape hty h
  | charset g ch => exact hty.elim
  | control before params f =>
    obtain ⟨v, hv, rfl⟩ := Option.map_eq_some_iff.1 h
    have hcalled : OnPaper p (t.called before (readParams params)) := hp.parser _
    exact (hcalled.control hty.2 hv).parser _
  | osc n text =>
    cases h
    refine OnPaper.parser ?_ _
    split
    · exact hp.idle ⟨t.ydisp, t.cursorState, t.page, _, rfl⟩
    · exact hp

/-! ## Runs -/

/-- The program types, and the size stays. -/
def Turn.Typed : Turn → Prop
  | prints commands => ∀ c ∈ commands, c.Typed
  | acts a => ∀ x y, a ≠ .resize x y

/-- Only what the program prints comes on the paper. -/
def Turn.onPaper (p : Paper) : Turn → Paper
  | prints commands => commands.foldl Paper.perform p
  | acts _ => p

theorem OnPaper.performs {cs : List Command} (hcs : ∀ c ∈ cs, c.Valid ∧ c.Typed) {p : Paper} {t u : Terminal}
    (hp : OnPaper p t) (h : Machine.exec Command.perform t cs = some u) : OnPaper (cs.foldl Paper.perform p) u := by
  have hstep : ∀ (p : Paper) (c : Command) (t u : Terminal), c.Valid ∧ c.Typed → OnPaper p t →
      c.perform t = some u → OnPaper (p.perform c) u := fun _ _ _ _ hc hp h => hp.perform hc.1 hc.2 h
  exact Machine.exec_follows hstep hcs hp h

theorem OnPaper.turn {turn : Turn} (hvalid : turn.Valid) (htyped : turn.Typed) {p : Paper} {t u : Terminal}
    (hp : OnPaper p t) (h : turn.take t = some u) : OnPaper (turn.onPaper p) u := by
  cases turn with
  | prints cs =>
    obtain ⟨v, hv, hfinish⟩ := Option.bind_eq_some_iff.1 h
    have hperform := OnPaper.performs (fun c hc => ⟨hvalid c hc, htyped c hc⟩) (hp.idle (idle_begin t)) hv
    exact hperform.idle (idle_finish hfinish)
  | acts a => exact hp.idle (step_idle hvalid htyped h)

theorem onPaper_new (cols rows : Nat) : OnPaper (Paper.new (new cols rows).cols) (new cols rows) := by
  have hrows : 0 < (new cols rows).rows := by
    show 0 < if rows = 0 then 24 else rows
    split <;> omega
  have hybase : 0 < scrollback := by decide
  have hlength : (new cols rows).lines.length = 0 + (new cols rows).rows := by
    rw [Nat.zero_add]
    exact List.length_replicate
  have hshows : Window.Shows (fun _ => Paper.blank (new cols rows).cols) 0 (new cols rows).lines :=
    Window.shows_replicate _ 0 _
  refine ⟨rfl, rfl, rfl, setStops_eq _, rfl, rfl, rfl, Nat.sub_add_cancel hrows, hrows, hybase, hlength, 0, ?_⟩
  exact ⟨hshows, rfl, fun _ _ => rfl, fun h => absurd rfl h⟩

/-- After a run in which the program only types, the terminal has the last rows of the paper that it typed on. -/
theorem run_paper {cols rows : Nat} {turns : List Turn} {t u : Terminal} (ht : (new cols rows).opened = some t)
    (hvalid : ∀ turn ∈ turns, turn.Valid) (htyped : ∀ turn ∈ turns, turn.Typed)
    (h : Machine.exec step t (turns.map Turn.act) = some u) :
    OnPaper (turns.foldl Turn.onPaper (Paper.new (new cols rows).cols)) u := by
  have hidle : Idle (new cols rows) t := by
    have hdraw := idle_refresh ht
    exact Idle.trans ⟨_, _, _, _, rfl⟩ hdraw
  have hready : t.Ready := Ready.quiet (t := new cols rows) ⟨rfl, rfl⟩ (.idle hidle)
  have htake : Machine.exec Turn.take t turns = some u := by
    rw [← Machine.exec_map (fun _ _ h hr => step_take h hr) (fun _ _ _ h hr hu => ready_take h hr hu) hvalid hready]
    exact h
  have hstep : ∀ (p : Paper) (turn : Turn) (t u : Terminal), turn.Valid ∧ turn.Typed → OnPaper p t →
      turn.take t = some u → OnPaper (turn.onPaper p) u := fun _ _ _ _ hv hp h => hp.turn hv.1 hv.2 h
  have hp := (onPaper_new cols rows).idle hidle
  exact Machine.exec_follows hstep (fun turn hmem => ⟨hvalid turn hmem, htyped turn hmem⟩) hp htake

theorem typed_sample : ∀ turn ∈ sample, turn.Typed := by
  have hbold : (Command.control [] [1, 7] 0x6d).Typed := ⟨rfl, by decide⟩
  have ha : CodeUnit.char 0x61 ∉ ['\x0e', '\x0f'] := by decide
  have hline : CodeUnit.char 0x0a ∉ ['\x0e', '\x0f'] := by decide
  simp only [sample, List.forall_mem_cons, List.not_mem_nil, false_implies, implies_true, and_true]
  refine ⟨?_, ?_, ?_⟩
  · exact List.forall_mem_cons.2 ⟨hbold, List.forall_mem_singleton.2 ha⟩
  · rintro x y ⟨⟩
  · exact List.forall_mem_singleton.2 hline

theorem run_paper_sample : OnPaper (sample.foldl Turn.onPaper (Paper.new (new 3 2).cols))
    ((Machine.exec step small (sample.map Turn.act)).get (by decide +kernel)) :=
  run_paper opened_small valid_sample typed_sample (Option.some_get _).symm

end Terminal

end Tangle.Term
