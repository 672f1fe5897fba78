/-
Every proper effect keeps the screen in the size of the terminal.
-/
import Tangle.Term.Draw

namespace Tangle.Term.Terminal

open JsArray Effects
open Relation (ReflTransGen)

variable {m : Manner}

/-! ## Scrolling -/

/-- The lines of the screen move up; a blank one comes in at the bottom of the region, and the line at its top goes
unless it is the first one. `k` lines are dropped where the history is full. -/
theorem scrollLines_eq {t : Terminal} (hlen : t.lines.length = t.ybase + t.rows) (hybase : t.ybase < scrollback) :
    ∃ k b, b + k = t.ybase + 1 ∧ 0 < b ∧ b < scrollback ∧ (k ≠ 0 → scrollback / 2 ≤ b) ∧ t.scrollLines =
      if t.scrollTop = 0 then (b, splice (t.lines.drop k) (b + t.scrollBottom) 0 [t.blankLine false])
      else (b - 1,
        splice (splice (t.lines.drop k) (b + t.scrollBottom) 0 [t.blankLine false]) (b - 1 + t.scrollTop) 1 []) := by
  have hybase : t.ybase < 1000 := hybase
  have hinsert : ∀ (l : List Line) (row : Nat),
      (if row = l.length then l ++ [t.blankLine false] else splice l row 0 [t.blankLine false]) =
        splice l row 0 [t.blankLine false] := by
    intro l row
    split
    · rename_i h
      rw [splice, h, List.take_length, List.drop_eq_nil_of_le (by omega), List.append_nil]
    · rfl
  by_cases hfull : t.ybase + 1 = scrollback
  · refine ⟨500, 500, hfull.symm, by omega, by decide, fun _ => Nat.le_refl _, ?_⟩
    have hlast : last (500 + t.rows - 1) t.lines = t.lines.drop 500 := by
      have : t.ybase + 1 = 1000 := hfull
      rw [last, show t.lines.length - (500 + t.rows - 1) = 500 by omega]
    unfold scrollLines
    simp only [hfull, if_true, show scrollback / 2 = 500 from rfl, hlast, hinsert, ne_eq, ite_not,
      show ¬ (500 = 0) by decide, if_false]
  · have hb : t.ybase + 1 < scrollback := by
      have : ¬ t.ybase + 1 = 1000 := hfull
      show t.ybase + 1 < 1000
      omega
    refine ⟨0, t.ybase + 1, rfl, Nat.succ_pos _, hb, fun h => absurd rfl h, ?_⟩
    unfold scrollLines
    simp only [hfull, if_false, hinsert, ne_eq, ite_not, List.drop_zero, Nat.succ_ne_zero]

/-- What a scroll leaves: the rows outside of the region, and the history but for the `k` oldest lines. -/
structure Scrolled (t : Terminal) (ybase : Nat) (lines : List Line) : Prop where
  ybase_lt : ybase < scrollback
  length : lines.length = ybase + t.rows
  same : ∀ y, y < t.scrollTop ∨ t.scrollBottom < y → lines[ybase + y]? = t.lines[t.ybase + y]?
  history : ∃ k, t.ybase ≤ ybase + k ∧ lines.take ybase = (t.lines.drop k).take ybase

theorem scrolled {t : Terminal} (hf : Fits t.cols t.rows t.saved) : Scrolled t t.scrollLines.1 t.scrollLines.2 := by
  have hlen : t.lines.length = t.ybase + t.rows := hf.length
  obtain ⟨k, b, hk, hb, hlt, -, heq⟩ := scrollLines_eq hlen hf.ybase_lt
  have htop : t.scrollTop ≤ t.scrollBottom := hf.top_le
  have hbottom : t.scrollBottom < t.rows := hf.bottom_lt
  have hdrop : (t.lines.drop k).length + 1 = b + t.rows := by rw [List.length_drop]; omega
  have hrow : b + t.scrollBottom ≤ (t.lines.drop k).length := by omega
  rw [heq]
  by_cases h0 : t.scrollTop = 0
  · rw [if_pos h0]
    refine ⟨hlt, ?_, fun y hy => ?_, k, by omega, ?_⟩
    · rw [length_insert hrow, hdrop]
    · rw [getElem?_insert hrow, if_neg (by omega), if_neg (by omega), List.getElem?_drop]
      congr 1
      omega
    · refine List.ext_getElem? fun i => ?_
      rw [List.getElem?_take, List.getElem?_take]
      by_cases hi : i < b
      · rw [if_pos hi, if_pos hi, getElem?_insert hrow, if_pos (by omega)]
      · rw [if_neg hi, if_neg hi]
  · rw [if_neg h0]
    refine ⟨by omega, ?_, fun y hy => ?_, k, by omega, ?_⟩
    · rw [length_remove (by rw [length_insert hrow]; omega), length_insert hrow]
      omega
    · rw [getElem?_remove]
      by_cases hy' : y < t.scrollTop
      · rw [if_pos (by omega), getElem?_insert hrow, if_pos (by omega), List.getElem?_drop]
        congr 1
        omega
      · rw [if_neg (by omega), getElem?_insert hrow, if_neg (by omega), if_neg (by omega), List.getElem?_drop]
        congr 1
        omega
    · refine List.ext_getElem? fun i => ?_
      rw [List.getElem?_take, List.getElem?_take]
      by_cases hi : i < b - 1
      · rw [if_pos hi, if_pos hi, getElem?_remove, if_pos (by omega), getElem?_insert hrow, if_pos (by omega)]
      · rw [if_neg hi, if_neg hi]

theorem mem_scrollLines {t : Terminal} {line : Line} (h : line ∈ t.scrollLines.2) :
    line ∈ t.lines ∨ line = t.blankLine false := by
  have hinsert : ∀ (l : List Line) (row : Nat), (∀ line ∈ l, line ∈ t.lines) → ∀ line ∈
      (if row = l.length then l ++ [t.blankLine false] else splice l row 0 [t.blankLine false]),
      line ∈ t.lines ∨ line = t.blankLine false := by
    intro l row hl line h
    have hmem : line ∈ l ∨ line ∈ [t.blankLine false] := by
      split at h
      · exact List.mem_append.1 h
      · exact mem_splice h
    exact hmem.imp (hl line) List.mem_singleton.1
  have hremove : ∀ {l : List Line} {row : Nat}, line ∈ splice l row 1 [] → line ∈ l := fun h =>
    (mem_splice h).resolve_right List.not_mem_nil
  unfold scrollLines at h
  by_cases hfull : t.ybase + 1 = scrollback
  · simp only [hfull, if_true] at h
    split at h
    · exact hinsert _ _ (fun _ => mem_last) line (hremove h)
    · exact hinsert _ _ (fun _ => mem_last) line h
  · simp only [hfull, if_false] at h
    split at h
    · exact hinsert _ _ (fun _ h => h) line (hremove h)
    · exact hinsert _ _ (fun _ h => h) line h

/-! ## The size of the screen -/

theorem wide_blankLine (t : Terminal) (cur : Bool) : t.cols ≤ (t.blankLine cur).length ∧ Filled (t.blankLine cur) := by
  refine ⟨(List.length_replicate ..).ge, fun c hc => ?_⟩
  rw [(List.mem_replicate.1 hc).2]
  rfl

theorem Grid.of_view {t u : Terminal} (hg : t.Grid) (h : u.view = t.view) : u.Grid := by
  have hf := hg.fits
  simp only [view, View.mk.injEq] at h
  obtain ⟨hcols, hrows, hybase, hydisp, hy, htop, hbottom, hlines, hnormal, -, hpage⟩ := h
  refine ⟨hcols ▸ hg.cols_pos, hrows ▸ hg.rows_pos, ⟨?_, ?_, ?_, ?_, ?_, ?_, ?_⟩, ?_, ?_⟩
  · show u.lines.length = u.ybase + u.rows
    rw [hlines, hybase, hrows]
    exact hf.length
  · show ∀ line ∈ u.lines, u.cols ≤ line.length ∧ Filled line
    rw [hlines, hcols]
    exact hf.wide
  · show u.y < u.rows
    rw [hy, hrows]
    exact hf.y_lt
  · show u.scrollTop ≤ u.scrollBottom
    rw [htop, hbottom]
    exact hf.top_le
  · show u.scrollBottom < u.rows
    rw [hbottom, hrows]
    exact hf.bottom_lt
  · show u.ybase < scrollback
    rw [hybase]
    exact hf.ybase_lt
  · show u.ydisp ≤ u.ybase
    rw [hybase, hydisp]
    exact hf.ydisp_le
  · rw [hnormal, hcols, hrows]
    exact hg.normal
  · rw [hpage, hrows]
    exact hg.children

/-- The same but for the rows of the page. -/
theorem Grid.redrawn {t u : Terminal} (hg : t.Grid) (h : Redrawn t u) : u.Grid := by
  have hchildren : u.page.children.length = t.rows := h.length.trans hg.children
  exact Grid.of_view (t := t.withChildren u.page.children)
    ⟨hg.cols_pos, hg.rows_pos, hg.fits, hg.normal, hchildren⟩ h.view

/-! ## New screens -/

theorem filled_blank {n : Nat} {c : Cell} : Filled (List.replicate n (some c)) := by
  intro d hd
  rw [(List.mem_replicate.1 hd).2]
  rfl

theorem fits_construct (cols rows : Nat) (this : Terminal) :
    Fits (construct cols rows this).cols (construct cols rows this).rows (construct cols rows this).saved := by
  have hrows : 0 < (construct cols rows this).rows := by
    show 0 < if rows = 0 then 24 else rows
    split <;> omega
  refine ⟨?_, fun line hline => ?_, hrows, Nat.zero_le _, Nat.sub_lt hrows Nat.one_pos,
    (by decide : 0 < scrollback), Nat.le_refl _⟩
  · show (List.replicate _ _).length = 0 + _
    rw [List.length_replicate, Nat.zero_add]
    rfl
  · have hline : line ∈ List.replicate (construct cols rows this).rows
        (List.replicate (construct cols rows this).cols (some (defAttr, 0x20))) := hline
    rw [(List.mem_replicate.1 hline).2]
    exact ⟨(List.length_replicate ..).ge, filled_blank⟩

theorem construct_cols {cols : Nat} (h : 0 < cols) (rows : Nat) (this : Terminal) :
    (construct cols rows this).cols = cols := if_neg (by omega)

theorem construct_rows {rows : Nat} (h : 0 < rows) (cols : Nat) (this : Terminal) :
    (construct cols rows this).rows = rows := if_neg (by omega)

theorem Grid.construct {t : Terminal} (hg : t.Grid) (normal : Option Saved)
    (hn : ∀ s ∈ normal, Fits t.cols t.rows s) : ((construct t.cols t.rows t).keep normal).Grid := by
  have hcols := construct_cols hg.cols_pos t.rows t
  have hrows := construct_rows hg.rows_pos t.cols t
  refine ⟨?_, ?_, fits_construct t.cols t.rows t, fun s hs => ?_, ?_⟩
  · show 0 < (Terminal.construct t.cols t.rows t).cols
    rw [hcols]
    exact hg.cols_pos
  · show 0 < (Terminal.construct t.cols t.rows t).rows
    rw [hrows]
    exact hg.rows_pos
  · show Fits (Terminal.construct t.cols t.rows t).cols (Terminal.construct t.cols t.rows t).rows s
    rw [hcols, hrows]
    exact hn s hs
  · show t.page.children.length = (Terminal.construct t.cols t.rows t).rows
    rw [hrows]
    exact hg.children

/-! ## Resizing -/

theorem pushes_eq {α : Type} {size : Nat} (a : α) : ∀ (n : Nat) {l : List α}, l.length + n ≤ size →
    (fun l => if l.length < size then l ++ [a] else l)^[n] l = l ++ List.replicate n a
  | 0, l, _ => (List.append_nil l).symm
  | n + 1, l, h => by
    rw [Function.iterate_succ_apply, if_pos (by omega),
      pushes_eq a n (by rw [List.length_append, List.length_singleton]; omega), List.append_assoc]
    rfl

theorem pops_eq {α : Type} {size : Nat} : ∀ (n : Nat) {l : List α}, size + n ≤ l.length →
    (fun l => if size < l.length then l.dropLast else l)^[n] l = l.take (l.length - n)
  | 0, l, _ => (List.take_length (l := l)).symm
  | n + 1, l, h => by
    have hlen : l.dropLast.length = l.length - 1 := List.length_dropLast
    rw [Function.iterate_succ_apply, if_pos (by omega), pops_eq n (by omega), hlen, List.dropLast_eq_take,
      List.take_take]
    congr 1
    omega

/-- The rows that are too many go, and new ones come behind the others. -/
theorem fitRows_eq {α : Type} {rows y c : Nat} (a : α) {l : List α} (h : l.length = rows + c) :
    fitRows rows y (y + c) a l = l.take (y + c) ++ List.replicate (y - rows) a := by
  unfold fitRows
  split_ifs with h1 h2
  · rw [pushes_eq a (y - rows) (by omega), List.take_of_length_le (by omega)]
  · rw [pops_eq (rows - y) (by omega), Nat.sub_eq_zero_of_le h2.le, List.replicate_zero, List.append_nil]
    congr 1
    omega
  · rw [List.take_of_length_le (by omega), Nat.sub_eq_zero_of_le (by omega), List.replicate_zero, List.append_nil]

theorem fitLine_wide {cols x : Nat} {line : Line} (hl : cols ≤ line.length) (hd : Filled line) :
    x ≤ (fitLine cols x line).length ∧ Filled (fitLine cols x line) := by
  unfold fitLine
  split_ifs with h1 h2
  · refine ⟨?_, fun c hc => ?_⟩
    · rw [List.length_append, List.length_replicate]
      omega
    · rcases List.mem_append.1 hc with hc | hc
      · exact hd c hc
      · exact filled_blank c hc
  · exact ⟨by rw [List.length_take]; omega, fun c hc => hd c (List.mem_of_mem_take hc)⟩
  · exact ⟨by omega, hd⟩

theorem Grid.fit {t : Terminal} (hg : t.Grid) {x y : Nat} (hx : 0 < x) (hy : 0 < y) : ((t.fit x y).keep none).Grid := by
  have hlen : (t.lines.map (fitLine t.cols x)).length = t.rows + t.ybase := by
    rw [List.length_map, Nat.add_comm]
    exact hg.fits.length
  have hlines := fitRows_eq (y := y) (List.replicate x (some (defAttr, (0x20 : CodeUnit)))) hlen
  have hchildren := fitRows_eq (y := y) (c := 0) ([] : Html) hg.children
  refine ⟨hx, hy, ⟨?_, fun line hline => ?_, ?_, Nat.zero_le _, Nat.sub_lt hy Nat.one_pos, hg.fits.ybase_lt,
    hg.fits.ydisp_le⟩, by rintro s ⟨⟩, ?_⟩
  · show (fitRows t.rows y (y + t.ybase) (List.replicate x (some (defAttr, 0x20))) (t.lines.map (fitLine t.cols x))).length
      = t.ybase + y
    rw [hlines, List.length_append, List.length_take, List.length_replicate, hlen]
    omega
  · have hline : line ∈ fitRows t.rows y (y + t.ybase) (List.replicate x (some (defAttr, 0x20)))
        (t.lines.map (fitLine t.cols x)) := hline
    rw [hlines] at hline
    rcases List.mem_append.1 hline with hline | hline
    · obtain ⟨line, hmem, rfl⟩ := List.mem_map.1 (List.mem_of_mem_take hline)
      obtain ⟨hw, hd⟩ := hg.fits.wide line hmem
      exact fitLine_wide hw hd
    · rw [(List.mem_replicate.1 hline).2]
      exact ⟨(List.length_replicate ..).ge, filled_blank⟩
  · show (if y ≤ t.y then y - 1 else t.y) < y
    split <;> omega
  · show (fitRows t.rows y y [] t.page.children).length = y
    have hchildren : fitRows t.rows y y [] t.page.children = t.page.children.take y ++ List.replicate (y - t.rows) [] :=
      hchildren
    rw [hchildren, List.length_append, List.length_take, List.length_replicate, hg.children]
    omega

/-! ## Effects keep the size -/

theorem Grid.modify {t : Terminal} (hg : t.Grid) {f : Line → Line} (i : Nat)
    (hf : ∀ line, t.cols ≤ line.length → Filled line → t.cols ≤ (f line).length ∧ Filled (f line)) :
    { t with lines := t.lines.modify i f }.Grid := by
  refine ⟨hg.cols_pos, hg.rows_pos, { hg.fits with length := ?_, wide := fun line hline => ?_ }, hg.normal, hg.children⟩
  · show (t.lines.modify i f).length = t.ybase + t.rows
    rw [List.length_modify]
    exact hg.fits.length
  · obtain ⟨j, hj⟩ := List.mem_iff_getElem?.1 (show line ∈ t.lines.modify i f from hline)
    rw [List.getElem?_modify] at hj
    obtain ⟨old, hold, rfl⟩ := Option.map_eq_some_iff.1 hj
    obtain ⟨hw, hd⟩ := hg.fits.wide old (List.mem_of_getElem? hold)
    dsimp only
    split
    · exact hf old hw hd
    · exact ⟨hw, hd⟩

theorem Grid.lines {t : Terminal} (hg : t.Grid) {lines : List Line} (hlen : lines.length = t.lines.length)
    (hmem : ∀ line ∈ lines, line ∈ t.lines ∨ ∃ cur, line = t.blankLine cur) : { t with lines }.Grid := by
  refine ⟨hg.cols_pos, hg.rows_pos, { hg.fits with length := hlen.trans hg.fits.length, wide := fun line hline => ?_ },
    hg.normal, hg.children⟩
  rcases hmem line hline with h | ⟨cur, rfl⟩
  · exact hg.fits.wide line h
  · exact wide_blankLine t cur

theorem Grid.updateRange {t : Terminal} (hg : t.Grid) (y : Nat) : (t.updateRange y).Grid :=
  ⟨hg.cols_pos, hg.rows_pos, hg.fits, hg.normal, hg.children⟩

theorem Grid.scroll {t : Terminal} (hg : t.Grid) : t.scroll.Grid := by
  have hs := scrolled hg.fits
  have hgrid : { t with ybase := t.scrollLines.1, ydisp := t.scrollLines.1, lines := t.scrollLines.2 }.Grid := by
    refine ⟨hg.cols_pos, hg.rows_pos, { hg.fits with
      length := hs.length, wide := fun line hline => ?_, ybase_lt := hs.ybase_lt, ydisp_le := Nat.le_refl _ },
      hg.normal, hg.children⟩
    rcases mem_scrollLines hline with h | rfl
    · exact hg.fits.wide line h
    · exact wide_blankLine t false
  exact (hgrid.updateRange _).updateRange _

theorem Grid.resize {t u : Terminal} (hg : t.Grid) {x y : Nat} (h : t.resize x y = some u) : u.Grid := by
  refine (hg.fit ?_ ?_).redrawn (redrawn_resize h)
  · split <;> omega
  · split <;> omega

theorem Grid.leaveAlternate {t u : Terminal} (hg : t.Grid) (h : t.leaveAlternate = some u) : u.Grid := by
  cases hn : t.normal with
  | none =>
    rw [Terminal.leaveAlternate, hn] at h
    cases h
    exact hg
  | some normal =>
    have hrestore : (t.restore normal).Grid :=
      ⟨hg.cols_pos, hg.rows_pos, hg.normal normal hn, by rintro s ⟨⟩, hg.children⟩
    exact hrestore.redrawn (redrawn_leaveAlternate hn h)

/-- A proper effect keeps the size. -/
theorem Grid.effect {t u : Terminal} (hp : m.proper) (hg : t.Grid) (h : Effect m t u) : u.Grid := by
  cases h with
  | move y hy h =>
    exact Grid.of_view (t := { t with y })
      ⟨hg.cols_pos, hg.rows_pos, { hg.fits with y_lt := hy hp hg }, hg.normal, hg.children⟩ h
  | attr a _ h =>
    exact Grid.of_view (t := { t with curAttr := a }) ⟨hg.cols_pos, hg.rows_pos, hg.fits, hg.normal, hg.children⟩ h
  | region top bottom hr h =>
    have hr := hr hp hg
    exact Grid.of_view (t := { t with scrollTop := top, scrollBottom := bottom }) ⟨hg.cols_pos, hg.rows_pos,
      { hg.fits with top_le := hr.1, bottom_lt := hr.2 }, hg.normal, hg.children⟩ h
  | range y _ h => exact Grid.of_view (hg.updateRange y) h
  | edit y f hf _ h =>
    have hedit := hg.modify (t.ybase + y) fun line hl hd => ⟨hl.trans (hf.length line), hf.filled hp hg line hl hd⟩
    exact Grid.of_view (hedit.updateRange y) h
  | silent y f _ hf h =>
    have hedit := hg.modify (t.ybase + y) fun line hl hd => ⟨hl.trans (hf.length line), hf.filled hp hg line hl hd⟩
    exact Grid.of_view hedit h
  | shift a b lines hs h => exact Grid.of_view (((hg.lines (hs.length hg) hs.mem).updateRange a).updateRange b) h
  | scroll h => exact Grid.of_view hg.scroll h
  | reset v _ hv h =>
    have hnone : (Terminal.construct t.cols t.rows t).Grid := hg.construct none (by rintro s ⟨⟩)
    exact Grid.of_view (hnone.redrawn (redrawn_reset hv)) h
  | enter v _ _ hv h =>
    have hsome := hg.construct (some t.saved) (by rintro s ⟨⟩; exact hg.fits)
    exact Grid.of_view (hsome.redrawn (redrawn_alternate hv)) h
  | leave v _ _ hv h => exact Grid.of_view (hg.leaveAlternate hv) h
  | resize x v _ _ hv h => exact Grid.of_view (hg.resize hv) h

end Tangle.Term.Terminal
