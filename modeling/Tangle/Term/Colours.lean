/-
Every cell names colours of the palette: what a program prints cannot make the page ask for one that is not
there, whatever it writes and wherever the cursor goes.
-/
import Tangle.Term.Run

namespace Tangle.Term.Terminal

open JsArray

/-- The cells of the lines name colours that are there. -/
def NamedLines (lines : List Line) : Prop := ∀ line ∈ lines, ∀ c : Cell, some c ∈ line → c.1.Named

/-- The attributes of a terminal name colours that are there. -/
structure Coloured (t : Terminal) : Prop where
  curAttr : t.curAttr.Named
  lines : NamedLines t.lines
  normal : ∀ s ∈ t.normal, NamedLines s.lines

theorem Coloured.of_view {t u : Terminal} (hc : t.Coloured) (h : u.view = t.view) : u.Coloured := by
  have hattr : u.curAttr = t.curAttr := congrArg View.curAttr h
  have hlines : u.lines = t.lines := congrArg View.lines h
  have hnormal : u.normal = t.normal := congrArg View.normal h
  exact ⟨hattr ▸ hc.curAttr, hlines ▸ hc.lines, hnormal ▸ hc.normal⟩

theorem Coloured.redrawn {t u : Terminal} (hc : t.Coloured) (h : Redrawn t u) : u.Coloured :=
  Coloured.of_view (t := t.withChildren u.page.children) ⟨hc.curAttr, hc.lines, hc.normal⟩ h.view

/-! ## Lines -/

theorem named_replicate {n : Nat} {a : Attr} {ch : CodeUnit} (ha : a.Named) :
    ∀ c : Cell, some c ∈ List.replicate n (some (a, ch)) → c.1.Named := by
  intro c hc
  cases (List.mem_replicate.1 hc).2
  exact ha

theorem Coloured.named_blankLine {t : Terminal} (hc : t.Coloured) (cur : Bool) :
    ∀ c : Cell, some c ∈ t.blankLine cur → c.1.Named := by
  refine named_replicate ?_
  split
  · exact hc.curAttr
  · exact named_defAttr

/-- Lines that are there, or blank ones. -/
theorem Coloured.named_lines {t : Terminal} (hc : t.Coloured) {lines : List Line}
    (h : ∀ line ∈ lines, line ∈ t.lines ∨ ∃ cur, line = t.blankLine cur) : NamedLines lines := by
  intro line hline
  rcases h line hline with h | ⟨cur, rfl⟩
  · exact hc.lines line h
  · exact hc.named_blankLine cur

theorem Coloured.named_modify {proper : Prop} {t : Terminal} (hc : t.Coloured) {f : Line → Line} (hf : Edits proper t f)
    (i : Nat) : NamedLines (t.lines.modify i f) := by
  intro line hline c hmem
  obtain ⟨j, hj⟩ := List.mem_iff_getElem?.1 hline
  rw [List.getElem?_modify] at hj
  obtain ⟨old, hold, rfl⟩ := Option.map_eq_some_iff.1 hj
  have hnamed := hc.lines old (List.mem_of_getElem? hold)
  split at hmem
  · rcases hf.mem old c hmem with h | h | h
    · exact hnamed c h
    · exact h ▸ hc.curAttr
    · exact h ▸ named_defAttr
  · exact hnamed c hmem

theorem named_fitLine {cols x : Nat} {line : Line} (h : ∀ c : Cell, some c ∈ line → c.1.Named) :
    ∀ c : Cell, some c ∈ fitLine cols x line → c.1.Named := by
  intro c hc
  unfold fitLine at hc
  split_ifs at hc
  · rcases List.mem_append.1 hc with hc | hc
    · exact h c hc
    · exact named_replicate named_defAttr c hc
  · exact h c (List.mem_of_mem_take hc)
  · exact h c hc

theorem mem_fitRows {α : Type} {rows y size : Nat} {a b : α} {l : List α} (h : b ∈ fitRows rows y size a l) :
    b ∈ l ∨ b = a := by
  have hiter : ∀ (f : List α → List α), (∀ l, b ∈ f l → b ∈ l ∨ b = a) → ∀ n, b ∈ f^[n] l → b ∈ l ∨ b = a :=
    fun f hf n => JsArray.mem_iterate hf n l
  unfold fitRows at h
  split_ifs at h
  · refine hiter _ (fun l hl => ?_) _ h
    split at hl
    · exact (List.mem_append.1 hl).imp_right List.mem_singleton.1
    · exact .inl hl
  · refine hiter _ (fun l hl => ?_) _ h
    split at hl
    · exact .inl (List.mem_of_mem_dropLast hl)
    · exact .inl hl
  · exact .inl h

/-! ## Steps -/

theorem coloured_construct (cols rows : Nat) (this : Terminal) (normal : Option Saved)
    (hn : ∀ s ∈ normal, NamedLines s.lines) : ((construct cols rows this).keep normal).Coloured := by
  refine ⟨named_defAttr, fun line hline => ?_, hn⟩
  rw [(List.mem_replicate.1 (show line ∈ List.replicate _ _ from hline)).2]
  exact named_replicate named_defAttr

theorem Coloured.resize {t u : Terminal} (hc : t.Coloured) {x y : Nat} (h : t.resize x y = some u) : u.Coloured := by
  refine Coloured.redrawn ?_ (redrawn_resize h)
  refine ⟨hc.curAttr, fun line hline => ?_, by rintro s ⟨⟩⟩
  rcases mem_fitRows (show line ∈ fitRows _ _ _ _ _ from hline) with hline | rfl
  · obtain ⟨line, hmem, rfl⟩ := List.mem_map.1 hline
    exact named_fitLine (hc.lines line hmem)
  · exact named_replicate named_defAttr

theorem Coloured.leaveAlternate {t u : Terminal} (hc : t.Coloured) (h : t.leaveAlternate = some u) : u.Coloured := by
  cases hn : t.normal with
  | none =>
    rw [Terminal.leaveAlternate, hn] at h
    cases h
    exact hc
  | some normal =>
    refine Coloured.redrawn ?_ (redrawn_leaveAlternate hn h)
    exact ⟨hc.curAttr, hc.normal normal hn, by rintro s ⟨⟩⟩

theorem Coloured.effect {m : Manner} {t u : Terminal} (hc : t.Coloured)
    (h : Effect m t u) : u.Coloured := by
  cases h with
  | move y _ h | region _ _ _ h | range y _ h =>
    refine Coloured.of_view ?_ h
    exact ⟨hc.curAttr, hc.lines, hc.normal⟩
  | attr a ha h =>
    refine Coloured.of_view ?_ h
    refine ⟨?_, hc.lines, hc.normal⟩
    rcases ha with rfl | ⟨params, rfl⟩
    · exact named_defAttr
    · exact named_charAttributes hc.curAttr params
  | edit y f hf _ h =>
    refine Coloured.of_view ?_ h
    exact ⟨hc.curAttr, hc.named_modify hf _, hc.normal⟩
  | silent y f _ hf h =>
    refine Coloured.of_view ?_ h
    exact ⟨hc.curAttr, hc.named_modify hf _, hc.normal⟩
  | shift a b lines hs h =>
    refine Coloured.of_view ?_ h
    exact ⟨hc.curAttr, hc.named_lines hs.mem, hc.normal⟩
  | scroll h =>
    refine Coloured.of_view ?_ h
    exact ⟨hc.curAttr, hc.named_lines fun line hline => (mem_scrollLines hline).imp_right fun h => ⟨false, h⟩, hc.normal⟩
  | reset v _ hv h =>
    have hnew := coloured_construct t.cols t.rows t none (by rintro s ⟨⟩)
    exact (hnew.redrawn (redrawn_reset hv)).of_view h
  | enter v _ _ hv h =>
    have hnew := coloured_construct t.cols t.rows t (some t.saved) (by rintro s ⟨⟩; exact hc.lines)
    exact (hnew.redrawn (redrawn_alternate hv)).of_view h
  | leave v _ _ hv h => exact (hc.leaveAlternate hv).of_view h
  | resize x v _ _ hv h => exact (hc.resize hv).of_view h

theorem Coloured.idle {t u : Terminal} (hc : t.Coloured) (h : Idle t u) : u.Coloured := by
  obtain ⟨ydisp, cursorState, page, out, rfl⟩ := h
  exact ⟨hc.curAttr, hc.lines, hc.normal⟩

theorem coloured_opened {cols rows : Nat} {t : Terminal} (h : (new cols rows).opened = some t) : t.Coloured := by
  have hnew := coloured_construct cols rows object none (by rintro s ⟨⟩)
  refine Coloured.idle (Coloured.idle hnew ?_) (idle_refresh h)
  exact ⟨_, _, _, _, rfl⟩

/-- After any run, whatever was written in it, each cell on the screen, in the history and on the screen that is kept,
and each that comes next, names two colours of the palette. -/
theorem run_coloured {cols rows : Nat} {acts : List Act} {t u : Terminal} (ht : (new cols rows).opened = some t)
    (h : Machine.exec step t acts = some u) : u.Coloured :=
  Machine.exec_inv (fun _ _ _ => step_inv (fun _ _ => Coloured.idle) (fun _ _ _ => Coloured.effect)
    fun _ _ _ _ hc => hc.resize) (coloured_opened ht) h

theorem run_coloured_small :
    ((Machine.exec step small [.write (units "\x1b[7;38;5;300ma\x1b[48;5m\x1b[2J\x1b[?1049h"), .resize 5 1]).get
      (by decide +kernel)).Coloured :=
  run_coloured opened_small (Option.some_get _).symm

end Tangle.Term.Terminal
