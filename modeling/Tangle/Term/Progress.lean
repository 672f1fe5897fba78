/-
What keeps to the screen does not raise: every function has a result where the screen has its size, up to
whole writes.
-/
import Tangle.Term.Grid
import Tangle.Term.Round

namespace Tangle.Term.Terminal

open JsArray Effects
open Relation (ReflTransGen)

/-! ## Lines -/

theorem onLine_total {t : Terminal} (hg : t.Grid) {y : Nat} (hy : y < t.rows) (f : Line → Line) :
    ∃ u, t.onLine y f = some u := by
  have hlen : t.lines.length = t.ybase + t.rows := hg.fits.length
  rw [onLine, List.getElem?_eq_getElem (by omega)]
  exact ⟨_, rfl⟩

theorem eraseRight_total {t : Terminal} (hg : t.Grid) {x : Option Nat} {y : Nat} (hy : y < t.rows) :
    ∃ u, t.eraseRight x y = some u ∧ u.Grid ∧ u.rows = t.rows ∧ u.y = t.y := by
  have hsome : ∃ u, t.eraseRight x y = some u := by
    unfold eraseRight
    cases x with
    | none => exact ⟨_, rfl⟩
    | some x =>
      rw [Option.elim_some]
      split
      · obtain ⟨v, hv⟩ := onLine_total hg hy fun line => fill line x (t.cols - x) (t.curAttr, 0x20)
        exact ⟨_, Option.map_eq_some_iff.2 ⟨v, hv, rfl⟩⟩
      · exact ⟨_, rfl⟩
  obtain ⟨u, hu⟩ := hsome
  have heffect : Effect ⟨True, True, True, True⟩ t u := reaches_eraseRight (fun _ => hy) hu
  exact ⟨u, hu, hg.effect trivial heffect, eraseRight_same hu⟩

theorem eraseLeft_total {t : Terminal} (hg : t.Grid) {x : Option Nat} {y : Nat} (hy : y < t.rows) :
    ∃ u, t.eraseLeft x y = some u ∧ u.Grid ∧ u.rows = t.rows ∧ u.y = t.y := by
  obtain ⟨v, hv, hrows⟩ : ∃ v, (x.elim (some t) fun x => t.onLine y fun line => fill line 0 (x + 1) (t.curAttr, 0x20)) =
      some v ∧ v.rows = t.rows ∧ v.y = t.y := by
    cases x with
    | none => exact ⟨t, rfl, rfl, rfl⟩
    | some x =>
      obtain ⟨v, hv⟩ := onLine_total hg hy fun line => fill line 0 (x + 1) (t.curAttr, 0x20)
      refine ⟨v, hv, ?_⟩
      rw [onLine_eq_some hv]
      exact ⟨rfl, rfl⟩
  have hu : t.eraseLeft x y = some (v.updateRange y) := Option.map_eq_some_iff.2 ⟨v, hv, rfl⟩
  have heffect : Effect ⟨True, True, True, True⟩ t (v.updateRange y) := reaches_eraseLeft (fun _ => hy) hu
  exact ⟨_, hu, hg.effect trivial heffect, hrows⟩

theorem eraseLines_total {rows : Nat} : ∀ {l : List Nat} {t : Terminal}, t.Grid → t.rows = rows → (∀ j ∈ l, j < rows) →
    ∃ u, l.foldlM (fun t j => t.eraseLine j) t = some u
  | [], t, _, _, _ => ⟨t, rfl⟩
  | j :: l, t, hg, hrows, hl => by
    obtain ⟨v, hv, hgv, hrows', -⟩ := eraseRight_total hg (x := some 0) (hrows ▸ hl j List.mem_cons_self)
    obtain ⟨u, hu⟩ := eraseLines_total hgv (hrows'.trans hrows) fun j hj => hl j (List.mem_cons_of_mem _ hj)
    exact ⟨u, Option.bind_eq_some_iff.2 ⟨v, hv, hu⟩⟩

theorem eraseInDisplay_total {t : Terminal} (hg : t.Grid) (params : List Nat) : (eraseInDisplay params t).isSome := by
  have hy : t.y < t.rows := hg.fits.y_lt
  unfold eraseInDisplay
  generalize first params = n
  split
  · obtain ⟨v, hv, hgv, hrows, -⟩ := eraseRight_total hg (x := t.x) hy
    have hl : ∀ j ∈ List.range' (v.y + 1) (v.rows - (v.y + 1)), j < v.rows := fun j hj => by
      have := List.mem_range'_1.1 hj
      omega
    obtain ⟨u, hu⟩ := eraseLines_total hgv rfl hl
    exact Option.isSome_iff_exists.2 ⟨u, Option.bind_eq_some_iff.2 ⟨v, hv, hu⟩⟩
  · obtain ⟨v, hv, hgv, -⟩ := eraseLeft_total hg (x := t.x) hy
    have hl : ∀ j ∈ (List.range v.y).reverse, j < v.rows := fun j hj =>
      (List.mem_range.1 (List.mem_reverse.1 hj)).trans hgv.fits.y_lt
    obtain ⟨u, hu⟩ := eraseLines_total hgv rfl hl
    exact Option.isSome_iff_exists.2 ⟨u, Option.bind_eq_some_iff.2 ⟨v, hv, hu⟩⟩
  · exact Option.isSome_iff_exists.2 (eraseLines_total hg rfl fun j hj => List.mem_range.1 (List.mem_reverse.1 hj))
  · rfl

theorem eraseInLine_total {t : Terminal} (hg : t.Grid) (params : List Nat) : (eraseInLine params t).isSome := by
  have hy : t.y < t.rows := hg.fits.y_lt
  have hright : ∀ x, (t.eraseRight x t.y).isSome := fun x =>
    Option.isSome_iff_exists.2 ((eraseRight_total hg hy).imp fun _ h => h.1)
  unfold eraseInLine
  generalize first params = n
  split
  · exact hright t.x
  · exact Option.isSome_iff_exists.2 ((eraseLeft_total hg hy).imp fun _ h => h.1)
  · exact hright (some 0)
  · rfl

theorem print_total {t : Terminal} (hg : t.Grid) (ch : CodeUnit) : ∃ u, t.print ch = some u := by
  have hnext : ∀ u : Terminal, u.Grid → u.nextRow.Grid := fun u h =>
    h.effect trivial (reaches_nextRow (m := ⟨True, True, True, True⟩) u)
  have hwrap : t.wrap.Grid := by
    cases hx : t.x with
    | none => rwa [wrap_of_none hx]
    | some x =>
      rw [wrap_of_some hx]
      split
      · exact hnext _ ⟨hg.cols_pos, hg.rows_pos, { hg.fits with }, hg.normal, hg.children⟩
      · exact hg
  obtain ⟨v, hv⟩ := onLine_total hwrap hwrap.fits.y_lt fun line =>
    t.wrap.x.elim line fun x => store line x (t.wrap.curAttr, t.translate ch)
  exact ⟨_, Option.map_eq_some_iff.2 ⟨v, hv, rfl⟩⟩

/-! ## Screens -/

theorem refresh_grid {t : Terminal} (hg : t.Grid) {a b : Nat} (hb : b < t.rows) :
    ∃ u, t.refresh a b = some u ∧ u.Grid := by
  obtain ⟨u, hu⟩ := refresh_fits hg.fits hg.children (a := a) hb
  exact ⟨u, hu, hg.redrawn (redrawn_refresh hu)⟩

theorem showCursor_total {t : Terminal} (hg : t.Grid) : ∃ u, t.showCursor = some u := by
  unfold showCursor
  split
  · have hon : { t with cursorState := true }.Grid := ⟨hg.cols_pos, hg.rows_pos, hg.fits, hg.normal, hg.children⟩
    exact (refresh_grid hon hg.fits.y_lt).imp fun _ h => h.1
  · exact ⟨t, rfl⟩

theorem reset_total {t : Terminal} (hg : t.Grid) : ∃ u, t.reset = some u := by
  have hnew : (construct t.cols t.rows t).Grid := hg.construct none (by rintro s ⟨⟩)
  have hlast : (construct t.cols t.rows t).rows - 1 < (construct t.cols t.rows t).rows :=
    Nat.sub_lt hnew.rows_pos Nat.one_pos
  exact (refresh_grid hnew hlast).imp fun _ h => h.1

theorem enterAlternate_total {t : Terminal} (hg : t.Grid) : (enterAlternate t).isSome := by
  unfold enterAlternate
  split
  · rfl
  · obtain ⟨u, hu⟩ := reset_total hg
    have hkept : (u.keep (some t.saved)).Grid := by
      refine Grid.redrawn (t := (construct t.cols t.rows t).keep (some t.saved)) ?_ ?_
      · exact hg.construct _ (by rintro s ⟨⟩; exact hg.fits)
      · have hdraw := redrawn_reset hu
        exact ⟨congrArg (fun v : View => { v with normal := some t.saved }) hdraw.view, hdraw.length⟩
    obtain ⟨v, hv⟩ := showCursor_total hkept
    exact Option.isSome_iff_exists.2 ⟨v, Option.bind_eq_some_iff.2 ⟨_, Option.map_eq_some_iff.2 ⟨u, hu, rfl⟩, hv⟩⟩

theorem leaveAlternate_total {t : Terminal} (hg : t.Grid) : (leaveAlternate t).isSome := by
  unfold leaveAlternate
  cases hn : t.normal with
  | none => rfl
  | some normal =>
    have hrestore : (t.restore normal).Grid :=
      ⟨hg.cols_pos, hg.rows_pos, hg.normal normal hn, by rintro s ⟨⟩, hg.children⟩
    obtain ⟨u, hu, hgu⟩ := refresh_grid hrestore (a := 0) (Nat.sub_lt hg.rows_pos Nat.one_pos)
    obtain ⟨v, hv⟩ := showCursor_total hgu
    exact Option.isSome_iff_exists.2 ⟨v, Option.bind_eq_some_iff.2 ⟨u, hu, hv⟩⟩

theorem resize_total {t : Terminal} (hg : t.Grid) (x y : Nat) : ∃ u, t.resize x y = some u := by
  have hx : 0 < if x < 1 then 1 else x := by split <;> omega
  have hy : 0 < if y < 1 then 1 else y := by split <;> omega
  have hfit := hg.fit hx hy
  obtain ⟨u, hu⟩ := refresh_fits (t := t.fit (if x < 1 then 1 else x) (if y < 1 then 1 else y)) hfit.fits hfit.children
    (a := 0) (Nat.sub_lt hy Nat.one_pos)
  exact ⟨_, Option.map_eq_some_iff.2 ⟨u, hu, rfl⟩⟩

/-! ## Modes -/

/-- A function of effects that has a result wherever the screen has its size. -/
theorem safe_grid {f : Terminal → Option Terminal} (hf : Does (Effect ⟨True, False, False, False⟩) f)
    (h : ∀ t : Terminal, t.Grid → (f t).isSome) : Safe Grid f := by
  intro t hg
  obtain ⟨u, hu⟩ := Option.isSome_iff_exists.1 (h t hg)
  exact ⟨u, hu, inv (fun _ _ hg => hg.effect trivial) hg (hf t u hu)⟩

theorem safe_setPrivateMode (p : Nat) : Safe Grid (setPrivateMode p) := by
  refine safe_grid (does_setPrivateMode False.elim False.elim) fun t hg => ?_
  unfold setPrivateMode
  split
  case h_3 =>
    have hkept : { t with savedCols := some t.cols }.Grid :=
      ⟨hg.cols_pos, hg.rows_pos, hg.fits, hg.normal, hg.children⟩
    exact Option.isSome_iff_exists.2 (resize_total hkept 132 t.rows)
  case h_15 | h_16 | h_17 => exact enterAlternate_total hg
  all_goals rfl

theorem safe_resetPrivateMode (p : Nat) : Safe Grid (resetPrivateMode p) := by
  refine safe_grid (does_resetPrivateMode False.elim False.elim False.elim) fun t hg => ?_
  unfold resetPrivateMode
  split
  case h_2 =>
    rw [resetColumns, Option.isSome_map]
    split
    · exact Option.isSome_iff_exists.2 (resize_total hg _ _)
    · rfl
  case h_14 | h_15 | h_16 => exact leaveAlternate_total hg
  all_goals rfl

/-- `setMode` and `resetMode` of one parameter, by the prefix. -/
theorem safe_mode {p : Nat} {on : Bool} {f : Terminal → Option Terminal} (hf : Safe Grid f) :
    Safe Grid fun t =>
      if t.parser.prefixText = [] then some (if p = 4 then t.withModes ({ · with insertMode := on }) else t)
      else if t.parser.prefixText = units "?" then f t else some t := by
  refine .ite (.of_total fun t hg => ?_) (.ite hf .some)
  split
  · exact ⟨hg.cols_pos, hg.rows_pos, hg.fits, hg.normal, hg.children⟩
  · exact hg

theorem safe_setMode (params : List Nat) : Safe Grid (setMode params) :=
  .foldlM fun p _ => safe_mode (safe_setPrivateMode p)

theorem safe_resetMode (params : List Nat) : Safe Grid (resetMode params) :=
  .foldlM fun p _ => safe_mode (safe_resetPrivateMode p)

/-! ## The parser -/

theorem csiFinal_total {t : Terminal} (hg : t.Grid) (ch : CodeUnit) (params : List Nat) :
    (csiFinal ch params t).isSome := by
  have hline : ∀ f, (t.onLine t.y f).isSome := fun f =>
    Option.isSome_iff_exists.2 (onLine_total hg hg.fits.y_lt f)
  unfold csiFinal
  generalize ch.char = c
  split
  case h_6 => exact eraseInDisplay_total hg params
  case h_7 => exact eraseInLine_total hg params
  case h_10 =>
    unfold insertChars
    cases t.x with
    | none => rfl
    | some x =>
      rw [Option.elim_some]
      split
      · exact hline _
      · rfl
  case h_16 => exact hline _
  case h_17 =>
    unfold eraseChars
    cases t.x with
    | none => rfl
    | some x =>
      rw [Option.elim_some]
      split
      · exact hline _
      · rfl
  case h_24 => exact Option.isSome_iff_exists.2 ((safe_setMode params t hg).imp fun _ h => h.1)
  case h_25 => exact Option.isSome_iff_exists.2 ((safe_resetMode params t hg).imp fun _ h => h.1)
  case h_31 =>
    dsimp only
    split <;> rfl
  case h_33 => rw [repeatPrecedingCharacter, Option.isSome_map]; exact hline _
  case h_35 =>
    dsimp only
    split <;> rfl
  all_goals rfl

theorem normalState_total {t : Terminal} (hg : t.Grid) (ch : CodeUnit) : (normalState ch t).isSome := by
  unfold normalState
  generalize ch.char = c
  split
  case h_11 =>
    split
    · exact Option.isSome_iff_exists.2 (print_total hg ch)
    · rfl
  all_goals rfl

theorem escapedState_total {t : Terminal} (hg : t.Grid) (ch : CodeUnit) : (escapedState ch t).isSome := by
  unfold escapedState
  generalize ch.char = c
  split
  case h_6 =>
    rw [Option.isSome_map]
    exact Option.isSome_iff_exists.2 (reset_total hg)
  all_goals rfl

theorem csiState_total {t : Terminal} (hg : t.Grid) (ch : CodeUnit) : (csiState ch t).isSome := by
  unfold csiState
  split
  · rfl
  · cases digit ch with
    | some d => rfl
    | none =>
      dsimp only
      split
      · rfl
      · split
        · rfl
        · rw [csiEnd, Option.isSome_map]
          have hg' : ((t.pushParam (.number 0)).toState .normal).Grid := hg.of_view rfl
          exact csiFinal_total hg' ch _

theorem round_total {t : Terminal} (hg : t.Grid) (ch : CodeUnit) : (t.round ch).isSome := by
  unfold round
  split
  case h_1 => rw [Option.isSome_map]; exact normalState_total hg ch
  case h_2 => exact escapedState_total hg ch
  case h_5 => rw [Option.isSome_map]; exact csiState_total hg ch
  all_goals rfl

/-! ## Writes -/

/-- The screen has its size, and the rows to be drawn are on it. -/
structure Writing (t : Terminal) : Prop where
  grid : t.Grid
  inRange : t.page.refreshEnd < t.rows

theorem Writing.of_eq {t u : Terminal} (hw : t.page.refreshEnd < t.rows) (hg : u.Grid) (hrows : u.rows = t.rows)
    (hend : u.page.refreshEnd = t.page.refreshEnd) : u.Writing := ⟨hg, by rw [hend, hrows]; exact hw⟩

theorem inRange_updateRange {t : Terminal} (h : t.page.refreshEnd < t.rows) {y : Nat} (hy : y < t.rows) :
    (t.updateRange y).page.refreshEnd < (t.updateRange y).rows := by
  show (if t.page.refreshEnd < y then y else t.page.refreshEnd) < t.rows
  split <;> omega

theorem Writing.effect {m : Manner} {t u : Terminal} (hp : m.proper) (hw : t.Writing)
    (h : Effect m t u) : u.Writing := by
  have hg := hw.grid
  have hgrid := hg.effect hp h
  have hrange : ∀ {a b : Nat}, a < t.rows → b < t.rows →
      ((t.updateRange a).updateRange b).page.refreshEnd < ((t.updateRange a).updateRange b).rows :=
    fun ha hb => inRange_updateRange (inRange_updateRange hw.inRange ha) hb
  have hcols := construct_cols hg.cols_pos t.rows t
  have hrows := construct_rows hg.rows_pos t.cols t
  cases h with
  | move y _ h | attr a _ h | region _ _ _ h | silent y f _ _ h =>
    exact .of_eq hw.inRange hgrid (congrArg View.rows h) (congrArg (fun v : View => v.page.refreshEnd) h)
  | range y hy h | edit y f _ hy h =>
    exact .of_eq (inRange_updateRange hw.inRange (hy hg)) hgrid (congrArg View.rows h)
      (congrArg (fun v : View => v.page.refreshEnd) h)
  | shift a b lines hs h =>
    exact .of_eq (hrange (hs.a_lt hg) (hs.b_lt hg)) hgrid (congrArg View.rows h)
      (congrArg (fun v : View => v.page.refreshEnd) h)
  | scroll h =>
    exact .of_eq (hrange hg.top_lt hg.fits.bottom_lt) hgrid (congrArg View.rows h)
      (congrArg (fun v : View => v.page.refreshEnd) h)
  | reset v _ hv h =>
    have hview := h.trans (redrawn_reset hv).view
    exact .of_eq hw.inRange hgrid ((congrArg View.rows hview).trans hrows)
      (congrArg (fun v : View => v.page.refreshEnd) hview)
  | enter v _ _ hv h =>
    have hview := h.trans (redrawn_alternate hv).view
    exact .of_eq hw.inRange hgrid ((congrArg View.rows hview).trans hrows)
      (congrArg (fun v : View => v.page.refreshEnd) hview)
  | leave v _ _ hv h =>
    cases hn : t.normal with
    | none =>
      rw [leaveAlternate, hn] at hv
      cases hv
      exact .of_eq hw.inRange hgrid (congrArg View.rows h) (congrArg (fun v : View => v.page.refreshEnd) h)
    | some normal =>
      have hview := h.trans (redrawn_leaveAlternate hn hv).view
      exact .of_eq hw.inRange hgrid (congrArg View.rows hview) (congrArg (fun v : View => v.page.refreshEnd) hview)
  | resize x v _ _ hv h =>
    have hview := h.trans (redrawn_resize hv).view
    have hsame : (if t.rows < 1 then 1 else t.rows) = t.rows := if_neg (by have := hg.rows_pos; omega)
    exact .of_eq hw.inRange hgrid ((congrArg View.rows hview).trans hsame)
      (congrArg (fun v : View => v.page.refreshEnd) hview)

/-- The characters that are read keep to the screen. -/
def ProperWrite (t : Terminal) (data : List CodeUnit) : Prop :=
  Machine.Guarded parse (fun p ch => p.2 = false → p.1.Proper ch) (t.begin, false) data

instance (t : Terminal) (data : List CodeUnit) : Decidable (t.ProperWrite data) :=
  inferInstanceAs (Decidable (Machine.Guarded _ _ _ _))

theorem parse_total {t : Terminal} {skip : Bool} {ch : CodeUnit} (hw : t.Writing)
    (hp : skip = false → t.Proper ch) : ∃ p, parse (t, skip) ch = some p ∧ p.1.Writing := by
  cases skip with
  | true => exact ⟨(t, false), rfl, hw⟩
  | false =>
    obtain ⟨p, hround⟩ := Option.isSome_iff_exists.1 (round_total hw.grid _)
    refine ⟨p, hround, ?_⟩
    exact inv (fun _ _ hw => hw.effect (hp rfl)) hw (reaches_round hround)

theorem writing_begin {t : Terminal} (hg : t.Grid) : t.begin.Writing := by
  unfold begin
  dsimp only
  split
  · refine ⟨⟨hg.cols_pos, hg.rows_pos, { hg.fits with ydisp_le := Nat.le_refl _ }, hg.normal, hg.children⟩, ?_⟩
    exact Nat.sub_lt hg.rows_pos Nat.one_pos
  · exact ⟨⟨hg.cols_pos, hg.rows_pos, hg.fits, hg.normal, hg.children⟩, hg.fits.y_lt⟩

theorem finish_total {t : Terminal} (hw : t.Writing) : ∃ u, t.finish = some u ∧ u.Grid :=
  refresh_grid (hw.grid.updateRange t.y) (inRange_updateRange hw.inRange hw.grid.fits.y_lt)

/-- A write of what keeps to the screen does not raise, and keeps the size. -/
theorem write_total {t : Terminal} (hg : t.Grid) {data : List CodeUnit} (hp : t.ProperWrite data) :
    ∃ u, t.write data = some u ∧ u.Grid := by
  have hstep : ∀ (p : Terminal × Bool) (ch : CodeUnit), p.1.Writing → (p.2 = false → p.1.Proper ch) →
      ∃ q, parse p ch = some q ∧ q.1.Writing := fun p ch hw hp => parse_total hw hp
  obtain ⟨p, hexec, hw⟩ := Machine.exec_total hstep (writing_begin hg) hp
  obtain ⟨u, hu, hgu⟩ := finish_total hw
  exact ⟨u, Option.bind_eq_some_iff.2 ⟨p, hexec, hu⟩, hgu⟩

end Tangle.Term.Terminal
