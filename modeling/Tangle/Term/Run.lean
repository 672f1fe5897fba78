/-
Runs of a terminal: what its program writes comes between what the user and the timers do. Where the
writes keep to the screen, no step of a run raises, the lines and the cursor fit the size of the terminal,
and no more is kept than `scrollback` allows.
-/
import Tangle.Term.Progress

namespace Tangle.Term.Terminal

open JsArray

/-- `if (this.sendFocus) this.send(..)`. -/
def reportFocus (data : List CodeUnit) (t : Terminal) : Terminal := if t.modes.sendFocus then t.send data else t

/-- What `focus` does to the terminal that had the focus. -/
def blur (t : Terminal) : Option Terminal :=
  ({ t with cursorState := false }.refresh t.y t.y).map (reportFocus (units "\x1b[O"))

/-- What it does to the one that gets it. -/
def focus (t : Terminal) : Option Terminal := (t.reportFocus (units "\x1b[I")).showCursor

/-- The end of `keyDown` and of `keyPress`. -/
def press (key : List CodeUnit) (t : Terminal) : Option Terminal := t.showCursor.map (handler key)

/-- The steps of a terminal: output of its program, another size, the wheel, the timer of the cursor, the focus,
a key, what is pasted, and a timeout of `send`. -/
inductive Act
  | write (data : List CodeUnit)
  | resize (cols rows : Nat)
  | scrollDisp (disp : Int)
  | cursorBlink
  | blur
  | focus
  | key (key : List CodeUnit)
  | paste (data : List CodeUnit)
  | timeout

/-- An exception ends a run of these steps. In the page the same terminal goes on with what it had reached when it was
raised. -/
def step (t : Terminal) : Act → Option Terminal
  | .write data => t.write data
  | .resize cols rows => t.resize cols rows
  | .scrollDisp disp => t.scrollDisp disp
  | .cursorBlink => t.cursorBlink
  | .blur => t.blur
  | .focus => t.focus
  | .key key => t.press key
  | .paste data => some (t.send data)
  | .timeout => t.timeout

/-- What is written keeps to the screen, and there is a timeout to run out. -/
def ProperAct (t : Terminal) : Act → Prop
  | .write data => t.ProperWrite data
  | .timeout => 0 < t.out.timers
  | _ => True

instance : ∀ (t : Terminal) (a : Act), Decidable (t.ProperAct a)
  | t, .write data => inferInstanceAs (Decidable (t.ProperWrite data))
  | t, .timeout => inferInstanceAs (Decidable (0 < t.out.timers))
  | _, .resize _ _ | _, .scrollDisp _ | _, .cursorBlink | _, .blur | _, .focus | _, .key _ | _, .paste _ =>
    .isTrue trivial

/-! ## Steps that draw -/

theorem scrollDisp_total {t : Terminal} (hg : t.Grid) (disp : Int) : ∃ u, t.scrollDisp disp = some u ∧ u.Grid := by
  have hmoved : ∀ n ≤ t.ybase, { t with ydisp := n }.Grid := fun n hn =>
    ⟨hg.cols_pos, hg.rows_pos, { hg.fits with ydisp_le := hn }, hg.normal, hg.children⟩
  refine refresh_grid (hmoved _ ?_) (Nat.sub_lt hg.rows_pos Nat.one_pos)
  split
  · exact Nat.le_refl _
  · split <;> omega

theorem cursorBlink_total {t : Terminal} (hg : t.Grid) : ∃ u, t.cursorBlink = some u ∧ u.Grid :=
  refresh_grid (t := { t with cursorState := !t.cursorState }) (hg.of_view rfl) hg.fits.y_lt

theorem view_reportFocus (data : List CodeUnit) (t : Terminal) : (t.reportFocus data).view = t.view := by
  unfold reportFocus
  split <;> rfl

theorem blur_total {t : Terminal} (hg : t.Grid) : ∃ u, t.blur = some u ∧ u.Grid := by
  have hoff : { t with cursorState := false }.Grid := hg.of_view rfl
  obtain ⟨u, hu, hgu⟩ := refresh_grid hoff (a := t.y) (b := t.y) hg.fits.y_lt
  exact ⟨_, Option.map_eq_some_iff.2 ⟨u, hu, rfl⟩, hgu.of_view (view_reportFocus _ u)⟩

theorem showCursor_grid {t : Terminal} (hg : t.Grid) : ∃ u, t.showCursor = some u ∧ u.Grid := by
  obtain ⟨u, hu⟩ := showCursor_total hg
  exact ⟨u, hu, hg.redrawn (redrawn_showCursor hu)⟩

theorem focus_total {t : Terminal} (hg : t.Grid) : ∃ u, t.focus = some u ∧ u.Grid :=
  showCursor_grid (hg.of_view (view_reportFocus _ t))

theorem press_total {t : Terminal} (hg : t.Grid) (key : List CodeUnit) : ∃ u, t.press key = some u ∧ u.Grid := by
  obtain ⟨u, hu, hgu⟩ := showCursor_grid hg
  exact ⟨_, Option.map_eq_some_iff.2 ⟨u, hu, rfl⟩, hgu.of_view rfl⟩

theorem timeout_total {t : Terminal} (hg : t.Grid) (h : 0 < t.out.timers) : ∃ u, t.timeout = some u ∧ u.Grid := by
  unfold timeout
  rw [if_neg (by omega)]
  exact ⟨_, rfl, hg.of_view rfl⟩

/-! ## Runs -/

theorem step_total {t : Terminal} {a : Act} (hg : t.Grid) (h : t.ProperAct a) : ∃ u, t.step a = some u ∧ u.Grid := by
  cases a with
  | write data => exact write_total hg h
  | resize cols rows =>
    obtain ⟨u, hu⟩ := resize_total hg cols rows
    exact ⟨u, hu, hg.resize hu⟩
  | scrollDisp disp => exact scrollDisp_total hg disp
  | cursorBlink => exact cursorBlink_total hg
  | blur => exact blur_total hg
  | focus => exact focus_total hg
  | key key => exact press_total hg key
  | paste data => exact ⟨t.send data, rfl, hg.of_view rfl⟩
  | timeout => exact timeout_total hg h

theorem opened_total (cols rows : Nat) : ∃ t, (new cols rows).opened = some t ∧ t.Grid := by
  have hcols : 0 < (new cols rows).cols := by
    show 0 < if cols = 0 then 80 else cols
    split <;> omega
  have hf := fits_construct cols rows object
  have hrows : 0 < (new cols rows).rows := hf.y_lt
  have hg : ((new cols rows).withChildren (List.replicate (new cols rows).rows [])).Grid :=
    ⟨hcols, hrows, hf, by rintro s ⟨⟩, List.length_replicate⟩
  exact refresh_grid hg (Nat.sub_lt hrows Nat.one_pos)

/-- Three columns and two rows. -/
def small : Terminal := (new 3 2).opened.get (by decide +kernel)

theorem opened_small : (new 3 2).opened = some small := (Option.some_get _).symm

/-- A run from a new terminal, up to where a write would not keep to the screen, does not raise, and the screen keeps
its size. -/
theorem run_total {cols rows : Nat} {acts : List Act} {t : Terminal} (ht : (new cols rows).opened = some t)
    (h : Machine.Guarded step ProperAct t acts) : ∃ u, Machine.exec step t acts = some u ∧ u.Grid := by
  obtain ⟨v, hv, hg⟩ := opened_total cols rows
  rw [ht] at hv
  cases hv
  exact Machine.exec_total (fun _ _ => step_total) hg h

theorem run_total_small : ∃ u, Machine.exec step small
    [.write (units "ab\x1b[1;2r\x1b7\x1b8\n"), .scrollDisp (-1), .resize 3 1] = some u ∧ u.Grid :=
  run_total opened_small (by decide +kernel)

/-! ## What every step keeps

Steps other than a write and a resize leave the screen as it is. -/

/-- Only where the view is, what is drawn and what is sent may differ. -/
def Idle (t u : Terminal) : Prop :=
  ∃ ydisp cursorState page out, u = { t with ydisp, cursorState, page, out }

theorem Idle.refl (t : Terminal) : Idle t t := ⟨t.ydisp, t.cursorState, t.page, t.out, rfl⟩

theorem Idle.trans {t u v : Terminal} (h : Idle t u) (h' : Idle u v) : Idle t v := by
  obtain ⟨ydisp, cursorState, page, out, rfl⟩ := h
  obtain ⟨ydisp, cursorState, page, out, rfl⟩ := h'
  exact ⟨ydisp, cursorState, page, out, rfl⟩

theorem idle_refresh {t u : Terminal} {a b : Nat} (h : t.refresh a b = some u) : Idle t u := by
  obtain ⟨children, rfl, -⟩ := refresh_eq_some h
  exact ⟨t.ydisp, t.cursorState, _, t.out, rfl⟩

theorem idle_showCursor {t u : Terminal} (h : t.showCursor = some u) : Idle t u := by
  unfold showCursor at h
  split at h
  · have hon : Idle t { t with cursorState := true } := ⟨t.ydisp, true, t.page, t.out, rfl⟩
    exact hon.trans (idle_refresh h)
  · cases h
    exact .refl t

theorem idle_reportFocus (data : List CodeUnit) (t : Terminal) : Idle t (t.reportFocus data) := by
  unfold reportFocus
  split
  · exact ⟨t.ydisp, t.cursorState, t.page, _, rfl⟩
  · exact .refl t

theorem idle_begin (t : Terminal) : Idle t t.begin := by
  unfold begin
  dsimp only
  split
  · exact ⟨t.ybase, t.cursorState, _, t.out, rfl⟩
  · exact ⟨t.ydisp, t.cursorState, _, t.out, rfl⟩

theorem idle_finish {t u : Terminal} (h : t.finish = some u) : Idle t u := by
  have hrange : Idle t (t.updateRange t.y) := ⟨t.ydisp, t.cursorState, _, t.out, rfl⟩
  exact hrange.trans (idle_refresh h)

theorem step_idle {t u : Terminal} {a : Act} (hw : ∀ data, a ≠ .write data) (hr : ∀ x y, a ≠ .resize x y)
    (h : t.step a = some u) : Idle t u := by
  cases a with
  | write data => exact absurd rfl (hw data)
  | resize x y => exact absurd rfl (hr x y)
  | scrollDisp disp =>
    exact Idle.trans ⟨_, t.cursorState, t.page, t.out, rfl⟩ (idle_refresh h)
  | cursorBlink =>
    exact Idle.trans ⟨t.ydisp, !t.cursorState, t.page, t.out, rfl⟩ (idle_refresh h)
  | blur =>
    obtain ⟨v, hv, rfl⟩ := Option.map_eq_some_iff.1 h
    have hoff : Idle t { t with cursorState := false } := ⟨t.ydisp, false, t.page, t.out, rfl⟩
    exact (hoff.trans (idle_refresh hv)).trans (idle_reportFocus _ v)
  | focus => exact (idle_reportFocus _ t).trans (idle_showCursor h)
  | key key =>
    obtain ⟨v, hv, rfl⟩ := Option.map_eq_some_iff.1 h
    exact (idle_showCursor hv).trans ⟨v.ydisp, v.cursorState, v.page, _, rfl⟩
  | paste data =>
    cases h
    exact ⟨t.ydisp, t.cursorState, t.page, _, rfl⟩
  | timeout =>
    have h : t.timeout = some u := h
    unfold timeout at h
    split at h
    · cases h
    · cases h
      exact ⟨t.ydisp, t.cursorState, t.page, _, rfl⟩

/-- What the effects keep and what the other steps leave alone holds after every step. -/
theorem step_inv {I : Terminal → Prop} (hidle : ∀ t u, I t → Idle t u → I u)
    (heffect : ∀ m t u, I t → Effect m t u → I u)
    (hresize : ∀ t u x y, I t → resize x y t = some u → I u) {t u : Terminal} {a : Act} (ht : I t)
    (h : t.step a = some u) : I u := by
  by_cases hr : ∃ x y, a = .resize x y
  · obtain ⟨x, y, rfl⟩ := hr
    exact hresize t u x y ht h
  by_cases hw : ∃ data, a = .write data
  · obtain ⟨data, rfl⟩ := hw
    obtain ⟨p, hexec, hfinish⟩ := Option.bind_eq_some_iff.1 (show t.write data = some u from h)
    have hp : I p.1 := by
      refine Machine.exec_inv (I := fun p => I p.1) (fun p ch q hp hq => ?_) (hidle t _ ht (idle_begin t)) hexec
      exact Effects.inv (heffect _) hp (parse_reaches hq)
    exact hidle p.1 u hp (idle_finish hfinish)
  · push Not at hr hw
    exact hidle t u ht (step_idle hw hr h)

end Tangle.Term.Terminal
