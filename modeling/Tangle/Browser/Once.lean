/-
What sequences of `destroy` do to a page on which they may throw. A call that throws has left its tab or window
half destroyed: the flag is set, so nothing ever announces that it is closed. Tabs and windows are destroyed
once, and announced, exactly where every call is spared.
-/
import Tangle.Browser.Spared

namespace Tangle.Dom

open Demands
open Wm (Call Event Listed Cascade Populated Reached Closed DestroyedOnce)

/-! ## What is destroyed announces nothing more -/

/-- What the event is about is destroyed. -/
def Gone : Event → Wm → Prop
  | .kill t, s | .closeTab t, s => ∃ tab, s.tabs[t]? = some tab ∧ tab.destroyed = true
  | .closeWindow w, s => ∃ win, s.windows[w]? = some win ∧ win.destroyed = true

/-- That is so, and the event was announced `k` times. -/
structure Silent (e : Event) (k : Nat) (d : Dom) : Prop where
  gone : Gone e d.toWm
  count : d.trace.count e = k

section Keeps

variable {e : Event} {k : Nat}

theorem Gone.mono {s s' : Wm} (htabs : ∀ (t : Nat) (tab : Wm.Tab), s.tabs[t]? = some tab →
      ∃ tab', s'.tabs[t]? = some tab' ∧ (tab.destroyed = true → tab'.destroyed = true))
    (hwins : ∀ (w : Nat) (win : Wm.Window), s.windows[w]? = some win →
      ∃ win', s'.windows[w]? = some win' ∧ (win.destroyed = true → win'.destroyed = true)) (h : Gone e s) :
    Gone e s' := by
  cases e with
  | kill t | closeTab t =>
    obtain ⟨tab, ht, hd⟩ := h
    obtain ⟨tab', ht', himp⟩ := htabs t tab ht
    exact ⟨tab', ht', himp hd⟩
  | closeWindow w =>
    obtain ⟨win, hw, hd⟩ := h
    obtain ⟨win', hw', himp⟩ := hwins w win hw
    exact ⟨win', hw', himp hd⟩

/-- Where the tabs and windows stay as they are. -/
theorem Gone.of_eq {s s' : Wm} (htabs : s'.tabs = s.tabs) (hwins : s'.windows = s.windows) (h : Gone e s) :
    Gone e s' :=
  h.mono (fun _ tab ht => ⟨tab, htabs ▸ ht, id⟩) fun _ win hw => ⟨win, hwins ▸ hw, id⟩

theorem keeps_update {f : Wm → Wm} (hgone : ∀ s, Gone e s → Gone e (f s))
    (hcount : ∀ s, (f s).trace.count e = s.trace.count e) : Keeps (Silent e k) (update f) :=
  fun d h => ⟨hgone d.toWm h.gone, (hcount d.toWm).trans h.count⟩

theorem keeps_defined {α : Type} (o : Option α) : Keeps (Silent e k) (defined o) := by
  cases o with
  | none => exact .throw _
  | some a => exact .pure a

theorem keeps_tab (t : Nat) : Keeps (Silent e k) (Dom.tab t) := .read fun d h => keeps_defined d.tabs[t]? d h

theorem keeps_window (w : Nat) : Keeps (Silent e k) (window w) := .read fun d h => keeps_defined d.windows[w]? d h

theorem keeps_refresh (t : Nat) : Keeps (Silent e k) (Terminal.refresh t) :=
  .read fun d h => by
    split
    · exact h
    · exact h

theorem keeps_showCursor (t : Nat) : Keeps (Silent e k) (Terminal.showCursor t) :=
  .read fun d h => by
    split
    · exact h
    · exact Keeps.bind (m := Terminal.setCursor t true) (fun d h => ⟨h.gone, h.count⟩) (fun _ => keeps_refresh t) d h

theorem keeps_focus_update (t : Nat) : Keeps (Silent e k) (update (Wm.Tab._focus t)) :=
  keeps_update (fun s h => h.of_eq (Wm.Tab._focus_tabs t s) (Wm.Tab._focus_windows t s)) fun _ => rfl

theorem keeps_switch (t w : Nat) (win : Wm.Window) :
    Keeps (Silent e k) (update fun s => if win.focused = some t then s else Wm.Tab.switch t w win s) := by
  refine keeps_update (fun s h => ?_) fun s => ?_
  · split
    · exact h
    · refine h.mono (fun u tab hu => ?_) fun v win' hv => ?_
      · refine ⟨_, by rw [Wm.Tab.switch_tabs, hu]; rfl, fun hd => ?_⟩
        exact hd
      · refine ⟨_, by rw [Wm.Tab.switch_windows, hv]; rfl, fun hd => ?_⟩
        split <;> exact hd
  · split
    · rfl
    · rw [Wm.Tab.switch_trace]

theorem keeps_remove (t : Nat) (tab : Wm.Tab) : Keeps (Silent e k) (update (Wm.Tab.remove t tab)) := by
  refine keeps_update (fun s h => h.mono (fun u tab' hu => ?_) fun v win hv => ?_) fun s => rfl
  · refine ⟨_, by rw [Wm.Tab.remove_tabs, hu]; rfl, fun hd => ?_⟩
    split
    · rfl
    · exact hd
  · refine ⟨_, by rw [Wm.Tab.remove_windows, hv]; rfl, fun hd => ?_⟩
    split <;> exact hd

theorem keeps_focus_self (t : Nat) : Keeps (Silent e k) (Tab._focus t) :=
  .read fun d h => by
    dsimp only
    split
    · exact h
    · cases d.focus with
      | none => exact (Keeps.bind (keeps_focus_update t) fun _ => keeps_showCursor t) d h
      | some u =>
        refine (Keeps.bind (m := Terminal.blur u) ?_ fun _ => .bind (keeps_focus_update t) fun _ =>
          keeps_showCursor t) d h
        exact .bind (fun d h => ⟨h.gone, h.count⟩) fun _ => keeps_refresh u

theorem keeps_focus : ∀ n, (∀ t, Keeps (Silent e k) (Tab.focus n t)) ∧ ∀ w, Keeps (Silent e k) (Window.focus n w)
  | 0 => ⟨fun _ => .throw _, fun _ => .throw _⟩
  | n + 1 => by
    obtain ⟨ihtab, ihwin⟩ := keeps_focus n
    refine ⟨fun t => ?_, fun w => ?_⟩
    · rw [Tab.focus]
      refine .read fun d h => ?_
      split
      · exact h
      · exact (Keeps.bind (keeps_tab t) fun tab => .bind (keeps_window _) fun win =>
          .bind (keeps_switch t _ win) fun _ => .bind (keeps_focus_self t) fun _ => ihwin tab.window) d h
    · rw [Window.focus]
      exact .bind (keeps_window w) fun win => .bind (keeps_defined _) fun t => ihtab t

theorem keeps_focusTab (n : Nat) (next : Bool) (w : Nat) : Keeps (Silent e k) (Window.focusTab n next w) :=
  .bind (keeps_window w) fun win => by
    cases win.target next with
    | none => exact .pure _
    | some t => exact (keeps_focus n).1 t

theorem keeps_focusFirst (n : Nat) : Keeps (Silent e k) (focusFirst n) :=
  .read fun d h => by
    cases d.opened with
    | nil => exact h
    | cons v l => exact (keeps_focus n).2 v d h

theorem keeps_eachFrom {func : Nat → Run Unit} (hf : ∀ t, Keeps (Silent e k) (func t)) (w : Nat) :
    ∀ i, Keeps (Silent e k) (Window.eachFrom func w i)
  | 0 => .pure _
  | i + 1 => .bind (keeps_window w) fun _ => .bind (keeps_defined _) fun t => .bind (hf t) fun _ =>
    keeps_eachFrom hf w i

theorem keeps_each {func : Nat → Run Unit} (hf : ∀ t, Keeps (Silent e k) (func t)) (w : Nat) :
    Keeps (Silent e k) (Window.each func w) :=
  .bind (keeps_window w) fun _ => keeps_eachFrom hf w _

theorem keeps_minimize (w : Nat) : Keeps (Silent e k) (Window.minimize w) :=
  .read fun d h => by
    split
    · refine (Keeps.bind (fun d h => ⟨h.gone, h.count⟩) fun _ => keeps_each (fun t => ?_) w) d h
      refine .read fun d h => ?_
      split
      · exact ⟨h.gone, h.count⟩
      · exact h
    · exact h

theorem keeps_detach (w : Nat) : Keeps (Silent e k) (Window.detach w) :=
  .read fun d h => by
    dsimp only
    split
    · exact ⟨h.gone, h.count⟩
    · exact h

theorem keeps_emit {e' : Event} (he : e' ≠ e) : Keeps (Silent e k) (update (Wm.emit e')) :=
  keeps_update (fun s h => h.of_eq (show (s.emit e').tabs = s.tabs from rfl) rfl) fun s => by
    show (s.trace ++ [e']).count e = _
    rw [List.count_append, List.count_singleton]
    simp [he]

theorem keeps_tab_then {t : Nat} {g : Wm.Tab → Run Unit} {d : Dom} (h : Silent e k d)
    (hg : ∀ tab, d.tabs[t]? = some tab → Silent e k (left ((g tab).run d))) :
    Silent e k (left ((Dom.tab t >>= g).run d)) := by
  rw [Dom.tab, bind_assoc, read_run]
  cases ht : d.tabs[t]? with
  | none => exact h
  | some tab => exact hg tab ht

theorem keeps_flag (w : Nat) :
    Keeps (Silent e k) (update (Wm.modifyWindow w fun win => { win with destroyed := true })) := by
  refine keeps_update (fun s h => ?_) fun s => rfl
  refine Gone.mono (s := s) (fun u tab hu => ⟨tab, hu, id⟩) (fun v win hv => ?_) h
  refine ⟨_, by rw [Wm.modifyWindow_windows, hv]; rfl, fun hd => ?_⟩
  split
  · rfl
  · exact hd

/-- What `Window.destroy` does once the flag is set. -/
def closing (n w : Nat) : Run Unit := do
  Window.minimize w
  update fun s => { s with opened := Wm.splice s.opened w }
  focusFirst n
  Window.detach w
  Window.each (Tab.destroy n) w

theorem keeps_closing (n w : Nat) (htab : ∀ t, Keeps (Silent e k) (Tab.destroy n t)) :
    Keeps (Silent e k) (closing n w) :=
  .bind (keeps_minimize w) fun _ => .bind (keeps_update (fun s h => Gone.of_eq (s := s) rfl rfl h) fun _ => rfl) fun _ =>
    .bind (keeps_focusFirst n) fun _ => .bind (keeps_detach w) fun _ => keeps_each htab w

theorem destroy_eq_closing {n w : Nat} {win : Wm.Window} {d : Dom} (hw : d.windows[w]? = some win)
    (hd : win.destroyed = false) : (Window.destroy (n + 1) w).run d = (do
      update (Wm.modifyWindow w fun win => { win with destroyed := true })
      closing n w
      update (Wm.emit (.closeWindow w)) : Run Unit).run d := by
  rw [Window.destroy, EStateM.run_bind, window_run hw]
  simp only [hd, if_neg Bool.false_ne_true, closing, bind_assoc]

/-- A tab or window that is destroyed is not what a call is on that goes on. -/
theorem keeps_destroy : ∀ n, (∀ t, Keeps (Silent e k) (Tab._destroy n t)) ∧
    (∀ t, Keeps (Silent e k) (Tab.destroy n t)) ∧ ∀ w, Keeps (Silent e k) (Window.destroy n w)
  | 0 => ⟨fun _ => .throw _, fun _ => .throw _, fun _ => .throw _⟩
  | n + 1 => by
    obtain ⟨ihself, ihtab, ihwin⟩ := keeps_destroy n
    have hclose : ∀ w, Keeps (Silent e k) (closeIfEmpty n w) :=
      fun w => .bind (keeps_window w) fun win => .ite (ihwin w) (.pure _)
    refine ⟨fun t => ?_, fun t => ?_, fun w => ?_⟩
    · rw [Tab._destroy]
      refine .bind (keeps_tab t) fun tab => .ite (.pure _) (.bind (keeps_remove t tab) fun _ =>
        .bind (keeps_window _) fun win => ?_)
      dsimp only
      exact .ite (.bind (keeps_focusTab n false _) fun _ => hclose _) (hclose _)
    · rw [Tab.destroy]
      intro d h
      refine keeps_tab_then h fun tab ht => ?_
      split
      · exact h
      · rename_i hd
        have hkill : Event.kill t ≠ e := by
          rintro rfl
          obtain ⟨tab', ht', hd'⟩ := h.gone
          rw [ht, Option.some_inj] at ht'
          exact hd (ht' ▸ hd')
        have hclosed : Event.closeTab t ≠ e := by
          rintro rfl
          obtain ⟨tab', ht', hd'⟩ := h.gone
          rw [ht, Option.some_inj] at ht'
          exact hd (ht' ▸ hd')
        exact (Keeps.bind (keeps_emit hkill) fun _ => .bind (ihself t) fun _ => keeps_emit hclosed) d h
    · intro d h
      cases hw : d.windows[w]? with
      | none =>
        rw [Window.destroy, window, bind_assoc, read_run, hw]
        exact h
      | some win =>
        cases hd : win.destroyed with
        | true =>
          have hrun : (Window.destroy (n + 1) w).run d = .ok () d := by
            rw [Window.destroy, window_then]
            exact ⟨win, hw, by rw [if_pos hd]; rfl⟩
          rw [hrun]
          exact h
        | false =>
          rw [destroy_eq_closing hw hd]
          have hclosed : Event.closeWindow w ≠ e := by
            rintro rfl
            obtain ⟨win', hw', hd'⟩ := h.gone
            rw [hw, Option.some_inj] at hw'
            rw [← hw', hd] at hd'
            cases hd'
          exact (Keeps.bind (keeps_flag w) fun _ => .bind (keeps_closing n w ihtab) fun _ => keeps_emit hclosed) d h

end Keeps

/-! ## A call that throws -/

/-- What a call announces when it is done. -/
def announced : Call → Event
  | .tab t => .closeTab t
  | .window w => .closeWindow w

/-- The tab or window that the call is on is live. -/
def Live (s : Wm) : Call → Prop
  | .tab t => ∃ tab, s.tabs[t]? = some tab ∧ tab.destroyed = false
  | .window w => ∃ win, s.windows[w]? = some win ∧ win.destroyed = false

theorem error_before {m : Run Unit} {f : Wm → Wm} {x : Thrown} {d u : Dom}
    (h : (m >>= fun _ => update f).run d = .error x u) : m.run d = .error x u := by
  rw [EStateM.run_bind] at h
  cases hm : m.run d with
  | ok a d₁ =>
    rw [hm] at h
    cases h
  | error y v =>
    rw [hm] at h
    exact h

theorem emit_count {e e' : Event} (s : Wm) (he : e' ≠ e) : (s.emit e').trace.count e = s.trace.count e := by
  show (s.trace ++ [e']).count e = _
  rw [List.count_append, List.count_singleton]
  simp [he]

theorem destroy_run {t : Nat} {tab : Wm.Tab} {d : Dom} (ht : d.tabs[t]? = some tab) (hd : tab.destroyed = false)
    (n : Nat) : (Tab.destroy (n + 1) t).run d = (do
      update (Wm.emit (.kill t))
      Tab._destroy n t
      update (Wm.emit (.closeTab t)) : Run Unit).run d := by
  rw [Tab.destroy, EStateM.run_bind, tab_run ht]
  simp only [hd, if_neg Bool.false_ne_true]

theorem raised_count {c : Call} {d u : Dom} {x : Thrown} (hlive : Live d.toWm c) (h : (perform c).run d = .error x u) :
    u.trace.count (announced c) = d.trace.count (announced c) := by
  cases c with
  | tab t =>
    obtain ⟨tab, ht, hd⟩ := hlive
    replace h : (Tab.destroy 8 t).run d = .error x u := h
    rw [destroy_run ht hd] at h
    have hself : (Tab._destroy 7 t).run (d.place (d.toWm.emit (.kill t))) = .error x u := error_before h
    rw [_destroy_run (d := d.place (d.toWm.emit (.kill t))) ht hd, bind_assoc, EStateM.run_bind, update_run] at hself
    have hgone : Gone (.closeTab t) (Wm.Tab.remove t tab (d.toWm.emit (.kill t))) := by
      refine ⟨{ tab with destroyed := true, parent := none }, ?_, rfl⟩
      rw [Wm.Tab.remove_tabs, show (d.toWm.emit (.kill t)).tabs[t]? = some tab from ht, Option.map_some, if_pos rfl]
    have hrest : Keeps (Silent (.closeTab t) (d.trace.count (.closeTab t))) ((do
        let win ← window tab.window
        if win.focused = some t then Window.focusTab 6 false tab.window : Run Unit) >>= fun _ =>
          closeIfEmpty 6 tab.window) :=
      .bind (.bind (keeps_window _) fun win => .ite (keeps_focusTab 6 false _) (.pure _)) fun _ =>
        .bind (keeps_window _) fun win => .ite ((keeps_destroy 6).2.2 _) (.pure _)
    have hleft := hrest (d.place (Wm.Tab.remove t tab (d.toWm.emit (.kill t))))
      ⟨hgone, emit_count d.toWm (show Event.kill t ≠ .closeTab t by simp)⟩
    have hrun : EStateM.run _ (d.place (Wm.Tab.remove t tab (d.toWm.emit (.kill t)))) = .error x u := hself
    rw [hrun] at hleft
    exact hleft.count
  | window w =>
    obtain ⟨win, hw, hd⟩ := hlive
    replace h : (Window.destroy 8 w).run d = .error x u := h
    rw [destroy_eq_closing hw hd] at h
    have hclosing : (closing 7 w).run (d.place (d.toWm.modifyWindow w fun win => { win with destroyed := true })) =
        .error x u := error_before h
    have hsilent : Silent (.closeWindow w) (d.trace.count (.closeWindow w))
        (d.place (d.toWm.modifyWindow w fun win => { win with destroyed := true })) := by
      refine ⟨⟨{ win with destroyed := true }, ?_, rfl⟩, rfl⟩
      rw [place_toWm, Wm.modifyWindow_windows, hw, Option.map_some, if_pos rfl]
    have hleft := keeps_closing 7 w (keeps_destroy 7).2.1 _ hsilent
    rw [hclosing] at hleft
    exact hleft.count

/-! ## Sequences of calls -/

def step (d : Dom) (c : Call) : Option Dom := some (left ((perform c).run d))

/-- The page after the calls, whether they returned or threw. -/
def after (d : Dom) (cs : List Call) : Dom := cs.foldl (fun d c => left ((perform c).run d)) d

theorem exec_step (d : Dom) : ∀ cs : List Call, Machine.exec step d cs = some (after d cs)
  | [] => rfl
  | c :: cs => exec_step (left ((perform c).run d)) cs

/-- Calls that are spared do what `Wm` says. -/
theorem exec_follows : ∀ {cs : List Call} {d : Dom}, Populated d.toWm → (∀ c ∈ cs, c.Made d.toWm) →
    Machine.Meets step Spared d cs → Machine.exec Call.perform d.toWm cs = some (after d cs).toWm
  | [], d, _, _, _ => rfl
  | c :: cs, d, hp, hm, hs => by
    obtain ⟨hc, hs⟩ := hs _ rfl
    obtain ⟨d', hneeds⟩ := perform_needs hp (hm c (List.mem_cons_self ..))
    have hrun := hneeds.returns hc
    have hcall : Call.perform d.toWm c = some d'.toWm := perform_follows c d d' hrun
    obtain ⟨s', D, W, new, hcall', hcascade, htally⟩ := Call.perform_eq hp (hm c (List.mem_cons_self ..))
    rw [hcall, Option.some_inj] at hcall'
    subst hcall'
    rw [hrun] at hs
    have hrest := exec_follows (hp.cascade hcascade htally)
      (fun c' hc' => (hm c' (List.mem_cons_of_mem c hc')).cascade hcascade) hs
    refine Machine.exec_cons.2 ⟨d'.toWm, hcall, ?_⟩
    have hafter : after d (c :: cs) = after d' cs := by
      show after (left ((perform c).run d)) cs = _
      rw [hrun]
      rfl
    rw [hafter]
    exact hrest

theorem after_append (d : Dom) (cs : List Call) (c : Call) :
    after d (cs ++ [c]) = left ((perform c).run (after d cs)) := List.foldl_append ..

/-- What is live after calls that did all they should was live before, and no call was on it. -/
theorem not_announced {s s' : Wm} {cs : List Call} (h : DestroyedOnce s cs s') {c : Call} (hlive : Live s' c)
    (hm : c.Made s) : s'.trace.count (announced c) = s.trace.count (announced c) ∧ Live s c := by
  obtain ⟨new, htrace, htab, hwindow⟩ := h.announced
  rw [htrace, List.count_append]
  cases c with
  | tab t =>
    obtain ⟨tab', ht', hd'⟩ := hlive
    obtain ⟨tab, ht⟩ : ∃ tab, s.tabs[t]? = some tab := ⟨_, List.getElem?_eq_getElem hm⟩
    obtain ⟨tab'', ht'', -, -, hiff⟩ := h.tab t tab ht
    rw [ht', Option.some_inj] at ht''
    subst ht''
    rw [hd', Bool.false_eq_true, false_iff, not_or] at hiff
    refine ⟨?_, tab, ht, by simpa using hiff.1⟩
    rw [show announced (.tab t) = .closeTab t from rfl, ((htab t).2 hiff.2).2, Nat.add_zero]
  | window w =>
    obtain ⟨win', hw', hd'⟩ := hlive
    obtain ⟨win, hw⟩ : ∃ win, s.windows[w]? = some win := ⟨_, List.getElem?_eq_getElem hm⟩
    obtain ⟨win'', hw'', hiff, -⟩ := h.window w win hw
    rw [hw', Option.some_inj] at hw''
    subst hw''
    rw [hd', Bool.false_eq_true, false_iff, not_or] at hiff
    refine ⟨?_, win, hw, by simpa using hiff.1⟩
    rw [show announced (.window w) = .closeWindow w from rfl, (hwindow w).2 hiff.2, Nat.add_zero]

/-- What was live and got a call is announced. -/
theorem is_announced {s s' : Wm} {cs : List Call} (h : DestroyedOnce s cs s') {c : Call} (hlive : Live s c)
    (hc : c ∈ cs) : s'.trace.count (announced c) = s.trace.count (announced c) + 1 := by
  obtain ⟨new, htrace, htab, hwindow⟩ := h.announced
  rw [htrace, List.count_append]
  cases c with
  | tab t =>
    obtain ⟨tab, ht, hd⟩ := hlive
    exact congrArg _ ((htab t).1 ⟨tab, ht, hd, .inl hc⟩).2
  | window w =>
    obtain ⟨win, hw, hd⟩ := hlive
    exact congrArg _ ((hwindow w).1 ⟨win, hw, hd, .inl hc⟩)

theorem spared_of_dead {d : Dom} {c : Call} (h : ¬ Live d.toWm c) : Spared d c := by
  cases c with
  | tab t =>
    intro tab ht hd
    exact absurd ⟨tab, ht, hd⟩ h
  | window w =>
    intro win hw hd
    exact absurd ⟨win, hw, hd⟩ h

theorem meets_of_complete {d : Dom} (hp : Populated d.toWm) (cs : List Call) : (∀ c ∈ cs, c.Made d.toWm) →
    (∀ as, as <+: cs → Wm.Complete d.toWm as (after d as).toWm) → Machine.Meets step Spared d cs := by
  induction cs using List.reverseRecOn with
  | nil => exact fun _ _ => trivial
  | append_singleton cs c ih =>
    intro hm h
    have hmc := hm c (by simp)
    have hs := ih (fun c' hc' => hm c' (List.mem_append_left _ hc')) fun as has =>
      h as (has.trans (List.prefix_append ..))
    refine hs.append fun d₁ hd₁ => .singleton ?_
    rw [exec_step, Option.some_inj] at hd₁
    subst hd₁
    obtain ⟨s₁, hexec, -, hp₁, hmade⟩ := Wm.exec_complete hp fun c' hc' => hm c' (List.mem_append_left _ hc')
    rw [exec_follows hp (fun c' hc' => hm c' (List.mem_append_left _ hc')) hs, Option.some_inj] at hexec
    subst hexec
    by_contra hnot
    have hlive : Live (after d cs).toWm c := by
      by_contra hdead
      exact hnot (spared_of_dead hdead)
    -- the call throws, so what it is on is never announced
    obtain ⟨d', hneeds⟩ := perform_needs hp₁ (hmade c hmc)
    obtain ⟨x, u, hraise⟩ := hneeds.raises hnot
    have hu : after d (cs ++ [c]) = u := by
      rw [after_append, hraise]
      rfl
    obtain ⟨hbefore, hlive₀⟩ := not_announced (h cs (List.prefix_append ..)).once hlive hmc
    have hafter := is_announced (h _ (List.prefix_refl _)).once hlive₀ (by simp)
    rw [hu, raised_count hlive hraise, hbefore] at hafter
    omega

/-- However the page was made, and in whichever order tabs and windows are destroyed: at each point of the sequence
all of that was done, once, exactly where nothing threw in any of the calls. -/
theorem destroyed_once_iff {d : Dom} {cs : List Call} (hp : Populated d.toWm) (hm : ∀ c ∈ cs, c.Made d.toWm) :
    (∀ as, as <+: cs → Wm.Complete d.toWm as (after d as).toWm) ↔ Machine.Meets step Spared d cs := by
  refine ⟨meets_of_complete hp cs hm, ?_⟩
  rintro hs as ⟨bs, rfl⟩
  have hm' : ∀ c ∈ as, c.Made d.toWm := fun c hc => hm c (List.mem_append_left _ hc)
  obtain ⟨s', hexec, hcomplete, -⟩ := Wm.exec_complete hp hm'
  rw [exec_follows hp hm' hs.of_append, Option.some_inj] at hexec
  exact hexec ▸ hcomplete

/-! ## Two windows -/

/-- Two windows made of these elements, the first with two tabs. -/
def twoWindows (element : Nat → Nat) : Dom where
  tabs := [{ Wm.Tab.fresh 0 with id := some 5, parent := some (.window 0) },
    { Wm.Tab.fresh 0 with id := some 6, parent := none },
    { Wm.Tab.fresh 1 with id := some 7, parent := some (.window 1) }]
  windows := [⟨[0, 1], some 0, false⟩, ⟨[2], some 2, false⟩]
  opened := [0, 1]
  focus := some 2
  terms := OrdHash.set "7" 2 (OrdHash.set "6" 1 (OrdHash.set "5" 0 ∅))
  trace := []
  element
  attached _ := true
  maximized _ := false
  cursorState t := t == 2
  drawable _ := true
  resizable _ := true

theorem twoWindows_populated (element : Nat → Nat) : Populated (twoWindows element).toWm := by
  have hw : ∀ (w : Nat) (win : Wm.Window), (twoWindows element).windows[w]? = some win →
      (w = 0 ∧ win = ⟨[0, 1], some 0, false⟩) ∨ (w = 1 ∧ win = ⟨[2], some 2, false⟩) := by
    rintro (_ | _ | w) win h <;> simp [twoWindows] at h <;> simp [h]
  have hl : Listed (twoWindows element).toWm := by
    refine ⟨by simp [twoWindows], ?_, fun w win h => ?_, fun w win h => ?_, ?_, fun w win f h hf => ?_⟩
    · rintro (_ | _ | w) <;> simp [twoWindows]
    · rcases hw w win h with ⟨rfl, rfl⟩ | ⟨rfl, rfl⟩ <;> simp
    · rcases hw w win h with ⟨rfl, rfl⟩ | ⟨rfl, rfl⟩ <;> rintro (_ | _ | _ | t) <;>
        simp [twoWindows, Wm.Tab.fresh, Tangle.Tab.connecting, Tangle.Tab.setProcessName]
    · rintro (_ | _ | _ | t) x h <;> simp [twoWindows] at h <;> subst h <;> simp [twoWindows, Wm.Tab.fresh]
    · rcases hw w win h with ⟨rfl, rfl⟩ | ⟨rfl, rfl⟩ <;> cases hf <;> simp [twoWindows, Wm.Tab.fresh]
  refine ⟨hl, fun w h => ?_, fun w win h => ?_⟩
  · obtain rfl | rfl : w = 0 ∨ w = 1 := by simpa [twoWindows] using h
    · exact ⟨_, 0, rfl, rfl⟩
    · exact ⟨_, 2, rfl, rfl⟩
  · rcases hw w win h with ⟨rfl, rfl⟩ | ⟨rfl, rfl⟩ <;> simp [twoWindows]

/-- On elements of their own: a tab, then its window, and both kinds again. -/
theorem destroyed_once_own : Machine.Meets step Spared (twoWindows id) [.tab 0, .window 0, .tab 1, .window 0] ∧
    Wm.Complete (twoWindows id).toWm [.tab 0, .window 0, .tab 1, .window 0]
      (after (twoWindows id) [.tab 0, .window 0, .tab 1, .window 0]).toWm := by
  have hguard : Machine.Guarded step Spared (twoWindows id) [.tab 0, .window 0, .tab 1, .window 0] := by decide +kernel
  have hiff := destroyed_once_iff (twoWindows_populated id)
    (show ∀ c ∈ [Call.tab 0, .window 0, .tab 1, .window 0], c.Made (twoWindows id).toWm by simp [Call.Made, twoWindows])
  exact ⟨hguard.meets, hiff.2 hguard.meets _ (List.prefix_refl _)⟩

/-- On one element for both: that of the second window is gone when it is destroyed, which throws. The window has
left `tty.windows`, but its tab is live and in `tty.terms`, nothing announces that one of the two is closed, and
another call changes nothing. -/
theorem shared_element_stays : Populated (twoWindows fun _ => 0).toWm ∧
    ∃ d, d = after (twoWindows fun _ => 0) [.window 0, .window 1] ∧ d.opened = [] ∧
      d.tabs[2]?.map (fun tab => tab.destroyed) = some false ∧ d.terms.lookup "7" = some 2 ∧
      Event.kill 2 ∉ d.trace ∧ Event.closeTab 2 ∉ d.trace ∧ Event.closeWindow 1 ∉ d.trace ∧
      after d [.window 1] = d ∧ ¬ Wm.Complete (twoWindows fun _ => 0).toWm [.window 0, .window 1] d.toWm := by
  refine ⟨twoWindows_populated _, _, rfl, by decide +kernel, by decide +kernel, by decide +kernel, by decide +kernel,
    by decide +kernel, by decide +kernel, ?_, fun h => ?_⟩
  · have hflag : (after (twoWindows fun _ => 0) [.window 0, .window 1]).windows[1]?.map (fun win => win.destroyed) =
        some true := by decide +kernel
    obtain ⟨win, hw, hd⟩ := Option.map_eq_some_iff.1 hflag
    have hrun : (Window.destroy 8 1).run (after (twoWindows fun _ => 0) [.window 0, .window 1]) =
        .ok () (after (twoWindows fun _ => 0) [.window 0, .window 1]) := by
      rw [Window.destroy, window_then]
      exact ⟨win, hw, by rw [if_pos hd]; rfl⟩
    exact congrArg left hrun
  · have hlive : (after (twoWindows fun _ => 0) [.window 0, .window 1]).tabs[2]?.map (fun tab => tab.destroyed) =
        some false := by decide +kernel
    obtain ⟨tab, ht, -, -, hiff⟩ := h.once.tab 2 _ rfl
    rw [ht, Option.map_some, Option.some_inj] at hlive
    have hdead := hiff.2 (.inr ⟨_, rfl, rfl, .inr (by simp [Wm.Tab.fresh])⟩)
    rw [hlive] at hdead
    cases hdead

end Tangle.Dom
