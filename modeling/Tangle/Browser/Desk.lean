/-
The public operations of the window manager, in any order. The windows and their tabs stay as they
should be. The keyboard follows, but for one operation: a window that is destroyed while another is open
hands the focus over before it destroys its tabs, and the tabs take it back one after the other.
-/
import Tangle.Browser.Reached

namespace Tangle.Wm

/-! ## Creation -/

theorem getElem?_concat {α : Type*} {l : List α} {a x : α} {i : Nat} :
    (l ++ [a])[i]? = some x ↔ l[i]? = some x ∨ i = l.length ∧ x = a := by
  rw [List.getElem?_append]
  split
  · constructor
    · exact .inl
    · rintro (h | ⟨rfl, -⟩)
      · exact h
      · omega
  · rename_i hi
    rw [List.getElem?_eq_none (Nat.le_of_not_lt hi), List.getElem?_singleton]
    constructor
    · intro h
      split at h
      · cases h
        exact .inr ⟨by omega, rfl⟩
      · cases h
    · rintro (h | ⟨rfl, rfl⟩)
      · cases h
      · simp

theorem Tab.new_tabs {w : Nat} {s : Wm} {u : Nat} {x : Tab} :
    (Tab.new w s).tabs[u]? = some x ↔ s.tabs[u]? = some x ∨ u = s.tabs.length ∧ x = Tab.fresh w :=
  getElem?_concat

theorem Window.new_windows {s : Wm} {v : Nat} {win : Window} :
    (Window.new s).windows[v]? = some win ↔
      s.windows[v]? = some win ∨ v = s.windows.length ∧ win = ⟨[], none, false⟩ :=
  getElem?_concat

theorem Window.push_windows (w t : Nat) (s : Wm) (v : Nat) : (Window.push w t s).windows[v]? =
    s.windows[v]?.map fun win => if v = w then { win with tabs := win.tabs ++ [t] } else win :=
  modifyWindow_windows ..

/-- `Tab.focus` does not look at the lists, so it may as well come after the tab is in its. -/
theorem Window.push_focusOn (t u : Nat) (tab : Tab) (win : Window) (s : Wm) :
    Window.push tab.window u (Tab.focusOn t tab win s) =
      Tab.focusOn t tab { win with tabs := win.tabs ++ [u] } (Window.push tab.window u s) := by
  have hswitch : Window.push tab.window u (Tab.switch t tab.window win s) =
      Tab.switch t tab.window { win with tabs := win.tabs ++ [u] } (Window.push tab.window u s) := by
    unfold Tab.switch Window.push modifyWindow modifyTab
    cases win.focused <;> simp only [List.modify_modify_eq] <;> rfl
  have hfocus : (Window.push tab.window u s).focus = s.focus := rfl
  unfold Tab.focusOn Tab.take
  rw [hfocus]
  split
  · rfl
  · dsimp only
    split
    · rfl
    · exact congrArg (Tab._focus t) hswitch

/-- The window `v` before and after a new tab came into window `w`. -/
theorem push_new_of {s : Wm} {v w : Nat} {win' : Window}
    (hv : (Window.push w s.tabs.length (Tab.new w s)).windows[v]? = some win') :
    ∃ win, s.windows[v]? = some win ∧ win'.focused = win.focused ∧ win'.destroyed = win.destroyed ∧
      win'.tabs = if v = w then win.tabs ++ [s.tabs.length] else win.tabs := by
  rw [Window.push_windows] at hv
  obtain ⟨win, hw, rfl⟩ := Option.map_eq_some_iff.1 hv
  exact ⟨win, hw, by split <;> rfl, by split <;> rfl, by split <;> rfl⟩

theorem push_new {s : Wm} {v : Nat} {win : Window} (w : Nat) (hv : s.windows[v]? = some win) :
    (Window.push w s.tabs.length (Tab.new w s)).windows[v]? =
      some (if v = w then { win with tabs := win.tabs ++ [s.tabs.length] } else win) := by
  rw [Window.push_windows]
  show s.windows[v]?.map _ = _
  rw [hv, Option.map_some]

theorem Listed.lt_of_mem {s : Wm} (h : Listed s) {w t : Nat} {win : Window} (hw : s.windows[w]? = some win)
    (ht : t ∈ win.tabs) : t < s.tabs.length := by
  obtain ⟨tab, htab, -⟩ := (h.tabs w win hw t).1 ht
  exact (List.getElem?_eq_some_iff.1 htab).1

theorem Listed.newTab {s : Wm} (h : Listed s) {w : Nat} {win₀ : Window} (hw₀ : s.windows[w]? = some win₀) :
    Listed (Window.push w s.tabs.length (Tab.new w s)) where
  opened := h.opened
  flag v := by
    show v ∈ s.opened ↔ _
    rw [h.flag]
    constructor
    · rintro ⟨win, hv, hd⟩
      exact ⟨_, push_new w hv, by split <;> exact hd⟩
    · rintro ⟨win', hv', hd'⟩
      obtain ⟨win, hv, -, hd, -⟩ := push_new_of hv'
      exact ⟨win, hv, hd ▸ hd'⟩
  nodup v win' hv' := by
    obtain ⟨win, hv, -, -, ht⟩ := push_new_of hv'
    have hnot : s.tabs.length ∉ win.tabs := fun hm => Nat.lt_irrefl _ (h.lt_of_mem hv hm)
    rw [ht]
    split
    · simpa using (h.nodup v win hv).concat hnot
    · exact h.nodup v win hv
  tabs v win' hv' t := by
    obtain ⟨win, hv, -, -, ht⟩ := push_new_of hv'
    have hmem : t ∈ win'.tabs ↔ t ∈ win.tabs ∨ v = w ∧ t = s.tabs.length := by
      rw [ht]
      split
      · rename_i hvw; simp [hvw]
      · rename_i hvw; simp [hvw]
    rw [hmem, h.tabs v win hv]
    show _ ↔ ∃ tab, (Tab.new w s).tabs[t]? = some tab ∧ _
    simp only [Tab.new_tabs]
    constructor
    · rintro (⟨tab, htab, hown, hd⟩ | ⟨rfl, rfl⟩)
      · exact ⟨tab, .inl htab, hown, hd⟩
      · exact ⟨_, .inr ⟨rfl, rfl⟩, rfl, rfl⟩
    · rintro ⟨tab, htab | ⟨rfl, rfl⟩, hown, hd⟩
      · exact .inl ⟨tab, htab, hown, hd⟩
      · exact .inr ⟨hown.symm, rfl⟩
  window t tab ht := by
    rcases Tab.new_tabs.1 ht with ht | ⟨-, rfl⟩
    · obtain ⟨win, hv⟩ := h.window t tab ht
      exact ⟨_, push_new w hv⟩
    · exact ⟨_, push_new w hw₀⟩
  focused v win' f hv' hf' := by
    obtain ⟨win, hv, hf, -⟩ := push_new_of hv'
    obtain ⟨tab, ht, hown⟩ := h.focused v win f hv (hf ▸ hf')
    exact ⟨tab, Tab.new_tabs.2 (.inl ht), hown⟩

theorem Shown.newTab {s : Wm} (hl : Listed s) (h : Shown s) (w : Nat) :
    Shown (Window.push w s.tabs.length (Tab.new w s)) where
  attached v win' hv' t hmem tab ht := by
    obtain ⟨win, hv, hf, -, htabs⟩ := push_new_of hv'
    rw [hf]
    have hfocused : ∀ f, win.focused = some f → f < s.tabs.length := by
      intro f hf
      obtain ⟨x, hx, -⟩ := hl.focused v win f hv hf
      exact (List.getElem?_eq_some_iff.1 hx).1
    rcases Tab.new_tabs.1 ht with ht | ⟨rfl, rfl⟩
    · have hlt := (List.getElem?_eq_some_iff.1 ht).1
      refine h.attached v win hv t ?_ tab ht
      rw [htabs] at hmem
      split at hmem
      · rcases List.mem_append.1 hmem with hm | hm
        · exact hm
        · have := List.mem_singleton.1 hm
          omega
      · exact hmem
    · -- a new tab is attached to the page, and no window has it focused
      constructor
      · intro hp
        cases hp
      · intro hf
        exact absurd (hfocused _ hf) (Nat.lt_irrefl _)
  focus t tab win' hf ht hd hv' := by
    obtain ⟨win, hv, hf', -⟩ := push_new_of hv'
    have hlt := h.bound t hf
    rcases Tab.new_tabs.1 ht with ht | ⟨rfl, -⟩
    · rw [hf']
      exact h.focus t tab win hf ht hd hv
    · exact absurd hlt (Nat.lt_irrefl _)
  bound t hf := by
    have := h.bound t hf
    show t < (s.tabs ++ [Tab.fresh w]).length
    rw [List.length_append]
    omega

theorem Settled.newTab {s : Wm} {v : Nat} (h : Settled s v) (w : Nat) :
    Settled (Window.push w s.tabs.length (Tab.new w s)) v := by
  obtain ⟨win, f, hv, hf, hmem⟩ := h
  refine ⟨_, f, push_new w hv, ?_, ?_⟩
  · split <;> exact hf
  · split
    · exact List.mem_append_left _ hmem
    · exact hmem

theorem Listed.newWindow {s : Wm} (h : Listed s) : Listed (Window.new s) where
  opened := by
    have hnot : s.windows.length ∉ s.opened := by
      intro hm
      obtain ⟨win, hw, -⟩ := (h.flag _).1 hm
      exact Nat.lt_irrefl _ (List.getElem?_eq_some_iff.1 hw).1
    simpa [Window.new] using h.opened.concat hnot
  flag w := by
    show w ∈ s.opened ++ [s.windows.length] ↔ _
    rw [List.mem_append, List.mem_singleton, h.flag]
    simp only [Window.new_windows]
    constructor
    · rintro (⟨win, hw, hd⟩ | rfl)
      · exact ⟨win, .inl hw, hd⟩
      · exact ⟨_, .inr ⟨rfl, rfl⟩, rfl⟩
    · rintro ⟨win, hw | ⟨rfl, -⟩, hd⟩
      · exact .inl ⟨win, hw, hd⟩
      · exact .inr rfl
  nodup w win hw := by
    rcases Window.new_windows.1 hw with hw | ⟨-, rfl⟩
    · exact h.nodup w win hw
    · exact List.nodup_nil
  tabs w win hw t := by
    rcases Window.new_windows.1 hw with hw | ⟨rfl, rfl⟩
    · exact h.tabs w win hw t
    · -- no tab was made for a window that was not there
      constructor
      · intro hm
        cases hm
      · rintro ⟨tab, ht, hown, -⟩
        obtain ⟨win, hw⟩ := h.window t tab ht
        have := (List.getElem?_eq_some_iff.1 hw).1
        omega
  window t tab ht := by
    obtain ⟨win, hw⟩ := h.window t tab ht
    exact ⟨win, Window.new_windows.2 (.inl hw)⟩
  focused w win f hw hf := by
    rcases Window.new_windows.1 hw with hw | ⟨-, rfl⟩
    · exact h.focused w win f hw hf
    · cases hf

theorem Shown.newWindow {s : Wm} (hl : Listed s) (h : Shown s) : Shown (Window.new s) where
  attached w win hw t hmem tab ht := by
    rcases Window.new_windows.1 hw with hw | ⟨-, rfl⟩
    · exact h.attached w win hw t hmem tab ht
    · cases hmem
  focus t tab win' hf ht hd hw' := by
    obtain ⟨win, hw⟩ := hl.window t tab ht
    have hw'' := Window.new_windows.2 (.inl hw)
    rw [hw', Option.some_inj] at hw''
    exact hw'' ▸ h.focus t tab win hf ht hd hw
  bound := h.bound

theorem Settled.newWindow {s : Wm} {v : Nat} (h : Settled s v) : Settled (Window.new s) v := by
  obtain ⟨win, f, hw, hf, hmem⟩ := h
  exact ⟨win, f, Window.new_windows.2 (.inl hw), hf, hmem⟩

/-! ## Coherence -/

/-- The lists are right, the right elements are shown, and open windows have their focused tab in their
list. -/
structure Coherent (s : Wm) : Prop where
  listed : Listed s
  shown : Shown s
  settled : ∀ w ∈ s.opened, Settled s w

theorem init_coherent : Coherent init := by
  refine ⟨⟨List.nodup_nil, ?_, ?_, ?_, ?_, ?_⟩, ⟨?_, ?_, ?_⟩, ?_⟩ <;> simp [init]

theorem Coherent.aims {s : Wm} (h : Coherent s) : Aims s := by
  intro w hw
  obtain ⟨win, f, hwin, hf, -⟩ := h.settled w hw
  exact ⟨win, f, hwin, hf⟩

/-- Where all but the window at hand are settled, giving one of its tabs the focus puts everything right. -/
theorem coherent_focusOn {s : Wm} (hl : Listed s) (hs : Shown s) {t : Nat} {tab : Tab} {win : Window}
    (ht : s.tabs[t]? = some tab) (hd : tab.destroyed = false) (hw : s.windows[tab.window]? = some win)
    (hset : ∀ v ∈ s.opened, v ≠ tab.window → Settled s v) :
    Coherent (Tab.focusOn t tab win s) ∧ Held (Tab.focusOn t tab win s) := by
  have hc := Cascade.focusOn ht win
  have hmem := (hl.tabs _ win hw t).2 ⟨tab, ht, rfl, hd⟩
  have ho : (Tab.focusOn t tab win s).opened = s.opened := by simpa using hc.opened
  refine ⟨⟨hl.cascade hc, hs.focusOn hl ht hw, fun v hv => ?_⟩, ?_⟩
  · by_cases hvt : v = tab.window
    · exact hvt ▸ Settled.of_focusOn hs ht hd hw hmem
    · exact (hset v (ho ▸ hv) hvt).focusOn win hvt
  · obtain ⟨p, hp⟩ := hc.tab t tab ht
    exact ⟨t, _, Tab.focusOn_focus .., hp, by simpa using hd⟩

theorem Coherent.focusOn {s : Wm} (h : Coherent s) {t : Nat} {tab : Tab} {win : Window}
    (ht : s.tabs[t]? = some tab) (hd : tab.destroyed = false) (hw : s.windows[tab.window]? = some win) :
    Coherent (Tab.focusOn t tab win s) ∧ Held (Tab.focusOn t tab win s) :=
  coherent_focusOn h.listed h.shown ht hd hw fun v hv _ => h.settled v hv

theorem Coherent.tabFocus {s : Wm} (h : Coherent s) {t : Nat} {tab : Tab} (ht : s.tabs[t]? = some tab)
    (hd : tab.destroyed = false) (n : Nat) :
    ∃ s', Tab.focus (n + 3) t s = some s' ∧ Cascade s s' [] [] [] ∧ Coherent s' ∧ Held s' := by
  obtain ⟨win, hw⟩ := h.listed.window t tab ht
  exact ⟨_, Tab.focus_eq ht hw n, .focusOn ht win, h.focusOn ht hd hw⟩

theorem Coherent.windowFocus {s : Wm} (h : Coherent s) {w : Nat} (hw : w ∈ s.opened) (n : Nat) :
    ∃ s', Window.focus (n + 4) w s = some s' ∧ Cascade s s' [] [] [] ∧ Coherent s' ∧ Held s' := by
  obtain ⟨win, f, hwin, hf, hmem⟩ := h.settled w hw
  obtain ⟨tab, ht, rfl, hd⟩ := (h.listed.tabs w win hwin f).1 hmem
  refine ⟨_, Window.focus_eq hwin hf ht rfl n, ._focus f s, ?_⟩
  rw [← @Tab.focusOn_of_focused f tab win s hf]
  exact h.focusOn ht hd hwin

theorem Coherent.focusTab {s : Wm} (h : Coherent s) {w : Nat} (hw : w ∈ s.opened) (next : Bool) (n : Nat) :
    ∃ s', Window.focusTab (n + 3) next w s = some s' ∧ Cascade s s' [] [] [] ∧ Coherent s' ∧ Held s' := by
  obtain ⟨win, f, hwin, -, hmem⟩ := h.settled w hw
  obtain ⟨t, tab, -, ht, rfl, hd, hcall⟩ := Window.focusTab_of_mem h.listed hwin
    (List.ne_nil_of_mem hmem) next n
  exact ⟨_, hcall, .focusOn ht win, h.focusOn ht hd hwin⟩

/-- The state a new tab leaves: it is pushed to its window's list, and focused. -/
theorem Window.createTab_eq {s : Wm} {w : Nat} {win : Window} (hw : s.windows[w]? = some win) (n : Nat) :
    Window.createTab (n + 3) w s = some (Tab.focusOn s.tabs.length (Tab.fresh w)
      { win with tabs := win.tabs ++ [s.tabs.length] } (Window.push w s.tabs.length (Tab.new w s))) := by
  have ht : (Tab.new w s).tabs[s.tabs.length]? = some (Tab.fresh w) := Tab.new_tabs.2 (.inr ⟨rfl, rfl⟩)
  have hcall := @Tab.focus_eq (Tab.new w s) s.tabs.length (Tab.fresh w) win ht hw n
  unfold Window.createTab
  simp only [hcall, Option.bind_eq_bind, Option.bind_some]
  exact congrArg some (Window.push_focusOn s.tabs.length s.tabs.length (Tab.fresh w) win (Tab.new w s))

/-- The new tab takes over its window, which is settled with it. -/
theorem coherent_createTab {s : Wm} (hl : Listed s) (hs : Shown s) {w : Nat} {win : Window}
    (hw : s.windows[w]? = some win) (hset : ∀ v ∈ s.opened, v ≠ w → Settled s v) (n : Nat) :
    ∃ s', Window.createTab (n + 3) w s = some s' ∧
      Cascade (Window.push w s.tabs.length (Tab.new w s)) s' [] [] [] ∧ Coherent s' ∧ Held s' := by
  have ht : (Window.push w s.tabs.length (Tab.new w s)).tabs[s.tabs.length]? = some (Tab.fresh w) :=
    Tab.new_tabs.2 (.inr ⟨rfl, rfl⟩)
  have hw' := push_new w hw
  rw [if_pos rfl] at hw'
  exact ⟨_, Window.createTab_eq hw n, Cascade.focusOn ht _,
    coherent_focusOn (hl.newTab hw) (hs.newTab hl w) ht rfl hw' fun v hv hne => (hset v hv hne).newTab w⟩

theorem Coherent.newWindow {s : Wm} (h : Coherent s) (n : Nat) : ∃ s', Wm.newWindow (n + 4) s = some s' ∧
    Cascade (Window.push s.windows.length s.tabs.length (Tab.new s.windows.length (Window.new s))) s' [] [] [] ∧
      Coherent s' ∧ Held s' := by
  have hset : ∀ v ∈ (Window.new s).opened, v ≠ s.windows.length → Settled (Window.new s) v := by
    intro v hv hne
    refine (h.settled v ?_).newWindow
    exact (List.mem_append.1 hv).resolve_right fun h => hne (List.mem_singleton.1 h)
  obtain ⟨s₁, hcreate, hc, h₁, -⟩ := coherent_createTab h.listed.newWindow (h.shown.newWindow h.listed)
    (Window.new_windows.2 (.inr ⟨rfl, rfl⟩)) hset (n + 1)
  have hmem₁ : s.windows.length ∈ s₁.opened := by
    rw [hc.opened]
    exact List.mem_filter.2 ⟨List.mem_append_right _ (List.mem_singleton.2 rfl), by simp⟩
  obtain ⟨s', hfocus, hc', hs'⟩ := h₁.windowFocus hmem₁ n
  refine ⟨s', ?_, hc.trans hc', hs'⟩
  unfold Wm.newWindow
  simp [hcreate, hfocus]

/-- What a teardown leaves is coherent, if the window at hand is settled where it is left open. -/
theorem Coherent.cascade {s s' : Wm} {D W : List Nat} {new : List Event} {w : Nat} (h : Coherent s)
    (hc : Cascade s s' D W new) (hst : Steady w s s') (hset : w ∈ s'.opened → Settled s' w) : Coherent s' where
  listed := h.listed.cascade hc
  shown := hst.shown h.shown
  settled v hv := by
    by_cases hvw : v = w
    · subst hvw
      exact hset hv
    · rw [hc.opened] at hv
      exact hst.settled v hvw (h.settled v (List.mem_of_mem_filter hv))

/-- A tab of a window that is destroyed goes without it, -/
theorem Coherent.destroyTab_of_closed {s : Wm} (h : Coherent s) {t : Nat} {tab : Tab} {win : Window}
    (ht : s.tabs[t]? = some tab) (hd : tab.destroyed = false) (hw : s.windows[tab.window]? = some win)
    (hwd : win.destroyed = true) (n : Nat) : ∃ s', Tab.destroy (n + 5) t s = some s' ∧
      Cascade s s' [t] [] (Tab.events t) ∧ Coherent s' := by
  obtain ⟨s', hcall, hc, hst, -⟩ := Tab.destroy_of_closing h.listed ht hd hw hwd n
  refine ⟨s', hcall, hc, h.cascade hc hst fun hopen => ?_⟩
  rw [hc.opened] at hopen
  obtain ⟨win', hw', hwd'⟩ := (h.listed.flag _).1 (List.mem_of_mem_filter hopen)
  rw [hw, Option.some_inj] at hw'
  subst hw'
  rw [hwd] at hwd'
  cases hwd'

/-- so does one that has siblings, -/
theorem Coherent.destroyTab_of_others {s : Wm} (h : Coherent s) {t : Nat} {tab : Tab} {win : Window}
    (ht : s.tabs[t]? = some tab) (hd : tab.destroyed = false) (hw : s.windows[tab.window]? = some win)
    (hwd : win.destroyed = false) (hne : win.tabs.filter (· ≠ t) ≠ []) (n : Nat) :
    ∃ s', Tab.destroy (n + 5) t s = some s' ∧ Cascade s s' [t] [] (Tab.events t) ∧ Coherent s' ∧
      (Held s → Held s') := by
  obtain ⟨s', hcall, hc, hst, hrest⟩ := Tab.destroy_of_others h.listed ht hd hw hne n
  obtain ⟨hset, hheld⟩ := hrest h.shown (h.settled _ ((h.listed.flag _).2 ⟨win, hw, hwd⟩))
  exact ⟨s', hcall, hc, h.cascade hc hst fun _ => hset, hheld⟩

/-- and the last of an open window closes it. -/
theorem Coherent.destroyTab_of_last {s : Wm} (h : Coherent s) {t : Nat} {tab : Tab} {win : Window}
    (ht : s.tabs[t]? = some tab) (hd : tab.destroyed = false) (hw : s.windows[tab.window]? = some win)
    (hwd : win.destroyed = false) (hnil : win.tabs.filter (· ≠ t) = []) (n : Nat) :
    ∃ s', Tab.destroy (n + 8) t s = some s' ∧
      Cascade s s' [t] [tab.window] [.kill t, .closeWindow tab.window, .closeTab t] ∧ Coherent s' ∧
      (s'.opened ≠ [] → Held s') := by
  obtain ⟨s', hcall, hc, hst, hheld⟩ := Tab.destroy_of_last h.listed h.aims ht hd hw hwd hnil n
  refine ⟨s', hcall, hc, h.cascade hc hst fun hopen => ?_, hheld h.settled⟩
  rw [hc.opened] at hopen
  simp at hopen

/-- The keyboard is with the last tab that was destroyed, whatever else is open. -/
theorem Coherent.destroyWindow {s : Wm} (h : Coherent s) {w : Nat} {win : Window} (hw : s.windows[w]? = some win)
    (hd : win.destroyed = false) (n : Nat) : ∃ s', Window.destroy (n + 6) w s = some s' ∧
      Cascade s s' win.tabs.reverse [w] (Window.events w win.tabs) ∧ Coherent s' ∧ ¬ Held s' := by
  obtain ⟨s', hcall, hc, hst, hfocus, -⟩ := Window.destroy_eq h.listed h.aims hw hd n
  refine ⟨s', hcall, hc, h.cascade hc hst fun hopen => ?_, ?_⟩
  · rw [hc.opened] at hopen
    simp at hopen
  · rintro ⟨t, tab', hf, ht', hd'⟩
    obtain ⟨u, hu, hfu⟩ := hfocus h.shown (h.settled w ((h.listed.flag w).2 ⟨win, hw, hd⟩))
    obtain ⟨tab, -, p, rfl⟩ := hc.tab_of ht'
    rw [hf, Option.some_inj] at hfu
    subst hfu
    simp [hu] at hd'

/-! ## Ready -/

/-- Where a tab belongs, whether it is live and where it is shown. -/
def Tab.outline (tab : Tab) : Nat × Bool × Option Parent := (tab.window, tab.destroyed, tab.parent)

/-- Two states that differ in what tabs are called alone. -/
structure Alike (s s' : Wm) : Prop where
  tabs : ∀ t : Nat, s'.tabs[t]?.map Tab.outline = s.tabs[t]?.map Tab.outline
  windows : s'.windows = s.windows
  opened : s'.opened = s.opened
  focus : s'.focus = s.focus

section Alike

variable {s s' : Wm}

theorem Alike.tab_of (h : Alike s s') {t : Nat} {x' : Tab} (ht : s'.tabs[t]? = some x') :
    ∃ x, s.tabs[t]? = some x ∧ x'.window = x.window ∧ x'.destroyed = x.destroyed ∧ x'.parent = x.parent := by
  have := h.tabs t
  rw [ht, Option.map_some, eq_comm, Option.map_eq_some_iff] at this
  obtain ⟨x, hx, he⟩ := this
  simp only [Tab.outline, Prod.mk.injEq] at he
  exact ⟨x, hx, he.1.symm, he.2.1.symm, he.2.2.symm⟩

theorem Alike.symm (h : Alike s s') : Alike s' s :=
  ⟨fun t => (h.tabs t).symm, h.windows.symm, h.opened.symm, h.focus.symm⟩

theorem Alike.trans {s₁ : Wm} (h : Alike s s₁) (h' : Alike s₁ s') : Alike s s' :=
  ⟨fun t => (h'.tabs t).trans (h.tabs t), h'.windows.trans h.windows, h'.opened.trans h.opened, h'.focus.trans h.focus⟩

theorem Alike.listed (h : Alike s s') (hl : Listed s) : Listed s' where
  opened := h.opened ▸ hl.opened
  flag := by
    rw [h.opened, h.windows]
    exact hl.flag
  nodup := h.windows ▸ hl.nodup
  tabs w win hw t := by
    rw [h.windows] at hw
    rw [hl.tabs w win hw t]
    constructor
    · rintro ⟨x, hx, hown, hd⟩
      obtain ⟨x', hx', hown', hd', -⟩ := h.symm.tab_of hx
      exact ⟨x', hx', hown' ▸ hown, hd' ▸ hd⟩
    · rintro ⟨x', hx', hown', hd'⟩
      obtain ⟨x, hx, hown, hd, -⟩ := h.tab_of hx'
      exact ⟨x, hx, hown ▸ hown', hd ▸ hd'⟩
  window t x' hx' := by
    obtain ⟨x, hx, hown, -⟩ := h.tab_of hx'
    rw [hown, h.windows]
    exact hl.window t x hx
  focused w win f hw hf := by
    rw [h.windows] at hw
    obtain ⟨x, hx, hown⟩ := hl.focused w win f hw hf
    obtain ⟨x', hx', hown', -⟩ := h.symm.tab_of hx
    exact ⟨x', hx', hown' ▸ hown⟩

theorem Alike.shown (h : Alike s s') (hs : Shown s) : Shown s' where
  attached w win hw t hmem x' hx' := by
    obtain ⟨x, hx, -, -, hp⟩ := h.tab_of hx'
    rw [hp]
    exact hs.attached w win (h.windows ▸ hw) t hmem x hx
  focus t x' win hf hx' hd hw := by
    obtain ⟨x, hx, hown, hdx, -⟩ := h.tab_of hx'
    exact hs.focus t x win (h.focus ▸ hf) hx (hdx ▸ hd) (hown ▸ h.windows ▸ hw)
  bound t hf := by
    have hlt := hs.bound t (h.focus ▸ hf)
    obtain ⟨x', hx', -⟩ := h.symm.tab_of (List.getElem?_eq_getElem hlt)
    exact (List.getElem?_eq_some_iff.1 hx').1

theorem Alike.coherent (h : Alike s s') (hs : Coherent s) : Coherent s' where
  listed := h.listed hs.listed
  shown := h.shown hs.shown
  settled w hw := by
    obtain ⟨win, f, hwin, hf, hmem⟩ := hs.settled w (h.opened ▸ hw)
    exact ⟨win, f, h.windows ▸ hwin, hf, hmem⟩

theorem Alike.held (h : Alike s s') : Held s → Held s' := by
  rintro ⟨t, x, hf, hx, hd⟩
  obtain ⟨x', hx', -, hd', -⟩ := h.symm.tab_of hx
  exact ⟨t, x', h.focus ▸ hf, hx', hd' ▸ hd⟩

theorem alike_modifyTab (t : Nat) {f : Tab → Tab} (hf : ∀ x, (f x).outline = x.outline) (s : Wm) :
    Alike s (s.modifyTab t f) := by
  refine ⟨fun u => ?_, rfl, rfl, rfl⟩
  rw [modifyTab_tabs, Option.map_map]
  congr 1
  funext x
  by_cases hu : u = t <;> simp [hu, hf]

end Alike

/-- What `Tab.ready` does before it emits its events. -/
def Tab.enter (t : Nat) (id : Int) (s : Wm) : Wm :=
  { s.modifyTab t fun tab => { tab with id := some id } with terms := OrdHash.set id.repr t s.terms }

theorem alike_enter (t : Nat) (id : Int) (s : Wm) : Alike s (Tab.enter t id s) := by
  obtain ⟨htabs, hwindows, hopened, hfocus⟩ :=
    alike_modifyTab t (f := fun tab => { tab with id := some id }) (fun _ => rfl) s
  exact ⟨htabs, hwindows, hopened, hfocus⟩

theorem alike_connected (t : Nat) (s : Wm) :
    Alike s (s.modifyTab t fun tab => { tab with toTab := tab.toTab.connected }) :=
  alike_modifyTab t (fun x => by simp [Tab.outline]) s

/-- A tab that gets its id stays in its window, live or not, and where it is shown. -/
theorem alike_ready (t : Nat) (id : Int) (s : Wm) : Alike s (Tab.ready t id s) :=
  (alike_enter t id s).trans (alike_connected t (Tab.enter t id s))

/-! ## Order -/

/-- The lists are right, the right elements are shown, open windows have their focused tab in their
list, and the others have no tabs. -/
structure Orderly (s : Wm) : Prop where
  listed : Listed s
  shown : Shown s
  settled : ∀ w ∈ s.opened, Settled s w
  idle : ∀ (w : Nat) (win : Window), s.windows[w]? = some win → w ∉ s.opened → win.tabs = []

theorem Orderly.coherent {s : Wm} (h : Orderly s) : Coherent s := ⟨h.listed, h.shown, h.settled⟩

theorem Orderly.populated {s : Wm} (h : Orderly s) : Populated s where
  listed := h.listed
  aims := h.coherent.aims
  tabs w win hw := by
    constructor
    · intro hopen
      obtain ⟨win', f, hw', -, hmem⟩ := h.settled w hopen
      rw [hw, Option.some_inj] at hw'
      exact hw' ▸ List.ne_nil_of_mem hmem
    · intro hne
      by_contra hopen
      exact hne (h.idle w win hw hopen)

theorem init_orderly : Orderly init :=
  ⟨init_coherent.listed, init_coherent.shown, init_coherent.settled, by simp [init]⟩

/-- What an operation leaves coherent is in order, if it closes no window before the window's tabs are gone. -/
theorem Coherent.orderly {s s' : Wm} {D W : List Nat} {new : List Event} (h' : Coherent s')
    (hc : Cascade s s' D W new)
    (hidle : ∀ (w : Nat) (win : Window), s.windows[w]? = some win → w ∉ s.opened → win.tabs = [])
    (hW : ∀ w ∈ W, ∀ win : Window, s.windows[w]? = some win → ∀ t ∈ win.tabs, t ∈ D) : Orderly s' := by
  refine ⟨h'.listed, h'.shown, h'.settled, fun w win' hw' hopen => ?_⟩
  obtain ⟨win, hw, ht, -⟩ := hc.window_of hw'
  rw [ht, List.filter_eq_nil_iff]
  intro t hmem
  have hor : w ∉ s.opened ∨ w ∈ W := by
    rw [hc.opened, List.mem_filter, decide_eq_true_eq] at hopen
    tauto
  have hD : t ∈ D := by
    rcases hor with hclosed | hclosing
    · rw [hidle w win hw hclosed] at hmem
      cases hmem
    · exact hW w hclosing win hw t hmem
  simpa using hD

theorem Orderly.tabFocus {s : Wm} (h : Orderly s) {t : Nat} {tab : Tab} (ht : s.tabs[t]? = some tab)
    (hd : tab.destroyed = false) (n : Nat) :
    ∃ s', Tab.focus (n + 3) t s = some s' ∧ Cascade s s' [] [] [] ∧ Orderly s' ∧ Held s' := by
  obtain ⟨s', hcall, hc, h', hheld⟩ := h.coherent.tabFocus ht hd n
  exact ⟨s', hcall, hc, h'.orderly hc h.idle fun w hw => (by cases hw), hheld⟩

theorem Orderly.windowFocus {s : Wm} (h : Orderly s) {w : Nat} (hw : w ∈ s.opened) (n : Nat) :
    ∃ s', Window.focus (n + 4) w s = some s' ∧ Cascade s s' [] [] [] ∧ Orderly s' ∧ Held s' := by
  obtain ⟨s', hcall, hc, h', hheld⟩ := h.coherent.windowFocus hw n
  exact ⟨s', hcall, hc, h'.orderly hc h.idle fun w hw => (by cases hw), hheld⟩

theorem Orderly.focusTab {s : Wm} (h : Orderly s) {w : Nat} (hw : w ∈ s.opened) (next : Bool) (n : Nat) :
    ∃ s', Window.focusTab (n + 3) next w s = some s' ∧ Cascade s s' [] [] [] ∧ Orderly s' ∧ Held s' := by
  obtain ⟨s', hcall, hc, h', hheld⟩ := h.coherent.focusTab hw next n
  exact ⟨s', hcall, hc, h'.orderly hc h.idle fun w hw => (by cases hw), hheld⟩

theorem idle_newTab {s : Wm} (hidle : ∀ (w : Nat) (win : Window), s.windows[w]? = some win → w ∉ s.opened → win.tabs = [])
    {w : Nat} (hw : w ∈ s.opened) : ∀ (v : Nat) (win : Window),
      (Window.push w s.tabs.length (Tab.new w s)).windows[v]? = some win → v ∉ s.opened → win.tabs = [] := by
  intro v win' hv' hopen
  obtain ⟨win, hv, -, -, htabs⟩ := push_new_of hv'
  have hvw : v ≠ w := by
    rintro rfl
    exact hopen hw
  rw [htabs, if_neg hvw]
  exact hidle v win hv hopen

theorem Orderly.createTab {s : Wm} (h : Orderly s) {w : Nat} (hw : w ∈ s.opened) (n : Nat) :
    ∃ s', Window.createTab (n + 3) w s = some s' ∧
      Cascade (Window.push w s.tabs.length (Tab.new w s)) s' [] [] [] ∧ Orderly s' ∧ Held s' := by
  obtain ⟨win, hwin, -⟩ := (h.listed.flag w).1 hw
  obtain ⟨s', hcall, hc, h', hheld⟩ := coherent_createTab h.listed h.shown hwin (fun v hv _ => h.settled v hv) n
  exact ⟨s', hcall, hc, h'.orderly hc (idle_newTab h.idle hw) fun v hv => (by cases hv), hheld⟩

theorem Orderly.newWindow {s : Wm} (h : Orderly s) (n : Nat) : ∃ s', Wm.newWindow (n + 4) s = some s' ∧
    Cascade (Window.push s.windows.length s.tabs.length (Tab.new s.windows.length (Window.new s))) s' [] [] [] ∧
      Orderly s' ∧ Held s' := by
  have hmem : s.windows.length ∈ (Window.new s).opened := List.mem_append_right _ (List.mem_singleton.2 rfl)
  have hidle : ∀ (v : Nat) (win : Window), (Window.new s).windows[v]? = some win → v ∉ (Window.new s).opened →
      win.tabs = [] := by
    intro v win hv hopen
    rcases Window.new_windows.1 hv with hv | ⟨-, rfl⟩
    · exact h.idle v win hv fun h => hopen (List.mem_append_left _ h)
    · rfl
  obtain ⟨s', hcall, hc, h', hheld⟩ := h.coherent.newWindow n
  exact ⟨s', hcall, hc, h'.orderly hc (idle_newTab hidle hmem) fun v hv => (by cases hv), hheld⟩

theorem Orderly.ready {s : Wm} (h : Orderly s) (t : Nat) (id : Int) :
    Orderly (Tab.ready t id s) ∧ (Held s → Held (Tab.ready t id s)) := by
  have halike := alike_ready t id s
  have h' := halike.coherent h.coherent
  exact ⟨⟨h'.listed, h'.shown, h'.settled, h.idle⟩, halike.held⟩

theorem Orderly.destroyTab {s : Wm} (h : Orderly s) {t : Nat} {tab : Tab} (ht : s.tabs[t]? = some tab)
    (hd : tab.destroyed = false) (n : Nat) : ∃ s', Tab.destroy (n + 8) t s = some s' ∧ Orderly s' ∧
      ((s.opened ≠ [] → Held s) → s'.opened ≠ [] → Held s') := by
  obtain ⟨win, hw, hmem, hwd⟩ := h.populated.live ht hd
  by_cases hnil : win.tabs.filter (· ≠ t) = []
  · obtain ⟨s', hcall, hc, h', hheld⟩ := h.coherent.destroyTab_of_last ht hd hw hwd hnil n
    refine ⟨s', hcall, h'.orderly hc h.idle fun v hv win' hw' u hu => ?_, fun _ => hheld⟩
    rw [List.mem_singleton.1 hv, hw, Option.some_inj] at hw'
    subst hw'
    simpa using List.filter_eq_nil_iff.1 hnil u hu
  · obtain ⟨s', hcall, hc, h', hheld⟩ := h.coherent.destroyTab_of_others ht hd hw hwd hnil (n + 3)
    refine ⟨s', hcall, h'.orderly hc h.idle fun v hv => (by cases hv), fun hs _ => hheld (hs ?_)⟩
    exact List.ne_nil_of_mem ((h.listed.flag tab.window).2 ⟨win, hw, hwd⟩)

theorem Orderly.destroyWindow {s : Wm} (h : Orderly s) {w : Nat} (hw : w ∈ s.opened) (n : Nat) :
    ∃ s', Window.destroy (n + 6) w s = some s' ∧ Orderly s' ∧ s'.opened = s.opened.filter (· ≠ w) ∧
      ¬ Held s' := by
  obtain ⟨win, hwin, hd⟩ := (h.listed.flag w).1 hw
  obtain ⟨s', hcall, hc, h', hnot⟩ := h.coherent.destroyWindow hwin hd n
  refine ⟨s', hcall, h'.orderly hc h.idle fun v hv win' hw' u hu => ?_, by simpa using hc.opened, hnot⟩
  rw [List.mem_singleton.1 hv, hwin, Option.some_inj] at hw'
  subst hw'
  exact List.mem_reverse.2 hu

/-! ## Operations -/

inductive Act
  | newWindow
  | createTab (w : Nat)
  | ready (t : Nat) (id : Int)
  | focusTab (t : Nat)
  | focusWindow (w : Nat)
  | nextTab (w : Nat)
  | previousTab (w : Nat)
  | destroyTab (t : Nat)
  | destroyWindow (w : Nat)
deriving DecidableEq

def LiveTab (s : Wm) (t : Nat) : Prop := (s.tabs[t]?.map fun tab => tab.destroyed) = some false

def LiveWindow (s : Wm) (w : Nat) : Prop := (s.windows[w]?.map fun win => win.destroyed) = some false

instance (s : Wm) (t : Nat) : Decidable (LiveTab s t) := inferInstanceAs (Decidable (_ = _))

instance (s : Wm) (w : Nat) : Decidable (LiveWindow s w) := inferInstanceAs (Decidable (_ = _))

/-- The window or tab it is applied to is not destroyed. -/
def Act.OnLive (s : Wm) : Act → Prop
  | .newWindow => True
  | .createTab w | .focusWindow w | .nextTab w | .previousTab w | .destroyWindow w => LiveWindow s w
  | .ready t _ | .focusTab t | .destroyTab t => LiveTab s t

instance (s : Wm) (a : Act) : Decidable (a.OnLive s) := by
  cases a <;> unfold Act.OnLive <;> infer_instance

def Act.perform (s : Wm) : Act → Option Wm
  | .newWindow => Wm.newWindow depth s
  | .createTab w => Window.createTab depth w s
  | .ready t id => some (Tab.ready t id s)
  | .focusTab t => Tab.focus depth t s
  | .focusWindow w => Window.focus depth w s
  | .nextTab w => Window.nextTab depth w s
  | .previousTab w => Window.previousTab depth w s
  | .destroyTab t => Tab.destroy depth t s
  | .destroyWindow w => Window.destroy depth w s

/-- Operations are applied to live windows and tabs. -/
def step (s : Wm) (a : Act) : Option Wm := if a.OnLive s then a.perform s else none

/-- While a window is open, the keyboard is with a live tab of an open window. -/
def Focused (s : Wm) : Prop :=
  s.opened ≠ [] → ∃ t tab, s.focus = some t ∧ s.tabs[t]? = some tab ∧ tab.destroyed = false ∧
    tab.window ∈ s.opened

/-- It does not destroy a window while another one is open. -/
def Spares (s : Wm) (a : Act) : Prop := ∀ w, a = .destroyWindow w → ∀ v ∈ s.opened, v = w

theorem LiveTab.tab {s : Wm} {t : Nat} (h : LiveTab s t) :
    ∃ tab, s.tabs[t]? = some tab ∧ tab.destroyed = false :=
  Option.map_eq_some_iff.1 h

theorem Orderly.live {s : Wm} (h : Orderly s) {w : Nat} (hw : LiveWindow s w) : w ∈ s.opened :=
  (h.listed.flag w).2 (Option.map_eq_some_iff.1 hw)

theorem Orderly.focused_iff {s : Wm} (h : Orderly s) : Focused s ↔ (s.opened ≠ [] → Held s) := by
  constructor
  · intro hf hne
    obtain ⟨t, tab, hft, ht, hd, -⟩ := hf hne
    exact ⟨t, tab, hft, ht, hd⟩
  · intro hh hne
    obtain ⟨t, tab, hft, ht, hd⟩ := hh hne
    obtain ⟨win, hw, -, hwd⟩ := h.populated.live ht hd
    exact ⟨t, tab, hft, ht, hd, (h.listed.flag _).2 ⟨win, hw, hwd⟩⟩

/-- What one operation does to the order and to the keyboard. -/
theorem Act.perform_eq {s : Wm} (h : Orderly s) {a : Act} (ha : a.OnLive s) :
    ∃ s', a.perform s = some s' ∧ Orderly s' ∧ (Focused s → (Focused s' ↔ Spares s a)) := by
  have hkeeps : ∀ {s'}, Orderly s' → (Focused s → s'.opened ≠ [] → Held s') → (∀ w, a ≠ .destroyWindow w) →
      (Focused s → (Focused s' ↔ Spares s a)) := by
    intro s' h' hheld hne hs
    exact ⟨fun _ w he => absurd he (hne w), fun _ => h'.focused_iff.2 (hheld hs)⟩
  cases a with
  | newWindow =>
    obtain ⟨s', hcall, -, h', hheld⟩ := h.newWindow 4
    exact ⟨s', hcall, h', hkeeps h' (fun _ _ => hheld) (by simp)⟩
  | createTab w =>
    obtain ⟨s', hcall, -, h', hheld⟩ := h.createTab (h.live ha) 5
    exact ⟨s', hcall, h', hkeeps h' (fun _ _ => hheld) (by simp)⟩
  | ready t id =>
    obtain ⟨h', hheld⟩ := h.ready t id
    exact ⟨_, rfl, h', hkeeps h' (fun hs hne => hheld (h.focused_iff.1 hs hne)) (by simp)⟩
  | focusTab t =>
    obtain ⟨tab, ht, hd⟩ := LiveTab.tab ha
    obtain ⟨s', hcall, -, h', hheld⟩ := h.tabFocus ht hd 5
    exact ⟨s', hcall, h', hkeeps h' (fun _ _ => hheld) (by simp)⟩
  | focusWindow w =>
    obtain ⟨s', hcall, -, h', hheld⟩ := h.windowFocus (h.live ha) 4
    exact ⟨s', hcall, h', hkeeps h' (fun _ _ => hheld) (by simp)⟩
  | nextTab w =>
    obtain ⟨s', hcall, -, h', hheld⟩ := h.focusTab (h.live ha) true 5
    exact ⟨s', hcall, h', hkeeps h' (fun _ _ => hheld) (by simp)⟩
  | previousTab w =>
    obtain ⟨s', hcall, -, h', hheld⟩ := h.focusTab (h.live ha) false 5
    exact ⟨s', hcall, h', hkeeps h' (fun _ _ => hheld) (by simp)⟩
  | destroyTab t =>
    obtain ⟨tab, ht, hd⟩ := LiveTab.tab ha
    obtain ⟨s', hcall, h', hheld⟩ := h.destroyTab ht hd 0
    exact ⟨s', hcall, h', hkeeps h' (fun hs => hheld (h.focused_iff.1 hs)) (by simp)⟩
  | destroyWindow w =>
    obtain ⟨s', hcall, h', ho, hnot⟩ := h.destroyWindow (h.live ha) 2
    refine ⟨s', hcall, h', fun _ => ?_⟩
    rw [h'.focused_iff]
    constructor
    · rintro hf w' he v hv
      cases he
      by_contra hvw
      have : v ∈ s'.opened := by
        rw [ho]
        simpa [hvw] using hv
      exact hnot (hf (List.ne_nil_of_mem this))
    · intro hs hne
      refine absurd ?_ hne
      rw [ho, List.filter_eq_nil_iff]
      intro v hv
      simpa using hs w rfl v hv

theorem step_eq {s s' : Wm} {a : Act} (h : Orderly s) (hstep : step s a = some s') :
    Orderly s' ∧ (Focused s → (Focused s' ↔ Spares s a)) := by
  unfold step at hstep
  split at hstep
  · obtain ⟨s₁, hcall, hs₁⟩ := Act.perform_eq h ‹_›
    rw [hstep, Option.some_inj] at hcall
    exact hcall ▸ hs₁
  · cases hstep

/-! ## Runs -/

/-- What can be seen of the order: an open window has a tab and no tab twice, all of them live and its
own, one of them is focused, and that one alone has its element in the window's. -/
structure Structured (s : Wm) : Prop where
  nodup : s.opened.Nodup
  window : ∀ w ∈ s.opened, ∃ win, s.windows[w]? = some win ∧ win.destroyed = false ∧ win.tabs ≠ [] ∧
    win.tabs.Nodup ∧
    (∀ t ∈ win.tabs, ∃ tab, s.tabs[t]? = some tab ∧ tab.destroyed = false ∧ tab.window = w) ∧
    ∃ f ∈ win.tabs, win.focused = some f ∧
      ∀ t ∈ win.tabs, ∀ tab, s.tabs[t]? = some tab → (tab.parent = some (.window w) ↔ t = f)

theorem Orderly.structured {s : Wm} (h : Orderly s) : Structured s where
  nodup := h.listed.opened
  window w hw := by
    obtain ⟨win, hwin, hd⟩ := (h.listed.flag w).1 hw
    obtain ⟨win', f, hwin', hf, hmem⟩ := h.settled w hw
    rw [hwin, Option.some_inj] at hwin'
    subst hwin'
    refine ⟨win, hwin, hd, List.ne_nil_of_mem hmem, h.listed.nodup w win hwin, fun t ht => ?_, f, hmem, hf, ?_⟩
    · obtain ⟨tab, htab, hown, hdt⟩ := (h.listed.tabs w win hwin t).1 ht
      exact ⟨tab, htab, hdt, hown⟩
    · intro t ht tab htab
      rw [h.shown.attached w win hwin t ht tab htab, hf, Option.some_inj, eq_comm]

theorem run_orderly {as : List Act} {s : Wm} (h : Machine.exec step init as = some s) : Orderly s :=
  Machine.exec_inv (fun _ _ _ hs hstep => (step_eq hs hstep).1) init_orderly h

end Tangle.Wm
