/-
Which tabs are shown. Of the tabs in a window's list the focused one, and no other, has its element in
the window. `Tab.focus` returns at once where the tab has the keyboard, so that it can be relied on, a
live tab with the keyboard has to be the focused one of its window.
-/
import Tangle.Browser.Cascade

namespace Tangle.Wm

structure Shown (s : Wm) : Prop where
  attached : ∀ (w : Nat) (win : Window), s.windows[w]? = some win →
    ∀ t ∈ win.tabs, ∀ tab, s.tabs[t]? = some tab →
    (tab.parent = some (.window w) ↔ win.focused = some t)
  focus : ∀ (t : Nat) (tab : Tab) (win : Window), s.focus = some t → s.tabs[t]? = some tab →
    tab.destroyed = false →
    s.windows[tab.window]? = some win → win.focused = some t
  bound : ∀ t, s.focus = some t → t < s.tabs.length

/-- The focused tab of the window is in its list. -/
def Settled (s : Wm) (w : Nat) : Prop := ∃ win f, s.windows[w]? = some win ∧ win.focused = some f ∧ f ∈ win.tabs

/-- From `s` to `s'` what is shown stays right, and every window other than `w` settled. -/
structure Steady (w : Nat) (s s' : Wm) : Prop where
  shown : Shown s → Shown s'
  settled : ∀ v, v ≠ w → Settled s v → Settled s' v

theorem Steady.trans {w : Nat} {s s₁ s' : Wm} (h : Steady w s s₁) (h' : Steady w s₁ s') : Steady w s s' :=
  ⟨fun hs => h'.shown (h.shown hs), fun v hv hs => h'.settled v hv (h.settled v hv hs)⟩

protected theorem Steady.refl (w : Nat) (s : Wm) : Steady w s s := ⟨id, fun _ _ => id⟩

/-! ## Focus -/

theorem Shown._focus {s : Wm} (h : Shown s) {f w : Nat} {win : Window} {tab : Tab} (ht : s.tabs[f]? = some tab)
    (hown : tab.window = w) (hw : s.windows[w]? = some win) (hf : win.focused = some f) :
    Shown (Tab._focus f s) where
  attached := h.attached
  focus t tab' win' hft ht' _ hw' := by
    cases hft
    replace ht' : s.tabs[f]? = some tab' := ht'
    replace hw' : s.windows[tab'.window]? = some win' := hw'
    rw [ht, Option.some_inj] at ht'
    rw [← ht', hown, hw, Option.some_inj] at hw'
    rw [← hw', hf]
  bound t hft := by
    cases hft
    exact (List.getElem?_eq_some_iff.1 ht).1

theorem Shown.switch {s : Wm} (hl : Listed s) (h : Shown s) {t : Nat} {tab : Tab} {win : Window}
    (ht : s.tabs[t]? = some tab) (hw : s.windows[tab.window]? = some win) :
    Shown (Tab._focus t (Tab.switch t tab.window win s)) where
  attached v win' hv' u hu' x' hx' := by
    replace hx' : (Tab.switch t tab.window win s).tabs[u]? = some x' := hx'
    replace hv' : (Tab.switch t tab.window win s).windows[v]? = some win' := hv'
    rw [Tab.switch_tabs] at hx'
    rw [Tab.switch_windows] at hv'
    obtain ⟨x, hx, rfl⟩ := Option.map_eq_some_iff.1 hx'
    obtain ⟨win₀, hv, rfl⟩ := Option.map_eq_some_iff.1 hv'
    have hu : u ∈ win₀.tabs := by split at hu' <;> exact hu'
    have hown : x.window = v := hl.window_of_mem hv hu hx
    have hold := h.attached v win₀ hv u hu x hx
    by_cases hvt : v = tab.window
    · subst hvt
      rw [hw, Option.some_inj] at hv
      subst hv
      by_cases hut : u = t
      · simp [hut]
      · by_cases hf : win.focused = some u
        · simp [hut, hf, Ne.symm hut]
        · simp [hut, hf, Ne.symm hut, hold]
    · -- neither the tab nor the one it replaces is of this window
      have hut : u ≠ t := by
        rintro rfl
        rw [hx, Option.some_inj] at ht
        exact hvt (ht ▸ hown.symm)
      have hf : win.focused ≠ some u := by
        intro hf
        obtain ⟨x₁, hx₁, hown₁⟩ := hl.focused _ win u hw hf
        rw [hx, Option.some_inj] at hx₁
        exact hvt (by rw [← hown, hx₁, hown₁])
      simpa [hut, hf, hvt] using hold
  focus u x win' hu hx _ hv := by
    cases hu
    replace hx : (Tab.switch t tab.window win s).tabs[t]? = some x := hx
    replace hv : (Tab.switch t tab.window win s).windows[x.window]? = some win' := hv
    rw [Tab.switch_tabs, ht] at hx
    cases hx
    rw [Tab.switch_windows, hw] at hv
    cases hv
    simp
  bound u hu := by
    cases hu
    show t < (Tab.switch t tab.window win s).tabs.length
    rw [Tab.switch_tabs_length]
    exact (List.getElem?_eq_some_iff.1 ht).1

theorem Shown.focusOn {s : Wm} (hl : Listed s) (h : Shown s) {t : Nat} {tab : Tab} {win : Window}
    (ht : s.tabs[t]? = some tab) (hw : s.windows[tab.window]? = some win) :
    Shown (Tab.focusOn t tab win s) := by
  unfold Tab.focusOn Tab.take
  split
  · exact h
  split
  · exact h._focus ht rfl hw ‹_›
  · exact Shown.switch hl h ht hw

theorem Settled.focusOn {s : Wm} {v : Nat} (h : Settled s v) {t : Nat} {tab : Tab} (win : Window)
    (hv : v ≠ tab.window) : Settled (Tab.focusOn t tab win s) v := by
  obtain ⟨win', f, hw, hf, hmem⟩ := h
  refine ⟨win', f, ?_, hf, hmem⟩
  unfold Tab.focusOn Tab.take
  split
  · exact hw
  split
  · exact hw
  · show (Tab.switch t tab.window win s).windows[v]? = _
    simp [Tab.switch_windows, hw, hv]

/-- A live tab that is focused is the focused one of its window. -/
theorem Settled.of_focusOn {s : Wm} (h : Shown s) {t : Nat} {tab : Tab} {win : Window}
    (ht : s.tabs[t]? = some tab) (hd : tab.destroyed = false) (hw : s.windows[tab.window]? = some win)
    (hmem : t ∈ win.tabs) : Settled (Tab.focusOn t tab win s) tab.window := by
  unfold Tab.focusOn Tab.take
  split
  · exact ⟨win, t, hw, h.focus t tab win ‹_› ht hd hw, hmem⟩
  split
  · exact ⟨win, t, hw, ‹_›, hmem⟩
  · refine ⟨{ win with focused := some t }, t, ?_, rfl, hmem⟩
    show (Tab.switch t tab.window win s).windows[tab.window]? = _
    simp [Tab.switch_windows, hw]

theorem Steady._focus {s : Wm} (w : Nat) {f v : Nat} {win : Window} {tab : Tab} (ht : s.tabs[f]? = some tab)
    (hown : tab.window = v) (hw : s.windows[v]? = some win) (hf : win.focused = some f) :
    Steady w s (Tab._focus f s) :=
  ⟨fun h => h._focus ht hown hw hf, fun _ _ h => h⟩

theorem Steady.focusOn {s : Wm} (hl : Listed s) {t : Nat} {tab : Tab} {win : Window}
    (ht : s.tabs[t]? = some tab) (hw : s.windows[tab.window]? = some win) :
    Steady tab.window s (Tab.focusOn t tab win s) :=
  ⟨fun h => h.focusOn hl ht hw, fun _ hv h => h.focusOn win hv⟩

/-! ## Teardown -/

theorem Steady.emit (w : Nat) (e : Event) (s : Wm) : Steady w s (s.emit e) :=
  ⟨fun h => ⟨h.attached, h.focus, h.bound⟩, fun _ _ h => h⟩

theorem Settled.close {s : Wm} {u : Nat} (h : Settled s u) (w : Nat) : Settled (Window.close w s) u := by
  obtain ⟨win, f, hw, hf, hmem⟩ := h
  refine ⟨_, f, by rw [Window.close_windows, hw]; rfl, ?_, ?_⟩
  · split <;> exact hf
  · split <;> exact hmem

theorem Steady.close (w v : Nat) (s : Wm) : Steady w s (Window.close v s) := by
  refine ⟨fun h => ⟨fun u win' hu t hmem tab ht => ?_, fun t tab win' hf ht hd hu => ?_, h.bound⟩,
    fun u _ h => h.close v⟩
  · rw [Window.close_windows] at hu
    obtain ⟨win, hw, rfl⟩ := Option.map_eq_some_iff.1 hu
    have := h.attached u win hw t (by split at hmem <;> exact hmem) tab ht
    split <;> exact this
  · rw [Window.close_windows] at hu
    obtain ⟨win, hw, rfl⟩ := Option.map_eq_some_iff.1 hu
    have := h.focus t tab win hf ht hd hw
    split <;> exact this

/-- A window that does not lose its focused tab stays settled. -/
theorem Settled.remove {s : Wm} (hl : Listed s) {t w : Nat} {tab : Tab} {win : Window}
    (ht : s.tabs[t]? = some tab) (hw : s.windows[w]? = some win) (hf : win.focused ≠ some t) (h : Settled s w) :
    Settled (Tab.remove t tab s) w := by
  obtain ⟨win', f, hw', hf', hmem⟩ := h
  rw [hw, Option.some_inj] at hw'
  subst hw'
  refine ⟨{ win with tabs := win.tabs.filter (· ≠ t) }, f, by rw [hl.remove_windows ht, hw]; rfl, hf', ?_⟩
  have hft : f ≠ t := fun he => hf (he ▸ hf')
  simpa [hft] using hmem

theorem Steady.remove {s : Wm} (hl : Listed s) {t : Nat} {tab : Tab} (ht : s.tabs[t]? = some tab) :
    Steady tab.window s (Tab.remove t tab s) := by
  refine ⟨fun h => ⟨fun v win' hv' u hu' x' hx' => ?_, fun u x' win' hf hx' hd hv' => ?_, fun u hf => ?_⟩,
    fun v hv h => ?_⟩
  · rw [hl.remove_windows ht] at hv'
    obtain ⟨win, hv, rfl⟩ := Option.map_eq_some_iff.1 hv'
    rw [Tab.remove_tabs] at hx'
    obtain ⟨x, hx, rfl⟩ := Option.map_eq_some_iff.1 hx'
    obtain ⟨hu, hut⟩ : u ∈ win.tabs ∧ u ≠ t := by simpa using hu'
    rw [if_neg hut]
    exact h.attached v win hv u hu x hx
  · rw [hl.remove_windows ht] at hv'
    obtain ⟨win, hv, rfl⟩ := Option.map_eq_some_iff.1 hv'
    rw [Tab.remove_tabs] at hx'
    obtain ⟨x, hx, rfl⟩ := Option.map_eq_some_iff.1 hx'
    by_cases hut : u = t
    · simp [hut] at hd
    · rw [if_neg hut] at hd hv
      exact h.focus u x win hf hx hd hv
  · rw [(Cascade.remove hl ht).tabs]
    exact h.bound u hf
  · obtain ⟨win, f, hw, hf, hmem⟩ := h
    refine Settled.remove hl ht hw (fun hft => ?_) ⟨win, f, hw, hf, hmem⟩
    obtain ⟨tab', ht', hown⟩ := hl.focused v win t hw hft
    rw [ht, Option.some_inj] at ht'
    exact hv (ht' ▸ hown.symm)

end Tangle.Wm
