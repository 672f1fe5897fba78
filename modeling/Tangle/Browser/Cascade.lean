/-
What tearing down tabs and windows changes. Each part of it destroys some tabs, closes some windows
and announces some events, which `Cascade` says; parts that follow each other add up. In between the
lists of tabs and windows are right, but a window may be open without tabs or closed with some.
-/
import Tangle.Browser.Windows

namespace Tangle.Wm

/-- The lists of the windows hold the live tabs, each in its own window, and `tty.windows` holds the
live windows. -/
structure Listed (s : Wm) : Prop where
  opened : s.opened.Nodup
  flag : ∀ w : Nat, w ∈ s.opened ↔ ∃ win, s.windows[w]? = some win ∧ win.destroyed = false
  nodup : ∀ (w : Nat) (win : Window), s.windows[w]? = some win → win.tabs.Nodup
  tabs : ∀ (w : Nat) (win : Window), s.windows[w]? = some win →
    ∀ t : Nat, t ∈ win.tabs ↔ ∃ tab, s.tabs[t]? = some tab ∧ tab.window = w ∧ tab.destroyed = false
  window : ∀ (t : Nat) (tab : Tab), s.tabs[t]? = some tab → ∃ win, s.windows[tab.window]? = some win
  focused : ∀ (w : Nat) (win : Window) (f : Nat), s.windows[w]? = some win → win.focused = some f →
    ∃ tab, s.tabs[f]? = some tab ∧ tab.window = w

theorem Listed.window_of_mem {s : Wm} (h : Listed s) {w t : Nat} {win : Window} {tab : Tab}
    (hw : s.windows[w]? = some win) (hmem : t ∈ win.tabs) (ht : s.tabs[t]? = some tab) : tab.window = w := by
  obtain ⟨tab', ht', hown, -⟩ := (h.tabs w win hw t).1 hmem
  rw [ht, Option.some_inj] at ht'
  rw [ht', hown]

/-- A removed tab leaves every list it is in, which is only its window's. -/
theorem Listed.remove_windows {s : Wm} (h : Listed s) {t : Nat} {tab : Tab}
    (ht : s.tabs[t]? = some tab) (w : Nat) : (Tab.remove t tab s).windows[w]? =
      s.windows[w]?.map fun win => { win with tabs := win.tabs.filter (· ≠ t) } := by
  rw [Tab.remove_windows]
  cases hw : s.windows[w]? with
  | none => rfl
  | some win =>
    by_cases hwt : w = tab.window
    · simp [hwt, splice_eq (h.nodup w win hw)]
    · have hnot : t ∉ win.tabs := by
        intro hmem
        exact hwt (h.window_of_mem hw hmem ht).symm
      have hsame : win.tabs.filter (fun u => !decide (u = t)) = win.tabs :=
        List.filter_eq_self.2 fun u hu => by simpa using fun he : u = t => hnot (he ▸ hu)
      simp [hwt, hsame]

/-- The properties of `tty.terms` that the ids of these tabs name. -/
def keys (s : Wm) (D : List Nat) : List String := D.filterMap fun t => s.tabs[t]?.map fun tab => tab.key

/-- From `s` to `s'` the tabs `D` are destroyed, the windows `W` closed and the events `new` emitted; besides,
only the focus and the places of elements may differ. -/
structure Cascade (s s' : Wm) (D W : List Nat) (new : List Event) : Prop where
  tabs : s'.tabs.length = s.tabs.length
  tab : ∀ (t : Nat) (tab : Tab), s.tabs[t]? = some tab →
    ∃ p, s'.tabs[t]? = some { tab with destroyed := tab.destroyed || decide (t ∈ D), parent := p }
  windows : s'.windows.length = s.windows.length
  window : ∀ (w : Nat) (win : Window), s.windows[w]? = some win →
    ∃ f, s'.windows[w]? = some ⟨win.tabs.filter (· ∉ D), f, win.destroyed || decide (w ∈ W)⟩ ∧
      (f = win.focused ∨ ∃ (u : Nat) (tab : Tab), f = some u ∧ s.tabs[u]? = some tab ∧ tab.window = w)
  opened : s'.opened = s.opened.filter (· ∉ W)
  terms : s'.terms = OrdHash.eraseAll (s.keys D) s.terms
  trace : s'.trace = s.trace ++ new

namespace Cascade

variable {s s₁ s' : Wm} {D D' W W' : List Nat} {new new' : List Event}

/-- Each tab after comes from one before. -/
theorem tab_of (h : Cascade s s' D W new) {t : Nat} {tab' : Tab} (ht : s'.tabs[t]? = some tab') :
    ∃ tab, s.tabs[t]? = some tab ∧ ∃ p,
      tab' = { tab with destroyed := tab.destroyed || decide (t ∈ D), parent := p } := by
  have hlt : t < s.tabs.length := by
    rw [← h.tabs]
    exact (List.getElem?_eq_some_iff.1 ht).1
  obtain ⟨p, hp⟩ := h.tab t _ (List.getElem?_eq_getElem hlt)
  rw [ht, Option.some_inj] at hp
  exact ⟨_, List.getElem?_eq_getElem hlt, p, hp⟩

theorem window_of (h : Cascade s s' D W new) {w : Nat} {win' : Window} (hw : s'.windows[w]? = some win') :
    ∃ win, s.windows[w]? = some win ∧ win'.tabs = win.tabs.filter (· ∉ D) ∧
      win'.destroyed = (win.destroyed || decide (w ∈ W)) ∧ (win'.focused = win.focused ∨
        ∃ (u : Nat) (tab : Tab), win'.focused = some u ∧ s.tabs[u]? = some tab ∧ tab.window = w) := by
  have hlt : w < s.windows.length := by
    rw [← h.windows]
    exact (List.getElem?_eq_some_iff.1 hw).1
  obtain ⟨f, hf, hor⟩ := h.window w _ (List.getElem?_eq_getElem hlt)
  rw [hw, Option.some_inj] at hf
  subst hf
  exact ⟨_, List.getElem?_eq_getElem hlt, rfl, rfl, hor⟩

theorem keys (h : Cascade s s' D W new) (ts : List Nat) : s'.keys ts = s.keys ts := by
  unfold Wm.keys
  congr 1
  funext t
  cases ht' : s'.tabs[t]? with
  | some tab' =>
    obtain ⟨tab, ht, p, rfl⟩ := h.tab_of ht'
    rw [ht]; rfl
  | none =>
    cases ht : s.tabs[t]? with
    | none => rfl
    | some tab =>
      obtain ⟨p, hp⟩ := h.tab t tab ht
      rw [hp] at ht'; cases ht'

theorem trans (h : Cascade s s₁ D W new) (h' : Cascade s₁ s' D' W' new') :
    Cascade s s' (D ++ D') (W ++ W') (new ++ new') where
  tabs := h'.tabs.trans h.tabs
  tab t tab ht := by
    obtain ⟨p, hp⟩ := h.tab t tab ht
    obtain ⟨q, hq⟩ := h'.tab t _ hp
    refine ⟨q, hq.trans ?_⟩
    simp [Bool.or_assoc]
  windows := h'.windows.trans h.windows
  window w win hw := by
    obtain ⟨f, hf, hor⟩ := h.window w win hw
    obtain ⟨g, hg, hor'⟩ := h'.window w _ hf
    refine ⟨g, hg.trans ?_, ?_⟩
    · simp [Bool.or_assoc, List.filter_filter, Bool.and_comm]
    · rcases hor' with rfl | ⟨u, tab', rfl, hu, rfl⟩
      · exact hor
      · obtain ⟨tab, ht, p, rfl⟩ := h.tab_of hu
        exact .inr ⟨u, tab, rfl, ht, rfl⟩
  opened := by
    rw [h'.opened, h.opened, List.filter_filter]
    exact List.filter_congr fun w _ => by simp [Bool.and_comm]
  terms := by
    rw [h'.terms, h.terms, h.keys, ← OrdHash.eraseAll_append]
    exact congrArg (OrdHash.eraseAll · s.terms) List.filterMap_append.symm
  trace := by rw [h'.trace, h.trace, List.append_assoc]

protected theorem refl (s : Wm) : Cascade s s [] [] [] where
  tabs := rfl
  tab t tab ht := ⟨tab.parent, by simpa using ht⟩
  windows := rfl
  window w win hw := ⟨win.focused, by simpa using hw, .inl rfl⟩
  opened := by simp
  terms := rfl
  trace := by simp

/-! ## Parts of a teardown -/

theorem emit (e : Event) (s : Wm) : Cascade s (s.emit e) [] [] [e] :=
  { Cascade.refl s with trace := rfl }

theorem _focus (t : Nat) (s : Wm) : Cascade s (Tab._focus t s) [] [] [] :=
  { Cascade.refl s with trace := by simp }

theorem focusOn {t : Nat} {tab : Tab} (ht : s.tabs[t]? = some tab) (win : Window) :
    Cascade s (Tab.focusOn t tab win s) [] [] [] := by
  unfold Tab.focusOn Tab.take
  split
  · exact .refl s
  split
  · exact ._focus t s
  refine ⟨by simp, fun u x hu => ⟨_, by simp [Tab.switch_tabs, hu]; rfl⟩, by simp, fun w win' hw' => ?_,
    by simp, Tab.switch_terms t tab.window win s, by simp⟩
  by_cases hwt : w = tab.window
  · subst hwt
    exact ⟨some t, by simp [Tab.switch_windows, hw'], .inr ⟨t, tab, rfl, ht, rfl⟩⟩
  · exact ⟨win'.focused, by simp [Tab.switch_windows, hw', hwt], .inl rfl⟩

theorem remove (h : Listed s) {t : Nat} {tab : Tab} (ht : s.tabs[t]? = some tab) :
    Cascade s (Tab.remove t tab s) [t] [] [] where
  tabs := by simp [Tab.remove, modifyTab, modifyWindow]
  tab u x hu := by
    refine ⟨if u = t then none else x.parent, ?_⟩
    rw [Tab.remove_tabs, hu]
    by_cases hut : u = t <;> simp [hut]
  windows := by simp [Tab.remove, modifyTab, modifyWindow]
  window w win hw := ⟨win.focused, by rw [h.remove_windows ht, hw]; simp, .inl rfl⟩
  opened := by simp [Tab.remove, modifyTab, modifyWindow]
  terms := by
    have hkey : s.keys [t] = [tab.key] := by simp [Wm.keys, ht]
    rw [hkey]
    rfl
  trace := by simp [Tab.remove, modifyTab, modifyWindow]

theorem close (h : s.opened.Nodup) (w : Nat) : Cascade s (Window.close w s) [] [w] [] where
  tabs := rfl
  tab t tab ht := ⟨tab.parent, by simpa using (show (Window.close w s).tabs[t]? = some tab from ht)⟩
  windows := by simp [Window.close, modifyWindow]
  window v win hv := by
    refine ⟨win.focused, ?_, .inl rfl⟩
    rw [Window.close_windows, hv]
    by_cases hwv : v = w <;> simp [hwv]
  opened := by
    show splice s.opened w = _
    rw [splice_eq h]
    simp
  terms := rfl
  trace := by simp [Window.close, modifyWindow]

end Cascade

/-- What is listed stays so, whatever is torn down. -/
theorem Listed.cascade {s s' : Wm} {D W : List Nat} {new : List Event} (hl : Listed s)
    (h : Cascade s s' D W new) : Listed s' where
  opened := by
    rw [h.opened]
    exact hl.opened.filter _
  flag w := by
    rw [h.opened, List.mem_filter, hl.flag]
    constructor
    · rintro ⟨⟨win, hw, hd⟩, hW⟩
      obtain ⟨f, hf, -⟩ := h.window w win hw
      exact ⟨_, hf, by simpa [hd] using hW⟩
    · rintro ⟨win', hw', hd'⟩
      obtain ⟨win, hw, -, hd, -⟩ := h.window_of hw'
      rw [hd', Bool.false_eq, Bool.or_eq_false_iff] at hd
      exact ⟨⟨win, hw, hd.1⟩, by simpa using hd.2⟩
  nodup w win' hw' := by
    obtain ⟨win, hw, ht, -⟩ := h.window_of hw'
    rw [ht]
    exact (hl.nodup w win hw).filter _
  tabs w win' hw' t := by
    obtain ⟨win, hw, ht, -⟩ := h.window_of hw'
    rw [ht, List.mem_filter, hl.tabs w win hw]
    constructor
    · rintro ⟨⟨tab, ht, hown, hd⟩, hD⟩
      obtain ⟨p, hp⟩ := h.tab t tab ht
      exact ⟨_, hp, hown, by simpa [hd] using hD⟩
    · rintro ⟨tab', ht', hown, hd'⟩
      obtain ⟨tab, ht, p, rfl⟩ := h.tab_of ht'
      replace hd' : (tab.destroyed || decide (t ∈ D)) = false := hd'
      rw [Bool.or_eq_false_iff] at hd'
      exact ⟨⟨tab, ht, hown, hd'.1⟩, by simpa using hd'.2⟩
  window t tab' ht' := by
    obtain ⟨tab, ht, p, rfl⟩ := h.tab_of ht'
    obtain ⟨win, hw⟩ := hl.window t tab ht
    obtain ⟨f, hf, -⟩ := h.window _ _ hw
    exact ⟨_, hf⟩
  focused w win' f hw' hf' := by
    obtain ⟨win, hw, -, -, hor⟩ := h.window_of hw'
    have hold : ∃ tab, s.tabs[f]? = some tab ∧ tab.window = w := by
      rcases hor with he | ⟨u, tab, he, hu, hown⟩
      · exact hl.focused w win f hw (he ▸ hf')
      · rw [hf', Option.some_inj] at he
        exact ⟨tab, he ▸ hu, hown⟩
    obtain ⟨tab, ht, hown⟩ := hold
    obtain ⟨p, hp⟩ := h.tab f tab ht
    exact ⟨_, hp, hown⟩

end Tangle.Wm
