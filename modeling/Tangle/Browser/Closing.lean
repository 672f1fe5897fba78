/-
What `Tab.destroy` and `Window.destroy` do besides what they do to `Wm`. The listeners of every tab that goes
are dropped before its 'close' is emitted, so nothing is called; the window that closes, if one does, is
minimized first, when its tabs are still there or, with its last tab, when they are gone.
-/
import Tangle.Browser.Screen

namespace Tangle.Screen

open EventEmitter (Listener)

/-- The listeners of these tabs are dropped. -/
def silence (ts : List Nat) (events : List Events) : List Events :=
  ts.foldl (fun events t => events.modify t fun _ _ => []) events

theorem silence_getElem? (ts : List Nat) (events : List Events) (u : Nat) :
    (silence ts events)[u]? = events[u]?.map fun ev => if u ∈ ts then fun _ => [] else ev := by
  unfold silence
  induction ts generalizing events with
  | nil => simp
  | cons t ts ih =>
    rw [List.foldl_cons, ih, List.getElem?_modify]
    cases events[u]? with
    | none => rfl
    | some ev =>
      by_cases hu : u = t
      · simp [hu]
      · by_cases hmem : u ∈ ts <;> simp [hu, hmem, Ne.symm hu]

@[simp] theorem silence_length (ts : List Nat) (events : List Events) :
    (silence ts events).length = events.length := by
  unfold silence
  induction ts generalizing events with
  | nil => rfl
  | cons t ts ih => rw [List.foldl_cons, ih, List.length_modify]

theorem tabs_eq {wm : Wm} {w : Nat} {win : Wm.Window} (hw : wm.windows[w]? = some win) : tabs wm w = win.tabs := by
  unfold tabs
  rw [hw]
  rfl

/-- Of `Wm`, minimizing reads the tabs of the window. -/
theorem Window.minimize_wm (w : Nat) (s : Screen) (wm : Wm) : Window.minimize w { s with wm } =
    { Window.minimize w s with
      wm, sizes := ((s.saved w).map fun m => resizeAll (tabs wm w) m.toSize s.sizes).getD s.sizes } := by
  cases h : s.saved w with
  | none =>
    rw [Window.minimize_of_none h, Window.minimize_of_none (s := { s with wm }) h]
    rfl
  | some m =>
    rw [Window.minimize_of_some h, Window.minimize_of_some (s := { s with wm }) h]
    rfl

theorem Window.minimize_sizes (w : Nat) (s : Screen) : (Window.minimize w s).sizes =
    ((s.saved w).map fun m => resizeAll (tabs s.wm w) m.toSize s.sizes).getD s.sizes := by
  cases h : s.saved w with
  | none => rw [Window.minimize_of_none h]; rfl
  | some m => rw [Window.minimize_of_some h]; rfl

/-! ## Tabs -/

section Tabs

variable {s : Screen} {t : Nat} {tab : Wm.Tab}

theorem Tab._destroy_eq {wm₁ : Wm} {win₁ : Wm.Window} (ht : s.wm.tabs[t]? = some tab) (hd : tab.destroyed = false)
    {n : Nat} (hleave : Wm.Tab.leave n t tab s.wm = some wm₁) (hw₁ : wm₁.windows[tab.window]? = some win₁) :
    Tab._destroy (n + 1) t s =
      (if win₁.tabs = [] then Window.destroy n tab.window { s with wm := wm₁ } else some { s with wm := wm₁ }).map
        (Terminal.destroy t) := by
  have hlift : lift (Wm.Tab.leave n t tab) s = some { s with wm := wm₁ } := by
    unfold lift
    rw [hleave]
    rfl
  simp only [Tab._destroy, ht, hd, hlift, hw₁, Option.bind_eq_bind, Option.bind_some, Bool.false_eq_true, if_false,
    Option.pure_def]
  split
  · exact Option.map_eq_bind.symm
  · rfl

/-- When a tab announces that it is closed nobody listens any more. -/
theorem Tab.destroy_eq {s' : Screen} (ht : s.wm.tabs[t]? = some tab) (hd : tab.destroyed = false) {n : Nat}
    (hcall : Tab._destroy n t { s with wm := s.wm.emit (.kill t) } = some (Terminal.destroy t s')) :
    Tab.destroy (n + 1) t s = some { Terminal.destroy t s' with wm := s'.wm.emit (.closeTab t) } := by
  have hsilent : Tab.emit t .closed { Terminal.destroy t s' with wm := s'.wm.emit (.closeTab t) } =
      ({ Terminal.destroy t s' with wm := s'.wm.emit (.closeTab t) }, false) := by
    refine Tab.emit_of_nil fun ev hev => ?_
    replace hev : (s'.events.modify t fun _ _ => [])[t]? = some ev := hev
    rw [List.getElem?_modify_eq] at hev
    obtain ⟨_, -, rfl⟩ := Option.map_eq_some_iff.1 hev
    rfl
  unfold Tab.destroy
  simp only [ht, hd, hcall, Option.bind_eq_bind, Option.bind_some, Bool.false_eq_true, if_false, Option.pure_def]
  show (if (Tab.emit t .closed { Terminal.destroy t s' with wm := s'.wm.emit (.closeTab t) }).2 = true then none
    else some (Tab.emit t .closed { Terminal.destroy t s' with wm := s'.wm.emit (.closeTab t) }).1) = _
  rw [hsilent]
  rfl

/-- The tab is dead already. -/
theorem Tab.destroy_of_dead (ht : s.wm.tabs[t]? = some tab) (hd : tab.destroyed = true) (n : Nat) :
    Tab.destroy (n + 1) t s = some s := by
  unfold Tab.destroy
  simp [ht, hd]

theorem Window.destroy_of_dead {w : Nat} {win : Wm.Window} (hw : s.wm.windows[w]? = some win)
    (hd : win.destroyed = true) (n : Nat) : Window.destroy (n + 1) w s = some s := by
  unfold Window.destroy
  simp [hw, hd]

/-- The tab goes alone if its window is destroyed or has other tabs. -/
theorem Tab.destroy_alone (hl : Wm.Listed s.wm) (ht : s.wm.tabs[t]? = some tab) (hd : tab.destroyed = false)
    {win : Wm.Window} (hw : s.wm.windows[tab.window]? = some win)
    (halone : win.destroyed = true ∨ win.tabs.filter (· ≠ t) ≠ []) (n : Nat) :
    ∃ wm', Wm.Tab.destroy (n + 5) t s.wm = some wm' ∧
      Tab.destroy (n + 5) t s = some { s with wm := wm', events := silence [t] s.events } := by
  have hl₀ : Wm.Listed (s.wm.emit (.kill t)) := hl.cascade (.emit (.kill t) s.wm)
  obtain ⟨wm₁, win₁, hleave, hw₁, hc, -⟩ := Wm.Tab.leave_eq (s := s.wm.emit (.kill t)) hl₀ ht hd n
  obtain ⟨win', hw', htabs, hwd, -⟩ := hc.window_of hw₁
  replace hw' : s.wm.windows[tab.window]? = some win' := hw'
  rw [hw, Option.some_inj] at hw'
  subst hw'
  replace htabs : win₁.tabs = win.tabs.filter (· ≠ t) := by simpa using htabs
  have hwd₁ : win₁.tabs = [] → win₁.destroyed = true := by
    intro hnil
    have : win.destroyed = true := halone.resolve_right fun h => h (htabs ▸ hnil)
    rw [hwd, this]
    rfl
  have hwm : Wm.Tab._destroy (n + 4) t (s.wm.emit (.kill t)) = some wm₁ := by
    rw [Wm.Tab._destroy_eq (s := s.wm.emit (.kill t)) ht hd hleave hw₁]
    split
    · exact Wm.Window.destroy_of_destroyed hw₁ (hwd₁ ‹_›) (n + 2)
    · rfl
  have hcall : Tab._destroy (n + 4) t { s with wm := s.wm.emit (.kill t) } =
      some (Terminal.destroy t { s with wm := wm₁ }) := by
    rw [Tab._destroy_eq (s := { s with wm := s.wm.emit (.kill t) }) ht hd hleave hw₁]
    split
    · rw [Window.destroy_of_dead (s := { s with wm := wm₁ }) hw₁ (hwd₁ ‹_›) (n + 2)]
      rfl
    · rfl
  refine ⟨wm₁.emit (.closeTab t), ?_, ?_⟩
  · unfold Wm.Tab.destroy
    simp [ht, hd, hwm]
  · exact Tab.destroy_eq ht hd hcall

end Tabs

/-! ## Windows -/

theorem Window.eachFrom_eq (n : Nat) : ∀ (i : Nat) {s : Screen} {w : Nat} {win : Wm.Window}, Wm.Listed s.wm →
    s.wm.windows[w]? = some win → win.destroyed = true → win.tabs.length = i →
    ∃ wm', Wm.Window.eachFrom (Wm.Tab.destroy (n + 5)) w i s.wm = some wm' ∧
      Window.eachFrom (Tab.destroy (n + 5)) w i s =
        some { s with wm := wm', events := silence win.tabs.reverse s.events } := by
  intro i
  induction i with
  | zero =>
    intro s w win _ hw _ hlen
    rw [List.length_eq_zero_iff.1 hlen]
    exact ⟨s.wm, rfl, rfl⟩
  | succ i ih =>
    intro s w win hl hw hwd hlen
    obtain hnil | ⟨l, t, hlt⟩ := List.eq_nil_or_concat' win.tabs
    · simp [hnil] at hlen
    have hi : l.length = i := by simpa [hlt] using hlen
    have hget : win.tabs[i]? = some t := by rw [hlt, ← hi, List.getElem?_concat_length]
    have htl : t ∉ l := by
      have := hl.nodup w win hw
      rw [hlt] at this
      simpa using (List.nodup_append.1 this).2.2 t
    have hfilter : win.tabs.filter (· ≠ t) = l := by
      rw [hlt, List.filter_append]
      simpa using fun u hu => fun he : u = t => htl (he ▸ hu)
    obtain ⟨tab, ht, rfl, hd⟩ := (hl.tabs w win hw t).1 (by rw [hlt]; simp)
    obtain ⟨wm₁, hwm, hcall⟩ := Tab.destroy_alone hl ht hd hw (.inl hwd) n
    obtain ⟨wm₁', hwm', hc, -⟩ := Wm.Tab.destroy_of_closing hl ht hd hw hwd n
    rw [hwm, Option.some_inj] at hwm'
    subst hwm'
    obtain ⟨f, hw₁, -⟩ := hc.window _ _ hw
    have hl₁ : win.tabs.filter (fun u => decide (u ∉ [t])) = l := by simpa using hfilter
    rw [hl₁] at hw₁
    obtain ⟨wm', hwm', hcall'⟩ := @ih { s with wm := wm₁, events := silence [t] s.events } _ _ (hl.cascade hc) hw₁
      (by simp [hwd]) hi
    refine ⟨wm', ?_, ?_⟩
    · simp [Wm.Window.eachFrom, hw, hget, hwm, hwm']
    · simp only [Window.eachFrom, tabs_eq hw, hget, hcall, hcall', Option.bind_eq_bind, Option.bind_some]
      rw [hlt, List.reverse_append]
      rfl

/-- A live window is minimized, and its tabs fall silent. -/
theorem Window.destroy_eq {s : Screen} (hl : Wm.Listed s.wm) (ha : Wm.Aims s.wm) {w : Nat} {win : Wm.Window}
    (hw : s.wm.windows[w]? = some win) (hd : win.destroyed = false) (n : Nat) :
    ∃ wm', Wm.Window.destroy (n + 6) w s.wm = some wm' ∧
      Window.destroy (n + 6) w s =
        some { Window.minimize w s with wm := wm', events := silence win.tabs.reverse s.events } := by
  have hc₁ := Wm.Cascade.close hl.opened w
  have hw₁ : (Wm.Window.close w s.wm).windows[w]? = some { win with destroyed := true } := by
    rw [Wm.Window.close_windows, hw]; simp
  obtain ⟨wm₁, hfirst, hc₂, -, hsame, -⟩ := Wm.focusFirst_eq (hl.cascade hc₁) (ha.cascade hc₁) (n + 1)
  rw [← hsame] at hw₁
  have hc := hc₁.trans hc₂
  -- the tabs are those of the window that is marked as destroyed
  have hmin : Window.minimize w
      { s with wm := s.wm.modifyWindow w fun win => { win with destroyed := true } } =
      { Window.minimize w s with wm := s.wm.modifyWindow w fun win => { win with destroyed := true } } := by
    have htabs : tabs (s.wm.modifyWindow w fun win => { win with destroyed := true }) w = tabs s.wm w := by
      unfold tabs
      rw [Wm.modifyWindow_windows, hw]
      simp
    rw [Window.minimize_wm, htabs, ← Window.minimize_sizes]
  have hevents := (Window.minimize_keeps w s).events
  obtain ⟨wm', heach, hcall⟩ := @Window.eachFrom_eq n _ { Window.minimize w s with wm := wm₁ } _ _ (hl.cascade hc)
    hw₁ rfl rfl
  refine ⟨wm'.emit (.closeWindow w), ?_, ?_⟩
  · unfold Wm.Window.destroy Wm.Window.each
    simp [hw, hd, hfirst, hw₁, heach]
  · have hlift : lift (Wm.focusFirst (n + 5)) { Window.minimize w s with wm := Wm.Window.close w s.wm } =
        some { Window.minimize w s with wm := wm₁ } := by
      unfold lift
      rw [hfirst]
      rfl
    unfold Window.destroy
    simp only [hw, hd, Option.bind_eq_bind, Option.bind_some, Bool.false_eq_true, if_false, Option.pure_def, hmin]
    show (lift (Wm.focusFirst (n + 5)) { Window.minimize w s with wm := Wm.Window.close w s.wm }).bind _ = _
    rw [hlift]
    show (Window.eachFrom (Tab.destroy (n + 5)) w (tabs wm₁ w).length { Window.minimize w s with wm := wm₁ }).bind _ = _
    rw [tabs_eq hw₁, hcall]
    simp only [Option.bind_some, hevents]

/-- The last tab of an open window takes the window with it. -/
theorem Tab.destroy_last {s : Screen} (hl : Wm.Listed s.wm) (ha : Wm.Aims s.wm) {t : Nat} {tab : Wm.Tab}
    {win : Wm.Window} (ht : s.wm.tabs[t]? = some tab) (hd : tab.destroyed = false)
    (hw : s.wm.windows[tab.window]? = some win) (hwd : win.destroyed = false)
    (hnil : win.tabs.filter (· ≠ t) = []) (n : Nat) :
    ∃ wm', Wm.Tab.destroy (n + 8) t s.wm = some wm' ∧
      Tab.destroy (n + 8) t s = some { Window.minimize tab.window s with
        wm := wm', sizes := s.sizes, events := silence [t] s.events } := by
  have hl₀ : Wm.Listed (s.wm.emit (.kill t)) := hl.cascade (.emit (.kill t) s.wm)
  obtain ⟨wm₁, win₁, hleave, hw₁, hc, -⟩ := Wm.Tab.leave_eq (s := s.wm.emit (.kill t)) hl₀ ht hd (n + 3)
  obtain ⟨win', hw', htabs, hwd₁, -⟩ := hc.window_of hw₁
  replace hw' : s.wm.windows[tab.window]? = some win' := hw'
  rw [hw, Option.some_inj] at hw'
  subst hw'
  replace htabs : win₁.tabs = [] := by simpa using htabs.trans (by simpa using hnil)
  obtain ⟨wm₂, hwm, hcall⟩ := @Window.destroy_eq { s with wm := wm₁ } (hl₀.cascade hc)
    ((Wm.Aims.cascade ha (.emit (.kill t) s.wm)).cascade hc) tab.window win₁ hw₁ (by simpa [hwd] using hwd₁) n
  have hmin : Window.minimize tab.window { s with wm := wm₁ } =
      { Window.minimize tab.window s with wm := wm₁, sizes := s.sizes } := by
    rw [Window.minimize_wm, tabs_eq hw₁, htabs]
    cases s.saved tab.window <;> rfl
  have hevents := (Window.minimize_keeps tab.window s).events
  rw [htabs, hmin] at hcall
  refine ⟨wm₂.emit (.closeTab t), ?_, ?_⟩
  · have hcall₂ := Wm.Tab._destroy_eq (s := s.wm.emit (.kill t)) ht hd hleave hw₁
    rw [if_pos htabs, hwm] at hcall₂
    unfold Wm.Tab.destroy
    simp [ht, hd, hcall₂]
  · have hcall₂ := Tab._destroy_eq (s := { s with wm := s.wm.emit (.kill t) }) ht hd hleave hw₁
    rw [if_pos htabs, hcall] at hcall₂
    exact Tab.destroy_eq ht hd hcall₂

end Tangle.Screen
