/-
`Tab.destroy` and `Window.destroy`. A window that is destroyed focuses another one and destroys its own
tabs from the last to the first; each splices itself out of the list that is being walked, may focus a
sibling, and the first tab of the list, which is the last to go, calls the window's `destroy` again,
which returns. A tab that is the only one of an open window destroys the window, which then has no tabs
to go through.
-/
import Tangle.Browser.Focus
import Tangle.Lib.Machine

namespace Tangle.Wm

/-- Every open window has a focused tab, be it destroyed. -/
def Aims (s : Wm) : Prop := ∀ w ∈ s.opened, ∃ win f, s.windows[w]? = some win ∧ win.focused = some f

theorem Aims.cascade {s s' : Wm} {D W : List Nat} {new : List Event} (h : Aims s) (hc : Cascade s s' D W new) :
    Aims s' := by
  intro w hw
  rw [hc.opened] at hw
  obtain ⟨win, f, hwin, hf⟩ := h w (List.mem_of_mem_filter hw)
  obtain ⟨g, hg, rfl | ⟨u, tab, rfl, -⟩⟩ := hc.window w win hwin
  · exact ⟨_, f, hg, hf⟩
  · exact ⟨_, u, hg, rfl⟩

/-! ## The tab that takes over -/

theorem Window.focusTab_of_mem {s : Wm} (hl : Listed s) {w : Nat} {win : Window} (hw : s.windows[w]? = some win)
    (hne : win.tabs ≠ []) (next : Bool) (n : Nat) : ∃ t tab, t ∈ win.tabs ∧ s.tabs[t]? = some tab ∧
      tab.window = w ∧ tab.destroyed = false ∧
      Window.focusTab (n + 3) next w s = some (Tab.focusOn t tab win s) := by
  obtain ⟨t, hmem, htarget⟩ := Window.target_mem hne next
  obtain ⟨tab, ht, hown, hd⟩ := (hl.tabs w win hw t).1 hmem
  refine ⟨t, tab, hmem, ht, hown, hd, ?_⟩
  unfold Window.focusTab
  simp [hw, htarget, Tab.focus_eq ht (hown ▸ hw)]

theorem Window.focusTab_of_nil {s : Wm} {w f : Nat} {win : Window} {tab : Tab} (hw : s.windows[w]? = some win)
    (hnil : win.tabs = []) (hf : win.focused = some f) (ht : s.tabs[f]? = some tab) (hown : tab.window = w)
    (next : Bool) (n : Nat) : Window.focusTab (n + 3) next w s = some (Tab._focus f s) := by
  unfold Window.focusTab
  simp [hw, Window.target_nil hnil, hf, Tab.focus_eq ht (hown ▸ hw), Tab.focusOn_of_focused hf]

/-- After tab `t` was removed, a window that had it focused turns to another tab while there is one. -/
theorem Window.refocus {s : Wm} (hl : Listed s) {t w : Nat} {tab : Tab} {win : Window}
    (ht : s.tabs[t]? = some tab) (hown : tab.window = w) (hw : s.windows[w]? = some win) (n : Nat) :
    ∃ s', (if win.focused = some t then Window.previousTab (n + 3) w s else some s) = some s' ∧
      Cascade s s' [] [] [] ∧ Steady w s s' ∧ (win.focused ≠ some t → s' = s) ∧
      (win.focused = some t → win.tabs = [] → s'.focus = some t) ∧
      (win.focused = some t → win.tabs ≠ [] → Shown s → Settled s' w ∧ ∃ u ∈ win.tabs, s'.focus = some u) := by
  unfold Window.previousTab
  by_cases hf : win.focused = some t
  · rw [if_pos hf]
    by_cases hnil : win.tabs = []
    · exact ⟨_, Window.focusTab_of_nil hw hnil hf ht hown false n, ._focus t s, Steady._focus _ ht hown hw hf,
        fun h => absurd hf h, fun _ _ => rfl, fun _ h => absurd hnil h⟩
    · obtain ⟨u, x, hu, hx, rfl, hd, hcall⟩ := Window.focusTab_of_mem hl hw hnil false n
      exact ⟨_, hcall, .focusOn hx win, Steady.focusOn hl hx hw, fun h => absurd hf h, fun _ h => absurd h hnil,
        fun _ _ hs => ⟨Settled.of_focusOn hs hx hd hw hu, u, hu, Tab.focusOn_focus ..⟩⟩
  · rw [if_neg hf]
    exact ⟨s, rfl, .refl s, .refl _ s, fun _ => rfl, fun h => absurd h hf, fun h => absurd h hf⟩

/-- What `Tab._destroy` does before it looks whether the window has tabs left. -/
def Tab.leave (n t : Nat) (tab : Tab) (s : Wm) : Option Wm := do
  let s := Tab.remove t tab s
  let win ← s.windows[tab.window]?
  if win.focused = some t then Window.previousTab n tab.window s else some s

theorem Tab.leave_eq {s : Wm} (hl : Listed s) {t : Nat} {tab : Tab} (ht : s.tabs[t]? = some tab)
    (hd : tab.destroyed = false) (n : Nat) : ∃ s₁ win₁, Tab.leave (n + 3) t tab s = some s₁ ∧
      s₁.windows[tab.window]? = some win₁ ∧ Cascade s s₁ [t] [] [] ∧ Steady tab.window s s₁ ∧
      (Shown s → Settled s tab.window →
        (win₁.tabs = [] → s₁.focus = some t) ∧
        (win₁.tabs ≠ [] → Settled s₁ tab.window ∧
          (s₁.focus = s.focus ∧ s.focus ≠ some t ∨ ∃ u ∈ win₁.tabs, s₁.focus = some u))) := by
  obtain ⟨win, hw⟩ := hl.window t tab ht
  have hcr := Cascade.remove hl ht
  have hst := Steady.remove hl ht
  have hw₂ := hl.remove_windows ht tab.window
  rw [hw, Option.map_some] at hw₂
  have hset : win.focused ≠ some t → Settled s tab.window → Settled (Tab.remove t tab s) tab.window :=
    fun hf h => Settled.remove hl ht hw hf h
  have hfocus : (Tab.remove t tab s).focus = s.focus := rfl
  obtain ⟨p, ht₂⟩ := hcr.tab t tab ht
  obtain ⟨s₁, hcall, hc, hsteady, hsame, hlast, hnext⟩ := Window.refocus (hl.cascade hcr) ht₂ rfl hw₂ n
  obtain ⟨f, hw₁, -⟩ := hc.window _ _ hw₂
  simp only [List.not_mem_nil, not_false_eq_true, decide_true, List.filter_true] at hw₁
  have hleave : Tab.leave (n + 3) t tab s = some s₁ := by
    unfold Tab.leave
    simp only [hw₂, Option.bind_eq_bind, Option.bind_some]
    exact hcall
  refine ⟨s₁, _, hleave, hw₁, hcr.trans hc, hst.trans hsteady, fun hs hset₀ => ⟨fun hnil => ?_, fun hne => ?_⟩⟩
  · obtain ⟨win', f, hw', hf, hmem⟩ := hset₀
    rw [hw, Option.some_inj] at hw'
    subst hw'
    replace hnil : win.tabs.filter (· ≠ t) = [] := hnil
    have hft : f = t := by
      by_contra hft
      have : f ∈ win.tabs.filter (· ≠ t) := by simpa [hft] using hmem
      rw [hnil] at this
      cases this
    exact hlast (hft ▸ hf) hnil
  · by_cases hf : win.focused = some t
    · obtain ⟨hset₁, hlive⟩ := hnext hf hne (hst.shown hs)
      exact ⟨hset₁, .inr hlive⟩
    · rw [hsame hf]
      exact ⟨hset hf hset₀, .inl ⟨hfocus, fun he => hf (hs.focus t tab win he ht hd hw)⟩⟩

theorem Tab._destroy_eq {s s₁ : Wm} {t : Nat} {tab : Tab} {win₁ : Window} (ht : s.tabs[t]? = some tab)
    (hd : tab.destroyed = false) {n : Nat} (hleave : Tab.leave n t tab s = some s₁)
    (hw₁ : s₁.windows[tab.window]? = some win₁) :
    Tab._destroy (n + 1) t s = if win₁.tabs = [] then Window.destroy n tab.window s₁ else some s₁ := by
  have hunfold : Tab._destroy (n + 1) t s = (Tab.leave n t tab s).bind fun s =>
      s.windows[tab.window]?.bind fun win => if win.tabs = [] then Window.destroy n tab.window s else some s := by
    simp only [Tab._destroy, Tab.leave, ht, hd, Option.bind_eq_bind, Option.bind_some, Option.bind_assoc,
      Bool.false_eq_true, if_false, Option.pure_def]
    refine Option.bind_congr fun win _ => ?_
    split <;> rfl
  rw [hunfold, hleave, Option.bind_some, hw₁, Option.bind_some]

theorem Tab.destroy_eq {s : Wm} (hl : Listed s) {t : Nat} {tab : Tab} (ht : s.tabs[t]? = some tab)
    (hd : tab.destroyed = false) (n : Nat) : ∃ s₁ win₁, s₁.windows[tab.window]? = some win₁ ∧
      Tab.destroy (n + 5) t s =
        (if win₁.tabs = [] then Window.destroy (n + 3) tab.window s₁ else some s₁).map (emit (.closeTab t)) ∧
      Cascade s s₁ [t] [] [.kill t] ∧ Steady tab.window s s₁ ∧
      (Shown s → Settled s tab.window →
        (win₁.tabs = [] → s₁.focus = some t) ∧
        (win₁.tabs ≠ [] → Settled s₁ tab.window ∧
          (s₁.focus = s.focus ∧ s.focus ≠ some t ∨ ∃ u ∈ win₁.tabs, s₁.focus = some u))) := by
  have hc₀ := Cascade.emit (.kill t) s
  have hst₀ := Steady.emit tab.window (.kill t) s
  obtain ⟨s₁, win₁, hleave, hw₁, hc, hst, hfocus⟩ := @Tab.leave_eq (s.emit (.kill t)) (hl.cascade hc₀) t tab ht hd n
  have hcall := Tab._destroy_eq (s := s.emit (.kill t)) ht hd hleave hw₁
  refine ⟨s₁, win₁, hw₁, ?_, hc₀.trans hc, hst₀.trans hst, fun hs => hfocus (hst₀.shown hs)⟩
  unfold Tab.destroy
  simp [ht, hd, hcall, Option.map_eq_bind]

theorem Tab.destroy_of_destroyed {s : Wm} {t : Nat} {tab : Tab} (ht : s.tabs[t]? = some tab)
    (hd : tab.destroyed = true) (n : Nat) : Tab.destroy (n + 1) t s = some s := by
  unfold Tab.destroy
  simp [ht, hd]

/-! ## A window that is destroyed -/

theorem Window.destroy_of_destroyed {s : Wm} {w : Nat} {win : Window} (hw : s.windows[w]? = some win)
    (hd : win.destroyed = true) (n : Nat) : Window.destroy (n + 1) w s = some s := by
  unfold Window.destroy
  simp [hw, hd]

/-- A tab of a window that is being destroyed. -/
theorem Tab.destroy_of_closing {s : Wm} (hl : Listed s) {t : Nat} {tab : Tab} {win : Window}
    (ht : s.tabs[t]? = some tab) (hd : tab.destroyed = false) (hw : s.windows[tab.window]? = some win)
    (hwd : win.destroyed = true) (n : Nat) : ∃ s', Tab.destroy (n + 5) t s = some s' ∧
      Cascade s s' [t] [] [.kill t, .closeTab t] ∧ Steady tab.window s s' ∧
      (Shown s → Settled s tab.window →
        (win.tabs.filter (· ≠ t) = [] → s'.focus = some t) ∧
        (win.tabs.filter (· ≠ t) ≠ [] → Settled s' tab.window)) := by
  obtain ⟨s₁, win₁, hw₁, hcall, hc, hst, hfocus⟩ := Tab.destroy_eq hl ht hd n
  obtain ⟨win', hw', htabs, hwd', -⟩ := hc.window_of hw₁
  rw [hw, Option.some_inj] at hw'
  subst hw'
  rw [Window.destroy_of_destroyed hw₁ (by rw [hwd', hwd]; rfl), ite_self] at hcall
  refine ⟨_, hcall, hc.trans (.emit _ _), hst.trans (Steady.emit _ _ _), fun hs hset => ?_⟩
  obtain ⟨hlast, hnext⟩ := hfocus hs hset
  replace htabs : win₁.tabs = win.tabs.filter (· ≠ t) := by simpa using htabs
  rw [htabs] at hlast hnext
  exact ⟨hlast, fun hne => (hnext hne).1⟩

/-- What the destruction of a tab announces, -/
def Tab.events (t : Nat) : List Event := [.kill t, .closeTab t]

/-- and that of a window with these tabs. -/
def Window.events (w : Nat) (tabs : List Nat) : List Event :=
  tabs.reverse.flatMap Tab.events ++ [.closeWindow w]

/-- The walk of `each` over a list that every call shortens by its last element. -/
theorem Window.eachFrom_eq (n : Nat) : ∀ (i : Nat) {s : Wm} {w : Nat} {win : Window}, Listed s →
    s.windows[w]? = some win → win.destroyed = true → win.tabs.length = i →
    ∃ s', Window.eachFrom (Tab.destroy (n + 5)) w i s = some s' ∧
      Cascade s s' win.tabs.reverse [] (win.tabs.reverse.flatMap Tab.events) ∧ Steady w s s' ∧
      (Shown s → Settled s w → ∃ t ∈ win.tabs, s'.focus = some t) := by
  intro i
  induction i with
  | zero =>
    intro s w win _ hw _ hlen
    have hnil : win.tabs = [] := List.length_eq_zero_iff.1 hlen
    refine ⟨s, rfl, by rw [hnil]; exact .refl s, .refl w s, fun _ hset => ?_⟩
    obtain ⟨win', f, hw', -, hmem⟩ := hset
    rw [hw, Option.some_inj] at hw'
    rw [← hw', hnil] at hmem
    cases hmem
  | succ i ih =>
    intro s w win hl hw hwd hlen
    obtain hnil | ⟨l, t, hlt⟩ := List.eq_nil_or_concat' win.tabs
    · simp [hnil] at hlen
    have hi : l.length = i := by simpa [hlt] using hlen
    have hget : win.tabs[i]? = some t := by rw [hlt, ← hi, List.getElem?_concat_length]
    have htl : t ∉ l := by
      have := hl.nodup w win hw
      rw [hlt] at this
      simpa using (List.nodup_append.1 this).2.2 t
    have hfilter : win.tabs.filter (· ≠ t) = l := by
      rw [hlt, List.filter_append]
      simpa using fun u hu => fun he : u = t => htl (he ▸ hu)
    obtain ⟨tab, ht, rfl, hd⟩ := (hl.tabs w win hw t).1 (by rw [hlt]; simp)
    obtain ⟨s₁, hcall, hc, hst, hfocus⟩ := Tab.destroy_of_closing hl ht hd hw hwd n
    obtain ⟨f, hw₁, -⟩ := hc.window _ _ hw
    rw [hfilter] at hfocus
    have hl₁ : win.tabs.filter (fun u => decide (u ∉ [t])) = l := by simpa using hfilter
    rw [hl₁] at hw₁
    obtain ⟨s', hcall', hc', hst', hfocus'⟩ := ih (hl.cascade hc) hw₁ (by simp [hwd]) hi
    refine ⟨s', ?_, ?_, hst.trans hst', fun hs hset => ?_⟩
    · simp [Window.eachFrom, hw, hget, hcall, hcall']
    · rw [hlt, List.reverse_append, List.reverse_singleton, List.flatMap_append]
      exact hc.trans hc'
    · rw [hlt]
      obtain ⟨hlast, hnext⟩ := hfocus hs hset
      by_cases hnil : l = []
      · have : s' = s₁ := by
          subst hnil
          subst hi
          cases hcall'
          rfl
        exact ⟨t, by simp, this ▸ hlast hnil⟩
      · obtain ⟨u, hu, hfu⟩ := hfocus' (hst.shown hs) (hnext hnil)
        exact ⟨u, List.mem_append_left _ hu, hfu⟩

/-- Before it goes through its tabs, a window hands the focus to the first of the others. -/
theorem focusFirst_eq {s : Wm} (hl : Listed s) (ha : Aims s) (n : Nat) : ∃ s', focusFirst (n + 4) s = some s' ∧
    Cascade s s' [] [] [] ∧ (Shown s → Shown s') ∧ s'.windows = s.windows ∧
    ∀ v l, s.opened = v :: l → ∃ win, s.windows[v]? = some win ∧ s'.focus = win.focused := by
  unfold focusFirst
  cases ho : s.opened with
  | nil => exact ⟨s, rfl, .refl s, id, rfl, fun v l h => by cases h⟩
  | cons v l =>
    obtain ⟨win, f, hw, hf⟩ := ha v (by rw [ho]; exact List.mem_cons_self ..)
    obtain ⟨tab, ht, hown⟩ := hl.focused v win f hw hf
    refine ⟨_, Window.focus_eq hw hf ht hown n, ._focus f s, fun hs => hs._focus ht hown hw hf, rfl,
      fun v' l' h => ?_⟩
    cases h
    exact ⟨win, hw, hf.symm⟩

theorem Window.destroy_eq {s : Wm} (hl : Listed s) (ha : Aims s) {w : Nat} {win : Window}
    (hw : s.windows[w]? = some win) (hd : win.destroyed = false) (n : Nat) :
    ∃ s', Window.destroy (n + 6) w s = some s' ∧
      Cascade s s' win.tabs.reverse [w] (Window.events w win.tabs) ∧ Steady w s s' ∧
      (Shown s → Settled s w → ∃ t ∈ win.tabs, s'.focus = some t) ∧
      (win.tabs = [] → ∀ v l, s.opened.filter (· ≠ w) = v :: l →
        ∃ win', s.windows[v]? = some win' ∧ s'.focus = win'.focused) := by
  have hc₁ := Cascade.close hl.opened w
  have hst₁ := Steady.close w w s
  have ho : (Window.close w s).opened = s.opened.filter (· ≠ w) := by simpa using hc₁.opened
  have hw₁ : (Window.close w s).windows[w]? = some { win with destroyed := true } := by
    rw [Window.close_windows, hw]; simp
  obtain ⟨s₁, hcall, hc₂, hshown, hsame, hfirst⟩ := focusFirst_eq (hl.cascade hc₁) (ha.cascade hc₁) (n + 1)
  rw [← hsame] at hw₁
  have hset : ∀ v, Settled s v → Settled s₁ v := by
    rintro v hv
    obtain ⟨win', f, hv', hf, hmem⟩ := hv.close w
    exact ⟨win', f, hsame ▸ hv', hf, hmem⟩
  have hc := hc₁.trans hc₂
  obtain ⟨s', hcall', hc', hst', hfocus⟩ := Window.eachFrom_eq n _ (hl.cascade hc) hw₁ rfl rfl
  refine ⟨s'.emit (.closeWindow w), ?_, ?_, ?_, fun hs hset₀ => ?_, fun hnil v l hv => ?_⟩
  · unfold Window.destroy Window.each
    simp [hw, hd, hcall, hw₁, hcall']
  · have := (hc.trans hc').trans (.emit (.closeWindow w) s')
    simpa [Window.events] using this
  · have : Steady w s s₁ := ⟨fun hs => hshown (hst₁.shown hs), fun v _ => hset v⟩
    exact (this.trans hst').trans (Steady.emit _ _ _)
  · exact hfocus (hshown (hst₁.shown hs)) (hset w hset₀)
  · obtain ⟨win', hv', hf⟩ := hfirst v l (ho.trans hv)
    -- with no tabs to go through the focus stays where it was handed
    have hs' : s' = s₁ := by
      simp only [hnil, List.length_nil] at hcall'
      cases hcall'
      rfl
    rw [Window.close_windows] at hv'
    obtain ⟨win₀, hv₀, rfl⟩ := Option.map_eq_some_iff.1 hv'
    refine ⟨win₀, hv₀, ?_⟩
    rw [hs']
    show s₁.focus = _
    rw [hf]
    split <;> rfl

/-! ## A tab of an open window -/

/-- Some live tab has the keyboard. -/
def Held (s : Wm) : Prop := ∃ t tab, s.focus = some t ∧ s.tabs[t]? = some tab ∧ tab.destroyed = false

theorem Tab.destroy_of_others {s : Wm} (hl : Listed s) {t : Nat} {tab : Tab} {win : Window}
    (ht : s.tabs[t]? = some tab) (hd : tab.destroyed = false) (hw : s.windows[tab.window]? = some win)
    (hne : win.tabs.filter (· ≠ t) ≠ []) (n : Nat) : ∃ s', Tab.destroy (n + 5) t s = some s' ∧
      Cascade s s' [t] [] (Tab.events t) ∧ Steady tab.window s s' ∧
      (Shown s → Settled s tab.window → Settled s' tab.window ∧ (Held s → Held s')) := by
  obtain ⟨s₁, win₁, hw₁, hcall, hc, hst, hfocus⟩ := Tab.destroy_eq hl ht hd n
  obtain ⟨win', hw', htabs, -⟩ := hc.window_of hw₁
  rw [hw, Option.some_inj] at hw'
  subst hw'
  replace htabs : win₁.tabs = win.tabs.filter (· ≠ t) := by simpa using htabs
  rw [if_neg (htabs ▸ hne)] at hcall
  refine ⟨_, hcall, hc.trans (.emit _ _), hst.trans (.emit _ _ _), fun hs hset => ?_⟩
  obtain ⟨hset₁, hkeep⟩ := (hfocus hs hset).2 (htabs ▸ hne)
  refine ⟨hset₁, ?_⟩
  rintro ⟨u, x, hu, hx, hdx⟩
  rcases hkeep with ⟨hsame, hnt⟩ | ⟨v, hv, hfv⟩
  · obtain ⟨p, hp⟩ := hc.tab u x hx
    refine ⟨u, _, hsame.trans hu, hp, ?_⟩
    have hut : u ≠ t := fun he => hnt (he ▸ hu)
    simp [hdx, hut]
  · obtain ⟨y, hy, -, hdy⟩ := ((hl.cascade hc).tabs _ win₁ hw₁ v).1 hv
    exact ⟨v, y, hfv, hy, hdy⟩

theorem Tab.destroy_of_last {s : Wm} (hl : Listed s) (ha : Aims s) {t : Nat} {tab : Tab} {win : Window}
    (ht : s.tabs[t]? = some tab) (hd : tab.destroyed = false) (hw : s.windows[tab.window]? = some win)
    (hwd : win.destroyed = false) (hnil : win.tabs.filter (· ≠ t) = []) (n : Nat) :
    ∃ s', Tab.destroy (n + 8) t s = some s' ∧
      Cascade s s' [t] [tab.window] [.kill t, .closeWindow tab.window, .closeTab t] ∧ Steady tab.window s s' ∧
      ((∀ v ∈ s.opened, Settled s v) → s'.opened ≠ [] → Held s') := by
  obtain ⟨s₁, win₁, hw₁, hcall, hc, hst, -⟩ := Tab.destroy_eq hl ht hd (n + 3)
  obtain ⟨win', hw', htabs, hwd₁, -⟩ := hc.window_of hw₁
  rw [hw, Option.some_inj] at hw'
  subst hw'
  replace htabs : win₁.tabs = [] := by simpa using htabs.trans (by simpa using hnil)
  have hl₁ := hl.cascade hc
  obtain ⟨s₂, hcall₂, hc₂, hst₂, -, hfirst⟩ := Window.destroy_eq hl₁ (ha.cascade hc) hw₁
    (by simpa [hwd] using hwd₁) n
  rw [if_pos htabs, hcall₂] at hcall
  rw [htabs] at hc₂
  refine ⟨_, hcall, (hc.trans hc₂).trans (.emit (.closeTab t) s₂), (hst.trans hst₂).trans (.emit _ _ _),
    fun hset hne => ?_⟩
  -- the first window left is open and settled, and nothing but `t` was destroyed
  obtain ⟨v, l, hv⟩ := List.exists_cons_of_ne_nil hne
  replace hv : s₂.opened = v :: l := hv
  rw [hc₂.opened] at hv
  have hvo : v ∈ s.opened ∧ v ≠ tab.window := by
    have : v ∈ s₁.opened.filter (· ∉ [tab.window]) := by rw [hv]; exact List.mem_cons_self ..
    rw [hc.opened] at this
    simpa using this
  obtain ⟨win₂, f, hw₂, hf, hmem⟩ := hst.settled v hvo.2 (hset v hvo.1)
  obtain ⟨win₃, hw₃, hf₃⟩ := hfirst htabs v l (by simpa using hv)
  rw [hw₂, Option.some_inj] at hw₃
  obtain ⟨x, hx, -, hdx⟩ := (hl₁.tabs v win₂ hw₂ f).1 hmem
  obtain ⟨p, hp⟩ := hc₂.tab f x hx
  exact ⟨f, _, hf₃.trans (hw₃ ▸ hf), hp, by simp [hdx]⟩

end Tangle.Wm
