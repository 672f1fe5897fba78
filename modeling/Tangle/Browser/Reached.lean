/-
Sequences of `Tab.destroy` and `Window.destroy`. What they reach is known beforehand: the tabs they are
called on and those of the windows they are called on. A window closes with them when it is called
itself or all of its tabs are. Both happen once, however often and in whichever order the calls come.
-/
import Tangle.Browser.Teardown

namespace Tangle.Wm

/-- More calls are never under way at once. -/
def depth : Nat := 8

/-- A call of `destroy`. -/
inductive Call
  | tab (t : Nat)
  | window (w : Nat)
deriving DecidableEq

def Call.perform (s : Wm) : Call → Option Wm
  | .tab t => Tab.destroy depth t s
  | .window w => Window.destroy depth w s

/-- The tab or window was made at some time. -/
def Call.Made (s : Wm) : Call → Prop
  | .tab t => t < s.tabs.length
  | .window w => w < s.windows.length

/-- The lists are right, the open windows have tabs, and the others have none. -/
structure Populated (s : Wm) : Prop where
  listed : Listed s
  aims : Aims s
  tabs : ∀ (w : Nat) (win : Window), s.windows[w]? = some win → (w ∈ s.opened ↔ win.tabs ≠ [])

/-- The calls reach the tab: it is live, and one is on it or on its window. -/
def Reached (s : Wm) (cs : List Call) (t : Nat) : Prop :=
  ∃ tab, s.tabs[t]? = some tab ∧ tab.destroyed = false ∧ (.tab t ∈ cs ∨ .window tab.window ∈ cs)

/-- The calls close the window: it is live, and one is on it or there is one on each of its tabs. -/
def Closed (s : Wm) (cs : List Call) (w : Nat) : Prop :=
  ∃ win, s.windows[w]? = some win ∧ win.destroyed = false ∧ (.window w ∈ cs ∨ ∀ t ∈ win.tabs, .tab t ∈ cs)

/-- `D` are the tabs the calls reach, `W` the windows they close, and `new` announces each of them once. -/
structure Tally (s : Wm) (cs : List Call) (D W : List Nat) (new : List Event) : Prop where
  nodupTabs : D.Nodup
  reached : ∀ t, t ∈ D ↔ Reached s cs t
  nodupWindows : W.Nodup
  closed : ∀ w, w ∈ W ↔ Closed s cs w
  kill : ∀ t, new.count (.kill t) = D.count t
  closeTab : ∀ t, new.count (.closeTab t) = D.count t
  closeWindow : ∀ w, new.count (.closeWindow w) = W.count w

/-! ## Announcements -/

/-- An event that each tab announces of itself alone occurs as often as the tab does. -/
theorem count_events {e : Event} {t : Nat} (he : ∀ u, (Tab.events u).count e = if u = t then 1 else 0) :
    ∀ l : List Nat, (l.flatMap Tab.events).count e = l.count t
  | [] => rfl
  | u :: l => by
    rw [List.flatMap_cons, List.count_append, count_events he l, he, List.count_cons]
    simp only [beq_iff_eq]
    omega

theorem kill_events (t u : Nat) : (Tab.events u).count (.kill t) = if u = t then 1 else 0 := by
  by_cases hu : u = t <;> simp [Tab.events, hu]

theorem closeTab_events (t u : Nat) : (Tab.events u).count (.closeTab t) = if u = t then 1 else 0 := by
  by_cases hu : u = t <;> simp [Tab.events, hu]

theorem closeWindow_not_mem (w : Nat) (l : List Nat) : .closeWindow w ∉ l.flatMap Tab.events := by
  simp [Tab.events]

/-! ## One call -/

/-- A live tab is in its window's list, and that window is open. -/
theorem Populated.live {s : Wm} (h : Populated s) {t : Nat} {tab : Tab} (ht : s.tabs[t]? = some tab)
    (hd : tab.destroyed = false) : ∃ win, s.windows[tab.window]? = some win ∧ t ∈ win.tabs ∧
      win.destroyed = false := by
  obtain ⟨win, hw⟩ := h.listed.window t tab ht
  have hmem := (h.listed.tabs _ win hw t).2 ⟨tab, ht, rfl, hd⟩
  have hopen := (h.tabs _ win hw).2 (List.ne_nil_of_mem hmem)
  obtain ⟨win', hw', hwd⟩ := (h.listed.flag _).1 hopen
  rw [hw, Option.some_inj] at hw'
  exact ⟨win, hw, hmem, hw' ▸ hwd⟩

theorem Populated.nonempty {s : Wm} (h : Populated s) {w : Nat} {win : Window} (hw : s.windows[w]? = some win)
    (hd : win.destroyed = false) : win.tabs ≠ [] :=
  (h.tabs w win hw).1 ((h.listed.flag w).2 ⟨win, hw, hd⟩)

/-- A call on something destroyed reaches nothing. -/
theorem Tally.nothing {s : Wm} {cs : List Call} (hD : ∀ t, ¬ Reached s cs t) (hW : ∀ w, ¬ Closed s cs w) :
    Tally s cs [] [] [] where
  nodupTabs := List.nodup_nil
  reached t := by simp [hD t]
  nodupWindows := List.nodup_nil
  closed w := by simp [hW w]
  kill _ := rfl
  closeTab _ := rfl
  closeWindow _ := rfl

theorem reached_tab {s : Wm} {t : Nat} {tab : Tab} (ht : s.tabs[t]? = some tab) {u : Nat} :
    Reached s [.tab t] u ↔ tab.destroyed = false ∧ u = t := by
  simp only [Reached, List.mem_singleton, Call.tab.injEq, reduceCtorEq, or_false]
  constructor
  · rintro ⟨x, hx, hd, rfl⟩
    rw [ht, Option.some_inj] at hx
    exact ⟨hx ▸ hd, rfl⟩
  · rintro ⟨hd, rfl⟩
    exact ⟨tab, ht, hd, rfl⟩

/-- A call on a tab closes its window when that has no other. -/
theorem closed_tab {s : Wm} (hp : Populated s) {t : Nat} {tab : Tab} {win : Window} (ht : s.tabs[t]? = some tab)
    (hw : s.windows[tab.window]? = some win) {w : Nat} :
    Closed s [.tab t] w ↔ tab.destroyed = false ∧ w = tab.window ∧ win.tabs.filter (· ≠ t) = [] := by
  simp only [Closed, List.mem_singleton, Call.tab.injEq, reduceCtorEq, false_or]
  constructor
  · rintro ⟨win', hw', hwd, hall⟩
    obtain ⟨u, hu⟩ := List.exists_mem_of_ne_nil _ (hp.nonempty hw' hwd)
    obtain ⟨x, hx, rfl, hd⟩ := (hp.listed.tabs w win' hw' t).1 (hall u hu ▸ hu)
    rw [ht, Option.some_inj] at hx
    subst hx
    rw [hw, Option.some_inj] at hw'
    subst hw'
    exact ⟨hd, rfl, by simpa using hall⟩
  · rintro ⟨hd, rfl, hnil⟩
    obtain ⟨win', hw', -, hwd⟩ := hp.live ht hd
    rw [hw, Option.some_inj] at hw'
    exact ⟨win, hw, hw' ▸ hwd, by simpa using hnil⟩

theorem reached_window {s : Wm} (hl : Listed s) {w : Nat} {win : Window} (hw : s.windows[w]? = some win)
    {t : Nat} : Reached s [.window w] t ↔ t ∈ win.tabs := by
  rw [hl.tabs w win hw t]
  simp only [Reached, List.mem_singleton, Call.window.injEq, reduceCtorEq, false_or]
  constructor
  · rintro ⟨tab, ht, hd, hown⟩
    exact ⟨tab, ht, hown, hd⟩
  · rintro ⟨tab, ht, hown, hd⟩
    exact ⟨tab, ht, hd, hown⟩

theorem closed_window {s : Wm} (hp : Populated s) {w : Nat} {win : Window} (hw : s.windows[w]? = some win)
    {v : Nat} : Closed s [.window w] v ↔ win.destroyed = false ∧ v = w := by
  simp only [Closed, List.mem_singleton, Call.window.injEq, reduceCtorEq]
  constructor
  · rintro ⟨win', hv, hvd, rfl | hall⟩
    · rw [hw, Option.some_inj] at hv
      exact ⟨hv ▸ hvd, rfl⟩
    · obtain ⟨u, hu⟩ := List.exists_mem_of_ne_nil _ (hp.nonempty hv hvd)
      exact (hall u hu).elim
  · rintro ⟨hd, rfl⟩
    exact ⟨win, hw, hd, .inl rfl⟩

theorem Call.perform_tab {s : Wm} (hp : Populated s) {t : Nat} (ht : t < s.tabs.length) :
    ∃ s' D W new, Call.perform s (.tab t) = some s' ∧ Cascade s s' D W new ∧ Tally s [.tab t] D W new := by
  obtain ⟨tab, ht⟩ : ∃ tab, s.tabs[t]? = some tab := ⟨_, List.getElem?_eq_getElem ht⟩
  obtain ⟨win, hw⟩ := hp.listed.window t tab ht
  cases hd : tab.destroyed with
  | true =>
    refine ⟨s, [], [], [], ?_, .refl s, .nothing (fun u h => ?_) fun w h => ?_⟩
    · simp [Call.perform, depth, Tab.destroy, ht, hd]
    · simp [reached_tab ht, hd] at h
    · simp [closed_tab hp ht hw, hd] at h
  | false =>
    have hreached : ∀ u, u ∈ [t] ↔ Reached s [.tab t] u := by
      intro u
      simp [reached_tab ht, hd]
    by_cases hnil : win.tabs.filter (· ≠ t) = []
    · have hwd : win.destroyed = false := by
        obtain ⟨win', hw', -, hwd⟩ := hp.live ht hd
        rw [hw, Option.some_inj] at hw'
        exact hw' ▸ hwd
      obtain ⟨s', hcall, hc, -⟩ := Tab.destroy_of_last hp.listed hp.aims ht hd hw hwd hnil 0
      refine ⟨s', _, _, _, hcall, hc, List.nodup_singleton t, hreached, List.nodup_singleton _, fun w => ?_,
        fun u => ?_, fun u => ?_, fun w => ?_⟩
      · rw [closed_tab hp ht hw, List.mem_singleton]
        exact ⟨fun h => ⟨hd, h, hnil⟩, fun h => h.2.1⟩
      · by_cases hu : t = u <;> simp [hu]
      · by_cases hu : t = u <;> simp [hu]
      · by_cases hw : tab.window = w <;> simp [hw]
    · obtain ⟨s', hcall, hc, -⟩ := Tab.destroy_of_others hp.listed ht hd hw hnil 3
      refine ⟨s', _, _, _, hcall, hc, List.nodup_singleton t, hreached, List.nodup_nil, fun w => ?_,
        fun u => ?_, fun u => ?_, fun w => ?_⟩
      · rw [closed_tab hp ht hw]
        exact ⟨fun h => absurd h List.not_mem_nil, fun h => absurd h.2.2 hnil⟩
      · by_cases hu : t = u <;> simp [Tab.events, hu]
      · by_cases hu : t = u <;> simp [Tab.events, hu]
      · simp [Tab.events]

theorem Call.perform_window {s : Wm} (hp : Populated s) {w : Nat} (hw : w < s.windows.length) :
    ∃ s' D W new, Call.perform s (.window w) = some s' ∧ Cascade s s' D W new ∧
      Tally s [.window w] D W new := by
  obtain ⟨win, hw⟩ : ∃ win, s.windows[w]? = some win := ⟨_, List.getElem?_eq_getElem hw⟩
  cases hd : win.destroyed with
  | true =>
    have hnil : win.tabs = [] := by
      by_contra hne
      obtain ⟨win', hw', hd'⟩ := (hp.listed.flag w).1 ((hp.tabs w win hw).2 hne)
      rw [hw, Option.some_inj] at hw'
      rw [← hw', hd] at hd'
      cases hd'
    refine ⟨s, [], [], [], Window.destroy_of_destroyed hw hd 7, .refl s, .nothing (fun t h => ?_) fun v h => ?_⟩
    · simp [reached_window hp.listed hw, hnil] at h
    · simp [closed_window hp hw, hd] at h
  | false =>
    obtain ⟨s', hcall, hc, -⟩ := Window.destroy_eq hp.listed hp.aims hw hd 2
    refine ⟨s', _, _, _, hcall, hc, List.nodup_reverse.2 (hp.listed.nodup w win hw), fun t => ?_,
      List.nodup_singleton w,
      fun v => ?_, fun t => ?_, fun t => ?_, fun v => ?_⟩
    · rw [List.mem_reverse, reached_window hp.listed hw]
    · simp [closed_window hp hw, hd]
    · rw [Window.events, List.count_append, count_events (kill_events t)]
      simp
    · rw [Window.events, List.count_append, count_events (closeTab_events t)]
      simp
    · rw [Window.events, List.count_append, List.count_eq_zero.2 (closeWindow_not_mem v _)]
      by_cases hv : w = v <;> simp [hv]

theorem Call.perform_eq {s : Wm} (hp : Populated s) {c : Call} (hc : c.Made s) :
    ∃ s' D W new, c.perform s = some s' ∧ Cascade s s' D W new ∧ Tally s [c] D W new := by
  cases c with
  | tab t => exact Call.perform_tab hp hc
  | window w => exact Call.perform_window hp hc

/-! ## A sequence of calls -/

/-- A live window closes when all of its tabs are reached. -/
theorem Populated.closed_iff {s : Wm} (hp : Populated s) {cs : List Call} {w : Nat} {win : Window}
    (hw : s.windows[w]? = some win) (hd : win.destroyed = false) :
    Closed s cs w ↔ ∀ t ∈ win.tabs, Reached s cs t := by
  constructor
  · rintro ⟨win', hw', -, hor⟩ t ht
    rw [hw, Option.some_inj] at hw'
    subst hw'
    obtain ⟨tab, htab, rfl, hlive⟩ := (hp.listed.tabs w win hw t).1 ht
    rcases hor with hcall | hall
    · exact ⟨tab, htab, hlive, .inr hcall⟩
    · exact ⟨tab, htab, hlive, .inl (hall t ht)⟩
  · intro hall
    refine ⟨win, hw, hd, ?_⟩
    by_cases hcall : .window w ∈ cs
    · exact .inl hcall
    · refine .inr fun t ht => ?_
      obtain ⟨tab, htab, -, hor⟩ := hall t ht
      rw [hp.listed.window_of_mem hw ht htab] at hor
      exact hor.resolve_right hcall

theorem Populated.cascade {s s' : Wm} {cs : List Call} {D W : List Nat} {new : List Event} (hp : Populated s)
    (hc : Cascade s s' D W new) (h : Tally s cs D W new) : Populated s' where
  listed := hp.listed.cascade hc
  aims := hp.aims.cascade hc
  tabs w win' hw' := by
    obtain ⟨win, hw, htabs, -⟩ := hc.window_of hw'
    have hleft : win'.tabs = [] ↔ ∀ t ∈ win.tabs, Reached s cs t := by
      rw [htabs, List.filter_eq_nil_iff]
      simp [h.reached]
    rw [hc.opened, List.mem_filter, ne_eq, hleft]
    simp only [decide_eq_true_eq, h.closed]
    constructor
    · rintro ⟨hopen, hnot⟩ hall
      obtain ⟨win₀, hw₀, hd⟩ := (hp.listed.flag w).1 hopen
      rw [hw, Option.some_inj] at hw₀
      exact hnot ((hp.closed_iff hw (hw₀ ▸ hd)).2 hall)
    · intro hsome
      have hopen : w ∈ s.opened := by
        rw [hp.tabs w win hw]
        intro hnil
        exact hsome (by simp [hnil])
      refine ⟨hopen, fun hclosed => hsome ?_⟩
      obtain ⟨win₀, hw₀, hd⟩ := (hp.listed.flag w).1 hopen
      rw [hw, Option.some_inj] at hw₀
      exact (hp.closed_iff hw (hw₀ ▸ hd)).1 hclosed

theorem Call.Made.cascade {s s' : Wm} {D W : List Nat} {new : List Event} {c : Call} (h : c.Made s)
    (hc : Cascade s s' D W new) : c.Made s' := by
  cases c with
  | tab t => exact Nat.lt_of_lt_of_eq h hc.tabs.symm
  | window w => exact Nat.lt_of_lt_of_eq h hc.windows.symm

theorem reached_cons {s : Wm} {c : Call} {cs : List Call} {t : Nat} :
    Reached s (c :: cs) t ↔ Reached s [c] t ∨ Reached s cs t := by
  simp only [Reached, List.mem_cons, List.not_mem_nil, or_false]
  constructor
  · rintro ⟨tab, ht, hd, (h | h) | (h | h)⟩
    · exact .inl ⟨tab, ht, hd, .inl h⟩
    · exact .inr ⟨tab, ht, hd, .inl h⟩
    · exact .inl ⟨tab, ht, hd, .inr h⟩
    · exact .inr ⟨tab, ht, hd, .inr h⟩
  · rintro (⟨tab, ht, hd, h | h⟩ | ⟨tab, ht, hd, h | h⟩)
    · exact ⟨tab, ht, hd, .inl (.inl h)⟩
    · exact ⟨tab, ht, hd, .inr (.inl h)⟩
    · exact ⟨tab, ht, hd, .inl (.inr h)⟩
    · exact ⟨tab, ht, hd, .inr (.inr h)⟩

/-- What a teardown destroyed is not reached again, and what it left is reached as before. -/
theorem reached_cascade {s s₁ : Wm} {cs : List Call} {D W : List Nat} {new : List Event}
    (hc : Cascade s s₁ D W new) {t : Nat} : Reached s₁ cs t ↔ Reached s cs t ∧ t ∉ D := by
  constructor
  · rintro ⟨tab₁, ht₁, hd₁, hor⟩
    obtain ⟨tab, ht, p, rfl⟩ := hc.tab_of ht₁
    obtain ⟨hd, htD⟩ := Bool.or_eq_false_iff.1 hd₁
    exact ⟨⟨tab, ht, hd, hor⟩, by simpa using htD⟩
  · rintro ⟨⟨tab, ht, hd, hor⟩, htD⟩
    obtain ⟨p, hp⟩ := hc.tab t tab ht
    exact ⟨_, hp, by simp [hd, htD], hor⟩

theorem closed_cascade {s s₁ : Wm} {c : Call} {cs : List Call} {D W : List Nat} {new : List Event}
    (hp : Populated s) (hc : Cascade s s₁ D W new) (h : Tally s [c] D W new) {w : Nat} :
    Closed s₁ cs w ↔ Closed s (c :: cs) w ∧ w ∉ W := by
  -- the tabs that are left are those the first call did not reach
  have htabs : ∀ win : Window, (∀ t ∈ win.tabs.filter (· ∉ D), Reached s₁ cs t) ↔
      ∀ t ∈ win.tabs, Reached s (c :: cs) t := by
    intro win
    refine ⟨fun hall t ht => ?_, fun hall t ht => ?_⟩
    · rw [reached_cons]
      by_cases htD : t ∈ D
      · exact .inl ((h.reached t).1 htD)
      · exact .inr ((reached_cascade hc).1 (hall t (by simpa [htD] using ht))).1
    · obtain ⟨ht, htD⟩ : t ∈ win.tabs ∧ t ∉ D := by simpa using ht
      rcases reached_cons.1 (hall t ht) with hr | hr
      · exact absurd ((h.reached t).2 hr) htD
      · exact (reached_cascade hc).2 ⟨hr, htD⟩
  constructor
  · intro hclosed
    obtain ⟨win₁, hw₁, hd₁, -⟩ := id hclosed
    obtain ⟨win, hw, ht, hd, -⟩ := hc.window_of hw₁
    rw [hd₁] at hd
    obtain ⟨hd, hW⟩ := Bool.or_eq_false_iff.1 hd.symm
    rw [(hp.cascade hc h).closed_iff hw₁ hd₁, ht, htabs, ← hp.closed_iff hw hd] at hclosed
    exact ⟨hclosed, by simpa using hW⟩
  · rintro ⟨hclosed, hW⟩
    obtain ⟨win, hw, hd, -⟩ := id hclosed
    obtain ⟨f, hw₁, -⟩ := hc.window w win hw
    rw [hp.closed_iff hw hd, ← htabs] at hclosed
    exact ((hp.cascade hc h).closed_iff hw₁ (by simp [hd, hW])).2 hclosed

theorem Tally.cons {s s₁ : Wm} {c : Call} {cs : List Call} {D D' W W' : List Nat} {new new' : List Event}
    (hp : Populated s) (hc : Cascade s s₁ D W new) (h : Tally s [c] D W new) (h' : Tally s₁ cs D' W' new') :
    Tally s (c :: cs) (D ++ D') (W ++ W') (new ++ new') where
  nodupTabs := h.nodupTabs.append h'.nodupTabs fun t ht ht' =>
    ((reached_cascade hc).1 ((h'.reached t).1 ht')).2 ht
  reached t := by
    rw [List.mem_append, h'.reached, reached_cascade hc, h.reached, @reached_cons s c cs t]
    tauto
  nodupWindows := h.nodupWindows.append h'.nodupWindows fun w hw hw' =>
    ((closed_cascade hp hc h).1 ((h'.closed w).1 hw')).2 hw
  closed w := by
    have hmono : Closed s [c] w → Closed s (c :: cs) w := by
      rintro ⟨win, hw, hd, hor⟩
      refine ⟨win, hw, hd, hor.imp (fun h => ?_) fun h t ht => ?_⟩
      · simp [List.mem_singleton.1 h]
      · simp [List.mem_singleton.1 (h t ht)]
    rw [List.mem_append, h'.closed, closed_cascade hp hc h, h.closed]
    tauto
  kill t := by rw [List.count_append, List.count_append, h.kill, h'.kill]
  closeTab t := by rw [List.count_append, List.count_append, h.closeTab, h'.closeTab]
  closeWindow w := by rw [List.count_append, List.count_append, h.closeWindow, h'.closeWindow]

theorem exec_tally : ∀ {cs : List Call} {s : Wm}, Populated s → (∀ c ∈ cs, c.Made s) →
    ∃ s' D W new, Machine.exec Call.perform s cs = some s' ∧ Cascade s s' D W new ∧ Tally s cs D W new
  | [], s, hp, _ => by
    refine ⟨s, [], [], [], rfl, .refl s, .nothing ?_ ?_⟩
    · rintro t ⟨tab, -, -, h | h⟩ <;> cases h
    · rintro w ⟨win, hw, hd, h | h⟩
      · cases h
      · obtain ⟨t, ht⟩ := List.exists_mem_of_ne_nil _ (hp.nonempty hw hd)
        cases h t ht
  | c :: cs, s, hp, hm => by
    obtain ⟨s₁, D, W, new, hcall, hc, h⟩ := Call.perform_eq hp (hm c (List.mem_cons_self ..))
    obtain ⟨s', D', W', new', hrun, hc', h'⟩ :=
      exec_tally (hp.cascade hc h) fun d hd => (hm d (List.mem_cons_of_mem c hd)).cascade hc
    exact ⟨s', _, _, _, Machine.exec_cons.2 ⟨s₁, hcall, hrun⟩, hc.trans hc', h.cons hp hc h'⟩

/-- From `s` to `s'` the calls destroyed what they reach, once, and nothing else. -/
structure DestroyedOnce (s : Wm) (cs : List Call) (s' : Wm) : Prop where
  tab : ∀ (t : Nat) (tab : Tab), s.tabs[t]? = some tab → ∃ tab', s'.tabs[t]? = some tab' ∧
    tab'.window = tab.window ∧
    tab'.id = tab.id ∧ (tab'.destroyed = true ↔ tab.destroyed = true ∨ Reached s cs t)
  window : ∀ (w : Nat) (win : Window), s.windows[w]? = some win → ∃ win', s'.windows[w]? = some win' ∧
    (win'.destroyed = true ↔ win.destroyed = true ∨ Closed s cs w) ∧ win'.tabs.Sublist win.tabs ∧
    ∀ t, t ∈ win'.tabs ↔ t ∈ win.tabs ∧ ¬ Reached s cs t
  opened : s'.opened.Nodup ∧ ∀ w, w ∈ s'.opened ↔ w ∈ s.opened ∧ ¬ Closed s cs w
  erased : ∀ (t : Nat) (tab : Tab), Reached s cs t → s.tabs[t]? = some tab → s'.terms.lookup tab.key = none
  kept : ∀ k, (∀ (t : Nat) (tab : Tab), Reached s cs t → s.tabs[t]? = some tab → tab.key ≠ k) →
    s'.terms.lookup k = s.terms.lookup k
  announced : ∃ new, s'.trace = s.trace ++ new ∧
    (∀ t, (Reached s cs t → new.count (.kill t) = 1 ∧ new.count (.closeTab t) = 1) ∧
      (¬ Reached s cs t → new.count (.kill t) = 0 ∧ new.count (.closeTab t) = 0)) ∧
    ∀ w, (Closed s cs w → new.count (.closeWindow w) = 1) ∧ (¬ Closed s cs w → new.count (.closeWindow w) = 0)

theorem Tally.once {s s' : Wm} {cs : List Call} {D W : List Nat} {new : List Event} (hl : Listed s)
    (hc : Cascade s s' D W new) (h : Tally s cs D W new) : DestroyedOnce s cs s' where
  tab t tab ht := by
    obtain ⟨p, hp⟩ := hc.tab t tab ht
    exact ⟨_, hp, rfl, rfl, by simp [h.reached]⟩
  window w win hw := by
    obtain ⟨f, hf, -⟩ := hc.window w win hw
    refine ⟨_, hf, by simp [h.closed], List.filter_sublist .., fun t => ?_⟩
    rw [List.mem_filter, decide_eq_true_eq, h.reached]
  opened := by
    refine ⟨(hl.cascade hc).opened, fun w => ?_⟩
    rw [hc.opened, List.mem_filter, decide_eq_true_eq, h.closed]
  erased t tab hr ht := by
    rw [hc.terms, OrdHash.lookup_eraseAll, if_pos]
    exact List.mem_filterMap.2 ⟨t, (h.reached t).2 hr, by rw [ht]; rfl⟩
  kept k hk := by
    rw [hc.terms, OrdHash.lookup_eraseAll, if_neg]
    intro hmem
    obtain ⟨t, htD, hkey⟩ := List.mem_filterMap.1 hmem
    obtain ⟨tab, ht, rfl⟩ := Option.map_eq_some_iff.1 hkey
    exact hk t tab ((h.reached t).1 htD) ht rfl
  announced := by
    refine ⟨new, hc.trace, fun t => ⟨fun hr => ?_, fun hr => ?_⟩, fun w => ⟨fun hw => ?_, fun hw => ?_⟩⟩
    · rw [h.kill, h.closeTab, List.count_eq_one_of_mem h.nodupTabs ((h.reached t).2 hr)]
      exact ⟨rfl, rfl⟩
    · rw [h.kill, h.closeTab, List.count_eq_zero.2 fun hD => hr ((h.reached t).1 hD)]
      exact ⟨rfl, rfl⟩
    · rw [h.closeWindow, List.count_eq_one_of_mem h.nodupWindows ((h.closed w).2 hw)]
    · rw [h.closeWindow, List.count_eq_zero.2 fun hW => hw ((h.closed w).1 hW)]

/-- From `s` to `s'`, besides, a window on which `destroy` was called kept nothing of what it had, and one that no
call was about kept all. -/
structure Complete (s : Wm) (cs : List Call) (s' : Wm) : Prop where
  once : DestroyedOnce s cs s'
  emptied : ∀ (w : Nat) (win : Window), s.windows[w]? = some win → .window w ∈ cs →
    (∃ win', s'.windows[w]? = some win' ∧ win'.tabs = []) ∧
      ∀ t ∈ win.tabs, ∃ tab, s'.tabs[t]? = some tab ∧ tab.destroyed = true ∧ s'.terms.lookup tab.key = none
  kept : ∀ (w : Nat) (win : Window), s.windows[w]? = some win → .window w ∉ cs → (∀ t ∈ win.tabs, .tab t ∉ cs) →
    ∃ win', s'.windows[w]? = some win' ∧ win'.tabs = win.tabs

/-- Whatever is focused, and in whichever order tabs and windows are destroyed, destroyed ones again
included: each tab that is reached is destroyed once, and a window closes once and exactly when it is called
or has lost its last tab. -/
theorem exec_complete {s : Wm} {cs : List Call} (hp : Populated s) (hm : ∀ c ∈ cs, c.Made s) :
    ∃ s', Machine.exec Call.perform s cs = some s' ∧ Complete s cs s' ∧ Populated s' ∧
      ∀ c : Call, c.Made s → c.Made s' := by
  obtain ⟨s', D, W, new, hrun, hc, h⟩ := exec_tally hp hm
  have hreached : ∀ (w : Nat) (win : Window), s.windows[w]? = some win → .window w ∈ cs →
      ∀ t ∈ win.tabs, t ∈ D := by
    intro w win hw hcall t ht
    obtain ⟨tab, htab, rfl, hd⟩ := (hp.listed.tabs w win hw t).1 ht
    exact (h.reached t).2 ⟨tab, htab, hd, .inr hcall⟩
  refine ⟨s', hrun, ⟨h.once hp.listed hc, fun w win hw hcall => ⟨?_, fun t ht => ?_⟩, fun w win hw hnot htabs => ?_⟩,
    hp.cascade hc h, fun c hc' => hc'.cascade hc⟩
  · obtain ⟨f, hf, -⟩ := hc.window w win hw
    refine ⟨_, hf, List.filter_eq_nil_iff.2 fun t ht => ?_⟩
    simpa using hreached w win hw hcall t ht
  · have htD := hreached w win hw hcall t ht
    obtain ⟨tab, htab, -, -⟩ := (hp.listed.tabs w win hw t).1 ht
    obtain ⟨p, hp'⟩ := hc.tab t tab htab
    refine ⟨_, hp', by simp [htD], ?_⟩
    exact (h.once hp.listed hc).erased t tab ((h.reached t).1 htD) htab
  · obtain ⟨f, hf, -⟩ := hc.window w win hw
    refine ⟨_, hf, List.filter_eq_self.2 fun t ht => ?_⟩
    rw [decide_eq_true_eq, h.reached]
    rintro ⟨tab, htab, -, hcall | hcall⟩
    · exact htabs t ht hcall
    · exact hnot (hp.listed.window_of_mem hw ht htab ▸ hcall)

end Tangle.Wm
