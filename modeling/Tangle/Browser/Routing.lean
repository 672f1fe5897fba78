/-
`tty.terms`, through which data, kill notices and publish errors find their tab. It is a directory of the
live tabs: `ready` enters a tab under its id, and whatever destroys a tab removes the entry of the id that
it has then. So it is exact until a tab that has an id gets another one, whose old entry nothing removes, or
until a tab that is destroyed gets one. The calls here are on any window or tab that was made, destroyed or not.
-/
import Tangle.Lib.Directory
import Tangle.Browser.Desk

namespace Tangle.Wm

/-- The property of `tty.terms` a tab should be at: that of its id, while it is live. -/
def liveName (s : Wm) (t : Nat) : Option String :=
  s.tabs[t]?.bind fun tab => if tab.destroyed then none else tab.id.map Int.repr

/-- `tty.terms` maps an id to a tab exactly if the tab is live and this is its id. -/
def Exact (s : Wm) : Prop := Directory.Exact (fun k => s.terms.lookup k) s.liveName

theorem exact_iff {s : Wm} : Exact s ↔ ∀ k t, s.terms.lookup k = some t ↔
    ∃ tab id, s.tabs[t]? = some tab ∧ tab.destroyed = false ∧ tab.id = some id ∧ k = id.repr := by
  unfold Exact Directory.Exact liveName
  refine forall₂_congr fun k t => ?_
  rw [iff_iff_eq]
  congr 1
  simp only [Option.bind_eq_some_iff, Option.ite_none_left_eq_some, Option.map_eq_some_iff, Bool.not_eq_true,
    eq_iff_iff]
  constructor
  · rintro ⟨tab, ht, hd, id, hid, rfl⟩
    exact ⟨tab, id, ht, hd, hid, rfl⟩
  · rintro ⟨tab, id, ht, hd, hid, rfl⟩
    exact ⟨tab, ht, hd, id, hid, rfl⟩

/-! ## Teardown -/

theorem liveName_cascade {s s' : Wm} {D W : List Nat} {new : List Event} (hc : Cascade s s' D W new) (t : Nat) :
    s'.liveName t = if t ∈ D then none else s.liveName t := by
  unfold liveName
  cases ht : s.tabs[t]? with
  | none =>
    have ht' : s'.tabs[t]? = none := by
      rw [List.getElem?_eq_none_iff] at ht ⊢
      exact hc.tabs ▸ ht
    simp [ht']
  | some tab =>
    obtain ⟨p, hp⟩ := hc.tab t tab ht
    rw [hp]
    by_cases hD : t ∈ D <;> simp [hD]

/-- The keys of live tabs are their names, apart from the `''` of those without an id. -/
theorem mem_keys_iff {s : Wm} (hx : Exact s) {D : List Nat} (hD : ∀ t ∈ D, LiveTab s t) {t : Nat} {k : String}
    (hk : s.liveName t = some k) : k ∈ s.keys D ↔ t ∈ D := by
  have hkey : ∀ u tab, s.tabs[u]? = some tab → tab.destroyed = false → (s.liveName u = some k ↔ tab.key = k) := by
    obtain ⟨x, -, hx⟩ := Option.bind_eq_some_iff.1 hk
    obtain ⟨id, -, rfl⟩ : ∃ id, x.id = some id ∧ id.repr = k := by
      split at hx
      · cases hx
      · exact Option.map_eq_some_iff.1 hx
    intro u tab hu hd
    unfold liveName Tangle.Tab.key
    rw [hu, Option.bind_some, hd, if_neg Bool.false_ne_true]
    cases tab.id with
    | none => simpa using (Browser.repr_ne_empty id).symm
    | some j => simp
  unfold keys
  rw [List.mem_filterMap]
  constructor
  · rintro ⟨u, hu, hmap⟩
    obtain ⟨tab, htab, hkeyu⟩ := Option.map_eq_some_iff.1 hmap
    obtain ⟨tab', htab', hd⟩ := (hD u hu).tab
    rw [htab, Option.some_inj] at htab'
    rw [hx.unique hk ((hkey u tab htab (htab' ▸ hd)).2 hkeyu)]
    exact hu
  · intro ht
    obtain ⟨tab, htab, hd⟩ := (hD t ht).tab
    exact ⟨t, ht, by rw [htab, Option.map_some, (hkey t tab htab hd).1 hk]⟩

/-- Tearing down live tabs keeps the table exact. -/
theorem Exact.cascade {s s' : Wm} {D W : List Nat} {new : List Event} (hx : Exact s) (hc : Cascade s s' D W new)
    (hD : ∀ t ∈ D, LiveTab s t) : Exact s' := by
  refine Directory.Exact.remove hx (fun t k hk => mem_keys_iff hx hD hk) (fun k => ?_) (liveName_cascade hc)
  rw [hc.terms, OrdHash.lookup_eraseAll]

/-! ## Ready -/

theorem liveName_ready {s : Wm} (t : Nat) (id : Int) (u : Nat) : (Tab.ready t id s).liveName u =
    if u = t ∧ LiveTab s t then some id.repr else s.liveName u := by
  have htabs : (Tab.ready t id s).tabs[u]?.map (fun x => (x.destroyed, x.id)) =
      s.tabs[u]?.map fun x => (x.destroyed, if u = t then some id else x.id) := by
    unfold Tab.ready
    dsimp only
    rw [modifyTab_tabs, Option.map_map]
    show ((s.modifyTab t _).tabs[u]?.map _) = _
    rw [modifyTab_tabs, Option.map_map]
    congr 1
    funext x
    by_cases hu : u = t <;> simp [hu]
  have hname : ∀ s' : Wm, s'.liveName u = (s'.tabs[u]?.map fun x => (x.destroyed, x.id)).bind fun p =>
      if p.1 then none else p.2.map Int.repr := by
    intro s'
    unfold liveName
    rw [Option.bind_map]
    rfl
  rw [hname, htabs, hname]
  unfold LiveTab
  by_cases hu : u = t
  · subst hu
    rcases Option.eq_none_or_eq_some s.tabs[u]? with hx | ⟨x, hx⟩
    · simp [hx]
    · cases hd : x.destroyed <;> simp [hx, hd]
  · simp [hu]

/-- An id that no other live tab has is entered rightly for a live tab that had none, or had it before. -/
theorem exact_ready {s : Wm} (hx : Exact s) {t : Nat} {id : Int} (ht : t < s.tabs.length)
    (hfree : ∀ u < s.tabs.length, u ≠ t → s.liveName u ≠ some id.repr) :
    Exact (Tab.ready t id s) ↔ LiveTab s t ∧ (s.liveName t = none ∨ s.liveName t = some id.repr) := by
  have hlookup : ∀ k, (Tab.ready t id s).terms.lookup k = if k = id.repr then some t else s.terms.lookup k :=
    fun k => OrdHash.lookup_set id.repr k t s.terms
  by_cases hlive : LiveTab s t
  · have hfree' : ∀ u ≠ t, s.liveName u ≠ some id.repr := by
      intro u hu
      by_cases hlt : u < s.tabs.length
      · exact hfree u hlt hu
      · unfold liveName
        rw [List.getElem?_eq_none (Nat.le_of_not_lt hlt)]
        exact fun h => by cases h
    have hname : ∀ u, (Tab.ready t id s).liveName u = if u = t then some id.repr else s.liveName u := by
      intro u
      simp only [liveName_ready, hlive, and_true]
    rw [and_iff_right hlive]
    exact Directory.exact_enter hx hfree' hlookup hname
  · -- nothing leads to a tab that is destroyed
    have hdead : (Tab.ready t id s).liveName t = none := by
      rw [liveName_ready, if_neg fun h => hlive h.2]
      unfold liveName
      unfold LiveTab at hlive
      rw [List.getElem?_eq_getElem ht, Option.map_some, Option.some_inj, Bool.not_eq_false] at hlive
      simp [List.getElem?_eq_getElem ht, hlive]
    exact iff_of_false (Directory.not_exact_of_nameless ((hlookup id.repr).trans (if_pos rfl)) hdead) fun h => hlive h.1

/-! ## Operations -/

/-- A new tab has no id, so the table may stay as it is. -/
theorem Exact.newTab {s : Wm} (hx : Exact s) (w : Nat) : Exact (Window.push w s.tabs.length (Tab.new w s)) := by
  have hname : (Window.push w s.tabs.length (Tab.new w s)).liveName = s.liveName := by
    funext t
    show (Tab.new w s).tabs[t]?.bind _ = s.tabs[t]?.bind _
    cases ht : s.tabs[t]? with
    | some tab => rw [Tab.new_tabs.2 (.inl ht)]
    | none =>
      cases ht' : (Tab.new w s).tabs[t]? with
      | none => rfl
      | some tab =>
        rcases Tab.new_tabs.1 ht' with h | ⟨-, rfl⟩
        · rw [ht] at h
          cases h
        · rfl
  unfold Exact
  rw [hname]
  exact hx

theorem Coherent.destroyTab {s : Wm} (h : Coherent s) {t : Nat} (ht : t < s.tabs.length) (n : Nat) :
    ∃ s', Tab.destroy (n + 8) t s = some s' ∧ Coherent s' ∧ (Exact s → Exact s') := by
  have htab := List.getElem?_eq_getElem ht
  cases hd : s.tabs[t].destroyed with
  | true => exact ⟨s, Tab.destroy_of_destroyed htab hd (n + 7), h, id⟩
  | false =>
    have hlive : ∀ u ∈ [t], LiveTab s u := by
      intro u hu
      rw [List.mem_singleton.1 hu]
      exact Option.map_eq_some_iff.2 ⟨_, htab, hd⟩
    obtain ⟨win, hw⟩ := h.listed.window t _ htab
    cases hwd : win.destroyed with
    | true =>
      obtain ⟨s', hcall, hc, h'⟩ := h.destroyTab_of_closed htab hd hw hwd (n + 3)
      exact ⟨s', hcall, h', fun hx => hx.cascade hc hlive⟩
    | false =>
      by_cases hnil : win.tabs.filter (· ≠ t) = []
      · obtain ⟨s', hcall, hc, h', -⟩ := h.destroyTab_of_last htab hd hw hwd hnil n
        exact ⟨s', hcall, h', fun hx => hx.cascade hc hlive⟩
      · obtain ⟨s', hcall, hc, h', -⟩ := h.destroyTab_of_others htab hd hw hwd hnil (n + 3)
        exact ⟨s', hcall, h', fun hx => hx.cascade hc hlive⟩

/-- Creation, `ready` and destruction are applied to windows and tabs that were made, be they destroyed since;
the focus is given to live ones. -/
def Act.OnMade (s : Wm) : Act → Prop
  | .newWindow => True
  | .createTab w | .destroyWindow w => w < s.windows.length
  | .ready t _ | .destroyTab t => t < s.tabs.length
  | .focusTab t => LiveTab s t
  | .focusWindow w | .nextTab w | .previousTab w => LiveWindow s w

instance (s : Wm) : (a : Act) → Decidable (a.OnMade s)
  | .newWindow => .isTrue trivial
  | .createTab w | .destroyWindow w => inferInstanceAs (Decidable (w < s.windows.length))
  | .ready t _ | .destroyTab t => inferInstanceAs (Decidable (t < s.tabs.length))
  | .focusTab t => inferInstanceAs (Decidable (LiveTab s t))
  | .focusWindow w | .nextTab w | .previousTab w => inferInstanceAs (Decidable (LiveWindow s w))

/-- An id that a tab gets is not that of another live tab. -/
def Act.Unused (s : Wm) : Act → Prop
  | .ready t id => ∀ u < s.tabs.length, u ≠ t → s.liveName u ≠ some id.repr
  | _ => True

instance (s : Wm) : (a : Act) → Decidable (a.Unused s)
  | .ready t id => inferInstanceAs (Decidable (∀ u < s.tabs.length, u ≠ t → s.liveName u ≠ some id.repr))
  | .newWindow | .createTab _ | .focusTab _ | .focusWindow _ | .nextTab _ | .previousTab _ | .destroyTab _
  | .destroyWindow _ => .isTrue trivial

def route (s : Wm) (a : Act) : Option Wm := if a.OnMade s ∧ a.Unused s then a.perform s else none

/-- `ready` is called on a live tab that has no id, or this one. -/
def Fresh (s : Wm) (a : Act) : Prop :=
  ∀ t id, a = .ready t id → LiveTab s t ∧ (s.liveName t = none ∨ s.liveName t = some id.repr)

theorem Coherent.live {s : Wm} (h : Coherent s) {w : Nat} (hw : LiveWindow s w) : w ∈ s.opened :=
  (h.listed.flag w).2 (Option.map_eq_some_iff.1 hw)

theorem Act.perform_made {s : Wm} (h : Coherent s) {a : Act} (ha : a.OnMade s) (hid : a.Unused s) :
    ∃ s', a.perform s = some s' ∧ Coherent s' ∧ (Exact s → (Exact s' ↔ Fresh s a)) := by
  have hkeeps : ∀ {s'}, (Exact s → Exact s') → (∀ t id, a ≠ .ready t id) → Exact s → (Exact s' ↔ Fresh s a) :=
    fun hx hne hxs => iff_of_true (hx hxs) fun t id he => absurd he (hne t id)
  have hsame : ∀ {s₀ s'}, Cascade s₀ s' [] [] [] → Exact s₀ → Exact s' :=
    fun hc hx => hx.cascade hc fun t ht => (by cases ht)
  cases a with
  | newWindow =>
    obtain ⟨s', hcall, hc, h', -⟩ := h.newWindow 4
    exact ⟨s', hcall, h', hkeeps (fun hx => hsame hc (Exact.newTab (s := Window.new s) hx _)) (by simp)⟩
  | createTab w =>
    obtain ⟨s', hcall, hc, h', -⟩ := coherent_createTab h.listed h.shown (List.getElem?_eq_getElem ha)
      (fun v hv _ => h.settled v hv) 5
    exact ⟨s', hcall, h', hkeeps (fun hx => hsame hc (hx.newTab w)) (by simp)⟩
  | ready t id =>
    refine ⟨_, rfl, (alike_ready t id s).coherent h, fun hx => ?_⟩
    rw [exact_ready hx ha hid]
    constructor
    · rintro hready t' id' he
      cases he
      exact hready
    · exact fun hfresh => hfresh t id rfl
  | focusTab t =>
    obtain ⟨tab, ht, hd⟩ := LiveTab.tab ha
    obtain ⟨s', hcall, hc, h', -⟩ := h.tabFocus ht hd 5
    exact ⟨s', hcall, h', hkeeps (hsame hc) (by simp)⟩
  | focusWindow w =>
    obtain ⟨s', hcall, hc, h', -⟩ := h.windowFocus (h.live ha) 4
    exact ⟨s', hcall, h', hkeeps (hsame hc) (by simp)⟩
  | nextTab w =>
    obtain ⟨s', hcall, hc, h', -⟩ := h.focusTab (h.live ha) true 5
    exact ⟨s', hcall, h', hkeeps (hsame hc) (by simp)⟩
  | previousTab w =>
    obtain ⟨s', hcall, hc, h', -⟩ := h.focusTab (h.live ha) false 5
    exact ⟨s', hcall, h', hkeeps (hsame hc) (by simp)⟩
  | destroyTab t =>
    obtain ⟨s', hcall, h', hx⟩ := h.destroyTab ha 0
    exact ⟨s', hcall, h', hkeeps hx (by simp)⟩
  | destroyWindow w =>
    have hwin := List.getElem?_eq_getElem ha
    cases hd : s.windows[w].destroyed with
    | true => exact ⟨s, Window.destroy_of_destroyed hwin hd 7, h, hkeeps id (by simp)⟩
    | false =>
      obtain ⟨s', hcall, hc, h', -⟩ := h.destroyWindow hwin hd 2
      refine ⟨s', hcall, h', hkeeps (fun hx => hx.cascade hc fun t ht => ?_) (by simp)⟩
      obtain ⟨tab, htab, -, hlive⟩ := (h.listed.tabs w _ hwin t).1 (List.mem_reverse.1 ht)
      exact Option.map_eq_some_iff.2 ⟨tab, htab, hlive⟩

theorem route_eq {s s' : Wm} {a : Act} (h : Coherent s) (hstep : route s a = some s') :
    Coherent s' ∧ (Exact s → (Exact s' ↔ Fresh s a)) := by
  unfold route at hstep
  split at hstep
  · rename_i ha
    obtain ⟨s₁, hcall, hs₁⟩ := Act.perform_made h ha.1 ha.2
    rw [hstep, Option.some_inj] at hcall
    exact hcall ▸ hs₁
  · cases hstep

/-- Every operation completes, and throughout a run the table is exact exactly when each `ready` is called on a
live tab that has no id yet, or the one it gets. -/
theorem exact_iff_fresh (as : List Act) :
    (∀ s, Machine.exec route init as = some s → ∀ a : Act, a.OnMade s → a.Unused s → ∃ s', a.perform s = some s') ∧
    (Machine.Always route Exact init as ↔ Machine.Meets route Fresh init as) := by
  refine ⟨fun s hrun a ha hid => ?_, ?_⟩
  · have h : Coherent s := Machine.exec_inv (fun _ _ _ hs hstep => (route_eq hs hstep).1) init_coherent hrun
    obtain ⟨s', hcall, -⟩ := Act.perform_made h ha hid
    exact ⟨s', hcall⟩
  · refine Machine.always_iff_meets (fun _ _ _ hs hstep => (route_eq hs hstep).1)
      (fun _ _ _ hs hx hstep => (route_eq hs hstep).2 hx) init_coherent fun k t => ?_
    simp [liveName, init]

/-- A tab that gets a second id can still be found under the first. -/
theorem stale_entry : ∃ s, Machine.exec route init [.newWindow, .ready 0 1, .ready 0 2] = some s ∧
    s.terms.lookup "1" = some 0 ∧ (s.tabs[0]?.map fun tab => (tab.destroyed, tab.id)) = some (false, some 2) ∧
    ¬ Exact s := by
  have hrun : ∃ s ∈ Machine.exec route init [.newWindow, .ready 0 1, .ready 0 2],
      s.terms.lookup "1" = some 0 ∧ (s.tabs[0]?.map fun tab => (tab.destroyed, tab.id)) = some (false, some 2) := by
    decide +kernel
  obtain ⟨s, hs, hlookup, htab⟩ := hrun
  refine ⟨s, hs, hlookup, htab, fun h => ?_⟩
  obtain ⟨tab, id, ht, -, hid, hk⟩ := (exact_iff.1 h "1" 0).1 hlookup
  have hid₂ : some id = some 2 := by
    rw [ht, Option.map_some, Option.some_inj, hid] at htab
    exact (Prod.ext_iff.1 htab).2
  cases hid₂
  revert hk
  decide

end Tangle.Wm
