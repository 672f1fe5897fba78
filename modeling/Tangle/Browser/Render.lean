/-
The window manager on the page. What it does to the tabs and to `tty.terms` is what a page does that
creates tabs, gives them ids and destroys them one at a time: whatever is focused leaves no trace there,
and a window is destroyed tab by tab. So every run of the window manager is one of the page.
-/
import Tangle.Browser.Desk
import Tangle.Browser.Errback

namespace Tangle.Wm

/-- The page has the window manager's tabs and its `tty.terms`. -/
structure Renders (s : Wm) (p : Page) : Prop where
  tabs : p.browser.tabs = s.tabs.map fun tab => tab.toTab
  terms : p.browser.terms = s.terms

theorem Renders.tab {s : Wm} {p : Page} (h : Renders s p) (t : Nat) :
    p.browser.tabs[t]? = s.tabs[t]?.map fun tab => tab.toTab := by
  rw [h.tabs, List.getElem?_map]

/-! ## Destruction -/

/-- A page that destroys live tabs one after the other. -/
theorem exec_destroy : ∀ {D : List Nat} {p : Page}, D.Nodup →
    (∀ t ∈ D, ∃ tab, p.browser.tabs[t]? = some tab ∧ tab.destroyed = false) →
    ∃ p', Machine.exec Page.step p (D.map .destroy) = some p' ∧
      (∀ u : Nat, p'.browser.tabs[u]? =
        p.browser.tabs[u]?.map fun tab => { tab with destroyed := tab.destroyed || decide (u ∈ D) }) ∧
      p'.browser.terms =
        OrdHash.eraseAll (D.filterMap fun t => p.browser.tabs[t]?.map Tangle.Tab.key) p.browser.terms
  | [], p, _, _ => ⟨p, rfl, fun u => by cases p.browser.tabs[u]? <;> simp, rfl⟩
  | t :: D, p, hD, hlive => by
    obtain ⟨tab, ht, hd⟩ := hlive t (List.mem_cons_self ..)
    obtain ⟨htD, hD⟩ := List.nodup_cons.1 hD
    obtain ⟨p₁, hstep, hbrowser⟩ : ∃ p₁, Page.step p (.destroy t) = some p₁ ∧
      p₁.browser = p.browser.destroyTab t :=
        ⟨{ p.emits t tab.destroyArguments with browser := p.browser.destroyTab t }, by simp [Page.step, ht, hd],
          rfl⟩
    have htabs₁ : ∀ u : Nat, p₁.browser.tabs[u]? =
        p.browser.tabs[u]?.map fun x => if t = u then { x with destroyed := true } else x := by
      intro u
      rw [hbrowser]
      simp only [Browser.destroyTab, ht, hd]
      exact Browser.getElem?_modifyTab ..
    have hterms₁ : p₁.browser.terms = p.browser.terms.erase tab.key := by
      rw [hbrowser]
      simp [Browser.destroyTab, ht, hd]
    have hkey : ∀ u : Nat, p₁.browser.tabs[u]?.map Tangle.Tab.key = p.browser.tabs[u]?.map Tangle.Tab.key := by
      intro u
      rw [htabs₁]
      cases p.browser.tabs[u]? with
      | none => rfl
      | some x => by_cases hu : t = u <;> simp [hu, Tangle.Tab.key]
    obtain ⟨p', hrun, htabs, hterms⟩ := @exec_destroy D p₁ hD fun u hu => by
      obtain ⟨x, hx, hdx⟩ := hlive u (List.mem_cons_of_mem t hu)
      have hut : t ≠ u := by
        rintro rfl
        exact htD hu
      exact ⟨x, by rw [htabs₁, hx]; simp [hut], hdx⟩
    refine ⟨p', Machine.exec_cons.2 ⟨p₁, hstep, hrun⟩, fun u => ?_, ?_⟩
    · rw [htabs, htabs₁]
      cases p.browser.tabs[u]? with
      | none => rfl
      | some x =>
        by_cases hu : t = u
        · simp [hu]
        · simp [hu, Ne.symm hu]
    · rw [hterms, hterms₁]
      simp only [hkey, List.filterMap_cons, ht, Option.map_some]
      rfl

theorem Cascade.renders {s s' : Wm} {D W : List Nat} {new : List Event} (hc : Cascade s s' D W new)
    (hD : D.Nodup) (hlive : ∀ t ∈ D, ∃ tab, s.tabs[t]? = some tab ∧ tab.destroyed = false) {p : Page}
    (h : Renders s p) : ∃ p', Machine.exec Page.step p (D.map .destroy) = some p' ∧ Renders s' p' := by
  obtain ⟨p', hrun, htabs, hterms⟩ := @exec_destroy D p hD fun t ht => by
    obtain ⟨tab, htab, hd⟩ := hlive t ht
    exact ⟨tab.toTab, by rw [h.tab, htab]; rfl, hd⟩
  refine ⟨p', hrun, List.ext_getElem? fun u => ?_, ?_⟩
  · rw [htabs, h.tab, List.getElem?_map]
    cases ht : s.tabs[u]? with
    | some tab =>
      obtain ⟨q, hq⟩ := hc.tab u tab ht
      rw [hq]
      rfl
    | none =>
      have hlen := List.getElem?_eq_none_iff.1 ht
      rw [List.getElem?_eq_none (hc.tabs ▸ hlen)]
      rfl
  · rw [hterms, hc.terms, h.terms]
    congr 1
    unfold Wm.keys
    simp only [h.tab, Option.map_map, Function.comp_def]

theorem Cascade.renders_same {s s' : Wm} (hc : Cascade s s' [] [] []) {p : Page} (h : Renders s p) :
    Renders s' p := by
  obtain ⟨p', hrun, hp'⟩ := hc.renders List.nodup_nil (fun t ht => absurd ht List.not_mem_nil) h
  cases hrun
  exact hp'

/-! ## Creation -/

theorem Renders.newTab {s : Wm} {p : Page} (h : Renders s p) (w : Nat) :
    ∃ p', Machine.exec Page.step p [.create] = some p' ∧
      Renders (Window.push w s.tabs.length (Tab.new w s)) p' := by
  refine ⟨_, rfl, ?_, h.terms⟩
  show p.browser.tabs ++ [Tangle.Tab.connecting] = (s.tabs ++ [Tab.fresh w]).map _
  rw [h.tabs, List.map_append]
  rfl

theorem Renders.newWindow {s : Wm} {p : Page} (h : Renders s p) : Renders (Window.new s) p := ⟨h.tabs, h.terms⟩

theorem Renders.ready {s : Wm} {p : Page} (h : Renders s p) {t : Nat} (ht : t < s.tabs.length) (id : Int) :
    ∃ p', Machine.exec Page.step p [.ready t id] = some p' ∧ Renders (Tab.ready t id s) p' := by
  have hlt : t < p.browser.tabs.length := by rw [h.tabs, List.length_map]; exact ht
  refine ⟨{ p with browser := p.browser.ready t id }, ?_, ?_, ?_⟩
  · rw [Machine.exec_singleton]
    simp [Page.step, hlt]
  · show ((p.browser.tabs.modify t _).modify t _) = List.map _ ((s.tabs.modify t _).modify t _)
    apply List.ext_getElem?
    intro u
    simp only [List.getElem?_modify, List.getElem?_map, h.tab]
    cases s.tabs[u]? with
    | none => rfl
    | some tab => by_cases hu : t = u <;> simp [hu]
  · show OrdHash.set id.repr t p.browser.terms = OrdHash.set id.repr t s.terms
    rw [h.terms]

/-! ## Runs -/

theorem step_renders {s s' : Wm} {a : Act} {p : Page} (hs : Orderly s) (h : Renders s p)
    (hstep : step s a = some s') : ∃ bs p', Machine.exec Page.step p bs = some p' ∧ Renders s' p' := by
  unfold step at hstep
  split at hstep
  case isFalse => cases hstep
  case isTrue ha =>
  have hsame : ∀ {s₁}, a.perform s = some s₁ → Cascade s s₁ [] [] [] →
      ∃ bs p', Machine.exec Page.step p bs = some p' ∧ Renders s' p' := by
    intro s₁ hcall hc
    rw [hstep, Option.some_inj] at hcall
    exact ⟨[], p, rfl, hcall ▸ hc.renders_same h⟩
  have hdestroy : ∀ c : Call, c.Made s → a.perform s = c.perform s →
      ∃ bs p', Machine.exec Page.step p bs = some p' ∧ Renders s' p' := by
    intro c hm hcall
    obtain ⟨s₁, D, W, new, hcall', hc, ht⟩ := Call.perform_eq hs.populated hm
    rw [← hcall, hstep, Option.some_inj] at hcall'
    subst hcall'
    refine ⟨_, hc.renders ht.nodupTabs (fun t htD => ?_) h⟩
    obtain ⟨tab, htab, hd, -⟩ := (ht.reached t).1 htD
    exact ⟨tab, htab, hd⟩
  cases a with
  | newWindow =>
    obtain ⟨s₁, hcall, hc, -⟩ := hs.newWindow 4
    obtain ⟨p', hrun, hp'⟩ := h.newWindow.newTab s.windows.length
    rw [show Act.perform s .newWindow = _ from hcall, Option.some_inj] at hstep
    exact ⟨_, p', hrun, hstep ▸ hc.renders_same hp'⟩
  | createTab w =>
    obtain ⟨s₁, hcall, hc, -⟩ := hs.createTab (hs.live ha) 5
    obtain ⟨p', hrun, hp'⟩ := h.newTab w
    rw [show Act.perform s (.createTab w) = _ from hcall, Option.some_inj] at hstep
    exact ⟨_, p', hrun, hstep ▸ hc.renders_same hp'⟩
  | ready t id =>
    obtain ⟨tab, ht, -⟩ := LiveTab.tab ha
    obtain ⟨p', hrun, hp'⟩ := h.ready (List.getElem?_eq_some_iff.1 ht).1 id
    cases hstep
    exact ⟨_, p', hrun, hp'⟩
  | focusTab t =>
    obtain ⟨tab, ht, hd⟩ := LiveTab.tab ha
    obtain ⟨s₁, hcall, hc, -⟩ := hs.tabFocus ht hd 5
    exact hsame hcall hc
  | focusWindow w =>
    obtain ⟨s₁, hcall, hc, -⟩ := hs.windowFocus (hs.live ha) 4
    exact hsame hcall hc
  | nextTab w =>
    obtain ⟨s₁, hcall, hc, -⟩ := hs.focusTab (hs.live ha) true 5
    exact hsame hcall hc
  | previousTab w =>
    obtain ⟨s₁, hcall, hc, -⟩ := hs.focusTab (hs.live ha) false 5
    exact hsame hcall hc
  | destroyTab t =>
    obtain ⟨tab, ht, -⟩ := LiveTab.tab ha
    exact hdestroy (.tab t) (List.getElem?_eq_some_iff.1 ht).1 rfl
  | destroyWindow w =>
    obtain ⟨win, hw, -⟩ := Option.map_eq_some_iff.1 ha
    exact hdestroy (.window w) (List.getElem?_eq_some_iff.1 hw).1 rfl

/-- A run of the window manager is, for the tabs and `tty.terms`, a run of the page. -/
theorem run_renders (userID : String) {as : List Act} {s : Wm} (h : Machine.exec step init as = some s) :
    ∃ bs p, Machine.exec Page.step (Page.init userID) bs = some p ∧ Renders s p :=
  Machine.exec_simulates (fun _ _ _ hs hstep => (step_eq hs hstep).1)
    (fun _ _ _ _ hs hr hstep => step_renders hs hr hstep) init_orderly ⟨rfl, rfl⟩ h

end Tangle.Wm
