/-
What each operation on the screen can do, guards included, and what every state has: one frame for a window,
one size and one table of listeners for a tab. Every operation completes, and does to windows and tabs what it
does there without sizes and listeners, unless a listener is missing.
-/
import Tangle.Browser.Closing

namespace Tangle

/-- It only gives the focus to something. -/
def Wm.Act.isFocus : Wm.Act → Bool
  | .focusTab _ | .focusWindow _ | .nextTab _ | .previousTab _ => true
  | _ => false

namespace Screen

open EventEmitter (Listener)

/-- The windows and tabs are coherent, and each has its frame, its size and its listeners. -/
structure Sound (s : Screen) : Prop where
  coherent : Wm.Coherent s.wm
  frames : s.frames.length = s.wm.windows.length
  sizes : s.sizes.length = s.wm.tabs.length
  events : s.events.length = s.wm.tabs.length

theorem init_sound (className : String) : Sound (init className) := ⟨Wm.init_coherent, rfl, rfl, rfl⟩

/-- The table of a first tab when its window has registered with it. -/
def registered (k w : Nat) : Events := Function.update (fun _ => []) .opened [.once k (.window w)]

/-- What a step can do. -/
inductive Effect (s : Screen) : Act → Screen → Prop
  | newWindow (wm : Wm) (hc : Wm.Cascade (Wm.Window.push s.wm.windows.length s.wm.tabs.length
      (Wm.Tab.new s.wm.windows.length (Wm.Window.new s.wm))) wm [] [] []) :
    Effect s (.desk .newWindow)
      { s with wm, frames := s.frames ++ [{ geometry with minimize := none }], sizes := s.sizes ++ [geometry]
               events := s.events ++ [registered s.onces s.wm.windows.length], onces := s.onces + 1 }
  | createTab (w : Nat) (f : Frame) (size : Size) (wm : Wm) (hf : s.frames[w]? = some f)
      (hsize : Terminal.new f.toSize = some size)
      (hc : Wm.Cascade (Wm.Window.push w s.wm.tabs.length (Wm.Tab.new w s.wm)) wm [] [] []) :
    Effect s (.desk (.createTab w))
      { s with wm, sizes := s.sizes ++ [size], events := s.events ++ [fun _ => []] }
  | ready (t : Nat) (id : Int) : Effect s (.desk (.ready t id)) (Tab.ready t id s).1
  | focus (a : Wm.Act) (wm : Wm) (ha : a.isFocus = true) (hc : Wm.Cascade s.wm wm [] [] []) :
    Effect s (.desk a) { s with wm }
  | deadTab (t : Nat) (hd : ¬ Wm.LiveTab s.wm t) : Effect s (.desk (.destroyTab t)) s
  | destroyTab (t : Nat) (tab : Wm.Tab) (win : Wm.Window) (wm : Wm) (new : List Wm.Event)
      (ht : s.wm.tabs[t]? = some tab) (hd : tab.destroyed = false) (hw : s.wm.windows[tab.window]? = some win)
      (halone : win.destroyed = true ∨ win.tabs.filter (· ≠ t) ≠ []) (hc : Wm.Cascade s.wm wm [t] [] new) :
    Effect s (.desk (.destroyTab t)) { s with wm, events := silence [t] s.events }
  | destroyLast (t : Nat) (tab : Wm.Tab) (win : Wm.Window) (wm : Wm) (new : List Wm.Event)
      (ht : s.wm.tabs[t]? = some tab) (hd : tab.destroyed = false) (hw : s.wm.windows[tab.window]? = some win)
      (hwd : win.destroyed = false) (hnil : win.tabs.filter (· ≠ t) = [])
      (hc : Wm.Cascade s.wm wm [t] [tab.window] new) :
    Effect s (.desk (.destroyTab t))
      { Window.minimize tab.window s with wm, sizes := s.sizes, events := silence [t] s.events }
  | deadWindow (w : Nat) (hd : ¬ Wm.LiveWindow s.wm w) : Effect s (.desk (.destroyWindow w)) s
  | destroyWindow (w : Nat) (win : Wm.Window) (wm : Wm) (new : List Wm.Event)
      (hw : s.wm.windows[w]? = some win) (hd : win.destroyed = false)
      (hc : Wm.Cascade s.wm wm win.tabs.reverse [w] new) :
    Effect s (.desk (.destroyWindow w))
      { Window.minimize w s with wm, events := silence win.tabs.reverse s.events }
  | on (t : Nat) (type : EventType) (f : Nat) : Effect s (.on t type f) (Tab.on t type (.user f) s)
  | once (t : Nat) (type : EventType) (f : Nat) : Effect s (.once t type f) (Tab.once t type (.user f) s)
  | resize (w : Nat) (cols rows : Int) : Effect s (.resize w cols rows) (Window.resize w cols rows s)
  | restore (w : Nat) (e : Extent) (m : Saved) (hm : s.saved w = some m) :
    Effect s (.maximize w e) (Window.minimize w s)
  | maximize (w : Nat) (e : Extent) (win : Wm.Window) (term : Nat) (size : Size) (hm : s.saved w = none)
      (hw : s.wm.windows[w]? = some win) (hf : win.focused = some term) (hsize : s.sizes[term]? = some size) :
    Effect s (.maximize w e) (Window.resize w (scale e.clientWidth e.offsetWidth size.cols)
      (scale e.clientHeight e.offsetHeight size.rows)
      { s with frames := s.frames.modify w fun f => { f with minimize := some { size with root := s.className } }
               className := "maximized" })
  | minimize (w : Nat) (m : Saved) (hm : s.saved w = some m) : Effect s (.minimize w) (Window.minimize w s)
  | onResize (e : Nat → Extent) (s' : Screen) (h : Screen.onResize e s = some s') : Effect s (.onResize e) s'

/-! ## Creation -/

theorem createTab_effect {s s' : Screen} (h : Sound s) {w : Nat} (hw : w < s.wm.windows.length)
    (hcall : Window.createTab Wm.depth w s = some s') : Effect s (.desk (.createTab w)) s' ∧ Sound s' := by
  obtain ⟨wm, hwm, hc, hcoh, -⟩ := Wm.coherent_createTab h.coherent.listed h.coherent.shown
    (List.getElem?_eq_getElem hw) (fun v hv _ => h.coherent.settled v hv) 5
  unfold Window.createTab at hcall
  simp only [Option.bind_eq_bind, Option.bind_eq_some_iff] at hcall
  obtain ⟨f, hf, size, hsize, hlift⟩ := hcall
  replace hwm : Wm.Window.createTab Wm.depth w s.wm = some wm := hwm
  simp only [lift, hwm, Option.map_some, Option.some_inj] at hlift
  subst hlift
  refine ⟨.createTab w f size wm hf hsize hc, hcoh, ?_, ?_, ?_⟩
  · rw [hc.windows]
    simpa [Wm.Window.push, Wm.modifyWindow, Wm.Tab.new] using h.frames
  · rw [hc.tabs]
    simpa [Wm.Window.push, Wm.modifyWindow, Wm.Tab.new] using h.sizes
  · rw [hc.tabs]
    simpa [Wm.Window.push, Wm.modifyWindow, Wm.Tab.new] using h.events

theorem modify_concat {α : Type*} (l : List α) (a : α) (f : α → α) : (l ++ [a]).modify l.length f = l ++ [f a] := by
  induction l with
  | nil => rfl
  | cons b l ih => exact congrArg (b :: ·) ih

/-- A new window has one tab, of the size every window begins with, and listens to it. -/
theorem newWindow_eq {s : Screen} (h : Sound s) (n : Nat) : ∃ wm, Wm.newWindow (n + 4) s.wm = some wm ∧
    Wm.Coherent wm ∧
    Wm.Cascade (Wm.Window.push s.wm.windows.length s.wm.tabs.length
      (Wm.Tab.new s.wm.windows.length (Wm.Window.new s.wm))) wm [] [] [] ∧
    newWindow (n + 4) s = some
      { s with wm, frames := s.frames ++ [{ geometry with minimize := none }], sizes := s.sizes ++ [geometry]
               events := s.events ++ [registered s.onces s.wm.windows.length], onces := s.onces + 1 } := by
  have hwin : (Wm.Window.new s.wm).windows[s.wm.windows.length]? = some ⟨[], none, false⟩ :=
    Wm.Window.new_windows.2 (.inr ⟨rfl, rfl⟩)
  have hset : ∀ v ∈ (Wm.Window.new s.wm).opened, v ≠ s.wm.windows.length →
      Wm.Settled (Wm.Window.new s.wm) v := by
    intro v hv hne
    refine (h.coherent.settled v ?_).newWindow
    exact (List.mem_append.1 hv).resolve_right fun h => hne (List.mem_singleton.1 h)
  obtain ⟨wm₁, hcreate, hc, h₁, -⟩ := Wm.coherent_createTab h.coherent.listed.newWindow
    (h.coherent.shown.newWindow h.coherent.listed) hwin hset (n + 1)
  have hopen : s.wm.windows.length ∈ wm₁.opened := by
    rw [hc.opened]
    exact List.mem_filter.2 ⟨List.mem_append_right _ (List.mem_singleton.2 rfl), by simp⟩
  obtain ⟨wm, hfocus, hc', hwm, -⟩ := h₁.windowFocus hopen n
  have hcc := hc.trans hc'
  refine ⟨wm, ?_, hwm, hcc, ?_⟩
  · unfold Wm.newWindow
    simp only [hcreate, hfocus, Option.bind_eq_bind, Option.bind_some]
  have hframe : (s.frames ++ [({ geometry with minimize := none } : Frame)])[s.wm.windows.length]? =
      some { geometry with minimize := none } := by rw [← h.frames, List.getElem?_concat_length]
  have htabs : tabs wm s.wm.windows.length = [s.wm.tabs.length] := by
    have hpush := Wm.push_new s.wm.windows.length hwin
    rw [if_pos rfl] at hpush
    obtain ⟨f, hf, -⟩ := hcc.window _ _ hpush
    rw [tabs_eq hf]
    rfl
  unfold newWindow Window.createTab
  simp only [hframe, Option.bind_eq_bind, Option.bind_some]
  show (lift (Wm.Window.createTab (n + 4) s.wm.windows.length) _).bind _ = _
  unfold lift
  simp only [hcreate, hfocus, Option.map_some, Option.bind_some, htabs]
  show some (Tab.once s.wm.tabs.length .opened (.window s.wm.windows.length) _) = _
  unfold Tab.once Tab.listen
  simp only [← h.events, modify_concat, List.nil_append]
  rfl

theorem newWindow_effect {s s' : Screen} (h : Sound s) (hcall : newWindow Wm.depth s = some s') :
    Effect s (.desk .newWindow) s' ∧ Sound s' := by
  obtain ⟨wm, -, hwm, hc, hnew⟩ := newWindow_eq h 4
  unfold Wm.depth at hcall
  rw [hnew, Option.some_inj] at hcall
  subst hcall
  refine ⟨.newWindow wm hc, hwm, ?_, ?_, ?_⟩
  · rw [hc.windows]
    simpa [Wm.Window.push, Wm.modifyWindow, Wm.Tab.new, Wm.Window.new] using h.frames
  · rw [hc.tabs]
    simpa [Wm.Window.push, Wm.modifyWindow, Wm.Tab.new, Wm.Window.new] using h.sizes
  · rw [hc.tabs]
    simpa [Wm.Window.push, Wm.modifyWindow, Wm.Tab.new, Wm.Window.new] using h.events

/-! ## Destruction -/

theorem Sound.cascade {s s' : Screen} {D W : List Nat} {new : List Wm.Event} (h : Sound s)
    (hc : Wm.Cascade s.wm s'.wm D W new) (hcoh : Wm.Coherent s'.wm) (hframes : s'.frames.length = s.frames.length)
    (hsizes : s'.sizes.length = s.sizes.length) (hevents : s'.events.length = s.events.length) : Sound s' :=
  ⟨hcoh, by rw [hframes, h.frames, hc.windows], by rw [hsizes, h.sizes, hc.tabs], by rw [hevents, h.events, hc.tabs]⟩

theorem destroyTab_effect {s : Screen} (h : Sound s) {t : Nat} (ht : t < s.wm.tabs.length) :
    ∃ s', Tab.destroy Wm.depth t s = some s' ∧ Wm.Tab.destroy Wm.depth t s.wm = some s'.wm ∧
      Effect s (.desk (.destroyTab t)) s' ∧ Sound s' := by
  have htab := List.getElem?_eq_getElem ht
  have hcoh := h.coherent
  cases hd : s.wm.tabs[t].destroyed with
  | true =>
    refine ⟨s, Tab.destroy_of_dead htab hd 7, Wm.Tab.destroy_of_destroyed htab hd 7, .deadTab t fun hlive => ?_, h⟩
    obtain ⟨tab, htab', hd'⟩ := hlive.tab
    rw [htab, Option.some_inj] at htab'
    subst htab'
    rw [hd] at hd'
    cases hd'
  | false =>
    obtain ⟨win, hw⟩ := hcoh.listed.window t _ htab
    by_cases halone : win.destroyed = true ∨ win.tabs.filter (· ≠ t) ≠ []
    · obtain ⟨wm, hwm, hcall⟩ := Tab.destroy_alone hcoh.listed htab hd hw halone 3
      have hwm' : ∃ wm', Wm.Tab.destroy (3 + 5) t s.wm = some wm' ∧ Wm.Cascade s.wm wm' [t] [] (Wm.Tab.events t) ∧
          Wm.Coherent wm' := by
        cases hwd : win.destroyed with
        | true => exact hcoh.destroyTab_of_closed htab hd hw hwd 3
        | false =>
          obtain ⟨wm', hwm', hc, hcoh', -⟩ := hcoh.destroyTab_of_others htab hd hw hwd
            (halone.resolve_left (by simp [hwd])) 3
          exact ⟨wm', hwm', hc, hcoh'⟩
      obtain ⟨wm', hwm', hc, hcoh'⟩ := hwm'
      rw [hwm, Option.some_inj] at hwm'
      subst hwm'
      exact ⟨_, hcall, hwm, .destroyTab t _ win wm _ htab hd hw halone hc,
        h.cascade hc hcoh' rfl rfl (silence_length ..)⟩
    · rw [not_or, not_not, Bool.not_eq_true] at halone
      obtain ⟨wm, hwm, hcall⟩ := Tab.destroy_last hcoh.listed hcoh.aims htab hd hw halone.1 halone.2 0
      obtain ⟨wm', hwm', hc, hcoh', -⟩ := hcoh.destroyTab_of_last htab hd hw halone.1 halone.2 0
      rw [hwm, Option.some_inj] at hwm'
      subst hwm'
      exact ⟨_, hcall, hwm, .destroyLast t _ win wm _ htab hd hw halone.1 halone.2 hc,
        h.cascade hc hcoh' (Window.minimize_keeps _ s).frames rfl (silence_length ..)⟩

theorem destroyWindow_effect {s : Screen} (h : Sound s) {w : Nat} (hw : w < s.wm.windows.length) :
    ∃ s', Window.destroy Wm.depth w s = some s' ∧ Wm.Window.destroy Wm.depth w s.wm = some s'.wm ∧
      Effect s (.desk (.destroyWindow w)) s' ∧ Sound s' := by
  have hwin := List.getElem?_eq_getElem hw
  have hcoh := h.coherent
  cases hd : s.wm.windows[w].destroyed with
  | true =>
    refine ⟨s, Window.destroy_of_dead hwin hd 7, Wm.Window.destroy_of_destroyed hwin hd 7, .deadWindow w fun hlive => ?_, h⟩
    obtain ⟨win, hwin', hd'⟩ := Option.map_eq_some_iff.1 hlive
    rw [hwin, Option.some_inj] at hwin'
    subst hwin'
    rw [hd] at hd'
    cases hd'
  | false =>
    obtain ⟨wm, hwm, hcall⟩ := Window.destroy_eq hcoh.listed hcoh.aims hwin hd 2
    obtain ⟨wm', hwm', hc, hcoh', -⟩ := hcoh.destroyWindow hwin hd 2
    rw [hwm, Option.some_inj] at hwm'
    subst hwm'
    exact ⟨_, hcall, hwm, .destroyWindow w _ wm _ hwin hd hc,
      h.cascade hc hcoh' (Window.minimize_keeps w s).frames (Window.minimize_keeps w s).sizes (silence_length ..)⟩

/-! ## A step -/

theorem Sound.keeps {s s' : Screen} (h : Sound s) (hk : Keeps s s') : Sound s' :=
  ⟨hk.wm ▸ h.coherent, by rw [hk.frames, hk.wm, h.frames], by rw [hk.sizes, hk.wm, h.sizes],
    by rw [hk.events, hk.wm, h.events]⟩

theorem focus_effect {s s' : Screen} (h : Sound s) {a : Wm.Act} (ha : a.isFocus = true) {wm : Wm}
    (hwm : a.perform s.wm = some wm) (hc : Wm.Cascade s.wm wm [] [] []) (hcoh : Wm.Coherent wm)
    (hcall : lift (fun wm => a.perform wm) s = some s') : Effect s (.desk a) s' ∧ Sound s' := by
  simp only [lift, hwm, Option.map_some, Option.some_inj] at hcall
  subst hcall
  exact ⟨.focus a wm ha hc, h.cascade hc hcoh rfl rfl rfl⟩

theorem step_effect {s s' : Screen} {a : Act} (h : Sound s) (hstep : step s a = some s') :
    Effect s a s' ∧ Sound s' := by
  unfold step at hstep
  split at hstep
  case isFalse => cases hstep
  rename_i hmade
  have hcoh := h.coherent
  cases a with
  | desk a =>
    cases a with
    | newWindow => exact newWindow_effect h hstep
    | createTab w => exact createTab_effect h hmade hstep
    | ready t id =>
      cases hstep
      obtain ⟨wm, events, called, heq, halike, hlen, -⟩ := Tab.ready_eq t id s
      have htabs : wm.tabs.length = s.wm.tabs.length := by
        have houtline : wm.tabs.map Wm.Tab.outline = s.wm.tabs.map Wm.Tab.outline :=
          List.ext_getElem? fun i => by simpa using halike.tabs i
        simpa using congrArg List.length houtline
      refine ⟨.ready t id, ?_⟩
      rw [heq]
      exact ⟨halike.coherent hcoh, by rw [halike.windows]; exact h.frames, by rw [htabs]; exact h.sizes,
        by rw [htabs, ← h.events]; exact hlen⟩
    | focusTab t =>
      obtain ⟨tab, ht, hd⟩ := Wm.LiveTab.tab hmade
      obtain ⟨wm, hwm, hc, hcoh', -⟩ := hcoh.tabFocus ht hd 5
      exact focus_effect h rfl hwm hc hcoh' hstep
    | focusWindow w =>
      obtain ⟨wm, hwm, hc, hcoh', -⟩ := hcoh.windowFocus (hcoh.live hmade) 4
      exact focus_effect h rfl hwm hc hcoh' hstep
    | nextTab w =>
      obtain ⟨wm, hwm, hc, hcoh', -⟩ := hcoh.focusTab (hcoh.live hmade) true 5
      exact focus_effect h rfl hwm hc hcoh' hstep
    | previousTab w =>
      obtain ⟨wm, hwm, hc, hcoh', -⟩ := hcoh.focusTab (hcoh.live hmade) false 5
      exact focus_effect h rfl hwm hc hcoh' hstep
    | destroyTab t =>
      obtain ⟨s₁, hcall, -, heffect⟩ := destroyTab_effect h hmade
      cases hcall.symm.trans hstep
      exact heffect
    | destroyWindow w =>
      obtain ⟨s₁, hcall, -, heffect⟩ := destroyWindow_effect h hmade
      cases hcall.symm.trans hstep
      exact heffect
  | on t type f =>
    cases hstep
    exact ⟨.on t type f, hcoh, h.frames, h.sizes, (List.length_modify ..).trans h.events⟩
  | once t type f =>
    cases hstep
    exact ⟨.once t type f, hcoh, h.frames, h.sizes, (List.length_modify ..).trans h.events⟩
  | resize w cols rows =>
    cases hstep
    exact ⟨.resize w cols rows, h.keeps (Window.resize_keeps w cols rows s)⟩
  | maximize w e =>
    replace hstep : Window.maximize w e s = some s' := hstep
    refine ⟨?_, h.keeps (Window.maximize_keeps hstep)⟩
    rcases Window.maximize_cases hstep with ⟨m, hm, rfl⟩ | ⟨win, term, size, hm, hw, hf, hsize, rfl⟩
    · exact .restore w e m hm
    · exact .maximize w e win term size hm hw hf hsize
  | minimize w =>
    cases hstep
    obtain ⟨m, hm⟩ := Option.isSome_iff_exists.1 hmade
    exact ⟨.minimize w m hm, h.keeps (Window.minimize_keeps w s)⟩
  | onResize e =>
    replace hstep : Screen.onResize e s = some s' := hstep
    exact ⟨.onResize e s' hstep, h.keeps (onResizeFrom_keeps hstep)⟩

theorem exec_sound {className : String} {as : List Act} {s : Screen}
    (hrun : Machine.exec step (init className) as = some s) : Sound s :=
  Machine.exec_inv (fun _ _ _ hs hstep => (step_effect hs hstep).2) (init_sound className) hrun

/-! ## Completion -/

/-- A tab is not made with a negative number of rows, and a window that is destroyed is not maximized. -/
def Act.Able (s : Screen) : Act → Prop
  | .desk (.createTab w) => ∀ f, s.frames[w]? = some f → 0 ≤ f.rows
  | .maximize w _ => w ∈ s.wm.opened ∨ (s.saved w).isSome
  | _ => True

theorem Terminal.new_some {size : Size} (h : 0 ≤ size.rows) : ∃ size', Terminal.new size = some size' := by
  refine ⟨_, if_neg ?_⟩
  dsimp only [geometry]
  split <;> omega

theorem maximize_some {s : Screen} (h : Sound s) {w : Nat} (hw : w ∈ s.wm.opened) (e : Extent) :
    ∃ s', Window.maximize w e s = some s' := by
  cases hm : s.saved w with
  | some m => exact ⟨_, Window.maximize_of_some hm e⟩
  | none =>
    obtain ⟨win, term, hwin, hf, hterm⟩ := h.coherent.settled w hw
    obtain ⟨tab, htab, -⟩ := (h.coherent.listed.tabs w win hwin term).1 hterm
    have hlt : term < s.sizes.length := h.sizes ▸ (List.getElem?_eq_some_iff.1 htab).1
    exact ⟨_, Window.maximize_of_none hm hwin hf (List.getElem?_eq_getElem hlt) e⟩

theorem onResizeFrom_some {e : Nat → Extent} {i : Nat} {s : Screen} (h : Sound s) (hi : i ≤ s.wm.opened.length) :
    ∃ s', onResizeFrom e i s = some s' := by
  induction i generalizing s with
  | zero => exact ⟨s, rfl⟩
  | succ i ih =>
    have hw := List.getElem?_eq_getElem hi
    unfold onResizeFrom
    simp only [hw, Option.bind_eq_bind, Option.bind_some]
    split
    · have hk := Window.minimize_keeps s.wm.opened[i] s
      obtain ⟨s₁, hs₁⟩ := maximize_some (h.keeps hk) (by rw [hk.wm]; exact List.getElem_mem hi) (e s.wm.opened[i])
      have hk₁ := hk.trans (Window.maximize_keeps hs₁)
      rw [hs₁, Option.bind_some]
      exact ih (h.keeps hk₁) (by rw [hk₁.wm]; exact Nat.le_of_succ_le hi)
    · exact ih h (Nat.le_of_succ_le hi)

/-- Every operation completes. -/
theorem perform_some {s : Screen} {a : Act} (h : Sound s) (ha : a.OnMade s) (hable : a.Able s) :
    ∃ s', a.perform s = some s' := by
  have hcoh := h.coherent
  have hlift : ∀ {f : Wm → Option Wm} {wm : Wm}, f s.wm = some wm → ∃ s', lift f s = some s' := fun hwm =>
    ⟨_, by rw [lift, hwm, Option.map_some]⟩
  cases a with
  | desk a =>
    cases a with
    | newWindow =>
      obtain ⟨wm, -, -, -, hnew⟩ := newWindow_eq h 4
      exact ⟨_, hnew⟩
    | createTab w =>
      have hw : w < s.wm.windows.length := ha
      have hf := List.getElem?_eq_getElem (h.frames ▸ hw)
      obtain ⟨size, hsize⟩ := Terminal.new_some (hable _ hf)
      obtain ⟨wm, hwm, -⟩ := Wm.coherent_createTab hcoh.listed hcoh.shown (List.getElem?_eq_getElem hw)
        (fun v hv _ => hcoh.settled v hv) 5
      show ∃ s', Window.createTab Wm.depth w s = some s'
      unfold Window.createTab lift
      simp only [hf, hsize, Option.bind_eq_bind, Option.bind_some]
      exact ⟨_, by rw [show Wm.Window.createTab Wm.depth w s.wm = some wm from hwm, Option.map_some]⟩
    | ready t id => exact ⟨_, rfl⟩
    | focusTab t =>
      obtain ⟨tab, ht, hd⟩ := Wm.LiveTab.tab ha
      obtain ⟨wm, hwm, -⟩ := hcoh.tabFocus ht hd 5
      exact hlift hwm
    | focusWindow w =>
      obtain ⟨wm, hwm, -⟩ := hcoh.windowFocus (hcoh.live ha) 4
      exact hlift hwm
    | nextTab w =>
      obtain ⟨wm, hwm, -⟩ := hcoh.focusTab (hcoh.live ha) true 5
      exact hlift hwm
    | previousTab w =>
      obtain ⟨wm, hwm, -⟩ := hcoh.focusTab (hcoh.live ha) false 5
      exact hlift hwm
    | destroyTab t =>
      obtain ⟨s', hcall, -⟩ := destroyTab_effect h ha
      exact ⟨s', hcall⟩
    | destroyWindow w =>
      obtain ⟨s', hcall, -⟩ := destroyWindow_effect h ha
      exact ⟨s', hcall⟩
  | on t type f => exact ⟨_, rfl⟩
  | once t type f => exact ⟨_, rfl⟩
  | resize w cols rows => exact ⟨_, rfl⟩
  | maximize w e =>
    rcases hable with hopen | hsaved
    · exact maximize_some h hopen e
    · obtain ⟨m, hm⟩ := Option.isSome_iff_exists.1 hsaved
      exact ⟨_, Window.maximize_of_some hm e⟩
  | minimize w => exact ⟨_, rfl⟩
  | onResize e => exact onResizeFrom_some h (Nat.le_refl _)

/-! ## The windows and tabs below -/

/-- What an operation is on `Wm` alone. -/
def Act.below : Act → Option Wm.Act
  | .desk a => some a
  | _ => none

/-- It is not a `ready` that throws, which leaves the tab as it is. -/
def Act.Calm (s : Screen) (a : Act) : Prop := ∀ t id, a = .desk (.ready t id) → (Tab.ready t id s).2 = false

theorem Tab.ready_wm {s : Screen} {t : Nat} {id : Int} (h : (Tab.ready t id s).2 = false) :
    (Tab.ready t id s).1.wm = Wm.Tab.ready t id s.wm := by
  obtain ⟨events, called, heq, -⟩ := Tab.emit_eq t .opened { s with wm := Wm.Tab.enter t id s.wm }
  unfold Tab.ready at h ⊢
  simp only at h ⊢
  split at h
  · cases h
  · rename_i hreturn
    rw [if_neg hreturn, heq]
    rfl

theorem lift_wm {f : Wm → Option Wm} {s s' : Screen} (h : lift f s = some s') : f s.wm = some s'.wm := by
  obtain ⟨wm, hwm, rfl⟩ := Option.map_eq_some_iff.1 h
  exact hwm

theorem step_wm {s s' : Screen} {a : Act} (h : Sound s) (hcalm : a.Calm s) (hstep : step s a = some s') :
    Machine.exec (fun wm (b : Wm.Act) => b.perform wm) s.wm a.below.toList = some s'.wm := by
  have hsame : Keeps s s' → some s.wm = some s'.wm := fun hk => by rw [hk.wm]
  unfold step at hstep
  split at hstep
  case isFalse => cases hstep
  rename_i hmade
  cases a with
  | desk b =>
    refine Machine.exec_singleton.2 ?_
    cases b with
    | newWindow =>
      obtain ⟨wm, hwm, -, -, hnew⟩ := newWindow_eq h 4
      cases hnew.symm.trans hstep
      exact hwm
    | createTab w =>
      replace hstep : Window.createTab Wm.depth w s = some s' := hstep
      unfold Window.createTab at hstep
      simp only [Option.bind_eq_bind, Option.bind_eq_some_iff] at hstep
      obtain ⟨f, -, size, -, hlift⟩ := hstep
      exact lift_wm hlift
    | ready t id =>
      cases hstep
      rw [Tab.ready_wm (hcalm t id rfl)]
      rfl
    | destroyTab t =>
      obtain ⟨s₁, hcall, hwm, -⟩ := destroyTab_effect h hmade
      cases hcall.symm.trans hstep
      exact hwm
    | destroyWindow w =>
      obtain ⟨s₁, hcall, hwm, -⟩ := destroyWindow_effect h hmade
      cases hcall.symm.trans hstep
      exact hwm
    | focusTab t => exact @lift_wm (fun wm => Wm.Act.perform wm (.focusTab t)) s s' hstep
    | focusWindow w => exact @lift_wm (fun wm => Wm.Act.perform wm (.focusWindow w)) s s' hstep
    | nextTab w => exact @lift_wm (fun wm => Wm.Act.perform wm (.nextTab w)) s s' hstep
    | previousTab w => exact @lift_wm (fun wm => Wm.Act.perform wm (.previousTab w)) s s' hstep
  | on t type f => cases hstep; rfl
  | once t type f => cases hstep; rfl
  | resize w cols rows =>
    cases hstep
    exact hsame (Window.resize_keeps w cols rows s)
  | maximize w e => exact hsame (Window.maximize_keeps hstep)
  | minimize w =>
    cases hstep
    exact hsame (Window.minimize_keeps w s)
  | onResize e => exact hsame (onResizeFrom_keeps hstep)

/-- Where no `ready` throws, a run on the screen does to windows and tabs what its operations on them do alone. -/
theorem run_below : ∀ {as : List Act} {s s' : Screen}, Sound s → Machine.Meets step (fun s a => a.Calm s) s as →
    Machine.exec step s as = some s' →
    Machine.exec (fun wm (b : Wm.Act) => b.perform wm) s.wm (as.flatMap fun a => a.below.toList) = some s'.wm
  | [], s, s', _, _, hrun => by
    cases hrun
    rfl
  | a :: as, s, s', h, hcalm, hrun => by
    obtain ⟨s₁, hs₁, hrest⟩ := Machine.exec_cons.1 hrun
    obtain ⟨ha, has⟩ := hcalm s₁ hs₁
    rw [List.flatMap_cons]
    exact Machine.exec_append.2 ⟨s₁.wm, step_wm h ha hs₁, run_below (step_effect h hs₁).2 has hrest⟩

end Screen

end Tangle
