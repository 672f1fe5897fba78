/-
Who is told that a tab is open and that it is closed. The window of a first tab listens once, before anyone
else can, so that its function takes itself out at the front of the array that is gone through: with another
listener behind it `ready` ends in an exception. What a tab announces when it is destroyed nobody hears, as
its listeners are gone by then.
-/
import Tangle.Browser.Moves

namespace Tangle

theorem Wm.Cascade.live_iff {s s' : Wm} {D W : List Nat} {new : List Wm.Event} (hc : Wm.Cascade s s' D W new) (t : Nat) :
    Wm.LiveTab s' t ↔ Wm.LiveTab s t ∧ t ∉ D := by
  unfold Wm.LiveTab
  cases ht : s.tabs[t]? with
  | some tab =>
    obtain ⟨p, hp⟩ := hc.tab t tab ht
    rw [hp]
    simp
  | none =>
    have ht' : s'.tabs[t]? = none := by
      rw [List.getElem?_eq_none_iff] at ht ⊢
      rwa [hc.tabs]
    rw [ht']
    simp

theorem Wm.Alike.live_iff {s s' : Wm} (h : Wm.Alike s s') (t : Nat) : Wm.LiveTab s' t ↔ Wm.LiveTab s t := by
  have hdestroyed : ∀ wm : Wm, (wm.tabs[t]?.map fun tab => tab.destroyed) =
      (wm.tabs[t]?.map Wm.Tab.outline).map fun x => x.2.1 := by
    intro wm
    rw [Option.map_map]
    rfl
  unfold Wm.LiveTab
  rw [hdestroyed, hdestroyed, h.tabs]

namespace Screen

open EventEmitter (Listener)

/-- `_events[type]` of a tab. -/
def listeners (s : Screen) (t : Nat) (type : EventType) : List (Listener Handler) :=
  (s.events[t]?.map fun ev => ev type).getD []

/-- What an operation adds to the listeners of a tab. -/
def Act.registers (s : Screen) (t : Nat) (type : EventType) : Act → List (Listener Handler)
  | .on u ty f => if u = t ∧ ty = type then [.plain (.user f)] else []
  | .once u ty f => if u = t ∧ ty = type then [.once s.onces (.user f)] else []
  | _ => []

/-- What a tab shows. -/
def process (s : Screen) (t : Nat) : Option String := s.wm.tabs[t]?.map fun tab => tab.process

theorem listeners_congr {s s' : Screen} {t : Nat} (h : s'.events[t]? = s.events[t]?) (type : EventType) :
    listeners s' t type = listeners s t type := by
  unfold listeners
  rw [h]

theorem listeners_listen {s : Screen} {t u : Nat} (ht : t < s.events.length) (ty type : EventType)
    (on : Listener Handler) :
    listeners (Tab.listen u ty on s) t type = listeners s t type ++ if u = t ∧ ty = type then [on] else [] := by
  unfold listeners Tab.listen
  simp only [List.getElem?_modify, List.getElem?_eq_getElem ht, Option.map_some, Option.getD_some]
  by_cases hu : u = t
  · by_cases hty : ty = type
    · simp [hu, hty]
    · simp [hu, hty, Function.update_of_ne (Ne.symm hty)]
  · simp [hu]

theorem listeners_silence {s : Screen} {t : Nat} {ts : List Nat} (type : EventType) :
    listeners { s with events := silence ts s.events } t type = if t ∈ ts then [] else listeners s t type := by
  unfold listeners
  show ((silence ts s.events)[t]?.map fun ev => ev type).getD [] = _
  rw [silence_getElem?, Option.map_map]
  cases s.events[t]? <;> by_cases ht : t ∈ ts <;> simp [ht]

/-! ## Steps -/

/-- What a step means for a tab that was made. -/
inductive Fate (t : Nat) (s : Screen) (a : Act) (s' : Screen) : Prop
  | stays (hlive : Wm.LiveTab s'.wm t ↔ Wm.LiveTab s.wm t) (hready : ∀ id, a ≠ .desk (.ready t id))
      (hlisteners : ∀ type, listeners s' t type = listeners s t type ++ a.registers s t type)
      (hprocess : process s' t = process s t)
  | ready (id : Int) (ha : a = .desk (.ready t id)) (hs' : s' = (Tab.ready t id s).1)
  | goes (hlive : Wm.LiveTab s.wm t) (hdead : ¬ Wm.LiveTab s'.wm t) (hlisteners : ∀ type, listeners s' t type = [])
      (hcalled : s'.called = s.called)

/-- What is torn down are the tabs `D`, and their listeners with them. -/
theorem Fate.of_cascade {s s' : Screen} {t : Nat} {a : Act} {D W : List Nat} {new : List Wm.Event}
    (hc : Wm.Cascade s.wm s'.wm D W new) (hD : ∀ u ∈ D, Wm.LiveTab s.wm u) (hready : ∀ id, a ≠ .desk (.ready t id))
    (hregisters : ∀ type, a.registers s t type = []) (hevents : s'.events = silence D s.events)
    (hcalled : s'.called = s.called) : Fate t s a s' := by
  have hlisteners : ∀ type, listeners s' t type = if t ∈ D then [] else listeners s t type := by
    intro type
    rw [← listeners_silence]
    exact listeners_congr (by rw [hevents]) type
  by_cases ht : t ∈ D
  · refine .goes (hD t ht) (fun hlive => ((hc.live_iff t).1 hlive).2 ht) (fun type => ?_) hcalled
    rw [hlisteners, if_pos ht]
  · refine .stays ((hc.live_iff t).trans (and_iff_left ht)) hready (fun type => ?_) ?_
    · rw [hlisteners, if_neg ht, hregisters, List.append_nil]
    · unfold process
      cases htab : s.wm.tabs[t]? with
      | some tab =>
        obtain ⟨p, hp⟩ := hc.tab t tab htab
        rw [hp]
        rfl
      | none =>
        have htab' : s'.wm.tabs[t]? = none := by
          rw [List.getElem?_eq_none_iff] at htab ⊢
          rwa [hc.tabs]
        rw [htab']

theorem Fate.of_keeps {s s' : Screen} {t : Nat} {a : Act} (hk : Keeps s s') (hready : ∀ id, a ≠ .desk (.ready t id))
    (hregisters : ∀ type, a.registers s t type = []) : Fate t s a s' := by
  refine .stays (by rw [hk.wm]) hready (fun type => ?_) (by unfold process; rw [hk.wm])
  rw [hregisters, List.append_nil]
  exact listeners_congr (by rw [hk.events]) type

/-- A new tab comes after those there are. -/
theorem Fate.of_push {s s' : Screen} {t w : Nat} {a : Act} {wm₀ : Wm} {ev : Events} (ht : t < s.wm.tabs.length)
    (hev : t < s.events.length)
    (hc : Wm.Cascade (Wm.Window.push w s.wm.tabs.length (Wm.Tab.new w wm₀)) s'.wm [] [] [])
    (htabs : wm₀.tabs = s.wm.tabs)
    (hready : ∀ id, a ≠ .desk (.ready t id)) (hregisters : ∀ type, a.registers s t type = [])
    (hevents : s'.events = s.events ++ [ev]) : Fate t s a s' := by
  have hold : (Wm.Window.push w s.wm.tabs.length (Wm.Tab.new w wm₀)).tabs[t]? = s.wm.tabs[t]? := by
    show (wm₀.tabs ++ [Wm.Tab.fresh w])[t]? = _
    rw [htabs, List.getElem?_append_left ht]
  refine .stays ?_ hready (fun type => ?_) ?_
  · rw [hc.live_iff t, and_iff_left List.not_mem_nil]
    unfold Wm.LiveTab
    rw [hold]
  · rw [hregisters, List.append_nil]
    exact listeners_congr (by rw [hevents, List.getElem?_append_left hev]) type
  · unfold process
    rw [List.getElem?_eq_getElem ht] at hold ⊢
    obtain ⟨p, hp⟩ := hc.tab t _ hold
    rw [hp]
    rfl

theorem Fate.of_listen {s : Screen} {t u : Nat} {a : Act} {ty : EventType} {on : Listener Handler} {onces : Nat}
    (ht : t < s.events.length) (hready : ∀ id, a ≠ .desk (.ready t id))
    (hregisters : ∀ type, a.registers s t type = if u = t ∧ ty = type then [on] else []) :
    Fate t s a { Tab.listen u ty on s with onces } := by
  refine .stays Iff.rfl hready (fun type => ?_) rfl
  rw [hregisters]
  exact listeners_listen ht ty type on

/-- A tab that gets its id leaves the others as they are. -/
theorem Tab.ready_process {s : Screen} {t u : Nat} (htu : t ≠ u) (id : Int) :
    process (Tab.ready u id s).1 t = process s t := by
  have hemit : (Tab.emit u .opened { s with wm := Wm.Tab.enter u id s.wm }).1.wm = Wm.Tab.enter u id s.wm := by
    obtain ⟨events, called, heq, -⟩ := Tab.emit_eq u .opened { s with wm := Wm.Tab.enter u id s.wm }
    rw [heq]
  have henter : (Wm.Tab.enter u id s.wm).tabs[t]? = s.wm.tabs[t]? := by
    show (s.wm.modifyTab u _).tabs[t]? = _
    simp [Wm.modifyTab_tabs, htu]
  unfold process Tab.ready
  simp only
  split
  · rw [hemit, henter]
  · rw [Wm.modifyTab_tabs, hemit, henter]
    simp [htu]

theorem step_fate {s s' : Screen} {a : Act} {t : Nat} (h : Sound s) (ht : t < s.wm.tabs.length)
    (hstep : step s a = some s') : Fate t s a s' := by
  have hev : t < s.events.length := h.events ▸ ht
  cases (step_effect h hstep).1 with
  | newWindow wm hc => exact .of_push ht hev hc rfl (by simp) (fun _ => rfl) rfl
  | createTab w f size wm hf hsize hc => exact .of_push ht hev hc rfl (by simp) (fun _ => rfl) rfl
  | ready u id =>
    by_cases htu : t = u
    · subst htu
      exact .ready id rfl rfl
    · obtain ⟨wm, events, called, heq, halike, -, hother⟩ := Tab.ready_eq u id s
      have hprocess := Tab.ready_process (s := s) htu id
      rw [heq] at hprocess ⊢
      refine .stays (halike.live_iff t) (by simp [Ne.symm htu]) (fun type => ?_) hprocess
      exact (listeners_congr (hother t htu) type).trans (List.append_nil _).symm
  | focus a wm hfocus hc =>
    refine .of_cascade hc (fun u hu => (by cases hu)) ?_ ?_ rfl rfl
    · rintro id he
      cases he
      cases hfocus
    · exact fun _ => rfl
  | deadTab u hd => exact .of_keeps ⟨rfl, rfl, rfl, rfl, rfl, rfl⟩ (by simp) fun _ => rfl
  | destroyTab u tab win wm new hu hd hw halone hc =>
    refine .of_cascade hc (fun v hv => ?_) (by simp) (fun _ => rfl) rfl rfl
    rw [List.mem_singleton.1 hv]
    exact Option.map_eq_some_iff.2 ⟨tab, hu, hd⟩
  | destroyLast u tab win wm new hu hd hw hwd hnil hc =>
    refine .of_cascade hc (fun v hv => ?_) (by simp) (fun _ => rfl) rfl (Window.minimize_keeps _ s).called
    rw [List.mem_singleton.1 hv]
    exact Option.map_eq_some_iff.2 ⟨tab, hu, hd⟩
  | deadWindow w hd => exact .of_keeps ⟨rfl, rfl, rfl, rfl, rfl, rfl⟩ (by simp) fun _ => rfl
  | destroyWindow w win wm new hw hd hc =>
    refine .of_cascade hc (fun v hv => ?_) (by simp) (fun _ => rfl) rfl (Window.minimize_keeps w s).called
    obtain ⟨tab, htab, -, hlive⟩ := (h.coherent.listed.tabs w win hw v).1 (List.mem_reverse.1 hv)
    exact Option.map_eq_some_iff.2 ⟨tab, htab, hlive⟩
  | on u ty f => exact .of_listen hev (by simp) fun _ => rfl
  | once u ty f => exact .of_listen hev (by simp) fun _ => rfl
  | resize w cols rows => exact .of_keeps (Window.resize_keeps w cols rows s) (by simp) fun _ => rfl
  | restore w e m hm => exact .of_keeps (Window.minimize_keeps w s) (by simp) fun _ => rfl
  | maximize w e win term size hm hw hf hsize =>
    exact .of_keeps (Window.maximize_keeps (Window.maximize_of_none hm hw hf hsize e)) (by simp) fun _ => rfl
  | minimize w m hm => exact .of_keeps (Window.minimize_keeps w s) (by simp) fun _ => rfl
  | onResize e s' hres => exact .of_keeps (onResizeFrom_keeps hres) (by simp) fun _ => rfl

/-- Tabs are only ever added. -/
theorem step_made {s s' : Screen} {a : Act} (h : Sound s) (hstep : step s a = some s') :
    s.wm.tabs.length ≤ s'.wm.tabs.length := by
  obtain ⟨heffect, h'⟩ := step_effect h hstep
  rw [← h.events, ← h'.events]
  cases heffect with
  | newWindow => exact List.length_append ▸ Nat.le_add_right ..
  | createTab => exact List.length_append ▸ Nat.le_add_right ..
  | ready t id =>
    obtain ⟨wm, events, called, heq, -, hlen, -⟩ := Tab.ready_eq t id s
    rw [heq]
    exact Nat.le_of_eq hlen.symm
  | focus => exact Nat.le_refl _
  | deadTab => exact Nat.le_refl _
  | destroyTab => exact Nat.le_of_eq (silence_length ..).symm
  | destroyLast => exact Nat.le_of_eq (silence_length ..).symm
  | deadWindow => exact Nat.le_refl _
  | destroyWindow => exact Nat.le_of_eq (silence_length ..).symm
  | on => exact Nat.le_of_eq (List.length_modify ..).symm
  | once => exact Nat.le_of_eq (List.length_modify ..).symm
  | resize w cols rows => rw [(Window.resize_keeps w cols rows s).events]
  | restore w => rw [(Window.minimize_keeps w s).events]
  | maximize w e win term size hm hw hf hsize =>
    rw [(Window.maximize_keeps (Window.maximize_of_none hm hw hf hsize e)).events]
  | minimize w => rw [(Window.minimize_keeps w s).events]
  | onResize e s' hres => rw [(onResizeFrom_keeps hres).events]

/-- What every step keeps once a tab was made holds after every run from there. -/
theorem exec_made {s s' : Screen} {as : List Act} {t : Nat} {P : Screen → Prop}
    (hP : ∀ s a s', Sound s → t < s.wm.tabs.length → P s → step s a = some s' → P s') (h : Sound s)
    (ht : t < s.wm.tabs.length) (hp : P s) (hrun : Machine.exec step s as = some s') : P s' := by
  have hinv : Sound s' ∧ t < s'.wm.tabs.length ∧ P s' := by
    refine @Machine.exec_inv _ _ step (fun s => Sound s ∧ t < s.wm.tabs.length ∧ P s) (fun s a s' hs hstep => ?_)
      as s s' ⟨h, ht, hp⟩ hrun
    obtain ⟨hsound, ht, hp⟩ := hs
    exact ⟨(step_effect hsound hstep).2, Nat.lt_of_lt_of_le ht (step_made hsound hstep), hP s a s' hsound ht hp hstep⟩
  exact hinv.2.2

/-- A tab that is destroyed is not live again. -/
theorem step_dead {s s' : Screen} {a : Act} {t : Nat} (h : Sound s) (ht : t < s.wm.tabs.length)
    (hdead : ¬ Wm.LiveTab s.wm t) (hstep : step s a = some s') : ¬ Wm.LiveTab s'.wm t := by
  cases step_fate h ht hstep with
  | stays hlive => exact fun hl => hdead (hlive.1 hl)
  | ready id ha hs' =>
    obtain ⟨wm, events, called, heq, halike, -⟩ := Tab.ready_eq t id s
    rw [hs', heq]
    exact fun hl => hdead ((halike.live_iff t).1 hl)
  | goes hlive => exact absurd hlive hdead

/-! ## 'close' -/

/-- From `s` to `s'` each listener that tab `t` has on 'close' in `s` was called once. -/
def ToldClosed (t : Nat) (s s' : Screen) : Prop := ∃ new, s'.called = s.called ++ new ∧
  ∀ f, new.count (t, .closed, f) = ((listeners s t .closed).map Listener.listener).count f

/-- In every run and however a tab is destroyed, its listeners on 'close' are told exactly if there are none. -/
theorem told_closed_iff {className : String} {as : List Act} {s s' : Screen} {a : Act} {t : Nat}
    (hrun : Machine.exec step (init className) as = some s) (hstep : step s a = some s')
    (hlive : Wm.LiveTab s.wm t) (hdead : ¬ Wm.LiveTab s'.wm t) : ToldClosed t s s' ↔ listeners s t .closed = [] := by
  have h := exec_sound hrun
  have ht : t < s.wm.tabs.length := by
    obtain ⟨tab, htab, -⟩ := hlive.tab
    exact (List.getElem?_eq_some_iff.1 htab).1
  have hcalled : s'.called = s.called := by
    cases step_fate h ht hstep with
    | stays hsame => exact absurd (hsame.2 hlive) hdead
    | ready id ha hs' =>
      obtain ⟨wm, events, called, heq, halike, -⟩ := Tab.ready_eq t id s
      rw [hs', heq] at hdead
      exact absurd ((halike.live_iff t).2 hlive) hdead
    | goes _ _ _ hcalled => exact hcalled
  constructor
  · rintro ⟨new, hnew, hcount⟩
    have hnil : new = [] := by
      rw [hcalled] at hnew
      exact List.append_right_eq_self.1 hnew.symm
    cases hl : listeners s t .closed with
    | nil => rfl
    | cons on rest =>
      have := hcount on.listener
      rw [hnil, hl, List.map_cons, List.count_cons_self] at this
      cases this
  · intro hl
    exact ⟨[], by rw [hcalled, List.append_nil], fun f => by rw [hl]; rfl⟩

/-- A tab to whose end nobody listens. -/
theorem told_closed_none : ∃ s s', Machine.exec step (init "") [.desk .newWindow] = some s ∧
    step s (.desk (.destroyTab 0)) = some s' ∧ ToldClosed 0 s s' := by
  have hrun : ∃ s ∈ Machine.exec step (init "") [.desk .newWindow], ∃ s' ∈ step s (.desk (.destroyTab 0)),
      Wm.LiveTab s.wm 0 ∧ ¬ Wm.LiveTab s'.wm 0 ∧ listeners s 0 .closed = [] := by
    decide +kernel
  obtain ⟨s, hs, s', hs', hlive, hdead, hnil⟩ := hrun
  exact ⟨s, s', hs, hs', (told_closed_iff hs hs' hlive hdead).2 hnil⟩

/-- A listener that is not told. -/
theorem close_unheard : ∃ s s', Machine.exec step (init "") [.desk .newWindow, .on 0 .closed 7] = some s ∧
    step s (.desk (.destroyTab 0)) = some s' ∧ Wm.LiveTab s.wm 0 ∧ ¬ Wm.LiveTab s'.wm 0 ∧ ¬ ToldClosed 0 s s' := by
  have hrun : ∃ s ∈ Machine.exec step (init "") [.desk .newWindow, .on 0 .closed 7],
      ∃ s' ∈ step s (.desk (.destroyTab 0)), Wm.LiveTab s.wm 0 ∧ ¬ Wm.LiveTab s'.wm 0 ∧
        listeners s 0 .closed = [.plain (.user 7)] ∧ s.called = [] ∧ s'.called = [] := by
    decide +kernel
  obtain ⟨s, hs, s', hs', hlive, hdead, hlisteners, hcalled, hcalled'⟩ := hrun
  refine ⟨s, s', hs, hs', hlive, hdead, ?_⟩
  rintro ⟨new, hnew, hcount⟩
  rw [hcalled, hcalled', List.nil_append] at hnew
  have := hcount (.user 7)
  rw [← hnew, hlisteners] at this
  revert this
  decide

/-! ## 'open' -/

/-- The further listeners that are registered on 'open' of a tab, in order. -/
def registrations (t : Nat) : List Act → List Handler
  | [] => []
  | .on u .opened f :: as | .once u .opened f :: as => if u = t then .user f :: registrations t as else registrations t as
  | _ :: as => registrations t as

/-- `ready` does not throw, calls the function of the window and these listeners once each, and the tab shows
that it is connected. -/
def Notified (t w : Nat) (fs : List Handler) (id : Int) (s : Screen) : Prop :=
  (Tab.ready t id s).2 = false ∧ process (Tab.ready t id s).1 t = some "Connected" ∧
    ∃ called : List Handler, (Tab.ready t id s).1.called = s.called ++ called.map (fun f => (t, .opened, f)) ∧
      called.Perm (.window w :: fs)

/-- The tab was not ready yet: the window listens first, and then those that were registered since. -/
structure Waiting (t w : Nat) (fs : List Handler) (s : Screen) : Prop where
  live : Wm.LiveTab s.wm t
  listeners : ∃ k rest, listeners s t .opened = .once k (.window w) :: rest ∧ rest.map Listener.listener = fs
  users : ∀ f ∈ fs, f ≠ .window w
  process : process s t = some Tangle.Tab.connecting.process

/-- The function of the window is not among the listeners any more. -/
def Spent (t w : Nat) (s : Screen) : Prop := ∀ on ∈ listeners s t .opened, on.listener ≠ .window w

theorem registers_users {s : Screen} {t : Nat} {type : EventType} {a : Act} {on : Listener Handler}
    (h : on ∈ a.registers s t type) (w : Nat) : on.listener ≠ .window w := by
  unfold Act.registers at h
  split at h
  · split at h
    · rw [List.mem_singleton.1 h]
      exact fun he => (by cases he)
    · cases h
  · split at h
    · rw [List.mem_singleton.1 h]
      exact fun he => (by cases he)
    · cases h
  · cases h

theorem registrations_cons (s : Screen) (t : Nat) (a : Act) (as : List Act) : registrations t (a :: as) =
    (a.registers s t .opened).map Listener.listener ++ registrations t as := by
  cases a with
  | on u type f => cases type <;> by_cases hu : u = t <;> simp [registrations, Act.registers, Listener.listener, hu]
  | once u type f => cases type <;> by_cases hu : u = t <;> simp [registrations, Act.registers, Listener.listener, hu]
  | _ => rfl

/-- What `emit` calls, and what it leaves of the listeners. -/
theorem Tab.emit_listeners (t : Nat) (type : EventType) (s : Screen) :
    listeners (Tab.emit t type s).1 t type = (EventEmitter.emit (listeners s t type)).obj ∧
      (Tab.emit t type s).1.called =
        s.called ++ (EventEmitter.emit (listeners s t type)).called.map (fun f => (t, type, f)) ∧
      (Tab.emit t type s).2 = (EventEmitter.emit (listeners s t type)).threw := by
  cases hl : listeners s t type with
  | nil =>
    have hnone : Tab.emit t type s = (s, false) := by
      unfold Tab.emit
      unfold listeners at hl
      rw [hl]
    rw [hnone, hl]
    exact ⟨rfl, (List.append_nil _).symm, rfl⟩
  | cons on rest =>
    have hcons : Tab.emit t type s =
        ({ s with events := s.events.modify t fun ev => Function.update ev type (EventEmitter.emit (on :: rest)).obj
                  called := s.called ++ (EventEmitter.emit (on :: rest)).called.map fun f => (t, type, f) },
          (EventEmitter.emit (on :: rest)).threw) := by
      unfold Tab.emit
      unfold listeners at hl
      rw [hl]
    rw [hcons]
    refine ⟨?_, rfl, rfl⟩
    have ht : t < s.events.length := by
      by_contra hlt
      unfold listeners at hl
      rw [List.getElem?_eq_none (Nat.le_of_not_lt hlt)] at hl
      cases hl
    unfold listeners
    simp [List.getElem?_eq_getElem ht]

theorem Tab.ready_listeners (t : Nat) (id : Int) (s : Screen) :
    listeners (Tab.ready t id s).1 t .opened = (EventEmitter.emit (listeners s t .opened)).obj ∧
      (Tab.ready t id s).1.called =
        s.called ++ (EventEmitter.emit (listeners s t .opened)).called.map (fun f => (t, .opened, f)) ∧
      (Tab.ready t id s).2 = (EventEmitter.emit (listeners s t .opened)).threw := by
  obtain ⟨hlisteners, hcalled, hthrew⟩ := Tab.emit_listeners t .opened { s with wm := Wm.Tab.enter t id s.wm }
  unfold Tab.ready
  simp only
  split
  · rename_i hthrow
    exact ⟨hlisteners, hcalled, hthrow.symm.trans hthrew⟩
  · rename_i hreturn
    rw [Bool.not_eq_true] at hreturn
    exact ⟨hlisteners, hcalled, hreturn.symm.trans hthrew⟩

/-! ## Runs -/

section Runs

variable {s s' : Screen} {t w : Nat} {fs : List Handler} {a : Act}

theorem Spent.of_step (h : Sound s) (ht : t < s.wm.tabs.length) (hspent : Spent t w s) (hstep : step s a = some s') :
    Spent t w s' := by
  intro on hon
  cases step_fate h ht hstep with
  | stays _ _ hlisteners =>
    rw [hlisteners, List.mem_append] at hon
    rcases hon with hold | hnew
    · exact hspent on hold
    · exact registers_users hnew w
  | ready id _ hs' =>
    rw [hs', (Tab.ready_listeners t id s).1] at hon
    exact hspent on (EventEmitter.mem_emitFrom hon)
  | goes _ _ hlisteners =>
    rw [hlisteners] at hon
    cases hon

/-- A step of a tab that waits: it goes on waiting, or becomes ready or is destroyed, and the window's function
is gone. -/
theorem Waiting.of_step (h : Sound s) (hwait : Waiting t w fs s) (hstep : step s a = some s') :
    ((∀ id, a ≠ .desk (.ready t id)) ∧ Wm.LiveTab s'.wm t ∧
      Waiting t w (fs ++ (a.registers s t .opened).map Listener.listener) s') ∨
    ((∃ id, a = .desk (.ready t id)) ∨ ¬ Wm.LiveTab s'.wm t) ∧ Spent t w s' := by
  obtain ⟨tab, htab, -⟩ := hwait.live.tab
  obtain ⟨k, rest, hl, hfs⟩ := hwait.listeners
  cases step_fate h (List.getElem?_eq_some_iff.1 htab).1 hstep with
  | stays hlive hready hlisteners hprocess =>
    have hlive' := hlive.2 hwait.live
    refine .inl ⟨hready, hlive', hlive', ⟨k, rest ++ a.registers s t .opened, ?_, ?_⟩, ?_, hprocess.trans hwait.process⟩
    · rw [hlisteners, hl, List.cons_append]
    · rw [List.map_append, hfs]
    · intro f hf
      rcases List.mem_append.1 hf with hold | hnew
      · exact hwait.users f hold
      · obtain ⟨on, hon, rfl⟩ := List.mem_map.1 hnew
        exact registers_users hon w
  | ready id ha hs' =>
    have husers : ∀ on ∈ rest, on.listener ≠ .window w := fun on hon =>
      hwait.users _ (hfs ▸ List.mem_map_of_mem hon)
    refine .inr ⟨.inl ⟨id, ha⟩, fun on hon => ?_⟩
    rw [hs', (Tab.ready_listeners t id s).1, hl] at hon
    exact husers on (EventEmitter.mem_emit_of_once rfl (fun hmem => husers _ hmem rfl) hon)
  | goes _ hdead hlisteners =>
    refine .inr ⟨.inr hdead, fun on hon => ?_⟩
    rw [hlisteners] at hon
    cases hon

/-- After a run a live tab that was not ready waits for what was registered in between; otherwise the window's
function is gone. -/
theorem Waiting.run : ∀ {as : List Act} {s : Screen} {fs : List Handler}, Sound s → Waiting t w fs s →
    Machine.exec step s as = some s' →
    (Wm.LiveTab s'.wm t ∧ (∀ id, .desk (.ready t id) ∉ as) → Waiting t w (fs ++ registrations t as) s') ∧
      (¬ (Wm.LiveTab s'.wm t ∧ ∀ id, .desk (.ready t id) ∉ as) → Spent t w s')
  | [], s, fs, _, hwait, hrun => by
    cases hrun
    refine ⟨fun _ => ?_, fun hno => absurd ⟨hwait.live, fun id hid => (by cases hid)⟩ hno⟩
    rw [registrations, List.append_nil]
    exact hwait
  | a :: as, s, fs, h, hwait, hrun => by
    obtain ⟨s₁, hs₁, hrest⟩ := Machine.exec_cons.1 hrun
    have h₁ := (step_effect h hs₁).2
    obtain ⟨tab, htab, -⟩ := hwait.live.tab
    have ht := (List.getElem?_eq_some_iff.1 htab).1
    have ht₁ := Nat.lt_of_lt_of_le ht (step_made h hs₁)
    rcases hwait.of_step h hs₁ with ⟨hready, -, hwait₁⟩ | ⟨hover, hspent⟩
    · obtain ⟨hyes, hno⟩ := Waiting.run h₁ hwait₁ hrest
      have hmem : ∀ id, (.desk (.ready t id) ∈ a :: as ↔ .desk (.ready t id) ∈ as) := fun id => by
        rw [List.mem_cons, or_iff_right (hready id).symm]
      simp only [hmem, registrations_cons s t a as, ← List.append_assoc]
      exact ⟨hyes, hno⟩
    · have hnot : ¬ (Wm.LiveTab s'.wm t ∧ ∀ id, .desk (.ready t id) ∉ a :: as) := by
        rintro ⟨hlive, hnone⟩
        rcases hover with ⟨id, rfl⟩ | hdead
        · exact hnone id (List.mem_cons_self ..)
        · exact exec_made (fun _ _ _ hs ht hdead hstep => step_dead hs ht hdead hstep) h₁ ht₁ hdead hrest hlive
      exact ⟨fun hyes => absurd hyes hnot,
        fun _ => exec_made (fun _ _ _ hs ht hspent hstep => hspent.of_step hs ht hstep) h₁ ht₁ hspent hrest⟩

end Runs

/-- A new window waits for its first tab. -/
theorem newWindow_waiting {s s₁ : Screen} (h : Sound s) (hstep : step s (.desk .newWindow) = some s₁) :
    Waiting s.wm.tabs.length s.wm.windows.length [] s₁ := by
  cases (step_effect h hstep).1 with
  | focus _ _ hfocus => cases hfocus
  | newWindow wm hc =>
    have hfresh : (Wm.Window.push s.wm.windows.length s.wm.tabs.length
        (Wm.Tab.new s.wm.windows.length (Wm.Window.new s.wm))).tabs[s.wm.tabs.length]? =
          some (Wm.Tab.fresh s.wm.windows.length) := List.getElem?_concat_length
    obtain ⟨p, hp⟩ := hc.tab _ _ hfresh
    refine ⟨?_, ⟨s.onces, [], ?_, rfl⟩, fun f hf => (by cases hf), ?_⟩
    · exact Option.map_eq_some_iff.2 ⟨_, hp, rfl⟩
    · show ((s.events ++ [registered s.onces s.wm.windows.length])[s.wm.tabs.length]?.map fun ev =>
        ev .opened).getD [] = _
      rw [← h.events, List.getElem?_concat_length]
      rfl
    · exact Option.map_eq_some_iff.2 ⟨_, hp, rfl⟩

/-- A tab that did not throw shows that it is connected, unless its id is 0. -/
theorem Tab.ready_shows {s : Screen} {t : Nat} {tab : Wm.Tab} (ht : s.wm.tabs[t]? = some tab) (id : Int)
    (hthrew : (Tab.ready t id s).2 = false) :
    process (Tab.ready t id s).1 t = some { tab.toTab with id := some id }.connected.process := by
  obtain ⟨events, called, heq, -⟩ := Tab.emit_eq t .opened { s with wm := Wm.Tab.enter t id s.wm }
  have henter : (Wm.Tab.enter t id s.wm).tabs[t]? = some { tab with id := some id } := by
    show (s.wm.modifyTab t _).tabs[t]? = _
    rw [Wm.modifyTab_tabs, ht, Option.map_some, if_pos rfl]
  unfold process
  unfold Tab.ready at hthrew ⊢
  simp only at hthrew ⊢
  split at hthrew
  · cases hthrew
  · rename_i hreturn
    rw [if_neg hreturn]
    simp only [Wm.modifyTab_tabs, heq, henter, Option.map_some, if_true]

/-- In every run, once a window was made: its first tab tells the window and all further listeners that it is open
exactly if it is live, is ready for the first time, has no further listener, and gets another id than 0. -/
theorem notified_iff {className : String} {as bs : List Act} {s s₁ s₂ : Screen} (id : Int)
    (hs : Machine.exec step (init className) as = some s) (h₁ : step s (.desk .newWindow) = some s₁)
    (h₂ : Machine.exec step s₁ bs = some s₂) :
    Notified s.wm.tabs.length s.wm.windows.length (registrations s.wm.tabs.length bs) id s₂ ↔
      Wm.LiveTab s₂.wm s.wm.tabs.length ∧ (∀ id', .desk (.ready s.wm.tabs.length id') ∉ bs) ∧
        registrations s.wm.tabs.length bs = [] ∧ id ≠ 0 := by
  have hsound := exec_sound hs
  obtain ⟨hyes, hno⟩ := (newWindow_waiting hsound h₁).run (step_effect hsound h₁).2 h₂
  rw [List.nil_append] at hyes
  generalize s.wm.tabs.length = t at hyes hno ⊢
  generalize s.wm.windows.length = w at hyes hno ⊢
  obtain ⟨-, hcalled, hthrew⟩ := Tab.ready_listeners t id s₂
  rw [← and_assoc]
  by_cases hfirst : Wm.LiveTab s₂.wm t ∧ ∀ id', .desk (.ready t id') ∉ bs
  · rw [and_iff_right hfirst]
    have hwait := hyes hfirst
    obtain ⟨k, rest, hl, hrest⟩ := hwait.listeners
    obtain ⟨tab, ht, hd⟩ := hwait.live.tab
    rw [hl] at hcalled hthrew
    have hprocess : tab.process = Tangle.Tab.connecting.process := by
      have := hwait.process
      unfold process at this
      rwa [ht, Option.map_some, Option.some_inj] at this
    constructor
    · rintro ⟨hreturn, hshows, -⟩
      have hnil : rest = [] := by
        by_contra hne
        rw [hreturn] at hthrew
        have hplain := (EventEmitter.emit_returns_iff _).1 hthrew.symm
        rw [List.dropLast_cons_of_ne_nil hne] at hplain
        -- the window's function is not the last one
        cases hplain _ (List.mem_cons_self ..)
      refine ⟨by rw [← hrest, hnil]; rfl, ?_⟩
      rintro rfl
      rw [Tab.ready_shows ht 0 hreturn, Option.some_inj] at hshows
      revert hshows
      unfold Tangle.Tab.connected Tangle.Tab.pty
      simp only [hd, hprocess]
      decide
    · rintro ⟨hregs, hid⟩
      have hnil : rest = [] := List.map_eq_nil_iff.1 (hrest.trans hregs)
      have hreturn : (EventEmitter.emit (.once k (.window w) :: rest)).threw = false :=
        (EventEmitter.emit_returns_iff _).2 fun on hon => by rw [hnil] at hon; cases hon
      rw [EventEmitter.emit_called hreturn, hnil] at hcalled
      rw [hreturn] at hthrew
      refine ⟨hthrew, ?_, [.window w], hcalled, by rw [hregs]⟩
      rw [Tab.ready_shows ht id hthrew, Option.some_inj]
      exact Tangle.Tab.connected_process hd rfl hid
  · refine iff_of_false ?_ fun h => hfirst h.1
    rintro ⟨-, -, called, hcalled', hperm⟩
    rw [hcalled, List.append_cancel_left_eq] at hcalled'
    have hmem : (t, EventType.opened, Handler.window w) ∈ called.map fun f => (t, EventType.opened, f) :=
      List.mem_map_of_mem (hperm.mem_iff.2 (List.mem_cons_self ..))
    rw [← hcalled'] at hmem
    obtain ⟨f, hf, he⟩ := List.mem_map.1 hmem
    obtain ⟨on, hon, rfl⟩ := EventEmitter.mem_called_emitFrom hf
    exact hno hfirst on hon (Prod.ext_iff.1 (Prod.ext_iff.1 he).2).2

/-- A window without further listeners. -/
theorem notified_alone : ∃ s, step (init "") (.desk .newWindow) = some s ∧ Notified 0 0 [] 1 s := by
  have hrun : ∃ s ∈ step (init "") (.desk .newWindow), Wm.LiveTab s.wm 0 := by decide +kernel
  obtain ⟨s, hs, hlive⟩ := hrun
  refine ⟨s, hs, ?_⟩
  exact (@notified_iff "" [] [] (init "") s s 1 rfl hs rfl).2 ⟨hlive, fun _ h => (by cases h), rfl, by decide⟩

/-- One further listener, which is passed over, and `ready` throws. -/
theorem ready_throws : ∃ s, Machine.exec step (init "") [.desk .newWindow, .on 0 .opened 7] = some s ∧
    Wm.LiveTab s.wm 0 ∧ (Tab.ready 0 1 s).2 = true ∧ (Tab.ready 0 1 s).1.called = [(0, .opened, .window 0)] ∧
    process (Tab.ready 0 1 s).1 0 = some "Connecting ..." ∧ ¬ Notified 0 0 [.user 7] 1 s := by
  have hrun : ∃ s ∈ Machine.exec step (init "") [.desk .newWindow, .on 0 .opened 7],
      Wm.LiveTab s.wm 0 ∧ (Tab.ready 0 1 s).2 = true ∧ (Tab.ready 0 1 s).1.called = [(0, .opened, .window 0)] ∧
        process (Tab.ready 0 1 s).1 0 = some "Connecting ..." := by
    decide +kernel
  obtain ⟨s, hs, hlive, hthrew, hcalled, hprocess⟩ := hrun
  refine ⟨s, hs, hlive, hthrew, hcalled, hprocess, fun h => ?_⟩
  rw [h.1] at hthrew
  cases hthrew

end Screen

end Tangle
