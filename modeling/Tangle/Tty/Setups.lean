/-
Set-ups that fail. When em-ssh denies the channel, the pty or the shell, nothing calls `close`: the
terminal stays registered and its session open. As long as nothing is denied to a registered terminal,
those that could not be set up and those that were killed are gone once the process is at rest; and
after a denied request the process can be brought to rest with the terminal still there.
-/
import Tangle.Tty.Lifecycle

namespace Tangle

open TTY (Ref)
open SSH (Tty Phase Channel Event Effect)

/-- A channel-open, pty or shell request is denied. -/
def SSH.Event.denied : Event → Bool
  | .channelOpen ok | .pty ok | .shell ok => !ok
  | _ => false

namespace SSH.Tty

/-! ## Denied requests -/

/-- A step of the set-up has failed on the session. -/
def setupFailed (t : Tty) : Bool :=
  match t.phase with
  | .session .openFailed | .session .ptyDenied | .session .shellDenied => true
  | _ => false

/-- Every request made for the terminal is answered, and `channel.wait` is not about to return. -/
def answered (t : Tty) : Bool :=
  match t.phase with
  | .idle | .ended => true
  | .session ch => !([.opening, .ptyRequested, .shellRequested, .closed] : List Channel).contains ch
  | _ => false

theorem silent_answered {t : Tty} (h : t.silent = true) : t.answered = true := by
  unfold silent at h
  unfold answered
  split at h
  · rename_i hp; rw [hp]
  · rename_i hp; rw [hp]; rfl
  · rename_i hp; rw [hp]
  · cases h

theorem Moves.denied {p p' : Phase} {e : Event} {eff : Effect} (h : Moves p e p' eff) :
    e.denied = true ↔ p' = .session .openFailed ∨ p' = .session .ptyDenied ∨ p' = .session .shellDenied := by
  cases h with
  | launched | retry | provisioned => rename_i start; cases start <;> simp [started, Event.denied]
  | channel | pty => rename_i ok; cases ok <;> simp [Event.denied]
  | launchFailed | exhausted | ubuntu | noBlock | failed | connected | noShell | finished => simp [Event.denied]

theorem setupFailed_iff {t : Tty} : t.setupFailed = true ↔
    t.phase = .session .openFailed ∨ t.phase = .session .ptyDenied ∨ t.phase = .session .shellDenied := by
  unfold setupFailed
  split
  · rename_i hp; simp [hp]
  · rename_i hp; simp [hp]
  · rename_i hp; simp [hp]
  · rename_i h1 h2 h3
    simp only [Bool.false_eq_true, false_iff]
    rintro (h | h | h)
    · exact h1 h
    · exact h2 h
    · exact h3 h

theorem setupFailed_open {t : Tty} (h : t.setupFailed = true) : t.sessionOpen = true ∧ t.answered = true := by
  unfold sessionOpen answered
  rcases setupFailed_iff.1 h with hp | hp | hp <;> rw [hp] <;> exact ⟨rfl, rfl⟩

/-- A set-up fails on a denied request, and on nothing else. -/
theorem Handles.setupFailed {now : Nat} {t t' : Tty} {e : Event} {eff : Effect} (h : Handles now t e t' eff)
    (hf : t.setupFailed = false) : t'.setupFailed = true ↔ e.denied = true := by
  cases h with
  | moves _ hm => rw [setupFailed_iff, hm.denied]
  | shell hp =>
    rw [setupFailed_iff]
    rcases setWriteCallbacks_phase now { t with phase := .session .shell } with h | ⟨-, h⟩ <;> simp [h, Event.denied]
  | data => simp [hf, Event.denied]
  | hangup => exact ⟨nofun, nofun⟩

/-- Only a request that is waited for is denied. -/
theorem Handles.waits {now : Nat} {t t' : Tty} {e : Event} {eff : Effect} (h : Handles now t e t' eff)
    (he : e.denied = true) : t.setupFailed = false := by
  have hmoves : ∀ {p p'}, Moves p e p' eff → t.phase = p → t.setupFailed = false := by
    intro p p' hm hp
    unfold Tty.setupFailed
    rw [hp]
    cases hm with
    | channel | pty | noShell => rfl
    | launched | retry | provisioned | launchFailed | exhausted | ubuntu | noBlock | failed | connected | finished =>
      cases he
  cases h with
  | moves _ hm => exact hmoves hm rfl
  | shell | data | hangup => cases he

/-- A quiet terminal whose set-up has not failed runs its shell, or has no open session. -/
theorem shell_of_answered {t : Tty} (ha : t.answered = true) (ho : t.sessionOpen = true) (hf : t.setupFailed = false) :
    t.phase = .session .shell := by
  unfold sessionOpen at ho
  split at ho
  · rename_i ch hp
    unfold answered at ha
    unfold Tty.setupFailed at hf
    rw [hp] at ha hf ⊢
    cases ch <;> first | rfl | exact absurd ha (by decide) | exact absurd hf (by decide)
  · cases ho

end SSH.Tty

namespace Reactor

/-! ## Processes at rest -/

/-- The periodic timer is due. -/
def timerDue (s : Reactor) : Bool :=
  match s.timer with
  | some due => decide (due ≤ s.now)
  | none => false

/-- Every request is answered, nothing waits in a queue that has a consumer, no timer is due. -/
def Quiescent (s : Reactor) : Prop :=
  (∀ t ∈ OrdHash.values s.ttys, t.answered = true ∧ (t.write.popping = true → t.write.items = [])) ∧ s.timerDue = false

instance (s : Reactor) : Decidable (Quiescent s) := inferInstanceAs (Decidable (_ ∧ _))

/-- At rest, no registered terminal has its session open after a failed set-up or an accepted kill. -/
def SetupsCleaned (s : Reactor) : Prop :=
  Quiescent s → ∀ k t, s.ttys.lookup k = some t → ref k t ∈ s.terms → t.sessionOpen = true →
    t.setupFailed = false ∧ t.write.closed = false

/-- The step denies no request of a registered terminal. -/
def NoneDenied (s : Reactor) (a : Act) : Prop :=
  ∀ k t e, s.ttys.lookup k = some t → ref k t ∈ s.terms → a = .ssh k e → e.denied = false

/-- What holds as long as no request of a registered terminal is denied. -/
structure SetUp (s : Reactor) : Prop where
  wf : s.WF
  history : ∃ W, History s W
  registered : ∀ k t, s.ttys.lookup k = some t → ref k t ∈ s.terms → t.setupFailed = false

theorem SetUp.step {s s' : Reactor} {a : Act} (h : SetUp s) (hc : NoneDenied s a) (hstep : s.step a = some s') :
    SetUp s' := by
  have hst := stepped h.wf hstep
  obtain ⟨W, hW⟩ := h.history
  refine ⟨hst.wf h.wf, ⟨_, hst.history h.wf hW⟩, hst.forall (fun k t t' ht hn hm => ?_) (fun tty r phase _ hph _ => ?_)⟩
  · rw [hn.ref_eq, hst.mem_old ht] at hm
    obtain ⟨hreg, hno⟩ := hm
    have hf := h.registered k t ht hreg
    cases hn with
    | same => exact hf
    | @write m ele =>
      rw [Bool.eq_false_iff, ne_eq, SSH.Tty.setupFailed_iff]
      rw [Bool.eq_false_iff, ne_eq, SSH.Tty.setupFailed_iff] at hf
      rcases SSH.Tty.push_phase s.now ele t with hp | ⟨-, hp⟩
      · rw [hp]; exact hf
      · simp [hp]
    | @event e t' eff hh hne =>
      rw [Bool.eq_false_iff, ne_eq, (SSH.Tty.handle_cases hh).setupFailed hf, hc k t e ht hreg rfl]
      exact Bool.false_ne_true
    | @ends e t' hh => exact absurd ⟨rfl, t, t', ht, rfl, hh⟩ hno
    | expires hr hexp => exact absurd ⟨hr, t, ht, hexp⟩ hno
  · simp only [openPhases, List.mem_cons, List.not_mem_nil, or_false] at hph
    rcases hph with rfl | rfl | rfl | rfl <;> rfl

theorem init_setUp (production : Bool) : SetUp (init production) :=
  ⟨init_wf production, ⟨_, init_history production⟩, nofun⟩

theorem SetUp.cleaned {s : Reactor} (h : SetUp s) : SetupsCleaned s := by
  intro hq k t ht hreg ho
  have hf := h.registered k t ht hreg
  obtain ⟨W, hW⟩ := h.history
  have hs := hW.sound k t ht
  have hp := SSH.Tty.shell_of_answered (hq.1 t (OrdHash.mem_values ht)).1 ho hf
  refine ⟨hf, ?_⟩
  obtain ⟨cbs, hqueue⟩ := hs.queue
  rw [hqueue.closed]
  -- an open shell has consumed what was written, and the end mark would have closed it
  rcases hs.attached (hs.shell hp) with ⟨-, hcl, -⟩ | ⟨hp' | hp', -⟩
  · exact hcl
  · rw [hp] at hp'; cases hp'
  · rw [hp] at hp'; cases hp'

/-! ## How the process comes to rest -/

/-- Time stands still, and the terminals with `P` stay as they are. -/
structure Keeps (P : Int → Tty → Prop) (s s' : Reactor) : Prop where
  now : s'.now = s.now
  timer : s'.timer = s.timer
  kept : ∀ k t, P k t → s.ttys.lookup k = some t →
    s'.ttys.lookup k = some t ∧ (ref k t ∈ s.terms → ref k t ∈ s'.terms)
  none : ∀ k, s.ttys.lookup k = none → s'.ttys.lookup k = none

variable {P : Int → Tty → Prop}

theorem Keeps.refl (s : Reactor) : Keeps P s s := ⟨rfl, rfl, fun _ _ _ ht => ⟨ht, id⟩, fun _ h => h⟩

theorem Keeps.trans {s s1 s2 : Reactor} (h : Keeps P s s1) (h' : Keeps P s1 s2) : Keeps P s s2 := by
  refine ⟨h'.now.trans h.now, h'.timer.trans h.timer, fun k t hp ht => ?_, fun k hk => h'.none k (h.none k hk)⟩
  obtain ⟨ht1, hm1⟩ := h.kept k t hp ht
  obtain ⟨ht2, hm2⟩ := h'.kept k t hp ht1
  exact ⟨ht2, fun hm => hm2 (hm1 hm)⟩

theorem ssh_timer {s s' : Reactor} {k : Int} {e : Event} (hwf : s.WF) (h : s.step (.ssh k e) = some s') :
    s'.timer = s.timer := by
  simp only [step, ssh] at h
  cases ht : s.ttys.lookup k with
  | none => simp only [ht] at h; cases h
  | some t =>
    cases hh : t.handle s.now e with
    | none => simp only [ht, hh] at h; cases h
    | some r =>
      obtain ⟨t', eff⟩ := r
      simp only [ht, hh] at h
      cases eff with
      | nothing => cases h; rfl
      | publish d => cases h; rw [publish_data]; rfl
      | close =>
        obtain ⟨-, hl, -⟩ := (SSH.Tty.handle_cases hh).frame
        have ht' : (s.modifyTty k fun _ => t').ttys.lookup k = some t' := by
          rw [lookup_modifyTty, if_pos rfl, ht]; rfl
        cases h
        rw [close_eq ht' (hl.trans (hwf.listeners k t ht))]
        rfl

/-- The steps of em-ssh on a terminal leave the others as they are. -/
theorem ssh_keeps {s s' : Reactor} {k : Int} {e : Event} (hwf : s.WF) (h : s.step (.ssh k e) = some s') :
    Keeps (fun k' _ => k' ≠ k) s s' := by
  have hst := stepped hwf h
  refine ⟨hst.now, ssh_timer hwf h, fun k' t hk ht => ?_, fun k' hk => hst.none k' hk nofun⟩
  obtain ⟨t', ht', hn⟩ := hst.old k' t ht
  cases hn with
  | same hno => exact ⟨ht', fun hm => (hst.mem_old ht).2 ⟨hm, hno⟩⟩
  | event | ends => exact absurd rfl hk

theorem exec_ssh_keeps {k : Int} {es : List Event} {s s' : Reactor} (hwf : s.WF)
    (h : Machine.exec step s (es.map (Act.ssh k)) = some s') : Keeps (fun k' _ => k' ≠ k) s s' := by
  have hmap : Machine.exec step s (es.map (Act.ssh k)) = Machine.exec (fun s e => s.step (.ssh k e)) s es :=
    Machine.exec_map (I := WF) (V := fun _ => True) (fun _ _ _ _ => rfl) (fun _ _ _ _ => step_wf)
      (fun _ _ => trivial) hwf
  rw [hmap] at h
  exact Machine.exec_rel (I := WF) (fun _ _ _ => step_wf) .refl (fun _ _ _ => .trans) (fun _ _ _ => ssh_keeps) hwf h

/-- What has no request open stays as it is. -/
abbrev Rests : Reactor → Reactor → Prop := Keeps fun _ t => t.answered = true

/-- The terminal has no request open. -/
def Answered (s : Reactor) (k : Int) : Prop := ∀ t, s.ttys.lookup k = some t → t.answered = true

theorem Answered.rests {s s' : Reactor} {k : Int} (ha : Answered s k) (h : Rests s s') : Answered s' k := by
  intro t' ht'
  cases ht : s.ttys.lookup k with
  | none => rw [h.none k ht] at ht'; cases ht'
  | some t =>
    rw [(h.kept k t (ha t ht) ht).1] at ht'
    cases ht'
    exact ha t' ht

/-- A terminal that waits for an answer can be brought to its end. -/
theorem rests_one {s : Reactor} (hwf : s.WF) (k : Int) :
    ∃ as s', Machine.exec step s as = some s' ∧ Rests s s' ∧ Answered s' k := by
  by_cases ha : Answered s k
  · exact ⟨[], s, rfl, .refl s, ha⟩
  obtain ⟨t, ht, hno⟩ : ∃ t, s.ttys.lookup k = some t ∧ ¬ t.answered = true := by
    by_contra hall
    exact ha fun t ht => by_contra fun hno => hall ⟨t, ht, hno⟩
  have hs : t.silent = false := Bool.eq_false_iff.2 fun hs => hno (SSH.Tty.silent_answered hs)
  obtain ⟨es, t1, e, t2, hes, he⟩ := SSH.Tty.can_end hs s.now
  obtain ⟨s1, hex, ht1, -, hnow⟩ := exec_handleAll ht hes
  have hwf1 : s1.WF := exec_wf hwf hex
  have hstep : s1.step (.ssh k e) = some ((s1.modifyTty k fun _ => t2).close k) := by
    simp only [step, ssh, ht1, hnow, he]
  have hrun : Machine.exec step s ((es ++ [e]).map (Act.ssh k)) = some ((s1.modifyTty k fun _ => t2).close k) := by
    rw [List.map_append]
    exact Machine.exec_append.2 ⟨s1, hex, Machine.exec_singleton.2 hstep⟩
  have hb := exec_ssh_keeps hwf hrun
  refine ⟨_, _, hrun, ⟨hb.now, hb.timer, fun k' t' ha' ht' => ?_, hb.none⟩, fun t3 ht3 => ?_⟩
  · refine hb.kept k' t' ?_ ht'
    rintro rfl
    rw [ht] at ht'; cases ht'
    exact hno ha'
  · obtain ⟨t3', ht3', hn⟩ := (stepped hwf1 hstep).old k t1 ht1
    rw [ht3'] at ht3; cases ht3
    cases hn with
    | same _ _ hne => exact absurd rfl (hne e)
    | event hh hne =>
      rw [hnow, he] at hh; cases hh
      exact absurd rfl hne
    | ends hh =>
      have hp := (SSH.Tty.handle_cases hh).close_iff.1 rfl
      unfold SSH.Tty.answered SSH.Tty.closedOnce
      simp only [hp]

theorem rests_all : ∀ (ks : List Int) {s : Reactor}, s.WF →
    ∃ as s', Machine.exec step s as = some s' ∧ Rests s s' ∧ ∀ k ∈ ks, Answered s' k
  | [], s, _ => ⟨[], s, rfl, .refl s, nofun⟩
  | k :: ks, s, hwf => by
    obtain ⟨as, s1, h1, hr1, ha1⟩ := rests_one hwf k
    obtain ⟨bs, s2, h2, hr2, ha2⟩ := rests_all ks (exec_wf hwf h1)
    refine ⟨as ++ bs, s2, Machine.exec_append.2 ⟨s1, h1, h2⟩, hr1.trans hr2, List.forall_mem_cons.2 ⟨?_, ha2⟩⟩
    exact ha1.rests hr2

/-- The sweep is run if it is due. What it does not find expired stays. -/
theorem sweep_due {s : Reactor} (hwf : s.WF) : ∃ as s', Machine.exec step s as = some s' ∧ s'.timerDue = false ∧
    ∀ k t, s.ttys.lookup k = some t → ref k t ∈ s.terms → ¬ (s.timerDue = true ∧ Due s (ref k t)) →
      s'.ttys.lookup k = some t ∧ ref k t ∈ s'.terms := by
  cases hd : s.timerDue with
  | false => exact ⟨[], s, rfl, hd, fun k t ht hm _ => ⟨ht, hm⟩⟩
  | true =>
    obtain ⟨due, htimer, hle⟩ : ∃ due, s.timer = some due ∧ due ≤ s.now := by
      unfold timerDue at hd
      split at hd
      · rename_i due htimer; exact ⟨due, htimer, of_decide_eq_true hd⟩
      · cases hd
    have hstep : s.step .sweep = some { TTY.sweep s with timer := some (s.now + TTY.EXPIRY_TIMER) } := by
      simp only [step, htimer]
      rw [if_pos hle]
    have hst := stepped hwf hstep
    refine ⟨[.sweep], _, Machine.exec_singleton.2 hstep, ?_, fun k t ht hm hno => ?_⟩
    · refine decide_eq_false ?_
      rw [hst.now]
      simp [Act.elapsed, TTY.EXPIRY_TIMER]
    · have hno : ¬ Closes s .sweep (ref k t) := fun hdue => hno ⟨rfl, hdue⟩
      obtain ⟨t', ht', hn⟩ := hst.old k t ht
      refine ⟨?_, (hst.mem_old ht).2 ⟨hm, hno⟩⟩
      cases hn with
      | same => exact ht'
      | expires hr hexp => exact absurd ⟨hr, t, ht, hexp⟩ hno

/-- A run can be continued until the process is at rest, and a registered terminal without a request open is then
as it was, unless the sweep that is due closes it. -/
theorem comes_to_rest {production : Bool} {as : List Act} {s : Reactor}
    (h : Machine.exec step (init production) as = some s) : ∃ bs s', Machine.exec step s bs = some s' ∧ Quiescent s' ∧
    ∀ k t, s.ttys.lookup k = some t → ref k t ∈ s.terms → t.answered = true →
      ¬ (s.timerDue = true ∧ Due s (ref k t)) → s'.ttys.lookup k = some t ∧ ref k t ∈ s'.terms := by
  have hwf := exec_wf (init_wf production) h
  obtain ⟨bs, s1, h1, hdue, hkept⟩ := sweep_due hwf
  obtain ⟨cs, s2, h2, hr, ha⟩ := rests_all s1.ttys.keys (exec_wf hwf h1)
  have hrun : Machine.exec step s (bs ++ cs) = some s2 := Machine.exec_append.2 ⟨s1, h1, h2⟩
  have hW := (exec_history (init_wf production) (init_history production) (Machine.exec_append.2 ⟨s, h, hrun⟩)).2
  refine ⟨bs ++ cs, s2, hrun, ⟨fun t hv => ?_, ?_⟩, fun k t ht hm hans hno => ?_⟩
  · obtain ⟨k, ht⟩ := OrdHash.lookup_of_mem_values hv
    refine ⟨?_, fun hp => ?_⟩
    · refine ha k ?_ t ht
      by_contra hk
      rw [hr.none k (AList.lookup_eq_none.2 hk)] at ht
      cases ht
    · -- whoever pops has taken what was written
      obtain ⟨_, hq⟩ := (hW.sound k t ht).queue
      have hp := hq.popping.symm.trans hp
      rw [Bool.and_eq_true, Bool.not_eq_true'] at hp
      rw [hq.items, Pipe.State.waiting, if_pos hp.1]
      exact Pipe.rest_open hp.2
  · unfold timerDue
    rw [hr.timer, hr.now]
    exact hdue
  · obtain ⟨ht1, hm1⟩ := hkept k t ht hm hno
    obtain ⟨ht2, hm2⟩ := hr.kept k t hans ht1
    exact ⟨ht2, hm2 hm1⟩

/-- A denied request leaves its terminal registered, with its session open. -/
theorem denied_stays {s s' : Reactor} (hwf : s.WF) {k : Int} {t : Tty} {e : Event} (ht : s.ttys.lookup k = some t)
    (hreg : ref k t ∈ s.terms) (he : e.denied = true) (hstep : s.step (.ssh k e) = some s') :
    ∃ t', s'.ttys.lookup k = some t' ∧ ref k t' ∈ s'.terms ∧ t'.setupFailed = true ∧ t'.last = t.last := by
  have hst := stepped hwf hstep
  obtain ⟨t', ht', hn⟩ := hst.old k t ht
  have hhandle : ∃ eff, t.handle s.now e = some (t', eff) ∧ eff ≠ .close := by
    cases hn with
    | same _ _ hne => exact absurd rfl (hne e)
    | event hh hne => exact ⟨_, hh, hne⟩
    | @ends e t' hh =>
      have hh := SSH.Tty.handle_cases hh
      have hfail := (hh.setupFailed (hh.waits he)).2 he
      rw [SSH.Tty.setupFailed_iff, hh.close_iff.1 rfl] at hfail
      simp at hfail
  obtain ⟨eff, hh, hne⟩ := hhandle
  have hc := SSH.Tty.handle_cases hh
  refine ⟨t', ht', ?_, (hc.setupFailed (hc.waits he)).2 he, ?_⟩
  · rw [hn.ref_eq, hst.mem_old ht]
    refine ⟨hreg, fun ⟨_, u, u', hu, _, hu'⟩ => ?_⟩
    rw [ht] at hu; cases hu
    rw [hh] at hu'; cases hu'; exact hne rfl
  · cases hc with
    | moves => rfl
    | shell | data | hangup => cases he

/-- After every run in which no request of a registered terminal was denied, terminals whose set-up
failed or that were killed are gone once the process is at rest; and whatever the run was, a denied
request leaves its terminal behind in a state of rest to come, unless the sweep that is due at once finds it
expired. -/
theorem setups_cleaned {production : Bool} {as : List Act} {s : Reactor}
    (h : Machine.exec step (init production) as = some s) :
    (Machine.Meets step NoneDenied (init production) as → SetupsCleaned s) ∧
    ∀ k t e s', s.ttys.lookup k = some t → ref k t ∈ s.terms → e.denied = true → s.step (.ssh k e) = some s' →
      ¬ (s.timerDue = true ∧ Due s (ref k t)) → ∃ bs s'', Machine.exec step s' bs = some s'' ∧ ¬ SetupsCleaned s'' := by
  constructor
  · intro hm
    exact (Machine.exec_inv_meets (fun s a s' => SetUp.step) (init_setUp production) hm h).cleaned
  intro k t e s' ht hreg he hstep hno
  have hwf := exec_wf (init_wf production) h
  obtain ⟨t', ht', hreg', hfail, hlast⟩ := denied_stays hwf ht hreg he hstep
  have hrun : Machine.exec step (init production) (as ++ [.ssh k e]) = some s' :=
    Machine.exec_append.2 ⟨s, h, Machine.exec_singleton.2 hstep⟩
  obtain ⟨bs, s'', hrest, hq, hkept⟩ := comes_to_rest hrun
  have hb := ssh_keeps hwf hstep
  have hno' : ¬ (s'.timerDue = true ∧ Due s' (ref k t')) := by
    rintro ⟨hdue, -, u, hu, hexp⟩
    replace hu : s'.ttys.lookup k = some u := hu
    rw [ht'] at hu; cases hu
    unfold timerDue at hdue
    rw [hb.timer, hb.now] at hdue
    refine hno ⟨hdue, hreg, t, ht, ?_⟩
    unfold SSH.Tty.expired at hexp
    rwa [hlast, hb.now] at hexp
  obtain ⟨hopen, hans⟩ := SSH.Tty.setupFailed_open hfail
  obtain ⟨ht'', hreg''⟩ := hkept k t' ht' hreg' hans hno'
  refine ⟨bs, s'', hrest, fun hcl => ?_⟩
  rw [(hcl hq k t' ht'' hreg'' hopen).1] at hfail
  cases hfail

/-- One connection fails, a terminal with a shell is killed, and a third one has its shell. -/
def cleanedUp : List Act :=
  [.create "1" { objectId := 8 }, .create "1" { objectId := 16 }, .create "2" { objectId := 24 },
    .ssh 8 (.errback none), .ssh 16 .callback, .ssh 16 (.channelOpen true), .ssh 16 (.pty true), .ssh 16 (.shell true),
    .ssh 24 .callback, .ssh 24 (.channelOpen true), .ssh 24 (.pty true), .ssh 24 (.shell true),
    .incoming (.kill "1" 16), .ssh 16 .waitReturns]

theorem cleanedUp_runs : (Machine.exec step (init false) cleanedUp).isSome := by decide +kernel

theorem setups_cleaned_up : ∃ s, Machine.exec step (init false) cleanedUp = some s ∧ Quiescent s ∧
    ⟨"1", 8⟩ ∉ s.terms ∧ ⟨"1", 16⟩ ∉ s.terms ∧ ⟨"2", 24⟩ ∈ s.terms ∧ SetupsCleaned s := by
  have hrun := (Option.some_get cleanedUp_runs).symm
  refine ⟨_, hrun, by decide +kernel, by decide +kernel, by decide +kernel, by decide +kernel, ?_⟩
  have hgranted : ∀ a ∈ cleanedUp, ∀ k e, a = .ssh k e → e.denied = false := by
    simp only [cleanedUp, List.forall_mem_cons]
    refine ⟨nofun, nofun, nofun, ?_⟩
    simp [Event.denied]
  exact (@setups_cleaned false cleanedUp _ hrun).1
    (Machine.Meets.of_forall fun a ha s k t e _ _ he => hgranted a ha k e he)

/-- Nothing waits on the channel whose pty was denied, and nothing closes it. -/
theorem kept_after_denied_pty :
    ∃ s, Machine.exec step (init false)
      [.create "1" { objectId := 8 }, .ssh 8 .callback, .ssh 8 (.channelOpen true), .ssh 8 (.pty false)] = some s ∧
      ¬ SetupsCleaned s := by
  refine ⟨_, rfl, fun h => ?_⟩
  exact absurd (h (by decide) 8 _ rfl (by decide) rfl).1 (by decide)

end Reactor

end Tangle
