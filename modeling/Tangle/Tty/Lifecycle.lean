/-
How terminals leave. `close` takes a terminal out of the registry and publishes its kill event, but it
neither ends the SSH session nor remembers that it ran. Called where a session has ended this is all
there is to do; the expiry sweep calls it on terminals whose session goes on. So as long as sweeps find
only terminals that em-ssh is done with, no session is orphaned and no kill event is published twice,
and a sweep that finds another kind of terminal can always be followed by a run that shows it.
-/
import Tangle.Tty.Step

namespace Tangle

open Pipe (Item)
open TTY (Ref)
open SSH (Tty Phase Channel Event Effect)

namespace SSH.Tty

/-! ## Phases -/

/-- Nothing is heard of the terminal any more: it has no connection, or its channel never opened. -/
def silent (t : Tty) : Bool :=
  match t.phase with
  | .idle | .session .openFailed | .ended => true
  | _ => false

/-- The session is open: it started, and its channel has not been closed. -/
def sessionOpen (t : Tty) : Bool :=
  match t.phase with
  | .session ch => ch != .closed
  | _ => false

/-- The session is open or may still be opened. -/
def opening (t : Tty) : Bool :=
  match t.phase with
  | .launching | .ensuring true | .provisioning true | .connecting => true
  | _ => t.sessionOpen

theorem handle_silent {now : Nat} {t : Tty} (h : t.silent = true) (e : Event) : t.handle now e = none := by
  unfold silent at h
  unfold handle
  split at h
  · rename_i hp; rw [hp]
  · rename_i hp; rw [hp]; cases e <;> rfl
  · rename_i hp; rw [hp]
  · cases h

/-- The handlers run one after the other, as long as they do nothing beyond their terminal. -/
def handleAll (now : Nat) : Tty → List Event → Option Tty
  | t, [] => some t
  | t, e :: es =>
    match t.handle now e with
    | some (t', .nothing) => handleAll now t' es
    | _ => none

theorem handleAll_closes {now : Nat} : ∀ {es : List Event} {t t' : Tty}, t.handleAll now es = some t' →
    t'.closes = t.closes
  | [], t, t', h => by cases h; rfl
  | e :: es, t, t', h => by
    unfold handleAll at h
    split at h
    · rename_i u hu; exact (handleAll_closes h).trans (handle_cases hu).frame.2.2
    · cases h

/-- A terminal that is not silent can still come to an end. -/
theorem can_end {t : Tty} (h : t.silent = false) (now : Nat) :
    ∃ es t1 e t2, t.handleAll now es = some t1 ∧ t1.handle now e = some (t2, .close) := by
  obtain ⟨owner, last, write, listeners, retries, phase, hungUp, calls, closes⟩ := t
  cases phase with
  | idle | ended => cases h
  | launching => exact ⟨[.launched none none, .callback, .provisioned none], _, .errback none, _, rfl, rfl⟩
  | ensuring block =>
    cases block with
    | false => exact ⟨[.callback], _, .provisioned none, _, rfl, rfl⟩
    | true => exact ⟨[.callback, .provisioned none], _, .errback none, _, rfl, rfl⟩
  | provisioning block =>
    cases block with
    | false => exact ⟨[], _, .provisioned none, _, rfl, rfl⟩
    | true => exact ⟨[.provisioned none], _, .errback none, _, rfl, rfl⟩
  | connecting => exact ⟨[], _, .errback none, _, rfl, rfl⟩
  | session ch =>
    cases ch with
    | openFailed => cases h
    | opening => exact ⟨[.channelOpen true, .hangup], _, .waitReturns, _, rfl, rfl⟩
    | closed => exact ⟨[], _, .waitReturns, _, rfl, rfl⟩
    | ptyRequested | ptyDenied | shellRequested | shellDenied | shell => exact ⟨[.hangup], _, .waitReturns, _, rfl, rfl⟩

/-- A terminal whose session may still be opened can get there, its queue untouched. -/
theorem can_open {t : Tty} (h : t.opening = true) (now : Nat) :
    ∃ es t1, t.handleAll now es = some t1 ∧ t1.sessionOpen = true ∧ t1.write = t.write ∧ t1.owner = t.owner := by
  obtain ⟨owner, last, write, listeners, retries, phase, hungUp, calls, closes⟩ := t
  cases phase with
  | idle | ended => cases h
  | launching => exact ⟨[.launched none none, .callback, .provisioned none, .callback], _, rfl, rfl, rfl, rfl⟩
  | ensuring block =>
    cases block with
    | false => cases h
    | true => exact ⟨[.callback, .provisioned none, .callback], _, rfl, rfl, rfl, rfl⟩
  | provisioning block =>
    cases block with
    | false => cases h
    | true => exact ⟨[.provisioned none, .callback], _, rfl, rfl, rfl, rfl⟩
  | connecting => exact ⟨[.callback], _, rfl, rfl, rfl, rfl⟩
  | session ch => exact ⟨[], _, rfl, h, rfl, rfl⟩

/-- No event opens the session of a terminal that is not on its way there. -/
theorem Handles.opening {now : Nat} {t t' : Tty} {e : Event} {eff : Effect} (h : Handles now t e t' eff)
    (ho : t.opening = false) : t'.opening = false := by
  have hmoves : ∀ {p p'}, Moves p e p' eff → ∀ u u' : Tty, u.phase = p → u'.phase = p' → u.opening = false →
      u'.opening = false := by
    intro p p' hm u u' hp hp' hu
    unfold Tty.opening sessionOpen at hu ⊢
    rw [hp] at hu
    rw [hp']
    cases hm with
    | launched | provisioned | connected | channel | pty | noShell => cases hu
    | @retry block restart => cases restart <;> rfl
    | @ubuntu block => cases block <;> first | rfl | cases hu
    | launchFailed | exhausted | noBlock | failed | finished => rfl
  have hactive (ha : t.active = true) : False := by
    unfold Tty.opening sessionOpen at ho
    unfold active at ha
    split at ha
    · rename_i ch hp
      have hne : (ch != .closed) = true := by cases ch <;> first | rfl | cases ha
      simp only [hp, hne] at ho; cases ho
    · cases ha
  cases h with
  | moves _ hm => exact hmoves hm t _ rfl rfl ho
  | shell hp => exact (hactive (by unfold active; rw [hp]; rfl)).elim
  | data ha => exact ho
  | hangup => rfl

/-- An end mark in the queue was written, so the shell that opens is closed at once. -/
theorem Sound.eof_closed {t : Tty} {w : List (Item String)} (h : t.Sound w) (he : .eof ∈ t.write.items) :
    Pipe.closed w = true := by
  obtain ⟨cbs, hq⟩ := h.queue
  rw [hq.items] at he
  unfold Pipe.State.waiting at he
  cases hcl : Pipe.closed w with
  | true => rfl
  | false =>
    rw [← Pipe.closed_iff] at he
    split at he
    · simp only [Pipe.rest_open hcl] at he; cases he
    · simp only [hcl] at he; cases he

/-- With an end mark in its queue a terminal keeps it there until its session is closed. -/
theorem Handles.eof {now : Nat} {t t' : Tty} {e : Event} {eff : Effect} {w : List (Item String)}
    (h : Handles now t e t' eff) (hs : t.Sound w) (he : .eof ∈ t.write.items) :
    t'.opening = false ∨ .eof ∈ t'.write.items := by
  have hs' := hs.handles h
  cases h with
  | moves | data => exact .inr he
  | hangup => exact .inl rfl
  | shell hp =>
    have hcb := (@Handles.shell now _ hp).closeCb.2 (.inr rfl)
    rcases hs'.attached hcb with ⟨-, hcl, -⟩ | ⟨hp' | hp', -⟩
    · rw [hs.eof_closed he] at hcl; cases hcl
    · unfold Tty.opening sessionOpen; rw [hp']; exact .inl rfl
    · unfold Tty.opening sessionOpen; rw [hp']; exact .inl rfl

end SSH.Tty

namespace Reactor

/-- A run of such events on one terminal. -/
theorem exec_handleAll : ∀ {es : List Event} {s : Reactor} {k : Int} {t t' : Tty}, s.ttys.lookup k = some t →
    t.handleAll s.now es = some t' → ∃ s', Machine.exec step s (es.map (Act.ssh k)) = some s' ∧
      s'.ttys.lookup k = some t' ∧ s'.terms = s.terms ∧ s'.now = s.now
  | [], s, k, t, t', ht, h => by cases h; exact ⟨s, rfl, ht, rfl, rfl⟩
  | e :: es, s, k, t, t', ht, h => by
    unfold SSH.Tty.handleAll at h
    split at h
    · rename_i u hu
      have hst : s.step (.ssh k e) = some (s.modifyTty k fun _ => u) := by simp only [step, ssh, ht, hu]
      have hlk : (s.modifyTty k fun _ => u).ttys.lookup k = some u := by rw [lookup_modifyTty, if_pos rfl, ht]; rfl
      obtain ⟨s', hex, h1, h2, h3⟩ := exec_handleAll (s := s.modifyTty k fun _ => u) hlk h
      exact ⟨s', Machine.exec_cons.2 ⟨_, hst, hex⟩, h1, h2, h3⟩
    · cases h

/-! ## Kill events -/

theorem Next.closes {s : Reactor} {k : Int} {t t' : Tty} {a : Act} (ht : s.ttys.lookup k = some t)
    (h : Next s k t a t') :
    (Closes s a (ref k t) → t'.closes = t.closes + 1) ∧ (¬ Closes s a (ref k t) → t'.closes = t.closes) := by
  have hyes (hc : Closes s a (ref k t)) (he : t'.closes = t.closes + 1) :
      (Closes s a (ref k t) → t'.closes = t.closes + 1) ∧ (¬ Closes s a (ref k t) → t'.closes = t.closes) :=
    ⟨fun _ => he, fun hn => absurd hc hn⟩
  have hno (hc : ¬ Closes s a (ref k t)) (he : t'.closes = t.closes) :
      (Closes s a (ref k t) → t'.closes = t.closes + 1) ∧ (¬ Closes s a (ref k t) → t'.closes = t.closes) :=
    ⟨fun h => absurd h hc, fun _ => he⟩
  cases h with
  | same hc => exact hno hc rfl
  | write => exact hno id (SSH.Tty.push_frame _ _ t).1.closes
  | event h hne =>
    refine hno ?_ (SSH.Tty.handle_cases h).frame.2.2
    rintro ⟨-, u, u', hu, -, hu'⟩
    rw [ht] at hu; cases hu
    rw [h] at hu'; cases hu'; exact hne rfl
  | @ends e t' h =>
    exact hyes ⟨rfl, t, t', ht, rfl, h⟩ (congrArg (· + 1) (SSH.Tty.handle_cases h).frame.2.2)
  | expires hm hexp => exact hyes ⟨hm, t, ht, hexp⟩ rfl

theorem Closes.known {s : Reactor} {a : Act} {tty : Ref} (hwf : s.WF) (h : Closes s a tty) :
    ∃ t, s.ttys.lookup tty.objectId = some t ∧ ref tty.objectId t = tty := by
  have hr : ∀ t : Tty, t.owner = tty.owner → ref tty.objectId t = tty := fun t ho => by unfold ref; rw [ho]
  cases a with
  | ssh id e =>
    obtain ⟨rfl, t, t', ht, ho, -⟩ := h
    exact ⟨t, ht, hr t ho⟩
  | sweep =>
    obtain ⟨t, ht, ho⟩ := hwf.known tty h.1
    exact ⟨t, ht, hr t ho⟩
  | create | incoming | tick => cases h

/-- How often the kill event of a terminal was published. -/
def kills (s : Reactor) (tty : Ref) : Nat := s.published.count (.kill tty.owner tty.objectId)

/-- The kill event is published when `close` runs its listeners, and nowhere else. -/
structure KillsCounted (s : Reactor) : Prop where
  known : ∀ k t, s.ttys.lookup k = some t → s.kills (ref k t) = t.closes
  other : ∀ tty, (∀ t, s.ttys.lookup tty.objectId = some t → ref tty.objectId t ≠ tty) → s.kills tty = 0

theorem Stepped.kills {s s' : Reactor} {a : Act} (h : Stepped s a s') (tty : Ref) :
    (Closes s a tty → s'.kills tty = s.kills tty + 1) ∧ (¬ Closes s a tty → s'.kills tty = s.kills tty) := by
  obtain ⟨new, hpub, hone, hzero⟩ := h.published
  unfold Reactor.kills
  rw [hpub, List.count_append]
  exact ⟨fun hc => by rw [hone tty hc], fun hc => by rw [List.count_eq_zero.2 (hzero tty hc)]; rfl⟩

theorem Stepped.killsCounted {s s' : Reactor} {a : Act} (hwf : s.WF) (h : Stepped s a s') (hk : KillsCounted s) :
    KillsCounted s' := by
  refine ⟨h.forall (fun k t t' ht hn => ?_) (fun tty r phase hc _ => ?_), fun tty hno => ?_⟩
  · rw [hn.ref_eq]
    by_cases hc : Closes s a (ref k t)
    · rw [(h.kills _).1 hc, (hn.closes ht).1 hc, hk.known k t ht]
    · rw [(h.kills _).2 hc, (hn.closes ht).2 hc, hk.known k t ht]
  · have hnone := (h.fresh tty hc).2
    have hno : ¬ Closes s a tty := fun hcl => by
      obtain ⟨t, ht, -⟩ := hcl.known hwf
      rw [hnone] at ht; cases ht
    show s'.kills tty = 0
    rw [(h.kills _).2 hno]
    exact hk.other tty fun t ht => by rw [hnone] at ht; cases ht
  · have hno' : ∀ t, s.ttys.lookup tty.objectId = some t → ref tty.objectId t ≠ tty := fun t ht he => by
      obtain ⟨t', ht', hn⟩ := h.old _ t ht
      exact hno t' ht' (hn.ref_eq.trans he)
    have hncl : ¬ Closes s a tty := fun hcl => by
      obtain ⟨t, ht, he⟩ := hcl.known hwf
      exact hno' t ht he
    rw [(h.kills _).2 hncl, hk.other tty hno']

theorem init_killsCounted (production : Bool) : KillsCounted (init production) := ⟨nofun, fun _ _ => rfl⟩

/-- At most one kill event was published for each terminal, and its listeners ran at most once. -/
def KilledOnce (s : Reactor) : Prop :=
  (∀ tty, s.kills tty ≤ 1) ∧ ∀ k t, s.ttys.lookup k = some t → t.closes ≤ 1

/-- When a sweep runs, em-ssh is done with every terminal that it finds expired. -/
def SweepsSilent (s : Reactor) (a : Act) : Prop :=
  a = .sweep → ∀ k t, s.ttys.lookup k = some t → Due s (ref k t) → t.silent = true

/-- What holds as long as sweeps find only silent terminals. -/
structure Tidy (s : Reactor) : Prop where
  wf : s.WF
  counted : KillsCounted s
  registered : ∀ k t, s.ttys.lookup k = some t → ref k t ∈ s.terms → t.closes = 0
  gone : ∀ k t, s.ttys.lookup k = some t → ref k t ∉ s.terms → t.closes = 1 ∧ t.silent = true

/-- A silent terminal that is not registered stays as it is. -/
theorem Next.gone {s : Reactor} {k : Int} {t t' : Tty} {a : Act} (h : Next s k t a t') (hm : ref k t ∉ s.terms)
    (hs : t.silent = true) : t' = t ∧ ¬ Closes s a (ref k t) := by
  cases h with
  | same hc => exact ⟨rfl, hc⟩
  | write _ hm' => exact absurd hm' hm
  | event h | ends h => rw [SSH.Tty.handle_silent hs] at h; cases h
  | expires hm' => exact absurd hm' hm

theorem Tidy.step {s s' : Reactor} {a : Act} (h : Tidy s) (hc : SweepsSilent s a) (hstep : s.step a = some s') :
    Tidy s' := by
  have hst := stepped h.wf hstep
  refine ⟨hst.wf h.wf, hst.killsCounted h.wf h.counted,
    hst.forall (fun k t t' ht hn hm => ?_) (fun tty r phase hcr _ _ => rfl),
    hst.forall (fun k t t' ht hn hm => ?_) (fun tty r phase hcr _ hm => ?_)⟩
  · rw [hn.ref_eq, hst.mem_old ht] at hm
    exact ((hn.closes ht).2 hm.2).trans (h.registered k t ht hm.1)
  · rw [hn.ref_eq, hst.mem_old ht] at hm
    by_cases hreg : ref k t ∈ s.terms
    · have hcl : Closes s a (ref k t) := by_contra fun hcl => hm ⟨hreg, hcl⟩
      refine ⟨by rw [(hn.closes ht).1 hcl, h.registered k t ht hreg], ?_⟩
      cases hn with
      | same hno => exact absurd hcl hno
      | write => cases hcl
      | event hh hne =>
        obtain ⟨-, u, u', hu, -, hu'⟩ := hcl
        rw [ht] at hu; cases hu
        rw [hh] at hu'; cases hu'; exact absurd rfl hne
      | @ends e t' hh =>
        have := (SSH.Tty.handle_cases hh).close_iff.1 rfl
        unfold SSH.Tty.silent SSH.Tty.closedOnce; simp only [this]
      | expires hm' hexp => exact hc rfl k t ht ⟨hm', t, ht, hexp⟩
    · obtain ⟨hone, hs⟩ := h.gone k t ht hreg
      obtain ⟨rfl, -⟩ := hn.gone hreg hs
      exact ⟨hone, hs⟩
  · exact absurd ((hst.mem _).2 (.inr hcr)) hm

theorem init_tidy (production : Bool) : Tidy (init production) :=
  ⟨init_wf production, init_killsCounted production, nofun, nofun⟩

theorem Tidy.killedOnce {s : Reactor} (h : Tidy s) : KilledOnce s := by
  have hle : ∀ k t, s.ttys.lookup k = some t → t.closes ≤ 1 := fun k t ht => by
    by_cases hm : ref k t ∈ s.terms
    · rw [h.registered k t ht hm]; exact Nat.zero_le 1
    · rw [(h.gone k t ht hm).1]
  refine ⟨fun tty => ?_, hle⟩
  by_cases hk : ∃ t, s.ttys.lookup tty.objectId = some t ∧ ref tty.objectId t = tty
  · obtain ⟨t, ht, he⟩ := hk
    rw [← he, h.counted.known _ t ht]
    exact hle _ t ht
  · rw [h.counted.other tty fun t ht he => hk ⟨t, ht, he⟩]
    exact Nat.zero_le 1

/-- At most one kill event for each terminal, after every run whose sweeps found only silent terminals
expired; and whatever the run was, after a sweep that finds another one its kill event can be published
again. -/
theorem kill_once {production : Bool} {as : List Act} {s : Reactor}
    (h : Machine.exec step (init production) as = some s) :
    (Machine.Meets step SweepsSilent (init production) as → KilledOnce s) ∧
    ∀ s', s.step .sweep = some s' → ¬ SweepsSilent s .sweep →
      ∃ bs s'', Machine.exec step s' bs = some s'' ∧ ¬ KilledOnce s'' := by
  constructor
  · intro hm
    exact (Machine.exec_inv_meets (fun s a s' => Tidy.step) (init_tidy production) hm h).killedOnce
  intro s' hstep hno
  have hwf := exec_wf (init_wf production) h
  have hno : ∃ k t, s.ttys.lookup k = some t ∧ Due s (ref k t) ∧ t.silent = false := by
    by_contra hall
    refine hno fun _ k t ht hd => ?_
    by_contra hs
    exact hall ⟨k, t, ht, hd, Bool.eq_false_iff.2 hs⟩
  obtain ⟨k, t, ht, hd, hs⟩ := hno
  have hst := stepped hwf hstep
  obtain ⟨t', ht', hn⟩ := hst.old k t ht
  -- the sweep closes the terminal and leaves its phase as it is
  have hcl : t'.closes = t.closes + 1 := (hn.closes ht).1 hd
  have hs' : t'.silent = false := by
    cases hn with
    | same hno => exact absurd hd hno
    | expires => exact hs
  -- so its session can go on to its end, which closes it again
  obtain ⟨es, t1, e, t2, hes, he⟩ := SSH.Tty.can_end hs' s'.now
  obtain ⟨s1, hex, ht1, -, hnow⟩ := exec_handleAll ht' hes
  have hwf1 : s1.WF := exec_wf (hst.wf hwf) hex
  have hstep2 : s1.step (.ssh k e) = some ((s1.modifyTty k fun _ => t2).close k) := by
    simp only [step, ssh, ht1, hnow, he]
  obtain ⟨t3, ht3, hn3⟩ := (stepped hwf1 hstep2).old k t1 ht1
  have hcl3 : t3.closes = t1.closes + 1 :=
    (hn3.closes ht1).1 ⟨rfl, t1, t2, ht1, rfl, by rw [hnow]; exact he⟩
  refine ⟨es.map (Act.ssh k) ++ [.ssh k e], _, Machine.exec_append.2 ⟨s1, hex, Machine.exec_singleton.2 hstep2⟩,
    fun hk => ?_⟩
  have := hk.2 k t3 ht3
  have := SSH.Tty.handleAll_closes hes
  omega

/-- A shell is opened and then nothing is typed for more than half an hour. -/
def idleShell : List Act :=
  [.create "1" { objectId := 8 }, .ssh 8 .callback, .ssh 8 (.channelOpen true), .ssh 8 (.pty true),
    .ssh 8 (.shell true),
    .tick 1801]

/-- A sweep at the end of a run, where the terminals that it finds are as `P` says. -/
theorem sweep_meets {C : Reactor → Act → Prop} {P : Tty → Bool} (hno : ∀ s a, a ≠ .sweep → C s a)
    (hsweep : ∀ s, (∀ k t, s.ttys.lookup k = some t → ref k t ∈ s.terms → t.expired s.now = true → P t = true) →
      C s .sweep)
    {as : List Act} (has : ∀ a ∈ as, a ≠ .sweep) {s : Reactor} (hrun : Machine.exec step (init false) as = some s)
    (hP : ∀ t ∈ OrdHash.values s.ttys, t.expired s.now = true → P t = true) :
    Machine.Meets step C (init false) (as ++ [.sweep]) := by
  refine (Machine.Meets.of_forall fun a ha s => hno s a (has a ha)).append fun s' hs' => ?_
  rw [hrun] at hs'
  cases hs'
  exact .singleton (hsweep s fun k t ht _ hexp => hP t (OrdHash.mem_values ht) hexp)

/-- The channel of one terminal is refused and it expires; another one has its shell and something is typed. -/
def refused : List Act :=
  [.create "1" { objectId := 8 }, .create "2" { objectId := 16 }, .ssh 8 .callback, .ssh 8 (.channelOpen false),
    .ssh 16 .callback, .ssh 16 (.channelOpen true), .ssh 16 (.pty true), .ssh 16 (.shell true), .tick 1801,
    .incoming (.input "2" 16 [.str "ls"])]

theorem refused_runs : (Machine.exec step (init false) refused).isSome := by decide +kernel

theorem refused_swept : (Machine.exec step (init false) (refused ++ [.sweep])).isSome := by decide +kernel

theorem kill_once_refused : ∃ s, Machine.exec step (init false) (refused ++ [.sweep]) = some s ∧
    s.kills ⟨"1", 8⟩ = 1 ∧ ⟨"2", 16⟩ ∈ s.terms ∧ KilledOnce s := by
  have hrun := (Option.some_get refused_swept).symm
  refine ⟨_, hrun, by decide +kernel, by decide +kernel, (@kill_once false _ _ hrun).1 ?_⟩
  have hsilent := Option.some_get refused_runs
  refine sweep_meets (P := SSH.Tty.silent) (fun s a hne ha => absurd ha hne) (fun s hs _ k t ht hd => ?_)
    (by simp [refused]) hsilent.symm (by decide +kernel)
  obtain ⟨hreg, u, hu, hexp⟩ := hd
  replace hu : s.ttys.lookup k = some u := hu
  rw [ht] at hu
  cases hu
  exact hs k t ht hreg hexp

/-- The swept terminal's session ends later, and is closed again. -/
theorem killed_twice_after_sweep :
    ∃ s, Machine.exec step (init false) (idleShell ++ [.sweep, .ssh 8 .hangup, .ssh 8 .waitReturns]) = some s ∧
      ¬ KilledOnce s := by
  refine ⟨_, rfl, fun h => ?_⟩
  exact absurd (h.1 ⟨"1", 8⟩) (by decide)

/-! ## Orphaned sessions -/

/-- A terminal that is no longer registered has no session open, or the end mark that will close its
channel is in its queue. A session whose channel was refused counts as open: nothing ends it. -/
def NoOrphans (s : Reactor) : Prop :=
  ∀ k t, s.ttys.lookup k = some t → ref k t ∉ s.terms → t.sessionOpen = true → .eof ∈ t.write.items

/-- When a sweep runs, every terminal that it finds expired has no session and will get none, or has
an end mark in its queue. -/
def SweepsSettled (s : Reactor) (a : Act) : Prop :=
  a = .sweep → ∀ k t, s.ttys.lookup k = some t → Due s (ref k t) → t.opening = false ∨ .eof ∈ t.write.items

/-- What holds as long as sweeps find only settled terminals. -/
structure Settled (s : Reactor) : Prop where
  wf : s.WF
  history : ∃ W, History s W
  gone : ∀ k t, s.ttys.lookup k = some t → ref k t ∉ s.terms → t.opening = false ∨ .eof ∈ t.write.items

theorem Settled.step {s s' : Reactor} {a : Act} (h : Settled s) (hc : SweepsSettled s a) (hstep : s.step a = some s') :
    Settled s' := by
  have hst := stepped h.wf hstep
  obtain ⟨W, hW⟩ := h.history
  refine ⟨hst.wf h.wf, ⟨_, hst.history h.wf hW⟩,
    hst.forall (fun k t t' ht hn hm => ?_) (fun tty r phase hcr _ hm => ?_)⟩
  · rw [hn.ref_eq, hst.mem_old ht] at hm
    have hgone : ref k t ∉ s.terms → t.opening = false ∨ .eof ∈ t.write.items := h.gone k t ht
    cases hn with
    | same hno => exact hgone fun hr => hm ⟨hr, hno⟩
    | write _ hr => exact absurd ⟨hr, id⟩ hm
    | @event e t' eff hh hne =>
      -- an event that closes nothing leaves registered terminals registered
      have hr : ref k t ∉ s.terms := fun hr => hm ⟨hr, fun ⟨_, u, u', hu, _, hu'⟩ => by
        rw [ht] at hu; cases hu
        rw [hh] at hu'; cases hu'; exact hne rfl⟩
      have hh := SSH.Tty.handle_cases hh
      exact (hgone hr).elim (fun ho => .inl (hh.opening ho)) (hh.eof (hW.sound k t ht))
    | @ends e t' hh =>
      have := (SSH.Tty.handle_cases hh).close_iff.1 rfl
      left
      unfold SSH.Tty.opening SSH.Tty.sessionOpen SSH.Tty.closedOnce; simp only [this]
    -- only here the side condition is needed
    | expires hr hexp => exact hc rfl k t ht ⟨hr, t, ht, hexp⟩
  · exact absurd ((hst.mem _).2 (.inr hcr)) hm

theorem init_settled (production : Bool) : Settled (init production) :=
  ⟨init_wf production, ⟨_, init_history production⟩, nofun⟩

/-- No session is orphaned after a run whose sweeps found only settled terminals expired; and whatever
the run was, after a sweep that finds another one its session can be left open for good. -/
theorem no_orphans {production : Bool} {as : List Act} {s : Reactor}
    (h : Machine.exec step (init production) as = some s) :
    (Machine.Meets step SweepsSettled (init production) as → NoOrphans s) ∧
    ∀ s', s.step .sweep = some s' → ¬ SweepsSettled s .sweep →
      ∃ bs s'', Machine.exec step s' bs = some s'' ∧ ¬ NoOrphans s'' := by
  constructor
  · intro hm k t ht hreg hopen
    have hset := Machine.exec_inv_meets (fun s a s' => Settled.step) (init_settled production) hm h
    refine (hset.gone k t ht hreg).resolve_left fun ho => ?_
    unfold SSH.Tty.opening at ho
    unfold SSH.Tty.sessionOpen at hopen ho
    split at hopen
    · rename_i hp
      simp only [hp] at ho
      rw [hopen] at ho; cases ho
    · cases hopen
  · intro s' hstep hno
    have hwf := exec_wf (init_wf production) h
    have hno : ∃ k t, s.ttys.lookup k = some t ∧ Due s (ref k t) ∧ t.opening = true ∧ .eof ∉ t.write.items := by
      by_contra hall
      refine hno fun _ k t ht hd => ?_
      by_contra hs
      rw [not_or, Bool.not_eq_false] at hs
      exact hall ⟨k, t, ht, hd, hs⟩
    obtain ⟨k, t, ht, hd, ho, he⟩ := hno
    have hst := stepped hwf hstep
    obtain ⟨t', ht', hn⟩ := hst.old k t ht
    have htt' : t' = t.closedOnce := by
      cases hn with
      | same hno => exact absurd hd hno
      | expires => rfl
    subst htt'
    -- its session opens after the sweep, and nothing was written to the queue
    obtain ⟨es, t1, hes, hopen, hw, howner⟩ := SSH.Tty.can_open (t := t.closedOnce) ho s'.now
    obtain ⟨s1, hex, ht1, hterms, -⟩ := exec_handleAll ht' hes
    refine ⟨_, s1, hex, fun horph => ?_⟩
    have href : ref k t1 = ref k t := by unfold ref; rw [howner]; rfl
    have hreg : ref k t1 ∉ s1.terms := by
      rw [hterms, href, hst.mem_old ht]
      exact fun hm => hm.2 hd
    have heof := horph k t1 ht1 hreg hopen
    rw [hw] at heof
    exact he heof

/-- A terminal is killed before its channel is open, and expires with the end mark in its queue. -/
def killedEarly : List Act :=
  [.create "1" { objectId := 8 }, .ssh 8 .callback, .incoming (.kill "1" 8), .tick 1801]

theorem killedEarly_runs : (Machine.exec step (init false) killedEarly).isSome := by decide +kernel

theorem killedEarly_swept : (Machine.exec step (init false) (killedEarly ++ [.sweep])).isSome := by decide +kernel

theorem no_orphans_killedEarly : ∃ s, Machine.exec step (init false) (killedEarly ++ [.sweep]) = some s ∧
    ⟨"1", 8⟩ ∉ s.terms ∧ (∃ t, s.ttys.lookup 8 = some t ∧ t.sessionOpen = true) ∧ NoOrphans s := by
  have hrun := (Option.some_get killedEarly_swept).symm
  refine ⟨_, hrun, by decide +kernel, ⟨_, rfl, by decide +kernel⟩, (@no_orphans false _ _ hrun).1 ?_⟩
  have hmark := Option.some_get killedEarly_runs
  refine sweep_meets (P := fun t => decide (.eof ∈ t.write.items)) (fun s a hne ha => absurd ha hne)
    (fun s hs _ k t ht hd => ?_) (by simp [killedEarly]) hmark.symm (by decide +kernel)
  obtain ⟨hreg, u, hu, hexp⟩ := hd
  replace hu : s.ttys.lookup k = some u := hu
  rw [ht] at hu
  cases hu
  exact .inr (of_decide_eq_true (hs k t ht hreg hexp))

/-- The sweep takes the terminal out of the registry and leaves its shell running. -/
theorem orphaned_by_sweep : ∃ s, Machine.exec step (init false) (idleShell ++ [.sweep]) = some s ∧ ¬ NoOrphans s := by
  refine ⟨_, rfl, fun h => ?_⟩
  exact absurd (h 8 _ rfl (by decide) rfl) (by decide)

end Reactor

end Tangle
