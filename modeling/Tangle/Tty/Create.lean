/-
`TTY.create` with everything it calls up to the first SSH connection: the expiry timer, the
constructor, `SSH::Local#open`, and `SSH::Remote#open` with the choice or launch of a VM. An exception
leaves the process as it was when it was raised. The terminal is registered before it is opened and
nothing takes it out again when `open` raises, so a failed call leaves the registry as it was exactly
when it failed before the registration.
-/
import Tangle.Ssh.Close

namespace Tangle

open TTY (Ref Registry)
open SSH (Tty Phase)

/-- Why a call does not return: an exception, or a loop that has not ended. -/
inductive Stop
  | raised (e : Exn)
  | blocked
  deriving DecidableEq, Repr

/-- Ruby code run in the server process: an exception keeps the changes made before it. -/
abbrev Rb := EStateM Stop Reactor

def raiseIf : Option Exn → Rb Unit
  | none => pure ()
  | some e => throw (.raised e)

def orRaise {α : Type} : Except Exn α → Rb α
  | .ok a => pure a
  | .error e => throw (.raised e)

/-! ## Virtual machines -/

inductive VmStatus
  | pending
  | running
  | shuttingDown
  | terminated
  | stopping
  | stopped
  deriving DecidableEq, Repr

/-- An EC2 instance and what asking for its status answers. -/
structure Vm where
  id : String
  status : Except Exn VmStatus

/-- What the outside does during one call of `TTY.create`: which steps raise, the object id of the new
terminal, and the answers of EC2. -/
structure Outside where
  addTimer : Option Exn := none
  construct : Option Exn := none
  objectId : Int
  tagged : Except Exn (List Vm) := .ok []
  createVm : Except Exn String := .ok ""
  tagVm : Option Exn := none
  statuses : List (Except Exn VmStatus) := []
  start : Option Exn := none

namespace SSH.Remote

/-- `vms.detect { |i| i.status == :running }`. -/
def detectRunning : List Vm → Except Exn (Option Vm)
  | [] => .ok none
  | vm :: vms =>
    match vm.status with
    | .error e => .error e
    | .ok .running => .ok (some vm)
    | .ok _ => detectRunning vms

/-- `sleep 2 while vm.status == :pending`, over the successive answers. -/
def waitWhilePending : List (Except Exn VmStatus) → Except Stop VmStatus
  | [] => .error .blocked
  | .error e :: _ => .error (.raised e)
  | .ok .pending :: answers => waitWhilePending answers
  | .ok status :: _ => .ok status

def launchVm (tty : Ref) (out : Outside) : Rb Vm := do
  let id ← orRaise out.createVm
  raiseIf out.tagVm
  match waitWhilePending out.statuses with
  | .error .blocked => do
    -- the call goes on at `Event.launched`
    modify (Reactor.modifyTty tty.objectId fun t => { t with phase := .launching })
    throw .blocked
  | .error stop => throw stop
  | .ok status => do
    modify (Reactor.modifyTty tty.objectId fun t => { t with retries := t.retries + 2 })
    return { id, status := .ok status }

def pickVm (tty : Ref) (out : Outside) : Rb Vm := do
  let vms ← orRaise out.tagged
  match ← orRaise (detectRunning vms) with
  | some vm => return vm
  | none => launchVm tty out

/-- `open_vm`, up to where `ensure_unix_user_exists_on` has started its connection. -/
def openVm (tty : Ref) (out : Outside) (_vm : Vm) : Rb Unit := do
  raiseIf out.start
  modify (Reactor.modifyTty tty.objectId fun t => { t with phase := .ensuring true })

def «open» (tty : Ref) (out : Outside) : Rb Unit := do
  let vm ← pickVm tty out
  openVm tty out vm

end SSH.Remote

/-- `SSH::Local#open`, up to where it has started its connection. -/
def SSH.Local.«open» (tty : Ref) (out : Outside) : Rb Unit := do
  raiseIf out.start
  modify (Reactor.modifyTty tty.objectId fun t => { t with phase := .connecting })

/-! ## The factory -/

namespace TTY

def EXPIRY_TIMER : Nat := 15 * 60

def addTimer (out : Outside) : Rb Unit := do
  raiseIf out.addTimer
  modify fun s => { s with timer := some (s.now + EXPIRY_TIMER) }
  modify fun s => { s with timerAdded := true }

/-- `cls.new owner: user_id, faye_client: faye_client, logger: logger`. -/
def construct (userId : String) (out : Outside) : Rb Ref := do
  raiseIf out.construct
  modify fun s => { s with ttys := OrdHash.set out.objectId (Tty.new userId s.now) s.ttys }
  return ⟨userId, out.objectId⟩

def create (userId : String) (out : Outside) : Rb Ref := do
  unless (← get).timerAdded do addTimer out
  let production := (← get).production
  let tty ← construct userId out
  -- from here on nothing takes the terminal out again when a call raises
  modify fun s => { s with terms := s.terms.push tty }
  modify (Reactor.modifyTty tty.objectId (Tty.onClose .deleteTty))
  if production then SSH.Remote.open tty out else SSH.Local.open tty out
  return tty

end TTY

/-- `Handler#ssh`, whose `rescue` logs and raises again. -/
def Handler.ssh (userId : String) (out : Outside) : Rb Int := do
  let tty ← TTY.create userId out
  return tty.objectId

/-! ## What a call does -/

namespace TTY

/-- The call fails before the terminal is registered: in the timer or the constructor. -/
def RaisesEarly (s : Reactor) (out : Outside) : Prop :=
  (s.timerAdded = false ∧ out.addTimer.isSome = true) ∨ out.construct.isSome = true

instance (s : Reactor) (out : Outside) : Decidable (RaisesEarly s out) := inferInstanceAs (Decidable (_ ∨ _))

/-- `s'` is `s` with the terminal `t` registered as `tty`, and possibly the timer installed. -/
structure Registers (s s' : Reactor) (tty : Ref) (t : Tty) : Prop where
  terms : s'.terms = s.terms.push tty
  ttys : ∀ k, s'.ttys.lookup k = if k = tty.objectId then some t else s.ttys.lookup k
  now : s'.now = s.now
  published : s'.published = s.published

/-- A terminal as `create` leaves it: removed from the registry on close, with `open` having come to
`phase`. -/
def opened (s : Reactor) (userId : String) (retries : Nat) (phase : Phase) : Tty :=
  { Tty.new userId s.now with listeners := [.deleteTty], retries, phase }

theorem Registers.modifyTty {s s' : Reactor} {tty : Ref} {t : Tty} (h : Registers s s' tty t) (f : Tty → Tty) :
    Registers s (s'.modifyTty tty.objectId f) tty (f t) := by
  refine ⟨h.terms, fun k => ?_, h.now, h.published⟩
  rw [Reactor.lookup_modifyTty, h.ttys tty.objectId, if_pos rfl]
  split
  · rfl
  · rename_i hk; rw [h.ttys k, if_neg hk]

theorem bind_ok {α β : Type} {x : Rb α} {f : α → Rb β} {s s' : Reactor} {a : α} (h : x.run s = .ok a s') :
    (x >>= f).run s = (f a).run s' := by
  show EStateM.bind x f s = f a s'
  unfold EStateM.bind; rw [show x s = .ok a s' from h]

theorem bind_error {α β : Type} {x : Rb α} {f : α → Rb β} {s s' : Reactor} {stop : Stop}
    (h : x.run s = .error stop s') : (x >>= f).run s = .error stop s' := by
  show EStateM.bind x f s = .error stop s'
  unfold EStateM.bind; rw [show x s = .error stop s' from h]

theorem run_orRaise {α : Type} (r : Except Exn α) (s : Reactor) :
    (orRaise r).run s = match r with | .ok a => .ok a s | .error e => .error (.raised e) s := by cases r <;> rfl

theorem run_raiseIf (e : Option Exn) (s : Reactor) :
    (raiseIf e).run s = match e with | none => .ok () s | some e => .error (.raised e) s := by cases e <;> rfl

/-- `launch_vm` touches at most the retries of its terminal, and leaves it waiting when it does not
return. -/
theorem launchVm_registers {s s' : Reactor} {tty : Ref} {t : Tty} (h : Registers s s' tty t) (out : Outside) :
    (∃ vm r s'', (SSH.Remote.launchVm tty out).run s' = .ok vm s'' ∧ Registers s s'' tty { t with retries := r }) ∨
    ∃ stop phase s'', (SSH.Remote.launchVm tty out).run s' = .error stop s'' ∧ phase ∈ [t.phase, .launching] ∧
      Registers s s'' tty { t with phase } := by
  unfold SSH.Remote.launchVm
  cases hc : out.createVm with
  | error e => exact .inr ⟨_, t.phase, s', rfl, by simp, h⟩
  | ok id =>
    cases htag : out.tagVm with
    | some e => exact .inr ⟨_, t.phase, s', rfl, by simp, h⟩
    | none =>
      cases hw : SSH.Remote.waitWhilePending out.statuses with
      | error stop =>
        cases stop with
        | blocked => exact .inr ⟨_, .launching, _, rfl, by simp, h.modifyTty fun t => { t with phase := .launching }⟩
        | raised e => exact .inr ⟨.raised e, t.phase, s', rfl, by simp, h⟩
      | ok status =>
        exact .inl ⟨⟨id, .ok status⟩, t.retries + 2, _, rfl, h.modifyTty fun t => { t with retries := t.retries + 2 }⟩

theorem pickVm_registers {s s' : Reactor} {tty : Ref} {t : Tty} (h : Registers s s' tty t) (out : Outside) :
    (∃ vm r s'', (SSH.Remote.pickVm tty out).run s' = .ok vm s'' ∧ Registers s s'' tty { t with retries := r }) ∨
    ∃ stop phase s'', (SSH.Remote.pickVm tty out).run s' = .error stop s'' ∧ phase ∈ [t.phase, .launching] ∧
      Registers s s'' tty { t with phase } := by
  unfold SSH.Remote.pickVm
  cases htag : out.tagged with
  | error e => exact .inr ⟨.raised e, t.phase, s', bind_error (run_orRaise _ s'), by simp, h⟩
  | ok vms =>
    rw [bind_ok (run_orRaise (.ok vms) s')]
    cases hd : SSH.Remote.detectRunning vms with
    | error e => exact .inr ⟨.raised e, t.phase, s', bind_error (run_orRaise _ s'), by simp, h⟩
    | ok found =>
      rw [bind_ok (run_orRaise (.ok found) s')]
      cases found with
      | some vm => exact .inl ⟨vm, t.retries, s', rfl, h⟩
      | none => exact launchVm_registers h out

theorem open_remote_registers {s s' : Reactor} {tty : Ref} {t : Tty} (h : Registers s s' tty t) (out : Outside) :
    (∃ r s'', (SSH.Remote.open tty out).run s' = .ok () s'' ∧
      Registers s s'' tty { t with retries := r, phase := .ensuring true }) ∨
    ∃ stop r phase s'', (SSH.Remote.open tty out).run s' = .error stop s'' ∧ phase ∈ [t.phase, .launching] ∧
      Registers s s'' tty { t with retries := r, phase } := by
  unfold SSH.Remote.open
  rcases pickVm_registers h out with ⟨vm, r, s'', hp, h'⟩ | ⟨stop, phase, s'', hp, hph, h'⟩
  · rw [bind_ok hp]
    unfold SSH.Remote.openVm
    cases hs : out.start with
    | none =>
      exact .inl ⟨r, _, bind_ok (run_raiseIf none s''), h'.modifyTty fun t => { t with phase := .ensuring true }⟩
    | some e => exact .inr ⟨.raised e, r, t.phase, s'', bind_error (run_raiseIf (some e) s''), by simp, h'⟩
  · exact .inr ⟨stop, t.retries, phase, s'', bind_error hp, hph, h'⟩

theorem open_local_registers {s s' : Reactor} {tty : Ref} {t : Tty} (h : Registers s s' tty t) (out : Outside) :
    (∃ s'', (SSH.Local.open tty out).run s' = .ok () s'' ∧ Registers s s'' tty { t with phase := .connecting }) ∨
    ∃ e, (SSH.Local.open tty out).run s' = .error (.raised e) s' := by
  unfold SSH.Local.open
  cases hs : out.start with
  | none => exact .inl ⟨_, bind_ok (run_raiseIf none s'), h.modifyTty fun t => { t with phase := .connecting }⟩
  | some e => exact .inr ⟨e, bind_error (run_raiseIf (some e) s')⟩

/-- A call that fails early has installed at most the timer. -/
theorem create_early {s : Reactor} {out : Outside} (h : RaisesEarly s out) (userId : String) :
    ∃ e s', (create userId out).run s = .error (.raised e) s' ∧ s'.terms = s.terms ∧ s'.ttys = s.ttys ∧
      s'.now = s.now ∧ s'.published = s.published := by
  obtain ⟨production, now, timerAdded, timer, terms, ttys, published⟩ := s
  unfold create addTimer construct
  cases timerAdded with
  | true =>
    rcases h with ⟨h, -⟩ | h
    · cases h
    · obtain ⟨e, he⟩ := Option.isSome_iff_exists.1 h
      rw [he]
      exact ⟨e, _, rfl, rfl, rfl, rfl, rfl⟩
  | false =>
    cases ha : out.addTimer with
    | some e => exact ⟨e, _, rfl, rfl, rfl, rfl, rfl⟩
    | none =>
      rcases h with ⟨-, h⟩ | h
      · rw [ha] at h; cases h
      · obtain ⟨e, he⟩ := Option.isSome_iff_exists.1 h
        rw [he]
        exact ⟨e, _, rfl, rfl, rfl, rfl, rfl⟩

/-- The process when `create` calls `tty.open`. -/
def prepared (s : Reactor) (tty : Ref) : Reactor :=
  let s' := if s.timerAdded then s else { s with timer := some (s.now + EXPIRY_TIMER), timerAdded := true }
  ({ s' with terms := s.terms.push tty, ttys := OrdHash.set tty.objectId (Tty.new tty.owner s.now) s.ttys }).modifyTty
    tty.objectId (Tty.onClose .deleteTty)

theorem prepared_registers (s : Reactor) (tty : Ref) :
    Registers s (prepared s tty) tty (opened s tty.owner 0 .idle) := by
  unfold prepared
  refine ⟨rfl, fun k => ?_, ?_, ?_⟩
  · rw [Reactor.lookup_modifyTty]
    simp only [OrdHash.lookup_set]
    split <;> rfl
  all_goals (simp only [Reactor.modifyTty_now, Reactor.modifyTty_published]; split <;> rfl)

theorem run_create {s : Reactor} {out : Outside} (h : ¬ RaisesEarly s out) (userId : String) :
    (create userId out).run s =
      ((if s.production then SSH.Remote.open ⟨userId, out.objectId⟩ out
        else SSH.Local.open ⟨userId, out.objectId⟩ out) >>=
        fun _ => pure ⟨userId, out.objectId⟩ : Rb Ref).run (prepared s ⟨userId, out.objectId⟩) := by
  have hcon : out.construct = none := by
    cases hc : out.construct with
    | none => rfl
    | some e => exact absurd (.inr (by rw [hc]; rfl)) h
  obtain ⟨production, now, timerAdded, timer, terms, ttys, published⟩ := s
  unfold create addTimer construct
  rw [hcon]
  cases timerAdded with
  | true => cases production <;> rfl
  | false =>
    cases ha : out.addTimer with
    | some e => exact absurd (.inl ⟨rfl, by rw [ha]; rfl⟩) h
    | none => cases production <;> rfl

/-- A call that does not fail early registers the new terminal, whatever becomes of `open`. -/
theorem create_late {s : Reactor} {out : Outside} (h : ¬ RaisesEarly s out) (userId : String) :
    (∃ r phase s', (create userId out).run s = .ok ⟨userId, out.objectId⟩ s' ∧
      phase ∈ [Phase.connecting, .ensuring true] ∧
      Registers s s' ⟨userId, out.objectId⟩ (opened s userId r phase)) ∨
    ∃ stop r phase s', (create userId out).run s = .error stop s' ∧ phase ∈ [Phase.idle, .launching] ∧
      Registers s s' ⟨userId, out.objectId⟩ (opened s userId r phase) := by
  have h1 := prepared_registers s ⟨userId, out.objectId⟩
  rw [run_create h]
  cases s.production with
  | true =>
    rcases open_remote_registers h1 out with ⟨r, s2, ho, h2⟩ | ⟨stop, r, phase, s2, ho, hph, h2⟩
    · exact .inl ⟨r, .ensuring true, s2, bind_ok ho, by simp, h2⟩
    · exact .inr ⟨stop, r, phase, s2, bind_error ho, hph, h2⟩
  | false =>
    rcases open_local_registers h1 out with ⟨s2, ho, h2⟩ | ⟨e, ho⟩
    · exact .inl ⟨0, .connecting, s2, bind_ok ho, by simp, h2⟩
    · exact .inr ⟨.raised e, 0, .idle, _, bind_error ho, by simp, h1⟩

/-! ## Atomicity -/

/-- The registry has the same entries in both states. -/
def SameTerms (s s' : Reactor) : Prop := ∀ tty : Ref, tty ∈ s'.terms ↔ tty ∈ s.terms

/-- A call of `TTY.create` that raises leaves the registry as it was exactly when it raised before the
terminal was registered: in the installation of the timer or in the constructor. -/
theorem create_atomic_iff {s s' : Reactor} {userId : String} {out : Outside} {e : Exn}
    (hfresh : (⟨userId, out.objectId⟩ : Ref) ∉ s.terms)
    (h : (create userId out).run s = .error (.raised e) s') : SameTerms s s' ↔ RaisesEarly s out := by
  by_cases hearly : RaisesEarly s out
  · obtain ⟨e', s1, hrun, hterms, -⟩ := create_early hearly userId
    rw [h] at hrun
    cases hrun
    exact ⟨fun _ => hearly, fun _ tty => by rw [hterms]⟩
  -- the new terminal is registered, and it was not before
  · refine ⟨fun hsame => absurd ?_ hfresh, fun he => absurd he hearly⟩
    rcases create_late hearly userId with ⟨r, phase, s1, hrun, -⟩ | ⟨stop, r, phase, s1, hrun, -, hreg⟩
    · rw [h] at hrun; cases hrun
    · rw [h] at hrun
      cases hrun
      refine (hsame _).1 ?_
      rw [hreg.terms, Registry.mem_push]
      exact .inl rfl

/-- The constructor raises: nothing was registered. -/
theorem create_atomic_constructor : ∃ s', (create "1" { objectId := 8, construct := some (.standardError "new") }).run
      (Reactor.init false) = .error (.raised (.standardError "new")) s' ∧ SameTerms (Reactor.init false) s' :=
  ⟨_, rfl, (@create_atomic_iff (Reactor.init false) _ "1" { objectId := 8, construct := some (.standardError "new") } _
    (by decide) rfl).2 (by decide)⟩

/-- The connection cannot be started: the terminal stays registered. -/
theorem create_keeps_failed : ∃ s', (create "1" { objectId := 8, start := some (.standardError "connection") }).run
      (Reactor.init false) = .error (.raised (.standardError "connection")) s' ∧ ¬ SameTerms (Reactor.init false) s' :=
  ⟨_, rfl, fun h => absurd ((h ⟨"1", 8⟩).1 (by decide)) (by decide)⟩

end TTY

end Tangle
