/-
The factory under concurrent use. Calls of `TTY.create` run on the threads of the Thrift pool while
the timer sweeps on the reactor thread; each read or write of `timer_added`, each block under the
mutex and each iteration step of `TTY.each` is one step here. A call is named by the object id of the
terminal that it constructs. The flag is read and written without the mutex, and `each` iterates
without it, so what protects the factory is that the steps in question do not meet; the condition under
which they do not is exact.
-/
import Mathlib.Logic.Function.Basic
import Tangle.Lib.Machine
import Tangle.Tty.Sweep

namespace Tangle.TTY

/-! ## The steps of a call -/

/-- Where a call of `TTY.create` is. -/
inductive Pc
  | idle
  /-- `add_timer unless timer_added`. -/
  | readTimerAdded
  /-- `EM.add_periodic_timer`. -/
  | addPeriodicTimer
  /-- `self.timer_added = true`. -/
  | setTimerAdded
  /-- `cls.new`. -/
  | construct
  /-- `TTY << tty`. -/
  | push
  /-- `tty.on_close { TTY.delete tty }`. -/
  | onClose
  /-- `tty.open`. -/
  | callOpen
  /-- `tty.open` was reached, with the terminal registered or not. -/
  | opened (registered : Bool)
  /-- `TTY << tty` raised. -/
  | failed
  deriving DecidableEq

/-- The `on_close` listener is registered. -/
def Pc.hooked : Pc → Bool
  | .callOpen | .opened _ => true
  | _ => false

/-- The call has read `timer_added` as false and not set it yet. -/
def Pc.addsTimer : Pc → Bool
  | .addPeriodicTimer | .setTimerAdded => true
  | _ => false

/-- A call, and `@last` of its terminal once there is one. -/
structure Call where
  owner : String
  pc : Pc
  last : Nat

/-- Where `TTY.each` is, in a sweep: the owners it has still to visit, the bucket it iterates over and
what is left of that. -/
inductive Sweep
  | owners (rest : List String)
  | bucket (rest : List String) (owner : String) (ttys : List Ref)
  /-- `tty.close` runs the listeners next. -/
  | closing (rest : List String) (owner : String) (ttys : List Ref) (tty : Ref)
  /-- `tty.close` publishes the kill event next. -/
  | killing (rest : List String) (owner : String) (ttys : List Ref) (tty : Ref)

/-- The owner of the bucket that is iterated over. -/
def Sweep.owner? : Sweep → Option String
  | .owners _ => none
  | .bucket _ owner _ | .closing _ owner _ _ | .killing _ owner _ _ => some owner

/-- The factory: the registry, `timer_added`, when the installed timers are due, the calls by object
id, and the sweep in progress. -/
structure Factory where
  terms : Registry
  timerAdded : Bool
  timers : List Nat
  now : Nat
  calls : Int → Call
  sweep : Option Sweep
  published : List Publication

namespace Factory

def init : Factory :=
  { terms := .empty, timerAdded := false, timers := [], now := 0, calls := fun _ => ⟨"", .idle, 0⟩, sweep := none,
    published := [] }

def setCall (s : Factory) (k : Int) (c : Call) : Factory := { s with calls := Function.update s.calls k c }

/-- The reference of the terminal that a call constructs. -/
def ref (s : Factory) (k : Int) : Ref := ⟨(s.calls k).owner, k⟩

def goto (s : Factory) (k : Int) (pc : Pc) : Factory := s.setCall k { s.calls k with pc }

/-- Inserting the owner or the terminal is inserting a new key into a hash that is being iterated
over. -/
def pushRaises (s : Factory) (owner : String) : Bool :=
  match s.sweep with
  | none => false
  | some w => decide (owner ∉ s.terms.terms.keys ∨ w.owner? = some owner)

/-- The next step of a call. -/
def run (s : Factory) (k : Int) : Option Factory :=
  let c := s.calls k
  match c.pc with
  | .idle => none
  | .readTimerAdded => some (s.goto k (if s.timerAdded then .construct else .addPeriodicTimer))
  | .addPeriodicTimer => some { s.goto k .setTimerAdded with timers := s.timers ++ [s.now + EXPIRY_TIMER] }
  | .setTimerAdded => some { s.goto k .construct with timerAdded := true }
  | .construct => some (s.setCall k { c with pc := .push, last := s.now })
  | .push =>
    if s.pushRaises c.owner then some (s.goto k .failed)
    else some { s.goto k .onClose with terms := s.terms.push (s.ref k) }
  | .onClose => some (s.goto k .callOpen)
  | .callOpen => some (s.goto k (.opened (decide (s.ref k ∈ s.terms))))
  | .opened _ | .failed => none

/-- `Time.now - @last > EXPIRY_SECONDS`. -/
def expired (s : Factory) (tty : Ref) : Bool := decide (s.now - (s.calls tty.objectId).last > SSH.EXPIRY_SECONDS)

/-- The next step of the sweep; entries deleted meanwhile are skipped. -/
def sweepStep (s : Factory) : Option Factory :=
  match s.sweep with
  | none => none
  | some (.owners []) => some { s with sweep := none }
  | some (.owners (owner :: rest)) =>
    match s.terms.terms.lookup owner with
    | none => some { s with sweep := some (.owners rest) }
    | some ttys => some { s with sweep := some (.bucket rest owner (OrdHash.values ttys)) }
  | some (.bucket rest _ []) => some { s with sweep := some (.owners rest) }
  | some (.bucket rest owner (tty :: ttys)) =>
    if tty ∈ s.terms ∧ s.expired tty then some { s with sweep := some (.closing rest owner ttys tty) }
    else some { s with sweep := some (.bucket rest owner ttys) }
  | some (.closing rest owner ttys tty) =>
    some { s with terms := if (s.calls tty.objectId).pc.hooked then s.terms.delete tty else s.terms,
                  sweep := some (.killing rest owner ttys tty) }
  | some (.killing rest owner ttys tty) =>
    some { s with published := s.published ++ [.kill tty.owner tty.objectId], sweep := some (.bucket rest owner ttys) }

inductive Act
  | call (k : Int) (owner : String)
  | run (k : Int)
  /-- An installed timer fires on the reactor thread, which runs one sweep at a time. -/
  | fire (i : Nat)
  | sweep
  | tick (n : Nat)

def step (s : Factory) : Act → Option Factory
  | .call k owner => if (s.calls k).pc = .idle then some (s.setCall k ⟨owner, .readTimerAdded, 0⟩) else none
  | .run k => s.run k
  | .fire i =>
    match s.sweep, s.timers[i]? with
    | none, some due =>
      if due ≤ s.now then
        some { s with timers := s.timers.set i (s.now + EXPIRY_TIMER), sweep := some (.owners s.terms.terms.keys) }
      else none
    | _, _ => none
  | .sweep => s.sweepStep
  | .tick n => some { s with now := s.now + n }

/-! ## Safety -/

/-- No call has failed, every call that reached `tty.open` found its terminal registered, and at most
one timer is installed. -/
structure Safe (s : Factory) : Prop where
  timers : s.timers.length ≤ 1
  calls : ∀ k, (s.calls k).pc ≠ .failed ∧ (s.calls k).pc ≠ .opened false

/-- The steps that do not meet: no call reads `timer_added` as false while another has read it and not
set it yet, `TTY <<` inserts no key into a hash that is being iterated over, and the sweep closes no
terminal between its `on_close` and its `open`. -/
structure Apart (s : Factory) (a : Act) : Prop where
  reads : ∀ k, a = .run k → (s.calls k).pc = .readTimerAdded → s.timerAdded = false →
    ∀ j, (s.calls j).pc.addsTimer = false
  inserts : ∀ k, a = .run k → (s.calls k).pc = .push → s.pushRaises (s.calls k).owner = false
  evicts : ∀ rest owner ttys tty, a = .sweep → s.sweep = some (.closing rest owner ttys tty) →
    ¬ ((s.calls tty.objectId).pc = .callOpen ∧ s.ref tty.objectId = tty)

/-- What holds as long as the steps stay apart. -/
structure Inv (s : Factory) : Prop where
  safe : Safe s
  alone : ∀ i j, (s.calls i).pc.addsTimer = true → (s.calls j).pc.addsTimer = true → i = j
  adding : ∀ k, (s.calls k).pc = .addPeriodicTimer → s.timers = []
  unset : s.timerAdded = false → (∀ k, (s.calls k).pc.addsTimer = false) → s.timers = []
  registered : ∀ k, (s.calls k).pc = .onClose ∨ (s.calls k).pc = .callOpen → s.ref k ∈ s.terms

theorem setCall_self (s : Factory) (k : Int) (c : Call) : (s.setCall k c).calls k = c := Function.update_self ..

theorem setCall_ne (s : Factory) {k j : Int} (c : Call) (h : j ≠ k) : (s.setCall k c).calls j = s.calls j :=
  Function.update_of_ne h ..

theorem goto_pc (s : Factory) (k j : Int) (pc : Pc) :
    ((s.goto k pc).calls j).pc = if j = k then pc else (s.calls j).pc := by
  unfold goto
  split
  · rename_i h; rw [h, setCall_self]
  · rename_i h; rw [setCall_ne s _ h]

theorem goto_ref (s : Factory) (k j : Int) (pc : Pc) : (s.goto k pc).ref j = s.ref j := by
  unfold goto ref
  by_cases h : j = k
  · rw [h, setCall_self]
  · rw [setCall_ne s _ h]

theorem init_inv : Inv init :=
  ⟨⟨Nat.zero_le 1, fun k => ⟨nofun, nofun⟩⟩, (by intro i j h; cases h), fun k _ => rfl, fun _ _ => rfl,
    fun k h => by rcases h with h | h <;> cases h⟩

/-- A call moves on without touching the timer or the registry. -/
theorem Inv.setCall {s : Factory} (h : Inv s) {k : Int} {c : Call} (hold : (s.calls k).pc.addsTimer = false)
    (hnew : c.pc.addsTimer = false) (hok : c.pc ≠ .failed ∧ c.pc ≠ .opened false)
    (hreg : c.pc = .onClose ∨ c.pc = .callOpen → (⟨c.owner, k⟩ : Ref) ∈ s.terms) : Inv (s.setCall k c) := by
  have hadds : ∀ j, ((s.setCall k c).calls j).pc.addsTimer = (s.calls j).pc.addsTimer := fun j => by
    by_cases hj : j = k
    · rw [hj, setCall_self, hnew, hold]
    · rw [setCall_ne s c hj]
  refine ⟨⟨h.safe.timers, fun j => ?_⟩, fun i j => ?_, fun j hj => ?_, fun ht hall => ?_, fun j hj => ?_⟩
  · by_cases hj : j = k
    · rw [hj, setCall_self]; exact hok
    · rw [setCall_ne s c hj]; exact h.safe.calls j
  · rw [hadds, hadds]; exact h.alone i j
  · by_cases hjk : j = k
    · rw [hjk, setCall_self] at hj
      rw [hj] at hnew; cases hnew
    · rw [setCall_ne s c hjk] at hj; exact h.adding j hj
  · exact h.unset ht fun j => (hadds j).symm.trans (hall j)
  · unfold ref
    by_cases hjk : j = k
    · rw [hjk, setCall_self] at hj ⊢; exact hreg hj
    · rw [setCall_ne s c hjk] at hj ⊢; exact h.registered j hj

/-- A call that moves on to a step before `open` has neither failed nor opened. -/
theorem Inv.goto_calls {s : Factory} (h : Inv s) (k : Int) {pc : Pc} (hpc : pc ≠ .failed ∧ pc ≠ .opened false)
    (j : Int) :
    ((s.goto k pc).calls j).pc ≠ .failed ∧ ((s.goto k pc).calls j).pc ≠ .opened false := by
  rw [goto_pc]
  split
  · exact hpc
  · exact h.safe.calls j

theorem Inv.goto_registered {s : Factory} (h : Inv s) (k : Int) {pc : Pc}
    (hpc : pc ≠ .onClose ∧ pc ≠ .callOpen) (j : Int)
    (hj : ((s.goto k pc).calls j).pc = .onClose ∨ ((s.goto k pc).calls j).pc = .callOpen) :
    (s.goto k pc).ref j ∈ s.terms := by
  rw [goto_pc] at hj
  rw [goto_ref]
  split at hj
  · exact absurd hj (not_or.2 hpc)
  · exact h.registered j hj

/-- The flag is read as false, and no other call is between reading it and setting it. -/
theorem Inv.readTimerAdded {s : Factory} (h : Inv s) (k : Int) (ht : s.timerAdded = false)
    (hnone : ∀ j, (s.calls j).pc.addsTimer = false) : Inv (s.goto k .addPeriodicTimer) := by
  have honly : ∀ j, ((s.goto k .addPeriodicTimer).calls j).pc.addsTimer = true → j = k := by
    intro j hj
    by_contra hjk
    rw [goto_pc, if_neg hjk, hnone j] at hj; cases hj
  have htimers := h.unset ht hnone
  exact ⟨⟨h.safe.timers, h.goto_calls k ⟨nofun, nofun⟩⟩, fun i j hi hj => (honly i hi).trans (honly j hj).symm,
    fun _ _ => htimers, fun _ _ => htimers, h.goto_registered k ⟨nofun, nofun⟩⟩

/-- The timer that a call installs is the first. -/
theorem Inv.addPeriodicTimer {s : Factory} (h : Inv s) {k : Int} (hpc : (s.calls k).pc = .addPeriodicTimer) :
    Inv { s.goto k .setTimerAdded with timers := s.timers ++ [s.now + EXPIRY_TIMER] } := by
  have hk : (s.calls k).pc.addsTimer = true := by rw [hpc]; rfl
  have htimers := h.adding k hpc
  have hadds : ∀ j, ((s.goto k .setTimerAdded).calls j).pc.addsTimer = (s.calls j).pc.addsTimer := by
    intro j
    rw [goto_pc]
    split
    · rename_i hj; rw [hj, hk]; rfl
    · rfl
  refine ⟨⟨by rw [htimers]; exact le_refl 1, h.goto_calls k ⟨nofun, nofun⟩⟩, fun i j hi hj => ?_, fun j hj => ?_,
    fun _ hall => ?_, h.goto_registered k ⟨nofun, nofun⟩⟩
  · exact h.alone i j ((hadds i).symm.trans hi) ((hadds j).symm.trans hj)
  · -- no other call is about to install one
    simp only [goto_pc] at hj
    split at hj
    · cases hj
    · rename_i hjk
      exact absurd (h.alone j k (by rw [hj]; rfl) hk) hjk
  · have hfalse := hall k
    rw [hadds, hk] at hfalse; cases hfalse

/-- Once the flag is set, no call is adding a timer. -/
theorem Inv.setTimerAdded {s : Factory} (h : Inv s) {k : Int} (hpc : (s.calls k).pc = .setTimerAdded) :
    Inv { s.goto k .construct with timerAdded := true } := by
  have hk : (s.calls k).pc.addsTimer = true := by rw [hpc]; rfl
  have hnone : ∀ j, ((s.goto k .construct).calls j).pc.addsTimer = false := by
    intro j
    rw [goto_pc]
    split
    · rfl
    · rename_i hjk
      exact Bool.eq_false_iff.2 fun hj => hjk (h.alone j k hj hk)
  refine ⟨⟨h.safe.timers, h.goto_calls k ⟨nofun, nofun⟩⟩, fun i j hi _ => ?_, fun j hj => ?_, nofun,
    h.goto_registered k ⟨nofun, nofun⟩⟩
  · have hfalse := hnone i
    rw [show ((s.goto k .construct).calls i).pc.addsTimer = true from hi] at hfalse; cases hfalse
  · have hfalse := hnone j
    rw [show ((s.goto k .construct).calls j).pc = _ from hj] at hfalse; cases hfalse

theorem Inv.push {s : Factory} (h : Inv s) {k : Int} (hpc : (s.calls k).pc = .push) :
    Inv { s.goto k .onClose with terms := s.terms.push (s.ref k) } := by
  have h' : Inv { s with terms := s.terms.push (s.ref k) } :=
    ⟨⟨h.safe.timers, h.safe.calls⟩, h.alone, h.adding, h.unset,
      fun j hj => Registry.mem_push.2 (.inr (h.registered j hj))⟩
  exact h'.setCall (by rw [hpc]; rfl) rfl ⟨nofun, nofun⟩ fun _ => Registry.mem_push.2 (.inl rfl)

theorem Inv.run {s s' : Factory} {k : Int} (h : Inv s) (hc : Apart s (.run k)) (hrun : s.run k = some s') : Inv s' := by
  unfold Factory.run at hrun
  cases hpc : (s.calls k).pc with
  | idle | opened _ | failed => simp only [hpc] at hrun; cases hrun
  | readTimerAdded =>
    cases ht : s.timerAdded with
    | true =>
      simp only [hpc, ht, if_true] at hrun
      cases hrun
      exact h.setCall (by rw [hpc]; rfl) rfl ⟨nofun, nofun⟩ (by rintro (h | h) <;> cases h)
    | false =>
      simp only [hpc, ht, Bool.false_eq_true, if_false] at hrun
      cases hrun
      exact h.readTimerAdded k ht (hc.reads k rfl hpc ht)
  | addPeriodicTimer =>
    simp only [hpc] at hrun
    cases hrun
    exact h.addPeriodicTimer hpc
  | setTimerAdded =>
    simp only [hpc] at hrun
    cases hrun
    exact h.setTimerAdded hpc
  | construct =>
    simp only [hpc] at hrun
    cases hrun
    exact h.setCall (by rw [hpc]; rfl) rfl ⟨nofun, nofun⟩ (by rintro (h | h) <;> cases h)
  | push =>
    simp only [hpc, hc.inserts k rfl hpc] at hrun
    cases hrun
    exact h.push hpc
  | onClose =>
    simp only [hpc] at hrun
    cases hrun
    exact h.setCall (by rw [hpc]; rfl) rfl ⟨nofun, nofun⟩ fun _ => h.registered k (.inl hpc)
  | callOpen =>
    simp only [hpc] at hrun
    cases hrun
    rw [decide_eq_true (h.registered k (.inr hpc))]
    exact h.setCall (by rw [hpc]; rfl) rfl ⟨nofun, nofun⟩ (by rintro (h | h) <;> cases h)

theorem Inv.sweepStep {s s' : Factory} (h : Inv s) (hc : Apart s .sweep) (hstep : s.sweepStep = some s') : Inv s' := by
  -- a step of the sweep changes the registry, its own place and what was published
  have hframe (terms : Registry) (sweep : Option Sweep) (published : List Publication)
      (hreg : ∀ k, (s.calls k).pc = .onClose ∨ (s.calls k).pc = .callOpen → s.ref k ∈ terms) :
      Inv { s with terms, sweep, published } :=
    ⟨⟨h.safe.timers, h.safe.calls⟩, h.alone, h.adding, h.unset, hreg⟩
  unfold Factory.sweepStep at hstep
  split at hstep
  · cases hstep
  · cases hstep; exact hframe s.terms _ _ h.registered
  · split at hstep <;> cases hstep <;> exact hframe s.terms _ _ h.registered
  · cases hstep; exact hframe s.terms _ _ h.registered
  · split at hstep <;> cases hstep <;> exact hframe s.terms _ _ h.registered
  · rename_i rest owner ttys tty hs
    cases hstep
    apply hframe
    intro k hk
    split
    · rename_i hhook
      refine Registry.mem_delete.2 ⟨fun he => ?_, h.registered k hk⟩
      have hid : tty.objectId = k := by rw [← he]; rfl
      rw [hid] at hhook
      rcases hk with hk | hk
      · rw [hk] at hhook; cases hhook
      -- hooked and not yet opened
      · exact hc.evicts rest owner ttys tty rfl hs (by rw [hid]; exact ⟨hk, he⟩)
    · exact h.registered k hk
  · cases hstep; exact hframe s.terms _ _ h.registered

theorem Inv.step {s s' : Factory} {a : Act} (h : Inv s) (hc : Apart s a) (hstep : s.step a = some s') : Inv s' := by
  cases a with
  | call k owner =>
    simp only [Factory.step] at hstep
    split at hstep
    · rename_i hpc
      cases hstep
      exact h.setCall (by rw [hpc]; rfl) rfl ⟨nofun, nofun⟩ (by rintro (h | h) <;> cases h)
    · cases hstep
  | run k => exact h.run hc hstep
  | fire i =>
    simp only [Factory.step] at hstep
    split at hstep
    · split at hstep
      · cases hstep
        refine ⟨⟨by simpa using h.safe.timers, h.safe.calls⟩, h.alone, fun k hk => ?_, fun ht hall => ?_, h.registered⟩
        · simp [h.adding k hk]
        · simp [h.unset ht hall]
      · cases hstep
    · cases hstep
  | sweep => exact h.sweepStep hc hstep
  | tick n => cases hstep; exact ⟨⟨h.safe.timers, h.safe.calls⟩, h.alone, h.adding, h.unset, h.registered⟩

/-! ## When the steps meet -/

/-- A call that is about to set the flag has installed its timer. -/
def Installed (s : Factory) : Prop := ∀ k, (s.calls k).pc = .setTimerAdded → s.timers ≠ []

theorem run_timers {s s' : Factory} {k : Int} (h : s.run k = some s') :
    (∀ j, j ≠ k → (s'.calls j).pc = (s.calls j).pc) ∧ ((s'.calls k).pc = .setTimerAdded → s'.timers ≠ []) ∧
    (s.timers ≠ [] → s'.timers ≠ []) := by
  have hne {pc : Pc} {j : Int} (hj : j ≠ k) : ((s.goto k pc).calls j).pc = (s.calls j).pc := by rw [goto_pc, if_neg hj]
  have hself {pc : Pc} : ((s.goto k pc).calls k).pc = pc := by rw [goto_pc, if_pos rfl]
  unfold Factory.run at h
  cases hpc : (s.calls k).pc with
  | idle | opened _ | failed => simp only [hpc] at h; cases h
  | readTimerAdded =>
    simp only [hpc] at h
    cases h
    refine ⟨fun j => hne, fun hk => ?_, id⟩
    rw [hself] at hk
    split at hk <;> cases hk
  | addPeriodicTimer => simp only [hpc] at h; cases h; exact ⟨fun j => hne, fun _ => by simp, fun _ => by simp⟩
  | setTimerAdded => simp only [hpc] at h; cases h; exact ⟨fun j => hne, fun hk => (nomatch hself.symm.trans hk), id⟩
  | construct =>
    simp only [hpc] at h
    cases h
    exact ⟨fun j hj => by rw [setCall_ne _ _ hj], fun hk => (by rw [setCall_self] at hk; cases hk), id⟩
  | push =>
    simp only [hpc] at h
    split at h <;> cases h <;> exact ⟨fun j => hne, fun hk => (nomatch hself.symm.trans hk), id⟩
  | onClose | callOpen =>
    simp only [hpc] at h; cases h
    exact ⟨fun j => hne, fun hk => (nomatch hself.symm.trans hk), id⟩

theorem Installed.step {s s' : Factory} {a : Act} (h : Installed s) (hstep : s.step a = some s') : Installed s' := by
  intro j hj
  cases a with
  | call k owner =>
    simp only [Factory.step] at hstep
    split at hstep
    · cases hstep
      by_cases hjk : j = k
      · rw [hjk, setCall_self] at hj; cases hj
      · rw [setCall_ne _ _ hjk] at hj; exact h j hj
    · cases hstep
  | run k =>
    obtain ⟨hother, hself, hkeep⟩ := run_timers hstep
    by_cases hjk : j = k
    · subst hjk; exact hself hj
    · exact hkeep (h j ((hother j hjk).symm.trans hj))
  | fire i =>
    simp only [Factory.step] at hstep
    split at hstep
    · split at hstep
      · cases hstep
        have := h j hj
        simpa using this
      · cases hstep
    · cases hstep
  | sweep =>
    simp only [Factory.step, Factory.sweepStep] at hstep
    split at hstep
    · cases hstep
    · cases hstep; exact h j hj
    · split at hstep <;> cases hstep <;> exact h j hj
    · cases hstep; exact h j hj
    · split at hstep <;> cases hstep <;> exact h j hj
    · cases hstep; exact h j hj
    · cases hstep; exact h j hj
  | tick n => cases hstep; exact h j hj

theorem run_addPeriodicTimer {s : Factory} {k : Int} (h : (s.calls k).pc = .addPeriodicTimer) :
    s.run k = some { s.goto k .setTimerAdded with timers := s.timers ++ [s.now + EXPIRY_TIMER] } := by
  unfold Factory.run; simp only [h]

theorem run_callOpen {s : Factory} {k : Int} (h : (s.calls k).pc = .callOpen) :
    s.run k = some (s.goto k (.opened (decide (s.ref k ∈ s.terms)))) := by
  unfold Factory.run; simp only [h]

/-- Once two steps have met, the run can go on to a call that fails, a terminal that is not registered
when its call reaches `open`, or a second timer. -/
theorem unsafe_of_meeting {s s' : Factory} {a : Act} (hi : Installed s) (hstep : s.step a = some s') (h : ¬ Apart s a) :
    ∃ as s'', Machine.exec step s' as = some s'' ∧ ¬ Safe s'' := by
  by_cases hreads : ∀ k, a = .run k → (s.calls k).pc = .readTimerAdded → s.timerAdded = false →
      ∀ j, (s.calls j).pc.addsTimer = false
  · by_cases hins : ∀ k, a = .run k → (s.calls k).pc = .push → s.pushRaises (s.calls k).owner = false
    · -- the sweep closes a terminal whose call is about to open it
      have hev : ¬ ∀ rest owner ttys tty, a = .sweep → s.sweep = some (.closing rest owner ttys tty) →
          ¬ ((s.calls tty.objectId).pc = .callOpen ∧ s.ref tty.objectId = tty) := fun hev => h ⟨hreads, hins, hev⟩
      simp only [not_forall, not_not] at hev
      obtain ⟨rest, owner, ttys, tty, rfl, hs, hpc, href⟩ := hev
      simp only [Factory.step, Factory.sweepStep, hs, hpc, Pc.hooked, if_true] at hstep
      cases hstep
      refine ⟨[.run tty.objectId], _, Machine.exec_singleton.2 (run_callOpen hpc), fun hsafe => ?_⟩
      refine (hsafe.calls tty.objectId).2 ?_
      rw [goto_pc, if_pos rfl, Pc.opened.injEq, decide_eq_false_iff_not, Registry.mem_delete]
      exact fun hm => hm.1 href
    · -- the insertion raises
      simp only [not_forall] at hins
      obtain ⟨k, rfl, hpc, hraise⟩ := hins
      rw [Bool.not_eq_false] at hraise
      simp only [Factory.step, Factory.run, hpc, hraise, if_true] at hstep
      cases hstep
      exact ⟨[], _, rfl, fun hsafe => (hsafe.calls k).1 (by rw [goto_pc, if_pos rfl])⟩
  · -- both calls go on to install a timer
    simp only [not_forall] at hreads
    obtain ⟨k, rfl, hpc, hflag, j, hj⟩ := hreads
    rw [Bool.not_eq_false] at hj
    have hjk : j ≠ k := by rintro rfl; rw [hpc] at hj; cases hj
    simp only [Factory.step, Factory.run, hpc, hflag, Bool.false_eq_true, if_false] at hstep
    cases hstep
    have hk' : ((s.goto k .addPeriodicTimer).calls k).pc = .addPeriodicTimer := by rw [goto_pc, if_pos rfl]
    have hj' : ((s.goto k .addPeriodicTimer).calls j).pc = (s.calls j).pc := by rw [goto_pc, if_neg hjk]
    cases hpj : (s.calls j).pc with
    | addPeriodicTimer =>
      refine ⟨[.run j, .run k], _, Machine.exec_cons.2 ⟨_, run_addPeriodicTimer (hj'.trans hpj),
        Machine.exec_singleton.2 (run_addPeriodicTimer ?_)⟩, fun hsafe => ?_⟩
      · simp only [goto_pc, if_neg hjk.symm, if_true]
      · have := hsafe.timers
        simp only [List.length_append, List.length_cons, List.length_nil] at this
        omega
    | setTimerAdded =>
      have hpos := List.length_pos_iff.2 (hi j hpj)
      refine ⟨[.run k], _, Machine.exec_singleton.2 (run_addPeriodicTimer hk'), fun hsafe => ?_⟩
      have hle := hsafe.timers
      simp only [List.length_append, List.length_cons, List.length_nil] at hle
      have : (s.goto k .addPeriodicTimer).timers = s.timers := rfl
      rw [this] at hle
      omega
    | idle | readTimerAdded | construct | push | onClose | callOpen | opened _ | failed => rw [hpj] at hj; cases hj

/-- The factory is safe after every run whose steps stayed apart; and whatever the run was, from a step
that brings two of them together some continuation is not safe. -/
theorem factory_safe {as : List Act} {s : Factory} (h : Machine.exec step init as = some s) :
    (Machine.Meets step Apart init as → Safe s) ∧
    ∀ a s', s.step a = some s' → ¬ Apart s a → ∃ bs s'', Machine.exec step s' bs = some s'' ∧ ¬ Safe s'' := by
  constructor
  · intro hm
    exact (Machine.exec_inv_meets (fun _ _ _ => Inv.step) init_inv hm h).safe
  intro a s' hstep hno
  have hi : Installed s := Machine.exec_inv (fun _ _ _ => Installed.step) (by intro k hk; cases hk) h
  exact unsafe_of_meeting hi hstep hno

/-- The first call installs the timer. -/
def firstCall : List Act := [.call 8 "1", .run 8, .run 8, .run 8]

theorem firstCall_apart : Machine.Meets step Apart init firstCall := by
  intro s1 h1
  obtain rfl := Option.some.inj h1
  refine ⟨⟨nofun, nofun, nofun⟩, fun s2 h2 => ?_⟩
  obtain rfl := Option.some.inj h2
  have hpc : ∀ j, ((init.setCall 8 ⟨"1", .readTimerAdded, 0⟩).calls j).pc.addsTimer = false := fun j => by
    by_cases hj : j = 8
    · rw [hj]; rfl
    · rw [setCall_ne _ _ hj]; rfl
  refine ⟨⟨fun k hk _ _ => hpc, fun k hk h => ?_, nofun⟩, fun s3 h3 => ?_⟩
  · cases hk; cases h
  obtain rfl := Option.some.inj h3
  refine ⟨⟨fun k hk h => ?_, fun k hk h => ?_, nofun⟩, fun s4 h4 => ?_⟩
  · cases hk; cases h
  · cases hk; cases h
  obtain rfl := Option.some.inj h4
  refine ⟨⟨fun k hk h => ?_, fun k hk h => ?_, nofun⟩, trivial⟩
  · cases hk; cases h
  · cases hk; cases h

/-- Once the flag is set, all that is left of `Apart` concerns the sweep. -/
def Clear (s : Factory) : Act → Bool
  | .run k => decide ((s.calls k).pc ≠ .readTimerAdded ∨ s.timerAdded = true) &&
      decide ((s.calls k).pc = .push → s.pushRaises (s.calls k).owner = false)
  | .sweep =>
    match s.sweep with
    | some (.closing _ _ _ tty) => decide ((s.calls tty.objectId).pc ≠ .callOpen)
    | _ => true
  | _ => true

theorem Clear.apart {s : Factory} {a : Act} (h : Clear s a = true) : Apart s a := by
  refine ⟨fun k hk hpc hflag => ?_, fun k hk hpc => ?_, fun rest owner ttys tty ha hs hopen => ?_⟩
  · subst hk
    simp [Clear, hpc, hflag] at h
  · subst hk
    simpa [Clear, hpc] using h
  · subst ha
    simp [Clear, hs, hopen.1] at h

/-- The first call goes on to the end, and half an hour later there is another one; then the timer fires. -/
def twoCalls : List Act :=
  List.replicate 4 (.run 8) ++ [.tick 1801, .call 9 "2"] ++ List.replicate 5 (.run 9) ++
    .fire 0 :: List.replicate 9 .sweep

theorem firstCall_runs : (Machine.exec step init firstCall).isSome := by decide +kernel

theorem twoCalls_runs : (Machine.exec step init (firstCall ++ twoCalls)).isSome := by decide +kernel

theorem twoCalls_apart : Machine.Meets step Apart init (firstCall ++ twoCalls) := by
  refine firstCall_apart.append fun s hs => ?_
  obtain rfl : s = (Machine.exec step init firstCall).get firstCall_runs :=
    Option.some.inj (hs.symm.trans (Option.some_get firstCall_runs).symm)
  have hclear : Machine.Guarded step (fun s a => Clear s a = true) ((Machine.exec step init firstCall).get firstCall_runs)
      twoCalls := by decide +kernel
  exact hclear.meets.imp fun s a => Clear.apart

theorem factory_safe_calls : ∃ s, Machine.exec step init (firstCall ++ twoCalls) = some s ∧ s.sweep.isNone = true ∧
    ⟨"1", 8⟩ ∉ s.terms ∧ ⟨"2", 9⟩ ∈ s.terms ∧ Safe s := by
  have hrun := (Option.some_get twoCalls_runs).symm
  exact ⟨_, hrun, by decide +kernel, by decide +kernel, by decide +kernel, (@factory_safe _ _ hrun).1 twoCalls_apart⟩

/-- Two calls read the flag before either sets it; and a call inserts its terminal while the timer of an
earlier one sweeps. -/
theorem factory_unsafe :
    (∃ s, Machine.exec step init [.call 8 "1", .call 9 "1", .run 8, .run 9, .run 8, .run 9] = some s ∧ ¬ Safe s) ∧
    ∃ s, Machine.exec step init ([.call 8 "1"] ++ List.replicate 7 (.run 8) ++
      [.tick 900, .fire 0, .sweep, .call 9 "1", .run 9, .run 9, .run 9]) = some s ∧ ¬ Safe s := by
  refine ⟨⟨_, rfl, fun h => ?_⟩, _, rfl, fun h => ?_⟩
  · exact absurd h.timers (by decide)
  · exact absurd rfl (h.calls 9).1

/-! ## A call alone -/

/-- A call that nothing interrupts does to the registry and the flag what `TTY.create` does up to
`tty.open`. -/
theorem call_alone {s : Factory} {r : Reactor} {k : Int} {owner : String} (hidle : (s.calls k).pc = .idle)
    (hsweep : s.sweep = none) (hterms : s.terms = r.terms) (hflag : s.timerAdded = r.timerAdded) :
    ∃ n s', Machine.exec step s (.call k owner :: List.replicate n (.run k)) = some s' ∧
      (s'.calls k).pc = .opened true ∧ s'.terms = (prepared r ⟨owner, k⟩).terms ∧
      s'.timerAdded = (prepared r ⟨owner, k⟩).timerAdded := by
  have hmem : (⟨owner, k⟩ : Ref) ∈ s.terms.push ⟨owner, k⟩ := Registry.mem_push.2 (.inl rfl)
  cases hf : s.timerAdded with
  | true =>
    refine ⟨5, { s with
        calls := Function.update s.calls k ⟨owner, .opened true, s.now⟩
        terms := s.terms.push ⟨owner, k⟩ }, ?_, ?_, ?_, ?_⟩
    · simp [List.replicate, Machine.exec, step, run, hidle, setCall, goto, ref, hf, hsweep, pushRaises, hmem]
    · simp
    · simp [prepared, ← hflag, hf, hterms]
    · simp [prepared, ← hflag, hf]
  | false =>
    refine ⟨7, { s with
        calls := Function.update s.calls k ⟨owner, .opened true, s.now⟩
        terms := s.terms.push ⟨owner, k⟩
        timerAdded := true
        timers := s.timers ++ [s.now + EXPIRY_TIMER] }, ?_, ?_, ?_, ?_⟩
    · simp [List.replicate, Machine.exec, step, run, hidle, setCall, goto, ref, hf, hsweep, pushRaises, hmem]
    · simp
    · simp [prepared, ← hflag, hf, hterms]
    · simp [prepared, ← hflag, hf]

end Factory

end Tangle.TTY
