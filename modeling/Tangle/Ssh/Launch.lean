/-
Calls of `SSH::Remote#open` side by side. `pick_vm` lists the tagged instances, asks each for its
status and launches a new one when none is running. Between the listing and the moment a new instance
is tagged and running nothing keeps another call from deciding the same, so an instance is created
once at most exactly as long as every call that lists the instances finds this window closed.
-/
import Mathlib.Data.Fintype.EquivFin
import Tangle.Lib.Machine
import Tangle.Tty.Create

namespace Tangle.SSH.Remote

/-- An EC2 instance: whether it has the tag `EC2_TAG`, and its status. -/
structure Instance where
  tagged : Bool
  status : VmStatus

/-- How far a call of `open` has come. -/
inductive Call
  | idle
  /-- `detect` has these listed instances left to ask for their status. -/
  | detecting (ids : List String)
  /-- `ec2.instances.create` has returned. -/
  | created (id : String)
  /-- `sleep 2 while vm.status == :pending`. -/
  | waiting (id : String)
  /-- `pick_vm` has returned. -/
  | picked (id : String)
  | raised

/-- EC2 and the calls, as many as there may be; `created` counts the instances they have created. -/
structure Cloud where
  instances : OrdHash String Instance
  calls : Nat → Call
  created : Nat

namespace Cloud

def init (instances : OrdHash String Instance) : Cloud := { instances, calls := fun _ => .idle, created := 0 }

/-- What EC2 answers; an instance it does not know any more is terminated. -/
def status (s : Cloud) (id : String) : VmStatus := ((s.instances.lookup id).map Instance.status).getD .terminated

/-- `ec2.instances.tagged EC2_TAG`. -/
def vms (s : Cloud) : List String :=
  s.instances.keys.filter fun id => ((s.instances.lookup id).map Instance.tagged).getD false

def setCall (c : Nat) (call : Call) (s : Cloud) : Cloud := { s with calls := Function.update s.calls c call }

/-- A request of one of the calls, or what EC2 does. -/
inductive Act
  | list (c : Nat)
  | status (c : Nat)
  /-- EC2 chooses the id. -/
  | create (c : Nat) (id : String)
  | tag (c : Nat)
  | poll (c : Nat)
  /-- A request raises. -/
  | fail (c : Nat)
  | boot (id : String)

def step (s : Cloud) : Act → Option Cloud
  | .list c =>
    match s.calls c with
    | .idle => some (s.setCall c (.detecting s.vms))
    | _ => none
  | .status c =>
    match s.calls c with
    | .detecting (id :: ids) => some (s.setCall c (if s.status id = .running then .picked id else .detecting ids))
    | _ => none
  | .create c id =>
    match s.calls c with
    | .detecting [] =>
      if id ∈ s.instances then none
      else some { s.setCall c (.created id) with
        instances := OrdHash.set id ⟨false, .pending⟩ s.instances, created := s.created + 1 }
    | _ => none
  | .tag c =>
    match s.calls c with
    | .created id =>
      some { s.setCall c (.waiting id) with
        instances := OrdHash.update id (fun i => { i with tagged := true }) s.instances }
    | _ => none
  | .poll c =>
    match s.calls c with
    | .waiting id => some (s.setCall c (if s.status id = .pending then .waiting id else .picked id))
    | _ => none
  | .fail c =>
    match s.calls c with
    | .idle | .picked _ | .raised => none
    | .detecting _ | .created _ | .waiting _ => some (s.setCall c .raised)
  | .boot id =>
    if s.status id = .pending then
      some { s with instances := OrdHash.update id (fun i => { i with status := .running }) s.instances }
    else none

/-- The call will launch an instance unless one of those it still has to ask starts to run. -/
def MayLaunch (s : Cloud) (c : Nat) : Prop := ∃ ids, s.calls c = .detecting ids ∧ ∀ id ∈ ids, s.status id ≠ .running

/-- A call that lists the instances finds one that runs, or nothing has been launched and no other call
may still launch anything. -/
def ListsSettled (s : Cloud) : Act → Prop
  | .list _ => (∃ id ∈ s.vms, s.status id = .running) ∨ (s.created = 0 ∧ ∀ d, ¬ s.MayLaunch d)
  | _ => True

/-! ## One step -/

@[simp] theorem setCall_self (c : Nat) (call : Call) (s : Cloud) : (s.setCall c call).calls c = call :=
  Function.update_self ..

theorem setCall_ne {c d : Nat} (h : d ≠ c) (call : Call) (s : Cloud) : (s.setCall c call).calls d = s.calls d :=
  Function.update_of_ne h ..

theorem MayLaunch.mono {s s' : Cloud} {d : Nat} (h : s'.MayLaunch d) (hc : s'.calls d = s.calls d)
    (hs : ∀ id, s.status id = .running → s'.status id = .running) : s.MayLaunch d := by
  obtain ⟨ids, hd, hids⟩ := h
  exact ⟨ids, hc ▸ hd, fun id hm hr => hids id hm (hs id hr)⟩

theorem not_mayLaunch {s : Cloud} {c : Nat} (h : ∀ ids, s.calls c ≠ .detecting ids) : ¬ s.MayLaunch c := by
  rintro ⟨ids, hc, -⟩
  exact h ids hc

/-- A new instance is pending. -/
theorem status_create (s : Cloud) {id id' : String} (h : id ∉ s.instances) :
    (((OrdHash.set id ⟨false, .pending⟩ s.instances).lookup id').map Instance.status).getD .terminated = .running ↔
      s.status id' = .running := by
  unfold status
  rw [OrdHash.lookup_set]
  split
  · rename_i he
    subst he
    rw [AList.lookup_eq_none.2 h]
    simp
  · rfl

/-- Instances that run keep running: EC2 only adds instances, tags them and boots them. -/
theorem status_running {s s' : Cloud} {a : Act} (h : s.step a = some s') {id : String} (hr : s.status id = .running) :
    s'.status id = .running := by
  have hup : ∀ (k : String) (f : Instance → Instance), (∀ i, i.status = .running → (f i).status = .running) →
      ((OrdHash.update k f s.instances).lookup id |>.map Instance.status).getD .terminated = .running := by
    intro k f hf
    rw [OrdHash.lookup_update]
    unfold status at hr
    split
    · rename_i he
      rw [← he]
      cases hi : s.instances.lookup id with
      | none => rw [hi] at hr; cases hr
      | some i => rw [hi] at hr; exact hf i hr
    · exact hr
  cases a <;> simp only [step] at h
  case list => split at h <;> cases h; exact hr
  case status => split at h <;> cases h; exact hr
  case poll => split at h <;> cases h; exact hr
  case fail => split at h <;> cases h <;> exact hr
  case create c k =>
    split at h
    · split at h
      · cases h
      · rename_i hk
        cases h
        have hne : id ≠ k := by
          rintro rfl
          unfold status at hr; rw [AList.lookup_eq_none.2 hk] at hr; cases hr
        show (((OrdHash.set k _ s.instances).lookup id).map Instance.status).getD .terminated = .running
        rw [OrdHash.lookup_set, if_neg hne]; exact hr
    · cases h
  case tag => split at h <;> cases h; exact hup _ _ fun i hi => hi
  case boot =>
    split at h
    · cases h; exact hup _ _ fun i _ => rfl
    · cases h

/-- Who may launch after a step, and whether it launched. -/
structure Stepped (s : Cloud) (a : Act) (s' : Cloud) : Prop where
  mayLaunch : ∀ d, s'.MayLaunch d → s.MayLaunch d ∨ (a = .list d ∧ ∀ id ∈ s.vms, s.status id ≠ .running)
  created : s'.created = s.created ∨ ∃ c, s.MayLaunch c ∧ ¬ s'.MayLaunch c ∧ s'.created = s.created + 1

/-- A call that goes on to something other than asking for a status. -/
theorem stepped_of_calls {s s' : Cloud} {a : Act} (c : Nat) (hstep : s.step a = some s')
    (hc : ∀ d, d ≠ c → s'.calls d = s.calls d)
    (hno : ∀ ids, s'.calls c ≠ .detecting ids)
    (hcr : s'.created = s.created ∨ (s.MayLaunch c ∧ s'.created = s.created + 1)) : Stepped s a s' := by
  refine ⟨fun d hd => ?_, hcr.imp id fun h => ⟨c, h.1, not_mayLaunch hno, h.2⟩⟩
  by_cases hdc : d = c
  · subst hdc; exact absurd hd (not_mayLaunch hno)
  · exact .inl (hd.mono (hc d hdc) fun _ => status_running hstep)

theorem stepped {s s' : Cloud} {a : Act} (hstep : s.step a = some s') : Stepped s a s' := by
  have h := hstep
  cases a <;> simp only [step] at h
  case list c =>
    split at h <;> cases h
    refine ⟨fun d hd => ?_, .inl rfl⟩
    by_cases hdc : d = c
    · subst hdc
      obtain ⟨ids, hids, hno⟩ := hd
      rw [setCall_self] at hids
      cases hids
      exact .inr ⟨rfl, hno⟩
    · exact .inl (hd.mono (setCall_ne hdc _ _) fun _ h => h)
  case status c =>
    split at h <;> cases h
    rename_i id ids hc
    refine ⟨fun d hd => .inl ?_, .inl rfl⟩
    by_cases hdc : d = c
    · subst hdc
      obtain ⟨ids', hids, hno⟩ := hd
      rw [setCall_self] at hids
      split at hids
      · cases hids
      · rename_i hr
        cases hids
        refine ⟨id :: ids, hc, fun k hk => ?_⟩
        rcases List.mem_cons.1 hk with rfl | hk
        · exact hr
        · exact hno k hk
    · exact hd.mono (setCall_ne hdc _ _) fun _ h => h
  case create c k =>
    split at h
    · rename_i hc
      split at h
      · cases h
      · cases h
        refine stepped_of_calls c hstep (fun d hd => setCall_ne hd _ _) (fun ids => ?_) (.inr ⟨⟨[], hc, by simp⟩, rfl⟩)
        simp
    · cases h
  case tag c =>
    split at h <;> cases h
    refine stepped_of_calls c hstep (fun d hd => setCall_ne hd _ _) (fun ids => ?_) (.inl rfl)
    simp
  case poll c =>
    split at h <;> cases h
    refine stepped_of_calls c hstep (fun d hd => setCall_ne hd _ _) (fun ids => ?_) (.inl rfl)
    rw [setCall_self]
    split <;> simp
  case fail c =>
    split at h <;> cases h
    all_goals
      refine stepped_of_calls c hstep (fun d hd => setCall_ne hd _ _) (fun ids => ?_) (.inl rfl)
      rw [setCall_self]; exact nofun
  case boot k =>
    split at h
    · cases h
      exact ⟨fun d hd => .inl (hd.mono rfl fun _ => status_running hstep), .inl rfl⟩
    · cases h

/-! ## At most one launch -/

/-- At most one instance is created or about to be. -/
structure Settled (s : Cloud) : Prop where
  unique : ∀ c d, s.MayLaunch c → s.MayLaunch d → c = d
  created : s.created = 0 ∨ (s.created = 1 ∧ ∀ c, ¬ s.MayLaunch c)

theorem init_settled (instances : OrdHash String Instance) : Settled (init instances) :=
  ⟨fun _ _ h => absurd h (not_mayLaunch nofun), .inl rfl⟩

theorem Settled.step {s s' : Cloud} {a : Act} (h : Settled s) (hc : ListsSettled s a) (hstep : s.step a = some s') :
    Settled s' := by
  have hst := stepped hstep
  -- whoever lists in vain is alone
  have hlist : ∀ d, a = .list d → (∀ id ∈ s.vms, s.status id ≠ .running) → s.created = 0 ∧ ∀ c, ¬ s.MayLaunch c := by
    rintro d rfl hno
    rcases hc with ⟨id, hm, hr⟩ | hc
    · exact absurd hr (hno id hm)
    · exact hc
  constructor
  · intro c d hc' hd'
    rcases hst.mayLaunch c hc' with hc1 | ⟨rfl, hno⟩ <;> rcases hst.mayLaunch d hd' with hd1 | ⟨hd1, hno'⟩
    · exact h.unique c d hc1 hd1
    · exact absurd hc1 ((hlist d hd1 hno').2 c)
    · exact absurd hd1 ((hlist c rfl hno).2 d)
    · cases hd1; rfl
  · rcases hst.created with he | ⟨c, hm, hno, he⟩
    · rcases h.created with h0 | ⟨h1, hnone⟩
      · exact .inl (he.trans h0)
      · refine .inr ⟨he.trans h1, fun d hd => ?_⟩
        rcases hst.mayLaunch d hd with hd | ⟨hd, hv⟩
        · exact hnone d hd
        · have := (hlist d hd hv).1
          omega
    · -- the one call that could launch has done it
      rcases h.created with h0 | ⟨-, hnone⟩
      · refine .inr ⟨by omega, fun d hd => ?_⟩
        rcases hst.mayLaunch d hd with hd' | ⟨hd', hv⟩
        · rw [h.unique d c hd' hm] at hd
          exact hno hd
        · exact (hlist d hd' hv).2 c hm
      · exact absurd hm (hnone c)

/-! ## A call on its own -/

/-- An instance as `detect` finds it. -/
def vm (s : Cloud) (id : String) : Vm := { id, status := .ok (s.status id) }

/-- From `s` to `s'` only the call `c` has moved. -/
structure Moved (c : Nat) (s s' : Cloud) : Prop where
  status : ∀ id, s'.status id = .running ↔ s.status id = .running
  calls : ∀ d, d ≠ c → s'.calls d = s.calls d

theorem Moved.mayLaunch {c d : Nat} {s s' : Cloud} (h : Moved c s s') (hd : d ≠ c) (hm : s.MayLaunch d) :
    s'.MayLaunch d := by
  obtain ⟨ids, hc, hids⟩ := hm
  exact ⟨ids, (h.calls d hd).trans hc, fun id hi hr => hids id hi ((h.status id).1 hr)⟩

/-- A call that is left alone picks the instance that `detect` finds. -/
theorem exec_detect {c : Nat} : ∀ (ids : List String) {s : Cloud}, s.calls c = .detecting ids →
    ∃ as s', Machine.exec step s as = some s' ∧ Moved c s s' ∧ s'.instances = s.instances ∧ s'.created = s.created ∧
      s'.calls c = match detectRunning (ids.map s.vm) with
        | .ok (some vm) => .picked vm.id
        | _ => .detecting []
  | [], s, hc => ⟨[], s, rfl, ⟨fun _ => Iff.rfl, fun _ _ => rfl⟩, rfl, rfl, hc⟩
  | id :: ids, s, hc => by
    have hstep : s.step (.status c) =
        some (s.setCall c (if s.status id = .running then .picked id else .detecting ids)) := by
      simp only [step, hc]
    by_cases hr : s.status id = .running
    · refine ⟨[.status c], _, Machine.exec_singleton.2 hstep, ⟨fun _ => Iff.rfl, fun d hd => setCall_ne hd _ _⟩,
        rfl, rfl, ?_⟩
      simp [vm, detectRunning, hr]
    · rw [if_neg hr] at hstep
      obtain ⟨as, s', hrun, hm, hi, hcr, hcall⟩ := exec_detect ids (setCall_self c (.detecting ids) s)
      refine ⟨.status c :: as, s', Machine.exec_cons.2 ⟨_, hstep, hrun⟩,
        ⟨hm.status, fun d hd => (hm.calls d hd).trans (setCall_ne hd _ _)⟩, hi, hcr, hcall.trans ?_⟩
      have hd : detectRunning ((id :: ids).map s.vm) = detectRunning (ids.map s.vm) := by
        rw [List.map_cons, detectRunning]
        cases hv : s.status id <;> simp_all [vm]
      rw [hd]
      rfl

theorem detectRunning_none {s : Cloud} : ∀ {ids : List String}, (∀ id ∈ ids, s.status id ≠ .running) →
    detectRunning (ids.map s.vm) = .ok none
  | [], _ => rfl
  | id :: ids, h => by
    have hid := h id (List.mem_cons_self ..)
    have ih := detectRunning_none fun k hk => h k (List.mem_cons_of_mem id hk)
    rw [List.map_cons, detectRunning]
    cases hv : s.status id <;> simp_all [vm]

/-- A call that may launch does so when it is left alone. -/
theorem exec_launch {c : Nat} {s : Cloud} (h : s.MayLaunch c) : ∃ as s', Machine.exec step s as = some s' ∧
    Moved c s s' ∧ s'.created = s.created + 1 := by
  obtain ⟨ids, hc, hids⟩ := h
  obtain ⟨as, s1, hrun, hm, hi, hcr, hcall⟩ := exec_detect ids hc
  rw [detectRunning_none hids] at hcall
  obtain ⟨id, hid⟩ := Infinite.exists_notMem_finset s1.instances.keys.toFinset
  have hid : id ∉ s1.instances := fun hmem => hid (List.mem_toFinset.2 (AList.mem_keys.1 hmem))
  have hstep : s1.step (.create c id) = some { s1.setCall c (.created id) with
      instances := OrdHash.set id ⟨false, .pending⟩ s1.instances, created := s1.created + 1 } := by
    simp only [step, hcall]
    rw [if_neg hid]
  refine ⟨as ++ [.create c id], { s1.setCall c (.created id) with
      instances := OrdHash.set id ⟨false, .pending⟩ s1.instances, created := s1.created + 1 },
    Machine.exec_append.2 ⟨s1, hrun, Machine.exec_singleton.2 hstep⟩,
    ⟨fun k => ?_, fun d hd => (setCall_ne hd _ _).trans (hm.calls d hd)⟩, congrArg (· + 1) hcr⟩
  exact (status_create s1 hid).trans (hm.status k)

/-- A run in which every call that lists the instances meets the condition creates at most one; after
a listing that does not, two can be created. -/
theorem launches_once {instances : OrdHash String Instance} {as : List Act} {s : Cloud}
    (h : Machine.exec step (init instances) as = some s) :
    (Machine.Meets step ListsSettled (init instances) as → s.created ≤ 1) ∧
    ∀ a s', s.step a = some s' → ¬ ListsSettled s a →
      ∃ bs s'', Machine.exec step s' bs = some s'' ∧ 1 < s''.created := by
  constructor
  · intro hm
    have hs := Machine.exec_inv_meets (fun s a s' => Settled.step) (init_settled instances) hm h
    rcases hs.created with h0 | ⟨h1, -⟩ <;> omega
  · intro a s' hstep hno
    cases a with
    | list c =>
      have hno : (∀ id ∈ s.vms, s.status id ≠ .running) ∧ (s.created = 0 → ∃ d, s.MayLaunch d) := by
        constructor
        · exact fun id hid hr => hno (.inl ⟨id, hid, hr⟩)
        · intro h0
          by_contra hall
          exact hno (.inr ⟨h0, fun d hd => hall ⟨d, hd⟩⟩)
      have hidle : s.calls c = .idle ∧ s' = s.setCall c (.detecting s.vms) := by
        simp only [step] at hstep
        split at hstep <;> cases hstep
        exact ⟨‹_›, rfl⟩
      obtain ⟨hidle, rfl⟩ := hidle
      have hmay : (s.setCall c (.detecting s.vms)).MayLaunch c := ⟨s.vms, setCall_self .., hno.1⟩
      obtain ⟨bs, s1, hrun, hm, hcr⟩ := exec_launch hmay
      rcases Nat.eq_zero_or_pos s.created with h0 | hpos
      · -- the other call has read the instances, too
        obtain ⟨d, hd⟩ := hno.2 h0
        have hdc : d ≠ c := by
          rintro rfl
          exact not_mayLaunch (by rw [hidle]; exact nofun) hd
        have hd' : (s.setCall c (.detecting s.vms)).MayLaunch d := by
          obtain ⟨ids, hc, hids⟩ := hd
          exact ⟨ids, (setCall_ne hdc _ _).trans hc, hids⟩
        obtain ⟨bs', s2, hrun', -, hcr'⟩ := exec_launch (hm.mayLaunch hdc hd')
        exact ⟨bs ++ bs', s2, Machine.exec_append.2 ⟨s1, hrun, hrun'⟩, by omega⟩
      · have hcr : s1.created = s.created + 1 := hcr
        exact ⟨bs, s1, hrun, by omega⟩
    | status | create | tag | poll | fail | boot => exact absurd trivial hno

/-- The second call lists the instances when the first one's is running. -/
theorem launches_once_sequential :
    ∃ s, Machine.exec step (init ∅)
      [.list 0, .create 0 "i-1", .tag 0, .boot "i-1", .poll 0, .list 1, .status 1] = some s ∧
      s.created ≤ 1 := by
  refine ⟨_, rfl, (@launches_once ∅
    [.list 0, .create 0 "i-1", .tag 0, .boot "i-1", .poll 0, .list 1, .status 1] _ rfl).1 ?_⟩
  refine .cons rfl (.inr ⟨rfl, fun d => not_mayLaunch nofun⟩) ?_
  refine .cons rfl trivial (.cons rfl trivial (.cons rfl trivial (.cons rfl trivial ?_)))
  exact .cons rfl (.inl ⟨"i-1", by decide, by decide⟩) (.cons rfl trivial trivial)

/-- Two calls that list the instances before either has created one. -/
theorem launched_twice :
    ∃ s, Machine.exec step (init ∅) [.list 0, .list 1, .create 0 "i-1", .create 1 "i-2"] = some s ∧ ¬ s.created ≤ 1 :=
  ⟨_, rfl, by decide⟩

end Cloud

end Tangle.SSH.Remote
