/-
What `pick_vm` hands out. Among the tagged instances it looks for one that is running; an instance that
it launches itself it takes as soon as its status is no longer pending, whatever it is then.
-/
import Tangle.Tty.Create

namespace Tangle.SSH.Remote

open TTY (Ref)

/-- The first instance that runs, when the ones before it have answered. -/
theorem detectRunning_some {vm : Vm} : ∀ {vms : List Vm}, detectRunning vms = .ok (some vm) →
    vm ∈ vms ∧ vm.status = .ok .running
  | [], h => by cases h
  | v :: vms, h => by
    unfold detectRunning at h
    split at h
    · cases h
    · rename_i hv
      cases h
      exact ⟨List.mem_cons_self .., hv⟩
    · obtain ⟨hm, hr⟩ := detectRunning_some h
      exact ⟨List.mem_cons_of_mem _ hm, hr⟩

theorem detectRunning_none_not {vm : Vm} : ∀ {vms : List Vm}, detectRunning vms = .ok none → vm ∈ vms →
    vm.status ≠ .ok .running
  | [], _, hm => by cases hm
  | v :: vms, h, hm => by
    unfold detectRunning at h
    split at h
    · cases h
    · cases h
    · rename_i hne hv
      rcases List.mem_cons.1 hm with rfl | hm
      · rw [hv]
        exact fun he => hne (by cases he; rfl)
      · exact detectRunning_none_not h hm

/-- Where every instance answers, the search ends. -/
theorem detectRunning_ok : ∀ {vms : List Vm}, (∀ vm ∈ vms, ∃ status, vm.status = .ok status) →
    ∃ found, detectRunning vms = .ok found
  | [], _ => ⟨none, rfl⟩
  | v :: vms, h => by
    obtain ⟨status, hv⟩ := h v (List.mem_cons_self ..)
    unfold detectRunning
    rw [hv]
    cases status with
    | running => exact ⟨_, rfl⟩
    | _ => exact detectRunning_ok fun vm hm => h vm (List.mem_cons_of_mem _ hm)

/-- The answers are those of an instance that is pending and then `status`. -/
def Leaves (answers : List (Except Exn VmStatus)) (status : VmStatus) : Prop :=
  status ≠ .pending ∧ ∃ n rest, answers = List.replicate n (.ok .pending) ++ .ok status :: rest

theorem waitWhilePending_ok_iff {status : VmStatus} : ∀ {answers : List (Except Exn VmStatus)},
    waitWhilePending answers = .ok status ↔ Leaves answers status
  | [] => by
    constructor
    · intro h
      cases h
    · rintro ⟨-, n, rest, h⟩
      simp at h
  | .error e :: answers => by
    constructor
    · intro h
      cases h
    · rintro ⟨-, n, rest, h⟩
      cases n <;> simp [List.replicate_succ] at h
  | .ok answer :: answers => by
    by_cases hp : answer = .pending
    · subst hp
      rw [waitWhilePending, waitWhilePending_ok_iff]
      constructor
      · rintro ⟨hne, n, rest, rfl⟩
        exact ⟨hne, n + 1, rest, rfl⟩
      · rintro ⟨hne, n, rest, h⟩
        cases n with
        | zero =>
          cases h
          exact absurd rfl hne
        | succ n =>
          cases h
          exact ⟨hne, n, rest, rfl⟩
    · have hw : waitWhilePending (.ok answer :: answers) = .ok answer := by
        cases answer <;> first | rfl | exact absurd rfl hp
      rw [hw]
      constructor
      · intro h
        cases h
        exact ⟨hp, 0, answers, rfl⟩
      · rintro ⟨hne, n, rest, h⟩
        cases n with
        | zero =>
          cases h
          rfl
        | succ n =>
          cases h
          exact absurd rfl hp

/-! ## The VM -/

/-- What `launch_vm` returns. -/
def Launches (out : Outside) (vm : Vm) : Prop :=
  ∃ id status, out.createVm = .ok id ∧ out.tagVm = none ∧ Leaves out.statuses status ∧ vm = ⟨id, .ok status⟩

theorem launchVm_returns_iff {tty : Ref} {out : Outside} {s : Reactor} {vm : Vm} :
    (∃ s', (launchVm tty out).run s = .ok vm s') ↔ Launches out vm := by
  unfold launchVm Launches
  cases hc : out.createVm with
  | error e =>
    constructor
    · rintro ⟨s', h⟩
      cases h
    · rintro ⟨id, status, h, -⟩
      cases h
  | ok id =>
    cases htag : out.tagVm with
    | some e =>
      constructor
      · rintro ⟨s', h⟩
        cases h
      · rintro ⟨_, _, -, h, -⟩
        cases h
    | none =>
      simp only [← waitWhilePending_ok_iff]
      cases hw : waitWhilePending out.statuses with
      | error stop =>
        constructor
        · rintro ⟨s', h⟩
          cases stop <;> cases h
        · rintro ⟨_, _, -, -, h, -⟩
          cases h
      | ok status =>
        constructor
        · rintro ⟨s', h⟩
          cases h
          exact ⟨id, status, rfl, trivial, rfl, rfl⟩
        · rintro ⟨_, _, hid, -, hstatus, rfl⟩
          cases hid
          cases hstatus
          exact ⟨_, rfl⟩

/-- What `pick_vm` returns. -/
theorem pickVm_returns_iff {tty : Ref} {out : Outside} {s : Reactor} {vm : Vm} :
    (∃ s', (pickVm tty out).run s = .ok vm s') ↔ ∃ vms, out.tagged = .ok vms ∧
      (detectRunning vms = .ok (some vm) ∨ detectRunning vms = .ok none ∧ Launches out vm) := by
  unfold pickVm
  cases htag : out.tagged with
  | error e =>
    constructor
    · rintro ⟨s', h⟩
      cases h
    · rintro ⟨vms, h, -⟩
      cases h
  | ok vms =>
    rw [TTY.bind_ok (TTY.run_orRaise (.ok vms) s)]
    simp only [Except.ok.injEq, exists_eq_left']
    cases hd : detectRunning vms with
    | error e =>
      constructor
      · rintro ⟨s', h⟩
        cases h
      · rintro (h | ⟨h, -⟩) <;> cases h
    | ok found =>
      rw [TTY.bind_ok (TTY.run_orRaise (.ok found) s)]
      cases found with
      | some v =>
        constructor
        · rintro ⟨s', h⟩
          cases h
          exact .inl rfl
        · rintro (h | ⟨h, -⟩)
          · cases h
            exact ⟨s, rfl⟩
          · cases h
      | none =>
        constructor
        · intro h
          exact .inr ⟨rfl, launchVm_returns_iff.1 h⟩
        · rintro (h | ⟨-, h⟩)
          · cases h
          · exact launchVm_returns_iff.2 h

/-- A tagged instance runs, or the new one leaves `pending` for `running`. -/
def Runs (out : Outside) : Prop :=
  (∃ vms, out.tagged = .ok vms ∧ ∃ vm ∈ vms, vm.status = .ok .running) ∨ Leaves out.statuses .running

/-- No request raises, and a new instance does not stay `pending`. -/
def Answers (out : Outside) : Prop :=
  (∃ vms, out.tagged = .ok vms ∧ ∀ vm ∈ vms, ∃ status, vm.status = .ok status) ∧
    (∃ id, out.createVm = .ok id) ∧ out.tagVm = none ∧ ∃ status, Leaves out.statuses status

/-- `pick_vm` returns when nothing raises and the new instance leaves `pending`, and the VM it returns was
last reported as running exactly if a tagged one runs or the new one left `pending` for that. -/
theorem picks_running_iff (tty : Ref) (out : Outside) (s : Reactor) :
    (∀ vm s', (pickVm tty out).run s = .ok vm s' → (vm.status = .ok .running ↔ Runs out)) ∧
    (Answers out → ∃ vm s', (pickVm tty out).run s = .ok vm s') := by
  refine ⟨fun vm s' hrun => ?_, ?_⟩
  · obtain ⟨vms, htag, hfound | ⟨hnone, id, status, -, -, hleaves, rfl⟩⟩ := pickVm_returns_iff.1 ⟨s', hrun⟩
    · obtain ⟨hm, hr⟩ := detectRunning_some hfound
      exact ⟨fun _ => .inl ⟨vms, htag, vm, hm, hr⟩, fun _ => hr⟩
    · constructor
      · intro h
        cases h
        exact .inr hleaves
      · rintro (⟨vms', htag', v, hm, hr⟩ | hrunning)
        · rw [htag] at htag'
          cases htag'
          exact absurd hr (detectRunning_none_not hnone hm)
        · -- the answers have one first status that is not `pending`
          rw [← waitWhilePending_ok_iff] at hleaves hrunning
          rw [hleaves] at hrunning
          cases hrunning
          rfl
  · rintro ⟨⟨vms, htag, hall⟩, ⟨id, hid⟩, hnone, status, hleaves⟩
    obtain ⟨found, hfound⟩ := detectRunning_ok hall
    cases found with
    | some vm => exact ⟨vm, pickVm_returns_iff.2 ⟨vms, htag, .inl hfound⟩⟩
    | none =>
      exact ⟨_, pickVm_returns_iff.2 ⟨vms, htag, .inr ⟨hfound, id, status, hid, hnone, hleaves, rfl⟩⟩⟩

/-- The new instance is terminated while it is waited for, and handed out. -/
theorem picks_terminated : ∃ vm s', (pickVm ⟨"1", 8⟩
      { objectId := 8, createVm := .ok "i-1", statuses := [.ok .pending, .ok .terminated] }).run
        (Reactor.init true) = .ok vm s' ∧ vm = ⟨"i-1", .ok .terminated⟩ ∧ vm.status ≠ .ok .running :=
  ⟨_, _, rfl, rfl, by decide⟩

end Tangle.SSH.Remote
