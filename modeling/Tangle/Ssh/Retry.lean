/-
The ensure phase of `SSH::Remote`. `open_vm` passes the start of the user's session to
`ensure_unix_user_exists_on` as a block; a failed `ubuntu` connection is retried as long as retries
are left, but the retried call is made without the block. So a first attempt that succeeds starts the
session, a later one closes the terminal.
-/
import Tangle.Tty.Create

namespace Tangle

open SSH (Tty Phase Event Effect)
open TTY (Ref)

namespace SSH

/-- An `ubuntu` connection is pending. -/
def Phase.isEnsuring : Phase → Bool
  | .ensuring _ => true
  | _ => false

namespace Remote

/-- A terminal in its ensure phase: the `ubuntu` connections started, the calls of
`start_user_session_on` and the calls of `close` so far. -/
structure Ensuring where
  tty : Tty
  attempts : Nat
  sessions : Nat
  closes : Nat

namespace Ensuring

/-- What `open_vm` leaves of a terminal: its first connection is pending. -/
def start (t : Tty) : Ensuring :=
  { tty := { t with phase := .ensuring true }, attempts := 1, sessions := 0, closes := 0 }

def event (now : Nat) (e : Ensuring) (ev : Event) : Ensuring :=
  match e.tty.handle now ev with
  | none => e
  | some (t, eff) =>
    { tty := t
      attempts := e.attempts + if t.phase.isEnsuring then 1 else 0
      sessions := e.sessions + if t.phase = .connecting then 1 else 0
      closes := e.closes + if eff = .close then 1 else 0 }

/-- The outcome of a connection, with the script that runs on it when it succeeds. -/
def events : Bool → List Event
  | true => [.callback, .provisioned none]
  | false => [.errback none]

/-- One outcome; there is none to come where no connection is pending. -/
def attempt (now : Nat) (e : Ensuring) (ok : Bool) : Ensuring :=
  if e.tty.phase.isEnsuring then (events ok).foldl (event now) e else e

def run (now : Nat) (e : Ensuring) (outcomes : List Bool) : Ensuring := outcomes.foldl (attempt now) e

/-- A terminal that waits for its `attempts`th connection, with `retries` left. -/
def pending (t : Tty) (block : Bool) (retries attempts : Nat) : Ensuring :=
  { tty := { t with retries, phase := .ensuring block }, attempts, sessions := 0, closes := 0 }

variable {now : Nat} {t : Tty} {block : Bool} {n a : Nat}

theorem start_eq (t : Tty) : start t = pending t true t.retries 1 := rfl

/-- A retry goes without the block. -/
theorem attempt_retry : attempt now (pending t block (n + 1) a) false = pending t false n (a + 1) := by
  simp [attempt, pending, Phase.isEnsuring, events, event, Tty.handle, started]

/-- The outcomes the ensure phase can end with. -/
structure Ends (e : Ensuring) (attempts sessions closes : Nat) : Prop where
  phase : e.tty.phase.isEnsuring = false
  attempts : e.attempts = attempts
  sessions : e.sessions = sessions
  closes : e.closes = closes

theorem attempt_exhausted : Ends (attempt now (pending t block 0 a) false) a 0 1 := by
  constructor <;> simp [attempt, pending, Phase.isEnsuring, events, event, Tty.handle]

theorem attempt_block : Ends (attempt now (pending t true n a) true) a 1 0 := by
  constructor <;> simp [attempt, pending, Phase.isEnsuring, events, event, Tty.handle, started]

theorem attempt_noBlock : Ends (attempt now (pending t false n a) true) a 0 1 := by
  constructor <;> simp [attempt, pending, Phase.isEnsuring, events, event, Tty.handle]

/-- Nothing more happens once the phase has ended. -/
theorem Ends.run {e : Ensuring} {k s c : Nat} (h : Ends e k s c) : ∀ os : List Bool, Ends (e.run now os) k s c
  | [] => h
  | o :: os => by
    have : attempt now e o = e := by unfold attempt; rw [h.phase]; rfl
    show Ends ((attempt now e o).run now os) k s c
    rw [this]
    exact h.run os

/-- Failed connections, as long as retries are left. -/
theorem run_failures : ∀ (j : Nat) (block : Bool) (n a : Nat) (os : List Bool), j ≤ n →
    (pending t block n a).run now (List.replicate j false ++ os) =
      (pending t (block && decide (j = 0)) (n - j) (a + j)).run now os
  | 0, block, n, a, os, _ => by simp
  | j + 1, block, n + 1, a, os, hj => by
    show (attempt now (pending t block (n + 1) a) false).run now (List.replicate j false ++ os) = _
    rw [attempt_retry, run_failures j false n (a + 1) os (by omega)]
    simp [Nat.add_comm, Nat.add_left_comm]

end Ensuring

open Ensuring

/-- The first success among the first `retries + 1` attempts starts the session; if there is none the
terminal is closed once. -/
structure RetryLaw (now : Nat) (t : Tty) (outcomes : List Bool) : Prop where
  success : ∀ j rest, j ≤ t.retries → outcomes = List.replicate j false ++ true :: rest →
    Ends ((start t).run now outcomes) (j + 1) 1 0
  failure : ∀ rest, outcomes = List.replicate (t.retries + 1) false ++ rest →
    Ends ((start t).run now outcomes) (t.retries + 1) 0 1

/-- Either the first attempt succeeds or none of the first `retries + 1` does. -/
def NoLateSuccess (retries : Nat) (outcomes : List Bool) : Prop :=
  outcomes.head? = some true ∨ true ∉ outcomes.take (retries + 1)

theorem first_success : ∀ {n : Nat} {os : List Bool}, true ∈ os.take n →
    ∃ j rest, j < n ∧ os = List.replicate j false ++ true :: rest
  | 0, os, h => by simp at h
  | n + 1, [], h => by simp at h
  | n + 1, true :: os, _ => ⟨0, os, by omega, rfl⟩
  | n + 1, false :: os, h => by
    obtain ⟨j, rest, hj, rfl⟩ := first_success (n := n) (by simpa using h)
    exact ⟨j + 1, rest, by omega, rfl⟩

/-- A success after `j` failures. -/
theorem run_success {now : Nat} {t : Tty} {j : Nat} (hj : j ≤ t.retries) (rest : List Bool) :
    Ends ((start t).run now (List.replicate j false ++ true :: rest)) (j + 1) (if j = 0 then 1 else 0)
      (if j = 0 then 0 else 1) := by
  rw [start_eq, run_failures j true t.retries 1 _ hj]
  show Ends ((attempt now _ true).run now rest) _ _ _
  cases j with
  | zero => exact attempt_block.run rest
  | succ j =>
    rw [Nat.add_comm 1]
    exact attempt_noBlock.run rest

theorem run_failure {now : Nat} {t : Tty} (rest : List Bool) :
    Ends ((start t).run now (List.replicate (t.retries + 1) false ++ rest)) (t.retries + 1) 0 1 := by
  rw [List.replicate_succ', List.append_assoc, start_eq, run_failures _ true t.retries 1 _ (Nat.le_refl _),
    Nat.sub_self,
    Nat.add_comm 1]
  exact attempt_exhausted.run rest

/-- The retry loop does what it is for exactly on the outcomes without a late success. -/
theorem retryLaw_iff (now : Nat) (t : Tty) (outcomes : List Bool) :
    RetryLaw now t outcomes ↔ NoLateSuccess t.retries outcomes := by
  constructor
  · intro h
    by_cases hm : true ∈ outcomes.take (t.retries + 1)
    · obtain ⟨j, rest, hj, rfl⟩ := first_success hm
      -- a session was started only if nothing had failed before
      have h1 := (h.success j rest (by omega) rfl).sessions
      rw [(run_success (by omega) rest).sessions] at h1
      cases j with
      | zero => exact .inl rfl
      | succ j => simp at h1
    · exact .inr hm
  · intro h
    constructor
    · rintro j rest hj rfl
      have hrun := @run_success now t j hj rest
      rcases h with h | h
      · cases j with
        | zero => exact hrun
        | succ j => simp [List.replicate_succ] at h
      · refine absurd ?_ h
        rw [List.mem_take_iff_getElem]
        exact ⟨j, by simp; omega, by simp⟩
    · rintro rest rfl
      exact run_failure rest

/-- With two retries, a success after one failure closes the terminal. -/
theorem late_success_closes : ¬ RetryLaw 0 { Tty.new "1" 0 with retries := 2 } [false, true] := by
  intro h
  have h1 := (h.success 1 [] (by decide) rfl).sessions
  exact absurd h1 (by decide)

/-- `open_vm` leaves the terminal at the start of its ensure phase, with the retries it had. -/
theorem openVm_start {s s' : Reactor} {tty : Ref} {out : Outside} {vm : Vm} {t : Tty}
    (ht : s.ttys.lookup tty.objectId = some t) (h : (openVm tty out vm).run s = .ok () s') :
    s'.ttys.lookup tty.objectId = some (start t).tty := by
  unfold openVm at h
  cases hs : out.start with
  | some e => rw [hs] at h; cases h
  | none =>
    rw [hs] at h
    cases h
    rw [Reactor.lookup_modifyTty, if_pos rfl, ht]
    rfl

end Remote

end SSH

end Tangle
