/-
Programs with a state that may raise, where it matters both when they do and what they leave behind then.
`Needs` says under which condition exactly a program returns, and with what; the rules follow the program.
`Keeps` is about a property that holds on whichever of the two ways the program is left.
-/
import Mathlib.Logic.Basic

namespace Demands

variable {ε σ α β : Type} {m : EStateM ε σ α} {f : α → EStateM ε σ β} {s t u : σ} {a : α} {b : β} {P Q : Prop}

theorem bind_ok : (m >>= f).run s = .ok b u ↔ ∃ a t, m.run s = .ok a t ∧ (f a).run t = .ok b u := by
  rw [EStateM.run_bind]
  cases m.run s with
  | ok a t =>
    constructor
    · exact fun h => ⟨a, t, rfl, h⟩
    · rintro ⟨_, _, ha, h⟩
      cases ha
      exact h
  | error e t =>
    constructor
    · exact fun h => (nomatch h)
    · rintro ⟨_, _, ha, -⟩
      cases ha

@[simp] theorem pure_ok {a' : α} : (Pure.pure a : EStateM ε σ α).run s = .ok a' t ↔ a = a' ∧ s = t := by
  show EStateM.Result.ok a s = .ok a' t ↔ _
  rw [EStateM.Result.ok.injEq]

@[simp] theorem throw_ok (e : ε) : (throw e : EStateM ε σ α).run s = .ok a t ↔ False :=
  ⟨fun h => (nomatch h), False.elim⟩

theorem read_run (g : σ → EStateM ε σ β) : (get >>= g).run s = (g s).run s := rfl

/-! ## When a program returns -/

/-- From `s` the program returns `a` in `t` where `P` holds, and raises where it does not. -/
structure Needs (m : EStateM ε σ α) (s : σ) (P : Prop) (a : α) (t : σ) : Prop where
  returns : P → m.run s = .ok a t
  raises : ¬ P → ∃ e u, m.run s = .error e u

theorem Needs.of_run (h : m.run s = .ok a t) : Needs m s True a t := ⟨fun _ => h, fun hP => absurd trivial hP⟩

/-- The condition is about what the program does from this state. -/
theorem Needs.congr {m' : EStateM ε σ α} {s' : σ} (h : Needs m s P a t) (he : m'.run s' = m.run s) : Needs m' s' P a t :=
  ⟨fun hP => he.trans (h.returns hP), fun hP => he ▸ h.raises hP⟩

theorem Needs.iff (h : Needs m s P a t) (hPQ : P ↔ Q) : Needs m s Q a t :=
  ⟨fun hQ => h.returns (hPQ.2 hQ), fun hQ => h.raises fun hP => hQ (hPQ.1 hP)⟩

theorem Needs.bind (h : Needs m s P a t) (h' : P → Needs (f a) t Q b u) : Needs (m >>= f) s (P ∧ Q) b u := by
  constructor
  · rintro ⟨hP, hQ⟩
    rw [EStateM.run_bind, h.returns hP]
    exact (h' hP).returns hQ
  · intro hnot
    rw [EStateM.run_bind]
    by_cases hP : P
    · rw [h.returns hP]
      exact (h' hP).raises fun hQ => hnot ⟨hP, hQ⟩
    · obtain ⟨e, v, he⟩ := h.raises hP
      rw [he]
      exact ⟨e, v, rfl⟩

/-- What comes first returns. -/
theorem Needs.after (h : m.run s = .ok a t) (h' : Needs (f a) t Q b u) : Needs (m >>= f) s Q b u :=
  ((Needs.of_run h).bind fun _ => h').iff (and_iff_right trivial)

/-- What comes last returns. -/
theorem Needs.before (h : Needs m s P a t) (h' : (f a).run t = .ok b u) : Needs (m >>= f) s P b u :=
  (h.bind fun _ => .of_run h').iff (and_iff_left trivial)

/-- Where it returns, it returns so. -/
theorem Needs.of_returns (h : Needs m s P a t) {a' : α} {t' : σ} (hr : m.run s = .ok a' t') : P ∧ a' = a ∧ t' = t := by
  by_cases hP : P
  · rw [h.returns hP] at hr
    cases hr
    exact ⟨hP, rfl, rfl⟩
  · obtain ⟨e, v, he⟩ := h.raises hP
    rw [hr] at he
    cases he

/-! ## What is kept -/

/-- The state that a program leaves, whether it returns or raises. -/
def left : EStateM.Result ε σ α → σ
  | .ok _ s | .error _ s => s

def Keeps (I : σ → Prop) (m : EStateM ε σ α) : Prop := ∀ s, I s → I (left (m.run s))

variable {I : σ → Prop}

theorem Keeps.pure (a : α) : Keeps (ε := ε) I (Pure.pure a) := fun _ h => h

theorem Keeps.throw (e : ε) : Keeps I (MonadExcept.throw e : EStateM ε σ α) := fun _ h => h

theorem Keeps.bind (h : Keeps I m) (h' : ∀ a, Keeps I (f a)) : Keeps I (m >>= f) := by
  intro s hs
  have hm := h s hs
  rw [EStateM.run_bind]
  cases hr : m.run s with
  | ok a t =>
    rw [hr] at hm
    exact h' a t hm
  | error e t =>
    rw [hr] at hm
    exact hm

theorem Keeps.ite {c : Prop} [Decidable c] {m' : EStateM ε σ α} (h : Keeps I m) (h' : Keeps I m') :
    Keeps I (if c then m else m') := by
  split
  · exact h
  · exact h'

/-- A program that reads the state first. -/
theorem Keeps.read {g : σ → EStateM ε σ β} (h : ∀ s, I s → I (left ((g s).run s))) : Keeps I (get >>= g) := h

end Demands
