/-
Sets under additions and deletions. What is in such a set after some edits is told by the edits
alone: the elements that were added and not deleted since.
-/
import Mathlib.Data.List.Basic
import Mathlib.Data.List.Induction
import Mathlib.Data.Set.Insert

/-- An edit of a set. -/
inductive Edit (α : Type*)
  | add (a : α)
  | delete (a : α)
  deriving DecidableEq, Repr

namespace Edit

variable {α : Type*}

/-- What an edit makes of a set. -/
def apply (s : Set α) : Edit α → Set α
  | .add a => insert a s
  | .delete a => s \ {a}

/-- The set after the edits, from the empty one. -/
def final (es : List (Edit α)) : Set α := es.foldl apply ∅

/-- Added, and not deleted since. -/
def Stays (es : List (Edit α)) (a : α) : Prop := ∃ as bs, es = as ++ .add a :: bs ∧ .delete a ∉ bs

theorem not_stays_nil (a : α) : ¬ Stays [] a := by
  rintro ⟨as, bs, h, -⟩
  simp at h

theorem stays_concat {es : List (Edit α)} {e : Edit α} {a : α} :
    Stays (es ++ [e]) a ↔ e = .add a ∨ (e ≠ .delete a ∧ Stays es a) := by
  constructor
  · rintro ⟨as, bs, h, hbs⟩
    obtain rfl | ⟨bs, b, rfl⟩ := List.eq_nil_or_concat' bs
    · left
      exact (List.concat_inj.1 (by simpa using h)).2
    · right
      rw [← List.cons_append, ← List.append_assoc] at h
      obtain ⟨rfl, he⟩ := List.append_inj' h rfl
      cases he
      rw [List.mem_append, not_or] at hbs
      exact ⟨fun he => hbs.2 (by simp [he]), as, bs, rfl, hbs.1⟩
  · rintro (rfl | ⟨he, as, bs, rfl, hbs⟩)
    · exact ⟨es, [], rfl, List.not_mem_nil⟩
    · refine ⟨as, bs ++ [e], by simp, ?_⟩
      simpa [hbs] using he.symm

theorem mem_final {es : List (Edit α)} {a : α} : a ∈ final es ↔ Stays es a := by
  induction es using List.reverseRecOn with
  | nil => simpa [final] using not_stays_nil a
  | append_singleton es e ih =>
    have hstep : final (es ++ [e]) = apply (final es) e := List.foldl_append ..
    rw [stays_concat, ← ih, hstep]
    cases e with
    | add b =>
      simp only [apply, Set.mem_insert_iff, Edit.add.injEq, ne_eq, reduceCtorEq, not_false_eq_true, true_and]
      rw [eq_comm]
    | delete b =>
      simp only [apply, Set.mem_sdiff, Set.mem_singleton_iff, reduceCtorEq, false_or, ne_eq, Edit.delete.injEq]
      rw [and_comm, eq_comm (a := b)]

end Edit
