/-
Something shown that is kept up to date piece by piece. What is shown agrees with what it is computed from
but for a set of pieces that are dirty: a change makes pieces dirty, and drawing them again makes them
clean.
-/
import Mathlib.Data.Set.Basic

namespace Dirty

variable {ι β : Type*} {dirty dirty' drawn : Set ι} {shown shown' actual actual' : ι → β}

/-- What is shown is right outside of the dirty pieces. -/
def Fresh (dirty : Set ι) (shown actual : ι → β) : Prop := ∀ i, i ∉ dirty → shown i = actual i

/-- Every piece that changes is dirty then. -/
theorem Fresh.change (h : Fresh dirty shown actual) (hsub : dirty ⊆ dirty')
    (hsame : ∀ i, i ∉ dirty' → actual' i = actual i) : Fresh dirty' shown actual' :=
  fun i hi => (h i fun hd => hi (hsub hd)).trans (hsame i hi).symm

theorem Fresh.mono (h : Fresh dirty shown actual) (hsub : dirty ⊆ dirty') : Fresh dirty' shown actual :=
  h.change hsub fun _ _ => rfl

/-- Some pieces are drawn from what they are to show, and others stay. -/
theorem Fresh.redraw (h : Fresh dirty shown actual) (hin : ∀ i, i ∈ drawn → shown' i = actual' i)
    (hout : ∀ i, i ∉ drawn → shown' i = shown i) (hsame : ∀ i, i ∉ drawn → i ∉ dirty → actual' i = actual i) :
    Fresh (dirty \ drawn) shown' actual' := by
  intro i hi
  by_cases hd : i ∈ drawn
  · exact hin i hd
  · have hi' : i ∉ dirty := fun h => hi ⟨h, hd⟩
    rw [hout i hd, h i hi', hsame i hd hi']

end Dirty
