/-
Directories: a table to look names up in, beside things of which each has a name or none. The table is
exact when a name leads to the thing that has it, and no other name leads anywhere. A thing that is entered
under a name keeps it so unless it has another name already; things are removed with their names.
-/
import Mathlib.Data.List.Basic

namespace Directory

variable {κ ν : Type*}

/-- The table finds a thing under the name it has, and nothing else. -/
def Exact (find : κ → Option ν) (name : ν → Option κ) : Prop := ∀ k v, find k = some v ↔ name v = some k

variable {find find' : κ → Option ν} {name name' : ν → Option κ}

theorem Exact.unique (h : Exact find name) {k : κ} {u v : ν} (hu : name u = some k) (hv : name v = some k) : u = v :=
  Option.some_inj.1 (((h k u).2 hu).symm.trans ((h k v).2 hv))

/-- Entering something under a name that nothing else has. -/
theorem exact_enter [DecidableEq κ] [DecidableEq ν] (h : Exact find name) {k : κ} {v : ν}
    (hfree : ∀ u ≠ v, name u ≠ some k) (hfind : ∀ j, find' j = if j = k then some v else find j)
    (hname : ∀ u, name' u = if u = v then some k else name u) :
    Exact find' name' ↔ name v = none ∨ name v = some k := by
  constructor
  · intro h'
    cases hv : name v with
    | none => exact .inl rfl
    | some j =>
      right
      by_contra hjk
      -- the old name still leads to it
      have hold : find' j = some v := by
        rw [hfind, if_neg fun he => hjk (congrArg some he)]
        exact (h j v).2 hv
      have hnew := (h' j v).1 hold
      rw [hname, if_pos rfl] at hnew
      exact hjk hnew.symm
  · intro hv j u
    rw [hfind, hname]
    by_cases hj : j = k
    · subst hj
      by_cases hu : u = v
      · simp [hu]
      · simpa [hu, Ne.symm hu] using hfree u hu
    · by_cases hu : u = v
      · subst hu
        rw [if_neg hj, if_pos rfl, h]
        rcases hv with hv | hv <;> simp [hv, Ne.symm hj]
      · rw [if_neg hj, if_neg hu, h]

/-- A thing that is entered without getting a name. -/
theorem not_exact_of_nameless {k : κ} {v : ν} (hfind : find k = some v) (hname : name v = none) :
    ¬ Exact find name := by
  intro h
  rw [h, hname] at hfind
  cases hfind

/-- Removing things and the names that are theirs. -/
theorem Exact.remove [DecidableEq κ] [DecidableEq ν] (h : Exact find name) {ks : List κ} {vs : List ν}
    (hks : ∀ v k, name v = some k → (k ∈ ks ↔ v ∈ vs)) (hfind : ∀ k, find' k = if k ∈ ks then none else find k)
    (hname : ∀ v, name' v = if v ∈ vs then none else name v) : Exact find' name' := by
  intro k v
  rw [hfind, hname]
  constructor
  · intro hk
    split at hk
    · cases hk
    · rename_i hmem
      have hv := (h k v).1 hk
      rwa [if_neg fun hvs => hmem ((hks v k hv).2 hvs)]
  · intro hv
    split at hv
    · cases hv
    · rename_i hmem
      rw [if_neg fun hk => hmem ((hks v k hv).1 hk)]
      exact (h k v).2 hv

end Directory
