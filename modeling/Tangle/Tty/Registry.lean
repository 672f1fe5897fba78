/-
`TTY.terms`, the two-level registry of terminals: owner, then object id. A registry is well-formed
when every terminal is stored under its own owner and id and no owner is left with an empty bucket;
`<<` and `delete` keep it so, and on well-formed registries they are insertion into and removal from
a flat set of terminals.
-/
import Tangle.Lib.OrdHash
import Tangle.Faye.Json

namespace Tangle.TTY

/-- A terminal as the registry knows it: `tty.owner` and `tty.object_id`. -/
structure Ref where
  owner : String
  objectId : Int
  deriving DecidableEq, Repr

abbrev Bucket := OrdHash Int Ref

/-- `TTY.terms`. -/
abbrev Terms := OrdHash String Bucket

/-- The terminals of a bucket with `p`. -/
def Bucket.restrict (p : Ref → Bool) (b : Bucket) : Bucket :=
  OrdHash.filterMap (fun r => if p r then some r else none) b

/-- A bucket, unless it is empty. -/
def Bucket.nonempty? (b : Bucket) : Option Bucket := if b.entries.isEmpty then none else some b

theorem Bucket.restrict_restrict (p q : Ref → Bool) (b : Bucket) :
    (b.restrict p).restrict q = b.restrict fun r => p r && q r := by
  unfold restrict
  rw [OrdHash.filterMap_filterMap]
  refine OrdHash.filterMap_congr fun _ r _ => ?_
  by_cases hp : p r <;> simp [hp]

theorem Bucket.nonempty?_bind (b : Bucket) (p : Ref → Bool) :
    (b.nonempty?.bind fun b => (b.restrict p).nonempty?) = (b.restrict p).nonempty? := by
  cases he : b.entries with
  | nil =>
    obtain rfl : b = ∅ := AList.ext he
    rfl
  | cons e es => simp [nonempty?, he]

namespace Terms

/-- Every entry is under its own keys, and no bucket is empty. -/
structure WF (terms : Terms) : Prop where
  stored : ∀ o b k r, terms.lookup o = some b → b.lookup k = some r → r = ⟨o, k⟩
  nonempty : ∀ o b, terms.lookup o = some b → b.entries ≠ []

/-- `terms.has_key?(owner) ? terms[owner][id] : nil` for an integer id. -/
def get? (terms : Terms) (owner : String) (id : Int) : Option Ref :=
  (terms.lookup owner).bind fun b => b.lookup id

/-- `terms[tty.owner] ||= {}; terms[tty.owner][tty.object_id] = tty`. -/
def push (tty : Ref) (terms : Terms) : Terms :=
  OrdHash.set tty.owner (OrdHash.set tty.objectId tty ((terms.lookup tty.owner).getD ∅)) terms

/-- `terms[tty.owner].delete(tty.object_id)`, then the owner when nothing is left of it. -/
def delete (tty : Ref) (terms : Terms) : Terms :=
  match terms.lookup tty.owner with
  | none => terms
  | some b =>
    let b := b.erase tty.objectId
    -- an owner goes with its last terminal
    if b.entries.isEmpty then terms.erase tty.owner else OrdHash.set tty.owner b terms

theorem get?_push (tty : Ref) (terms : Terms) (o : String) (k : Int) :
    (push tty terms).get? o k = if o = tty.owner ∧ k = tty.objectId then some tty else terms.get? o k := by
  unfold push get?
  rw [OrdHash.lookup_set]
  by_cases ho : o = tty.owner
  · subst ho
    simp only [if_true, Option.bind_some, OrdHash.lookup_set, true_and]
    split
    · rfl
    · cases terms.lookup tty.owner <;> rfl
  · simp [ho]

theorem get?_delete (tty : Ref) (terms : Terms) (o : String) (k : Int) :
    (delete tty terms).get? o k = if o = tty.owner ∧ k = tty.objectId then none else terms.get? o k := by
  unfold delete get?
  cases hb : terms.lookup tty.owner with
  | none =>
    by_cases ho : o = tty.owner
    · subst ho; simp [hb]
    · simp [ho]
  | some b =>
    simp only
    split
    · rename_i he
      have he := OrdHash.entries_eq_nil.1 (List.isEmpty_iff.1 he)
      rw [OrdHash.lookup_erase]
      by_cases ho : o = tty.owner
      · subst ho
        have := he k
        rw [OrdHash.lookup_erase] at this
        simp only [if_true, Option.bind_none, true_and, hb, Option.bind_some]
        split
        · rfl
        · rename_i hk; rw [if_neg hk] at this; exact this.symm
      · simp [ho]
    · rw [OrdHash.lookup_set]
      by_cases ho : o = tty.owner
      · subst ho; simp [hb, OrdHash.lookup_erase]
      · simp [ho]

theorem wf_empty : WF (∅ : Terms) := ⟨by simp, by simp⟩

theorem WF.push {terms : Terms} (h : terms.WF) (tty : Ref) : (push tty terms).WF := by
  constructor
  · intro o b k r hb hk
    have hg : (Terms.push tty terms).get? o k = some r := by unfold get?; rw [hb]; exact hk
    rw [get?_push] at hg
    split at hg
    · rename_i hok; cases hg; obtain ⟨rfl, rfl⟩ := hok; rfl
    · unfold get? at hg
      obtain ⟨b', hb', hk'⟩ := Option.bind_eq_some_iff.1 hg
      exact h.stored o b' k r hb' hk'
  · intro o b hb
    unfold Terms.push at hb
    rw [OrdHash.lookup_set] at hb
    split at hb
    · cases hb; exact OrdHash.set_ne_nil _ _ _
    · exact h.nonempty o b hb

theorem WF.delete {terms : Terms} (h : terms.WF) (tty : Ref) : (delete tty terms).WF := by
  constructor
  · intro o b k r hb hk
    have hg : (Terms.delete tty terms).get? o k = some r := by unfold get?; rw [hb]; exact hk
    rw [get?_delete] at hg
    split at hg
    · cases hg
    · unfold get? at hg
      obtain ⟨b', hb', hk'⟩ := Option.bind_eq_some_iff.1 hg
      exact h.stored o b' k r hb' hk'
  · intro o b hb
    unfold Terms.delete at hb
    split at hb
    · exact h.nonempty o b hb
    · simp only at hb
      split at hb
      · rw [OrdHash.lookup_erase] at hb
        split at hb
        · cases hb
        · exact h.nonempty o b hb
      · rename_i hne
        rw [OrdHash.lookup_set] at hb
        split at hb
        · cases hb; simpa using hne
        · exact h.nonempty o b hb

/-! ## Restriction -/

/-- Keeps the terminals with `p`, and no empty bucket. -/
def restrict (p : Ref → Bool) (terms : Terms) : Terms :=
  OrdHash.filterMap (fun b : Bucket => (b.restrict p).nonempty?) terms

theorem restrict_restrict (p q : Ref → Bool) (terms : Terms) :
    (terms.restrict p).restrict q = terms.restrict fun r => p r && q r := by
  unfold restrict
  rw [OrdHash.filterMap_filterMap]
  refine OrdHash.filterMap_congr fun o b _ => ?_
  rw [Bucket.nonempty?_bind, Bucket.restrict_restrict]

theorem restrict_congr {p q : Ref → Bool} {terms : Terms} (h : terms.WF)
    (hpq : ∀ tty, terms.get? tty.owner tty.objectId = some tty → p tty = q tty) :
    terms.restrict p = terms.restrict q := by
  refine OrdHash.filterMap_congr fun o b hb => ?_
  have : b.restrict p = b.restrict q := by
    refine OrdHash.filterMap_congr fun k r hr => ?_
    rw [hpq r]
    cases h.stored o b k r hb hr
    unfold get?; rw [hb]; exact hr
  rw [this]

theorem restrict_true {terms : Terms} (h : terms.WF) : terms.restrict (fun _ => true) = terms := by
  refine Eq.trans (OrdHash.filterMap_congr fun o b hb => ?_) (OrdHash.filterMap_some terms)
  have hr : b.restrict (fun _ => true) = b := OrdHash.filterMap_some b
  rw [hr]
  exact if_neg (by simpa using h.nonempty o b hb)

theorem get?_restrict {p : Ref → Bool} {terms : Terms} {o : String} {k : Int} {r : Ref} :
    (terms.restrict p).get? o k = some r ↔ terms.get? o k = some r ∧ p r = true := by
  unfold get? restrict
  rw [OrdHash.lookup_filterMap]
  cases hb : terms.lookup o with
  | none => simp
  | some b =>
    have hk : (b.restrict p).lookup k = some r ↔ b.lookup k = some r ∧ p r = true := by
      unfold Bucket.restrict
      rw [OrdHash.lookup_filterMap, Option.bind_eq_some_iff]
      constructor
      · rintro ⟨r', hr', hp⟩
        split at hp
        · rename_i hpr; cases hp; exact ⟨hr', hpr⟩
        · cases hp
      · rintro ⟨hr, hp⟩
        exact ⟨r, hr, if_pos hp⟩
    rw [Option.bind_some, Option.bind_some, ← hk]
    unfold Bucket.nonempty?
    split
    · rename_i he
      rw [OrdHash.entries_eq_nil.1 (List.isEmpty_iff.1 he) k]
      rfl
    · rfl

/-- Deleting a terminal is restricting the registry to the others. -/
theorem delete_eq_restrict {terms : Terms} (h : terms.WF) (tty : Ref) :
    delete tty terms = terms.restrict fun r => decide (r ≠ tty) := by
  unfold delete
  cases hb : terms.lookup tty.owner with
  | none =>
    refine (restrict_true h).symm.trans (restrict_congr h fun r hr => ?_)
    symm
    rw [decide_eq_true_iff]
    rintro rfl
    unfold get? at hr; rw [hb] at hr; cases hr
  | some b =>
    have hr : ∀ o b' k r, terms.lookup o = some b' → b'.lookup k = some r →
        (r = tty ↔ o = tty.owner ∧ k = tty.objectId) := by
      intro o b' k r hb' hk
      cases h.stored o b' k r hb' hk
      cases tty
      simp
    -- the bucket of its owner loses the terminal, the other buckets lose nothing
    have herase : (b.erase tty.objectId : Bucket) = b.restrict fun r => decide (r ≠ tty) := by
      refine OrdHash.erase_eq_filterMap (fun r hk => ?_) fun k r hne hk => ?_
      · simp [(hr _ b _ r hb hk).2 ⟨rfl, rfl⟩]
      · have : r ≠ tty := fun he => hne ((hr _ b _ r hb hk).1 he).2
        simp [this]
    have hother : ∀ o b', o ≠ tty.owner → terms.lookup o = some b' →
        (b'.restrict fun r => decide (r ≠ tty)).nonempty? = some b' := by
      intro o b' hne hb'
      have : b'.restrict (fun r => decide (r ≠ tty)) = b' := by
        refine Eq.trans (OrdHash.filterMap_congr fun k r hk => ?_) (OrdHash.filterMap_some b')
        have : r ≠ tty := fun he => hne ((hr o b' k r hb' hk).1 he).1
        simp [this]
      rw [this]
      exact if_neg (by simpa using h.nonempty o b' hb')
    simp only [herase]
    split
    · rename_i he
      refine OrdHash.erase_eq_filterMap (fun b' hb' => ?_) hother
      rw [hb] at hb'; cases hb'
      exact if_pos he
    · rename_i he
      exact OrdHash.set_eq_filterMap hb (if_neg he) hother

end Terms

/-! ## Well-formed registries -/

/-- A well-formed `TTY.terms`. -/
structure Registry where
  terms : Terms
  wf : terms.WF

namespace Registry

def empty : Registry := ⟨∅, Terms.wf_empty⟩

/-- `TTY << tty`. -/
def push (tty : Ref) (reg : Registry) : Registry := ⟨reg.terms.push tty, reg.wf.push tty⟩

/-- `TTY.delete tty`. -/
def delete (tty : Ref) (reg : Registry) : Registry := ⟨reg.terms.delete tty, reg.wf.delete tty⟩

/-- `TTY[owner, id]`: the keys of a bucket are integers, so any other id finds nothing. -/
def get (reg : Registry) (owner : String) : Json → Option Ref
  | .int id => reg.terms.get? owner id
  | _ => none

/-- `TTY.count`. -/
def count (reg : Registry) : Nat := reg.terms.entries.length

/-- The terminal is registered. -/
instance : Membership Ref Registry := ⟨fun reg tty => reg.terms.get? tty.owner tty.objectId = some tty⟩

instance (tty : Ref) (reg : Registry) : Decidable (tty ∈ reg) :=
  inferInstanceAs (Decidable (reg.terms.get? tty.owner tty.objectId = some tty))

theorem mem_iff {tty : Ref} {reg : Registry} : tty ∈ reg ↔ reg.terms.get? tty.owner tty.objectId = some tty := Iff.rfl

/-- A lookup finds the terminal with that owner and id, or nothing. -/
theorem get_eq_some {reg : Registry} {o : String} {id : Json} {tty : Ref} :
    reg.get o id = some tty ↔ o = tty.owner ∧ id = .int tty.objectId ∧ tty ∈ reg := by
  constructor
  · intro h
    unfold get at h
    split at h
    · rename_i k
      have h' := h
      unfold Terms.get? at h'
      obtain ⟨b, hb, hk⟩ := Option.bind_eq_some_iff.1 h'
      cases reg.wf.stored o b k tty hb hk
      exact ⟨rfl, rfl, h⟩
    · cases h
  · rintro ⟨rfl, rfl, h⟩; exact h

@[simp] theorem not_mem_empty (tty : Ref) : tty ∉ empty := by
  intro h; simp [mem_iff, empty, Terms.get?] at h

theorem mem_push {tty tty' : Ref} {reg : Registry} : tty' ∈ reg.push tty ↔ tty' = tty ∨ tty' ∈ reg := by
  rw [mem_iff, mem_iff]
  simp only [push, Terms.get?_push]
  split
  · rename_i h
    have : tty' = tty := by cases tty; cases tty'; simp_all
    simp [this]
  · rename_i h
    have : tty' ≠ tty := by rintro rfl; exact h ⟨rfl, rfl⟩
    simp [this]

theorem mem_delete {tty tty' : Ref} {reg : Registry} : tty' ∈ reg.delete tty ↔ tty' ≠ tty ∧ tty' ∈ reg := by
  rw [mem_iff, mem_iff]
  simp only [delete, Terms.get?_delete]
  split
  · rename_i h
    have : tty' = tty := by cases tty; cases tty'; simp_all
    simp [this]
  · rename_i h
    have : tty' ≠ tty := by rintro rfl; exact h ⟨rfl, rfl⟩
    simp [this]

end Registry

end Tangle.TTY
