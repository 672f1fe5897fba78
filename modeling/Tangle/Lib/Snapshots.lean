/-
A shared value that several holders set to a mark: each keeps the value it finds as its snapshot and puts it
back when it is done. Some holders are live. The value is to be the mark while a live holder has a snapshot,
and the original one otherwise. It stays so as long as the holder that found the original value is done after
the others, for then all the other snapshots are of the mark. A holder that is not live counts for nothing, so
it must not act while no live one holds a snapshot.
-/
import Mathlib.Data.Set.Basic

namespace Snapshots

variable {ι β : Type*}

/-- A live holder has a snapshot. -/
def Held (live : Set ι) (saved : ι → Option β) : Prop := ∃ i ∈ live, saved i ≠ none

/-- The value is the mark while a live holder has a snapshot, and the original one otherwise. -/
def Right (mark orig : β) (live : Set ι) (saved : ι → Option β) (value : β) : Prop :=
  (Held live saved → value = mark) ∧ (¬ Held live saved → value = orig)

/-- The snapshots are of the mark but for one of the original value, which a live holder has as soon as
any has one. -/
structure Nested (mark orig : β) (live : Set ι) (saved : ι → Option β) : Prop where
  known : ∀ i v, saved i = some v → v = mark ∨ v = orig ∧ i ∈ live
  first : Held live saved → ∃ i ∈ live, saved i = some orig
  one : ∀ i j, saved i = some orig → saved j = some orig → i = j

variable {mark orig value : β} {live live' : Set ι} {saved saved' : ι → Option β}

theorem right_empty : Right mark orig live (fun _ => none) orig :=
  ⟨fun ⟨_, _, h⟩ => absurd rfl h, fun _ => rfl⟩

theorem nested_empty : Nested mark orig live fun _ : ι => none :=
  ⟨fun i v h => (by cases h), fun ⟨_, _, h⟩ => absurd rfl h, fun i j h => (by cases h)⟩

/-! ## Coming and going -/

/-- Holders without a snapshot may come and go. -/
theorem held_congr (h : ∀ i, saved i ≠ none → (i ∈ live' ↔ i ∈ live)) : Held live' saved ↔ Held live saved := by
  constructor
  · rintro ⟨i, hi, hs⟩
    exact ⟨i, (h i hs).1 hi, hs⟩
  · rintro ⟨i, hi, hs⟩
    exact ⟨i, (h i hs).2 hi, hs⟩

theorem right_congr (h : ∀ i, saved i ≠ none → (i ∈ live' ↔ i ∈ live)) :
    Right mark orig live' saved value ↔ Right mark orig live saved value := by
  unfold Right
  rw [held_congr h]

theorem Nested.congr (hn : Nested mark orig live saved) (h : ∀ i, saved i ≠ none → (i ∈ live' ↔ i ∈ live)) :
    Nested mark orig live' saved := by
  have hsome : ∀ {i v}, saved i = some v → (i ∈ live' ↔ i ∈ live) := fun hv => h _ (by simp [hv])
  refine ⟨fun i v hv => ?_, fun hheld => ?_, hn.one⟩
  · rw [hsome hv]
    exact hn.known i v hv
  · obtain ⟨i, hi, hs⟩ := hn.first ((held_congr h).1 hheld)
    exact ⟨i, (hsome hs).2 hi, hs⟩

section Moves

variable [DecidableEq ι] {i : ι}

/-! ## Taking a snapshot -/

theorem Nested.save_of_held (hn : Nested mark orig live saved) (hne : orig ≠ mark) (hnone : saved i = none)
    (hsaved : ∀ j, saved' j = if j = i then some mark else saved j) (hheld : Held live saved) :
    Nested mark orig live saved' where
  known j v hv := by
    rw [hsaved] at hv
    split at hv
    · cases hv
      exact .inl rfl
    · exact hn.known j v hv
  first _ := by
    obtain ⟨j, hj, hs⟩ := hn.first hheld
    have hji : j ≠ i := by
      rintro rfl
      rw [hnone] at hs
      cases hs
    exact ⟨j, hj, by rw [hsaved, if_neg hji, hs]⟩
  one := by
    have hold : ∀ j, saved' j = some orig → saved j = some orig := by
      intro j hj
      rw [hsaved] at hj
      split at hj
      · cases hj
        exact absurd rfl hne
      · exact hj
    exact fun j k hj hk => hn.one j k (hold j hj) (hold k hk)

theorem Nested.save_of_not_held (hn : Nested mark orig live saved) (hne : orig ≠ mark) (hi : i ∈ live)
    (hsaved : ∀ j, saved' j = if j = i then some orig else saved j) (hheld : ¬ Held live saved) :
    Nested mark orig live saved' where
  known j v hv := by
    rw [hsaved] at hv
    split at hv
    · rename_i hji
      cases hv
      exact .inr ⟨rfl, hji ▸ hi⟩
    · exact hn.known j v hv
  first _ := ⟨i, hi, by rw [hsaved, if_pos rfl]⟩
  one := by
    have honly : ∀ j, saved' j = some orig → j = i := by
      intro j hj
      rw [hsaved] at hj
      split at hj
      · assumption
      · obtain rfl | ⟨-, hlive⟩ := hn.known j orig hj
        · exact absurd rfl hne
        · exact absurd ⟨j, hlive, by simp [hj]⟩ hheld
    exact fun j k hj hk => (honly j hj).trans (honly k hk).symm

/-- Taking a snapshot and setting the mark. -/
theorem save_iff (hne : orig ≠ mark) (hr : Right mark orig live saved value) (hn : Nested mark orig live saved)
    (hnone : saved i = none) (hsaved : ∀ j, saved' j = if j = i then some value else saved j) :
    (Right mark orig live saved' mark ↔ (i ∉ live → Held live saved)) ∧
    (Right mark orig live saved' mark → Nested mark orig live saved') := by
  have hheld : Held live saved' ↔ i ∈ live ∨ Held live saved := by
    constructor
    · rintro ⟨j, hj, hs⟩
      rw [hsaved] at hs
      split at hs
      · rename_i hji
        exact .inl (hji ▸ hj)
      · exact .inr ⟨j, hj, hs⟩
    · rintro (hi | ⟨j, hj, hs⟩)
      · exact ⟨i, hi, by rw [hsaved, if_pos rfl]; simp⟩
      · refine ⟨j, hj, ?_⟩
        rw [hsaved]
        split
        · simp
        · exact hs
  have hright : Right mark orig live saved' mark ↔ (i ∉ live → Held live saved) := by
    unfold Right
    rw [hheld]
    constructor
    · intro h hi
      by_contra hno
      exact hne (h.2 (not_or.2 ⟨hi, hno⟩)).symm
    · exact fun h => ⟨fun _ => rfl, fun hno => absurd (h (not_or.1 hno).1) (not_or.1 hno).2⟩
  refine ⟨hright, fun h => ?_⟩
  by_cases hh : Held live saved
  · rw [hr.1 hh] at hsaved
    exact hn.save_of_held hne hnone hsaved hh
  · rw [hr.2 hh] at hsaved
    exact hn.save_of_not_held hne (by_contra fun hi => hh (hright.1 h hi)) hsaved hh

/-! ## Putting it back -/

/-- A holder that found the original value is done after the other live ones; one that is not live is done
while a live one has a snapshot. -/
def InTurn (mark : β) (live : Set ι) (saved : ι → Option β) (i : ι) : Prop :=
  (i ∈ live → saved i ≠ some mark → ∀ j ∈ live, j ≠ i → saved j = none) ∧ (i ∉ live → Held live saved)

/-- Putting a snapshot back. -/
theorem restore_iff (hne : orig ≠ mark) (hn : Nested mark orig live saved) {v : β} (hv : saved i = some v)
    (hsaved : ∀ j, saved' j = if j = i then none else saved j) :
    (Right mark orig live saved' v ↔ InTurn mark live saved i) ∧
    (Right mark orig live saved' v → Nested mark orig live saved') := by
  have hheld : Held live saved' ↔ ∃ j ∈ live, j ≠ i ∧ saved j ≠ none := by
    constructor
    · rintro ⟨j, hj, hs⟩
      rw [hsaved] at hs
      split at hs
      · exact absurd rfl hs
      · exact ⟨j, hj, ‹_›, hs⟩
    · rintro ⟨j, hj, hji, hs⟩
      exact ⟨j, hj, by rwa [hsaved, if_neg hji]⟩
  have hknown := hn.known i v hv
  -- a snapshot of the mark is not the only one of a live holder
  have hfirst : v = mark → Held live saved → Held live saved' := by
    intro hm hh
    obtain ⟨j, hj, hs⟩ := hn.first hh
    refine hheld.2 ⟨j, hj, ?_, by simp [hs]⟩
    rintro rfl
    rw [hv, Option.some_inj, hm] at hs
    exact hne hs.symm
  have hright : Right mark orig live saved' v ↔ InTurn mark live saved i := by
    unfold InTurn
    rw [hv]
    by_cases hm : v = mark
    · subst hm
      constructor
      · refine fun h => ⟨fun _ hnot => absurd rfl hnot, fun hi => ?_⟩
        by_contra hno
        refine hne (h.2 fun hh => hno ?_).symm
        obtain ⟨j, hj, -, hs⟩ := hheld.1 hh
        exact ⟨j, hj, hs⟩
      · rintro ⟨-, hdead⟩
        refine ⟨fun _ => rfl, fun hno => absurd (hfirst rfl ?_) hno⟩
        by_cases hi : i ∈ live
        · exact ⟨i, hi, by simp [hv]⟩
        · exact hdead hi
    · obtain ⟨rfl, hi⟩ := hknown.resolve_left hm
      constructor
      · refine fun h => ⟨fun _ _ j hj hji => ?_, fun hnot => absurd hi hnot⟩
        by_contra hs
        exact hm (h.1 (hheld.2 ⟨j, hj, hji, hs⟩))
      · rintro ⟨hlast, -⟩
        refine ⟨fun hh => ?_, fun _ => rfl⟩
        obtain ⟨j, hj, hji, hs⟩ := hheld.1 hh
        exact absurd (hlast hi (fun he => hm (Option.some_inj.1 he)) j hj hji) hs
  refine ⟨hright, fun h => ⟨fun j u hu => ?_, fun hh => ?_, fun j k hj hk => ?_⟩⟩
  · rw [hsaved] at hu
    split at hu
    · cases hu
    · exact hn.known j u hu
  · obtain ⟨j, hj, hji, hs⟩ := hheld.1 hh
    obtain ⟨k, hk, hks⟩ := hn.first ⟨j, hj, hs⟩
    refine ⟨k, hk, ?_⟩
    have hki : k ≠ i := by
      rintro rfl
      -- then the original value was put back while another snapshot is held
      rw [hv, Option.some_inj] at hks
      exact hne (hks.symm.trans (h.1 hh))
    rw [hsaved, if_neg hki, hks]
  · rw [hsaved] at hj hk
    split at hj
    · cases hj
    · split at hk
      · cases hk
      · exact hn.one j k hj hk

end Moves

end Snapshots
