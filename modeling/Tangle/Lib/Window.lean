/-
A list as a window on an endless sequence. What is done to the list at its ends moves the window or makes it
longer, and what is done to one of its elements is done to the sequence.
-/
import Mathlib.Data.List.Basic
import Mathlib.Logic.Function.Basic

namespace Window

variable {α : Type*}

/-- The list shows the elements from `d` on. -/
def Shows (f : Nat → α) (d : Nat) (l : List α) : Prop := ∀ i, i < l.length → l[i]? = some (f (d + i))

theorem shows_replicate (a : α) (d n : Nat) : Shows (fun _ => a) d (List.replicate n a) := by
  intro i hi
  rw [List.length_replicate] at hi
  rw [List.getElem?_replicate, if_pos hi]

theorem Shows.drop {f : Nat → α} {d : Nat} {l : List α} (h : Shows f d l) (k : Nat) : Shows f (d + k) (l.drop k) := by
  intro i hi
  rw [List.length_drop] at hi
  rw [List.getElem?_drop, h (k + i) (by omega), Nat.add_assoc]

theorem Shows.concat {f : Nat → α} {d : Nat} {l : List α} (h : Shows f d l) : Shows f d (l ++ [f (d + l.length)]) := by
  intro i hi
  rw [List.length_append, List.length_singleton] at hi
  by_cases hlt : i < l.length
  · rw [List.getElem?_append_left hlt]
    exact h i hlt
  · have hlast : i = l.length := by omega
    subst hlast
    rw [List.getElem?_concat_length]

theorem Shows.modify {f : Nat → α} {d : Nat} {l : List α} (h : Shows f d l) (i : Nat) (g : α → α) :
    Shows (Function.update f (d + i) (g (f (d + i)))) d (l.modify i g) := by
  intro j hj
  rw [List.length_modify] at hj
  rw [List.getElem?_modify, h j hj]
  by_cases hij : i = j
  · subst hij
    rw [Function.update_self]
    simp
  · rw [Function.update_of_ne (by omega)]
    simp [hij]

end Window
