/-
Partial functions described by the effects that they are made of. A function does effects of a kind
where every result is reached by a chain of them, and so does what is built from such functions. What
every effect keeps is kept by the functions, and by a run of a machine whose steps do such effects.
-/
import Tangle.Lib.Machine
import Mathlib.Logic.Relation

namespace Effects

open Relation (ReflTransGen)

variable {σ α : Type*} {E E' : σ → σ → Prop}

/-- Every result is reached by effects. -/
def Does (E : σ → σ → Prop) (f : σ → Option σ) : Prop := ∀ s t, f s = some t → ReflTransGen E s t

theorem Does.of_total {f : σ → σ} (hf : ∀ s, ReflTransGen E s (f s)) : Does E fun s => some (f s) := by
  intro s t h
  cases h
  exact hf s

theorem Does.single {f : σ → σ} (hf : ∀ s, E s (f s)) : Does E fun s => some (f s) :=
  .of_total fun s => .single (hf s)

theorem Does.some : Does E (some : σ → Option σ) := .of_total fun _ => .refl

theorem Does.bind {f g : σ → Option σ} (hf : Does E f) (hg : Does E g) : Does E fun s => (f s).bind g := by
  intro s t h
  obtain ⟨u, hu, h⟩ := Option.bind_eq_some_iff.1 h
  exact (hf s u hu).trans (hg u t h)

theorem Does.map {f : σ → Option σ} {g : σ → σ} (hf : Does E f) (hg : ∀ s, ReflTransGen E s (g s)) :
    Does E fun s => (f s).map g := by
  intro s t h
  obtain ⟨u, hu, rfl⟩ := Option.map_eq_some_iff.1 h
  exact (hf s u hu).trans (hg u)

theorem Does.ite {p : σ → Prop} [DecidablePred p] {f g : σ → Option σ} (hf : Does E f) (hg : Does E g) :
    Does E fun s => if p s then f s else g s := by
  intro s t h
  dsimp only at h
  split at h
  · exact hf s t h
  · exact hg s t h

theorem Does.foldlM {f : σ → α → Option σ} {l : List α} (hf : ∀ a ∈ l, Does E (f · a)) :
    Does E fun s => l.foldlM f s := by
  induction l with
  | nil => exact Does.some
  | cons a l ih => exact (hf a List.mem_cons_self).bind (ih fun b hb => hf b (List.mem_cons_of_mem a hb))

/-! ## Functions that do not fail

A function is safe for an invariant where it has a result in every state of it, and one of it again. -/

def Safe (I : σ → Prop) (f : σ → Option σ) : Prop := ∀ s, I s → ∃ t, f s = some t ∧ I t

variable {I : σ → Prop}

theorem Safe.of_total {f : σ → σ} (hf : ∀ s, I s → I (f s)) : Safe I fun s => some (f s) :=
  fun s hs => ⟨f s, rfl, hf s hs⟩

theorem Safe.some : Safe I (some : σ → Option σ) := .of_total fun _ hs => hs

theorem Safe.bind {f g : σ → Option σ} (hf : Safe I f) (hg : Safe I g) : Safe I fun s => (f s).bind g := by
  intro s hs
  obtain ⟨u, hu, hIu⟩ := hf s hs
  obtain ⟨t, ht, hIt⟩ := hg u hIu
  exact ⟨t, Option.bind_eq_some_iff.2 ⟨u, hu, ht⟩, hIt⟩

theorem Safe.ite {p : σ → Prop} [DecidablePred p] {f g : σ → Option σ} (hf : Safe I f) (hg : Safe I g) :
    Safe I fun s => if p s then f s else g s := by
  intro s hs
  dsimp only
  split
  · exact hf s hs
  · exact hg s hs

theorem Safe.foldlM {f : σ → α → Option σ} {l : List α} (hf : ∀ a ∈ l, Safe I (f · a)) :
    Safe I fun s => l.foldlM f s := by
  induction l with
  | nil => exact Safe.some
  | cons a l ih => exact (hf a List.mem_cons_self).bind (ih fun b hb => hf b (List.mem_cons_of_mem a hb))

/-! ## What effects keep -/

theorem inv {I : σ → Prop} (hI : ∀ s t, I s → E s t → I t) {s t : σ} (hs : I s) (h : ReflTransGen E s t) : I t := by
  induction h with
  | refl => exact hs
  | tail _ hst ih => exact hI _ _ ih hst

end Effects
