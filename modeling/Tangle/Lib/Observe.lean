/-
Partial functions between states of which some are alike. A function respects likeness where from like
states it gives like results, failure included. What is built from such functions respects it too, and so
does a run of a machine whose steps do.
-/
import Tangle.Lib.Machine
import Mathlib.Data.Option.Basic

namespace Observe

variable {σ τ υ α : Type*} {R : σ → σ → Prop} {R' : τ → τ → Prop} {R'' : υ → υ → Prop}

/-- From like states, like results. -/
def Respects (R : σ → σ → Prop) (R' : τ → τ → Prop) (f : σ → Option τ) : Prop :=
  ∀ s t, R s t → Option.Rel R' (f s) (f t)

theorem rel_some_left {s : τ} {o : Option τ} (h : Option.Rel R' (some s) o) : ∃ t, o = some t ∧ R' s t := by
  cases h with
  | some h => exact ⟨_, rfl, h⟩

theorem Respects.of_total {f : σ → τ} (hf : ∀ s t, R s t → R' (f s) (f t)) : Respects R R' fun s => some (f s) :=
  fun s t h => .some (hf s t h)

theorem Respects.bind {f : σ → Option τ} {g : τ → Option υ} (hf : Respects R R' f) (hg : Respects R' R'' g) :
    Respects R R'' fun s => (f s).bind g := by
  intro s t h
  have hst := hf s t h
  show Option.Rel R'' ((f s).bind g) ((f t).bind g)
  generalize f s = a at hst
  generalize f t = b at hst
  cases hst with
  | some h => exact hg _ _ h
  | none => exact .none

theorem Respects.map {f : σ → Option τ} {g : τ → υ} (hf : Respects R R' f)
    (hg : ∀ s t, R' s t → R'' (g s) (g t)) : Respects R R'' fun s => (f s).map g := by
  have h := hf.bind (Respects.of_total hg)
  simpa only [Option.map_eq_bind, Function.comp_def] using h

theorem Respects.ite {p : σ → Prop} [DecidablePred p] {f g : σ → Option τ} (hp : ∀ s t, R s t → (p s ↔ p t))
    (hf : Respects R R' f) (hg : Respects R R' g) : Respects R R' fun s => if p s then f s else g s := by
  intro s t h
  by_cases hs : p s
  · simp only [if_pos hs, if_pos ((hp s t h).1 hs)]
    exact hf s t h
  · simp only [if_neg hs, if_neg (mt (hp s t h).2 hs)]
    exact hg s t h

theorem Respects.foldlM {f : σ → α → Option σ} (hf : ∀ a, Respects R R (f · a)) (l : List α) :
    Respects R R fun s => l.foldlM f s := by
  induction l with
  | nil => exact Respects.of_total fun s t h => h
  | cons a l ih => exact (hf a).bind ih

theorem Respects.exec {step : σ → α → Option σ} (h : ∀ a, Respects R R (step · a)) (as : List α) :
    Respects R R (Machine.exec step · as) := by
  induction as with
  | nil => exact Respects.of_total fun s t h => h
  | cons a as ih => exact (h a).bind ih

end Observe
