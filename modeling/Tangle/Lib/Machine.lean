/-
Runs of a partial step function: a state machine is a function `σ → α → Option σ` that answers
`none` when an action is not enabled. A run is a list of actions, each enabled where it is taken.
The induction rules here carry an invariant along a run, carry it along the runs whose steps meet
a side condition, and turn a one-step equivalence "the state after is good exactly when the step
met the condition" into one about whole runs. The last rules are for two machines: one simulates the other,
the two take the same steps for other actions, or one is a function.
-/
import Mathlib.Logic.Basic

namespace Machine

variable {σ α : Type*}

/-! ## Runs -/

/-- Takes the actions in order; `none` as soon as one is not enabled. -/
def exec (step : σ → α → Option σ) : σ → List α → Option σ
  | s, [] => some s
  | s, a :: as => (step s a).bind fun t => exec step t as

/-- `P` holds in every state of the run, its first and last included. -/
def Always (step : σ → α → Option σ) (P : σ → Prop) : σ → List α → Prop
  | s, [] => P s
  | s, a :: as => P s ∧ ∀ t, step s a = some t → Always step P t as

/-- Every step the run takes meets `C` in the state it is taken from. -/
def Meets (step : σ → α → Option σ) (C : σ → α → Prop) : σ → List α → Prop
  | _, [] => True
  | s, a :: as => ∀ t, step s a = some t → C s a ∧ Meets step C t as

/-- Every action that the run comes to meets `C` in the state it is to be taken from. -/
def Guarded (step : σ → α → Option σ) (C : σ → α → Prop) : σ → List α → Prop
  | _, [] => True
  | s, a :: as => C s a ∧ ∀ t, step s a = some t → Guarded step C t as

variable {step : σ → α → Option σ}

@[simp] theorem exec_nil (s : σ) : exec step s [] = some s := rfl

theorem exec_cons {s u : σ} {a : α} {as : List α} :
    exec step s (a :: as) = some u ↔ ∃ t, step s a = some t ∧ exec step t as = some u := by
  simp only [exec, Option.bind_eq_some_iff]

theorem exec_append {s u : σ} {as bs : List α} :
    exec step s (as ++ bs) = some u ↔ ∃ t, exec step s as = some t ∧ exec step t bs = some u := by
  induction as generalizing s with
  | nil => simp
  | cons a as ih =>
    rw [List.cons_append, exec_cons]
    constructor
    · rintro ⟨t, ht, h⟩
      obtain ⟨v, hv, h⟩ := ih.1 h
      exact ⟨v, exec_cons.2 ⟨t, ht, hv⟩, h⟩
    · rintro ⟨v, hv, h⟩
      obtain ⟨t, ht, hv⟩ := exec_cons.1 hv
      exact ⟨t, ht, ih.2 ⟨v, hv, h⟩⟩

/-- Actions that can be taken come first. -/
theorem exec_append_of {s t : σ} {as : List α} (h : exec step s as = some t) (bs : List α) :
    exec step s (as ++ bs) = exec step t bs := by
  refine Option.ext fun u => ?_
  rw [exec_append]
  constructor
  · rintro ⟨v, hv, hu⟩
    rw [h] at hv; cases hv
    exact hu
  · exact fun hu => ⟨t, h, hu⟩

theorem exec_cons_of {s t : σ} {a : α} (h : step s a = some t) (as : List α) :
    exec step s (a :: as) = exec step t as := by
  rw [exec, h, Option.bind_some]

theorem exec_singleton {s t : σ} {a : α} : exec step s [a] = some t ↔ step s a = some t := by
  rw [exec_cons]; simp

/-! ## Invariants -/

/-- An invariant of every step holds after every run. -/
theorem exec_inv {I : σ → Prop} (hI : ∀ s a t, I s → step s a = some t → I t) :
    ∀ {as : List α} {s t : σ}, I s → exec step s as = some t → I t
  | [], s, t, hs, h => by cases h; exact hs
  | a :: as, s, t, hs, h => by
    obtain ⟨u, hu, h⟩ := exec_cons.1 h
    exact exec_inv hI (hI s a u hs hu) h

/-- A reflexive and transitive relation that every step respects relates the two ends of a run. -/
theorem exec_rel {I : σ → Prop} {R : σ → σ → Prop} (hI : ∀ s a t, I s → step s a = some t → I t)
    (hrefl : ∀ s, R s s) (htrans : ∀ s t u, R s t → R t u → R s u)
    (hR : ∀ s a t, I s → step s a = some t → R s t) :
    ∀ {as : List α} {s t : σ}, I s → exec step s as = some t → R s t
  | [], s, t, _, h => by cases h; exact hrefl s
  | a :: as, s, t, hs, h => by
    obtain ⟨u, hu, h⟩ := exec_cons.1 h
    exact htrans s u t (hR s a u hs hu) (exec_rel hI hrefl htrans hR (hI s a u hs hu) h)

/-- An invariant of the steps that meet `C` holds after every run whose steps all meet `C`. -/
theorem exec_inv_meets {I : σ → Prop} {C : σ → α → Prop}
    (hI : ∀ s a t, I s → C s a → step s a = some t → I t) :
    ∀ {as : List α} {s t : σ}, I s → Meets step C s as → exec step s as = some t → I t
  | [], s, t, hs, _, h => by cases h; exact hs
  | a :: as, s, t, hs, hm, h => by
    obtain ⟨u, hu, h⟩ := exec_cons.1 h
    exact exec_inv_meets hI (hI s a u hs (hm u hu).1 hu) (hm u hu).2 h

/-- Where each step of one machine, from the states of an invariant, is a run of another, so is each run. -/
theorem exec_simulates {τ β : Type*} {step' : τ → β → Option τ} {I : σ → Prop} {R : σ → τ → Prop}
    (hI : ∀ s a t, I s → step s a = some t → I t)
    (hR : ∀ s a t u, I s → R s u → step s a = some t → ∃ bs v, exec step' u bs = some v ∧ R t v) :
    ∀ {as : List α} {s t : σ} {u : τ}, I s → R s u → exec step s as = some t →
      ∃ bs v, exec step' u bs = some v ∧ R t v
  | [], s, t, u, _, hr, h => by cases h; exact ⟨[], u, rfl, hr⟩
  | a :: as, s, t, u, hs, hr, h => by
    obtain ⟨s₁, hs₁, h⟩ := exec_cons.1 h
    obtain ⟨bs, u₁, hu₁, hr₁⟩ := hR s a s₁ u hs hr hs₁
    obtain ⟨bs', v, hv, hr'⟩ := exec_simulates hI hR (hI s a s₁ hs hs₁) hr₁ h
    exact ⟨bs ++ bs', v, exec_append.2 ⟨u₁, hu₁, hv⟩, hr'⟩

/-- Where, in the states of an invariant, the steps are those of another machine for other actions, so are the
runs. -/
theorem exec_map {β : Type*} {step' : σ → β → Option σ} {I : σ → Prop} {V : β → Prop} {f : β → α}
    (hstep : ∀ b s, V b → I s → step s (f b) = step' s b) (hI : ∀ b s t, V b → I s → step' s b = some t → I t) :
    ∀ {bs : List β} {s : σ}, (∀ b ∈ bs, V b) → I s → exec step s (bs.map f) = exec step' s bs
  | [], _, _, _ => rfl
  | b :: bs, s, hv, hs => by
    have hb := hv b List.mem_cons_self
    rw [List.map_cons, exec, exec, hstep b s hb hs]
    cases hu : step' s b with
    | none => rfl
    | some u => exact exec_map hstep hI (fun c hc => hv c (List.mem_cons_of_mem b hc)) (hI b s u hb hs hu)

/-- A function that follows each step follows the run. -/
theorem exec_follows {τ : Type*} {V : α → Prop} {R : τ → σ → Prop} {f : τ → α → τ}
    (hR : ∀ x a s t, V a → R x s → step s a = some t → R (f x a) t) :
    ∀ {as : List α} {x : τ} {s t : σ}, (∀ a ∈ as, V a) → R x s → exec step s as = some t → R (as.foldl f x) t
  | [], _, s, t, _, hs, h => by cases h; exact hs
  | a :: as, x, s, t, hv, hs, h => by
    obtain ⟨u, hu, h⟩ := exec_cons.1 h
    have hxu := hR x a s u (hv a List.mem_cons_self) hs hu
    rw [List.foldl_cons]
    exact exec_follows hR (fun b hb => hv b (List.mem_cons_of_mem a hb)) hxu h

/-! ## Guarded runs -/

instance decidableGuarded {C : σ → α → Prop} [∀ s a, Decidable (C s a)] : ∀ (s : σ) (as : List α),
    Decidable (Guarded step C s as)
  | _, [] => .isTrue trivial
  | s, a :: as =>
    have : DecidablePred fun t => Guarded step C t as := fun t => decidableGuarded t as
    inferInstanceAs (Decidable (C s a ∧ ∀ t ∈ step s a, Guarded step C t as))

theorem Guarded.meets {C : σ → α → Prop} : ∀ {as : List α} {s : σ}, Guarded step C s as → Meets step C s as
  | [], _, _ => trivial
  | _ :: _, _, h => fun t ht => ⟨h.1, (h.2 t ht).meets⟩

/-- The rest of a guarded run is guarded. -/
theorem Guarded.rest {C : σ → α → Prop} : ∀ {as bs : List α} {s t : σ}, Guarded step C s (as ++ bs) →
    exec step s as = some t → Guarded step C t bs
  | [], _, _, _, hg, h => by cases h; exact hg
  | _ :: _, _, _, _, hg, h => by
    obtain ⟨u, hu, h⟩ := exec_cons.1 h
    exact (hg.2 u hu).rest h

/-- Where an action that meets `C` can be taken in the states of an invariant and leads to one of them, so can a
run whose actions all do. -/
theorem exec_total {I : σ → Prop} {C : σ → α → Prop} (hI : ∀ s a, I s → C s a → ∃ t, step s a = some t ∧ I t) :
    ∀ {as : List α} {s : σ}, I s → Guarded step C s as → ∃ t, exec step s as = some t ∧ I t
  | [], s, hs, _ => ⟨s, rfl, hs⟩
  | a :: as, s, hs, hg => by
    obtain ⟨u, hu, hIu⟩ := hI s a hs hg.1
    obtain ⟨t, ht, hIt⟩ := exec_total hI hIu (hg.2 u hu)
    exact ⟨t, exec_cons.2 ⟨u, hu, ht⟩, hIt⟩

theorem Meets.cons {C : σ → α → Prop} {s t : σ} {a : α} {as : List α} (h : step s a = some t) (hc : C s a)
    (hm : Meets step C t as) : Meets step C s (a :: as) := by
  intro u hu
  rw [h] at hu; cases hu
  exact ⟨hc, hm⟩

theorem Meets.imp {C D : σ → α → Prop} (h : ∀ s a, C s a → D s a) : ∀ {as : List α} {s : σ}, Meets step C s as →
    Meets step D s as
  | [], _, _ => trivial
  | a :: _, s, hm => fun t ht => ⟨h s a (hm t ht).1, (hm t ht).2.imp h⟩

theorem Meets.append {C : σ → α → Prop} : ∀ {as bs : List α} {s : σ}, Meets step C s as →
    (∀ t, exec step s as = some t → Meets step C t bs) → Meets step C s (as ++ bs)
  | [], _, s, _, h' => h' s rfl
  | _ :: _, _, _, h, h' => fun t ht =>
    ⟨(h t ht).1, (h t ht).2.append fun u hu => h' u (exec_cons.2 ⟨t, ht, hu⟩)⟩

theorem Meets.of_append {C : σ → α → Prop} {bs : List α} : ∀ {as : List α} {s : σ}, Meets step C s (as ++ bs) →
    Meets step C s as
  | [], _, _ => trivial
  | _ :: _, _, h => fun t ht => ⟨(h t ht).1, (h t ht).2.of_append⟩

theorem Meets.singleton {C : σ → α → Prop} {s : σ} {a : α} (h : C s a) : Meets step C s [a] :=
  fun _ _ => ⟨h, trivial⟩

theorem Meets.of_forall {C : σ → α → Prop} : ∀ {as : List α} {s : σ}, (∀ a ∈ as, ∀ s, C s a) → Meets step C s as
  | [], _, _ => trivial
  | a :: _, s, h => fun _ _ =>
    ⟨h a (List.mem_cons_self ..) s, Meets.of_forall fun b hb => h b (List.mem_cons_of_mem a hb)⟩

/-- Where a step from a good state ends in a good state exactly when it met `C`, a run stays good throughout
exactly when all its steps met `C`. An invariant may be relied on that holds as long as the states are good. -/
theorem always_iff_meets_of {I P : σ → Prop} {C : σ → α → Prop}
    (hPC : ∀ s a t, I s → P s → step s a = some t → (P t ↔ C s a) ∧ (P t → I t)) :
    ∀ {as : List α} {s : σ}, I s → P s → (Always step P s as ↔ Meets step C s as)
  | [], s, _, hp => by simp [Always, Meets, hp]
  | a :: as, s, hs, hp => by
    simp only [Always, Meets, hp, true_and]
    refine forall₂_congr fun t ht => ?_
    obtain ⟨hiff, hinv⟩ := hPC s a t hs hp ht
    constructor
    · intro h
      have hpt : P t := by cases as <;> first | exact h | exact h.1
      exact ⟨hiff.1 hpt, (always_iff_meets_of hPC (hinv hpt) hpt).1 h⟩
    · rintro ⟨hc, hm⟩
      have hpt := hiff.2 hc
      exact (always_iff_meets_of hPC (hinv hpt) hpt).2 hm

/-- The same with an invariant of all steps. -/
theorem always_iff_meets {I P : σ → Prop} {C : σ → α → Prop}
    (hI : ∀ s a t, I s → step s a = some t → I t)
    (hPC : ∀ s a t, I s → P s → step s a = some t → (P t ↔ C s a)) {as : List α} {s : σ} (hs : I s) (hp : P s) :
    Always step P s as ↔ Meets step C s as :=
  always_iff_meets_of (fun s a t hs hp ht => ⟨hPC s a t hs hp ht, fun _ => hI s a t hs ht⟩) hs hp

end Machine
