/-
The arrays of JavaScript, as lists. `splice` and `last` clamp their arguments to the array as the
originals do, and a store behind the end leaves a gap: an array that may have gaps is a list of
options.
-/
import Mathlib.Data.List.Basic
import Mathlib.Logic.Function.Iterate

namespace JsArray

variable {α : Type*}

/-! ## Splices -/

/-- `a.splice(i, n, ...items)`, without what it returns. -/
def splice (a : List α) (i n : Nat) (items : List α) : List α := a.take i ++ items ++ a.drop (i + n)

/-- `a.slice(-n)`. -/
def last (n : Nat) (a : List α) : List α := a.drop (a.length - n)

theorem length_splice (a : List α) (i n : Nat) (items : List α) :
    (splice a i n items).length = min i a.length + items.length + (a.length - (i + n)) := by
  simp only [splice, List.length_append, List.length_take, List.length_drop]

theorem mem_splice {a : List α} {i n : Nat} {items : List α} {x : α} (h : x ∈ splice a i n items) :
    x ∈ a ∨ x ∈ items := by
  rcases List.mem_append.1 h with h | h
  · rcases List.mem_append.1 h with h | h
    · exact .inl (List.mem_of_mem_take h)
    · exact .inr h
  · exact .inl (List.mem_of_mem_drop h)

theorem mem_last {a : List α} {n : Nat} {x : α} (h : x ∈ last n a) : x ∈ a := List.mem_of_mem_drop h

/-- An insertion moves what is at and behind it. -/
theorem getElem?_insert {a : List α} {i : Nat} (hi : i ≤ a.length) (x : α) (j : Nat) :
    (splice a i 0 [x])[j]? = if j < i then a[j]? else if j = i then some x else a[j - 1]? := by
  have hlen : (a.take i).length = i := by rw [List.length_take]; omega
  unfold splice
  rw [List.append_assoc, List.singleton_append, List.getElem?_append, hlen]
  by_cases hj : j < i
  · rw [if_pos hj, if_pos hj, List.getElem?_take_of_lt hj]
  · rw [if_neg hj, if_neg hj]
    by_cases he : j = i
    · subst he
      simp
    · rw [if_neg he, List.getElem?_cons, if_neg (by omega), List.getElem?_drop]
      congr 1
      omega

/-- A removal moves what is behind it. -/
theorem getElem?_remove (a : List α) (i j : Nat) :
    (splice a i 1 [])[j]? = if j < i then a[j]? else a[j + 1]? := by
  unfold splice
  rw [List.append_nil, List.getElem?_append, List.length_take]
  by_cases hj : j < i
  · by_cases hl : j < a.length
    · rw [if_pos (by omega), if_pos hj, List.getElem?_take_of_lt hj]
    · have hd : (a.drop (i + 1))[j - min i a.length]? = none := by
        rw [List.getElem?_drop]
        exact List.getElem?_eq_none (by omega)
      rw [if_neg (by omega), if_pos hj, hd, List.getElem?_eq_none (by omega)]
  · rw [if_neg (by omega), if_neg hj, List.getElem?_drop]
    by_cases hl : i ≤ a.length
    · rw [Nat.min_eq_left hl]
      congr 1
      omega
    · rw [List.getElem?_eq_none (by omega), List.getElem?_eq_none (by omega)]

theorem length_insert {a : List α} {i : Nat} (hi : i ≤ a.length) (x : α) :
    (splice a i 0 [x]).length = a.length + 1 := by
  rw [length_splice, List.length_singleton]
  omega

theorem length_remove {a : List α} {i : Nat} (hi : i < a.length) : (splice a i 1 []).length = a.length - 1 := by
  rw [length_splice, List.length_nil]
  omega

/-! ## Shifts

An insertion with a removal keeps the length, and moves nothing but what lies between. -/

/-- Elements outside of the range from `lo` to `hi` stay where they are. -/
structure Within (lo hi : Nat) (a b : List α) : Prop where
  length : b.length = a.length
  same : ∀ i, i < lo ∨ hi < i → b[i]? = a[i]?

theorem Within.refl (lo hi : Nat) (a : List α) : Within lo hi a a := ⟨rfl, fun _ _ => rfl⟩

theorem Within.trans {lo hi : Nat} {a b c : List α} (h : Within lo hi a b) (h' : Within lo hi b c) : Within lo hi a c :=
  ⟨h'.length.trans h.length, fun i hi => (h'.same i hi).trans (h.same i hi)⟩

theorem Within.iterate {lo hi : Nat} {f : List α → List α} {k : Nat}
    (hf : ∀ a : List α, a.length = k → Within lo hi a (f a)) (n : Nat) :
    ∀ a : List α, a.length = k → Within lo hi a (f^[n] a) := by
  induction n with
  | zero => intro a _; exact .refl lo hi a
  | succ n ih => intro a ha; exact (hf a ha).trans (ih (f a) ((hf a ha).length.trans ha))

theorem within_insert_remove {lo hi i j : Nat} {a : List α} (x : α) (hi' : i ≤ a.length) (hj : j ≤ a.length)
    (hlo : lo ≤ i ∧ lo ≤ j) (hhi : i ≤ hi + 1 ∧ j ≤ hi + 1) : Within lo hi a (splice (splice a i 0 [x]) j 1 []) := by
  constructor
  · rw [length_remove (by rw [length_insert hi']; omega), length_insert hi']
    rfl
  · intro r hr
    rw [getElem?_remove]
    rcases hr with hr | hr
    · rw [if_pos (by omega), getElem?_insert hi', if_pos (by omega)]
    · rw [if_neg (by omega), getElem?_insert hi', if_neg (by omega), if_neg (by omega), Nat.add_sub_cancel]

theorem within_remove_insert {lo hi i j : Nat} {a : List α} (x : α) (hi' : i < a.length) (hj : j < a.length)
    (hlo : lo ≤ i ∧ lo ≤ j) (hhi : i ≤ hi ∧ j ≤ hi) : Within lo hi a (splice (splice a i 1 []) j 0 [x]) := by
  have hlen := length_remove hi'
  constructor
  · rw [length_insert (by omega), hlen]
    omega
  · intro r hr
    rw [getElem?_insert (by omega)]
    rcases hr with hr | hr
    · rw [if_pos (by omega), getElem?_remove, if_pos (by omega)]
    · rw [if_neg (by omega), if_neg (by omega), getElem?_remove, if_neg (by omega), Nat.sub_add_cancel (by omega)]

theorem mem_iterate {f : List α → List α} {x y : α} (hf : ∀ a, y ∈ f a → y ∈ a ∨ y = x) (n : Nat) :
    ∀ a, y ∈ f^[n] a → y ∈ a ∨ y = x := by
  induction n with
  | zero => intro a h; exact .inl h
  | succ n ih =>
    intro a h
    rcases ih (f a) h with h | h
    · exact hf a h
    · exact .inr h

/-! ## Stores -/

/-- `a[i]`, which is undefined for a gap and behind the end. -/
def get (a : List (Option α)) (i : Nat) : Option α := a[i]?.join

/-- `a[i] = x`. -/
def store (a : List (Option α)) (i : Nat) (x : α) : List (Option α) :=
  if i < a.length then a.set i (some x) else a ++ List.replicate (i - a.length) none ++ [some x]

/-- `a[i] = x` for `n` indices from `i` on. -/
def fill (a : List (Option α)) (i : Nat) : Nat → α → List (Option α)
  | 0, _ => a
  | n + 1, x => fill (store a i x) (i + 1) n x

/-- Without gaps. -/
def Filled (a : List (Option α)) : Prop := ∀ c ∈ a, c.isSome = true

theorem get_eq_some {a : List (Option α)} {i : Nat} {x : α} : get a i = some x ↔ a[i]? = some (some x) :=
  Option.join_eq_some_iff

theorem mem_of_get {a : List (Option α)} {i : Nat} {x : α} (h : get a i = some x) : some x ∈ a :=
  List.mem_of_getElem? (get_eq_some.1 h)

theorem Filled.get {a : List (Option α)} (ha : Filled a) {i : Nat} (hi : i < a.length) :
    ∃ x, JsArray.get a i = some x := by
  obtain ⟨x, hx⟩ := Option.isSome_iff_exists.1 (ha _ (List.getElem_mem hi))
  exact ⟨x, get_eq_some.2 (List.getElem?_eq_some_iff.2 ⟨hi, hx⟩)⟩

theorem length_store (a : List (Option α)) (i : Nat) (x : α) : (store a i x).length = max a.length (i + 1) := by
  unfold store
  split
  · rw [List.length_set]; omega
  · simp only [List.length_append, List.length_replicate, List.length_singleton]; omega

theorem mem_store {a : List (Option α)} {i : Nat} {x y : α} (h : some y ∈ store a i x) : some y ∈ a ∨ y = x := by
  unfold store at h
  split at h
  · rcases List.mem_or_eq_of_mem_set h with h | h
    · exact .inl h
    · exact .inr (Option.some.inj h)
  · simp only [List.mem_append, List.mem_replicate, List.mem_singleton, reduceCtorEq, and_false, or_false] at h
    rcases h with h | h
    · exact .inl h
    · exact .inr (Option.some.inj h)

theorem getElem?_store {a : List (Option α)} {i : Nat} (hi : i ≤ a.length) (x : α) (j : Nat) :
    (store a i x)[j]? = if j = i then some (some x) else a[j]? := by
  unfold store
  split
  · rename_i hlt
    rw [List.getElem?_set]
    by_cases hj : j = i
    · subst hj; simp [hlt]
    · simp [hj, Ne.symm hj]
  · have hi : i = a.length := by omega
    subst hi
    rw [Nat.sub_self, List.replicate_zero, List.append_nil, List.getElem?_append]
    by_cases hj : j < a.length
    · rw [if_pos hj, if_neg (by omega)]
    · rw [if_neg hj, List.getElem?_singleton]
      by_cases he : j = a.length
      · rw [if_pos (by omega), if_pos he]
      · rw [if_neg (by omega), if_neg he, List.getElem?_eq_none (by omega)]

theorem Filled.store {a : List (Option α)} (ha : Filled a) {i : Nat} (hi : i ≤ a.length) (x : α) :
    Filled (JsArray.store a i x) := by
  intro c hc
  obtain ⟨j, hj⟩ := List.mem_iff_getElem?.1 hc
  rw [getElem?_store hi] at hj
  split at hj
  · cases hj; rfl
  · exact ha c (List.mem_of_getElem? hj)

theorem le_length_fill (n : Nat) (x : α) : ∀ (a : List (Option α)) (i : Nat), a.length ≤ (fill a i n x).length := by
  induction n with
  | zero => intro a i; exact Nat.le_refl _
  | succ n ih =>
    intro a i
    have h1 := ih (store a i x) (i + 1)
    have h2 := length_store a i x
    rw [fill]
    omega

theorem mem_fill {x y : α} (n : Nat) : ∀ (a : List (Option α)) (i : Nat),
    some y ∈ fill a i n x → some y ∈ a ∨ y = x := by
  induction n with
  | zero => intro a i h; exact .inl h
  | succ n ih =>
    intro a i h
    rcases ih _ _ h with h | h
    · exact mem_store h
    · exact .inr h

theorem Filled.fill (n : Nat) (x : α) : ∀ {a : List (Option α)} {i : Nat}, Filled a → i ≤ a.length →
    Filled (JsArray.fill a i n x) := by
  induction n with
  | zero => intro a i ha _; exact ha
  | succ n ih => intro a i ha hi; exact ih (ha.store hi x) (by rw [length_store]; omega)

end JsArray
