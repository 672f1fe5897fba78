/-
`EventEmitter` of `term.js`. `emit` goes through the array of the listeners up to the length that it has
when the event is emitted, while the function that `once` registers takes itself out of that array before it
calls its listener. Behind it the entries move up, so the next one is passed over, and at the end an entry is
missing, which is an exception. Listeners that leave the array alone are all called exactly if none but the
last of them was registered with `once`.
-/
import Mathlib.Data.List.Basic

namespace Tangle.EventEmitter

/-- An entry of `_events[type]`: a listener, or the function `on` that the `k`-th call of `once` made for it. -/
inductive Listener (φ : Type)
  | plain (listener : φ)
  | once (k : Nat) (listener : φ)
  deriving DecidableEq

variable {φ : Type}

def Listener.listener : Listener φ → φ
  | .plain f | .once _ f => f

def Listener.isOnce : Listener φ → Bool
  | .plain _ => false
  | .once .. => true

section Remove

variable [DecidableEq φ]

/-- `while (i--) { if (obj[i] === listener) { obj.splice(i, 1); return; } }`; the other comparison of
`removeListener` is for listeners that were registered with `once`. -/
def removeFrom (obj : List (Listener φ)) (listener : Listener φ) : Nat → List (Listener φ)
  | 0 => obj
  | i + 1 => if obj[i]? = some listener then obj.eraseIdx i else removeFrom obj listener i

def removeListener (obj : List (Listener φ)) (listener : Listener φ) : List (Listener φ) :=
  removeFrom obj listener obj.length

/-- The listeners that were called, the array after that, and whether an exception was thrown. -/
structure Emission (φ : Type) where
  called : List φ
  obj : List (Listener φ)
  threw : Bool
  deriving DecidableEq

/-- `for (; i < l; i++) { obj[i].apply(this, args); }`, with `l - i` rounds to go. -/
def emitFrom : Nat → Nat → List (Listener φ) → Emission φ
  | 0, _, obj => ⟨[], obj, false⟩
  | n + 1, i, obj =>
    match obj[i]? with
    | none => ⟨[], obj, true⟩
    | some on =>
      let r := emitFrom n (i + 1) (if on.isOnce then removeListener obj on else obj)
      { r with called := on.listener :: r.called }

/-- `emit(type)`, where `obj` is `_events[type]`. -/
def emit (obj : List (Listener φ)) : Emission φ := emitFrom obj.length 0 obj

/-! ## What is called -/

theorem length_removeFrom {obj : List (Listener φ)} {on : Listener φ} : ∀ {i j : Nat}, j < i → obj[j]? = some on →
    (removeFrom obj on i).length + 1 = obj.length
  | 0, _, hj, _ => by omega
  | i + 1, j, hj, hon => by
    unfold removeFrom
    split
    · rename_i h
      obtain ⟨hi, -⟩ := List.getElem?_eq_some_iff.1 h
      rw [List.length_eraseIdx_of_lt hi]
      omega
    · rename_i h
      refine length_removeFrom (Nat.lt_of_le_of_ne (Nat.lt_succ_iff.1 hj) ?_) hon
      rintro rfl
      exact h hon

theorem length_removeListener {obj : List (Listener φ)} {on : Listener φ} {i : Nat} (hi : obj[i]? = some on) :
    (removeListener obj on).length + 1 = obj.length :=
  length_removeFrom (List.getElem?_eq_some_iff.1 hi).1 hi

/-- With fewer entries left than rounds to go, one of the rounds finds none. -/
theorem emitFrom_throws : ∀ {n i : Nat} {obj : List (Listener φ)}, obj.length < i + n → 0 < n →
    (emitFrom n i obj).threw = true
  | n + 1, i, obj, hlt, _ => by
    unfold emitFrom
    cases hi : obj[i]? with
    | none => rfl
    | some on =>
      have hlen := (List.getElem?_eq_some_iff.1 hi).1
      refine emitFrom_throws ?_ (by omega)
      split
      · have := length_removeListener hi
        omega
      · omega

/-- As long as no entry but the last takes itself out, each round calls the next one. -/
theorem emitFrom_calls : ∀ {n i : Nat} {obj : List (Listener φ)}, i + n = obj.length →
    (∀ on ∈ (obj.drop i).dropLast, on.isOnce = false) →
    (emitFrom n i obj).called = (obj.drop i).map Listener.listener ∧ (emitFrom n i obj).threw = false
  | 0, i, obj, hn, _ => by
    rw [List.drop_eq_nil_of_le (by omega)]
    exact ⟨rfl, rfl⟩
  | n + 1, i, obj, hn, hplain => by
    have hi : i < obj.length := by omega
    have hdrop : obj.drop i = obj[i] :: obj.drop (i + 1) := List.drop_eq_getElem_cons hi
    unfold emitFrom
    rw [List.getElem?_eq_getElem hi]
    simp only
    rw [hdrop] at hplain ⊢
    cases n with
    | zero =>
      rw [List.drop_eq_nil_of_le (by omega)]
      exact ⟨rfl, rfl⟩
    | succ n =>
      -- this is not the last one
      have hne : obj.drop (i + 1) ≠ [] := by
        rw [Ne, List.drop_eq_nil_iff]
        omega
      rw [List.dropLast_cons_of_ne_nil hne] at hplain
      rw [hplain obj[i] (List.mem_cons_self ..), if_neg Bool.false_ne_true]
      obtain ⟨hcalled, hthrew⟩ := @emitFrom_calls (n + 1) (i + 1) obj (by omega)
        fun on hon => hplain on (List.mem_cons_of_mem _ hon)
      exact ⟨by rw [hcalled, List.map_cons], hthrew⟩

/-- Where an entry that is not the last takes itself out, the emission ends in an exception. -/
theorem emitFrom_throws_of_once : ∀ {n i : Nat} {obj : List (Listener φ)}, i + n = obj.length →
    ∀ on ∈ (obj.drop i).dropLast, on.isOnce = true → (emitFrom n i obj).threw = true
  | 0, i, obj, hn, on, hon, _ => by
    rw [List.drop_eq_nil_of_le (by omega)] at hon
    cases hon
  | n + 1, i, obj, hn, on, hon, honce => by
    have hi : i < obj.length := by omega
    rw [List.drop_eq_getElem_cons hi] at hon
    unfold emitFrom
    rw [List.getElem?_eq_getElem hi]
    simp only
    have hne : obj.drop (i + 1) ≠ [] := by
      intro hnil
      rw [hnil] at hon
      cases hon
    have hn0 : 0 < n := by
      rw [Ne, List.drop_eq_nil_iff] at hne
      omega
    rw [List.dropLast_cons_of_ne_nil hne, List.mem_cons] at hon
    by_cases hfirst : obj[i].isOnce = true
    · rw [if_pos hfirst]
      have := length_removeListener (List.getElem?_eq_getElem hi)
      exact emitFrom_throws (by omega) hn0
    · rw [if_neg hfirst]
      rcases hon with rfl | hon
      · exact absurd honce hfirst
      · exact emitFrom_throws_of_once (by omega) on hon honce

/-- An emission ends without an exception exactly if no entry but the last was registered with `once`. -/
theorem emit_returns_iff (obj : List (Listener φ)) :
    (emit obj).threw = false ↔ ∀ on ∈ obj.dropLast, on.isOnce = false := by
  constructor
  · intro hthrew on hon
    by_contra honce
    rw [Bool.not_eq_false] at honce
    have := @emitFrom_throws_of_once φ _ obj.length 0 obj (by omega) on (by simpa using hon) honce
    rw [emit, this] at hthrew
    cases hthrew
  · exact fun hplain => (@emitFrom_calls φ _ obj.length 0 obj (by omega) (by simpa using hplain)).2

/-- Then every listener was called once, in order. -/
theorem emit_called {obj : List (Listener φ)} (h : (emit obj).threw = false) :
    (emit obj).called = obj.map Listener.listener := by
  have hplain := (emit_returns_iff obj).1 h
  simpa [emit] using (@emitFrom_calls φ _ obj.length 0 obj (by omega) (by simpa using hplain)).1

/-! ## What is left -/

theorem mem_removeFrom {obj : List (Listener φ)} {listener on : Listener φ} : ∀ {i : Nat},
    on ∈ removeFrom obj listener i → on ∈ obj
  | 0, h => h
  | i + 1, h => by
    unfold removeFrom at h
    split at h
    · exact List.mem_of_mem_eraseIdx h
    · exact mem_removeFrom h

theorem mem_emitFrom {on : Listener φ} : ∀ {n i : Nat} {obj : List (Listener φ)}, on ∈ (emitFrom n i obj).obj → on ∈ obj
  | 0, _, _, h => h
  | n + 1, i, obj, h => by
    unfold emitFrom at h
    split at h
    · exact h
    · have hmem := mem_emitFrom h
      split at hmem
      · exact mem_removeFrom hmem
      · exact hmem

theorem mem_called_emitFrom {f : φ} : ∀ {n i : Nat} {obj : List (Listener φ)}, f ∈ (emitFrom n i obj).called →
    ∃ on ∈ obj, on.listener = f
  | 0, _, _, h => by cases h
  | n + 1, i, obj, h => by
    unfold emitFrom at h
    split at h
    · cases h
    · rename_i on hi
      rcases List.mem_cons.1 h with rfl | h
      · exact ⟨on, List.mem_of_getElem? hi, rfl⟩
      · obtain ⟨on', hon', rfl⟩ := mem_called_emitFrom h
        refine ⟨on', ?_, rfl⟩
        split at hon'
        · exact mem_removeFrom hon'
        · exact hon'

theorem removeFrom_head {listener : Listener φ} {rest : List (Listener φ)} (h : listener ∉ rest) : ∀ {i : Nat},
    i < (listener :: rest).length → removeFrom (listener :: rest) listener (i + 1) = rest
  | 0, _ => if_pos rfl
  | i + 1, hi => by
    have hne : (listener :: rest)[i + 1]? ≠ some listener := fun he => h (List.mem_of_getElem? he)
    unfold removeFrom
    rw [if_neg hne]
    exact removeFrom_head h (Nat.lt_of_succ_lt hi)

/-- A function of `once` that comes first is gone after the emission. -/
theorem mem_emit_of_once {on listener : Listener φ} {rest : List (Listener φ)} (honce : listener.isOnce = true)
    (h : listener ∉ rest) (hon : on ∈ (emit (listener :: rest)).obj) : on ∈ rest := by
  have hrest : removeListener (listener :: rest) listener = rest := removeFrom_head h (Nat.lt_succ_self _)
  have hemit : (emit (listener :: rest)).obj = (emitFrom rest.length 1 rest).obj := by
    show (emitFrom rest.length 1 (if listener.isOnce then removeListener (listener :: rest) listener else _)).obj = _
    rw [if_pos honce, hrest]
  rw [hemit] at hon
  exact mem_emitFrom hon

@[simp] theorem emit_nil : emit ([] : List (Listener φ)) = ⟨[], [], false⟩ := rfl

/-- The listener behind one of `once` is passed over. -/
example : emit [.once 0 'a', .plain 'b', .plain 'c'] = ⟨['a', 'c'], [.plain 'b', .plain 'c'], true⟩ := by decide

end Remove

end Tangle.EventEmitter
