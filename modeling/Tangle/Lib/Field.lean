/-
Bit fields in a word. A field is the bits of a word from some position on; reading one back after a
write gives what was written, and a write leaves the bits outside its field alone.
-/
import Mathlib.Data.Nat.Bitwise

namespace BitField

variable {w : Nat}

/-- The low `n` bits. -/
def mask (w n : Nat) : BitVec w := BitVec.ofNat w (2 ^ n - 1)

/-- The field of `n` bits from bit `k` on. -/
def get (k n : Nat) (x : BitVec w) : BitVec w := (x >>> k) &&& mask w n

/-- The word with that field cleared and `v` put there. -/
def put (k n : Nat) (x v : BitVec w) : BitVec w := (x &&& ~~~(mask w n <<< k)) ||| (v <<< k)

theorem get_zero (n : Nat) (x : BitVec w) : get 0 n x = x &&& mask w n := by
  rw [get, BitVec.ushiftRight_zero]

theorem put_zero (n : Nat) (x v : BitVec w) : put 0 n x v = (x &&& ~~~mask w n) ||| v := by
  rw [put, BitVec.shiftLeft_zero, BitVec.shiftLeft_zero]

theorem getLsbD_mask (n i : Nat) : (mask w n).getLsbD i = (decide (i < w) && decide (i < n)) := by
  simp [mask, BitVec.getLsbD_ofNat, Nat.testBit_two_pow_sub_one]

theorem getLsbD_get (k n i : Nat) (x : BitVec w) :
    (get k n x).getLsbD i = (decide (i < n) && x.getLsbD (k + i)) := by
  unfold get
  rw [BitVec.getLsbD_and, BitVec.getLsbD_ushiftRight, getLsbD_mask]
  by_cases hi : i < w
  · simp [hi, Bool.and_comm]
  · have : x.getLsbD (k + i) = false := BitVec.getLsbD_of_ge x _ (by omega)
    simp [this]

theorem getLsbD_of_fits {n i : Nat} {v : BitVec w} (hv : v.toNat < 2 ^ n) (hi : n ≤ i) : v.getLsbD i = false :=
  Nat.testBit_lt_two_pow (lt_of_lt_of_le hv (Nat.pow_le_pow_right (by decide) hi))

theorem getLsbD_put {k n i : Nat} {x v : BitVec w} (hv : v.toNat < 2 ^ n) (h : k + n ≤ w) :
    (put k n x v).getLsbD i = if k ≤ i ∧ i < k + n then v.getLsbD (i - k) else x.getLsbD i := by
  unfold put
  simp only [BitVec.getLsbD_or, BitVec.getLsbD_and, BitVec.getLsbD_not, BitVec.getLsbD_shiftLeft, getLsbD_mask]
  by_cases hin : k ≤ i ∧ i < k + n
  · rw [if_pos hin]
    have h1 : i < w := by omega
    have h2 : i - k < w := by omega
    have h3 : i - k < n := by omega
    have h4 : ¬ i < k := by omega
    simp [h1, h2, h3, h4]
  · rw [if_neg hin]
    by_cases hlt : i < k
    · by_cases hw : i < w
      · simp [hlt, hw]
      · simp [hlt, hw, BitVec.getLsbD_of_ge x i (by omega)]
    · have hv' : v.getLsbD (i - k) = false := getLsbD_of_fits hv (by omega)
      have h3 : ¬ i - k < n := by omega
      by_cases hw : i < w
      · simp [hlt, hw, hv', h3]
      · simp [hw, BitVec.getLsbD_of_ge x i (by omega)]

theorem get_put_self {k n : Nat} {x v : BitVec w} (hv : v.toNat < 2 ^ n) (h : k + n ≤ w) :
    get k n (put k n x v) = v := by
  refine BitVec.eq_of_getLsbD_eq fun i _ => ?_
  rw [getLsbD_get, getLsbD_put hv h]
  by_cases hi : i < n
  · rw [if_pos (by omega), Nat.add_sub_cancel_left]
    simp [hi]
  · have hout : v.getLsbD i = false := getLsbD_of_fits hv (by omega)
    simp [hi, hout]

/-- What a field holds depends on its own bits only. -/
theorem get_congr {k n : Nat} {x y : BitVec w} (h : ∀ i, k ≤ i → i < k + n → x.getLsbD i = y.getLsbD i) :
    get k n x = get k n y := by
  refine BitVec.eq_of_getLsbD_eq fun i _ => ?_
  rw [getLsbD_get, getLsbD_get]
  by_cases hi : i < n
  · rw [h (k + i) (by omega) (by omega)]
  · simp [hi]

theorem get_put_of_disjoint {k n j m : Nat} {x v : BitVec w} (hv : v.toNat < 2 ^ n) (h : k + n ≤ w)
    (hd : j + m ≤ k ∨ k + n ≤ j) : get j m (put k n x v) = get j m x := by
  apply get_congr
  intro i hi him
  rw [getLsbD_put hv h, if_neg (by omega)]

theorem toNat_get_lt (k n : Nat) (x : BitVec w) : (get k n x).toNat < 2 ^ n := by
  unfold get mask
  rw [BitVec.toNat_and, BitVec.toNat_ofNat]
  have h1 : (2 ^ n - 1) % 2 ^ w ≤ 2 ^ n - 1 := Nat.mod_le _ _
  have h2 : 0 < 2 ^ n := Nat.two_pow_pos n
  exact lt_of_le_of_lt (Nat.and_le_right.trans h1) (by omega)

/-- Two neighbouring fields written at once. -/
theorem put_or {n m : Nat} {x hi lo : BitVec w} (hhi : hi.toNat < 2 ^ m) (hlo : lo.toNat < 2 ^ n) (h : n + m ≤ w) :
    put 0 (n + m) x ((hi <<< n) ||| lo) = put 0 n (put n m x hi) lo := by
  have hor : ∀ i, ((hi <<< n) ||| lo).getLsbD i =
      if i < n then lo.getLsbD i else decide (i < w) && hi.getLsbD (i - n) := by
    intro i
    rw [BitVec.getLsbD_or, BitVec.getLsbD_shiftLeft]
    by_cases hi' : i < n
    · simp [hi']
    · simp [hi', getLsbD_of_fits hlo (Nat.le_of_not_lt hi')]
  have hv : ((hi <<< n) ||| lo).toNat < 2 ^ (n + m) := by
    refine Nat.lt_pow_two_of_testBit _ fun i hi' => ?_
    have := hor i
    rw [if_neg (by omega), getLsbD_of_fits hhi (by omega), Bool.and_false] at this
    exact this
  refine BitVec.eq_of_getLsbD_eq fun i hiw => ?_
  rw [getLsbD_put hv (by omega), getLsbD_put hlo (by omega), getLsbD_put hhi h]
  by_cases h1 : i < n
  · rw [if_pos (by omega), if_pos (by omega), Nat.sub_zero, hor i, if_pos h1]
  · by_cases h2 : i < n + m
    · rw [if_pos (by omega), if_neg (by omega), if_pos (by omega), Nat.sub_zero, hor i, if_neg h1]
      simp [hiw]
    · rw [if_neg (by omega), if_neg (by omega), if_neg (by omega)]

/-- Below its sign a shifted word is the same with or without the sign's copies. -/
theorem sshiftRight_and_mask {k n : Nat} (x : BitVec w) (h : k + n ≤ w) : x.sshiftRight k &&& mask w n = get k n x := by
  refine BitVec.eq_of_getLsbD_eq fun i hi => ?_
  rw [BitVec.getLsbD_and, BitVec.getLsbD_sshiftRight, getLsbD_mask, getLsbD_get]
  by_cases hn : i < n
  · have : k + i < w := by omega
    simp [hn, hi, this, Nat.not_le.2 hi]
  · simp [hn]

/-! ## Single bits -/

theorem getLsbD_setBit {k : Nat} (hk : k < w) (x : BitVec w) (i : Nat) :
    (x ||| (1#w <<< k)).getLsbD i = (x.getLsbD i || decide (k = i)) := by
  rw [← BitVec.twoPow_eq, BitVec.getLsbD_or, BitVec.getLsbD_twoPow]
  simp [hk]

theorem getLsbD_clearBit (k : Nat) (x : BitVec w) (i : Nat) :
    (x &&& ~~~(1#w <<< k)).getLsbD i = (x.getLsbD i && !decide (k = i)) := by
  rw [← BitVec.twoPow_eq, BitVec.getLsbD_and, BitVec.getLsbD_not, BitVec.getLsbD_twoPow]
  by_cases hi : i < w
  · by_cases hk : k = i
    · subst hk; simp [hi]
    · simp [hi, hk]
  · simp [BitVec.getLsbD_of_ge x i (by omega)]

theorem and_bit_ne_zero {k : Nat} (hk : k < w) (x : BitVec w) : x &&& (1#w <<< k) ≠ 0#w ↔ x.getLsbD k = true := by
  rw [← BitVec.twoPow_eq, BitVec.and_twoPow]
  by_cases hx : x.getLsbD k
  · have hne : BitVec.twoPow w k ≠ 0#w := by
      intro h
      have := congrArg (BitVec.getLsbD · k) h
      simp [hk] at this
    simp [hx, hne]
  · simp [hx]

end BitField
