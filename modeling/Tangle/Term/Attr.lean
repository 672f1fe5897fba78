/-
The attributes of a character: nine bits of background, nine of foreground and the flags, packed in
one 32-bit integer. `charAttributes` works on the packed form. It is shown to do what the codes say
to a `Style`, which keeps the parts apart, and never to name a colour that the palette lacks.
-/
import Tangle.Lib.Field
import Mathlib.Data.List.Basic

namespace Tangle.Term

/-- A number that the bit operators of the source see. -/
abbrev Attr := BitVec 32

/-- `(257 << 9) | 256`. -/
def defAttr : Attr := (257#32 <<< 9) ||| 256#32

/-! ## Select graphic rendition -/

/-- What one parameter of `charAttributes` does, without the colours that take two more. -/
def charAttribute (p : Nat) (curAttr : Attr) : Attr :=
  if 30 ≤ p ∧ p ≤ 37 then (curAttr &&& ~~~(0x1ff#32 <<< 9)) ||| (BitVec.ofNat 32 (p - 30) <<< 9)
  else if 40 ≤ p ∧ p ≤ 47 then (curAttr &&& ~~~0x1ff#32) ||| BitVec.ofNat 32 (p - 40)
  else if 90 ≤ p ∧ p ≤ 97 then (curAttr &&& ~~~(0x1ff#32 <<< 9)) ||| (BitVec.ofNat 32 (p + 8 - 90) <<< 9)
  else if 100 ≤ p ∧ p ≤ 107 then (curAttr &&& ~~~0x1ff#32) ||| BitVec.ofNat 32 (p + 8 - 100)
  else if p = 0 then defAttr
  else if p = 1 then curAttr ||| (1#32 <<< 18)
  else if p = 4 then curAttr ||| (2#32 <<< 18)
  else if p = 7 then
    if (curAttr.sshiftRight 18) &&& 4#32 ≠ 0 then curAttr
    else swapColors (curAttr ||| (4#32 <<< 18))
  else if p = 27 then
    if ~~~(curAttr.sshiftRight 18) &&& 4#32 ≠ 0 then curAttr
    else swapColors (curAttr &&& ~~~(4#32 <<< 18))
  else if p = 22 then curAttr &&& ~~~(1#32 <<< 18)
  else if p = 24 then curAttr &&& ~~~(2#32 <<< 18)
  else if p = 39 then
    (curAttr &&& ~~~(0x1ff#32 <<< 9)) ||| (((defAttr.sshiftRight 9) &&& 0x1ff#32) <<< 9)
  else if p = 49 then (curAttr &&& ~~~0x1ff#32) ||| (defAttr &&& 0x1ff#32)
  else curAttr
where
  /-- `(this.curAttr & ~0x3ffff) | ((bg << 9) | fg)`. -/
  swapColors (attr : Attr) : Attr :=
    let bg := attr &&& 0x1ff#32
    let fg := (attr.sshiftRight 9) &&& 0x1ff#32
    (attr &&& ~~~0x3ffff#32) ||| ((bg <<< 9) ||| fg)

/-- `38` and `48` take the two parameters after them when the first is 5; where the second is missing it is
`undefined & 0xff`. The counter says how many are still to be passed over. -/
def charAttributesFrom : Nat → List Nat → Attr → Attr
  | _, [], curAttr => curAttr
  | i + 1, _ :: params, curAttr => charAttributesFrom i params curAttr
  | 0, p :: params, curAttr =>
    if p = 38 then
      if params.head? ≠ some 5 then charAttributesFrom 0 params curAttr
      else charAttributesFrom 2 params
        ((curAttr &&& ~~~(0x1ff#32 <<< 9)) ||| ((BitVec.ofNat 32 (params[1]?.getD 0) &&& 0xff#32) <<< 9))
    else if p = 48 then
      if params.head? ≠ some 5 then charAttributesFrom 0 params curAttr
      else charAttributesFrom 2 params
        ((curAttr &&& ~~~0x1ff#32) ||| (BitVec.ofNat 32 (params[1]?.getD 0) &&& 0xff#32))
    else charAttributesFrom 0 params (charAttribute p curAttr)

def charAttributes (params : List Nat) (curAttr : Attr) : Attr := charAttributesFrom 0 params curAttr

/-! ## The palette -/

/-- `hex`. -/
def hex (c : Nat) : String :=
  let c := String.ofList (Nat.toDigits 16 c)
  if c.length < 2 then "0" ++ c else c

/-- `out`. -/
def rgb (r g b : Nat) : String := "#" ++ hex r ++ hex g ++ hex b

/-- `Terminal.colors`: 0 to 15, the cube from 16 on, the greys from 232 on, and the default background and
foreground. -/
def colors : List String :=
  ["#2e3436", "#cc0000", "#4e9a06", "#c4a000", "#3465a4", "#75507b", "#06989a", "#d3d7cf",
   "#555753", "#ef2929", "#8ae234", "#fce94f", "#729fcf", "#ad7fa8", "#34e2e2", "#eeeeec"] ++
  (List.range 216).map (fun i =>
    let r := [0x00, 0x5f, 0x87, 0xaf, 0xd7, 0xff]
    rgb (r.getD (i / 36 % 6) 0) (r.getD (i / 6 % 6) 0) (r.getD (i % 6) 0)) ++
  (List.range 24).map (fun i => rgb (8 + i * 10) (8 + i * 10) (8 + i * 10)) ++
  ["#000000", "#f0f0f0"]

theorem length_colors : colors.length = 258 := by simp [colors]

/-! ## Styles -/

/-- The parts of an attribute. -/
structure Style where
  bold : Bool
  underline : Bool
  inverse : Bool
  fg : Nat
  bg : Nat
deriving DecidableEq

/-- The parts of the packed form. -/
def style (a : Attr) : Style where
  bold := a.getLsbD 18
  underline := a.getLsbD 19
  inverse := a.getLsbD 20
  fg := (BitField.get 9 9 a).toNat
  bg := (BitField.get 0 9 a).toNat

namespace Style

def default : Style := { bold := false, underline := false, inverse := false, fg := 257, bg := 256 }

/-- Text is inverted by exchanging its colours. -/
def invert (on : Bool) (s : Style) : Style :=
  if s.inverse = on then s else { s with inverse := on, fg := s.bg, bg := s.fg }

/-- What a code can ask for. -/
inductive Code
  | reset
  | bold (on : Bool)
  | underline (on : Bool)
  | inverse (on : Bool)
  | fg (color : Nat)
  | bg (color : Nat)
deriving DecidableEq

def apply (s : Style) : Code → Style
  | .reset => default
  | .bold on => { s with bold := on }
  | .underline on => { s with underline := on }
  | .inverse on => s.invert on
  | .fg color => { s with fg := color }
  | .bg color => { s with bg := color }

/-- The code of one parameter; most numbers are none. -/
def code (p : Nat) : Option Code :=
  if 30 ≤ p ∧ p ≤ 37 then some (.fg (p - 30))
  else if 40 ≤ p ∧ p ≤ 47 then some (.bg (p - 40))
  else if 90 ≤ p ∧ p ≤ 97 then some (.fg (p - 90 + 8))
  else if 100 ≤ p ∧ p ≤ 107 then some (.bg (p - 100 + 8))
  else if p = 0 then some .reset
  else if p = 1 then some (.bold true)
  else if p = 4 then some (.underline true)
  else if p = 7 then some (.inverse true)
  else if p = 27 then some (.inverse false)
  else if p = 22 then some (.bold false)
  else if p = 24 then some (.underline false)
  else if p = 39 then some (.fg 257)
  else if p = 49 then some (.bg 256)
  else none

/-- The codes that a list of parameters spells. A palette colour is `38;5;n` or `48;5;n`. -/
def codes : List Nat → List Code
  | [] => []
  | 38 :: 5 :: n :: params => .fg (n % 256) :: codes params
  | 48 :: 5 :: n :: params => .bg (n % 256) :: codes params
  | [38, 5] => [.fg 0]
  | [48, 5] => [.bg 0]
  | p :: params => (code p).toList ++ codes params

/-- The colours are there. -/
structure Named (s : Style) : Prop where
  fg : s.fg < colors.length
  bg : s.bg < colors.length

/-- The colour that a code asks for is there. -/
def Code.Named : Code → Prop
  | .fg color => color < colors.length
  | .bg color => color < colors.length
  | _ => True

end Style

/-! ## The packed form does what the codes say -/

open BitField

theorem fg_put {a v : Attr} (hv : v.toNat < 2 ^ 9) : style (put 9 9 a v) = { style a with fg := v.toNat } := by
  have hbit : ∀ i, ¬ (9 ≤ i ∧ i < 9 + 9) → (put 9 9 a v).getLsbD i = a.getLsbD i := by
    intro i hi
    rw [getLsbD_put hv (by decide), if_neg hi]
  simp only [style]
  rw [hbit 18 (by decide), hbit 19 (by decide), hbit 20 (by decide), get_put_self hv (by decide),
    get_put_of_disjoint hv (by decide) (by decide)]

theorem bg_put {a v : Attr} (hv : v.toNat < 2 ^ 9) : style (put 0 9 a v) = { style a with bg := v.toNat } := by
  have hbit : ∀ i, ¬ (0 ≤ i ∧ i < 0 + 9) → (put 0 9 a v).getLsbD i = a.getLsbD i := by
    intro i hi
    rw [getLsbD_put hv (by decide), if_neg hi]
  simp only [style]
  rw [hbit 18 (by decide), hbit 19 (by decide), hbit 20 (by decide), get_put_self hv (by decide),
    get_put_of_disjoint hv (by decide) (by decide)]

/-- A change above the colours leaves them alone. -/
theorem get_of_same_below {a b : Attr} {k : Nat} (hk : k + 9 ≤ 18)
    (h : ∀ i, i < 18 → a.getLsbD i = b.getLsbD i) : get k 9 a = get k 9 b :=
  get_congr fun i _ hi => h i (by omega)

theorem style_setBit {a : Attr} {k : Nat} (hk : 18 ≤ k) (hk' : k < 32) :
    style (a ||| (1#32 <<< k)) =
      { style a with bold := (style a).bold || decide (k = 18), underline := (style a).underline || decide (k = 19),
                     inverse := (style a).inverse || decide (k = 20) } := by
  have hsame : ∀ i, i < 18 → (a ||| (1#32 <<< k)).getLsbD i = a.getLsbD i := by
    intro i hi
    have : k ≠ i := by omega
    rw [getLsbD_setBit hk']; simp [this]
  simp only [style]
  rw [get_of_same_below (by decide) hsame, get_of_same_below (by decide) hsame, getLsbD_setBit hk', getLsbD_setBit hk',
    getLsbD_setBit hk']

theorem style_clearBit {a : Attr} {k : Nat} (hk : 18 ≤ k) :
    style (a &&& ~~~(1#32 <<< k)) =
      { style a with bold := (style a).bold && !decide (k = 18), underline := (style a).underline && !decide (k = 19),
                     inverse := (style a).inverse && !decide (k = 20) } := by
  have hsame : ∀ i, i < 18 → (a &&& ~~~(1#32 <<< k)).getLsbD i = a.getLsbD i := by
    intro i hi
    have : k ≠ i := by omega
    rw [getLsbD_clearBit]; simp [this]
  simp only [style]
  rw [get_of_same_below (by decide) hsame, get_of_same_below (by decide) hsame, getLsbD_clearBit, getLsbD_clearBit,
    getLsbD_clearBit]

theorem style_swapColors (a : Attr) :
    style (charAttribute.swapColors a) = { style a with fg := (style a).bg, bg := (style a).fg } := by
  have hfg : a.sshiftRight 9 &&& 0x1ff#32 = get 9 9 a := sshiftRight_and_mask (k := 9) (n := 9) a (by decide)
  have hbg : a &&& 0x1ff#32 = get 0 9 a := (get_zero 9 a).symm
  have hswap : charAttribute.swapColors a = put 0 9 (put 9 9 a (get 0 9 a)) (get 9 9 a) := by
    rw [← put_or (toNat_get_lt 0 9 a) (toNat_get_lt 9 9 a) (by decide), put_zero]
    unfold charAttribute.swapColors
    simp only [hfg, hbg]
    rfl
  rw [hswap, bg_put (toNat_get_lt 9 9 a), fg_put (toNat_get_lt 0 9 a)]
  rfl

/-- The tests of `7` and `27` are tests of the flag. -/
theorem inverse_test (a : Attr) : (a.sshiftRight 18 &&& 4#32 ≠ 0) ↔ (style a).inverse = true := by
  have h : a.sshiftRight 18 &&& (1#32 <<< 2) ≠ 0#32 ↔ (a.sshiftRight 18).getLsbD 2 = true :=
    and_bit_ne_zero (by decide) _
  rw [BitVec.getLsbD_sshiftRight] at h
  exact h

theorem not_inverse_test (a : Attr) : (~~~(a.sshiftRight 18) &&& 4#32 ≠ 0) ↔ (style a).inverse = false := by
  have h : ~~~(a.sshiftRight 18) &&& (1#32 <<< 2) ≠ 0#32 ↔ (~~~(a.sshiftRight 18)).getLsbD 2 = true :=
    and_bit_ne_zero (by decide) _
  rw [BitVec.getLsbD_not, BitVec.getLsbD_sshiftRight] at h
  simpa [style] using h

/-- `(this.curAttr & ~(0x1ff << 9)) | (color << 9)`. -/
theorem style_fg (a v : Attr) (hv : v.toNat < 2 ^ 9) :
    style ((a &&& ~~~(0x1ff#32 <<< 9)) ||| (v <<< 9)) = (style a).apply (.fg v.toNat) := fg_put hv

/-- `(this.curAttr & ~0x1ff) | color`. -/
theorem style_bg (a v : Attr) (hv : v.toNat < 2 ^ 9) :
    style ((a &&& ~~~0x1ff#32) ||| v) = (style a).apply (.bg v.toNat) := by
  have h : (a &&& ~~~0x1ff#32) ||| v = put 0 9 a v := (put_zero 9 a v).symm
  rw [h, bg_put hv]; rfl

theorem toNat_color {p : Nat} (hp : p < 2 ^ 9) : (BitVec.ofNat 32 p).toNat = p := by
  rw [BitVec.toNat_ofNat]
  exact Nat.mod_eq_of_lt (by omega)

theorem style_fg_ofNat (a : Attr) {p : Nat} (hp : p < 2 ^ 9) :
    style ((a &&& ~~~(0x1ff#32 <<< 9)) ||| (BitVec.ofNat 32 p <<< 9)) = (style a).apply (.fg p) := by
  rw [style_fg a _ (by rwa [toNat_color hp]), toNat_color hp]

theorem style_bg_ofNat (a : Attr) {p : Nat} (hp : p < 2 ^ 9) :
    style ((a &&& ~~~0x1ff#32) ||| BitVec.ofNat 32 p) = (style a).apply (.bg p) := by
  rw [style_bg a _ (by rwa [toNat_color hp]), toNat_color hp]

theorem style_inverse_on (a : Attr) :
    style (if a.sshiftRight 18 &&& 4#32 ≠ 0 then a else charAttribute.swapColors (a ||| (4#32 <<< 18))) =
      (style a).invert true := by
  by_cases h : a.sshiftRight 18 &&& 4#32 ≠ 0
  · rw [if_pos h, Style.invert, if_pos ((inverse_test a).1 h)]
  · have hset : style (a ||| (4#32 <<< 18)) = { style a with inverse := true } := by
      rw [show (4#32 <<< 18) = (1#32 <<< 20) by decide, style_setBit (by decide) (by decide)]
      simp
    rw [if_neg h, Style.invert, if_neg (fun hi => h ((inverse_test a).2 hi)), style_swapColors, hset]

theorem style_inverse_off (a : Attr) :
    style (if ~~~(a.sshiftRight 18) &&& 4#32 ≠ 0 then a else charAttribute.swapColors (a &&& ~~~(4#32 <<< 18))) =
      (style a).invert false := by
  by_cases h : ~~~(a.sshiftRight 18) &&& 4#32 ≠ 0
  · rw [if_pos h, Style.invert, if_pos ((not_inverse_test a).1 h)]
  · have hclear : style (a &&& ~~~(4#32 <<< 18)) = { style a with inverse := false } := by
      rw [show (4#32 <<< 18) = (1#32 <<< 20) by decide, style_clearBit (by decide)]
      simp
    rw [if_neg h, Style.invert, if_neg (fun hi => h ((not_inverse_test a).2 hi)), style_swapColors, hclear]

theorem style_charAttribute (p : Nat) (a : Attr) :
    style (charAttribute p a) = (Style.code p).toList.foldl Style.apply (style a) := by
  unfold charAttribute Style.code
  by_cases h : 30 ≤ p ∧ p ≤ 37
  · rw [if_pos h, if_pos h]
    exact style_fg_ofNat a (by omega)
  rw [if_neg h, if_neg h]
  by_cases h : 40 ≤ p ∧ p ≤ 47
  · rw [if_pos h, if_pos h]
    exact style_bg_ofNat a (by omega)
  rw [if_neg h, if_neg h]
  by_cases h : 90 ≤ p ∧ p ≤ 97
  · rw [if_pos h, if_pos h, show p + 8 - 90 = p - 90 + 8 by omega]
    exact style_fg_ofNat a (by omega)
  rw [if_neg h, if_neg h]
  by_cases h : 100 ≤ p ∧ p ≤ 107
  · rw [if_pos h, if_pos h, show p + 8 - 100 = p - 100 + 8 by omega]
    exact style_bg_ofNat a (by omega)
  rw [if_neg h, if_neg h]
  by_cases h : p = 0
  · rw [if_pos h, if_pos h]
    show style defAttr = Style.default
    decide
  rw [if_neg h, if_neg h]
  by_cases h : p = 1
  · rw [if_pos h, if_pos h, style_setBit (by decide) (by decide)]
    simp [Style.apply]
  rw [if_neg h, if_neg h]
  by_cases h : p = 4
  · rw [if_pos h, if_pos h, show (2#32 <<< 18) = (1#32 <<< 19) by decide, style_setBit (by decide) (by decide)]
    simp [Style.apply]
  rw [if_neg h, if_neg h]
  by_cases h : p = 7
  · rw [if_pos h, if_pos h]
    exact style_inverse_on a
  rw [if_neg h, if_neg h]
  by_cases h : p = 27
  · rw [if_pos h, if_pos h]
    exact style_inverse_off a
  rw [if_neg h, if_neg h]
  by_cases h : p = 22
  · rw [if_pos h, if_pos h, style_clearBit (by decide)]
    simp [Style.apply]
  rw [if_neg h, if_neg h]
  by_cases h : p = 24
  · rw [if_pos h, if_pos h, show (2#32 <<< 18) = (1#32 <<< 19) by decide, style_clearBit (by decide)]
    simp [Style.apply]
  rw [if_neg h, if_neg h]
  by_cases h : p = 39
  · rw [if_pos h, if_pos h]
    exact style_fg a _ (by decide)
  rw [if_neg h, if_neg h]
  by_cases h : p = 49
  · rw [if_pos h, if_pos h]
    exact style_bg a _ (by decide)
  rw [if_neg h, if_neg h]
  rfl

theorem toNat_palette (n : Nat) : (BitVec.ofNat 32 n &&& 0xff#32).toNat = n % 256 := by
  have h : n % 2 ^ 32 &&& (2 ^ 8 - 1) = n % 2 ^ 32 % 2 ^ 8 := Nat.and_two_pow_sub_one_eq_mod _ 8
  rw [BitVec.toNat_and, BitVec.toNat_ofNat]
  show n % 2 ^ 32 &&& (2 ^ 8 - 1) = n % 256
  omega

theorem charAttributesFrom_two (params : List Nat) (a : Attr) :
    charAttributesFrom 2 params a = charAttributesFrom 0 (params.drop 2) a := by
  cases params with
  | nil => rfl
  | cons p params => cases params <;> rfl

theorem charAttributesFrom_fg (n : Nat) (params : List Nat) (a : Attr) :
    charAttributesFrom 0 (38 :: 5 :: n :: params) a = charAttributesFrom 0 params
      ((a &&& ~~~(0x1ff#32 <<< 9)) ||| ((BitVec.ofNat 32 n &&& 0xff#32) <<< 9)) := by
  rw [charAttributesFrom, if_pos rfl, if_neg (by simp), charAttributesFrom_two]
  rfl

theorem charAttributesFrom_bg (n : Nat) (params : List Nat) (a : Attr) :
    charAttributesFrom 0 (48 :: 5 :: n :: params) a = charAttributesFrom 0 params
      ((a &&& ~~~0x1ff#32) ||| (BitVec.ofNat 32 n &&& 0xff#32)) := by
  rw [charAttributesFrom, if_neg (by decide), if_pos rfl, if_neg (by simp), charAttributesFrom_two]
  rfl

/-- Where no palette colour is spelled, one parameter is one code. -/
theorem charAttributesFrom_cons {p : Nat} {params : List Nat} (hfg : p = 38 → params.head? ≠ some 5)
    (hbg : p = 48 → params.head? ≠ some 5) (a : Attr) :
    charAttributesFrom 0 (p :: params) a = charAttributesFrom 0 params (charAttribute p a) := by
  rw [charAttributesFrom]
  by_cases h38 : p = 38
  · subst h38
    rw [if_pos rfl, if_pos (hfg rfl)]
    rfl
  · rw [if_neg h38]
    by_cases h48 : p = 48
    · subst h48
      rw [if_pos rfl, if_pos (hbg rfl)]
      rfl
    · rw [if_neg h48]

theorem style_charAttributesFrom (params : List Nat) (a : Attr) :
    style (charAttributesFrom 0 params a) = (Style.codes params).foldl Style.apply (style a) := by
  have hpal : ∀ n, (BitVec.ofNat 32 n &&& 0xff#32).toNat < 2 ^ 9 := by
    intro n
    have h1 := toNat_palette n
    omega
  -- by the shapes that `codes` tells apart
  induction params using Style.codes.induct generalizing a with
  | case1 => rfl
  | case2 n params ih =>
    rw [charAttributesFrom_fg, ih, style_fg _ _ (hpal n), toNat_palette]
    rfl
  | case3 n params ih =>
    rw [charAttributesFrom_bg, ih, style_bg _ _ (hpal n), toNat_palette]
    rfl
  | case4 =>
    show style ((a &&& ~~~(0x1ff#32 <<< 9)) ||| ((BitVec.ofNat 32 0 &&& 0xff#32) <<< 9)) = _
    rw [style_fg _ _ (hpal 0)]
    rfl
  | case5 =>
    show style ((a &&& ~~~0x1ff#32) ||| (BitVec.ofNat 32 0 &&& 0xff#32)) = _
    rw [style_bg _ _ (hpal 0)]
    rfl
  | case6 p params h1 h2 h3 h4 ih =>
    have hhead : (∀ n ps, params = 5 :: n :: ps → False) → (params = [5] → False) → params.head? ≠ some 5 := by
      intro hlong hshort h
      obtain ⟨ps, rfl⟩ := List.head?_eq_some_iff.1 h
      cases ps with
      | nil => exact hshort rfl
      | cons n ps => exact hlong n ps rfl
    have hstep := charAttributesFrom_cons (fun h => hhead (fun n ps => h1 n ps h) (h3 h))
      (fun h => hhead (fun n ps => h2 n ps h) (h4 h)) a
    rw [hstep, ih, style_charAttribute, Style.codes, List.foldl_append]
    · exact h1
    · exact h2
    · exact h3
    · exact h4

/-- What `charAttributes` makes of the packed form is what the codes make of the style, whatever the parameters. -/
theorem style_charAttributes (params : List Nat) (a : Attr) :
    style (charAttributes params a) = (Style.codes params).foldl Style.apply (style a) :=
  style_charAttributesFrom params a

/-! ## No code names a colour that is not there -/

namespace Style

theorem forall_mem_ite {α : Type} {p : Prop} [Decidable p] {P : α → Prop} {a : α} {o : Option α} (ha : p → P a)
    (ho : ∀ c ∈ o, P c) : ∀ c ∈ (if p then some a else o), P c := by
  intro c hc
  by_cases h : p
  · rw [if_pos h] at hc; cases hc; exact ha h
  · rw [if_neg h] at hc; exact ho c hc

theorem code_named (p : Nat) : ∀ c ∈ code p, c.Named := by
  have hlt : ∀ color, color ≤ 257 → color < colors.length := by
    intro color hcolor
    rw [length_colors]
    omega
  unfold code
  iterate 4 refine forall_mem_ite (fun _ => hlt _ (by omega)) ?_
  iterate 7 refine forall_mem_ite (fun _ => trivial) ?_
  iterate 2 refine forall_mem_ite (fun _ => hlt _ (by omega)) ?_
  intro c hc
  cases hc

theorem codes_named {params : List Nat} : ∀ c ∈ codes params, c.Named := by
  have hpal : ∀ n, n % 256 < colors.length := by
    intro n
    rw [length_colors]
    omega
  induction params using codes.induct with
  | case1 => simp [codes]
  | case2 n params ih => exact List.forall_mem_cons.2 ⟨hpal n, ih⟩
  | case3 n params ih => exact List.forall_mem_cons.2 ⟨hpal n, ih⟩
  | case4 => exact List.forall_mem_singleton.2 (hpal 0)
  | case5 => exact List.forall_mem_singleton.2 (hpal 0)
  | case6 p params h1 h2 h3 h4 ih =>
    rw [codes]
    · intro c hc
      rcases List.mem_append.1 hc with hc | hc
      · exact code_named p c (by simpa using hc)
      · exact ih c hc
    · exact h1
    · exact h2
    · exact h3
    · exact h4

theorem named_default : default.Named := by
  constructor <;> rw [length_colors] <;> decide

theorem Named.apply {s : Style} (hs : s.Named) {c : Code} (hc : c.Named) : (s.apply c).Named := by
  cases c with
  | reset => exact named_default
  | bold on => exact ⟨hs.fg, hs.bg⟩
  | underline on => exact ⟨hs.fg, hs.bg⟩
  | inverse on =>
    show (s.invert on).Named
    unfold invert
    split
    · exact hs
    · exact ⟨hs.bg, hs.fg⟩
  | fg color => exact ⟨hc, hs.bg⟩
  | bg color => exact ⟨hs.fg, hc⟩

theorem Named.foldl {s : Style} (hs : s.Named) {cs : List Code} (hcs : ∀ c ∈ cs, c.Named) :
    (cs.foldl Style.apply s).Named := by
  induction cs generalizing s with
  | nil => exact hs
  | cons c cs ih =>
    obtain ⟨hc, hcs⟩ := List.forall_mem_cons.1 hcs
    exact ih (hs.apply hc) hcs

end Style

/-- The attribute names colours that are there. -/
def Attr.Named (a : Attr) : Prop := (style a).Named

theorem named_defAttr : Attr.Named defAttr := by
  show (style defAttr).Named
  rw [show style defAttr = Style.default by decide]
  exact Style.named_default

theorem named_charAttributes {a : Attr} (ha : Attr.Named a) (params : List Nat) :
    Attr.Named (charAttributes params a) := by
  show (style (charAttributes params a)).Named
  rw [charAttributes, style_charAttributesFrom]
  exact ha.foldl Style.codes_named

end Tangle.Term
