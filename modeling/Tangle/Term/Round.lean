/-
What a round of the parser can do to the screen, by the character that it reads: the effects of the control
functions are put together, first for the modes, then for the final characters, then for the states.
-/
import Tangle.Term.Effect
import Mathlib.Tactic.MkIffOfInductiveProp

namespace Tangle.Term.Terminal

open JsArray Effects
open Relation (ReflTransGen)

variable {m : Manner}

/-! ## Modes -/

/-- The modes that change between the screens. -/
def alternateModes : List Nat := [47, 1047, 1049]

/-- Together with the mode of 132 columns. -/
def screenModes : List Nat := 3 :: alternateModes

theorem reaches_enterAlternate {t u : Terminal} (hl : ¬ m.loud) (h : t.enterAlternate = some u) :
    ReflTransGen (Effect m) t u := by
  unfold enterAlternate at h
  split at h
  · cases h
    exact .refl
  · rename_i hn
    exact .single (.enter u hl (by simpa using hn) h rfl)

theorem reaches_leaveAlternate {t u : Terminal} (hl : ¬ m.loud) (hs : ¬ m.stay) (h : t.leaveAlternate = some u) :
    Effect m t u := .leave u hl hs h rfl

theorem view_setgCharset (g : Nat) (cs : Option Charset) (t : Terminal) : (t.setgCharset g cs).view = t.view := rfl

theorem does_withModes (f : Modes → Modes) : Does (Effect m) (some ∘ withModes f) :=
  does_calm fun _ => rfl

/-- Another width is kept, and the screen gets a size. -/
theorem reaches_wide {s t u : Terminal} (hl : ¬ m.loud) (hk : ¬ m.keep) (hs : s.view = t.view) {x : Nat}
    (h : s.resize x s.rows = some u) : ReflTransGen (Effect m) t u := by
  have hcalm : Effect m t s := .calm hs
  exact .head hcalm (.single (.resize x u hl hk h rfl))

theorem does_wide (hl : ¬ m.loud) (hk : ¬ m.keep) :
    Does (Effect m) fun t => { t with savedCols := some t.cols }.resize 132 t.rows := by
  intro t u h
  have hs : { t with savedCols := some t.cols }.view = t.view := rfl
  exact reaches_wide hl hk hs h

theorem does_setPrivateMode {p : Nat} (hl : m.loud → p ∉ screenModes) (hk : m.keep → p ≠ 3) :
    Does (Effect m) (setPrivateMode p) := by
  unfold setPrivateMode
  split
  case h_2 => exact does_calm fun t => by simp only [Function.comp, view_setgCharset]
  case h_3 => exact does_wide (fun h => hl h (by decide)) fun h => hk h rfl
  case h_15 | h_16 | h_17 => exact fun t u h => reaches_enterAlternate (fun h => hl h (by decide)) h
  case h_18 => exact .some
  all_goals exact does_withModes _

theorem does_resetPrivateMode {p : Nat} (hl : m.loud → p ∉ screenModes) (hk : m.keep → p ≠ 3)
    (hs : m.stay → p ∉ alternateModes) : Does (Effect m) (resetPrivateMode p) := by
  unfold resetPrivateMode
  split
  case h_2 =>
    have hl' : ¬ m.loud := fun h => hl h (by decide)
    have hk' : ¬ m.keep := fun h => hk h rfl
    intro t u h
    obtain ⟨v, hv, rfl⟩ := Option.map_eq_some_iff.1 h
    split at hv
    · exact .tail (.single (.resize _ v hl' hk' hv rfl)) (.calm rfl)
    · cases hv
      exact .single (.calm rfl)
  case h_14 | h_15 | h_16 =>
    exact fun t u h => .single (reaches_leaveAlternate (fun h => hl h (by decide)) (fun h => hs h (by decide)) h)
  case h_17 => exact .some
  all_goals exact does_withModes _

theorem does_mode {p : Nat} {on : Bool} {f : Terminal → Option Terminal} (hf : Does (Effect m) f) :
    Does (Effect m) fun t =>
      if t.parser.prefixText = [] then some (if p = 4 then t.withModes ({ · with insertMode := on }) else t)
      else if t.parser.prefixText = units "?" then f t else some t := by
  refine .ite (.single fun t => .calm ?_) (.ite hf .some)
  split <;> rfl

theorem does_setMode {params : List Nat} (hl : m.loud → ∀ p ∈ params, p ∉ screenModes) (hk : m.keep → 3 ∉ params) :
    Does (Effect m) (setMode params) :=
  .foldlM fun p hp => does_mode (does_setPrivateMode (fun h => hl h p hp) fun h he => hk h (he ▸ hp))

theorem does_resetMode {params : List Nat} (hl : m.loud → ∀ p ∈ params, p ∉ screenModes) (hk : m.keep → 3 ∉ params)
    (hs : m.stay → ∀ p ∈ params, p ∉ alternateModes) : Does (Effect m) (resetMode params) :=
  .foldlM fun p hp => does_mode (does_resetPrivateMode (fun h => hl h p hp) (fun h he => hk h (he ▸ hp))
    fun h => hs h p hp)

/-! ## Characters -/

/-- The final character keeps to the screen: a restored cursor is on it, so is the region, and no character is
repeated behind the lines. -/
@[mk_iff] structure ProperFinal (t : Terminal) (ch : CodeUnit) (params : List Nat) : Prop where
  restore : ch.char = 'u' → t.savedY.getD 0 < t.rows
  region : ch.char = 'r' → t.parser.prefixText = [] → RegionOn params t
  repeated : ch.char = 'b' → ∀ x ∈ t.x, x ≤ t.cols

/-- The final character reports what it changes: it does not work on single cells, nor replace the screen. -/
@[mk_iff] structure LoudFinal (ch : CodeUnit) (params : List Nat) : Prop where
  cells : ch.char ∉ ['@', 'P', 'X', 'b']
  modes : ch.char ∈ ['h', 'l'] → ∀ p ∈ params, p ∉ screenModes

/-- The final character does not change the width. -/
@[mk_iff] structure KeepFinal (ch : CodeUnit) (params : List Nat) : Prop where
  columns : ch.char ∈ ['h', 'l'] → 3 ∉ params

/-- The final character does not go back to the normal screen. -/
@[mk_iff] structure StayFinal (ch : CodeUnit) (params : List Nat) : Prop where
  alternate : ch.char = 'l' → ∀ p ∈ params, p ∉ alternateModes

/-- What `csiFinal` is called with. -/
def args (t : Terminal) : List Nat := (t.parser.params ++ [t.parser.currentParam]).map Param.value

@[mk_iff] structure Proper (t : Terminal) (ch : CodeUnit) : Prop where
  restore : t.parser.state = .escaped → ch.char = '8' → t.savedY.getD 0 < t.rows
  final : t.parser.state = .csi → ProperFinal t ch t.args

@[mk_iff] structure Loud (t : Terminal) (ch : CodeUnit) : Prop where
  reverse : t.parser.state = .escaped → ch.char = 'M' → t.scrollTop ≤ t.y
  final : t.parser.state = .csi → LoudFinal ch t.args

@[mk_iff] structure Keep (t : Terminal) (ch : CodeUnit) : Prop where
  reset : t.parser.state = .escaped → ch.char ≠ 'c'
  final : t.parser.state = .csi → KeepFinal ch t.args

@[mk_iff] structure Stay (t : Terminal) (ch : CodeUnit) : Prop where
  final : t.parser.state = .csi → StayFinal ch t.args

/-- What a round can be relied on for. -/
def manner (t : Terminal) (ch : CodeUnit) : Manner where
  proper := t.Proper ch
  loud := t.Loud ch
  keep := t.Keep ch
  stay := t.Stay ch

instance (t : Terminal) (ch : CodeUnit) (params : List Nat) : Decidable (ProperFinal t ch params) :=
  decidable_of_iff _ (properFinal_iff ..).symm

instance (ch : CodeUnit) (params : List Nat) : Decidable (LoudFinal ch params) :=
  decidable_of_iff _ (loudFinal_iff ..).symm

instance (ch : CodeUnit) (params : List Nat) : Decidable (KeepFinal ch params) :=
  decidable_of_iff _ (keepFinal_iff ..).symm

instance (ch : CodeUnit) (params : List Nat) : Decidable (StayFinal ch params) :=
  decidable_of_iff _ (stayFinal_iff ..).symm

instance (t : Terminal) (ch : CodeUnit) : Decidable (t.Proper ch) := decidable_of_iff _ (proper_iff ..).symm

instance (t : Terminal) (ch : CodeUnit) : Decidable (t.Loud ch) := decidable_of_iff _ (loud_iff ..).symm

instance (t : Terminal) (ch : CodeUnit) : Decidable (t.Keep ch) := decidable_of_iff _ (keep_iff ..).symm

instance (t : Terminal) (ch : CodeUnit) : Decidable (t.Stay ch) := decidable_of_iff _ (stay_iff ..).symm

theorem reaches_csiFinal {t u : Terminal} {ch : CodeUnit} {params : List Nat} (hp : m.proper → ProperFinal t ch params)
    (hl : m.loud → LoudFinal ch params) (hk : m.keep → KeepFinal ch params)
    (hs : m.stay → StayFinal ch params) (h : csiFinal ch params t = some u) :
    ReflTransGen (Effect m) t u := by
  have hsilent : ch.char ∈ ['@', 'P', 'X', 'b'] → ¬ m.loud := fun hch hloud => (hl hloud).cells hch
  have hmodes : ch.char ∈ ['h', 'l'] → m.loud → ∀ p ∈ params, p ∉ screenModes := fun hch hloud => (hl hloud).modes hch
  have hrestore := fun h => (hp h).restore
  have hregion := fun h => (hp h).region
  have hrepeat := fun h => (hp h).repeated
  have hcolumns := fun h => (hk h).columns
  have halternate := fun h => (hs h).alternate
  revert h
  unfold csiFinal
  generalize ch.char = c at hsilent hmodes hrestore hregion hrepeat hcolumns halternate
  split
  all_goals intro h
  case h_1 | h_12 => cases h; exact .single (effect_up rfl)
  case h_2 | h_5 | h_11 | h_21 | h_22 => cases h; exact .single (effect_goRow rfl)
  case h_3 | h_19 => cases h; exact .single (.calm (view_goRight _ t))
  case h_6 => exact does_eraseInDisplay params t u h
  case h_7 => exact does_eraseInLine params t u h
  case h_8 => cases h; exact .single (.attr _ (.inr ⟨params, rfl⟩) rfl)
  case h_9 | h_20 => cases h; exact .single (.calm (view_reply _ t))
  case h_10 => exact reaches_insertChars (hsilent (by decide)) h
  case h_14 => exact does_insertLines params t u h
  case h_15 => exact does_deleteLines params t u h
  case h_16 => exact .single (reaches_deleteChars (hsilent (by decide)) h)
  case h_17 => exact reaches_eraseChars (hsilent (by decide)) h
  case h_23 => cases h; exact .single (effect_goRow (y := count params - 1) (view_HVPosition params t))
  case h_24 => exact does_setMode (hmodes (by decide)) (fun h => hcolumns h (by decide)) t u h
  case h_25 =>
    exact does_resetMode (hmodes (by decide)) (fun h => hcolumns h (by decide)) (fun h => halternate h rfl) t u h
  case h_26 => cases h; exact reaches_setScrollRegion params fun h => hregion h rfl
  case h_28 => cases h; exact .single (reaches_restoreCursor fun h => hrestore h rfl)
  case h_30 => exact does_scrollUp params t u h
  case h_31 =>
    dsimp only at h
    split at h
    · exact does_scrollDown params t u h
    · cases h; exact .refl
  case h_33 => exact .single (reaches_repeat (hsilent (by decide)) (fun h => hrepeat h rfl) h)
  case h_34 => cases h; exact .single (.calm (view_tabClear params t))
  case h_35 =>
    dsimp only at h
    split at h
    · cases h; exact reaches_softReset t
    · cases h; exact .refl
  all_goals cases h; exact .single (.calm rfl)

/-! ## The parser -/

theorem reaches_calm {t u v : Terminal} (h : ReflTransGen (Effect m) t u) (hv : v.view = u.view) :
    ReflTransGen (Effect m) t v := .tail h (.calm hv)

theorem does_normalState (ch : CodeUnit) : Does (Effect m) (normalState ch) := by
  unfold normalState
  split
  case h_2 | h_3 | h_4 =>
    intro t u h
    cases h
    have hcalm : Effect m t { t with x := if t.modes.convertEol then some 0 else t.x } := .calm rfl
    exact .head hcalm (.single (reaches_nextRow _))
  case h_11 =>
    split
    · exact does_print ch
    · exact .some
  all_goals first
    | exact .some
    | exact .single fun _ => .calm rfl

theorem view_charsetState (ch : CodeUnit) (t : Terminal) : (t.charsetState ch).1.view = t.view := by
  unfold charsetState
  cases t.charsets.gcharset <;> rfl

theorem reaches_escapedState {t u : Terminal} {skip : Bool} {ch : CodeUnit}
    (hp : m.proper → ch.char = '8' → t.savedY.getD 0 < t.rows) (hl : m.loud → ch.char = 'M' → t.scrollTop ≤ t.y)
    (hk : m.keep → ch.char ≠ 'c') (h : escapedState ch t = some (u, skip)) : ReflTransGen (Effect m) t u := by
  revert h
  unfold escapedState
  generalize ch.char = c at hp hl hk
  split
  all_goals intro h
  case h_6 =>
    obtain ⟨v, hv, heq⟩ := Option.map_eq_some_iff.1 h
    cases heq
    exact .single (.reset u (fun h => hk h rfl) hv rfl)
  case h_7 =>
    cases h
    have hcalm : Effect m t { t with x := some 0 } := .calm rfl
    exact reaches_calm (.head hcalm (.single (reaches_nextRow _))) rfl
  case h_8 => cases h; exact reaches_calm (.single (reaches_nextRow t)) rfl
  case h_9 => cases h; exact .single (reaches_reverseIndex fun h => hl h rfl)
  case h_17 =>
    have hu : (((t.designate (some 3)).toState .charset).charsetState ch).1 = u :=
      congrArg Prod.fst (Option.some.inj h)
    rw [← hu]
    exact .single (.calm (view_charsetState _ _))
  case h_26 => cases h; exact reaches_calm (.single (reaches_restoreCursor fun h => hp h rfl)) rfl
  all_goals cases h; exact .single (.calm rfl)

theorem view_oscState (ch : CodeUnit) (t : Terminal) : (t.oscState ch).1.view = t.view := by
  unfold oscState
  split
  · unfold oscEnd
    cases titleOf (t.parser.params ++ [t.parser.currentParam]) <;> rfl
  · unfold oscText
    split
    · cases digit ch with
      | some d => rfl
      | none =>
        dsimp only
        split <;> rfl
    · rfl

theorem view_dcsState (ch : CodeUnit) (t : Terminal) : (t.dcsState ch).1.view = t.view := by
  unfold dcsState
  split
  · simp only [dcsEnd, view_toState, view_affixes, view_setParam, view_reply]
  · unfold dcsText
    split_ifs <;> rfl

theorem view_ignoreState (ch : CodeUnit) (t : Terminal) : (t.ignoreState ch).1.view = t.view := by
  unfold ignoreState
  split <;> rfl

theorem reaches_csiEnd {t u : Terminal} {ch : CodeUnit} (hp : m.proper → ProperFinal t ch t.args)
    (hl : m.loud → LoudFinal ch t.args) (hk : m.keep → KeepFinal ch t.args)
    (hs : m.stay → StayFinal ch t.args) (h : csiEnd ch t = some u) :
    ReflTransGen (Effect m) t u := by
  obtain ⟨v, hv, rfl⟩ := Option.map_eq_some_iff.1 h
  have hcalm : Effect m t ((t.pushParam (.number 0)).toState .normal) := .calm rfl
  have hp' : m.proper → ProperFinal ((t.pushParam (.number 0)).toState .normal) ch t.args := fun h =>
    ⟨(hp h).restore, (hp h).region, (hp h).repeated⟩
  exact reaches_calm (.head hcalm (reaches_csiFinal hp' hl hk hs hv)) rfl

theorem reaches_csiState {t u : Terminal} {ch : CodeUnit} (hp : m.proper → ProperFinal t ch t.args)
    (hl : m.loud → LoudFinal ch t.args) (hk : m.keep → KeepFinal ch t.args)
    (hs : m.stay → StayFinal ch t.args) (h : csiState ch t = some u) :
    ReflTransGen (Effect m) t u := by
  revert h
  unfold csiState
  split
  · intro h; cases h; exact .single (.calm rfl)
  · cases digit ch with
    | some d => intro h; cases h; exact .single (.calm rfl)
    | none =>
      dsimp only
      split
      · intro h; cases h; exact .single (.calm rfl)
      · split
        · intro h; cases h; exact .single (.calm rfl)
        · exact reaches_csiEnd hp hl hk hs

/-- What a round of the parser does to the screen. -/
theorem reaches_round {t : Terminal} {p : Terminal × Bool} {ch : CodeUnit} (h : t.round ch = some p) :
    ReflTransGen (Effect (manner t ch)) t p.1 := by
  obtain ⟨u, skip⟩ := p
  unfold round at h
  split at h
  all_goals rename_i hstate
  case h_1 =>
    obtain ⟨v, hv, heq⟩ := Option.map_eq_some_iff.1 h
    cases heq
    exact does_normalState ch t u hv
  case h_2 =>
    exact reaches_escapedState (fun h => h.restore hstate) (fun h => h.reverse hstate) (fun h => h.reset hstate) h
  case h_3 =>
    have hu : (t.charsetState ch).1 = u := congrArg Prod.fst (Option.some.inj h)
    rw [← hu]
    exact .single (.calm (view_charsetState ch t))
  case h_4 =>
    have hu : (t.oscState ch).1 = u := congrArg Prod.fst (Option.some.inj h)
    rw [← hu]
    exact .single (.calm (view_oscState ch t))
  case h_5 =>
    obtain ⟨v, hv, heq⟩ := Option.map_eq_some_iff.1 h
    cases heq
    exact reaches_csiState (fun h => h.final hstate) (fun h => h.final hstate) (fun h => h.final hstate)
      (fun h => h.final hstate) hv
  case h_6 =>
    have hu : (t.dcsState ch).1 = u := congrArg Prod.fst (Option.some.inj h)
    rw [← hu]
    exact .single (.calm (view_dcsState ch t))
  case h_7 =>
    have hu : (t.ignoreState ch).1 = u := congrArg Prod.fst (Option.some.inj h)
    rw [← hu]
    exact .single (.calm (view_ignoreState ch t))

/-- A round, which may be passed over. -/
theorem parse_reaches {p q : Terminal × Bool} {ch : CodeUnit} (h : parse p ch = some q) :
    ReflTransGen (Effect (p.1.manner ch)) p.1 q.1 := by
  obtain ⟨t, skip⟩ := p
  cases skip with
  | true =>
    cases h
    exact .refl
  | false => exact reaches_round h

end Tangle.Term.Terminal
