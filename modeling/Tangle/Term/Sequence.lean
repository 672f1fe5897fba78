/-
Sequences that programs send, as they are written down: a control sequence is a prefix, some numbers and a
final character, and a title is a number and a text. The parser reads from them what they were written
from.
-/
import Tangle.Term.Write

namespace Tangle.Term.Terminal

open Machine

/-! ## Numbers -/

theorem toNat_unit {c : Char} (h : c.isDigit = true) : c.toNat.toUInt16.toNat = c.toNat := by
  have hle : c.toNat ≤ 57 := by
    have := (Bool.and_eq_true_iff.1 h).2
    exact of_decide_eq_true this
  rw [Nat.toUInt16_eq, UInt16.toNat_ofNat_of_lt' (by show c.toNat < 2 ^ 16; omega)]

theorem char_unit {c : Char} (h : c.isDigit = true) : CodeUnit.char c.toNat.toUInt16 = c := by
  rw [CodeUnit.char, toNat_unit h, Char.ofNat_toNat]

theorem utf16_digit {c : Char} (h : c.isDigit = true) : utf16 c = [c.toNat.toUInt16] := by
  have hle : c.toNat ≤ 57 := by
    have := (Bool.and_eq_true_iff.1 h).2
    exact of_decide_eq_true this
  rw [utf16, if_pos (by omega)]

theorem digit_unit {c : Char} (h : c.isDigit = true) : digit c.toNat.toUInt16 = some (c.toNat - 48) := by
  have hge : 48 ≤ c.toNat := of_decide_eq_true (Bool.and_eq_true_iff.1 h).1
  have hle : c.toNat ≤ 57 := of_decide_eq_true (Bool.and_eq_true_iff.1 h).2
  have hn := toNat_unit h
  rw [digit, if_pos, hn]
  constructor
  · rw [UInt16.le_iff_toNat_le, hn]
    exact hge
  · rw [UInt16.le_iff_toNat_le, hn]
    exact hle

/-- `n` in decimal. -/
def decimal (n : Nat) : List CodeUnit := units n.repr

/-! ## Control sequences -/

/-- Numbers with a semicolon between them. -/
def numbers : List Nat → List CodeUnit
  | [] => []
  | n :: params => decimal n ++ params.flatMap fun n => 0x3b :: decimal n

/-- `CSI`, a prefix, numbers and a final character. -/
def control (before : List CodeUnit) (params : List Nat) (final : CodeUnit) : List CodeUnit :=
  0x1b :: 0x5b :: (before ++ (numbers params ++ [final]))

/-- Without a number, 0 is read. -/
def readParams : List Nat → List Nat
  | [] => [0]
  | params => params

/-- A prefix is one character, if any. -/
def IsPrefix (before : List CodeUnit) : Prop := before = [] ∨ ∃ ch, before = [ch] ∧ ch.char ∈ ['?', '>', '!']

/-- A character that ends a control sequence. -/
def Final (ch : CodeUnit) : Prop := digit ch = none ∧ ch.char ∉ ['?', '>', '!', '$', '"', ' ', '\'', ';']

instance (ch : CodeUnit) : Decidable (Final ch) := inferInstanceAs (Decidable (_ ∧ _))

theorem csiState_digit {c : Char} (h : c.isDigit = true) (t : Terminal) :
    csiState c.toNat.toUInt16 t = some (t.setParam (t.parser.currentParam.digit (c.toNat - 48))) := by
  have hne : ¬ (c = '?' ∨ c = '>' ∨ c = '!') := by
    rintro (rfl | rfl | rfl) <;> exact absurd h (by decide)
  unfold csiState
  rw [char_unit h, if_neg hne, digit_unit h]

theorem parse_csi {t : Terminal} (h : t.parser.state = .csi) (ch : CodeUnit) :
    parse (t, false) ch = (csiState ch t).map fun t => (t, false) := by
  show t.round ch = _
  rw [round, h]

/-- Digits are read behind the number so far, where the state is one that reads them. -/
theorem parse_digits {P : Terminal → Prop} (hP : ∀ t p, P t → P (t.setParam p))
    (hstep : ∀ (t : Terminal) (c : Char), P t → c.isDigit = true → parse (t, false) c.toNat.toUInt16 =
      some (t.setParam (t.parser.currentParam.digit (c.toNat - 48)), false)) :
    ∀ {l : List Char} {t : Terminal} {m : Nat}, (∀ c ∈ l, c.isDigit = true) → P t →
      t.parser.currentParam = .number m →
      exec parse (t, false) (l.flatMap utf16) = some (t.setParam (.number (Nat.ofDigitChars 10 l m)), false)
  | [], t, m, _, _, hm => by
    rw [List.flatMap_nil, exec_nil, Nat.ofDigitChars_nil, ← hm]
    rfl
  | c :: l, t, m, hl, hs, hm => by
    have hc := hl c List.mem_cons_self
    have hrest := parse_digits hP hstep (l := l) (t := t.setParam (.number (m * 10 + (c.toNat - 48))))
      (fun c h => hl c (List.mem_cons_of_mem _ h)) (hP _ _ hs) rfl
    rw [List.flatMap_cons, utf16_digit hc, List.singleton_append, exec_cons_of (hstep t c hs hc), hm, Param.digit, hrest,
      Nat.ofDigitChars_cons, Nat.mul_comm m]
    rfl

theorem parse_decimal {P : Terminal → Prop} (hP : ∀ t p, P t → P (t.setParam p))
    (hstep : ∀ (t : Terminal) (c : Char), P t → c.isDigit = true → parse (t, false) c.toNat.toUInt16 =
      some (t.setParam (t.parser.currentParam.digit (c.toNat - 48)), false)) {t : Terminal} (n : Nat) (hs : P t)
    (h0 : t.parser.currentParam = .number 0) :
    exec parse (t, false) (decimal n) = some (t.setParam (.number n), false) := by
  have hdigits := parse_digits hP hstep (l := Nat.toDigits 10 n)
    (fun c hc => Nat.isDigit_of_mem_toDigits (by decide) (by decide) hc) hs h0
  rw [Nat.ofDigitChars_ten_toDigits] at hdigits
  rw [decimal, units, Nat.toList_repr]
  exact hdigits

theorem parse_csi_decimal {t : Terminal} (n : Nat) (hs : t.parser.state = .csi)
    (h0 : t.parser.currentParam = .number 0) :
    exec parse (t, false) (decimal n) = some (t.setParam (.number n), false) := by
  refine parse_decimal (P := fun t => t.parser.state = .csi) (fun _ _ hs => hs) (fun t c hs hc => ?_) n hs h0
  rw [parse_csi hs, csiState_digit hc]
  rfl

/-- What comes behind a first number. -/
theorem parse_params : ∀ {params : List Nat} {t : Terminal}, t.parser.state = .csi →
    ∃ u, exec parse (t, false) (params.flatMap fun n => 0x3b :: decimal n) = some (u, false) ∧ u.parser.state = .csi ∧
      u.pushParam (.number 0) = { t with parser := { t.parser with
        params := t.parser.params ++ t.parser.currentParam :: params.map .number, currentParam := .number 0 } }
  | [], t, hs => ⟨t, rfl, hs, rfl⟩
  | n :: params, t, hs => by
    have hn := parse_csi_decimal (t := t.pushParam (.number 0)) n hs rfl
    obtain ⟨u, hu, hsu, hpush⟩ := parse_params (t := (t.pushParam (.number 0)).setParam (.number n)) hs
    refine ⟨u, ?_, hsu, hpush.trans ?_⟩
    · rw [List.flatMap_cons, List.cons_append, exec, parse_csi hs]
      exact exec_append.2 ⟨_, hn, hu⟩
    · show ({ t with parser := _ } : Terminal) = { t with parser := _ }
      simp [pushParam, setParam]

theorem parse_numbers (params : List Nat) {t : Terminal} (hs : t.parser.state = .csi)
    (h0 : t.parser.currentParam = .number 0) :
    ∃ u, exec parse (t, false) (numbers params) = some (u, false) ∧ u.parser.state = .csi ∧
      u.pushParam (.number 0) = { t with parser := { t.parser with
        params := t.parser.params ++ (readParams params).map .number, currentParam := .number 0 } } := by
  cases params with
  | nil =>
    refine ⟨t, rfl, hs, ?_⟩
    rw [pushParam, h0]
    rfl
  | cons n params =>
    obtain ⟨u, hu, hsu, hpush⟩ := parse_params (t := t.setParam (.number n)) hs
    exact ⟨u, exec_append.2 ⟨_, parse_csi_decimal n hs h0, hu⟩, hsu, hpush⟩

theorem csiState_final {ch : CodeUnit} (h : Final ch) : csiState ch = csiEnd ch := by
  obtain ⟨hd, hch⟩ := h
  simp only [List.mem_cons, List.not_mem_nil, or_false, not_or] at hch
  obtain ⟨h1, h2, h3, h4, h5, h6, h7, h8⟩ := hch
  unfold csiState
  rw [if_neg (by simp only [h1, h2, h3, or_self, not_false_eq_true]), hd]
  dsimp only
  rw [if_neg (by simp only [h4, h5, h6, h7, or_self, not_false_eq_true]), if_neg h8]

/-- The terminal that the function of a final character is called on. -/
def called (before : List CodeUnit) (params : List Nat) (t : Terminal) : Terminal :=
  { t with parser := { t.parser with
      params := params.map .number, currentParam := .number 0, prefixText := before } }

theorem parse_affix {before : List CodeUnit} (hb : IsPrefix before) {t : Terminal} (hs : t.parser.state = .csi)
    (haffix : t.parser.prefixText = []) :
    exec parse (t, false) before = some (t.affixes before t.parser.postfixText, false) := by
  rcases hb with rfl | ⟨ch, rfl, hch⟩
  · rw [exec_nil, ← haffix]
    rfl
  · have hstate : csiState ch t = some (t.affixes [ch] t.parser.postfixText) := by
      unfold csiState
      rw [if_pos]
      simpa using hch
    rw [exec_singleton, parse_csi hs, hstate]
    rfl

/-- A control sequence calls the function of its final character with its numbers, and leaves no prefix behind. -/
theorem parse_control {before : List CodeUnit} (hb : IsPrefix before) (params : List Nat) {f : CodeUnit}
    (hf : Final f) {t : Terminal} (hs : t.parser.state = .normal) (haffix : t.parser.prefixText = []) :
    exec parse (t, false) (control before params f) =
      (csiFinal f (readParams params) (t.called before (readParams params))).map
        fun u => (u.affixes [] [], false) := by
  have hesc : parse (t, false) 0x1b = some (t.toState .escaped, false) := by
    show t.round 0x1b = _
    rw [round, hs]
    rfl
  have hbracket : parse (t.toState .escaped, false) 0x5b = some (clearParams .csi (t.toState .escaped), false) := rfl
  have hbefore : exec parse (clearParams .csi (t.toState .escaped), false) before =
      some ((clearParams .csi (t.toState .escaped)).affixes before t.parser.postfixText, false) :=
    parse_affix hb rfl haffix
  obtain ⟨u, hu, hsu, hpush⟩ := parse_numbers params
    (t := (clearParams .csi (t.toState .escaped)).affixes before t.parser.postfixText) rfl rfl
  have hcalled : (u.pushParam (.number 0)).toState .normal = t.called before (readParams params) := by
    rw [hpush, called, ← hs]
    rfl
  have hvalues : (t.called before (readParams params)).parser.params.map Param.value = readParams params := by
    show ((readParams params).map Param.number).map Param.value = _
    rw [List.map_map]
    exact List.map_id _
  have hend : parse (u, false) f = (csiFinal f (readParams params) (t.called before (readParams params))).map
      fun u => (u.affixes [] [], false) := by
    rw [parse_csi hsu, csiState_final hf, csiEnd, hcalled, hvalues, Option.map_map]
    rfl
  rw [control, exec_cons_of hesc, exec_cons_of hbracket, exec_append_of hbefore, exec_append_of hu, exec, hend]
  cases csiFinal f (readParams params) (t.called before (readParams params)) <;> rfl

/-! ## Titles -/

/-- `OSC`, a number, a semicolon, a text and `BEL`. -/
def command (n : Nat) (text : List CodeUnit) : List CodeUnit :=
  0x1b :: 0x5d :: (decimal n ++ 0x3b :: (text ++ [0x07]))

theorem parse_osc {t : Terminal} (h : t.parser.state = .osc) (ch : CodeUnit) :
    parse (t, false) ch = some (oscState ch t) := by
  show t.round ch = _
  rw [round, h]

theorem not_ends_digit {c : Char} (h : c.isDigit = true) : ¬ Ends c.toNat.toUInt16 := by
  rw [Ends, char_unit h]
  rintro (rfl | rfl) <;> exact absurd h (by decide)

theorem parse_osc_decimal {t : Terminal} (n : Nat) (hs : t.parser.state = .osc ∧ t.parser.params = [])
    (h0 : t.parser.currentParam = .number 0) :
    exec parse (t, false) (decimal n) = some (t.setParam (.number n), false) := by
  refine parse_decimal (P := fun t => t.parser.state = .osc ∧ t.parser.params = []) (fun _ _ hs => hs)
    (fun t c hs hc => ?_) n hs h0
  rw [parse_osc hs.1, oscState, if_neg (not_ends_digit hc), oscText, if_pos hs.2, digit_unit hc]

/-- Behind the number everything but an end is text. -/
theorem parse_text : ∀ {text : List CodeUnit} {t : Terminal} {s : List CodeUnit}, (∀ c ∈ text, ¬ Ends c) →
    t.parser.state = .osc → t.parser.params ≠ [] → t.parser.currentParam = .text s →
    exec parse (t, false) text = some (t.setParam (.text (s ++ text)), false)
  | [], t, s, _, _, _, hs => by
    rw [exec_nil, List.append_nil, ← hs]
    rfl
  | c :: text, t, s, htext, hstate, hparams, hs => by
    have hc := htext c List.mem_cons_self
    have hstep : parse (t, false) c = some (t.setParam (.text (s ++ [c])), false) := by
      rw [parse_osc hstate, oscState, if_neg hc, oscText, if_neg hparams, hs]
      rfl
    have hrest := parse_text (t := t.setParam (.text (s ++ [c])))
      (fun c h => htext c (List.mem_cons_of_mem _ h)) hstate hparams rfl
    rw [exec_cons_of hstep, hrest, List.append_assoc]
    rfl

theorem oscEnd_command (n : Nat) (text : List CodeUnit) (t : Terminal) :
    { t with parser := { t.parser with state := .osc, params := [.number n], currentParam := .text text } }.oscEnd =
      (if n ≤ 2 ∧ text ≠ [] then t.setTitle text else t).clearParams .normal := by
  have htitle : titleOf [.number n, .text text] = if n ≤ 2 ∧ text ≠ [] then some text else none := rfl
  show clearParams .normal ((titleOf [.number n, .text text]).elim _ _) = _
  rw [htitle]
  split <;> rfl

/-- A command sets the title to its text where it has a number from 0 to 2 and a text, and nothing else. -/
theorem parse_command (n : Nat) {text : List CodeUnit} (htext : ∀ c ∈ text, ¬ Ends c) {t : Terminal}
    (hs : t.parser.state = .normal) : exec parse (t, false) (command n text) =
      some ((if n ≤ 2 ∧ text ≠ [] then t.setTitle text else t).clearParams .normal, false) := by
  have hesc : parse (t, false) 0x1b = some (t.toState .escaped, false) := by
    show t.round 0x1b = _
    rw [round, hs]
    rfl
  have hbracket : parse (t.toState .escaped, false) 0x5d = some (clearParams .osc (t.toState .escaped), false) := rfl
  have hn := parse_osc_decimal (t := clearParams .osc (t.toState .escaped)) n ⟨rfl, rfl⟩ rfl
  have hsemicolon : parse ((clearParams .osc (t.toState .escaped)).setParam (.number n), false) 0x3b =
      some (((clearParams .osc (t.toState .escaped)).setParam (.number n)).pushParam (.text []), false) := rfl
  have hread := parse_text (t := ((clearParams .osc (t.toState .escaped)).setParam (.number n)).pushParam (.text []))
    htext rfl (List.cons_ne_nil _ _) rfl
  rw [command, exec_cons_of hesc, exec_cons_of hbracket, exec_append_of hn, exec_cons_of hsemicolon, exec_append_of hread,
    List.nil_append, exec_singleton]
  have hv : (((clearParams .osc (t.toState .escaped)).setParam (.number n)).pushParam (.text [])).setParam (.text text) =
      { t with parser := { t.parser with state := .osc, params := [.number n], currentParam := .text text } } := by
    simp only [setParam, pushParam, clearParams, toState, List.nil_append]
  rw [hv, parse_osc rfl]
  exact congrArg (fun u => some (u, false)) (oscEnd_command n text t)

end Tangle.Term.Terminal
