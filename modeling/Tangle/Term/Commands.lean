/-
What a program prints, as a list of commands: characters, escapes, control sequences and titles. The parser
performs the commands that are spelled out, one after the other. Between two of them it is where it was at
the start, and so how a command is read does not depend on those before it.
-/
import Tangle.Term.Run
import Tangle.Term.Sequence

namespace Tangle.Term.Terminal

open Machine Effects

/-! ## Functions leave the parser alone

But for a reset, which constructs it again. -/

/-- A parser that has read nothing. -/
def fresh : Parser :=
  { state := .normal, params := [], currentParam := .number 0, prefixText := [], postfixText := [] }

/-- The parser is as it was or fresh. -/
def Quiet (t u : Terminal) : Prop := u.parser = t.parser ∨ u.parser = fresh

theorem quiet_of {f : Terminal → Terminal} (h : ∀ t, (f t).parser = t.parser) : Does Quiet (some ∘ f) :=
  .single fun t => .inl (h t)

theorem Quiet.idle {t u : Terminal} (h : Idle t u) : Quiet t u := by
  obtain ⟨ydisp, cursorState, page, out, rfl⟩ := h
  exact .inl rfl

theorem quiet_reset : Does Quiet reset := by
  intro t u h
  have hidle := idle_refresh h
  obtain ⟨ydisp, cursorState, page, out, rfl⟩ := hidle
  exact .single (.inr rfl)

theorem quiet_showCursor : Does Quiet showCursor := fun _ _ h => .single (.idle (idle_showCursor h))

theorem quiet_refresh (a b : Nat) : Does Quiet (refresh a b) := fun _ _ h => .single (.idle (idle_refresh h))

theorem quiet_resize (x y : Nat) : Does Quiet (resize x y) := by
  intro t u h
  obtain ⟨v, hv, rfl⟩ := Option.map_eq_some_iff.1 h
  obtain ⟨ydisp, cursorState, page, out, rfl⟩ := idle_refresh hv
  exact .single (.inl rfl)

theorem Quiet.of_onLine {t u : Terminal} {y : Nat} {f : Line → Line} (h : t.onLine y f = some u) : Quiet t u := by
  rw [onLine_eq_some h]
  exact .inl rfl

theorem quiet_eraseRight (x : Option Nat) (y : Nat) : Does Quiet (eraseRight x y) := by
  intro t u h
  obtain ⟨v, hv, rfl⟩ := Option.map_eq_some_iff.1 h
  cases x with
  | none =>
    cases hv
    exact .single (.inl rfl)
  | some x =>
    rw [Option.elim_some] at hv
    split at hv
    · have hline : Quiet t v := .of_onLine hv
      exact .single hline
    · cases hv
      exact .single (.inl rfl)

theorem quiet_eraseLeft (x : Option Nat) (y : Nat) : Does Quiet (eraseLeft x y) := by
  intro t u h
  obtain ⟨v, hv, rfl⟩ := Option.map_eq_some_iff.1 h
  cases x with
  | none =>
    cases hv
    exact .single (.inl rfl)
  | some x =>
    have hline : Quiet t v := .of_onLine hv
    exact .single hline

theorem quiet_eraseLines (l : List Nat) : Does Quiet fun t => l.foldlM (fun t j => t.eraseLine j) t :=
  .foldlM fun j _ => quiet_eraseRight (some 0) j

theorem quiet_eraseInDisplay (params : List Nat) : Does Quiet (eraseInDisplay params) := by
  unfold eraseInDisplay
  split
  · exact .bind (fun t => quiet_eraseRight t.x t.y t) fun t => quiet_eraseLines _ t
  · exact .bind (fun t => quiet_eraseLeft t.x t.y t) fun t => quiet_eraseLines _ t
  · exact fun t => quiet_eraseLines _ t
  · exact .some

theorem quiet_eraseInLine (params : List Nat) : Does Quiet (eraseInLine params) := by
  unfold eraseInLine
  split
  · exact fun t => quiet_eraseRight t.x t.y t
  · exact fun t => quiet_eraseLeft t.x t.y t
  · exact fun t => quiet_eraseRight (some 0) t.y t
  · exact .some

theorem quiet_alternate (normal : Saved) : Does Quiet (alternate normal) :=
  .bind (.map quiet_reset fun _ => .single (.inl rfl)) quiet_showCursor

theorem quiet_enterAlternate : Does Quiet enterAlternate := .ite .some fun t => quiet_alternate t.saved t

theorem quiet_leaveAlternate : Does Quiet leaveAlternate := by
  intro t u h
  unfold leaveAlternate at h
  cases hn : t.normal with
  | none =>
    rw [hn] at h
    cases h
    exact .refl
  | some normal =>
    rw [hn] at h
    have hdraw := (quiet_refresh 0 (t.rows - 1)).bind quiet_showCursor
    have hrestore : Quiet t (t.restore normal) := .inl rfl
    exact .head hrestore (hdraw (t.restore normal) u h)

theorem parser_setgCharset (g : Nat) (charset : Option Charset) (t : Terminal) :
    (t.setgCharset g charset).parser = t.parser := rfl

theorem quiet_setPrivateMode (p : Nat) : Does Quiet (setPrivateMode p) := by
  unfold setPrivateMode
  split
  case h_2 => exact quiet_of fun t => by simp only [Function.comp_apply, parser_setgCharset]
  case h_3 =>
    intro t u h
    have hsaved : Quiet t { t with savedCols := some t.cols } := .inl rfl
    exact .head hsaved (quiet_resize 132 t.rows _ u h)
  case h_15 | h_16 | h_17 => exact quiet_enterAlternate
  case h_18 => exact .some
  all_goals exact quiet_of fun _ => rfl

theorem quiet_resetPrivateMode (p : Nat) : Does Quiet (resetPrivateMode p) := by
  unfold resetPrivateMode
  split
  case h_2 =>
    refine .map (.ite ?_ .some) fun _ => .single (.inl rfl)
    exact fun t => quiet_resize (t.savedCols.getD 0) t.rows t
  case h_14 | h_15 | h_16 => exact quiet_leaveAlternate
  case h_17 => exact .some
  all_goals exact quiet_of fun _ => rfl

theorem quiet_mode {p : Nat} {on : Bool} {f : Terminal → Option Terminal} (hf : Does Quiet f) :
    Does Quiet fun t =>
      if t.parser.prefixText = [] then some (if p = 4 then t.withModes ({ · with insertMode := on }) else t)
      else if t.parser.prefixText = units "?" then f t else some t := by
  refine .ite (.single fun t => ?_) (.ite hf .some)
  split <;> exact .inl rfl

theorem quiet_csiFinal (ch : CodeUnit) (params : List Nat) : Does Quiet (csiFinal ch params) := by
  have hline : ∀ (f : Terminal → Line → Line), Does Quiet fun t => t.onLine t.y (f t) := fun f t u h =>
    .single (.of_onLine h)
  have hreply : ∀ (data : Option (List CodeUnit)) (t : Terminal), (t.reply data).parser = t.parser := fun data t => by
    cases data <;> rfl
  have hright : ∀ (n : Nat) (t : Terminal), (t.goRight n).parser = t.parser := fun n t => by
    unfold goRight
    cases t.x <;> rfl
  have hcolumn : ∀ {f : Nat → Terminal → Option Terminal}, (∀ x, Does Quiet (f x)) →
      Does Quiet fun t => t.x.elim (some t) fun x => f x t := by
    intro f hf t u h
    dsimp only at h
    cases hx : t.x with
    | none =>
      rw [hx] at h
      cases h
      exact .refl
    | some x =>
      rw [hx] at h
      exact hf x t u h
  unfold csiFinal
  generalize ch.char = c
  split
  case h_6 => exact quiet_eraseInDisplay params
  case h_7 => exact quiet_eraseInLine params
  case h_8 => exact .single fun t => .inl rfl
  case h_9 | h_20 => exact quiet_of fun t => hreply _ t
  case h_3 | h_19 => exact quiet_of fun t => hright _ t
  case h_10 => exact hcolumn fun x => .ite (hline _) .some
  case h_16 => exact hline _
  case h_17 => exact hcolumn fun x => .ite (hline _) .some
  case h_23 =>
    refine quiet_of fun t => ?_
    unfold HVPosition
    cases params[1]? <;> rfl
  case h_24 => exact .foldlM fun p _ => quiet_mode (quiet_setPrivateMode p)
  case h_25 => exact .foldlM fun p _ => quiet_mode (quiet_resetPrivateMode p)
  case h_26 =>
    refine quiet_of fun t => ?_
    dsimp only [setScrollRegion]
    split <;> rfl
  case h_31 => exact .ite (.single fun t => .inl rfl) .some
  case h_33 => exact .map (hline _) fun _ => .single (.inl rfl)
  case h_34 =>
    refine quiet_of fun t => ?_
    unfold tabClear
    split_ifs <;> rfl
  case h_35 => exact .ite (.single fun t => .inl rfl) .some
  case h_36 => exact .some
  all_goals exact quiet_of fun _ => rfl

theorem parser_scroll (t : Terminal) : t.scroll.parser = t.parser := rfl

theorem parser_nextRow (t : Terminal) : t.nextRow.parser = t.parser := by
  unfold nextRow
  split
  · exact parser_scroll t
  · rfl

theorem quiet_print (ch : CodeUnit) : Does Quiet (print ch) := by
  intro t u h
  have hwrap : t.wrap.parser = t.parser := by
    cases hx : t.x with
    | none => rw [wrap_of_none hx]
    | some x =>
      rw [wrap_of_some hx]
      split
      · exact parser_nextRow _
      · rfl
  obtain ⟨v, hv, rfl⟩ := Option.map_eq_some_iff.1 h
  have hline : Quiet t.wrap v := .of_onLine hv
  rw [Quiet, hwrap] at hline
  exact .single hline

/-- A character other than an escape. -/
theorem quiet_normalState {ch : CodeUnit} (h : ch.char ≠ '\x1b') : Does Quiet (normalState ch) := by
  unfold normalState
  generalize ch.char = c at h
  split
  case h_10 => exact absurd rfl h
  case h_11 =>
    split
    · exact quiet_print ch
    · exact .some
  case h_1 => exact .some
  case h_2 | h_3 | h_4 => exact .single fun t => .inl (parser_nextRow _)
  all_goals exact .single fun t => .inl rfl

theorem parser_index (t : Terminal) : t.index.parser = { t.parser with state := .normal } := by
  show { t.nextRow.parser with state := .normal } = _
  rw [parser_nextRow]

theorem parser_reverseIndex (t : Terminal) : t.reverseIndex.parser = { t.parser with state := .normal } := by
  unfold reverseIndex
  dsimp only
  split <;> rfl

/-! ## Commands -/

/-- A character, an escape of one character, a character set for one of the four, a control sequence and a
command with a title. -/
inductive Command
  | char (ch : CodeUnit)
  | escape (ch : CodeUnit)
  | charset (g ch : CodeUnit)
  | control (before : List CodeUnit) (params : List Nat) (f : CodeUnit)
  | osc (n : Nat) (text : List CodeUnit)

namespace Command

def spell : Command → List CodeUnit
  | char ch => [ch]
  | escape ch => [0x1b, ch]
  | charset g ch => [0x1b, g, ch]
  | control before params f => Terminal.control before params f
  | osc n text => command n text

/-- The escapes that are over with their character. -/
def Whole (ch : CodeUnit) : Prop := ch.char ∈ ['c', 'E', 'D', 'M', '7', '8', 'H', '=', '>']

instance (ch : CodeUnit) : Decidable (Whole ch) := inferInstanceAs (Decidable (_ ∈ _))

/-- The set that an escape designates. -/
def setOf (g : CodeUnit) : Option Nat :=
  match g.char with
  | '(' => some 0
  | ')' | '-' => some 1
  | '*' | '.' => some 2
  | '+' => some 3
  | _ => none

/-- What can be spelled. -/
def Valid : Command → Prop
  | char ch => ch.char ≠ '\x1b'
  | escape ch => Whole ch
  | charset g ch => (setOf g).isSome ∧ ch.char ≠ '/'
  | control before _ f => IsPrefix before ∧ Final f
  | osc _ text => ∀ c ∈ text, ¬ Ends c

def performEscape (ch : CodeUnit) : Terminal → Option Terminal :=
  match ch.char with
  | 'c' => reset
  | 'E' => fun t => some { t with x := some 0 }.index
  | 'D' => some ∘ index
  | 'M' => some ∘ reverseIndex
  | '7' => some ∘ saveCursor
  | '8' => some ∘ restoreCursor
  | 'H' => some ∘ tabSet
  | '=' => some ∘ withModes ({ · with applicationKeypad := true })
  | '>' => some ∘ withModes ({ · with applicationKeypad := false })
  | _ => some

/-- What a command does, without a parser. A control sequence leaves its numbers behind, and a command with a
title nothing. -/
def perform (t : Terminal) : Command → Option Terminal
  | char ch => normalState ch t
  | escape ch => performEscape ch t
  | charset g ch => some (((setOf g).elim t fun g => t.setgCharset g (charsetOf ch)).designate none)
  | control before params f =>
    (csiFinal f (readParams params) (t.called before (readParams params))).map (affixes [] [])
  | osc n text => some ((if n ≤ 2 ∧ text ≠ [] then t.setTitle text else t).clearParams .normal)

end Command

/-- Between two commands. -/
structure Ready (t : Terminal) : Prop where
  state : t.parser.state = .normal
  prefixText : t.parser.prefixText = []

theorem Ready.of_parser {t u : Terminal} (hr : t.Ready) (h : u.parser = t.parser) : u.Ready :=
  ⟨h ▸ hr.state, h ▸ hr.prefixText⟩

theorem Ready.quiet {t u : Terminal} (hr : t.Ready) (h : Quiet t u) : u.Ready := by
  rcases h with h | h
  · exact hr.of_parser h
  · exact ⟨by rw [h]; rfl, by rw [h]; rfl⟩

theorem Ready.does {f : Terminal → Option Terminal} (hf : Does Quiet f) {t u : Terminal} (hr : t.Ready)
    (h : f t = some u) : u.Ready := inv (I := Ready) (fun _ _ => Ready.quiet) hr (hf t u h)

theorem state_csiFinal {ch : CodeUnit} {params : List Nat} {t u : Terminal} (hs : t.parser.state = .normal)
    (h : csiFinal ch params t = some u) : u.parser.state = .normal := by
  refine inv (I := fun t => t.parser.state = .normal) (fun t u hs h => ?_) hs (quiet_csiFinal ch params t u h)
  rcases h with h | h
  · rw [h]
    exact hs
  · rw [h]
    rfl

namespace Command

theorem ready_escape {ch : CodeUnit} {t u : Terminal} (hr : t.Ready) (h : performEscape ch t = some u) : u.Ready := by
  have hindex : ∀ v : Terminal, v.Ready → v.index.Ready := fun v hv =>
    ⟨by rw [parser_index], by rw [parser_index]; exact hv.prefixText⟩
  have hreverse : t.reverseIndex.Ready :=
    ⟨by rw [parser_reverseIndex], by rw [parser_reverseIndex]; exact hr.prefixText⟩
  unfold performEscape at h
  generalize ch.char = c at h
  split at h
  case h_1 => exact hr.does quiet_reset h
  case h_2 =>
    cases h
    exact hindex { t with x := some 0 } (hr.of_parser rfl)
  case h_3 =>
    cases h
    exact hindex t hr
  case h_4 =>
    cases h
    exact hreverse
  case h_7 =>
    cases h
    exact ⟨rfl, hr.prefixText⟩
  all_goals
    cases h
    exact hr.of_parser rfl

theorem perform_ready {c : Command} (hc : c.Valid) {t u : Terminal} (hr : t.Ready) (h : c.perform t = some u) :
    u.Ready := by
  cases c with
  | char ch => exact hr.does (quiet_normalState hc) h
  | escape ch => exact ready_escape hr h
  | charset g ch =>
    cases h
    refine hr.of_parser ?_
    cases setOf g <;> rfl
  | control before params f =>
    obtain ⟨v, hv, rfl⟩ := Option.map_eq_some_iff.1 h
    have hstate := state_csiFinal (t := t.called before (readParams params)) hr.state hv
    exact ⟨hstate, rfl⟩
  | osc n text =>
    cases h
    refine ⟨rfl, ?_⟩
    show (if n ≤ 2 ∧ text ≠ [] then t.setTitle text else t).parser.prefixText = []
    split <;> exact hr.prefixText

theorem parse_esc {t : Terminal} (hs : t.parser.state = .normal) :
    parse (t, false) 0x1b = some (t.toState .escaped, false) := by
  show t.round 0x1b = _
  rw [round, hs]
  rfl

theorem toState_self {t : Terminal} {state : State} (h : t.parser.state = state) : t.toState state = t := by
  subst h
  rfl

theorem nextRow_toState (state : State) (t : Terminal) : (t.toState state).nextRow = t.nextRow.toState state := by
  by_cases h : t.scrollBottom < t.y + 1
  · have hleft : (t.toState state).nextRow = (t.toState state).scroll := if_pos h
    have hright : t.nextRow = t.scroll := if_pos h
    rw [hleft, hright]
    rfl
  · have hleft : (t.toState state).nextRow = { t with y := t.y + 1 }.toState state := if_neg h
    have hright : t.nextRow = { t with y := t.y + 1 } := if_neg h
    rw [hleft, hright]

theorem index_toState (state : State) (t : Terminal) : (t.toState state).index = t.index := by
  rw [index, nextRow_toState]
  rfl

theorem reverseIndex_toState (state : State) (t : Terminal) : (t.toState state).reverseIndex = t.reverseIndex := by
  unfold reverseIndex
  dsimp only
  by_cases h : t.y < t.scrollTop + 1
  · rw [if_pos h, if_pos (show (t.toState state).y < (t.toState state).scrollTop + 1 from h)]
    rfl
  · rw [if_neg h, if_neg (show ¬ (t.toState state).y < (t.toState state).scrollTop + 1 from h)]
    rfl

theorem parse_escape {ch : CodeUnit} (hc : Whole ch) {t : Terminal} (hs : t.parser.state = .normal) :
    parse (t.toState .escaped, false) ch = (performEscape ch t).map fun u => (u, false) := by
  have hself : ∀ f : Terminal → Terminal, (f t).parser.state = .normal →
      (fun u => some (u, false)) (toState .normal (f t)) = (some (f t)).map fun u => (u, false) := fun f hf => by
    rw [toState_self hf]
    rfl
  show escapedState ch _ = _
  unfold Whole at hc
  unfold escapedState performEscape
  generalize ch.char = c at hc ⊢
  simp only [List.mem_cons, List.not_mem_nil, or_false] at hc
  rcases hc with rfl | rfl | rfl | rfl | rfl | rfl | rfl | rfl | rfl
  · rfl
  · exact congrArg (fun u => some (u, false)) (index_toState .escaped { t with x := some 0 })
  · exact congrArg (fun u => some (u, false)) (index_toState .escaped t)
  · exact congrArg (fun u => some (u, false)) (reverseIndex_toState .escaped t)
  · exact hself saveCursor hs
  · exact hself restoreCursor hs
  · rfl
  · exact hself (withModes ({ · with applicationKeypad := true })) hs
  · exact hself (withModes ({ · with applicationKeypad := false })) hs

theorem escapedState_setOf {g : CodeUnit} {n : Nat} (h : setOf g = some n) :
    escapedState g = stay (toState .charset ∘ designate (some n)) := by
  unfold setOf at h
  unfold escapedState
  generalize g.char = c at h
  split at h
  all_goals cases h
  all_goals rfl

theorem parse_charset {g ch : CodeUnit} (hg : (setOf g).isSome) (hch : ch.char ≠ '/') {t : Terminal}
    (hs : t.parser.state = .normal) : exec parse (t.toState .escaped, false) [g, ch] =
      some (((setOf g).elim t fun g => t.setgCharset g (charsetOf ch)).designate none, false) := by
  obtain ⟨n, hn⟩ := Option.isSome_iff_exists.1 hg
  have hstate : parse (t.toState .escaped, false) g =
      some (toState .charset (designate (some n) (t.toState .escaped)), false) :=
    congrFun (escapedState_setOf hn) _
  have hslash : decide (ch.char = '/') = false := decide_eq_false hch
  have hself : t.toState .normal = t := toState_self hs
  rw [exec_cons_of hstate, exec_singleton, hn]
  show some (charsetState ch _) = _
  rw [charsetState, hslash]
  show some (((t.toState .normal).setgCharset n (charsetOf ch)).designate none, false) = _
  rw [hself]
  rfl

theorem parse_spell {c : Command} (hc : c.Valid) {t : Terminal} (hr : t.Ready) :
    exec parse (t, false) c.spell = (c.perform t).map fun u => (u, false) := by
  cases c with
  | char ch =>
    have hround : parse (t, false) ch = (normalState ch t).map fun t => (t, false) := by
      show t.round ch = _
      rw [round, hr.state]
    show exec parse (t, false) [ch] = (normalState ch t).map _
    rw [exec, hround]
    cases normalState ch t <;> rfl
  | escape ch =>
    show exec parse (t, false) [0x1b, ch] = (performEscape ch t).map _
    rw [exec_cons_of (parse_esc hr.state), exec, parse_escape hc hr.state]
    cases performEscape ch t <;> rfl
  | charset g ch =>
    show exec parse (t, false) [0x1b, g, ch] = _
    rw [exec_cons_of (parse_esc hr.state), parse_charset hc.1 hc.2 hr.state]
    rfl
  | control before params f =>
    refine (parse_control hc.1 params hc.2 hr.state hr.prefixText).trans ?_
    show _ = ((csiFinal f (readParams params) (t.called before (readParams params))).map _).map _
    rw [Option.map_map]
    rfl
  | osc n text => exact parse_command n hc hr.state

/-- The commands of a list are performed one after the other. -/
theorem parse_spells : ∀ {cs : List Command} {t : Terminal}, (∀ c ∈ cs, c.Valid) → t.Ready →
    exec parse (t, false) (cs.flatMap spell) = (exec perform t cs).map fun u => (u, false)
  | [], t, _, _ => rfl
  | c :: cs, t, hcs, hr => by
    have hc := hcs c List.mem_cons_self
    have hspell := parse_spell hc hr
    rw [List.flatMap_cons, exec]
    cases hu : c.perform t with
    | none =>
      rw [hu] at hspell
      refine Option.ext fun p => ?_
      rw [exec_append, hspell]
      simp
    | some u =>
      rw [hu] at hspell
      rw [exec_append_of hspell, Option.bind_some]
      exact parse_spells (fun c h => hcs c (List.mem_cons_of_mem _ h)) (perform_ready hc hr hu)

end Command

/-! ## Runs -/

/-- A turn of the program, which prints some commands, or of the user and the timers. -/
inductive Turn
  | prints (commands : List Command)
  | acts (a : Act)

namespace Turn

/-- What the program prints may be empty, and the others do not write. -/
def Valid : Turn → Prop
  | prints commands => ∀ c ∈ commands, c.Valid
  | acts a => ∀ data, a ≠ .write data

/-- The step of the terminal. -/
def act : Turn → Act
  | prints commands => .write (commands.flatMap Command.spell)
  | acts a => a

/-- The same without a parser. -/
def take (t : Terminal) : Turn → Option Terminal
  | prints commands => (exec Command.perform t.begin commands).bind finish
  | acts a => t.step a

end Turn

theorem ready_begin {t : Terminal} (hr : t.Ready) : t.begin.Ready := hr.quiet (.idle (idle_begin t))

theorem ready_perform {cs : List Command} (hcs : ∀ c ∈ cs, c.Valid) {t u : Terminal} (hr : t.Ready)
    (h : exec Command.perform t cs = some u) : u.Ready := by
  have hmeets : Meets Command.perform (fun _ c => c.Valid) t cs := Meets.of_forall fun c hc _ => hcs c hc
  exact exec_inv_meets (fun t c u hr hc hu => c.perform_ready hc hr hu) hr hmeets h

theorem step_take {turn : Turn} (h : turn.Valid) {t : Terminal} (hr : t.Ready) : t.step turn.act = turn.take t := by
  cases turn with
  | acts a => rfl
  | prints cs =>
    have hparse := Command.parse_spells h (ready_begin hr)
    rw [Turn.act, Turn.take, step, write, hparse, Option.bind_map]
    rfl

theorem ready_take {turn : Turn} (h : turn.Valid) {t u : Terminal} (hr : t.Ready) (hu : turn.take t = some u) :
    u.Ready := by
  cases turn with
  | acts a =>
    by_cases hresize : ∃ x y, a = .resize x y
    · obtain ⟨x, y, rfl⟩ := hresize
      exact hr.does (quiet_resize x y) hu
    · push Not at hresize
      exact hr.quiet (.idle (step_idle h hresize hu))
  | prints cs =>
    obtain ⟨v, hv, hfinish⟩ := Option.bind_eq_some_iff.1 hu
    exact (ready_perform h (ready_begin hr) hv).quiet (.idle (idle_finish hfinish))

/-- A program prints a letter in bold and inverse, the user pastes one, and the program goes to the next line. -/
def sample : List Turn :=
  [.prints [.control [] [1, 7] 0x6d, .char 0x61], .acts (.paste [0x62]), .prints [.char 0x0a]]

theorem valid_sample : ∀ turn ∈ sample, turn.Valid := by
  have hbold : (Command.control [] [1, 7] 0x6d).Valid := ⟨.inl rfl, by decide⟩
  have ha : CodeUnit.char 0x61 ≠ '\x1b' := by decide
  have hline : CodeUnit.char 0x0a ≠ '\x1b' := by decide
  simp only [sample, List.forall_mem_cons, List.not_mem_nil, false_implies, implies_true, and_true]
  refine ⟨?_, ?_, ?_⟩
  · exact List.forall_mem_cons.2 ⟨hbold, List.forall_mem_singleton.2 ha⟩
  · rintro data ⟨⟩
  · exact List.forall_mem_singleton.2 hline

end Tangle.Term.Terminal
