/-
A write draws again only the rows that were reported to change, and yet the page shows the screen: outside
of the range that is to be drawn, each row of the page is the drawing of its line without a cursor, through
every loud effect, and the rows with the cursor before and after are in the range.
-/
import Tangle.Lib.Dirty
import Tangle.Term.Run

namespace Tangle.Term.Terminal

open JsArray Effects Dirty
open Relation (ReflTransGen)

variable {m : Manner}

/-- The rows of the page show their lines. -/
def Painted (t : Terminal) : Prop := Fresh {y | t.rows ≤ y} (t.page.children[·]?) t.refreshRow

/-- A row as it is drawn without a cursor, where the view is scrolled down. -/
def plainRow (t : Terminal) (y : Nat) : Option Html :=
  t.lines[t.ybase + y]?.bind fun line => refreshLine t.page.brokenBold none line t.cols

/-- The rows that a write is to draw, and those that are not on the screen. -/
def pending (t : Terminal) : Set Nat := {y | t.rows ≤ y ∨ (t.page.refreshStart ≤ y ∧ y ≤ t.page.refreshEnd)}

/-- During a write the other rows show their lines. -/
structure Clean (t : Terminal) : Prop where
  ydisp_eq : t.ydisp = t.ybase
  fresh : Fresh t.pending (t.page.children[·]?) t.plainRow

theorem Clean.of_view {t u : Terminal} (hc : t.Clean) (h : u.view = t.view) : u.Clean := by
  have hpending : u.pending = t.pending :=
    congrArg (fun v : View => {y | v.rows ≤ y ∨ (v.page.refreshStart ≤ y ∧ y ≤ v.page.refreshEnd)}) h
  have hplain : u.plainRow = t.plainRow :=
    congrArg (fun (v : View) y =>
      v.lines[v.ybase + y]?.bind fun line => refreshLine v.page.brokenBold none line v.cols) h
  have hpage : u.page = t.page := congrArg View.page h
  refine ⟨?_, ?_⟩
  · rw [show u.ydisp = t.ydisp from congrArg View.ydisp h, show u.ybase = t.ybase from congrArg View.ybase h]
    exact hc.ydisp_eq
  · rw [hpending, hplain, hpage]
    exact hc.fresh

theorem pending_updateRange (t : Terminal) (y : Nat) : t.pending ⊆ (t.updateRange y).pending := by
  intro i hi
  rcases hi with hi | hi
  · exact .inl hi
  · right
    show (if y < t.page.refreshStart then y else t.page.refreshStart) ≤ i ∧
      i ≤ (if t.page.refreshEnd < y then y else t.page.refreshEnd)
    constructor <;> split <;> omega

theorem mem_pending_updateRange (t : Terminal) (y : Nat) : y ∈ (t.updateRange y).pending := by
  right
  show (if y < t.page.refreshStart then y else t.page.refreshStart) ≤ y ∧
    y ≤ (if t.page.refreshEnd < y then y else t.page.refreshEnd)
  constructor <;> split <;> omega

/-- Two rows are reported, and what is between them. -/
theorem between_pending {t : Terminal} {a b i : Nat} (h : i ∉ ((t.updateRange a).updateRange b).pending) :
    i < min a b ∨ max a b < i := by
  by_contra hi
  refine h (.inr ?_)
  show (if b < (t.updateRange a).page.refreshStart then b else (t.updateRange a).page.refreshStart) ≤ i ∧
    i ≤ (if (t.updateRange a).page.refreshEnd < b then b else (t.updateRange a).page.refreshEnd)
  have ha := mem_pending_updateRange t a
  have hstart : (t.updateRange a).page.refreshStart = if a < t.page.refreshStart then a else t.page.refreshStart := rfl
  have hend : (t.updateRange a).page.refreshEnd = if t.page.refreshEnd < a then a else t.page.refreshEnd := rfl
  rw [hstart, hend]
  constructor <;> split_ifs <;> omega

theorem refreshRow_eq_plainRow {t : Terminal} {y : Nat} (hx : t.cursorAt y = none) (hd : t.ydisp = t.ybase) :
    t.refreshRow y = t.plainRow y := by
  rw [refreshRow, plainRow, hx, hd, Nat.add_comm]

theorem cursorAt_off {t : Terminal} (h : t.cursorState = false) (y : Nat) : t.cursorAt y = none := by
  rw [cursorAt, h, if_neg]
  simp

theorem cursorAt_other {t : Terminal} {y : Nat} (h : y ≠ t.y) : t.cursorAt y = none := if_neg fun hc => h hc.1

/-! ## Effects -/

theorem Clean.updateRange {t : Terminal} (hc : t.Clean) (y : Nat) : (t.updateRange y).Clean :=
  ⟨hc.ydisp_eq, hc.fresh.mono (pending_updateRange t y)⟩

/-- Other lines, where every row that changes is reported. -/
theorem Clean.change {t u : Terminal} (hc : t.Clean) (hydisp : u.ydisp = u.ybase) (hcols : u.cols = t.cols)
    (hchildren : u.page.children = t.page.children) (hbold : u.page.brokenBold = t.page.brokenBold)
    (hsub : t.pending ⊆ u.pending)
    (hsame : ∀ i, i ∉ u.pending → u.lines[u.ybase + i]? = t.lines[t.ybase + i]?) : u.Clean := by
  refine ⟨hydisp, ?_⟩
  rw [hchildren]
  refine hc.fresh.change hsub fun i hi => ?_
  rw [plainRow, plainRow, hsame i hi, hcols, hbold]

theorem clean_reset {t u : Terminal} (h : t.reset = some u) : u.Clean := by
  obtain ⟨children, rfl, -, hget⟩ := refresh_eq_some h
  refine ⟨rfl, fun y hy => ?_⟩
  have hrow : (construct t.cols t.rows t).refreshRow y = (construct t.cols t.rows t).plainRow y :=
    refreshRow_eq_plainRow (cursorAt_off rfl y) rfl
  have hlt : y < (construct t.cols t.rows t).rows := Nat.lt_of_not_le fun h => hy (.inl h)
  show children[y]? = _
  rw [hget, if_pos ⟨Nat.zero_le _, Nat.le_sub_one_of_lt hlt⟩]
  exact hrow

theorem Clean.effect (hl : m.loud) {t u : Terminal} (hg : t.Grid) (hc : t.Clean) (h : Effect m t u) :
    u.Clean := by
  cases h with
  | move y _ h | attr a _ h | region _ _ _ h =>
    refine Clean.of_view ?_ h
    exact ⟨hc.ydisp_eq, hc.fresh⟩
  | range y _ h => exact (hc.updateRange y).of_view h
  | edit y f _ _ h =>
    refine Clean.of_view ?_ h
    refine hc.change hc.ydisp_eq rfl rfl rfl (pending_updateRange t y) fun i hi => ?_
    have hne : t.ybase + y ≠ t.ybase + i := by
      intro he
      have hy : y = i := by omega
      exact hi (hy ▸ mem_pending_updateRange _ y)
    exact List.getElem?_modify_ne f t.lines hne
  | silent y f hn => exact absurd hl hn
  | shift a b lines hs h =>
    have hsub : t.pending ⊆ ((t.updateRange a).updateRange b).pending :=
      (pending_updateRange t a).trans (pending_updateRange _ b)
    refine Clean.of_view ?_ h
    refine hc.change hc.ydisp_eq rfl rfl rfl hsub fun i hi => ?_
    exact hs.same hl hg i (between_pending hi)
  | scroll h =>
    have hsub : t.pending ⊆ ((t.updateRange t.scrollTop).updateRange t.scrollBottom).pending :=
      (pending_updateRange t _).trans (pending_updateRange _ _)
    refine Clean.of_view ?_ h
    refine hc.change rfl rfl rfl rfl hsub fun i hi => ?_
    have htop : t.scrollTop ≤ t.scrollBottom := hg.fits.top_le
    refine (scrolled hg.fits).same i ((between_pending (t := t) hi).imp (fun h => ?_) fun h => ?_)
    · omega
    · omega
  | reset v _ hv h => exact (clean_reset hv).of_view h
  | enter v hn | leave v hn | resize x v hn => exact absurd hl hn

/-! ## Writes -/

/-- The characters that are read keep to the screen, and report what they change. -/
def LoudWrite (t : Terminal) (data : List CodeUnit) : Prop :=
  Machine.Guarded parse (fun p ch => p.2 = false → p.1.Proper ch ∧ p.1.Loud ch) (t.begin, false) data

instance (t : Terminal) (data : List CodeUnit) : Decidable (t.LoudWrite data) :=
  inferInstanceAs (Decidable (Machine.Guarded _ _ _ _))

/-- What holds during a write. -/
structure Painting (t : Terminal) : Prop extends t.Writing where
  clean : t.Clean

theorem parse_painting {t : Terminal} {skip : Bool} {ch : CodeUnit} (hw : t.Painting)
    (hp : skip = false → t.Proper ch ∧ t.Loud ch) : ∃ p, parse (t, skip) ch = some p ∧ p.1.Painting := by
  cases skip with
  | true => exact ⟨(t, false), rfl, hw⟩
  | false =>
    obtain ⟨hproper, hloud⟩ := hp rfl
    obtain ⟨p, hround⟩ := Option.isSome_iff_exists.1 (round_total hw.grid _)
    refine ⟨p, hround, ?_⟩
    refine inv (fun u v hu huv => ?_) hw (reaches_round hround)
    exact ⟨hu.toWriting.effect hproper huv, hu.clean.effect hloud hu.grid huv⟩

theorem clean_begin {t : Terminal} (hp : t.Painted) : t.begin.Clean := by
  unfold begin
  dsimp only
  split
  · refine ⟨rfl, fun y hy => absurd ?_ hy⟩
    by_cases h : t.rows ≤ y
    · exact .inl h
    · exact .inr ⟨Nat.zero_le y, Nat.le_sub_one_of_lt (Nat.lt_of_not_le h)⟩
  · rename_i hydisp
    have hydisp : t.ydisp = t.ybase := (not_not.1 hydisp).symm
    refine ⟨hydisp, fun y hy => ?_⟩
    have hne : y ≠ t.y := by
      rintro rfl
      exact hy (.inr ⟨Nat.le_refl _, Nat.le_refl _⟩)
    have hrow : t.refreshRow y = t.plainRow y := refreshRow_eq_plainRow (cursorAt_other hne) hydisp
    exact (hp y fun h => hy (.inl h)).trans hrow

/-- Rows that are drawn again, and rows that were right and need not be. -/
theorem painted_drawn {t u : Terminal} {a b : Nat} {dirty : Set Nat} {actual : Nat → Option Html}
    (hf : Fresh dirty (t.page.children[·]?) actual) (hdirty : ∀ y ∈ dirty, t.rows ≤ y ∨ (a ≤ y ∧ y ≤ b))
    (hsame : ∀ y, ¬ (a ≤ y ∧ y ≤ b) → y ∉ dirty → t.refreshRow y = actual y) (h : t.refresh a b = some u) :
    u.Painted := by
  obtain ⟨children, rfl, -, hget⟩ := refresh_eq_some h
  have hdrawn : Fresh (dirty \ {y | a ≤ y ∧ y ≤ b}) (children[·]?) t.refreshRow :=
    hf.redraw (fun y hy => (hget y).trans (if_pos hy)) (fun y hy => (hget y).trans (if_neg hy)) hsame
  exact hdrawn.mono fun y hy => (hdirty y hy.1).resolve_right hy.2

theorem painted_finish {t u : Terminal} (hw : t.Painting) (h : t.finish = some u) : u.Painted := by
  have hc := hw.clean.updateRange t.y
  refine painted_drawn hc.fresh (fun y hy => hy) (fun y _ hpending => ?_) h
  have hne : y ≠ t.y := by
    rintro rfl
    exact hpending (mem_pending_updateRange t _)
  exact refreshRow_eq_plainRow (cursorAt_other hne) hc.ydisp_eq

theorem write_painted {t : Terminal} (hg : t.Grid) (hp : t.Painted) {data : List CodeUnit} (h : t.LoudWrite data) :
    ∃ u, t.write data = some u ∧ u.Grid ∧ u.Painted := by
  have hstep : ∀ (p : Terminal × Bool) (ch : CodeUnit), p.1.Painting →
      (p.2 = false → p.1.Proper ch ∧ p.1.Loud ch) → ∃ q, parse p ch = some q ∧ q.1.Painting :=
    fun p ch hw hp => parse_painting hw hp
  obtain ⟨p, hexec, hw⟩ := Machine.exec_total hstep ⟨writing_begin hg, clean_begin hp⟩ h
  obtain ⟨u, hu, hgu⟩ := finish_total hw.toWriting
  exact ⟨u, Option.bind_eq_some_iff.2 ⟨p, hexec, hu⟩, hgu, painted_finish hw hu⟩

/-! ## Runs -/

/-- What is written also reports what it changes. -/
def LoudAct (t : Terminal) : Act → Prop
  | .write data => t.LoudWrite data
  | .timeout => 0 < t.out.timers
  | _ => True

instance : ∀ (t : Terminal) (a : Act), Decidable (t.LoudAct a)
  | t, .write data => inferInstanceAs (Decidable (t.LoudWrite data))
  | t, .timeout => inferInstanceAs (Decidable (0 < t.out.timers))
  | _, .resize _ _ | _, .scrollDisp _ | _, .cursorBlink | _, .blur | _, .focus | _, .key _ | _, .paste _ =>
    .isTrue trivial

/-- All rows are drawn. -/
theorem painted_refresh {t u : Terminal} (h : t.refresh 0 (t.rows - 1) = some u) : u.Painted := by
  have hnone : Fresh Set.univ (t.page.children[·]?) t.refreshRow := fun y hy => absurd (Set.mem_univ y) hy
  refine painted_drawn hnone (fun y _ => ?_) (fun _ _ _ => rfl) h
  by_cases hy : t.rows ≤ y
  · exact .inl hy
  · exact .inr ⟨Nat.zero_le y, Nat.le_sub_one_of_lt (Nat.lt_of_not_le hy)⟩

/-- The row of the cursor is drawn with another state of it. -/
theorem painted_cursor {t u : Terminal} (hp : t.Painted) {on : Bool}
    (h : { t with cursorState := on }.refresh t.y t.y = some u) : u.Painted := by
  have hf : Fresh {y | t.rows ≤ y} ({ t with cursorState := on }.page.children[·]?) t.refreshRow := hp
  refine painted_drawn hf (fun y hy => .inl hy) (fun y hout _ => ?_) h
  have hne : y ≠ t.y := by
    rintro rfl
    exact hout ⟨Nat.le_refl _, Nat.le_refl _⟩
  have hon : { t with cursorState := on }.cursorAt y = none := cursorAt_other hne
  show (t.lines[y + t.ydisp]?.bind fun line => refreshLine t.page.brokenBold _ line t.cols) =
    t.lines[y + t.ydisp]?.bind fun line => refreshLine t.page.brokenBold _ line t.cols
  rw [hon, cursorAt_other hne]

theorem painted_showCursor {t u : Terminal} (hp : t.Painted) (h : t.showCursor = some u) : u.Painted := by
  unfold showCursor at h
  split at h
  · exact painted_cursor hp h
  · cases h
    exact hp

theorem painted_reportFocus {t : Terminal} (hp : t.Painted) (data : List CodeUnit) : (t.reportFocus data).Painted := by
  unfold reportFocus
  split
  · exact hp
  · exact hp

theorem step_painted {t u : Terminal} {a : Act} (hp : t.Painted) (ha : ∀ data, a ≠ .write data)
    (h : t.step a = some u) : u.Painted := by
  cases a with
  | write data => exact absurd rfl (ha data)
  | resize cols rows =>
    obtain ⟨v, hv, rfl⟩ := Option.map_eq_some_iff.1 h
    have hpv : v.Painted := painted_refresh hv
    exact hpv
  | scrollDisp disp => exact painted_refresh h
  | cursorBlink => exact painted_cursor hp h
  | blur =>
    obtain ⟨v, hv, rfl⟩ := Option.map_eq_some_iff.1 h
    exact painted_reportFocus (painted_cursor hp hv) _
  | focus => exact painted_showCursor (painted_reportFocus hp _) h
  | key key =>
    obtain ⟨v, hv, rfl⟩ := Option.map_eq_some_iff.1 h
    have hpv : v.Painted := painted_showCursor hp hv
    exact hpv
  | paste data =>
    cases h
    exact hp
  | timeout =>
    have h : t.timeout = some u := h
    unfold timeout at h
    split at h
    · cases h
    · cases h
      exact hp

/-- The screen has its size and the page shows it. -/
structure Shown (t : Terminal) : Prop where
  grid : t.Grid
  painted : t.Painted

theorem step_shown {t : Terminal} {a : Act} (hs : t.Shown) (h : t.LoudAct a) : ∃ u, t.step a = some u ∧ u.Shown := by
  by_cases ha : ∀ data, a ≠ .write data
  · have hproper : t.ProperAct a := by
      cases a with
      | write data => exact absurd rfl (ha data)
      | timeout => exact h
      | _ => trivial
    obtain ⟨u, hu, hgu⟩ := step_total hs.grid hproper
    exact ⟨u, hu, hgu, step_painted hs.painted ha hu⟩
  · push Not at ha
    obtain ⟨data, rfl⟩ := ha
    obtain ⟨u, hu, hgu, hpu⟩ := write_painted hs.grid hs.painted h
    exact ⟨u, hu, hgu, hpu⟩

/-- After every step of a run from a new terminal, up to where a write would not report what it changes, the page
shows each row of the screen as it would be drawn anew. -/
theorem run_painted {cols rows : Nat} {acts : List Act} {t : Terminal} (ht : (new cols rows).opened = some t)
    (h : Machine.Guarded step LoudAct t acts) : ∃ u, Machine.exec step t acts = some u ∧
      u.page.children.length = u.rows ∧ ∀ y < u.rows, u.page.children[y]? = u.refreshRow y := by
  obtain ⟨v, hv, hg⟩ := opened_total cols rows
  rw [ht] at hv
  cases hv
  have hp : t.Painted := painted_refresh ht
  obtain ⟨u, hu, hs⟩ := Machine.exec_total (fun _ _ => step_shown) ⟨hg, hp⟩ h
  exact ⟨u, hu, hs.grid.children, fun y hy => hs.painted y (Nat.not_le.2 hy)⟩

theorem run_painted_small : ∃ u, Machine.exec step small
    [.focus, .write (units "ab\n\x1b[7mc\x1b[K\n"), .cursorBlink, .write (units "\x1b[1;2Hd")] = some u ∧
      u.page.children.length = u.rows ∧ ∀ y < u.rows, u.page.children[y]? = u.refreshRow y :=
  run_painted opened_small (by decide +kernel)

end Tangle.Term.Terminal
