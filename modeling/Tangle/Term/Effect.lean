/-
What a character can do to the screen. Each function is a chain of a few kinds of effects: the cursor
moves, a line is edited, lines of the region are shifted, the region scrolls, or the screen is replaced.
An effect is proper where it keeps to the screen, loud where it reports the rows that it changes, it keeps
the lines where it does not build new ones for a reset or another width, and stays where it does not go back
to the normal screen. The source sees to none of these; the manner of a chain of effects says which of them
it can be relied on for.
-/
import Tangle.Lib.Effects
import Tangle.Term.Write
import Mathlib.Logic.Function.Iterate

namespace Tangle.Term

open JsArray Effects
open Relation (ReflTransGen)

/-- A screen of this size: the rows on it have their lines, the lines their cells, and the cursor and the region
are on it. -/
structure Fits (cols rows : Nat) (s : Saved) : Prop where
  length : s.lines.length = s.ybase + rows
  wide : ∀ line ∈ s.lines, cols ≤ line.length ∧ Filled line
  y_lt : s.y < rows
  top_le : s.scrollTop ≤ s.scrollBottom
  bottom_lt : s.scrollBottom < rows
  ybase_lt : s.ybase < scrollback
  ydisp_le : s.ydisp ≤ s.ybase

namespace Terminal

/-- The screen and the one that is kept have the size of the terminal. -/
structure Grid (t : Terminal) : Prop where
  cols_pos : 0 < t.cols
  rows_pos : 0 < t.rows
  fits : Fits t.cols t.rows t.saved
  normal : ∀ s ∈ t.normal, Fits t.cols t.rows s
  children : t.page.children.length = t.rows

/-- What lines and drawing depend on. -/
structure View where
  cols : Nat
  rows : Nat
  ybase : Nat
  ydisp : Nat
  y : Nat
  scrollTop : Nat
  scrollBottom : Nat
  lines : List Line
  normal : Option Saved
  curAttr : Attr
  page : Page

def view (t : Terminal) : View :=
  { cols := t.cols, rows := t.rows, ybase := t.ybase, ydisp := t.ydisp, y := t.y, scrollTop := t.scrollTop,
    scrollBottom := t.scrollBottom, lines := t.lines, normal := t.normal, curAttr := t.curAttr, page := t.page }

/-- An edit of a line with the attributes of the terminal. The line does not become shorter, and gets no gaps from
a proper edit. -/
structure Edits (proper : Prop) (t : Terminal) (f : Line → Line) : Prop where
  mem : ∀ line c, some c ∈ f line → some c ∈ line ∨ c.1 = t.curAttr ∨ c.1 = defAttr
  length : ∀ line, line.length ≤ (f line).length
  filled : proper → t.Grid → ∀ line, t.cols ≤ line.length → Filled line → Filled (f line)

/-- Other lines on the screen, of which the rows from `a` to `b` or from `b` to `a` are reported. -/
structure Shifts (loud : Prop) (t : Terminal) (a b : Nat) (lines : List Line) : Prop where
  mem : ∀ line ∈ lines, line ∈ t.lines ∨ ∃ cur, line = t.blankLine cur
  a_lt : t.Grid → a < t.rows
  b_lt : t.Grid → b < t.rows
  length : t.Grid → lines.length = t.lines.length
  above : t.Grid → ∀ i, i < t.ybase → lines[i]? = t.lines[i]?
  same : loud → t.Grid → ∀ y, y < min a b ∨ max a b < y → lines[t.ybase + y]? = t.lines[t.ybase + y]?

/-- What a chain of effects can be relied on for. -/
structure Manner where
  proper : Prop
  loud : Prop
  keep : Prop
  stay : Prop

/-- One effect. -/
inductive Effect (m : Manner) (t t' : Terminal) : Prop
  | move (y : Nat) (hy : m.proper → t.Grid → y < t.rows) (h : t'.view = { t with y }.view)
  | attr (a : Attr) (ha : a = defAttr ∨ ∃ params, a = charAttributes params t.curAttr)
      (h : t'.view = { t with curAttr := a }.view)
  | region (top bottom : Nat) (hr : m.proper → t.Grid → top ≤ bottom ∧ bottom < t.rows)
      (h : t'.view = { t with scrollTop := top, scrollBottom := bottom }.view)
  | range (y : Nat) (hy : t.Grid → y < t.rows) (h : t'.view = (t.updateRange y).view)
  | edit (y : Nat) (f : Line → Line) (hf : Edits m.proper t f) (hy : t.Grid → y < t.rows)
      (h : t'.view = ({ t with lines := t.lines.modify (t.ybase + y) f }.updateRange y).view)
  | silent (y : Nat) (f : Line → Line) (hl : ¬ m.loud) (hf : Edits m.proper t f)
      (h : t'.view = { t with lines := t.lines.modify (t.ybase + y) f }.view)
  | shift (a b : Nat) (lines : List Line) (hs : Shifts m.loud t a b lines)
      (h : t'.view = (({ t with lines }.updateRange a).updateRange b).view)
  | scroll (h : t'.view = t.scroll.view)
  | reset (u : Terminal) (hk : ¬ m.keep) (hu : t.reset = some u) (h : t'.view = u.view)
  | enter (u : Terminal) (hl : ¬ m.loud) (hn : t.normal = none) (hu : alternate t.saved t = some u)
      (h : t'.view = u.view)
  | leave (u : Terminal) (hl : ¬ m.loud) (hs : ¬ m.stay) (hu : t.leaveAlternate = some u) (h : t'.view = u.view)
  | resize (x : Nat) (u : Terminal) (hl : ¬ m.loud) (hk : ¬ m.keep) (hu : t.resize x t.rows = some u)
    (h : t'.view = u.view)

variable {m : Manner}

/-! ## What does not concern the view -/

theorem Effect.calm {t t' : Terminal} (h : t'.view = t.view) : Effect m t t' :=
  .move t.y (fun _ hg => hg.fits.y_lt) h

/-- A function that the view does not notice. -/
theorem does_calm {f : Terminal → Terminal} (h : ∀ t, (f t).view = t.view) : Does (Effect m) (some ∘ f) :=
  .single fun t => .calm (h t)

theorem view_reply (data : Option (List CodeUnit)) (t : Terminal) : (t.reply data).view = t.view := by
  cases data <;> rfl

theorem view_toState (state : State) (t : Terminal) : (t.toState state).view = t.view := rfl

theorem view_setParam (p : Param) (t : Terminal) : (t.setParam p).view = t.view := rfl

theorem view_affixes (before after : List CodeUnit) (t : Terminal) : (t.affixes before after).view = t.view := rfl

theorem view_tabClear (params : List Nat) (t : Terminal) : (t.tabClear params).view = t.view := by
  unfold tabClear
  split_ifs <;> rfl

theorem view_goRight (n : Nat) (t : Terminal) : (t.goRight n).view = t.view := by
  unfold goRight
  cases t.x <;> rfl

/-! ## The cursor and the region -/

theorem view_HVPosition (params : List Nat) (t : Terminal) :
    (t.HVPosition params).view = (t.goRow (count params - 1)).view := by
  unfold HVPosition
  cases params[1]? <;> rfl

theorem effect_goRow {t u : Terminal} {y : Nat} (h : u.view = (t.goRow y).view) : Effect m t u := by
  refine .move (if t.rows ≤ y then t.rows - 1 else y) (fun _ hg => ?_) h
  have := hg.rows_pos
  split <;> omega

theorem effect_up {t u : Terminal} {n : Nat} (h : u.view = { t with y := t.y - n }.view) : Effect m t u := by
  refine .move (t.y - n) (fun _ hg => ?_) h
  have : t.y < t.rows := hg.fits.y_lt
  omega

theorem reaches_restoreCursor {t : Terminal} (h : m.proper → t.savedY.getD 0 < t.rows) :
    Effect m t t.restoreCursor :=
  .move (t.savedY.getD 0) (fun hp _ => h hp) rfl

/-- The region is one of the screen. -/
def RegionOn (params : List Nat) (t : Terminal) : Prop :=
  regionTop params ≤ regionBottom params t ∧ regionBottom params t < t.rows

instance (params : List Nat) (t : Terminal) : Decidable (RegionOn params t) := inferInstanceAs (Decidable (_ ∧ _))

theorem reaches_region {t u : Terminal} {top bottom : Nat} (h : m.proper → top ≤ bottom ∧ bottom < t.rows)
    (hu : u.view = { t with scrollTop := top, scrollBottom := bottom, y := 0 }.view) :
    ReflTransGen (Effect m) t u := by
  have h1 : Effect m t { t with scrollTop := top, scrollBottom := bottom } :=
    .region top bottom (fun hp _ => h hp) rfl
  exact .tail (.single h1) (.move 0 (fun _ hg => hg.rows_pos) hu)

theorem reaches_setScrollRegion {t : Terminal} (params : List Nat)
    (h : m.proper → t.parser.prefixText = [] → RegionOn params t) :
    ReflTransGen (Effect m) t (t.setScrollRegion params) := by
  unfold setScrollRegion
  split
  · exact .refl
  · rename_i hbefore
    exact reaches_region (fun hp => h hp (by simpa using hbefore)) rfl

theorem reaches_softReset (t : Terminal) : ReflTransGen (Effect m) t t.softReset := by
  have hattr : Effect m t { t with curAttr := defAttr } := .attr defAttr (.inl rfl) rfl
  have hregion : Effect m { t with curAttr := defAttr }
      { t with curAttr := defAttr, scrollTop := 0, scrollBottom := t.rows - 1 } := by
    refine .region 0 (t.rows - 1) (fun _ hg => ?_) rfl
    have := hg.rows_pos
    show 0 ≤ t.rows - 1 ∧ t.rows - 1 < t.rows
    have : 0 < t.rows := this
    omega
  exact .tail (.tail (.single hattr) hregion) (.move 0 (fun _ hg => hg.rows_pos) rfl)

/-! ## Lines -/

theorem onLine_eq_some {t u : Terminal} {y : Nat} {f : Line → Line} (h : t.onLine y f = some u) :
    u = { t with lines := t.lines.modify (t.ybase + y) f } := by
  obtain ⟨line, hline, rfl⟩ := Option.map_eq_some_iff.1 h
  have hset : t.lines.set (t.ybase + y) (f line) = t.lines.modify (t.ybase + y) f := by
    refine List.ext_getElem? fun i => ?_
    rw [List.getElem?_set, List.getElem?_modify]
    by_cases hi : t.ybase + y = i
    · subst hi
      obtain ⟨hlt, hget⟩ := List.getElem?_eq_some_iff.1 hline
      simp [hlt, hget]
    · simp [hi]
  rw [hset]

theorem edits_fill {t : Terminal} {x n : Nat} {cell : Line → Cell}
    (hcell : ∀ line, some (cell line) ∈ line ∨ (cell line).1 = t.curAttr ∨ (cell line).1 = defAttr)
    (hx : m.proper → t.Grid → x ≤ t.cols) : Edits m.proper t fun line => fill line x n (cell line) := by
  refine ⟨fun line c hc => ?_, fun line => le_length_fill n _ line x, fun hp hg line hl hd => ?_⟩
  · rcases mem_fill n line x hc with hc | rfl
    · exact .inl hc
    · exact hcell line
  · exact hd.fill n _ ((hx hp hg).trans hl)

/-- Where the column is `NaN` the line stays as it is. -/
theorem edits_elim {t : Terminal} {x : Option Nat} {f : Nat → Line → Line} (h : ∀ c ∈ x, Edits m.proper t (f c)) :
    Edits m.proper t fun line => x.elim line fun c => f c line := by
  cases x with
  | none => exact ⟨fun _ _ hc => .inl hc, fun _ => Nat.le_refl _, fun _ _ _ _ hd => hd⟩
  | some c => exact h c rfl

theorem reaches_eraseRight {t u : Terminal} {x : Option Nat} {y : Nat} (hy : t.Grid → y < t.rows)
    (h : t.eraseRight x y = some u) : Effect m t u := by
  obtain ⟨v, hv, rfl⟩ := Option.map_eq_some_iff.1 h
  cases x with
  | none =>
    cases hv
    exact .range y hy rfl
  | some x =>
    rw [Option.elim_some] at hv
    split at hv
    · rename_i hx
      rw [onLine_eq_some hv]
      exact .edit y _ (edits_fill (fun _ => .inr (.inl rfl)) fun _ _ => hx.le) hy rfl
    · cases hv
      exact .range y hy rfl

theorem reaches_eraseLeft {t u : Terminal} {x : Option Nat} {y : Nat} (hy : t.Grid → y < t.rows)
    (h : t.eraseLeft x y = some u) : Effect m t u := by
  obtain ⟨v, hv, rfl⟩ := Option.map_eq_some_iff.1 h
  cases x with
  | none =>
    cases hv
    exact .range y hy rfl
  | some x =>
    rw [onLine_eq_some hv]
    exact .edit y _ (edits_fill (fun _ => .inr (.inl rfl)) fun _ _ => Nat.zero_le _) hy rfl

theorem eraseRight_same {t u : Terminal} {x : Option Nat} {y : Nat} (h : t.eraseRight x y = some u) :
    u.rows = t.rows ∧ u.y = t.y := by
  obtain ⟨v, hv, rfl⟩ := Option.map_eq_some_iff.1 h
  cases x with
  | none =>
    cases hv
    exact ⟨rfl, rfl⟩
  | some x =>
    rw [Option.elim_some] at hv
    split at hv
    · rw [onLine_eq_some hv]
      exact ⟨rfl, rfl⟩
    · cases hv
      exact ⟨rfl, rfl⟩

/-- Rows on the screen, or above the cursor. -/
theorem reaches_eraseLines {rows y : Nat} : ∀ {l : List Nat} {t u : Terminal}, (∀ j ∈ l, j < rows ∨ j < y) →
    t.rows = rows → t.y = y → l.foldlM (fun t j => t.eraseLine j) t = some u → ReflTransGen (Effect m) t u
  | [], t, u, _, _, _, h => by cases h; exact .refl
  | j :: l, t, u, hl, hrows, hy, h => by
    obtain ⟨v, hv, h⟩ := Option.bind_eq_some_iff.1 h
    obtain ⟨hrows', hy'⟩ := eraseRight_same hv
    have hj : t.Grid → j < t.rows := by
      intro hg
      have : t.y < t.rows := hg.fits.y_lt
      rcases hl j List.mem_cons_self with h | h <;> omega
    exact .head (reaches_eraseRight hj hv) (reaches_eraseLines (fun j hj => hl j (List.mem_cons_of_mem _ hj))
      (hrows'.trans hrows) (hy'.trans hy) h)

theorem does_eraseInDisplay (params : List Nat) : Does (Effect m) (eraseInDisplay params) := by
  unfold eraseInDisplay
  split
  · intro t u h
    obtain ⟨v, hv, h⟩ := Option.bind_eq_some_iff.1 h
    refine .head (reaches_eraseRight (fun hg => hg.fits.y_lt) hv) (reaches_eraseLines (fun j hj => .inl ?_) rfl rfl h)
    have := List.mem_range'_1.1 hj
    omega
  · intro t u h
    obtain ⟨v, hv, h⟩ := Option.bind_eq_some_iff.1 h
    exact .head (reaches_eraseLeft (fun hg => hg.fits.y_lt) hv)
      (reaches_eraseLines (fun j hj => .inr (List.mem_range.1 (List.mem_reverse.1 hj))) rfl rfl h)
  · intro t u h
    exact reaches_eraseLines (fun j hj => .inl (List.mem_range.1 (List.mem_reverse.1 hj))) rfl rfl h
  · exact .some

theorem does_eraseInLine (params : List Nat) : Does (Effect m) (eraseInLine params) := by
  unfold eraseInLine
  split
  · exact fun t u h => .single (reaches_eraseRight (fun hg => hg.fits.y_lt) h)
  · exact fun t u h => .single (reaches_eraseLeft (fun hg => hg.fits.y_lt) h)
  · exact fun t u h => .single (reaches_eraseRight (fun hg => hg.fits.y_lt) h)
  · exact .some

/-! ## Cells -/

theorem mem_insertCells {cols : Nat} {ch c : Cell} (n : Nat) : ∀ (j : Nat) (line : Line),
    some c ∈ insertCells cols ch n j line → some c ∈ line ∨ c = ch := by
  induction n with
  | zero => intro j line h; exact .inl h
  | succ n ih =>
    intro j line h
    rw [insertCells] at h
    split at h
    · rcases ih _ _ h with h | h
      · rcases mem_splice (List.mem_of_mem_dropLast h) with h | h
        · exact .inl h
        · exact .inr (by simpa using h)
      · exact .inr h
    · exact .inl h

theorem length_insertCells {cols : Nat} {ch : Cell} (n : Nat) : ∀ (j : Nat) (line : Line),
    line.length ≤ (insertCells cols ch n j line).length := by
  induction n with
  | zero => intro j line; exact Nat.le_refl _
  | succ n ih =>
    intro j line
    rw [insertCells]
    split
    · refine le_trans ?_ (ih _ _)
      rw [List.length_dropLast, length_splice, List.length_singleton]
      omega
    · exact Nat.le_refl _

theorem filled_insertCells {cols : Nat} {ch : Cell} (n : Nat) : ∀ {j : Nat} {line : Line}, Filled line →
    Filled (insertCells cols ch n j line) := by
  induction n with
  | zero => intro j line h; exact h
  | succ n ih =>
    intro j line h
    rw [insertCells]
    split
    · refine ih fun c hc => ?_
      rcases mem_splice (List.mem_of_mem_dropLast hc) with hc | hc
      · exact h c hc
      · rw [List.mem_singleton.1 hc]; rfl
    · exact h

theorem reaches_insertChars {t u : Terminal} {params : List Nat} (hl : ¬ m.loud) (h : t.insertChars params = some u) :
    ReflTransGen (Effect m) t u := by
  unfold insertChars at h
  cases hx : t.x with
  | none =>
    rw [hx] at h
    cases h
    exact .refl
  | some x =>
    rw [hx, Option.elim_some] at h
    split at h
    · rw [onLine_eq_some h]
      refine .single (.silent t.y _ hl ⟨fun line c hc => ?_, fun line => length_insertCells _ _ line,
        fun _ _ line _ hd => filled_insertCells _ hd⟩ rfl)
      rcases mem_insertCells _ _ line hc with hc | rfl
      · exact .inl hc
      · exact .inr (.inl rfl)
    · cases h
      exact .refl

theorem reaches_eraseChars {t u : Terminal} {params : List Nat} (hl : ¬ m.loud) (h : t.eraseChars params = some u) :
    ReflTransGen (Effect m) t u := by
  unfold eraseChars at h
  cases hx : t.x with
  | none =>
    rw [hx] at h
    cases h
    exact .refl
  | some x =>
    rw [hx, Option.elim_some] at h
    split at h
    · rename_i hlt
      rw [onLine_eq_some h]
      exact .single (.silent t.y _ hl (edits_fill (fun _ => .inr (.inl rfl)) fun _ _ => hlt.le) rfl)
    · cases h
      exact .refl

theorem reaches_deleteChars {t u : Terminal} {params : List Nat} (hl : ¬ m.loud) (h : t.deleteChars params = some u) :
    Effect m t u := by
  have hstep : ∀ (line : Line) (c : Option Cell), c ∈ splice line (t.x.getD 0) 1 [] ++ [some (t.curAttr, 0x20)] →
      c ∈ line ∨ c = some (t.curAttr, 0x20) := by
    intro line c hc
    rcases List.mem_append.1 hc with hc | hc
    · exact .inl ((mem_splice hc).resolve_right List.not_mem_nil)
    · exact .inr (List.mem_singleton.1 hc)
  have hmem := fun c => mem_iterate (y := c) (fun line => hstep line c) (count params)
  have hlen : ∀ (n : Nat) (line : Line),
      line.length ≤ ((fun line => splice line (t.x.getD 0) 1 [] ++ [some (t.curAttr, 0x20)])^[n] line).length := by
    intro n
    induction n with
    | zero => intro line; exact Nat.le_refl _
    | succ n ih =>
      intro line
      refine le_trans ?_ (ih _)
      rw [List.length_append, length_splice, List.length_singleton, List.length_nil]
      omega
  rw [onLine_eq_some h]
  refine .silent t.y _ hl ⟨fun line c hc => ?_, hlen _, fun _ _ line _ hd c hc => ?_⟩ rfl
  · rcases hmem _ line hc with hc | hc
    · exact .inl hc
    · cases hc
      exact .inr (.inl rfl)
  · rcases hmem c line hc with hc | rfl
    · exact hd c hc
    · rfl

theorem reaches_repeat {t u : Terminal} {params : List Nat} (hl : ¬ m.loud) (hx : m.proper → ∀ x ∈ t.x, x ≤ t.cols)
    (h : t.repeatPrecedingCharacter params = some u) : Effect m t u := by
  obtain ⟨v, hv, rfl⟩ := Option.map_eq_some_iff.1 h
  rw [onLine_eq_some hv]
  refine .silent t.y _ hl (edits_elim fun x hcol => edits_fill (fun line => ?_) fun hp _ => hx hp x hcol) rfl
  cases hc : (if x = 0 then none else JsArray.get line (x - 1)) with
  | none => exact .inr (.inr rfl)
  | some c =>
    left
    split at hc
    · cases hc
    · exact mem_of_get hc

/-! ## Lines of the region -/

/-- Lines that come in at a row and go at another one. -/
theorem shifts_insert_remove {t : Terminal} {i j a b n : Nat} (cur : Bool) (hi : t.Grid → i < t.rows + 1)
    (hj : t.Grid → j < t.rows + 1) (ha : t.Grid → a < t.rows) (hb : t.Grid → b < t.rows)
    (hcover : m.loud → t.Grid → min a b ≤ i ∧ min a b ≤ j ∧ i ≤ max a b + 1 ∧ j ≤ max a b + 1) :
    Shifts m.loud t a b ((fun lines => splice (splice lines (t.ybase + i) 0 [t.blankLine cur]) (t.ybase + j) 1 [])^[n]
      t.lines) := by
  have hwithin : ∀ lo hi, t.Grid → lo ≤ i ∧ lo ≤ j → i ≤ hi + 1 ∧ j ≤ hi + 1 →
      Within (t.ybase + lo) (t.ybase + hi) t.lines
        ((fun lines => splice (splice lines (t.ybase + i) 0 [t.blankLine cur]) (t.ybase + j) 1 [])^[n] t.lines) := by
    intro lo hi' hg hlo hhi
    have hlen : t.lines.length = t.ybase + t.rows := hg.fits.length
    have := hi hg
    have := hj hg
    exact Within.iterate (fun lines hl => within_insert_remove _ (by omega) (by omega) (by omega) (by omega)) n _ rfl
  refine ⟨fun line hline => ?_, ha, hb, fun hg => ?_, fun hg r hr => ?_, fun hl hg y hy => ?_⟩
  · refine (mem_iterate (fun lines h => ?_) n _ hline).imp_right fun h => ⟨cur, h⟩
    rcases mem_splice h with h | h
    · exact (mem_splice h).imp_right List.mem_singleton.1
    · cases h
  · exact (hwithin 0 (max i j) hg (by omega) (by omega)).length
  · exact (hwithin 0 (max i j) hg (by omega) (by omega)).same r (.inl (by omega))
  · have := hcover hl hg
    exact (hwithin (min a b) (max a b) hg (by omega) (by omega)).same _ (by omega)

/-- Lines that go at a row and come in at another one. -/
theorem shifts_remove_insert {t : Terminal} {i j n : Nat} (cur : Bool) (hi : t.Grid → i < t.rows)
    (hj : t.Grid → j < t.rows) :
    ∀ a b, (a = i ∧ b = j) ∨ (a = j ∧ b = i) →
    Shifts m.loud t a b ((fun lines => splice (splice lines (t.ybase + i) 1 []) (t.ybase + j) 0 [t.blankLine cur])^[n]
      t.lines) := by
  intro a b hab
  have hwithin : t.Grid → Within (t.ybase + min i j) (t.ybase + max i j) t.lines
        ((fun lines => splice (splice lines (t.ybase + i) 1 []) (t.ybase + j) 0 [t.blankLine cur])^[n] t.lines) := by
    intro hg
    have hlen : t.lines.length = t.ybase + t.rows := hg.fits.length
    have := hi hg
    have := hj hg
    exact Within.iterate (fun lines hl => within_remove_insert _ (by omega) (by omega) (by omega) (by omega)) n _ rfl
  refine ⟨fun line hline => ?_, fun hg => ?_, fun hg => ?_, fun hg => (hwithin hg).length, fun hg r hr => ?_,
    fun hl hg y hy => ?_⟩
  · refine (mem_iterate (fun lines h => ?_) n _ hline).imp_right fun h => ⟨cur, h⟩
    rcases mem_splice h with h | h
    · exact .inl ((mem_splice h).resolve_right List.not_mem_nil)
    · exact .inr (List.mem_singleton.1 h)
  · have := hi hg
    have := hj hg
    omega
  · have := hi hg
    have := hj hg
    omega
  · exact (hwithin hg).same r (.inl (by omega))
  · exact (hwithin hg).same _ (by omega)

theorem does_insertLines (params : List Nat) : Does (Effect m) (some ∘ insertLines params) := by
  refine .single fun t => ?_
  have hs : Shifts m.loud t t.y t.scrollBottom _ :=
    shifts_insert_remove (i := t.y) (j := t.scrollBottom + 1) (n := count params) true
      (fun hg => Nat.lt_succ_of_lt hg.fits.y_lt) (fun hg => Nat.succ_lt_succ hg.fits.bottom_lt)
      (fun hg => hg.fits.y_lt) (fun hg => hg.fits.bottom_lt) (fun _ _ => by omega)
  refine .shift t.y t.scrollBottom _ hs ?_
  unfold insertLines
  rw [Nat.add_comm t.y, Nat.add_assoc]

theorem does_deleteLines (params : List Nat) : Does (Effect m) (some ∘ deleteLines params) := by
  refine .single fun t => ?_
  have hs : Shifts m.loud t t.y t.scrollBottom _ :=
    shifts_insert_remove (i := t.scrollBottom + 1) (j := t.y) (n := count params) true
      (fun hg => Nat.succ_lt_succ hg.fits.bottom_lt) (fun hg => Nat.lt_succ_of_lt hg.fits.y_lt)
      (fun hg => hg.fits.y_lt) (fun hg => hg.fits.bottom_lt) (fun _ _ => by omega)
  refine .shift t.y t.scrollBottom _ hs ?_
  unfold deleteLines
  rw [Nat.add_comm t.y]
  rfl

theorem Grid.top_lt {t : Terminal} (hg : t.Grid) : t.scrollTop < t.rows :=
  Nat.lt_of_le_of_lt hg.fits.top_le hg.fits.bottom_lt

theorem does_scrollUp (params : List Nat) : Does (Effect m) (some ∘ scrollUp params) :=
  .single fun t => .shift t.scrollTop t.scrollBottom _
    (shifts_remove_insert (n := count params) false Grid.top_lt (fun hg => hg.fits.bottom_lt) _ _ (.inl ⟨rfl, rfl⟩)) rfl

theorem does_scrollDown (params : List Nat) : Does (Effect m) (some ∘ scrollDown params) :=
  .single fun t => .shift t.scrollTop t.scrollBottom _
    (shifts_remove_insert (n := count params) false (fun hg => hg.fits.bottom_lt) Grid.top_lt _ _ (.inr ⟨rfl, rfl⟩)) rfl

/-- Above the region the rows that move are not all reported. -/
theorem reaches_reverseIndex {t : Terminal} (hl : m.loud → t.scrollTop ≤ t.y) :
    Effect m t t.reverseIndex := by
  unfold reverseIndex
  by_cases hy : t.y < t.scrollTop + 1
  · simp only [if_pos hy]
    have hs : Shifts m.loud t t.scrollTop t.scrollBottom _ :=
      shifts_insert_remove (i := t.y) (j := t.scrollBottom + 1) (n := 1) true
        (fun hg => Nat.lt_succ_of_lt hg.fits.y_lt) (fun hg => Nat.succ_lt_succ hg.fits.bottom_lt)
        Grid.top_lt (fun hg => hg.fits.bottom_lt) (fun h hg => by
          have := hl h
          have : t.scrollTop ≤ t.scrollBottom := hg.fits.top_le
          omega)
    refine .shift t.scrollTop t.scrollBottom _ hs ?_
    rw [Function.iterate_one, Nat.add_comm t.y, Nat.add_assoc]
    rfl
  · simp only [if_neg hy]
    refine .move (t.y - 1) (fun _ hg => ?_) rfl
    have : t.y < t.rows := hg.fits.y_lt
    omega

theorem reaches_nextRow (t : Terminal) : Effect m t t.nextRow := by
  unfold nextRow
  split
  · exact .scroll rfl
  · rename_i h
    refine .move (t.y + 1) (fun _ hg => ?_) rfl
    have : t.scrollBottom < t.rows := hg.fits.bottom_lt
    omega

theorem wrap_x {t : Terminal} (h : 0 < t.wrap.cols) : ∀ x ∈ t.wrap.x, x < t.wrap.cols := by
  have hnext : ∀ u : Terminal, u.nextRow.x = u.x := by
    intro u
    unfold nextRow
    split <;> rfl
  intro x hx
  cases hc : t.x with
  | none =>
    rw [wrap_of_none hc, hc] at hx
    cases hx
  | some c =>
    rw [wrap_of_some hc] at h hx ⊢
    by_cases hle : t.cols ≤ c
    · rw [if_pos hle] at h hx ⊢
      rw [hnext] at hx
      cases hx
      exact h
    · rw [if_neg hle, hc] at hx
      rw [if_neg hle]
      cases hx
      exact Nat.lt_of_not_le hle

theorem does_print (ch : CodeUnit) : Does (Effect m) (print ch) := by
  intro t u h
  have hwrap : ReflTransGen (Effect m) t t.wrap := by
    cases hx : t.x with
    | none => rw [wrap_of_none hx]
    | some x =>
      rw [wrap_of_some hx]
      split
      · exact .head (b := { t with x := some 0 }) (.calm rfl) (.single (reaches_nextRow _))
      · exact .refl
  refine hwrap.trans (.single ?_)
  obtain ⟨v, hv, rfl⟩ := Option.map_eq_some_iff.1 h
  rw [onLine_eq_some hv]
  refine .edit t.wrap.y _ (edits_elim fun x hx => edits_fill (n := 1) (fun _ => .inr (.inl rfl)) fun _ hg => ?_)
    (fun hg => hg.fits.y_lt) rfl
  exact (wrap_x hg.cols_pos x hx).le

end Terminal
end Tangle.Term
