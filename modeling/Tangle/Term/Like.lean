/-
The page is drawn from the rest of the terminal, and nothing else depends on what it shows: from terminals
that are alike but for their pages every function gives such terminals again, up to a run of the parser.
-/
import Tangle.Lib.Observe
import Tangle.Term.Write

namespace Tangle.Term.Terminal

open Observe

def withPage (page : Page) (t : Terminal) : Terminal := { t with page }

/-- The same but for what the page shows and what of it is to be drawn. -/
def Like (s t : Terminal) : Prop :=
  ∃ page : Page, t = s.withPage page ∧ page.children.length = s.page.children.length ∧
    page.brokenBold = s.page.brokenBold

theorem Like.refl (t : Terminal) : Like t t := ⟨t.page, rfl, rfl, rfl⟩

theorem Like.symm {s t : Terminal} (h : Like s t) : Like t s := by
  obtain ⟨page, rfl, hlen, hbold⟩ := h
  exact ⟨s.page, rfl, hlen.symm, hbold.symm⟩

theorem Like.trans {s t u : Terminal} (h : Like s t) (h' : Like t u) : Like s u := by
  obtain ⟨page, rfl, hlen, hbold⟩ := h
  obtain ⟨page', rfl, hlen', hbold'⟩ := h'
  exact ⟨page', rfl, hlen'.trans hlen, hbold'.trans hbold⟩

/-! ## Functions that have nothing to do with the page -/

/-- The page is neither read nor changed. -/
def Plain (f : Terminal → Option Terminal) : Prop :=
  ∀ t page, f (t.withPage page) = (f t).map (withPage page)

theorem Plain.page_eq {f : Terminal → Option Terminal} (hf : Plain f) {t u : Terminal} (h : f t = some u) :
    u.page = t.page := by
  have ht : f t = (f t).map (withPage t.page) := hf t t.page
  rw [h, Option.map_some] at ht
  have hu : u = u.withPage t.page := Option.some.inj ht
  rw [hu]; rfl

theorem Plain.respects {f : Terminal → Option Terminal} (hf : Plain f) : Respects Like Like f := by
  rintro s _ ⟨page, rfl, hlen, hbold⟩
  rw [hf]
  cases h : f s with
  | none => exact .none
  | some u =>
    have hu := hf.page_eq h
    exact .some ⟨page, rfl, by rw [hu]; exact hlen, by rw [hu]; exact hbold⟩

theorem Plain.like {f : Terminal → Terminal} (hf : Plain (some ∘ f)) {s t : Terminal} (h : Like s t) :
    Like (f s) (f t) := by
  obtain ⟨u, hu, h⟩ := rel_some_left (hf.respects s t h)
  cases hu
  exact h

theorem Plain.comp {f g : Terminal → Terminal} (hg : Plain (some ∘ g)) (hf : Plain (some ∘ f)) :
    Plain (some ∘ g ∘ f) := by
  intro t page
  have h1 : f (t.withPage page) = (f t).withPage page := Option.some.inj (hf t page)
  have h2 : g ((f t).withPage page) = (g (f t)).withPage page := Option.some.inj (hg (f t) page)
  show some (g (f (t.withPage page))) = some ((g (f t)).withPage page)
  rw [h1, h2]

theorem plain_some : Plain some := fun _ _ => rfl

theorem plain_withModes (f : Modes → Modes) : Plain (some ∘ withModes f) := fun _ _ => rfl

theorem plain_toState (state : State) : Plain (some ∘ toState state) := fun _ _ => rfl

theorem plain_setgCharset (g : Nat) (cs : Option Charset) : Plain (some ∘ setgCharset g cs) := fun _ _ => rfl

theorem plain_designate (g : Option Nat) : Plain (some ∘ designate g) := fun _ _ => rfl

theorem plain_reply {data : Terminal → Option (List CodeUnit)}
    (h : ∀ t page, data (t.withPage page) = data t) : Plain fun t => some (t.reply (data t)) := by
  intro t page
  show some (reply (data (t.withPage page)) (t.withPage page)) = some ((reply (data t) t).withPage page)
  rw [h]
  cases data t <;> rfl

theorem plain_tabClear (params : List Nat) : Plain (some ∘ tabClear params) := by
  intro t page
  unfold tabClear
  dsimp only [Function.comp]
  split_ifs <;> rfl

theorem plain_setScrollRegion (params : List Nat) : Plain (some ∘ setScrollRegion params) := by
  intro t page
  show some (if t.parser.prefixText ≠ [] then _ else _) = some (withPage page (if t.parser.prefixText ≠ [] then _ else _))
  split_ifs <;> rfl

theorem plain_HVPosition (params : List Nat) : Plain (some ∘ HVPosition params) := by
  intro t page
  unfold HVPosition
  dsimp only [Function.comp]
  cases params[1]? <;> rfl

theorem plain_goRight (n : Nat) : Plain (some ∘ goRight n) := by
  intro t page
  show some (t.x.elim _ _) = some (withPage page (t.x.elim _ _))
  cases t.x <;> rfl

theorem plain_onLine {y : Terminal → Nat} {f : Terminal → Line → Line} (hy : ∀ t page, y (t.withPage page) = y t)
    (hf : ∀ t page, f (t.withPage page) = f t) : Plain fun t => t.onLine (y t) (f t) := by
  intro t page
  show (t.withPage page).onLine (y (t.withPage page)) (f (t.withPage page)) = (t.onLine (y t) (f t)).map (withPage page)
  rw [hy, hf, onLine, onLine, Option.map_map]
  rfl

theorem Plain.ite {p : Terminal → Prop} [DecidablePred p] {f g : Terminal → Option Terminal}
    (hp : ∀ t page, p (t.withPage page) ↔ p t) (hf : Plain f) (hg : Plain g) :
    Plain fun t => if p t then f t else g t := by
  intro t page
  by_cases h : p t
  · simp only [if_pos h, if_pos ((hp t page).2 h)]
    exact hf t page
  · simp only [if_neg h, if_neg (mt (hp t page).1 h)]
    exact hg t page

/-- Nothing happens in column `NaN`. -/
theorem Plain.elim {x : Terminal → Option Nat} {f : Nat → Terminal → Option Terminal}
    (hx : ∀ t page, x (t.withPage page) = x t) (hf : ∀ c, Plain (f c)) :
    Plain fun t => (x t).elim (some t) fun c => f c t := by
  intro t page
  dsimp only
  rw [hx]
  cases x t with
  | none => rfl
  | some c => exact hf c t page

theorem plain_insertChars (params : List Nat) : Plain (insertChars params) :=
  .elim (fun _ _ => rfl) fun _ => .ite (fun _ _ => Iff.rfl) (plain_onLine (fun _ _ => rfl) fun _ _ => rfl) plain_some

theorem plain_eraseChars (params : List Nat) : Plain (eraseChars params) :=
  .elim (fun _ _ => rfl) fun _ => .ite (fun _ _ => Iff.rfl) (plain_onLine (fun _ _ => rfl) fun _ _ => rfl) plain_some

theorem plain_deleteChars (params : List Nat) : Plain (deleteChars params) :=
  plain_onLine (fun _ _ => rfl) fun _ _ => rfl

/-! ## Functions that collect rows to draw, or draw them -/

theorem like_updateRange (y : Nat) {s t : Terminal} (h : Like s t) : Like (s.updateRange y) (t.updateRange y) := by
  obtain ⟨page, rfl, hlen, hbold⟩ := h
  exact ⟨_, rfl, hlen, hbold⟩

theorem like_scroll {s t : Terminal} (h : Like s t) : Like s.scroll t.scroll := by
  obtain ⟨page, rfl, hlen, hbold⟩ := h
  exact ⟨_, rfl, hlen, hbold⟩

theorem like_nextRow {s t : Terminal} (h : Like s t) : Like s.nextRow t.nextRow := by
  have hscroll := like_scroll h
  obtain ⟨page, rfl, hlen, hbold⟩ := h
  unfold nextRow
  by_cases hb : s.scrollBottom < s.y + 1
  · rw [if_pos hb, if_pos (show (s.withPage page).scrollBottom < (s.withPage page).y + 1 from hb)]
    exact hscroll
  · rw [if_neg hb, if_neg (show ¬ (s.withPage page).scrollBottom < (s.withPage page).y + 1 from hb)]
    exact ⟨page, rfl, hlen, hbold⟩

theorem like_reverseIndex {s t : Terminal} (h : Like s t) : Like s.reverseIndex t.reverseIndex := by
  obtain ⟨page, rfl, hlen, hbold⟩ := h
  unfold reverseIndex
  by_cases hy : s.y < s.scrollTop + 1
  · simp only [if_pos hy, if_pos (show (s.withPage page).y < (s.withPage page).scrollTop + 1 from hy)]
    exact ⟨_, rfl, hlen, hbold⟩
  · simp only [if_neg hy, if_neg (show ¬ (s.withPage page).y < (s.withPage page).scrollTop + 1 from hy)]
    exact ⟨_, rfl, hlen, hbold⟩

theorem respects_draw (y : Nat) : Respects Like Like (draw · y) := by
  rintro s _ ⟨page, rfl, hlen, hbold⟩
  have hrow : (s.withPage page).refreshRow y = s.refreshRow y := by
    show s.lines[y + s.ydisp]?.bind (fun line => refreshLine page.brokenBold (s.cursorAt y) line s.cols) = _
    rw [hbold]
    rfl
  show Option.Rel Like ((s.refreshRow y).bind _) (((s.withPage page).refreshRow y).bind _)
  rw [hrow]
  cases s.refreshRow y with
  | none => exact .none
  | some out =>
    show Option.Rel Like (if y < s.page.children.length then _ else none) (if y < page.children.length then _ else none)
    rw [hlen]
    by_cases hy : y < s.page.children.length
    · rw [if_pos hy, if_pos hy]
      refine .some ⟨_, rfl, ?_, hbold⟩
      show (page.children.set y out).length = (s.page.children.set y out).length
      rw [List.length_set, List.length_set, hlen]
    · rw [if_neg hy, if_neg hy]
      exact .none

theorem respects_refresh (first last : Nat) : Respects Like Like (refresh first last) :=
  .foldlM respects_draw _

theorem respects_showCursor : Respects Like Like showCursor := by
  rintro s _ ⟨page, rfl, hlen, hbold⟩
  show Option.Rel Like (if !s.cursorState then _ else _) (if !s.cursorState then _ else _)
  split
  · exact respects_refresh s.y s.y { s with cursorState := true } _ ⟨page, rfl, hlen, hbold⟩
  · exact .some ⟨page, rfl, hlen, hbold⟩

theorem respects_reset : Respects Like Like reset := by
  rintro s _ ⟨page, rfl, hlen, hbold⟩
  exact respects_refresh 0 ((construct s.cols s.rows s).rows - 1) _ _ ⟨page, rfl, hlen, hbold⟩

theorem respects_alternate (normal : Saved) : Respects Like Like (alternate normal) := by
  refine (respects_reset.map ?_).bind respects_showCursor
  rintro s _ ⟨page, rfl, hlen, hbold⟩
  exact ⟨page, rfl, hlen, hbold⟩

theorem respects_enterAlternate : Respects Like Like enterAlternate := by
  intro s t h
  have halt := respects_alternate s.saved s t h
  obtain ⟨page, rfl, hlen, hbold⟩ := h
  show Option.Rel Like (if s.normal.isSome then _ else _) (if s.normal.isSome then _ else _)
  split
  · exact .some ⟨page, rfl, hlen, hbold⟩
  · exact halt

theorem respects_leaveAlternate : Respects Like Like leaveAlternate := by
  rintro s _ ⟨page, rfl, hlen, hbold⟩
  show Option.Rel Like (s.normal.elim _ _) (s.normal.elim _ _)
  cases s.normal with
  | none => exact .some ⟨page, rfl, hlen, hbold⟩
  | some normal =>
    exact ((respects_refresh 0 (s.rows - 1)).bind respects_showCursor) (s.restore normal) _ ⟨page, rfl, hlen, hbold⟩

theorem length_fitRows {α : Type} (rows y size : Nat) (a b : α) {l l' : List α} (h : l.length = l'.length) :
    (fitRows rows y size a l).length = (fitRows rows y size b l').length := by
  have hiter : ∀ (n : Nat) (f g : List α → List α), (∀ l l', l.length = l'.length → (f l).length = (g l').length) →
      ∀ l l' : List α, l.length = l'.length → (f^[n] l).length = (g^[n] l').length := by
    intro n f g hfg
    induction n with
    | zero => intro l l' h; exact h
    | succ n ih => intro l l' h; exact ih _ _ (hfg l l' h)
  unfold fitRows
  split_ifs with h1 h2
  · refine hiter _ _ _ (fun l l' h => ?_) _ _ h
    rw [h]
    split
    · rw [List.length_append, List.length_append, h]; rfl
    · exact h
  · refine hiter _ _ _ (fun l l' h => ?_) _ _ h
    rw [h]
    split
    · rw [List.length_dropLast, List.length_dropLast, h]
    · exact h
  · exact h

theorem respects_resize (x y : Nat) : Respects Like Like (resize x y) := by
  refine Respects.map (Respects.bind (f := fun t : Terminal => some (t.fit _ _)) (.of_total ?_) (respects_refresh _ _)) ?_
  · rintro s _ ⟨page, rfl, hlen, hbold⟩
    exact ⟨_, rfl, length_fitRows _ _ _ _ _ hlen, hbold⟩
  · rintro s _ ⟨page, rfl, hlen, hbold⟩
    exact ⟨page, rfl, hlen, hbold⟩

theorem respects_erase (y : Nat) {f : Terminal → Option Terminal} (hf : Plain f) :
    Respects Like Like fun t => (f t).map fun t => t.updateRange y :=
  hf.respects.map fun _ _ => like_updateRange y

theorem respects_eraseRight (x : Option Nat) (y : Nat) : Respects Like Like (eraseRight x y) :=
  respects_erase y (.elim (fun _ _ => rfl) fun _ =>
    .ite (fun _ _ => Iff.rfl) (plain_onLine (fun _ _ => rfl) fun _ _ => rfl) plain_some)

theorem respects_eraseLeft (x : Option Nat) (y : Nat) : Respects Like Like (eraseLeft x y) :=
  respects_erase y (.elim (fun _ _ => rfl) fun _ => plain_onLine (fun _ _ => rfl) fun _ _ => rfl)

theorem respects_eraseLines (l : List Nat) : Respects Like Like fun t => l.foldlM (fun t j => t.eraseLine j) t :=
  .foldlM (fun j => respects_eraseRight (some 0) j) l

theorem respects_put (ch : CodeUnit) : Respects Like Like (put ch) := by
  have hput : Plain fun t => t.onLine t.y fun line => t.x.elim line fun x => JsArray.store line x (t.curAttr, ch) :=
    plain_onLine (fun _ _ => rfl) fun _ _ => rfl
  refine hput.respects.map ?_
  rintro s _ ⟨page, rfl, hlen, hbold⟩
  exact ⟨_, rfl, hlen, hbold⟩

theorem respects_print (ch : CodeUnit) : Respects Like Like (print ch) := by
  intro s t h
  have hwrap : Like s.wrap t.wrap := by
    obtain ⟨page, rfl, hlen, hbold⟩ := h
    show Like (s.x.elim _ _) (s.x.elim _ _)
    cases s.x with
    | none => exact ⟨page, rfl, hlen, hbold⟩
    | some x =>
      show Like (if s.cols ≤ x then _ else _) (if s.cols ≤ x then _ else _)
      split
      · exact like_nextRow ⟨page, rfl, hlen, hbold⟩
      · exact ⟨page, rfl, hlen, hbold⟩
  have hch : s.translate ch = t.translate ch := by
    obtain ⟨page, rfl, -⟩ := h
    rfl
  unfold print
  rw [hch]
  exact respects_put _ _ _ hwrap

/-! ## Control sequences -/

/-- 132 columns, with the width kept. -/
theorem respects_wide : Respects Like Like fun t => { t with savedCols := some t.cols }.resize 132 t.rows := by
  rintro s _ ⟨page, rfl, hlen, hbold⟩
  exact respects_resize 132 s.rows { s with savedCols := some s.cols } _ ⟨page, rfl, hlen, hbold⟩

theorem respects_resetColumns : Respects Like Like resetColumns := by
  have hfit : Respects Like Like fun t : Terminal =>
      if t.cols = 132 ∧ t.savedCols.getD 0 ≠ 0 then t.resize (t.savedCols.getD 0) t.rows else some t := by
    rintro s _ ⟨page, rfl, hlen, hbold⟩
    show Option.Rel Like (if s.cols = 132 ∧ s.savedCols.getD 0 ≠ 0 then _ else _)
      (if s.cols = 132 ∧ s.savedCols.getD 0 ≠ 0 then _ else _)
    split
    · exact respects_resize (s.savedCols.getD 0) s.rows s _ ⟨page, rfl, hlen, hbold⟩
    · exact .some ⟨page, rfl, hlen, hbold⟩
  refine hfit.map ?_
  rintro s _ ⟨page, rfl, hlen, hbold⟩
  exact ⟨page, rfl, hlen, hbold⟩

theorem respects_setPrivateMode (p : Nat) : Respects Like Like (setPrivateMode p) := by
  unfold setPrivateMode
  split
  case h_2 => exact ((plain_setgCharset _ _).comp ((plain_setgCharset _ _).comp ((plain_setgCharset _ _).comp
    (plain_setgCharset _ _)))).respects
  case h_3 => exact respects_wide
  all_goals first
    | exact (plain_withModes _).respects
    | exact respects_enterAlternate
    | exact plain_some.respects

theorem respects_resetPrivateMode (p : Nat) : Respects Like Like (resetPrivateMode p) := by
  unfold resetPrivateMode
  split
  case h_2 => exact respects_resetColumns
  all_goals first
    | exact (plain_withModes _).respects
    | exact respects_leaveAlternate
    | exact plain_some.respects

/-- `setMode` and `resetMode` of one parameter, by the prefix. -/
theorem respects_mode {f g : Terminal → Option Terminal} (hf : Respects Like Like f) (hg : Respects Like Like g) :
    Respects Like Like fun t =>
      if t.parser.prefixText = [] then f t else if t.parser.prefixText = units "?" then g t else some t := by
  have hbefore : ∀ s t : Terminal, Like s t → s.parser.prefixText = t.parser.prefixText := by
    rintro s _ ⟨page, rfl, -⟩
    rfl
  refine .ite (fun s t h => by rw [hbefore s t h]) hf (.ite (fun s t h => by rw [hbefore s t h]) hg plain_some.respects)

theorem plain_insertMode (p : Nat) (on : Bool) :
    Plain fun t => some (if p = 4 then t.withModes ({ · with insertMode := on }) else t) := by
  intro t page
  split <;> rfl

theorem respects_setMode (params : List Nat) : Respects Like Like (setMode params) :=
  .foldlM (fun p => respects_mode (plain_insertMode p true).respects (respects_setPrivateMode p)) params

theorem respects_resetMode (params : List Nat) : Respects Like Like (resetMode params) :=
  .foldlM (fun p => respects_mode (plain_insertMode p false).respects (respects_resetPrivateMode p)) params

theorem respects_eraseInDisplay (params : List Nat) : Respects Like Like (eraseInDisplay params) := by
  have hbelow : Respects Like Like fun t =>
      (List.range' (t.y + 1) (t.rows - (t.y + 1))).foldlM (fun t j => t.eraseLine j) t := by
    rintro s _ ⟨page, rfl, hlen, hbold⟩
    exact respects_eraseLines (List.range' (s.y + 1) (s.rows - (s.y + 1))) s _ ⟨page, rfl, hlen, hbold⟩
  have habove : Respects Like Like fun t => (List.range t.y).reverse.foldlM (fun t j => t.eraseLine j) t := by
    rintro s _ ⟨page, rfl, hlen, hbold⟩
    exact respects_eraseLines (List.range s.y).reverse s _ ⟨page, rfl, hlen, hbold⟩
  unfold eraseInDisplay
  split
  · rintro s _ ⟨page, rfl, hlen, hbold⟩
    exact ((respects_eraseRight s.x s.y).bind hbelow) s _ ⟨page, rfl, hlen, hbold⟩
  · rintro s _ ⟨page, rfl, hlen, hbold⟩
    exact ((respects_eraseLeft s.x s.y).bind habove) s _ ⟨page, rfl, hlen, hbold⟩
  · rintro s _ ⟨page, rfl, hlen, hbold⟩
    exact respects_eraseLines (List.range s.rows).reverse s _ ⟨page, rfl, hlen, hbold⟩
  · exact plain_some.respects

theorem respects_eraseInLine (params : List Nat) : Respects Like Like (eraseInLine params) := by
  unfold eraseInLine
  split
  · rintro s _ ⟨page, rfl, hlen, hbold⟩
    exact respects_eraseRight s.x s.y s _ ⟨page, rfl, hlen, hbold⟩
  · rintro s _ ⟨page, rfl, hlen, hbold⟩
    exact respects_eraseLeft s.x s.y s _ ⟨page, rfl, hlen, hbold⟩
  · rintro s _ ⟨page, rfl, hlen, hbold⟩
    exact respects_eraseRight (some 0) s.y s _ ⟨page, rfl, hlen, hbold⟩
  · exact plain_some.respects

theorem respects_repeat (params : List Nat) : Respects Like Like (repeatPrecedingCharacter params) := by
  have h : Plain fun t => t.onLine t.y fun line => t.x.elim line fun x =>
      let ch := (if x = 0 then none else JsArray.get line (x - 1)).getD (defAttr, 0x20)
      JsArray.fill line x (count params) ch := plain_onLine (fun _ _ => rfl) fun _ _ => rfl
  refine h.respects.map ?_
  rintro s _ ⟨page, rfl, hlen, hbold⟩
  exact ⟨page, rfl, hlen, hbold⟩

/-- What works on the lines of the region and reports two rows. -/
theorem respects_region {f : Terminal → List Line} {a b : Terminal → Nat} (hf : ∀ t page, f (t.withPage page) = f t)
    (ha : ∀ t page, a (t.withPage page) = a t) (hb : ∀ t page, b (t.withPage page) = b t) :
    Respects Like Like fun t => some (({ t with lines := f t }.updateRange (a t)).updateRange (b t)) := by
  rintro s _ ⟨page, rfl, hlen, hbold⟩
  dsimp only
  rw [hf, ha, hb]
  exact .some ⟨_, rfl, hlen, hbold⟩

theorem respects_scrollDown (params : List Nat) : Respects Like Like fun t =>
    if params.length < 2 ∧ t.parser.prefixText = [] then some (t.scrollDown params) else some t := by
  refine .ite ?_ (respects_region (fun _ _ => rfl) (fun _ _ => rfl) fun _ _ => rfl) plain_some.respects
  rintro s _ ⟨page, rfl, -⟩
  exact Iff.rfl

theorem respects_csiFinal (ch : CodeUnit) (params : List Nat) : Respects Like Like (csiFinal ch params) := by
  unfold csiFinal
  split
  all_goals first
    | exact Plain.respects fun _ _ => rfl
    | exact (plain_reply fun _ _ => rfl).respects
    | exact respects_region (fun _ _ => rfl) (fun _ _ => rfl) fun _ _ => rfl
    | exact respects_eraseInDisplay params
    | exact respects_eraseInLine params
    | exact (plain_insertChars params).respects
    | exact (plain_deleteChars params).respects
    | exact (plain_eraseChars params).respects
    | exact (plain_HVPosition params).respects
    | exact (plain_goRight (count params)).respects
    | exact respects_setMode params
    | exact respects_resetMode params
    | exact (plain_setScrollRegion params).respects
    | exact respects_scrollDown params
    | exact respects_repeat params
    | exact (plain_tabClear params).respects
    | exact (Plain.ite (fun _ _ => Iff.rfl) (fun _ _ => rfl) plain_some).respects

/-! ## The parser -/

/-- Like terminals, and both or neither pass over the next character. -/
def LikeParse (s t : Terminal × Bool) : Prop := Like s.1 t.1 ∧ s.2 = t.2

theorem respects_next {f : Terminal → Option Terminal} (hf : Respects Like Like f) :
    Respects Like LikeParse fun t => (f t).map fun t => (t, false) :=
  hf.map fun _ _ h => ⟨h, rfl⟩

theorem respects_csiEnd (ch : CodeUnit) : Respects Like Like (csiEnd ch) := by
  rintro s _ ⟨page, rfl, hlen, hbold⟩
  have hfinal := (respects_csiFinal ch ((s.parser.params ++ [s.parser.currentParam]).map Param.value)).map
    fun _ _ => (show Plain (some ∘ affixes [] []) from fun _ _ => rfl).like
  exact hfinal ((s.pushParam (.number 0)).toState .normal) _ ⟨page, rfl, hlen, hbold⟩

theorem respects_csiState (ch : CodeUnit) : Respects Like Like (csiState ch) := by
  unfold csiState
  split
  · exact Plain.respects fun _ _ => rfl
  · split
    · exact Plain.respects fun _ _ => rfl
    · split
      · exact Plain.respects fun _ _ => rfl
      · split
        · exact Plain.respects fun _ _ => rfl
        · exact respects_csiEnd ch

theorem respects_normalState (ch : CodeUnit) : Respects Like Like (normalState ch) := by
  have hline : Respects Like Like fun t => some { t with x := if t.modes.convertEol then some 0 else t.x }.nextRow :=
    Respects.of_total fun s t h => like_nextRow ((show Plain (some ∘ fun t =>
      { t with x := if t.modes.convertEol then some 0 else t.x }) from fun _ _ => rfl).like h)
  have hprint : Respects Like Like (if 0x20 ≤ ch then print ch else some) := by
    split
    · exact respects_print ch
    · exact plain_some.respects
  unfold normalState
  split
  all_goals first
    | exact Plain.respects fun _ _ => rfl
    | exact hline
    | exact hprint

/-- A function of the terminal, after which the next character is passed over or not. -/
theorem respects_pair {f : Terminal → Terminal} (hf : Plain (some ∘ f)) (skip : Bool) :
    Respects Like LikeParse fun t => some (f t, skip) :=
  Respects.of_total fun _ _ h => ⟨hf.like h, rfl⟩

theorem plain_charset (ch : CodeUnit) :
    Plain (some ∘ fun t => t.charsets.gcharset.elim t fun g => t.setgCharset g (charsetOf ch)) := by
  intro t page
  show some (t.charsets.gcharset.elim _ _) = some (withPage page (t.charsets.gcharset.elim _ _))
  cases t.charsets.gcharset <;> rfl

theorem respects_charsetState (ch : CodeUnit) : Respects Like LikeParse (some ∘ charsetState ch) :=
  respects_pair ((plain_toState .normal).comp ((plain_designate none).comp (plain_charset ch))) _

theorem respects_escapedState (ch : CodeUnit) : Respects Like LikeParse (escapedState ch) := by
  have hindex : ∀ s t : Terminal, Like s t → Like s.index t.index :=
    fun s t h => (plain_toState .normal).like (like_nextRow h)
  have hnewline : Plain (some ∘ fun t => { t with x := some 0 }) := fun _ _ => rfl
  unfold escapedState
  split
  all_goals first
    | exact respects_pair (fun _ _ => rfl) _
    | exact respects_next respects_reset
    | exact Respects.of_total fun s t h => ⟨hindex _ _ (hnewline.like h), rfl⟩
    | exact Respects.of_total fun s t h => ⟨hindex s t h, rfl⟩
    | exact Respects.of_total fun s t h => ⟨like_reverseIndex h, rfl⟩

theorem plain_oscEnd : Plain (some ∘ oscEnd) := by
  intro t page
  show some (clearParams .normal ((titleOf (t.parser.params ++ [t.parser.currentParam])).elim _ _)) =
    some (withPage page (clearParams .normal ((titleOf (t.parser.params ++ [t.parser.currentParam])).elim _ _)))
  cases titleOf (t.parser.params ++ [t.parser.currentParam]) <;> rfl

theorem plain_dcsEnd : Plain (some ∘ dcsEnd) := by
  have hreply : Plain (some ∘ fun t => t.reply t.controlReply) := plain_reply fun _ _ => rfl
  intro t page
  have h := Option.some.inj (hreply t page)
  show some (toState .normal (((reply _ _).setParam _).affixes [] t.parser.postfixText)) = _
  dsimp only at h
  rw [h]
  rfl

theorem plain_oscText (ch : CodeUnit) : Plain (some ∘ oscText ch) := by
  intro t page
  show some (if t.parser.params = [] then _ else _) = some (withPage page (if t.parser.params = [] then _ else _))
  split
  · cases digit ch with
    | some d => rfl
    | none =>
      dsimp only
      split <;> rfl
  · rfl

theorem plain_dcsText (ch : CodeUnit) : Plain (some ∘ dcsText ch) := by
  intro t page
  show some (if t.parser.currentParam.Falsy then
      if t.parser.prefixText = [] ∧ ch.char ≠ '$' ∧ ch.char ≠ '+' then _
      else if t.parser.prefixText.length = 2 then _ else _ else _) = some (withPage page (dcsText ch t))
  unfold dcsText
  split_ifs <;> rfl

/-- The states between an introducer and what ends it. -/
theorem respects_until {e f : Terminal → Terminal} {ch : CodeUnit} (he : Plain (some ∘ e)) (hf : Plain (some ∘ f)) :
    Respects Like LikeParse fun t =>
      some (if Ends ch then (e t, decide (ch.char = '\x1b')) else (f t, false)) := by
  by_cases h : Ends ch
  · simp only [if_pos h]
    exact respects_pair he _
  · simp only [if_neg h]
    exact respects_pair hf _

theorem respects_round (ch : CodeUnit) : Respects Like LikeParse (round · ch) := by
  intro s t h
  have hstate : t.parser.state = s.parser.state := by
    obtain ⟨page, rfl, -⟩ := h
    rfl
  show Option.Rel LikeParse (s.round ch) (t.round ch)
  unfold round
  rw [hstate]
  cases s.parser.state with
  | normal => exact respects_next (respects_normalState ch) s t h
  | escaped => exact respects_escapedState ch s t h
  | charset => exact respects_charsetState ch s t h
  | osc => exact respects_until plain_oscEnd (plain_oscText ch) s t h
  | csi => exact respects_next (respects_csiState ch) s t h
  | dcs => exact respects_until plain_dcsEnd (plain_dcsText ch) s t h
  | ignore => exact respects_until (plain_toState .normal) plain_some s t h

theorem respects_parse (ch : CodeUnit) : Respects LikeParse LikeParse (parse · ch) := by
  rintro ⟨s, skip⟩ ⟨t, skip'⟩ ⟨h, rfl⟩
  cases skip with
  | true => exact .some ⟨h, rfl⟩
  | false => exact respects_round ch s t h

/-- Like terminals become like terminals with what is written, up to what is drawn at the end. -/
theorem respects_parsing (data : List CodeUnit) : Respects LikeParse LikeParse (Machine.exec parse · data) :=
  .exec respects_parse data

end Tangle.Term.Terminal
