/-
What drawing does: rows of the page are replaced, each by the drawing of its line, and nothing else
changes. From it follows what the functions give that draw the whole page: a reset, a resize, and those
that change between the normal and the alternate screen.
-/
import Tangle.Term.Effect

namespace Tangle.Term.Terminal

open JsArray

/-- Another page. -/
def withChildren (children : List Html) (t : Terminal) : Terminal := { t with page := { t.page with children } }

/-! ## Drawing rows -/

theorem draw_eq_some {t u : Terminal} {y : Nat} (h : t.draw y = some u) :
    ∃ out, t.refreshRow y = some out ∧ y < t.page.children.length ∧
      u = t.withChildren (t.page.children.set y out) := by
  obtain ⟨out, hout, h⟩ := Option.bind_eq_some_iff.1 h
  split at h
  · rename_i hy
    cases h
    exact ⟨out, hout, hy, rfl⟩
  · cases h

/-- The rows of a list. -/
theorem drawing_eq_some : ∀ {l : List Nat} {t u : Terminal}, l.foldlM draw t = some u →
    ∃ children, u = t.withChildren children ∧ children.length = t.page.children.length ∧
      ∀ y, children[y]? = if y ∈ l then t.refreshRow y else t.page.children[y]?
  | [], t, u, h => by
    cases h
    exact ⟨t.page.children, rfl, rfl, fun y => by rw [if_neg List.not_mem_nil]⟩
  | j :: l, t, u, h => by
    obtain ⟨v, hv, h⟩ := Option.bind_eq_some_iff.1 h
    obtain ⟨out, hout, hj, rfl⟩ := draw_eq_some hv
    obtain ⟨children, rfl, hlen, hget⟩ := drawing_eq_some h
    refine ⟨children, rfl, hlen.trans List.length_set, fun y => ?_⟩
    rw [hget]
    by_cases hy : y ∈ l
    · rw [if_pos hy, if_pos (List.mem_cons_of_mem j hy)]
      rfl
    · rw [if_neg hy]
      show (t.page.children.set j out)[y]? = _
      rw [List.getElem?_set]
      by_cases hyj : j = y
      · subst hyj
        rw [if_pos rfl, if_pos hj, if_pos List.mem_cons_self, hout]
      · rw [if_neg hyj, if_neg]
        simpa [hy] using Ne.symm hyj

theorem refresh_eq_some {a b : Nat} {t u : Terminal} (h : t.refresh a b = some u) :
    ∃ children, u = t.withChildren children ∧ children.length = t.page.children.length ∧
      ∀ y, children[y]? = if a ≤ y ∧ y ≤ b then t.refreshRow y else t.page.children[y]? := by
  obtain ⟨children, rfl, hlen, hget⟩ := drawing_eq_some h
  refine ⟨children, rfl, hlen, fun y => ?_⟩
  rw [hget]
  refine if_congr ?_ rfl rfl
  rw [List.mem_range'_1]
  omega

theorem drawing_total : ∀ {l : List Nat} {t : Terminal},
    (∀ y ∈ l, (t.refreshRow y).isSome ∧ y < t.page.children.length) → ∃ u, l.foldlM draw t = some u
  | [], t, _ => ⟨t, rfl⟩
  | j :: l, t, h => by
    obtain ⟨hrow, hj⟩ := h j List.mem_cons_self
    obtain ⟨out, hout⟩ := Option.isSome_iff_exists.1 hrow
    have hdraw : t.draw j = some (t.withChildren (t.page.children.set j out)) := by
      rw [draw, hout, Option.bind_some, if_pos hj]
      rfl
    have hrest : ∀ y ∈ l, ((t.withChildren (t.page.children.set j out)).refreshRow y).isSome ∧
        y < (t.page.children.set j out).length := by
      intro y hy
      rw [List.length_set]
      exact h y (List.mem_cons_of_mem j hy)
    obtain ⟨u, hu⟩ := drawing_total hrest
    exact ⟨u, Option.bind_eq_some_iff.2 ⟨_, hdraw, hu⟩⟩

theorem refresh_total {a b : Nat} {t : Terminal}
    (h : ∀ y, a ≤ y → y ≤ b → (t.refreshRow y).isSome ∧ y < t.page.children.length) : ∃ u, t.refresh a b = some u := by
  refine drawing_total fun y hy => ?_
  have := List.mem_range'_1.1 hy
  exact h y (by omega) (by omega)

/-! ## Drawing a row -/

theorem refreshCells_total {brokenBold : Bool} {x : Option Nat} {line : Line} (hd : Filled line) : ∀ n : Nat,
    n ≤ line.length → (refreshCells brokenBold x line n).isSome
  | 0, _ => rfl
  | n + 1, hn => by
    obtain ⟨⟨attr, out⟩, hprev⟩ := Option.isSome_iff_exists.1 (refreshCells_total hd n (by omega))
    obtain ⟨cell, hget⟩ := hd.get (i := n) (by omega)
    rw [refreshCells, hprev, Option.bind_some, hget]
    rfl

theorem refreshLine_total {brokenBold : Bool} {x : Option Nat} {line : Line} {width : Nat} (hd : Filled line)
    (hw : width ≤ line.length) : (refreshLine brokenBold x line width).isSome := by
  rw [refreshLine, Option.isSome_map]
  exact refreshCells_total hd width hw

/-- The rows of a screen of this size can be drawn. -/
theorem refreshRow_total {t : Terminal} (hf : Fits t.cols t.rows t.saved) {y : Nat} (hy : y < t.rows) :
    (t.refreshRow y).isSome := by
  have hlen : t.lines.length = t.ybase + t.rows := hf.length
  have hdisp : t.ydisp ≤ t.ybase := hf.ydisp_le
  have hlt : y + t.ydisp < t.lines.length := by omega
  obtain ⟨hwide, hfilled⟩ := hf.wide t.lines[y + t.ydisp] (List.getElem_mem hlt)
  rw [refreshRow, List.getElem?_eq_getElem hlt, Option.bind_some]
  exact refreshLine_total hfilled hwide

theorem refresh_fits {t : Terminal} (hf : Fits t.cols t.rows t.saved) (hc : t.page.children.length = t.rows) {a b : Nat}
    (hb : b < t.rows) : ∃ u, t.refresh a b = some u :=
  refresh_total fun y _ hyb => ⟨refreshRow_total hf (by omega), by omega⟩

/-! ## What draws the page -/

/-- The same but for the rows of the page, as far as the view goes. -/
structure Redrawn (t u : Terminal) : Prop where
  view : u.view = (t.withChildren u.page.children).view
  length : u.page.children.length = t.page.children.length

theorem Redrawn.trans {t u v : Terminal} (h : Redrawn t u) (h' : Redrawn u v) : Redrawn t v := by
  have hview : (u.withChildren v.page.children).view = (t.withChildren v.page.children).view :=
    congrArg (fun w : View => { w with page := { w.page with children := v.page.children } }) h.view
  exact ⟨h'.view.trans hview, h'.length.trans h.length⟩

theorem redrawn_refresh {t u : Terminal} {a b : Nat} (h : t.refresh a b = some u) : Redrawn t u := by
  obtain ⟨children, rfl, hlen, -⟩ := refresh_eq_some h
  exact ⟨rfl, hlen⟩

theorem redrawn_showCursor {t u : Terminal} (h : t.showCursor = some u) : Redrawn t u := by
  unfold showCursor at h
  split at h
  · obtain ⟨hview, hlen⟩ := redrawn_refresh h
    exact ⟨hview, hlen⟩
  · cases h
    exact ⟨rfl, rfl⟩

theorem redrawn_reset {t u : Terminal} (h : t.reset = some u) : Redrawn (construct t.cols t.rows t) u :=
  redrawn_refresh h

theorem redrawn_alternate {t u : Terminal} {normal : Saved} (h : alternate normal t = some u) :
    Redrawn ((construct t.cols t.rows t).keep (some normal)) u := by
  obtain ⟨v, hv, h⟩ := Option.bind_eq_some_iff.1 h
  obtain ⟨w, hw, rfl⟩ := Option.map_eq_some_iff.1 hv
  obtain ⟨children, rfl, hlen, -⟩ := refresh_eq_some hw
  have hshow := redrawn_showCursor h
  exact ⟨hshow.view, hshow.length.trans hlen⟩

theorem redrawn_leaveAlternate {t u : Terminal} {normal : Saved} (hn : t.normal = some normal)
    (h : t.leaveAlternate = some u) : Redrawn (t.restore normal) u := by
  rw [leaveAlternate, hn] at h
  obtain ⟨v, hv, h⟩ := Option.bind_eq_some_iff.1 h
  exact (redrawn_refresh hv).trans (redrawn_showCursor h)

theorem redrawn_resize {t u : Terminal} {x y : Nat} (h : t.resize x y = some u) :
    Redrawn ((t.fit (if x < 1 then 1 else x) (if y < 1 then 1 else y)).keep none) u := by
  obtain ⟨v, hv, rfl⟩ := Option.map_eq_some_iff.1 h
  obtain ⟨children, rfl, hlen, -⟩ := refresh_eq_some hv
  exact ⟨rfl, hlen⟩

end Tangle.Term.Terminal
