/-
When `destroy` returns. Of a call on a tab or on a window it is known beforehand to which terminals the keyboard
goes one after the other: to the neighbours of the tabs that lose it, and to the next window. Each of them draws
its row, and so does the one that has it at first. A window that goes takes its element out of the page, after
its terminals were resized if it was maximized. The call returns exactly where nothing of that throws.
-/
import Tangle.Browser.Dom

namespace Tangle

open Demands

/-! ## The keyboard -/

/-- Which terminal has the keyboard, and which show their cursor. -/
structure Keyboard where
  focus : Option Nat
  cursorState : Nat → Bool

namespace Keyboard

def give (k : Keyboard) (t : Nat) : Keyboard :=
  if k.focus = some t then k
  else
    let cursorState := k.focus.elim k.cursorState fun u => Function.update k.cursorState u false
    ⟨some t, Function.update cursorState t true⟩

/-- What can be drawn is enough for `t` to get the keyboard. -/
def Hands (drawable : Nat → Bool) (k : Keyboard) (t : Nat) : Prop :=
  k.focus = some t ∨ (∀ u ∈ k.focus, drawable u = true) ∧ (k.cursorState t = true ∨ drawable t = true)

/-- The same for one after the other. -/
def Passes (drawable : Nat → Bool) : Keyboard → List Nat → Prop
  | _, [] => True
  | k, t :: ts => Hands drawable k t ∧ Passes drawable (k.give t) ts

instance decidableHands (drawable : Nat → Bool) (k : Keyboard) (t : Nat) : Decidable (Hands drawable k t) :=
  inferInstanceAs (Decidable (_ ∨ _))

instance decidablePasses (drawable : Nat → Bool) : ∀ (k : Keyboard) (ts : List Nat),
    Decidable (Passes drawable k ts)
  | _, [] => .isTrue trivial
  | k, t :: ts =>
    have := decidablePasses drawable (k.give t) ts
    inferInstanceAs (Decidable (Hands drawable k t ∧ Passes drawable (k.give t) ts))

@[simp] theorem give_focus (k : Keyboard) (t : Nat) : (k.give t).focus = some t := by
  unfold give
  split
  · assumption
  · rfl

theorem passes_append {drawable : Nat → Bool} (us : List Nat) : ∀ {ts : List Nat} {k : Keyboard},
    Passes drawable k (ts ++ us) ↔ Passes drawable k ts ∧ Passes drawable (ts.foldl give k) us
  | [], k => (and_iff_right trivial).symm
  | t :: ts, k => by
    rw [List.cons_append, Passes, Passes, List.foldl_cons, passes_append us, and_assoc]

end Keyboard

namespace Wm

/-! ## Who gets it -/

/-- The tab that `focusTab(false)` finds when the focused tab `t` has left these. -/
def heir (t : Nat) (tabs : List Nat) : Nat := (tabs.filter (· ≠ t)).getLast?.getD t

theorem target_removed {win : Window} {t : Nat} (hf : win.focused = some t) :
    Window.target false { win with tabs := win.tabs.filter (· ≠ t) } = some (heir t win.tabs) := by
  have hi : indexOf (win.tabs.filter (· ≠ t)) (some t) = -1 := by
    rcases indexOfFrom_cases (win.tabs.filter (· ≠ t)) (some t) (win.tabs.filter (· ≠ t)).length with
      ⟨h, -⟩ | ⟨j, -, -, h⟩
    · exact h
    · have := List.mem_of_getElem? h
      simp at this
  have hlast : ∀ l : List Nat, item l (l.length - 1) = l.getLast? := by
    intro l
    obtain rfl | ⟨l, u, rfl⟩ := List.eq_nil_or_concat' l
    · rfl
    · rw [List.length_append, List.length_singleton, Nat.cast_add, Nat.cast_one, Int.add_sub_cancel, item_natCast]
      simp
  unfold Window.target heir
  rw [hf]
  simp only [hi, hlast]
  have hneg : item (win.tabs.filter (· ≠ t)) (-1 - 1) = none := rfl
  rw [hneg]
  cases (win.tabs.filter (· ≠ t)).getLast? <;> rfl

/-- To whom a tab of the window hands the keyboard when it goes. -/
def handed (t : Nat) (win : Window) : List Nat := if win.focused = some t then [heir t win.tabs] else []

/-- To whom the tabs of a window hand it that go in this order, when `g` has it and `f` is focused in the
window. -/
def heirs : Option Nat → Option Nat → List Nat → List Nat
  | _, _, [] => []
  | g, f, t :: ts =>
    if f = some t then
      let h := ts.head?.getD t
      h :: heirs (some h) (if g = some h then f else some h) ts
    else heirs g f ts

/-- To whom a window hands it when it goes. -/
def successor (w : Nat) (s : Wm) : List Nat :=
  match s.opened.filter (· ≠ w) with
  | [] => []
  | v :: _ => (s.windows[v]?.bind fun win => win.focused).toList

end Wm

namespace Dom

open Wm (Listed Cascade Aims Call Populated)
open Keyboard (Hands Passes give)

def keyboard (d : Dom) : Keyboard := ⟨d.focus, d.cursorState⟩

/-- The page with these windows and tabs, and with the cursors that `k` says. -/
def handOver (d : Dom) (s : Wm) (k : Keyboard) : Dom := { d with toWm := s, cursorState := k.cursorState }

theorem keyboard_handOver (d : Dom) {s : Wm} {k : Keyboard} (h : s.focus = k.focus) : (d.handOver s k).keyboard = k := by
  unfold keyboard
  rw [show (d.handOver s k).focus = k.focus from h]
  rfl

variable {d : Dom} {t w : Nat} {tab : Wm.Tab} {win : Wm.Window}

theorem tab_run (ht : d.tabs[t]? = some tab) : (Dom.tab t).run d = .ok tab d := by
  rw [Dom.tab, read_run, ht]
  rfl

theorem window_run (hw : d.windows[w]? = some win) : (window w).run d = .ok win d := by
  rw [window, read_run, hw]
  rfl

theorem update_run (f : Wm → Wm) (d : Dom) : (update f).run d = .ok () (d.place (f d.toWm)) := rfl

theorem refresh_needs (t : Nat) (d : Dom) : Needs (Terminal.refresh t) d (d.drawable t = true) () d := by
  constructor
  · intro h
    rw [refresh_ok]
    exact ⟨h, rfl⟩
  · intro h
    rw [Terminal.refresh, read_run, if_neg h]
    exact ⟨_, _, rfl⟩

theorem showCursor_needs (t : Nat) (d : Dom) : Needs (Terminal.showCursor t) d
    (d.cursorState t = true ∨ d.drawable t = true) ()
    { d with cursorState := Function.update d.cursorState t true } := by
  have hread : (Terminal.showCursor t).run d = (if d.cursorState t = true then pure () else do
      Terminal.setCursor t true
      Terminal.refresh t : Run Unit).run d := rfl
  by_cases hc : d.cursorState t = true
  · rw [if_pos hc] at hread
    have hsame : Function.update d.cursorState t true = d.cursorState := by rw [← hc, Function.update_eq_self]
    rw [hsame]
    exact (Needs.of_run hread).iff (by simp [hc])
  · rw [if_neg hc] at hread
    have h : Needs (do Terminal.setCursor t true; Terminal.refresh t : Run Unit) d (d.drawable t = true) ()
        { d with cursorState := Function.update d.cursorState t true } :=
      .after rfl (refresh_needs t _)
    exact (h.congr hread).iff (by simp [hc])

theorem _focus_needs (t : Nat) (d : Dom) : Needs (Tab._focus t) d (Hands d.drawable d.keyboard t) ()
    (d.handOver (Wm.Tab._focus t d.toWm) (d.keyboard.give t)) := by
  by_cases hf : d.focus = some t
  · have hrun : (Tab._focus t).run d = .ok () d := by
      rw [Tab._focus, read_run]
      dsimp only
      rw [if_pos hf]
      rfl
    have hsame : d.handOver (Wm.Tab._focus t d.toWm) (d.keyboard.give t) = d := by
      have hgive : d.keyboard.give t = d.keyboard := if_pos hf
      rw [hgive]
      unfold handOver Wm.Tab._focus
      rw [← hf]
      rfl
    rw [hsame]
    exact (Needs.of_run hrun).iff ⟨fun _ => .inl hf, fun _ => trivial⟩
  · have hgive : d.keyboard.give t = ⟨some t, Function.update
        (d.focus.elim d.cursorState fun u => Function.update d.cursorState u false) t true⟩ := if_neg hf
    have hHands : Hands d.drawable d.keyboard t ↔ (∀ u ∈ d.focus, d.drawable u = true) ∧
        (d.cursorState t = true ∨ d.drawable t = true) := or_iff_right hf
    rw [hgive]
    cases hg : d.focus with
    | none =>
      have hrun : (Tab._focus t).run d = (Terminal.showCursor t).run (d.place (Wm.Tab._focus t d.toWm)) := by
        rw [Tab._focus, read_run]
        dsimp only
        rw [if_neg hf, hg]
        rfl
      exact ((showCursor_needs t _).congr hrun).iff (by rw [hHands, hg]; simp; rfl)
    | some u =>
      have hrun : (Tab._focus t).run d = (do
          Terminal.blur u
          update (Wm.Tab._focus t)
          Terminal.showCursor t : Run Unit).run d := by
        rw [Tab._focus, read_run]
        dsimp only
        rw [if_neg hf, hg]
      have hut : t ≠ u := fun he => hf (by rw [hg, he])
      have hblur : Needs (Terminal.blur u) d (d.drawable u = true) ()
          { d with cursorState := Function.update d.cursorState u false } := .after rfl (refresh_needs u _)
      refine (Needs.congr (hblur.bind fun _ => .after (update_run (Wm.Tab._focus t) _) (showCursor_needs t _))
        hrun).iff ?_
      rw [hHands, hg]
      simp [place, Function.update_of_ne hut]

/-! ## Focus -/

theorem focus_needs (ht : d.tabs[t]? = some tab) (hw : d.windows[tab.window]? = some win) (n : Nat) :
    Needs (Tab.focus (n + 3) t) d (Hands d.drawable d.keyboard t) ()
      (d.handOver (Wm.Tab.focusOn t tab win d.toWm) (d.keyboard.give t)) := by
  by_cases hf : d.focus = some t
  · have hrun : (Tab.focus (n + 3) t).run d = .ok () d := by
      rw [Tab.focus, read_run, if_pos hf]
      rfl
    have hsame : d.handOver (Wm.Tab.focusOn t tab win d.toWm) (d.keyboard.give t) = d := by
      have hgive : d.keyboard.give t = d.keyboard := if_pos hf
      have hon : Wm.Tab.focusOn t tab win d.toWm = d.toWm := if_pos hf
      rw [hgive, hon]
      rfl
    rw [hsame]
    exact (Needs.of_run hrun).iff ⟨fun _ => .inl hf, fun _ => trivial⟩
  · have hon : Wm.Tab.focusOn t tab win d.toWm = Wm.Tab.take t tab win d.toWm := if_neg hf
    obtain ⟨win', hw', hf'⟩ := Wm.Tab.take_window (t := t) hw
    -- the window finds the tab focused, and the tab finds that it has the keyboard
    have hback : (Window.focus (n + 2) tab.window).run (d.handOver (Wm.Tab.take t tab win d.toWm) (d.keyboard.give t)) =
        .ok () (d.handOver (Wm.Tab.take t tab win d.toWm) (d.keyboard.give t)) := by
      rw [Window.focus, window_then]
      refine ⟨win', hw', ?_⟩
      rw [hf', defined_then]
      refine ⟨t, rfl, ?_⟩
      rw [Tab.focus, read_run, if_pos (show (d.handOver (Wm.Tab.take t tab win d.toWm) _).focus = some t from rfl)]
      rfl
    have hrun : (Tab.focus (n + 3) t).run d = (do
        let tab ← Dom.tab t
        let win ← window tab.window
        update fun s => if win.focused = some t then s else Wm.Tab.switch t tab.window win s
        Tab._focus t
        Window.focus (n + 2) tab.window : Run Unit).run d := by
      rw [Tab.focus, read_run, if_neg hf]
    have hkeyboard : ∀ s : Wm, s.focus = d.focus → (d.place s).keyboard = d.keyboard := by
      intro s hs
      unfold keyboard
      rw [← hs]
      rfl
    rw [hon]
    refine Needs.congr (.after (tab_run ht) (.after (window_run hw) (.after (update_run _ d) ?_))) hrun
    have h := _focus_needs t (d.place (if win.focused = some t then d.toWm else Wm.Tab.switch t tab.window win d.toWm))
    rw [hkeyboard] at h
    · exact h.before hback
    · split_ifs
      · rfl
      · unfold Wm.Tab.switch
        cases win.focused <;> rfl

theorem window_focus_needs {f : Nat} (hw : d.windows[w]? = some win) (hf : win.focused = some f)
    (ht : d.tabs[f]? = some tab) (hown : tab.window = w) (n : Nat) :
    Needs (Window.focus (n + 4) w) d (Hands d.drawable d.keyboard f) ()
      (d.handOver (Wm.Tab._focus f d.toWm) (d.keyboard.give f)) := by
  have h := focus_needs ht (hown ▸ hw) n
  rw [Wm.Tab.focusOn_of_focused hf] at h
  rw [Window.focus]
  refine .after (window_run hw) ?_
  rw [hf]
  exact .after rfl h

theorem focusTab_needs {h : Nat} {next : Bool} (hw : d.windows[w]? = some win) (htarget : win.target next = some h)
    (ht : d.tabs[h]? = some tab) (hown : tab.window = w) (n : Nat) :
    Needs (Window.focusTab (n + 3) next w) d (Hands d.drawable d.keyboard h) ()
      (d.handOver (Wm.Tab.focusOn h tab win d.toWm) (d.keyboard.give h)) := by
  refine .after (window_run hw) ?_
  rw [htarget]
  exact focus_needs ht (hown ▸ hw) n

/-- Before a window goes through its tabs. -/
theorem focusFirst_needs (hl : Listed d.toWm) (ha : Aims d.toWm) (hw : w ∉ d.opened) (n : Nat) :
    Needs (focusFirst (n + 4)) d (Passes d.drawable d.keyboard (Wm.successor w d.toWm)) ()
      (d.handOver { d.toWm with focus := ((Wm.successor w d.toWm).foldl give d.keyboard).focus }
        ((Wm.successor w d.toWm).foldl give d.keyboard)) := by
  have hall : d.opened.filter (· ≠ w) = d.opened :=
    List.filter_eq_self.2 fun v hv => by simpa using fun he : v = w => hw (he ▸ hv)
  have hrun : (focusFirst (n + 4)).run d = (match d.opened with
      | v :: _ => Window.focus (n + 4) v
      | [] => pure ()).run d := by
    rw [focusFirst, read_run]
    cases d.opened <;> rfl
  unfold Wm.successor
  rw [hall]
  cases ho : d.opened with
  | nil =>
    rw [ho] at hrun
    exact Needs.of_run hrun
  | cons v l =>
    rw [ho] at hrun
    obtain ⟨win, f, hv, hf⟩ := ha v (by rw [ho]; exact List.mem_cons_self ..)
    obtain ⟨tab, ht, hown⟩ := hl.focused v win f hv hf
    have h := (window_focus_needs hv hf ht hown n).congr hrun
    simp only [hv, Option.bind_some, hf, Option.toList_some, List.foldl_cons, List.foldl_nil, Passes, and_true,
      Keyboard.give_focus]
    exact h

/-! ## A tab -/

/-- What `Tab._destroy` has done before it looks whether the window has tabs left. -/
structure Left (d : Dom) (t : Nat) (tab : Wm.Tab) (win : Wm.Window) (s₁ : Wm) (win₁ : Wm.Window) : Prop where
  window : s₁.windows[tab.window]? = some win₁
  tabs : win₁.tabs = win.tabs.filter (· ≠ t)
  destroyed : win₁.destroyed = win.destroyed
  focused : win₁.focused = if win.focused = some t then
    (if d.focus = some (Wm.heir t win.tabs) then some t else some (Wm.heir t win.tabs)) else win.focused
  focus : s₁.focus = ((Wm.handed t win).foldl give d.keyboard).focus
  cascade : Cascade d.toWm s₁ [t] [] []
  others : ∀ v ≠ tab.window, s₁.windows[v]? = d.windows[v]?

theorem heir_tab (hl : Listed d.toWm) (ht : d.tabs[t]? = some tab) (hw : d.windows[tab.window]? = some win) :
    ∃ tab', d.tabs[Wm.heir t win.tabs]? = some tab' ∧ tab'.window = tab.window := by
  unfold Wm.heir
  cases hlast : (win.tabs.filter (· ≠ t)).getLast? with
  | none => exact ⟨tab, ht, rfl⟩
  | some u =>
    have hmem := (List.mem_filter.1 (List.mem_of_getLast? hlast)).1
    obtain ⟨tab', hu, hown, -⟩ := (hl.tabs _ win hw u).1 hmem
    exact ⟨tab', hu, hown⟩

/-- The window of a tab to which the keyboard is handed. -/
theorem focusOn_window {s : Wm} {h : Nat} (hw : s.windows[tab.window]? = some win) :
    ∃ win', (Wm.Tab.focusOn h tab win s).windows[tab.window]? = some win' ∧ win'.tabs = win.tabs ∧
      win'.destroyed = win.destroyed ∧ win'.focused = if s.focus = some h then win.focused else some h := by
  unfold Wm.Tab.focusOn Wm.Tab.take
  by_cases hg : s.focus = some h
  · rw [if_pos hg, if_pos hg]
    exact ⟨win, hw, rfl, rfl, rfl⟩
  · rw [if_neg hg, if_neg hg]
    by_cases hf : win.focused = some h
    · rw [if_pos hf]
      exact ⟨win, hw, rfl, rfl, hf⟩
    · rw [if_neg hf]
      exact ⟨{ win with focused := some h }, by simp [Wm.Tab.switch_windows, hw], rfl, rfl, rfl⟩

theorem focusOn_others {s : Wm} {h v : Nat} (hv : v ≠ tab.window) :
    (Wm.Tab.focusOn h tab win s).windows[v]? = s.windows[v]? := by
  unfold Wm.Tab.focusOn Wm.Tab.take
  split_ifs
  · rfl
  · rfl
  · simp [Wm.Tab.switch_windows, hv]

theorem leave_needs (hl : Listed d.toWm) (ht : d.tabs[t]? = some tab) (hw : d.windows[tab.window]? = some win)
    (n : Nat) : ∃ s₁ win₁, Left d t tab win s₁ win₁ ∧
      Needs (do
          update (Wm.Tab.remove t tab)
          let win ← window tab.window
          if win.focused = some t then Window.focusTab (n + 3) false tab.window)
        d (Passes d.drawable d.keyboard (Wm.handed t win)) ()
        (d.handOver s₁ ((Wm.handed t win).foldl give d.keyboard)) := by
  have hc := Cascade.remove hl ht
  have hw₁ := hl.remove_windows ht tab.window
  rw [hw, Option.map_some] at hw₁
  have hothers : ∀ v ≠ tab.window, (Wm.Tab.remove t tab d.toWm).windows[v]? = d.windows[v]? := by
    intro v hv
    rw [Wm.Tab.remove_windows]
    cases d.windows[v]? <;> simp [hv]
  by_cases hf : win.focused = some t
  · obtain ⟨tab₁, hh, hown⟩ : ∃ tab₁, (Wm.Tab.remove t tab d.toWm).tabs[Wm.heir t win.tabs]? = some tab₁ ∧
        tab₁.window = tab.window := by
      obtain ⟨tab', hh, hown⟩ := heir_tab hl ht hw
      obtain ⟨p, hp⟩ := hc.tab _ tab' hh
      exact ⟨_, hp, hown⟩
    obtain ⟨win₂, hwin₂, htabs, hdes, hfoc⟩ := focusOn_window (h := Wm.heir t win.tabs) (hown.symm ▸ hw₁)
    rw [hown] at hwin₂
    have hhanded : Wm.handed t win = [Wm.heir t win.tabs] := if_pos hf
    rw [hhanded]
    refine ⟨_, win₂, ⟨hwin₂, htabs, hdes, ?_, ?_, hc.trans (.focusOn hh _), fun v hv => ?_⟩, ?_⟩
    · rw [if_pos hf, hfoc, hf]
      rfl
    · simp [Wm.Tab.focusOn_focus, hhanded]
    · rw [focusOn_others (hown ▸ hv), hothers v hv]
    · refine .after (update_run _ d) (.after (window_run hw₁) ?_)
      rw [if_pos hf]
      have hfocus := focusTab_needs (d := d.place (Wm.Tab.remove t tab d.toWm)) hw₁ (Wm.target_removed hf) hh hown n
      exact hfocus.iff (and_iff_left trivial).symm
  · have hhanded : Wm.handed t win = [] := if_neg hf
    refine ⟨_, _, ⟨hw₁, rfl, rfl, ?_, ?_, hc, hothers⟩, ?_⟩
    · rw [if_neg hf]
    · rw [hhanded]
      rfl
    · refine .after (update_run _ d) (.after (window_run hw₁) ?_)
      rw [if_neg hf, hhanded]
      exact Needs.of_run rfl

/-- What is left for `Tab._destroy` to do then. -/
def closeIfEmpty (n w : Nat) : Run Unit := do
  let win ← window w
  if win.tabs = [] then Window.destroy n w

theorem _destroy_run (ht : d.tabs[t]? = some tab) (hd : tab.destroyed = false) (n : Nat) :
    (Tab._destroy (n + 1) t).run d = ((do
      update (Wm.Tab.remove t tab)
      let win ← window tab.window
      if win.focused = some t then Window.focusTab n false tab.window : Run Unit) >>= fun _ =>
      closeIfEmpty n tab.window).run d := by
  have hrun : ∀ {β : Type} (g : Wm.Tab → Run β), (Dom.tab t >>= g).run d = (g tab).run d := by
    intro β g
    rw [EStateM.run_bind, tab_run ht]
  rw [Tab._destroy, hrun, hd, if_neg Bool.false_ne_true]
  simp only [bind_assoc]
  refine congrArg (fun m : Run Unit => m.run d) (bind_congr fun _ => bind_congr fun win => ?_)
  split_ifs <;> rfl

/-- A tab of an open window; `Q` is what its window needs to close, if it does. -/
theorem destroy_needs (hl : Listed d.toWm) (ht : d.tabs[t]? = some tab) (hd : tab.destroyed = false)
    (hw : d.windows[tab.window]? = some win) (n : Nat) :
    ∃ s₁ win₁, Left (d.place (d.toWm.emit (.kill t))) t tab win s₁ win₁ ∧ ∀ Q u,
      Needs (closeIfEmpty (n + 3) tab.window) (d.handOver s₁ ((Wm.handed t win).foldl give d.keyboard)) Q () u →
      Needs (Tab.destroy (n + 5) t) d (Passes d.drawable d.keyboard (Wm.handed t win) ∧ Q) ()
        (u.place (u.toWm.emit (.closeTab t))) := by
  have hl₀ : Listed (d.toWm.emit (.kill t)) := hl.cascade (.emit (.kill t) d.toWm)
  obtain ⟨s₁, win₁, hleft, hneeds⟩ := leave_needs (d := d.place (d.toWm.emit (.kill t))) hl₀ ht hw n
  refine ⟨s₁, win₁, hleft, fun Q u hQ => ?_⟩
  have hrun : (Tab.destroy (n + 5) t).run d = (do
      update (Wm.emit (.kill t))
      Tab._destroy (n + 4) t
      update (Wm.emit (.closeTab t)) : Run Unit).run d := by
    rw [Tab.destroy, EStateM.run_bind, tab_run ht]
    simp only [hd, if_neg Bool.false_ne_true]
  have hself := (hneeds.bind fun _ => hQ).congr (_destroy_run (d := d.place (d.toWm.emit (.kill t))) ht hd (n + 3))
  exact Needs.congr (.after (update_run _ d) (hself.before (update_run _ u))) hrun

/-- The tab goes alone if its window is destroyed or has other tabs. -/
theorem destroy_alone (hl : Listed d.toWm) (ht : d.tabs[t]? = some tab) (hd : tab.destroyed = false)
    (hw : d.windows[tab.window]? = some win) (halone : win.destroyed = true ∨ win.tabs.filter (· ≠ t) ≠ []) (n : Nat) :
    ∃ s' win', Left (d.place (d.toWm.emit (.kill t))) t tab win s' win' ∧
      Needs (Tab.destroy (n + 5) t) d (Passes d.drawable d.keyboard (Wm.handed t win)) ()
        (d.handOver (s'.emit (.closeTab t)) ((Wm.handed t win).foldl give d.keyboard)) := by
  obtain ⟨s₁, win₁, hleft, hneeds⟩ := destroy_needs hl ht hd hw n
  refine ⟨s₁, win₁, hleft, (hneeds True (d.handOver s₁ ((Wm.handed t win).foldl give d.keyboard)) ?_).iff
    (and_iff_left trivial)⟩
  refine .after (window_run hleft.window) (Needs.of_run ?_)
  split_ifs with hnil
  · rw [hleft.tabs] at hnil
    have hwd := hleft.destroyed.trans (halone.resolve_right fun h => h hnil)
    rw [Window.destroy, window_then]
    refine ⟨win₁, hleft.window, ?_⟩
    rw [if_pos hwd]
    rfl
  · rfl

/-! ## The tabs of a window that goes -/

theorem eachFrom_needs (n : Nat) : ∀ (i : Nat) {d : Dom} {win : Wm.Window}, Listed d.toWm →
    d.windows[w]? = some win → win.destroyed = true → win.tabs.length = i →
    ∃ d', Needs (Window.eachFrom (Tab.destroy (n + 5)) w i) d
      (Passes d.drawable d.keyboard (Wm.heirs d.focus win.focused win.tabs.reverse)) () d' := by
  intro i
  induction i with
  | zero =>
    intro d win _ _ _ hlen
    rw [List.length_eq_zero_iff.1 hlen]
    exact ⟨d, .of_run rfl⟩
  | succ i ih =>
    intro d win hl hw hwd hlen
    obtain hnil | ⟨l, t, hlt⟩ := List.eq_nil_or_concat' win.tabs
    · simp [hnil] at hlen
    have hi : l.length = i := by simpa [hlt] using hlen
    have hget : win.tabs[i]? = some t := by rw [hlt, ← hi, List.getElem?_concat_length]
    have htl : t ∉ l := by
      have := hl.nodup w win hw
      rw [hlt] at this
      simpa using (List.nodup_append.1 this).2.2 t
    have hfilter : win.tabs.filter (· ≠ t) = l := by
      rw [hlt, List.filter_append]
      simpa using fun u hu => fun he : u = t => htl (he ▸ hu)
    have hheir : Wm.heir t win.tabs = l.reverse.head?.getD t := by
      rw [Wm.heir, hfilter, List.head?_reverse]
    obtain ⟨tab, ht, rfl, hd⟩ := (hl.tabs w win hw t).1 (by rw [hlt]; simp)
    obtain ⟨s', win', hleft, hneeds⟩ := destroy_alone hl ht hd hw (.inl hwd) n
    have hl' : Listed (s'.emit (.closeTab t)) :=
      ((hl.cascade (.emit (.kill t) d.toWm)).cascade hleft.cascade).cascade (.emit (.closeTab t) s')
    have htabs : win'.tabs = l := hleft.tabs.trans hfilter
    obtain ⟨d', hrest⟩ := ih (d := d.handOver (s'.emit (.closeTab t)) ((Wm.handed t win).foldl give d.keyboard))
      hl' hleft.window (hleft.destroyed.trans hwd) (htabs ▸ hi)
    have hfocus : (s'.emit (.closeTab t)).focus = ((Wm.handed t win).foldl give d.keyboard).focus := hleft.focus
    rw [keyboard_handOver d hfocus, htabs] at hrest
    have hheirs : Wm.heirs d.focus win.focused win.tabs.reverse = Wm.handed t win ++
        Wm.heirs (s'.emit (.closeTab t)).focus win'.focused l.reverse := by
      have hfocused : win'.focused = if win.focused = some t then
          (if d.focus = some (Wm.heir t win.tabs) then some t else some (Wm.heir t win.tabs)) else win.focused :=
        hleft.focused
      rw [hfocus, hfocused, Wm.handed, hheir, hlt, List.reverse_append, List.reverse_singleton, List.singleton_append,
        Wm.heirs]
      by_cases hf : win.focused = some t
      · simp [hf]
      · simp [hf]
        rfl
    refine ⟨d', ?_⟩
    rw [hheirs]
    refine Needs.iff (.after (window_run hw) (.after (a := t) (t := d) ?_ (hneeds.bind fun _ => hrest)))
      (Keyboard.passes_append _).symm
    rw [hget]
    rfl

theorem each_needs (hl : Listed d.toWm) (hw : d.windows[w]? = some win) (hwd : win.destroyed = true) (n : Nat) :
    ∃ d', Needs (Window.each (Tab.destroy (n + 5)) w) d
      (Passes d.drawable d.keyboard (Wm.heirs d.focus win.focused win.tabs.reverse)) () d' := by
  obtain ⟨d', h⟩ := eachFrom_needs n _ hl hw hwd rfl
  exact ⟨d', .after (window_run hw) h⟩

/-! ## A window -/

theorem resize_needs (t : Nat) (d : Dom) : Needs (Tab.resize t) d (d.resizable t = true) ()
    { d with drawable := Function.update d.drawable t true } := by
  by_cases hr : d.resizable t = true
  · refine (Needs.of_run ?_).iff (iff_of_true trivial hr)
    rw [Tab.resize, read_run, if_pos hr]
    rfl
  · refine ⟨fun h => absurd h hr, fun _ => ?_⟩
    rw [Tab.resize, read_run, if_neg hr]
    exact ⟨_, _, rfl⟩

theorem resizeFrom_needs {w : Nat} {win : Wm.Window} : ∀ (i : Nat) {d : Dom}, i ≤ win.tabs.length →
    d.windows[w]? = some win →
    Needs (Window.eachFrom Tab.resize w i) d (∀ t ∈ win.tabs.take i, d.resizable t = true) ()
      { d with drawable := fun t => d.drawable t || decide (t ∈ win.tabs.take i) }
  | 0, d, _, _ => by
    simp only [List.take_zero, List.not_mem_nil, decide_false, Bool.or_false]
    exact (Needs.of_run rfl).iff (by simp)
  | i + 1, d, hi, hw => by
    obtain ⟨u, hget⟩ : ∃ u, win.tabs[i]? = some u := ⟨_, List.getElem?_eq_getElem hi⟩
    have htake : win.tabs.take (i + 1) = win.tabs.take i ++ [u] := by
      rw [List.take_add_one, hget, Option.toList_some]
    have hrest := resizeFrom_needs i
      (d := { d with drawable := Function.update d.drawable u true }) (Nat.le_of_succ_le hi) hw
    have hdraw : (fun t => d.drawable t || decide (t ∈ win.tabs.take (i + 1))) =
        fun t => Function.update d.drawable u true t || decide (t ∈ win.tabs.take i) := by
      funext t
      rw [htake]
      by_cases ht : t = u
      · simp [ht]
      · simp [ht]
    rw [hdraw]
    refine Needs.iff (.after (window_run hw) (.after (a := u) (t := d) ?_ ((resize_needs u d).bind fun _ => hrest))) ?_
    · rw [hget]
      rfl
    · rw [htake]
      simp only [List.mem_append, List.mem_singleton, or_imp, forall_and, forall_eq]
      exact and_comm

/-- The terminals whose row can be drawn once the window is not maximized. -/
def drawableThen (d : Dom) (w : Nat) (win : Wm.Window) (t : Nat) : Bool :=
  d.drawable t || (d.maximized w && decide (t ∈ win.tabs))

/-- The page with these windows and tabs and with the window not maximized. -/
def minimized (d : Dom) (w : Nat) (win : Wm.Window) (s : Wm) : Dom :=
  { d with toWm := s, maximized := Function.update d.maximized w false, drawable := d.drawableThen w win }

theorem minimize_needs (hw : d.windows[w]? = some win) : Needs (Window.minimize w) d
    (d.maximized w = true → ∀ t ∈ win.tabs, d.resizable t = true) () (d.minimized w win d.toWm) := by
  have hread : (Window.minimize w).run d = (if d.maximized w = true then do
      modify fun d => { d with maximized := Function.update d.maximized w false }
      Window.each Tab.resize w
    else pure () : Run Unit).run d := rfl
  by_cases hm : d.maximized w = true
  · rw [if_pos hm] at hread
    have hall := resizeFrom_needs (d := { d with maximized := Function.update d.maximized w false }) _
      (Nat.le_refl win.tabs.length) hw
    rw [List.take_length] at hall
    have hdraw : d.drawableThen w win = fun t => d.drawable t || decide (t ∈ win.tabs) := by
      funext t
      simp [drawableThen, hm]
    unfold minimized
    rw [hdraw]
    refine Needs.iff (P := ∀ t ∈ win.tabs, d.resizable t = true) (Needs.congr ?_ hread) (by simp [hm])
    exact .after rfl (.after (window_run hw) hall)
  · rw [if_neg hm] at hread
    have hdraw : d.drawableThen w win = d.drawable := by
      funext t
      simp [drawableThen, hm]
    have hmax : Function.update d.maximized w false = d.maximized := by
      rw [Function.update_eq_self_iff]
      simpa using hm
    unfold minimized
    rw [hdraw, hmax]
    exact (Needs.of_run hread).iff (by simp [hm])

theorem detach_needs (w : Nat) (d : Dom) : Needs (Window.detach w) d (d.attached (d.element w) = true) ()
    { d with attached := Function.update d.attached (d.element w) false } := by
  by_cases ha : d.attached (d.element w) = true
  · refine (Needs.of_run ?_).iff (iff_of_true trivial ha)
    rw [Window.detach, read_run]
    dsimp only
    rw [if_pos ha]
    rfl
  · refine ⟨fun h => absurd h ha, fun _ => ?_⟩
    rw [Window.detach, read_run]
    dsimp only
    rw [if_neg ha]
    exact ⟨_, _, rfl⟩

/-- Nothing throws when the window goes. -/
structure WindowSpared (d : Dom) (w : Nat) (win : Wm.Window) : Prop where
  resizable : d.maximized w = true → ∀ t ∈ win.tabs, d.resizable t = true
  attached : d.attached (d.element w) = true
  passes : Passes (d.drawableThen w win) d.keyboard (Wm.successor w d.toWm ++
    Wm.heirs (((Wm.successor w d.toWm).foldl give d.keyboard).focus) win.focused win.tabs.reverse)

instance decidableWindowSpared (d : Dom) (w : Nat) (win : Wm.Window) : Decidable (WindowSpared d w win) :=
  decidable_of_iff (_ ∧ _ ∧ _) ⟨fun h => ⟨h.1, h.2.1, h.2.2⟩, fun h => ⟨h.resizable, h.attached, h.passes⟩⟩

theorem successor_close {s : Wm} (ho : s.opened.Nodup) (w : Nat) :
    Wm.successor w (Wm.Window.close w s) = Wm.successor w s := by
  have hopened : (Wm.Window.close w s).opened.filter (· ≠ w) = s.opened.filter (· ≠ w) := by
    show (Wm.splice s.opened w).filter (· ≠ w) = _
    rw [Wm.splice_eq ho, List.filter_filter]
    simp
  unfold Wm.successor
  rw [hopened]
  cases s.opened.filter (· ≠ w) with
  | nil => rfl
  | cons v l =>
    show Option.toList _ = Option.toList _
    rw [Wm.Window.close_windows]
    cases s.windows[v]? with
    | none => rfl
    | some win =>
      show Option.toList (Wm.Window.focused _) = _
      split <;> rfl

theorem window_destroy_needs (hl : Listed d.toWm) (ha : Aims d.toWm) (hw : d.windows[w]? = some win)
    (hd : win.destroyed = false) (n : Nat) :
    ∃ d', Needs (Window.destroy (n + 6) w) d (WindowSpared d w win) () d' := by
  have hc := Cascade.close hl.opened w
  have hl₁ := hl.cascade hc
  have hw₀ : (d.toWm.modifyWindow w fun win => { win with destroyed := true }).windows[w]? =
      some { win with destroyed := true } := by
    rw [Wm.modifyWindow_windows, hw]
    simp
  have hnot : w ∉ (Wm.Window.close w d.toWm).opened := by
    rw [hc.opened]
    simp
  have hmin := minimize_needs (d := d.place (d.toWm.modifyWindow w fun win => { win with destroyed := true })) hw₀
  have hfirst := focusFirst_needs (d := d.minimized w win (Wm.Window.close w d.toWm)) hl₁ (ha.cascade hc) hnot (n + 1)
  have hsucc : Wm.successor w (d.minimized w win (Wm.Window.close w d.toWm)).toWm = Wm.successor w d.toWm :=
    successor_close hl.opened w
  rw [hsucc] at hfirst
  have hl₂ : Listed { Wm.Window.close w d.toWm with
      focus := ((Wm.successor w d.toWm).foldl give d.keyboard).focus } :=
    ⟨hl₁.opened, hl₁.flag, hl₁.nodup, hl₁.tabs, hl₁.window, hl₁.focused⟩
  have hw₁ : (Wm.Window.close w d.toWm).windows[w]? = some { win with destroyed := true } := hw₀
  obtain ⟨d', heach⟩ := each_needs (d := { (d.minimized w win (Wm.Window.close w d.toWm)).handOver
        { Wm.Window.close w d.toWm with focus := ((Wm.successor w d.toWm).foldl give d.keyboard).focus }
        ((Wm.successor w d.toWm).foldl give d.keyboard) with
      attached := Function.update d.attached (d.element w) false }) hl₂ hw₁ rfl n
  have hrun : (Window.destroy (n + 6) w).run d = (do
      update (Wm.modifyWindow w fun win => { win with destroyed := true })
      Window.minimize w
      update fun s => { s with opened := Wm.splice s.opened w }
      focusFirst (n + 5)
      Window.detach w
      Window.each (Tab.destroy (n + 5)) w
      update (Wm.emit (.closeWindow w)) : Run Unit).run d := by
    rw [Window.destroy, EStateM.run_bind, window_run hw]
    simp only [hd, if_neg Bool.false_ne_true]
  refine ⟨d'.place (d'.toWm.emit (.closeWindow w)), Needs.iff (Needs.congr (.after (update_run _ d) (hmin.bind fun _ =>
    .after (update_run _ _) (hfirst.bind fun _ => (detach_needs w _).bind fun _ =>
      heach.before (update_run _ d')))) hrun) ?_⟩
  constructor
  · rintro ⟨hr, hs, ha, hh⟩
    exact ⟨hr, ha, (Keyboard.passes_append _).2 ⟨hs, hh⟩⟩
  · rintro ⟨hr, ha, hp⟩
    obtain ⟨hs, hh⟩ := (Keyboard.passes_append _).1 hp
    exact ⟨hr, hs, ha, hh⟩

/-! ## A call -/

/-- Nothing throws when the tab goes, and its window with it if it was the last one. -/
structure TabSpared (d : Dom) (t : Nat) (tab : Wm.Tab) (win : Wm.Window) : Prop where
  passes : Passes d.drawable d.keyboard (Wm.handed t win ++
    if win.tabs.filter (· ≠ t) = [] then Wm.successor tab.window d.toWm else [])
  attached : win.tabs.filter (· ≠ t) = [] → d.attached (d.element tab.window) = true

/-- Nothing throws in the call. -/
def Spared (d : Dom) : Call → Prop
  | .tab t => ∀ tab ∈ d.tabs[t]?, tab.destroyed = false → ∀ win ∈ d.windows[tab.window]?, TabSpared d t tab win
  | .window w => ∀ win ∈ d.windows[w]?, win.destroyed = false → WindowSpared d w win

instance decidableTabSpared (d : Dom) (t : Nat) (tab : Wm.Tab) (win : Wm.Window) : Decidable (TabSpared d t tab win) :=
  decidable_of_iff (_ ∧ _) ⟨fun h => ⟨h.1, h.2⟩, fun h => ⟨h.passes, h.attached⟩⟩

instance decidableSpared (d : Dom) : ∀ c : Call, Decidable (Spared d c)
  | .tab t => inferInstanceAs (Decidable (∀ tab ∈ d.tabs[t]?, _))
  | .window w => inferInstanceAs (Decidable (∀ win ∈ d.windows[w]?, _))

def perform : Call → Run Unit
  | .tab t => Tab.destroy Wm.depth t
  | .window w => Window.destroy Wm.depth w

theorem perform_follows (c : Call) : Follows (perform c) fun s => c.perform s := by
  cases c with
  | tab t => exact (destroy_follows Wm.depth).2.1 t
  | window w => exact (destroy_follows Wm.depth).2.2 w

/-- A window without tabs. -/
theorem windowSpared_of_nil (hnil : win.tabs = []) : WindowSpared d w win ↔
    d.attached (d.element w) = true ∧ Passes d.drawable d.keyboard (Wm.successor w d.toWm) := by
  have hdraw : d.drawableThen w win = d.drawable := by
    funext u
    simp [drawableThen, hnil]
  have hheirs : ∀ g f, Wm.heirs g f win.tabs.reverse = [] := by
    intro g f
    rw [hnil]
    rfl
  constructor
  · rintro ⟨-, ha, hp⟩
    rw [hdraw, hheirs, List.append_nil] at hp
    exact ⟨ha, hp⟩
  · rintro ⟨ha, hp⟩
    refine ⟨fun _ t ht => ?_, ha, ?_⟩
    · rw [hnil] at ht
      cases ht
    · rwa [hdraw, hheirs, List.append_nil]

theorem Left.successor {s₁ : Wm} {win₁ : Wm.Window} (h : Left d t tab win s₁ win₁) :
    Wm.successor tab.window s₁ = Wm.successor tab.window d.toWm := by
  have ho : s₁.opened = d.opened := by simpa using h.cascade.opened
  unfold Wm.successor
  rw [ho]
  cases hv : d.opened.filter (· ≠ tab.window) with
  | nil => rfl
  | cons v l =>
    have hne : v ≠ tab.window := by
      have : v ∈ d.opened.filter (· ≠ tab.window) := by rw [hv]; exact List.mem_cons_self ..
      simpa using (List.mem_filter.1 this).2
    show Option.toList _ = Option.toList _
    rw [h.others v hne]

theorem destroy_last (hl : Listed d.toWm) (ha : Aims d.toWm) (ht : d.tabs[t]? = some tab) (hd : tab.destroyed = false)
    (hw : d.windows[tab.window]? = some win) (hwd : win.destroyed = false) (hnil : win.tabs.filter (· ≠ t) = [])
    (n : Nat) : ∃ d', Needs (Tab.destroy (n + 8) t) d (TabSpared d t tab win) () d' := by
  obtain ⟨s₁, win₁, hleft, hneeds⟩ := destroy_needs hl ht hd hw (n + 3)
  have hc := (Cascade.emit (.kill t) d.toWm).trans hleft.cascade
  have htabs : win₁.tabs = [] := hleft.tabs.trans hnil
  have hk : (d.handOver s₁ ((Wm.handed t win).foldl give d.keyboard)).keyboard =
      (Wm.handed t win).foldl give d.keyboard := keyboard_handOver d hleft.focus
  have hsucc : Wm.successor tab.window (d.handOver s₁ ((Wm.handed t win).foldl give d.keyboard)).toWm =
      Wm.successor tab.window d.toWm := hleft.successor
  obtain ⟨d₁, hclose⟩ := window_destroy_needs
    (d := d.handOver s₁ ((Wm.handed t win).foldl give d.keyboard)) (hl.cascade hc) (ha.cascade hc) hleft.window
    (hleft.destroyed.trans hwd) n
  have hif : Needs (closeIfEmpty (n + 6) tab.window) (d.handOver s₁ ((Wm.handed t win).foldl give d.keyboard))
      (WindowSpared (d.handOver s₁ ((Wm.handed t win).foldl give d.keyboard)) tab.window win₁) () d₁ := by
    refine .after (window_run hleft.window) ?_
    rw [if_pos htabs]
    exact hclose
  refine ⟨_, (hneeds _ d₁ hif).iff ?_⟩
  rw [windowSpared_of_nil htabs, hk, hsucc]
  constructor
  · rintro ⟨hp, ha, hs⟩
    refine ⟨?_, fun _ => ha⟩
    rw [if_pos hnil]
    exact (Keyboard.passes_append _).2 ⟨hp, hs⟩
  · rintro ⟨hp, ha⟩
    rw [if_pos hnil] at hp
    obtain ⟨hp, hs⟩ := (Keyboard.passes_append _).1 hp
    exact ⟨hp, ha hnil, hs⟩

theorem perform_needs (hp : Populated d.toWm) {c : Call} (hc : c.Made d.toWm) :
    ∃ d', Needs (perform c) d (Spared d c) () d' := by
  cases c with
  | tab t =>
    obtain ⟨tab, ht⟩ : ∃ tab, d.tabs[t]? = some tab := ⟨_, List.getElem?_eq_getElem hc⟩
    obtain ⟨win, hw⟩ := hp.listed.window t tab ht
    have hspared : Spared d (.tab t) ↔ (tab.destroyed = false → TabSpared d t tab win) := by
      simp [Spared, ht, hw]
    cases hd : tab.destroyed with
    | true =>
      refine ⟨d, (Needs.of_run ?_).iff (by simp [hspared, hd])⟩
      show (Tab.destroy 8 t).run d = _
      rw [Tab.destroy, tab_then]
      exact ⟨tab, ht, by rw [if_pos hd]; rfl⟩
    | false =>
      have hiff : TabSpared d t tab win ↔ Spared d (.tab t) := by simp [hspared, hd]
      by_cases hnil : win.tabs.filter (· ≠ t) = []
      · have hwd : win.destroyed = false := by
          obtain ⟨win', hw', -, hwd⟩ := hp.live ht hd
          rw [hw, Option.some_inj] at hw'
          exact hw' ▸ hwd
        obtain ⟨d', h⟩ := destroy_last hp.listed hp.aims ht hd hw hwd hnil 0
        exact ⟨d', h.iff hiff⟩
      · obtain ⟨s', win', -, h⟩ := destroy_alone hp.listed ht hd hw (.inr hnil) 3
        refine ⟨_, (h.iff ?_).iff hiff⟩
        constructor
        · intro hpass
          refine ⟨?_, fun h => absurd h hnil⟩
          rwa [if_neg hnil, List.append_nil]
        · rintro ⟨hpass, -⟩
          rwa [if_neg hnil, List.append_nil] at hpass
  | window w =>
    obtain ⟨win, hw⟩ : ∃ win, d.windows[w]? = some win := ⟨_, List.getElem?_eq_getElem hc⟩
    have hspared : Spared d (.window w) ↔ (win.destroyed = false → WindowSpared d w win) := by
      simp [Spared, hw]
    cases hd : win.destroyed with
    | true =>
      refine ⟨d, (Needs.of_run ?_).iff (by simp [hspared, hd])⟩
      show (Window.destroy 8 w).run d = _
      rw [Window.destroy, window_then]
      exact ⟨win, hw, by rw [if_pos hd]; rfl⟩
    | false =>
      obtain ⟨d', h⟩ := window_destroy_needs hp.listed hp.aims hw hd 2
      exact ⟨d', h.iff (by simp [hspared, hd])⟩

end Dom

end Tangle
