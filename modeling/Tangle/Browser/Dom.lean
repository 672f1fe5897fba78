/-
The window manager on a page, with what can throw in it. A window is made of an element of the page, which need
not be its own: `Window.destroy` takes the element out of its parent without asking whether it has one, which
`Tab.focus` and `Tab._destroy` do ask. Handing over the keyboard draws a row of the terminal that had it and one
of the terminal that gets it, minimizing a window resizes its terminals, and what programs wrote can leave a
terminal without the lines for that. An exception leaves the page as it was when it was thrown. Where nothing
throws, all of this does to windows and tabs what the functions of `Wm` say.
-/
import Tangle.Browser.Reached
import Tangle.Lib.Demands

namespace Tangle

/-- What ends a call: an exception, or calls that go deeper than the depth allows. -/
inductive Thrown
  | typeError
  | tooDeep
deriving DecidableEq

/-- The windows with their elements, and the elements that have a parent; the windows that are maximized; and of the
terminals, those that show their cursor, those whose row with the cursor can be drawn, and those that can be
resized. -/
structure Dom extends Wm where
  element : Nat → Nat
  attached : Nat → Bool
  maximized : Nat → Bool
  cursorState : Nat → Bool
  drawable : Nat → Bool
  resizable : Nat → Bool

namespace Dom

open Wm (Call Cascade Listed Populated Aims)
open Demands

abbrev Run := EStateM Thrown Dom

/-- The page with these windows and tabs. -/
def place (d : Dom) (s : Wm) : Dom := { d with toWm := s }

def update (f : Wm → Wm) : Run Unit := modify fun d => d.place (f d.toWm)

/-- `throw` where a value is `undefined`. -/
def defined {α : Type} : Option α → Run α
  | some a => return a
  | none => throw .typeError

def tab (t : Nat) : Run Wm.Tab := do defined (← get).tabs[t]?

def window (w : Nat) : Run Wm.Window := do defined (← get).windows[w]?

/-! ## Focus -/

def Terminal.setCursor (t : Nat) (shown : Bool) : Run Unit :=
  modify fun d => { d with cursorState := Function.update d.cursorState t shown }

/-- `this.refresh(this.y, this.y)`. -/
def Terminal.refresh (t : Nat) : Run Unit := do
  unless (← get).drawable t do throw .typeError

def Terminal.showCursor (t : Nat) : Run Unit := do
  if (← get).cursorState t then return
  Terminal.setCursor t true
  Terminal.refresh t

/-- What `Terminal.focus = this` takes the place of. -/
def Terminal.blur (u : Nat) : Run Unit := do
  Terminal.setCursor u false
  Terminal.refresh u

/-- `Terminal.prototype.focus`. -/
def Tab._focus (t : Nat) : Run Unit := do
  let focus := (← get).focus
  if focus = some t then return
  if let some u := focus then Terminal.blur u
  update (Wm.Tab._focus t)
  Terminal.showCursor t

mutual

def Tab.focus : Nat → Nat → Run Unit
  | 0, _ => throw .tooDeep
  | n + 1, t => do
    if (← get).focus = some t then return
    let tab ← tab t
    let win ← window tab.window
    update fun s => if win.focused = some t then s else Wm.Tab.switch t tab.window win s
    Tab._focus t
    Window.focus n tab.window

def Window.focus : Nat → Nat → Run Unit
  | 0, _ => throw .tooDeep
  | n + 1, w => do
    let win ← window w
    let t ← defined win.focused
    Tab.focus n t

end

def Window.focusTab (n : Nat) (next : Bool) (w : Nat) : Run Unit := do
  let win ← window w
  if let some t := win.target next then Tab.focus n t

/-- `if (tty.windows.length) { tty.windows[0].focus(); }`. -/
def focusFirst (n : Nat) : Run Unit := do
  if let v :: _ := (← get).opened then Window.focus n v

/-! ## Teardown -/

/-- `func(this.tabs[i], i)`, from the last to the first. -/
def Window.eachFrom (func : Nat → Run Unit) (w : Nat) : Nat → Run Unit
  | 0 => return
  | i + 1 => do
    let win ← window w
    let t ← defined win.tabs[i]?
    func t
    Window.eachFrom func w i

def Window.each (func : Nat → Run Unit) (w : Nat) : Run Unit := do
  let win ← window w
  Window.eachFrom func w win.tabs.length

/-- `Tab.resize`, to a size that the terminal had; it draws all rows. -/
def Tab.resize (t : Nat) : Run Unit := do
  unless (← get).resizable t do throw .typeError
  modify fun d => { d with drawable := Function.update d.drawable t true }

/-- `if (this.minimize) { this.minimize(); }`. -/
def Window.minimize (w : Nat) : Run Unit := do
  unless (← get).maximized w do return
  modify fun d => { d with maximized := Function.update d.maximized w false }
  Window.each Tab.resize w

/-- `this.element.parentNode.removeChild(this.element)`. -/
def Window.detach (w : Nat) : Run Unit := do
  let d ← get
  unless d.attached (d.element w) do throw .typeError
  set { d with attached := Function.update d.attached (d.element w) false }

mutual

def Tab._destroy : Nat → Nat → Run Unit
  | 0, _ => throw .tooDeep
  | n + 1, t => do
    let tab ← tab t
    if tab.destroyed then return
    update (Wm.Tab.remove t tab)
    let win ← window tab.window
    if win.focused = some t then Window.focusTab n false tab.window
    let win ← window tab.window
    if win.tabs = [] then Window.destroy n tab.window

def Tab.destroy : Nat → Nat → Run Unit
  | 0, _ => throw .tooDeep
  | n + 1, t => do
    let tab ← tab t
    if tab.destroyed then return
    update (Wm.emit (.kill t))
    Tab._destroy n t
    update (Wm.emit (.closeTab t))

def Window.destroy : Nat → Nat → Run Unit
  | 0, _ => throw .tooDeep
  | n + 1, w => do
    let win ← window w
    if win.destroyed then return
    update (Wm.modifyWindow w fun win => { win with destroyed := true })
    Window.minimize w
    update fun s => { s with opened := Wm.splice s.opened w }
    focusFirst n
    Window.detach w
    Window.each (Tab.destroy n) w
    update (Wm.emit (.closeWindow w))

end

/-! ## What returns does what `Wm` says -/

/-- Where the program returns, it did to windows and tabs what `f` does. -/
def Follows (m : Run Unit) (f : Wm → Option Wm) : Prop :=
  ∀ d d' : Dom, m.run d = .ok () d' → f d.toWm = some d'.toWm

@[simp] theorem place_toWm (d : Dom) (s : Wm) : (d.place s).toWm = s := rfl

section Inversion

variable {α β : Type} {b : β} {d d' : Dom}

theorem defined_then {o : Option α} {g : α → Run β} : (defined o >>= g).run d = .ok b d' ↔
    ∃ a, o = some a ∧ (g a).run d = .ok b d' := by
  rw [bind_ok]
  cases o with
  | none => simp [defined]
  | some a => simp [defined]

theorem tab_then {t : Nat} {g : Wm.Tab → Run β} : (Dom.tab t >>= g).run d = .ok b d' ↔
    ∃ tab, d.tabs[t]? = some tab ∧ (g tab).run d = .ok b d' := by
  rw [Dom.tab, bind_assoc, read_run, defined_then]

theorem window_then {w : Nat} {g : Wm.Window → Run β} : (window w >>= g).run d = .ok b d' ↔
    ∃ win, d.windows[w]? = some win ∧ (g win).run d = .ok b d' := by
  rw [window, bind_assoc, read_run, defined_then]

end Inversion

theorem update_ok {f : Wm → Wm} {d d' : Dom} : (update f).run d = .ok () d' ↔ d.place (f d.toWm) = d' :=
  ⟨fun h => by cases h; rfl, fun h => by rw [← h]; rfl⟩

theorem refresh_ok {t : Nat} {d d' : Dom} : (Terminal.refresh t).run d = .ok () d' ↔ d.drawable t = true ∧ d = d' := by
  rw [Terminal.refresh, read_run]
  split_ifs with h
  · simp [h]
  · simp [h]

theorem setCursor_ok {t : Nat} {shown : Bool} {d d' : Dom} : (Terminal.setCursor t shown).run d = .ok () d' ↔
    { d with cursorState := Function.update d.cursorState t shown } = d' :=
  ⟨fun h => by cases h; rfl, fun h => by rw [← h]; rfl⟩

theorem showCursor_wm {t : Nat} {d d' : Dom} (h : (Terminal.showCursor t).run d = .ok () d') : d'.toWm = d.toWm := by
  rw [Terminal.showCursor, read_run] at h
  split_ifs at h with hs
  · cases h; rfl
  · obtain ⟨_, _, h, h'⟩ := bind_ok.1 h
    rw [setCursor_ok] at h
    rw [refresh_ok] at h'
    rw [← h'.2, ← h]

theorem _focus_follows (t : Nat) : Follows (Tab._focus t) fun s => some (Wm.Tab._focus t s) := by
  intro d d' h
  rw [Tab._focus, read_run] at h
  dsimp only at h
  split_ifs at h with hf
  · cases h
    unfold Wm.Tab._focus
    rw [← hf]
  · have hrest : ∀ d₁ : Dom, d₁.toWm = d.toWm → (do update (Wm.Tab._focus t); Terminal.showCursor t : Run Unit).run d₁ =
        .ok () d' → some (Wm.Tab._focus t d.toWm) = some d'.toWm := by
      intro d₁ hd h
      obtain ⟨_, d₂, h, h'⟩ := bind_ok.1 h
      rw [update_ok] at h
      rw [showCursor_wm h', ← h, hd, place_toWm]
    cases hg : d.focus with
    | none =>
      rw [hg] at h
      exact hrest d rfl h
    | some u =>
      rw [hg] at h
      obtain ⟨_, d₁, hb, h⟩ := bind_ok.1 h
      obtain ⟨_, _, hc, hr⟩ := bind_ok.1 hb
      rw [setCursor_ok] at hc
      rw [refresh_ok] at hr
      exact hrest d₁ (by rw [← hr.2, ← hc]) h

theorem focus_follows : ∀ n, (∀ t, Follows (Tab.focus n t) (Wm.Tab.focus n t)) ∧
    ∀ w, Follows (Window.focus n w) (Wm.Window.focus n w)
  | 0 => ⟨fun _ _ _ h => (nomatch h), fun _ _ _ h => (nomatch h)⟩
  | n + 1 => by
    obtain ⟨ihtab, ihwin⟩ := focus_follows n
    refine ⟨fun t d d' h => ?_, fun w d d' h => ?_⟩
    · rw [Tab.focus, read_run] at h
      split_ifs at h with hf
      · cases h
        simp [Wm.Tab.focus, hf]
      · obtain ⟨tab, ht, h⟩ := tab_then.1 h
        obtain ⟨win, hw, h⟩ := window_then.1 h
        obtain ⟨_, d₁, hs, h⟩ := bind_ok.1 h
        rw [update_ok] at hs
        obtain ⟨_, d₂, hk, h⟩ := bind_ok.1 h
        have hk := Option.some_inj.1 (_focus_follows t _ _ hk)
        have h := ihwin tab.window _ _ h
        rw [← hk, ← hs] at h
        simp only [Wm.Tab.focus, hf, if_false, ht, hw, Option.bind_eq_bind, Option.bind_some]
        exact h
    · rw [Window.focus] at h
      obtain ⟨win, hw, h⟩ := window_then.1 h
      obtain ⟨t, ht, h⟩ := defined_then.1 h
      have h := ihtab t _ _ h
      simp only [Wm.Window.focus, hw, ht, Option.bind_eq_bind, Option.bind_some]
      exact h

theorem focusTab_follows (n : Nat) (next : Bool) (w : Nat) :
    Follows (Window.focusTab n next w) (Wm.Window.focusTab n next w) := by
  intro d d' h
  obtain ⟨win, hw, h⟩ := window_then.1 h
  unfold Wm.Window.focusTab
  simp only [hw, Option.bind_eq_bind, Option.bind_some]
  cases ht : win.target next with
  | none =>
    rw [ht] at h
    cases h
    rfl
  | some t =>
    rw [ht] at h
    exact (focus_follows n).1 t _ _ h

theorem focusFirst_follows (n : Nat) : Follows (focusFirst n) (Wm.focusFirst n) := by
  intro d d' h
  rw [focusFirst, read_run] at h
  unfold Wm.focusFirst
  cases ho : d.opened with
  | nil =>
    rw [ho] at h
    cases h
    rfl
  | cons v l =>
    rw [ho] at h
    exact (focus_follows n).2 v _ _ h

theorem eachFrom_follows {func : Nat → Run Unit} {func' : Nat → Wm → Option Wm} (hf : ∀ t, Follows (func t) (func' t))
    (w : Nat) : ∀ i, Follows (Window.eachFrom func w i) (Wm.Window.eachFrom func' w i)
  | 0, d, d', h => by cases h; rfl
  | i + 1, d, d', h => by
    obtain ⟨win, hw, h⟩ := window_then.1 h
    obtain ⟨t, ht, h⟩ := defined_then.1 h
    obtain ⟨_, d₁, ht', h⟩ := bind_ok.1 h
    simp only [Wm.Window.eachFrom, hw, ht, hf t _ _ ht', Option.bind_eq_bind, Option.bind_some]
    exact eachFrom_follows hf w i _ _ h

theorem each_follows {func : Nat → Run Unit} {func' : Nat → Wm → Option Wm} (hf : ∀ t, Follows (func t) (func' t))
    (w : Nat) : Follows (Window.each func w) (Wm.Window.each func' w) := by
  intro d d' h
  obtain ⟨win, hw, h⟩ := window_then.1 h
  simp only [Wm.Window.each, hw, Option.bind_eq_bind, Option.bind_some]
  exact eachFrom_follows hf w _ _ _ h

theorem resize_follows (t : Nat) : Follows (Tab.resize t) some := by
  intro d d' h
  rw [Tab.resize, read_run] at h
  split_ifs at h with hr
  · cases h
    rfl
  · cases h

theorem minimize_follows (w : Nat) : Follows (Window.minimize w) some := by
  intro d d' h
  have hsame : ∀ (i : Nat) (s s' : Wm), Wm.Window.eachFrom (fun _ => some) w i s = some s' → s = s' := by
    intro i
    induction i with
    | zero =>
      intro s s' h
      exact Option.some_inj.1 h
    | succ i ih =>
      intro s s' h
      simp only [Wm.Window.eachFrom, Option.bind_eq_bind, Option.bind_eq_some_iff] at h
      obtain ⟨win, -, t, -, s₁, hs, h⟩ := h
      rw [Option.some_inj.1 hs]
      exact ih s₁ s' h
  rw [Window.minimize, read_run] at h
  split_ifs at h with hm
  · obtain ⟨_, d₁, h₁, h⟩ := bind_ok.1 h
    have h := each_follows resize_follows w _ _ h
    simp only [Wm.Window.each, Option.bind_eq_bind, Option.bind_eq_some_iff] at h
    obtain ⟨win, -, h⟩ := h
    rw [← hsame _ _ _ h]
    cases h₁
    rfl
  · cases h
    rfl

theorem detach_follows (w : Nat) : Follows (Window.detach w) some := by
  intro d d' h
  rw [Window.detach, read_run] at h
  dsimp only at h
  split_ifs at h with ha
  · cases h
    rfl
  · cases h

theorem destroy_follows : ∀ n, (∀ t, Follows (Tab._destroy n t) (Wm.Tab._destroy n t)) ∧
    (∀ t, Follows (Tab.destroy n t) (Wm.Tab.destroy n t)) ∧
    ∀ w, Follows (Window.destroy n w) (Wm.Window.destroy n w)
  | 0 => ⟨fun _ _ _ h => (nomatch h), fun _ _ _ h => (nomatch h), fun _ _ _ h => (nomatch h)⟩
  | n + 1 => by
    obtain ⟨ihself, ihtab, ihwin⟩ := destroy_follows n
    refine ⟨fun t d d' h => ?_, fun t d d' h => ?_, fun w d d' h => ?_⟩
    · rw [Tab._destroy] at h
      obtain ⟨tab, ht, h⟩ := tab_then.1 h
      by_cases hd : tab.destroyed = true
      · rw [if_pos hd] at h
        cases h
        simp [Wm.Tab._destroy, ht, hd]
      rw [if_neg hd] at h
      obtain ⟨_, d₁, hr, h⟩ := bind_ok.1 h
      rw [update_ok] at hr
      obtain ⟨win, hw, h⟩ := window_then.1 h
      subst hr
      have hrest : ∀ d₂ : Dom, (do
          let win ← window tab.window
          if win.tabs = [] then Window.destroy n tab.window : Run Unit).run d₂ = .ok () d' →
          (d₂.toWm.windows[tab.window]?.bind fun win =>
            if win.tabs = [] then Wm.Window.destroy n tab.window d₂.toWm else some d₂.toWm) = some d'.toWm := by
        intro d₂ h
        obtain ⟨win, hw, h⟩ := window_then.1 h
        rw [hw, Option.bind_some]
        split_ifs at h ⊢ with hnil
        · exact ihwin _ _ _ h
        · cases h
          rfl
      dsimp only at h
      rw [place_toWm] at hw
      simp only [Wm.Tab._destroy, ht, hd, hw, Option.bind_eq_bind, Option.bind_some, Bool.false_eq_true, if_false,
        Option.pure_def]
      by_cases hf : win.focused = some t
      · rw [if_pos hf] at h
        obtain ⟨_, d₂, hp, h⟩ := bind_ok.1 h
        have hp := focusTab_follows n false tab.window _ _ hp
        rw [place_toWm] at hp
        simp only [if_pos hf, Wm.Window.previousTab, hp, Option.bind_some]
        exact hrest d₂ h
      · rw [if_neg hf] at h
        have h := hrest _ h
        rw [place_toWm, hw, Option.bind_some] at h
        rwa [if_neg hf]
    · rw [Tab.destroy] at h
      obtain ⟨tab, ht, h⟩ := tab_then.1 h
      simp only [Wm.Tab.destroy, ht, Option.bind_eq_bind, Option.bind_some]
      split_ifs at h ⊢ with hd
      · cases h
        rfl
      obtain ⟨_, d₁, hk, h⟩ := bind_ok.1 h
      rw [update_ok] at hk
      obtain ⟨_, d₂, hself, h⟩ := bind_ok.1 h
      have hself := ihself t _ _ hself
      rw [← hk, place_toWm] at hself
      rw [update_ok] at h
      rw [hself, ← h, place_toWm]
      rfl
    · rw [Window.destroy] at h
      obtain ⟨win, hw, h⟩ := window_then.1 h
      simp only [Wm.Window.destroy, hw, Option.bind_eq_bind, Option.bind_some]
      split_ifs at h ⊢ with hd
      · cases h
        rfl
      obtain ⟨_, d₁, h₁, h⟩ := bind_ok.1 h
      rw [update_ok] at h₁
      obtain ⟨_, d₂, h₂, h⟩ := bind_ok.1 h
      have h₂ := Option.some_inj.1 (minimize_follows w _ _ h₂)
      obtain ⟨_, d₃, h₃, h⟩ := bind_ok.1 h
      rw [update_ok] at h₃
      obtain ⟨_, d₄, h₄, h⟩ := bind_ok.1 h
      have h₄ := focusFirst_follows n _ _ h₄
      obtain ⟨_, d₅, h₅, h⟩ := bind_ok.1 h
      have h₅ := Option.some_inj.1 (detach_follows w _ _ h₅)
      obtain ⟨_, d₆, h₆, h⟩ := bind_ok.1 h
      have h₆ := each_follows ihtab w _ _ h₆
      rw [update_ok] at h
      have hclosed : Wm.Window.close w d.toWm = d₃.toWm := by
        rw [← h₃, ← h₂, ← h₁]
        rfl
      rw [hclosed, h₄, Option.bind_some, h₅, h₆, Option.bind_some, ← h]
      rfl

end Dom

end Tangle
