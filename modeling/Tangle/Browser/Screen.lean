/-
The window manager with what `Wm` leaves out: the sizes of windows and tabs, `maximize` and `minimize` with
the class of the page's root, and the listeners of the 'open' and 'close' events of tabs. Of styles and
positions nothing is kept, and neither are the contents of terminals or the elements of windows, so that what
throws in `Dom` goes on here. Where something of `Wm` alone happens it
is lifted; what also touches sizes or listeners is defined anew, step by step as the source has it.
-/
import Tangle.Browser.Emitter
import Tangle.Browser.Routing

namespace Tangle

open EventEmitter (Listener)

namespace Screen

structure Size where
  cols : Int
  rows : Int
deriving DecidableEq

/-- `m`, what `maximize` keeps for `minimize`. -/
structure Saved extends Size where
  root : String
deriving DecidableEq

/-- `cols` and `rows` of a window, and its `minimize`, which it has while it is maximized. -/
structure Frame extends Size where
  minimize : Option Saved
deriving DecidableEq

/-- The events 'open' and 'close'. -/
inductive EventType
  | opened
  | closed
deriving DecidableEq

inductive Handler
  /-- The function that a window registers with its first tab. -/
  | window (w : Nat)
  | user (f : Nat)
deriving DecidableEq

/-- `_events` of a tab. -/
abbrev Events := EventType → List (Listener Handler)

/-- What `maximize` reads of the root and of the element of the focused tab. -/
structure Extent where
  clientWidth : Nat
  clientHeight : Nat
  offsetWidth : Nat
  offsetHeight : Nat
deriving DecidableEq

end Screen

/-- `frames` belongs to the windows, `sizes` and `events` to the tabs; `className` is the root's, `onces`
counts the calls of `once`, and `called` records the listeners that were called. -/
structure Screen where
  wm : Wm
  frames : List Screen.Frame
  sizes : List Screen.Size
  className : String
  events : List Screen.Events
  onces : Nat
  called : List (Nat × Screen.EventType × Screen.Handler)

namespace Screen

/-- The page has a class of its own. -/
def init (className : String) : Screen :=
  { wm := Wm.init, frames := [], sizes := [], className, events := [], onces := 0, called := [] }

/-- What only concerns windows, tabs and the focus. -/
def lift (f : Wm → Option Wm) (s : Screen) : Option Screen := (f s.wm).map fun wm => { s with wm }

/-! ## Listeners -/

/-- `this._events[type].push(on)`. -/
def Tab.listen (t : Nat) (type : EventType) (on : Listener Handler) (s : Screen) : Screen :=
  { s with events := s.events.modify t fun ev => Function.update ev type (ev type ++ [on]) }

def Tab.on (t : Nat) (type : EventType) (listener : Handler) (s : Screen) : Screen :=
  Tab.listen t type (.plain listener) s

def Tab.once (t : Nat) (type : EventType) (listener : Handler) (s : Screen) : Screen :=
  { Tab.listen t type (.once s.onces listener) s with onces := s.onces + 1 }

/-- `emit(type)` of tab `t`, and whether it throws. -/
def Tab.emit (t : Nat) (type : EventType) (s : Screen) : Screen × Bool :=
  match (s.events[t]?.map fun ev => ev type).getD [] with
  | [] => (s, false)
  | obj =>
    let r := EventEmitter.emit obj
    ({ s with events := s.events.modify t fun ev => Function.update ev type r.obj
              called := s.called ++ r.called.map fun listener => (t, type, listener) }, r.threw)

/-- `Terminal.prototype.destroy`. -/
def Terminal.destroy (t : Nat) (s : Screen) : Screen :=
  { s with events := s.events.modify t fun _ _ => [] }

/-! ## Sizes -/

/-- `Terminal.geometry`. -/
def geometry : Size := ⟨80, 24⟩

/-- The size a new terminal has. Its lines are made in a loop `while (i--)`, which does not end where the
number of rows is negative. -/
def Terminal.new (size : Size) : Option Size :=
  let cols := if size.cols = 0 then geometry.cols else size.cols
  let rows := if size.rows = 0 then geometry.rows else size.rows
  if rows < 0 then none else some ⟨cols, rows⟩

/-- `Terminal.prototype.resize`. -/
def Terminal.resize (x y : Int) : Size := ⟨if x < 1 then 1 else x, if y < 1 then 1 else y⟩

def Tab.resize (t : Nat) (cols rows : Int) (s : Screen) : Screen :=
  { s with sizes := s.sizes.modify t fun _ => Terminal.resize cols rows }

/-- The tabs of a window. -/
def tabs (wm : Wm) (w : Nat) : List Nat := (wm.windows[w]?.map Wm.Window.tabs).getD []

/-- `each` goes through the tabs from the last to the first; resizing leaves them in place. -/
def Window.resize (w : Nat) (cols rows : Int) (s : Screen) : Screen :=
  let s := { s with frames := s.frames.modify w fun f => { f with cols, rows } }
  (tabs s.wm w).reverse.foldl (fun s t => Tab.resize t cols rows s) s

/-- `this.minimize`, where the window has one. -/
def saved (s : Screen) (w : Nat) : Option Saved := s.frames[w]?.bind Frame.minimize

/-- `if (this.minimize) { this.minimize(); }`. -/
def Window.minimize (w : Nat) (s : Screen) : Screen :=
  match s.saved w with
  | none => s
  | some m =>
    let s := { s with frames := s.frames.modify w fun f => { f with minimize := none }, className := m.root }
    Window.resize w m.cols m.rows s

/-- The integer part of a number; of infinities and of what is not a number 0. -/
def truncate (x : Float) : Int := x.toModel.unpack.toInt 0 0

/-- `x | 0`, which is a signed number of 32 bits. -/
def bitor0 (x : Float) : Int := (truncate x).bmod (2 ^ 32)

/-- `x = client / offset`, `x = (x * term.cols) | 0`. -/
def scale (client offset : Nat) (cols : Int) : Int :=
  bitor0 (Float.ofNat client / Float.ofNat offset * Float.ofInt cols)

def Window.maximize (w : Nat) (e : Extent) (s : Screen) : Option Screen := do
  if (s.saved w).isSome then return Window.minimize w s
  let win ← s.wm.windows[w]?
  let term ← win.focused
  let size ← s.sizes[term]?
  let m : Saved := { size with root := s.className }
  let s := { s with frames := s.frames.modify w fun f => { f with minimize := some m } }
  let x := scale e.clientWidth e.offsetWidth size.cols
  let y := scale e.clientHeight e.offsetHeight size.rows
  let s := { s with className := "maximized" }
  return Window.resize w x y s

/-- The listener of the browser's 'resize' event, with `i` windows to go. -/
def onResizeFrom (e : Nat → Extent) : Nat → Screen → Option Screen
  | 0, s => some s
  | i + 1, s => do
    let w ← s.wm.opened[i]?
    let s ← if (s.saved w).isSome then Window.maximize w (e w) (Window.minimize w s) else some s
    onResizeFrom e i s

def onResize (e : Nat → Extent) (s : Screen) : Option Screen := onResizeFrom e s.wm.opened.length s

/-! ## Creation -/

/-- `new Tab(win, socket)`. -/
def Window.createTab (n w : Nat) (s : Screen) : Option Screen := do
  let win ← s.frames[w]?
  let size ← Terminal.new win.toSize
  let s := { s with sizes := s.sizes ++ [size], events := s.events ++ [fun _ => []] }
  lift (Wm.Window.createTab n w) s

/-- `new Window(el)`. -/
def newWindow (n : Nat) (s : Screen) : Option Screen := do
  let w := s.wm.windows.length
  let s := { s with wm := Wm.Window.new s.wm, frames := s.frames ++ [{ geometry with minimize := none }] }
  let s ← Window.createTab n w s
  let s ← lift (Wm.Window.focus n w) s
  let t ← (tabs s.wm w)[0]?
  return Tab.once t .opened (.window w) s

/-- `Tab.ready(id)`, and whether it throws. -/
def Tab.ready (t : Nat) (id : Int) (s : Screen) : Screen × Bool :=
  let s := { s with wm := Wm.Tab.enter t id s.wm }
  let (s, threw) := Tab.emit t .opened s
  if threw then (s, true)
  else ({ s with wm := s.wm.modifyTab t fun tab => { tab with toTab := tab.toTab.connected } }, false)

/-! ## Teardown -/

def Window.eachFrom (func : Nat → Screen → Option Screen) (w : Nat) : Nat → Screen → Option Screen
  | 0, s => some s
  | i + 1, s => do
    let t ← (tabs s.wm w)[i]?
    let s ← func t s
    Window.eachFrom func w i s

def Window.each (func : Nat → Screen → Option Screen) (w : Nat) (s : Screen) : Option Screen :=
  Window.eachFrom func w (tabs s.wm w).length s

mutual

def Tab._destroy : Nat → Nat → Screen → Option Screen
  | 0, _, _ => none
  | n + 1, t, s => do
    let tab ← s.wm.tabs[t]?
    if tab.destroyed then return s
    let s ← lift (Wm.Tab.leave n t tab) s
    let win ← s.wm.windows[tab.window]?
    let s ← if win.tabs = [] then Window.destroy n tab.window s else some s
    return Terminal.destroy t s

def Tab.destroy : Nat → Nat → Screen → Option Screen
  | 0, _, _ => none
  | n + 1, t, s => do
    let tab ← s.wm.tabs[t]?
    if tab.destroyed then return s
    let s := { s with wm := s.wm.emit (.kill t) }
    let s ← Tab._destroy n t s
    let s := { s with wm := s.wm.emit (.closeTab t) }
    let (s, threw) := Tab.emit t .closed s
    if threw then none else return s

def Window.destroy : Nat → Nat → Screen → Option Screen
  | 0, _, _ => none
  | n + 1, w, s => do
    let win ← s.wm.windows[w]?
    if win.destroyed then return s
    let s := { s with wm := s.wm.modifyWindow w fun win => { win with destroyed := true } }
    let s := Window.minimize w s
    let s := { s with wm := { s.wm with opened := Wm.splice s.wm.opened w } }
    let s ← lift (Wm.focusFirst n) s
    let s ← Window.each (Tab.destroy n) w s
    return { s with wm := s.wm.emit (.closeWindow w) }

end

/-! ## Operations -/

inductive Act
  | desk (a : Wm.Act)
  | on (t : Nat) (type : EventType) (f : Nat)
  | once (t : Nat) (type : EventType) (f : Nat)
  | resize (w : Nat) (cols rows : Int)
  | maximize (w : Nat) (e : Extent)
  | minimize (w : Nat)
  | onResize (e : Nat → Extent)

/-- The window or tab was made, be it destroyed since; `minimize` is called on a maximized window. -/
def Act.OnMade (s : Screen) : Act → Prop
  | .desk a => a.OnMade s.wm
  | .on t _ _ | .once t _ _ => t < s.wm.tabs.length
  | .resize w _ _ | .maximize w _ => w < s.wm.windows.length
  | .minimize w => (s.saved w).isSome
  | .onResize _ => True

instance (s : Screen) : (a : Act) → Decidable (a.OnMade s)
  | .desk a => inferInstanceAs (Decidable (a.OnMade s.wm))
  | .on t _ _ | .once t _ _ => inferInstanceAs (Decidable (t < s.wm.tabs.length))
  | .resize w _ _ | .maximize w _ => inferInstanceAs (Decidable (w < s.wm.windows.length))
  | .minimize w => inferInstanceAs (Decidable ((s.saved w).isSome = true))
  | .onResize _ => .isTrue trivial

def Act.perform (s : Screen) : Act → Option Screen
  | .desk .newWindow => newWindow Wm.depth s
  | .desk (.createTab w) => Window.createTab Wm.depth w s
  | .desk (.ready t id) => some (Tab.ready t id s).1
  | .desk (.destroyTab t) => Tab.destroy Wm.depth t s
  | .desk (.destroyWindow w) => Window.destroy Wm.depth w s
  | .desk a => lift (fun wm => a.perform wm) s
  | .on t type f => some (Tab.on t type (.user f) s)
  | .once t type f => some (Tab.once t type (.user f) s)
  | .resize w cols rows => some (Window.resize w cols rows s)
  | .maximize w e => Window.maximize w e s
  | .minimize w => some (Window.minimize w s)
  | .onResize e => Screen.onResize e s

def step (s : Screen) (a : Act) : Option Screen := if a.OnMade s then a.perform s else none

/-! ## What the updates change -/

/-- All of these tabs get this size, or the least there is. -/
def resizeAll (ts : List Nat) (size : Size) (sizes : List Size) : List Size :=
  ts.reverse.foldl (fun sizes t => sizes.modify t fun _ => Terminal.resize size.cols size.rows) sizes

theorem resizeAll_getElem? (ts : List Nat) (size : Size) (sizes : List Size) (u : Nat) :
    (resizeAll ts size sizes)[u]? =
      sizes[u]?.map fun x => if u ∈ ts then Terminal.resize size.cols size.rows else x := by
  unfold resizeAll
  induction ts with
  | nil => simp
  | cons t ts ih =>
    rw [List.reverse_cons, List.foldl_concat, List.getElem?_modify, ih]
    cases sizes[u]? with
    | none => rfl
    | some x =>
      by_cases hu : u = t
      · simp [hu]
      · by_cases hmem : u ∈ ts <;> simp [hu, hmem, Ne.symm hu]

@[simp] theorem resizeAll_length (ts : List Nat) (size : Size) (sizes : List Size) :
    (resizeAll ts size sizes).length = sizes.length := by
  unfold resizeAll
  induction ts with
  | nil => rfl
  | cons t ts ih => rw [List.reverse_cons, List.foldl_concat, List.length_modify, ih]

theorem Window.resize_eq (w : Nat) (cols rows : Int) (s : Screen) : Window.resize w cols rows s =
    { s with frames := s.frames.modify w fun f => { f with cols, rows }
             sizes := resizeAll (tabs s.wm w) ⟨cols, rows⟩ s.sizes } := by
  have hfold : ∀ (ts : List Nat) (s : Screen), ts.foldl (fun s t => Tab.resize t cols rows s) s =
      { s with sizes := ts.foldl (fun sizes t => sizes.modify t fun _ => Terminal.resize cols rows) s.sizes } := by
    intro ts
    induction ts with
    | nil => exact fun s => rfl
    | cons t ts ih => exact fun s => ih (Tab.resize t cols rows s)
  unfold Window.resize
  exact hfold _ _

theorem saved_modify (s : Screen) (w v : Nat) (f : Frame → Frame) :
    ({ s with frames := s.frames.modify w f } : Screen).saved v =
      if v = w then s.frames[w]?.bind fun frame => (f frame).minimize else s.saved v := by
  unfold saved
  simp only [List.getElem?_modify]
  by_cases hv : v = w
  · subst hv
    cases s.frames[v]? <;> simp
  · rw [if_neg hv]
    cases s.frames[v]? <;> simp [Ne.symm hv]

theorem Window.minimize_of_none {w : Nat} {s : Screen} (h : s.saved w = none) : Window.minimize w s = s := by
  unfold Window.minimize
  rw [h]

theorem Window.minimize_of_some {w : Nat} {s : Screen} {m : Saved} (h : s.saved w = some m) :
    Window.minimize w s =
      { s with frames := s.frames.modify w fun _ => { m.toSize with minimize := none }, className := m.root
               sizes := resizeAll (tabs s.wm w) m.toSize s.sizes } := by
  unfold Window.minimize
  rw [h]
  simp only [Window.resize_eq, List.modify_modify_eq]
  rfl

theorem Window.maximize_of_some {w : Nat} {s : Screen} {m : Saved} (h : s.saved w = some m) (e : Extent) :
    Window.maximize w e s = some (Window.minimize w s) := by
  unfold Window.maximize
  rw [h]
  rfl

theorem Window.maximize_of_none {w : Nat} {s : Screen} (h : s.saved w = none) {win : Wm.Window} {term : Nat}
    {size : Size} (hw : s.wm.windows[w]? = some win) (hf : win.focused = some term)
    (hsize : s.sizes[term]? = some size) (e : Extent) :
    Window.maximize w e s = some (Window.resize w (scale e.clientWidth e.offsetWidth size.cols)
      (scale e.clientHeight e.offsetHeight size.rows)
      { s with frames := s.frames.modify w fun f => { f with minimize := some { size with root := s.className } }
               className := "maximized" }) := by
  unfold Window.maximize
  simp only [h, hw, hf, hsize, Option.isSome_none, Bool.false_eq_true, if_false, Option.bind_eq_bind, Option.bind_some]
  rfl

theorem Window.maximize_cases {w : Nat} {e : Extent} {s s' : Screen} (h : Window.maximize w e s = some s') :
    (∃ m, s.saved w = some m ∧ s' = Window.minimize w s) ∨
    ∃ win term size, s.saved w = none ∧ s.wm.windows[w]? = some win ∧ win.focused = some term ∧
      s.sizes[term]? = some size ∧ s' = Window.resize w (scale e.clientWidth e.offsetWidth size.cols)
        (scale e.clientHeight e.offsetHeight size.rows)
        { s with frames := s.frames.modify w fun f => { f with minimize := some { size with root := s.className } }
                 className := "maximized" } := by
  cases hm : s.saved w with
  | some m =>
    rw [Window.maximize_of_some hm, Option.some_inj] at h
    exact .inl ⟨m, rfl, h.symm⟩
  | none =>
    have h' := h
    unfold Window.maximize at h'
    simp only [hm, Option.isSome_none, Bool.false_eq_true, if_false, Option.bind_eq_bind,
      Option.bind_eq_some_iff] at h'
    obtain ⟨win, hw, term, hf, size, hsize, -⟩ := h'
    rw [Window.maximize_of_none hm hw hf hsize, Option.some_inj] at h
    exact .inr ⟨win, term, size, rfl, hw, hf, hsize, h.symm⟩

/-- Only sizes, `minimize` and the root's class differ. -/
structure Keeps (s s' : Screen) : Prop where
  wm : s'.wm = s.wm
  frames : s'.frames.length = s.frames.length
  sizes : s'.sizes.length = s.sizes.length
  events : s'.events = s.events
  onces : s'.onces = s.onces
  called : s'.called = s.called

theorem Keeps.trans {s s₁ s' : Screen} (h : Keeps s s₁) (h' : Keeps s₁ s') : Keeps s s' :=
  ⟨h'.wm.trans h.wm, h'.frames.trans h.frames, h'.sizes.trans h.sizes, h'.events.trans h.events,
    h'.onces.trans h.onces, h'.called.trans h.called⟩

theorem Window.resize_keeps (w : Nat) (cols rows : Int) (s : Screen) : Keeps s (Window.resize w cols rows s) := by
  rw [Window.resize_eq]
  exact ⟨rfl, List.length_modify .., resizeAll_length .., rfl, rfl, rfl⟩

theorem Window.minimize_keeps (w : Nat) (s : Screen) : Keeps s (Window.minimize w s) := by
  cases h : s.saved w with
  | none =>
    rw [Window.minimize_of_none h]
    exact ⟨rfl, rfl, rfl, rfl, rfl, rfl⟩
  | some m =>
    rw [Window.minimize_of_some h]
    exact ⟨rfl, List.length_modify .., resizeAll_length .., rfl, rfl, rfl⟩

theorem Window.maximize_keeps {w : Nat} {e : Extent} {s s' : Screen} (h : Window.maximize w e s = some s') :
    Keeps s s' := by
  rcases Window.maximize_cases h with ⟨m, -, rfl⟩ | ⟨win, term, size, -, -, -, -, rfl⟩
  · exact Window.minimize_keeps w s
  · rw [Window.resize_eq]
    exact ⟨rfl, by simp, resizeAll_length .., rfl, rfl, rfl⟩

theorem onResizeFrom_succ {e : Nat → Extent} {i : Nat} {s s' : Screen} (h : onResizeFrom e (i + 1) s = some s') :
    ∃ w s₁, s.wm.opened[i]? = some w ∧ onResizeFrom e i s₁ = some s' ∧
      (s.saved w = none ∧ s₁ = s ∨
        ∃ m, s.saved w = some m ∧ Window.maximize w (e w) (Window.minimize w s) = some s₁) := by
  simp only [onResizeFrom, Option.bind_eq_bind, Option.bind_eq_some_iff] at h
  obtain ⟨w, hw, h⟩ := h
  cases hm : s.saved w with
  | none =>
    rw [hm] at h
    exact ⟨w, s, hw, h, .inl ⟨hm, rfl⟩⟩
  | some m =>
    rw [hm] at h
    obtain ⟨s₁, hs₁, h⟩ := Option.bind_eq_some_iff.1 h
    exact ⟨w, s₁, hw, h, .inr ⟨m, hm, hs₁⟩⟩

theorem onResizeFrom_keeps {e : Nat → Extent} {i : Nat} {s s' : Screen} (h : onResizeFrom e i s = some s') :
    Keeps s s' := by
  induction i generalizing s with
  | zero =>
    cases h
    exact ⟨rfl, rfl, rfl, rfl, rfl, rfl⟩
  | succ i ih =>
    obtain ⟨w, s₁, -, hrest, ⟨-, rfl⟩ | ⟨m, -, hs₁⟩⟩ := onResizeFrom_succ h
    · exact ih hrest
    · exact ((Window.minimize_keeps w s).trans (Window.maximize_keeps hs₁)).trans (ih hrest)

/-- With nothing to listen an event changes nothing. -/
theorem Tab.emit_of_nil {t : Nat} {type : EventType} {s : Screen} (h : ∀ ev, s.events[t]? = some ev → ev type = []) :
    Tab.emit t type s = (s, false) := by
  unfold Tab.emit
  cases hev : s.events[t]? with
  | none => rfl
  | some ev => simp [h ev hev]

/-- What an event changes is the table of its tab. -/
theorem Tab.emit_eq (t : Nat) (type : EventType) (s : Screen) : ∃ events called, (Tab.emit t type s).1 =
    { s with events, called } ∧ events.length = s.events.length ∧
      ∀ u, u ≠ t → events[u]? = s.events[u]? := by
  unfold Tab.emit
  split
  · exact ⟨s.events, s.called, rfl, rfl, fun _ _ => rfl⟩
  · refine ⟨_, _, rfl, List.length_modify .., fun u hu => ?_⟩
    simp [Ne.symm hu]

/-- `Tab.ready` leaves windows and tabs in their places, and the listeners of other tabs. -/
theorem Tab.ready_eq (t : Nat) (id : Int) (s : Screen) : ∃ wm events called, (Tab.ready t id s).1 =
    { s with wm, events, called } ∧ Wm.Alike s.wm wm ∧ events.length = s.events.length ∧
      ∀ u, u ≠ t → events[u]? = s.events[u]? := by
  obtain ⟨events, called, hemit, hlen, hother⟩ := Tab.emit_eq t .opened { s with wm := Wm.Tab.enter t id s.wm }
  have halike := Wm.alike_enter t id s.wm
  unfold Tab.ready
  simp only
  split
  · exact ⟨_, events, called, hemit, halike, hlen, hother⟩
  · refine ⟨_, events, called, ?_, halike.trans (Wm.alike_connected t _), hlen, hother⟩
    simp only [hemit]

end Screen

end Tangle
