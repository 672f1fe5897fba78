/-
The window manager of `tty.js`: windows with their tabs, and `Terminal.focus`, the one tab that has
the keyboard. `Tab.focus` and `Window.focus` call each other, `Tab.destroy` and `Window.destroy` too,
so they take a depth here; they answer `none` where that runs out or an exception is thrown. Events
only announce what happened; of them the ones a teardown emits are kept. Titles, styles and sizes are
left out, and so are the elements of windows and what terminals draw: `Dom` has them, and where nothing
in it throws it does what is said here. A button goes once with its tab.
-/
import Mathlib
import Tangle.Browser.Tabs

namespace Tangle

namespace Wm

/-- Where the element of a tab is attached. -/
inductive Parent
  | body
  | window (w : Nat)
deriving DecidableEq

structure Tab extends Tangle.Tab where
  window : Nat
  parent : Option Parent

structure Window where
  tabs : List Nat
  focused : Option Nat
  destroyed : Bool

inductive Event
  | kill (t : Nat)
  | closeTab (t : Nat)
  | closeWindow (w : Nat)
deriving DecidableEq

end Wm

/-- All tabs and windows that were made; `opened` is `tty.windows` and `focus` is `Terminal.focus`. -/
structure Wm where
  tabs : List Wm.Tab
  windows : List Wm.Window
  opened : List Nat
  focus : Option Nat
  terms : OrdHash String Nat
  trace : List Wm.Event

namespace Wm

def init : Wm := { tabs := [], windows := [], opened := [], focus := none, terms := ∅, trace := [] }

def modifyTab (t : Nat) (f : Tab → Tab) (s : Wm) : Wm := { s with tabs := s.tabs.modify t f }

def modifyWindow (w : Nat) (f : Window → Window) (s : Wm) : Wm := { s with windows := s.windows.modify w f }

def emit (e : Event) (s : Wm) : Wm := { s with trace := s.trace ++ [e] }

/-! ## Helpers of the source -/

/-- `while (i--) { if (obj[i] === el) { return i; } }`. -/
def indexOfFrom (obj : List Nat) (el : Option Nat) : Nat → Int
  | 0 => -1
  | i + 1 => if obj[i]? = el then i else indexOfFrom obj el i

def indexOf (obj : List Nat) (el : Option Nat) : Int := indexOfFrom obj el obj.length

def splice (obj : List Nat) (el : Nat) : List Nat :=
  let i := indexOf obj (some el)
  if i = -1 then obj else obj.eraseIdx i.toNat

/-- `tabs[i]`, where that is not `undefined`. -/
def item (tabs : List Nat) (i : Int) : Option Nat := if i < 0 then none else tabs[i.toNat]?

/-! ## Focus -/

/-- "maybe move to Tab.prototype.switch": tab `t` takes the place of the focused one in its window. -/
def Tab.switch (t w : Nat) (win : Window) (s : Wm) : Wm :=
  let s := match win.focused with
    | none => s
    | some u => s.modifyTab u fun tab => { tab with parent := none }
  let s := s.modifyTab t fun tab => { tab with parent := some (.window w) }
  s.modifyWindow w fun win => { win with focused := some t }

/-- `Terminal.prototype.focus`. -/
def Tab._focus (t : Nat) (s : Wm) : Wm := { s with focus := some t }

/-- What `Tab.focus` does before it calls `win.focus()`. -/
def Tab.take (t : Nat) (tab : Tab) (win : Window) (s : Wm) : Wm :=
  Tab._focus t (if win.focused = some t then s else Tab.switch t tab.window win s)

mutual

def Tab.focus : Nat → Nat → Wm → Option Wm
  | 0, _, _ => none
  | n + 1, t, s => do
    if s.focus = some t then return s
    let tab ← s.tabs[t]?
    let win ← s.windows[tab.window]?
    Window.focus n tab.window (Tab.take t tab win s)

def Window.focus : Nat → Nat → Wm → Option Wm
  | 0, _, _ => none
  | n + 1, w, s => do
    let win ← s.windows[w]?
    let t ← win.focused
    Tab.focus n t s

end

/-- What `focusTab(next)` focuses: the neighbour of the focused tab, else the tab at the other end, else
the focused tab itself. -/
def Window.target (next : Bool) (win : Window) : Option Nat :=
  let i := indexOf win.tabs win.focused
  let l := win.tabs.length
  let tab :=
    if next then item win.tabs (i + 1) <|> item win.tabs 0
    else item win.tabs (i - 1) <|> item win.tabs (l - 1)
  tab <|> win.focused

def Window.focusTab (n : Nat) (next : Bool) (w : Nat) (s : Wm) : Option Wm := do
  let win ← s.windows[w]?
  match win.target next with
  | none => return s
  | some t => Tab.focus n t s

def Window.nextTab (n w : Nat) (s : Wm) : Option Wm := Window.focusTab n true w s

def Window.previousTab (n w : Nat) (s : Wm) : Option Wm := Window.focusTab n false w s

/-! ## Creation -/

/-- A tab when `open` has attached its element to the page's body. -/
def Tab.fresh (w : Nat) : Tab := { Tangle.Tab.connecting with window := w, parent := some .body }

def Tab.new (w : Nat) (s : Wm) : Wm := { s with tabs := s.tabs ++ [Tab.fresh w] }

/-- `win.tabs.push(this)`. -/
def Window.push (w t : Nat) (s : Wm) : Wm := s.modifyWindow w fun win => { win with tabs := win.tabs ++ [t] }

/-- `new Tab(win, socket)`. -/
def Window.createTab (n w : Nat) (s : Wm) : Option Wm := do
  let t := s.tabs.length
  -- `open` focuses the tab, which is not yet in `win.tabs`
  let s ← Tab.focus n t (Tab.new w s)
  return Window.push w t s

/-- `tty.windows.push(this)`. -/
def Window.new (s : Wm) : Wm :=
  { s with windows := s.windows ++ [⟨[], none, false⟩], opened := s.opened ++ [s.windows.length] }

/-- `new Window(el)`. -/
def newWindow (n : Nat) (s : Wm) : Option Wm := do
  let w := s.windows.length
  let s ← Window.createTab n w (Window.new s)
  Window.focus n w s

/-- `Tab.ready(id)`. -/
def Tab.ready (t : Nat) (id : Int) (s : Wm) : Wm :=
  let s := s.modifyTab t fun tab => { tab with id := some id }
  let s := { s with terms := OrdHash.set id.repr t s.terms }
  s.modifyTab t fun tab => { tab with toTab := tab.toTab.connected }

/-! ## Teardown -/

/-- `while (i--) { func(this.tabs[i], i); }`, where `func` may change `this.tabs`. -/
def Window.eachFrom (func : Nat → Wm → Option Wm) (w : Nat) : Nat → Wm → Option Wm
  | 0, s => some s
  | i + 1, s => do
    let win ← s.windows[w]?
    let t ← win.tabs[i]?
    let s ← func t s
    Window.eachFrom func w i s

def Window.each (func : Nat → Wm → Option Wm) (w : Nat) (s : Wm) : Option Wm := do
  let win ← s.windows[w]?
  Window.eachFrom func w win.tabs.length s

/-- What `Tab._destroy` does to the tab itself, to `tty.terms` and to its window's tabs. -/
def Tab.remove (t : Nat) (tab : Tab) (s : Wm) : Wm :=
  let s := s.modifyTab t fun tab => { tab with destroyed := true, parent := none }
  let s := { s with terms := s.terms.erase tab.key }
  s.modifyWindow tab.window fun win => { win with tabs := splice win.tabs t }

/-- What `Window.destroy` does to the window itself and to `tty.windows`. A maximized window is minimized
in between, which sets sizes and styles. -/
def Window.close (w : Nat) (s : Wm) : Wm :=
  let s := s.modifyWindow w fun win => { win with destroyed := true }
  { s with opened := splice s.opened w }

/-- `if (tty.windows.length) { tty.windows[0].focus(); }`. -/
def focusFirst (n : Nat) (s : Wm) : Option Wm :=
  match s.opened with
  | [] => some s
  | v :: _ => Window.focus n v s

mutual

def Tab._destroy : Nat → Nat → Wm → Option Wm
  | 0, _, _ => none
  | n + 1, t, s => do
    let tab ← s.tabs[t]?
    if tab.destroyed then return s
    let s := Tab.remove t tab s
    let win ← s.windows[tab.window]?
    let s ← if win.focused = some t then Window.previousTab n tab.window s else some s
    let win ← s.windows[tab.window]?
    if win.tabs = [] then Window.destroy n tab.window s else return s

def Tab.destroy : Nat → Nat → Wm → Option Wm
  | 0, _, _ => none
  | n + 1, t, s => do
    let tab ← s.tabs[t]?
    if tab.destroyed then return s
    let s := s.emit (.kill t)
    let s ← Tab._destroy n t s
    return s.emit (.closeTab t)

def Window.destroy : Nat → Nat → Wm → Option Wm
  | 0, _, _ => none
  | n + 1, w, s => do
    let win ← s.windows[w]?
    if win.destroyed then return s
    let s := Window.close w s
    let s ← focusFirst n s
    let s ← Window.each (Tab.destroy n) w s
    return s.emit (.closeWindow w)

end

/-! ## Lists of tabs -/

theorem indexOfFrom_cases (obj : List Nat) (el : Option Nat) : ∀ i : Nat,
    (indexOfFrom obj el i = -1 ∧ ∀ j < i, obj[j]? ≠ el) ∨ ∃ j < i, indexOfFrom obj el i = j ∧ obj[j]? = el
  | 0 => .inl ⟨rfl, by omega⟩
  | i + 1 => by
    unfold indexOfFrom
    by_cases hi : obj[i]? = el
    · rw [if_pos hi]
      exact .inr ⟨i, by omega, rfl, hi⟩
    · rw [if_neg hi]
      rcases indexOfFrom_cases obj el i with ⟨h, hne⟩ | ⟨j, hj, h⟩
      · refine .inl ⟨h, fun j hj => ?_⟩
        rcases Nat.lt_succ_iff_lt_or_eq.1 hj with hj | rfl
        · exact hne j hj
        · exact hi
      · exact .inr ⟨j, by omega, h⟩

/-- Where nothing occurs twice, `splice` takes out the element and nothing else. -/
theorem splice_eq {obj : List Nat} (h : obj.Nodup) (el : Nat) : splice obj el = obj.filter (· ≠ el) := by
  unfold splice indexOf
  rcases indexOfFrom_cases obj (some el) obj.length with ⟨hi, hne⟩ | ⟨j, hj, hi, hel⟩
  · rw [hi]
    symm
    refine List.filter_eq_self.2 fun x hx => ?_
    obtain ⟨j, hj, rfl⟩ := List.getElem_of_mem hx
    have := hne j hj
    simpa [List.getElem?_eq_getElem hj] using this
  · rw [hi, if_neg (by omega), Int.toNat_natCast]
    have hx : obj[j] = el := by rwa [List.getElem?_eq_getElem hj, Option.some_inj] at hel
    rw [← h.erase_getElem j hj, hx, h.erase_eq_filter]
    refine List.filter_congr fun x _ => ?_
    by_cases hx : x = el <;> simp [hx]

theorem item_mem {tabs : List Nat} {i : Int} {t : Nat} (h : item tabs i = some t) : t ∈ tabs := by
  unfold item at h
  split at h
  · cases h
  · exact List.mem_of_getElem? h

theorem item_natCast (tabs : List Nat) (i : Nat) : item tabs i = tabs[i]? := by
  unfold item
  rw [if_neg (by omega), Int.toNat_natCast]

theorem Window.target_nil {win : Window} (h : win.tabs = []) (next : Bool) : win.target next = win.focused := by
  have hi : ∀ i, item win.tabs i = none := by intro i; unfold item; rw [h]; split <;> simp
  unfold Window.target
  simp [hi]

theorem Window.target_mem {win : Window} (h : win.tabs ≠ []) (next : Bool) :
    ∃ t ∈ win.tabs, win.target next = some t := by
  have hl : 0 < win.tabs.length := List.length_pos_iff.2 h
  -- the last alternative is never reached: both ends of the list are there
  have hend : ∀ (i : Int) (j : Nat), j < win.tabs.length →
      ∃ t ∈ win.tabs, ((item win.tabs i <|> item win.tabs j) <|> win.focused) = some t := by
    intro i j hj
    cases hi : item win.tabs i with
    | some t => exact ⟨t, item_mem hi, rfl⟩
    | none =>
      rw [item_natCast, List.getElem?_eq_getElem hj]
      exact ⟨_, List.getElem_mem hj, rfl⟩
  unfold Window.target
  cases next
  · have := hend (indexOf win.tabs win.focused - 1) (win.tabs.length - 1) (by omega)
    rwa [Nat.cast_sub (by omega)] at this
  · exact hend (indexOf win.tabs win.focused + 1) 0 hl

/-! ## What the updates change -/

theorem modifyTab_tabs (t : Nat) (f : Tab → Tab) (s : Wm) (u : Nat) :
    (s.modifyTab t f).tabs[u]? = s.tabs[u]?.map fun tab => if u = t then f tab else tab := by
  unfold modifyTab
  rw [List.getElem?_modify]
  simp only [eq_comm (a := t)]
  rfl

theorem modifyWindow_windows (w : Nat) (f : Window → Window) (s : Wm) (v : Nat) :
    (s.modifyWindow w f).windows[v]? = s.windows[v]?.map fun win => if v = w then f win else win := by
  unfold modifyWindow
  rw [List.getElem?_modify]
  simp only [eq_comm (a := w)]
  rfl

@[simp] theorem Tab._focus_tabs (t : Nat) (s : Wm) : (Tab._focus t s).tabs = s.tabs := rfl

@[simp] theorem Tab._focus_windows (t : Nat) (s : Wm) : (Tab._focus t s).windows = s.windows := rfl

@[simp] theorem Tab._focus_opened (t : Nat) (s : Wm) : (Tab._focus t s).opened = s.opened := rfl

@[simp] theorem Tab._focus_terms (t : Nat) (s : Wm) : (Tab._focus t s).terms = s.terms := rfl

@[simp] theorem Tab._focus_trace (t : Nat) (s : Wm) : (Tab._focus t s).trace = s.trace := rfl

section Switch

variable (t w : Nat) (win : Window) (s : Wm)

theorem Tab.switch_tabs (u : Nat) : (Tab.switch t w win s).tabs[u]? = s.tabs[u]?.map fun tab =>
    { tab with
      parent := if u = t then some (.window w) else if win.focused = some u then none else tab.parent } := by
  unfold Tab.switch
  cases win.focused with
  | none =>
    show ((s.modifyTab t _).tabs)[u]? = _
    rw [modifyTab_tabs]
    cases s.tabs[u]? with
    | none => rfl
    | some tab => by_cases ht : u = t <;> simp [ht]
  | some f =>
    show ((s.modifyTab f _).modifyTab t _).tabs[u]? = _
    rw [modifyTab_tabs, modifyTab_tabs]
    cases s.tabs[u]? with
    | none => rfl
    | some tab =>
      simp only [Option.map_some, Option.some_inj, eq_comm (a := f)]
      split_ifs <;> rfl

theorem Tab.switch_windows (v : Nat) : (Tab.switch t w win s).windows[v]? =
    s.windows[v]?.map fun win => if v = w then { win with focused := some t } else win := by
  have h : (Tab.switch t w win s).windows =
      (s.modifyWindow w fun win => { win with focused := some t }).windows := by
    unfold Tab.switch; cases win.focused <;> rfl
  rw [h, modifyWindow_windows]

@[simp] theorem Tab.switch_tabs_length : (Tab.switch t w win s).tabs.length = s.tabs.length := by
  unfold Tab.switch; cases win.focused <;> simp [modifyTab, modifyWindow]

@[simp] theorem Tab.switch_windows_length : (Tab.switch t w win s).windows.length = s.windows.length := by
  unfold Tab.switch; cases win.focused <;> simp [modifyTab, modifyWindow]

@[simp] theorem Tab.switch_opened : (Tab.switch t w win s).opened = s.opened := by
  unfold Tab.switch; cases win.focused <;> rfl

@[simp] theorem Tab.switch_terms : (Tab.switch t w win s).terms = s.terms := by
  unfold Tab.switch; cases win.focused <;> rfl

@[simp] theorem Tab.switch_trace : (Tab.switch t w win s).trace = s.trace := by
  unfold Tab.switch; cases win.focused <;> rfl

end Switch

theorem Tab.remove_tabs (t : Nat) (tab : Tab) (s : Wm) (u : Nat) : (Tab.remove t tab s).tabs[u]? =
    s.tabs[u]?.map fun tab => if u = t then { tab with destroyed := true, parent := none } else tab :=
  modifyTab_tabs ..

theorem Tab.remove_windows (t : Nat) (tab : Tab) (s : Wm) (v : Nat) : (Tab.remove t tab s).windows[v]? =
    s.windows[v]?.map fun win => if v = tab.window then { win with tabs := splice win.tabs t } else win :=
  modifyWindow_windows tab.window _ { s with terms := s.terms.erase tab.key } v

theorem Window.close_windows (w : Nat) (s : Wm) (v : Nat) : (Window.close w s).windows[v]? =
    s.windows[v]?.map fun win => if v = w then { win with destroyed := true } else win :=
  modifyWindow_windows ..

/-! ## What the focus calls compute -/

/-- `Tab.focus` with the calls that return at once left out. -/
def Tab.focusOn (t : Nat) (tab : Tab) (win : Window) (s : Wm) : Wm :=
  if s.focus = some t then s else Tab.take t tab win s

@[simp] theorem Tab.take_focus (t : Nat) (tab : Tab) (win : Window) (s : Wm) :
    (Tab.take t tab win s).focus = some t := rfl

theorem Tab.focusOn_focus (t : Nat) (tab : Tab) (win : Window) (s : Wm) :
    (Tab.focusOn t tab win s).focus = some t := by
  unfold focusOn
  split
  · assumption
  · rfl

theorem Tab.focusOn_of_focused {t : Nat} {tab : Tab} {win : Window} {s : Wm} (h : win.focused = some t) :
    Tab.focusOn t tab win s = Tab._focus t s := by
  unfold focusOn take
  rw [if_pos h]
  split
  · rename_i hf; unfold _focus; rw [← hf]
  · rfl

theorem Tab.take_window {t : Nat} {tab : Tab} {win : Window} {s : Wm} (hw : s.windows[tab.window]? = some win) :
    ∃ win', (Tab.take t tab win s).windows[tab.window]? = some win' ∧ win'.focused = some t := by
  unfold Tab.take
  split
  · rename_i hf; exact ⟨win, hw, hf⟩
  · exact ⟨{ win with focused := some t }, by simp [Tab.switch_windows, hw], rfl⟩

theorem Tab.focus_eq {s : Wm} {t : Nat} {tab : Tab} {win : Window} (ht : s.tabs[t]? = some tab)
    (hw : s.windows[tab.window]? = some win) (n : Nat) :
    Tab.focus (n + 3) t s = some (Tab.focusOn t tab win s) := by
  unfold Tab.focus Tab.focusOn
  by_cases hf : s.focus = some t
  · simp [hf]
  · -- `win.focus()` finds the tab focused, and its `focus` returns
    obtain ⟨win', hw', hf'⟩ := Tab.take_window (t := t) hw
    have hback : Window.focus (n + 2) tab.window (Tab.take t tab win s) = some (Tab.take t tab win s) := by
      simp [Window.focus, Tab.focus, hw', hf']
    simp [hf, ht, hw, hback]

theorem Window.focus_eq {s : Wm} {w f : Nat} {win : Window} {tab : Tab} (hw : s.windows[w]? = some win)
    (hf : win.focused = some f) (ht : s.tabs[f]? = some tab) (hown : tab.window = w) (n : Nat) :
    Window.focus (n + 4) w s = some (Tab._focus f s) := by
  have h := Tab.focus_eq ht (hown ▸ hw) n
  rw [Tab.focusOn_of_focused hf] at h
  simp [Window.focus, hw, hf, h]

end Wm

end Tangle
