/-
`nextTab` and `previousTab`. In an open window they move the focus along the list of tabs, whose ends are
joined: `focusTab` reads beside the list there and falls back to its other end. `Tab.focus` returns early
where the target has the keyboard; that is the focused tab of its window then, so the focus is where it
should be all the same.
-/
import Tangle.Browser.Desk

namespace Tangle.Wm

/-! ## The target -/

theorem indexOf_eq {l : List Nat} (h : l.Nodup) {i t : Nat} (hi : l[i]? = some t) : indexOf l (some t) = i := by
  unfold indexOf
  obtain ⟨hlt, -⟩ := List.getElem?_eq_some_iff.1 hi
  rcases indexOfFrom_cases l (some t) l.length with ⟨-, hne⟩ | ⟨j, hj, hidx, hel⟩
  · exact absurd hi (hne i hlt)
  · rw [hidx, (List.getElem?_inj hj h).1 (hel.trans hi.symm)]

/-- The neighbour at an index that is in the list, -/
theorem item_in {l : List Nat} {i : Nat} (hi : i < l.length) (rest : Option Nat) :
    (item l i <|> rest) = l[i]? := by
  rw [item_natCast, List.getElem?_eq_getElem hi]
  rfl

/-- and beside it. -/
theorem item_out {l : List Nat} {i : Int} (hi : i < 0 ∨ l.length ≤ i) (rest : Option Nat) :
    (item l i <|> rest) = rest := by
  unfold item
  split
  · rfl
  · rw [List.getElem?_eq_none (by omega)]
    rfl

theorem Window.target_next {win : Window} (hn : win.tabs.Nodup) {i : Nat} (hi : i < win.tabs.length)
    (hf : win.focused = win.tabs[i]?) : win.target true = win.tabs[(i + 1) % win.tabs.length]? := by
  have hidx : indexOf win.tabs win.focused = i := by
    rw [List.getElem?_eq_getElem hi] at hf
    rw [hf]
    exact indexOf_eq hn (List.getElem?_eq_getElem hi)
  unfold Window.target
  simp only [hidx, if_true]
  by_cases hend : i + 1 = win.tabs.length
  · rw [item_out (.inr (by omega)), hend, Nat.mod_self]
    exact item_in (i := 0) (by omega) win.focused
  · rw [Nat.mod_eq_of_lt (by omega), show ((i : Int) + 1) = ((i + 1 : Nat) : Int) by simp, item_in (by omega),
      List.getElem?_eq_getElem (by omega)]
    rfl

theorem Window.target_previous {win : Window} (hn : win.tabs.Nodup) {i : Nat} (hi : i < win.tabs.length)
    (hf : win.focused = win.tabs[i]?) :
    win.target false = win.tabs[(i + (win.tabs.length - 1)) % win.tabs.length]? := by
  have hidx : indexOf win.tabs win.focused = i := by
    rw [List.getElem?_eq_getElem hi] at hf
    rw [hf]
    exact indexOf_eq hn (List.getElem?_eq_getElem hi)
  unfold Window.target
  simp only [hidx, Bool.false_eq_true, if_false]
  cases i with
  | zero =>
    rw [item_out (.inl (by omega)), Nat.zero_add, Nat.mod_eq_of_lt (by omega),
      show (win.tabs.length : Int) - 1 = ((win.tabs.length - 1 : Nat) : Int) by omega]
    exact item_in (by omega) win.focused
  | succ i =>
    rw [show i + 1 + (win.tabs.length - 1) = i + win.tabs.length by omega, Nat.add_mod_right,
      Nat.mod_eq_of_lt (by omega), show ((i + 1 : Nat) : Int) - 1 = (i : Int) by omega, item_in (by omega),
      List.getElem?_eq_getElem (by omega)]
    rfl

/-! ## One call -/

/-- `tty.windows[w].focused`, and the tab that has the keyboard. -/
def seen (s : Wm) (w : Nat) : Option Nat × Option Nat := (s.windows[w]?.bind Window.focused, s.focus)

/-- Window `w` has these tabs and focuses the one at index `i`. -/
def At (s : Wm) (w : Nat) (tabs : List Nat) (i : Nat) : Prop :=
  i < tabs.length ∧ ∃ win, s.windows[w]? = some win ∧ win.tabs = tabs ∧ win.focused = tabs[i]?

/-- A call focuses its target, in the window and with the keyboard, and leaves the tabs alone. -/
theorem Orderly.focusTab_at {s : Wm} (h : Orderly s) {w : Nat} {win : Window} {next : Bool} {j : Nat}
    (hopen : w ∈ s.opened) (hw : s.windows[w]? = some win) (hj : j < win.tabs.length)
    (htarget : win.target next = win.tabs[j]?) (n : Nat) :
    ∃ s', Window.focusTab (n + 3) next w s = some s' ∧ Orderly s' ∧ w ∈ s'.opened ∧ At s' w win.tabs j ∧
      seen s' w = (win.tabs[j]?, win.tabs[j]?) := by
  have hget := List.getElem?_eq_getElem hj
  obtain ⟨tab, ht, rfl, hd⟩ := (h.listed.tabs w win hw win.tabs[j]).1 (List.getElem_mem hj)
  have hc := Cascade.focusOn ht win
  have hcall : Window.focusTab (n + 3) next tab.window s = some (Tab.focusOn win.tabs[j] tab win s) := by
    unfold Window.focusTab
    simp [hw, htarget, hget, Tab.focus_eq ht hw]
  have hopen' : tab.window ∈ (Tab.focusOn win.tabs[j] tab win s).opened := by simpa [hc.opened] using hopen
  obtain ⟨win', hw', hf'⟩ : ∃ win', (Tab.focusOn win.tabs[j] tab win s).windows[tab.window]? = some win' ∧
      win'.focused = win.tabs[j]? := by
    unfold Tab.focusOn
    split
    · exact ⟨win, hw, hget ▸ h.shown.focus _ tab win ‹_› ht hd hw⟩
    · exact hget ▸ Tab.take_window hw
  obtain ⟨win₀, hw₀, htabs, -⟩ := hc.window_of hw'
  rw [hw, Option.some_inj] at hw₀
  subst hw₀
  replace htabs : win'.tabs = win.tabs := by simpa using htabs
  refine ⟨_, hcall, (h.coherent.focusOn ht hd hw).1.orderly hc h.idle fun v hv => (by cases hv), hopen',
    ⟨hj, win', hw', htabs, hf'⟩, ?_⟩
  unfold seen
  rw [hw', Tab.focusOn_focus, ← hget]
  exact congrArg (·, win.tabs[j]?) hf'

section Moves

variable {s : Wm} {w i : Nat} {tabs : List Nat}

theorem Orderly.nextTab_at (h : Orderly s) (hopen : w ∈ s.opened) (hat : At s w tabs i) :
    ∃ s', Window.nextTab depth w s = some s' ∧ Orderly s' ∧ w ∈ s'.opened ∧ At s' w tabs ((i + 1) % tabs.length) ∧
      seen s' w = (tabs[(i + 1) % tabs.length]?, tabs[(i + 1) % tabs.length]?) := by
  obtain ⟨hi, win, hw, rfl, hf⟩ := hat
  exact h.focusTab_at hopen hw (Nat.mod_lt _ (by omega)) (Window.target_next (h.listed.nodup w win hw) hi hf) 5

theorem Orderly.previousTab_at (h : Orderly s) (hopen : w ∈ s.opened) (hat : At s w tabs i) :
    ∃ s', Window.previousTab depth w s = some s' ∧ Orderly s' ∧ w ∈ s'.opened ∧
      At s' w tabs ((i + (tabs.length - 1)) % tabs.length) := by
  obtain ⟨hi, win, hw, rfl, hf⟩ := hat
  obtain ⟨s', hcall, h', hopen', hat', -⟩ := h.focusTab_at hopen hw (Nat.mod_lt _ (by omega))
    (Window.target_previous (h.listed.nodup w win hw) hi hf) 5
  exact ⟨s', hcall, h', hopen', hat'⟩

theorem At.focused (h : At s w tabs i) : (seen s w).1 = tabs[i]? := by
  obtain ⟨-, win, hw, -, hf⟩ := h
  unfold seen
  rw [hw]
  exact hf

end Moves

/-! ## Many calls -/

/-- Calls `nextTab` so many times, and notes what is focused after each call. -/
def nextTabs (w : Nat) : Nat → Wm → Option (List (Option Nat × Option Nat) × Wm)
  | 0, s => some ([], s)
  | k + 1, s => do
    let s ← Window.nextTab depth w s
    let r ← nextTabs w k s
    return (seen s w :: r.1, r.2)

theorem Orderly.nextTabs_at : ∀ (k : Nat) {s : Wm} {w i : Nat} {tabs : List Nat}, Orderly s → w ∈ s.opened →
    At s w tabs i → ∃ s', nextTabs w k s =
        some ((List.range k).map fun m => (tabs[(i + 1 + m) % tabs.length]?, tabs[(i + 1 + m) % tabs.length]?), s') ∧
      At s' w tabs ((i + k) % tabs.length)
  | 0, s, w, i, tabs, _, _, hat => ⟨s, rfl, by rwa [Nat.add_zero, Nat.mod_eq_of_lt hat.1]⟩
  | k + 1, s, w, i, tabs, h, hopen, hat => by
    obtain ⟨s₁, hcall, h₁, hopen₁, hat₁, hseen⟩ := h.nextTab_at hopen hat
    obtain ⟨s', hcall', hat'⟩ := Orderly.nextTabs_at k h₁ hopen₁ hat₁
    refine ⟨s', ?_, ?_⟩
    · unfold nextTabs
      simp only [hcall, hcall', hseen, Option.bind_eq_bind, Option.bind_some, List.range_succ_eq_map, List.map_cons,
        List.map_map, Nat.add_zero]
      congr 3
      refine List.map_congr_left fun m _ => ?_
      have : ((i + 1) % tabs.length + 1 + m) % tabs.length = (i + 1 + (m + 1)) % tabs.length := by
        rw [Nat.add_assoc, Nat.mod_add_mod, Nat.add_comm 1 m]
      rw [this]
      rfl
    · rwa [Nat.mod_add_mod, Nat.add_assoc, Nat.add_comm 1 k] at hat'

/-- As many steps as there are tabs, from any of them, go through the tabs once. -/
theorem round_perm {α : Type*} (tabs : List α) (i : Nat) :
    ((List.range tabs.length).map fun m => tabs[(i + m) % tabs.length]?).Perm (tabs.map some) := by
  have hround : ((List.range tabs.length).map fun m => tabs[(i + m) % tabs.length]?) = (tabs.rotate i).map some := by
    refine List.ext_getElem (by simp) fun m hm _ => ?_
    have hlt : m < tabs.length := by
      rw [List.length_map, List.length_range] at hm
      exact hm
    simp [List.getElem_rotate, Nat.add_comm m i, List.getElem?_eq_getElem (Nat.mod_lt (i + m) (Nat.zero_lt_of_lt hlt))]
  rw [hround]
  exact (List.rotate_perm tabs i).map some

end Tangle.Wm
