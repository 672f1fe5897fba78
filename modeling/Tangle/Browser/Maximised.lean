/-
The class of the page's root. A window that is maximized keeps the class it finds there and puts it back when
it is minimized, so the classes that windows keep are snapshots of the root's, and 'maximized' is the mark they
set. A page whose own class is 'maximized' shows no difference. On any other the class is right as long as the
window that found the page's own class is the last to be restored, and none that is destroyed is maximized or
minimized while no other is.
-/
import Tangle.Lib.Snapshots
import Tangle.Browser.Moves

namespace Tangle

/-- The window that an operation closes, with its last tab or as a whole. -/
def Wm.Act.closes (s : Wm) : Wm.Act → Option Nat
  | .destroyTab t => do
    let tab ← s.tabs[t]?
    let win ← s.windows[tab.window]?
    if tab.destroyed = false ∧ win.destroyed = false ∧ win.tabs.filter (· ≠ t) = [] then some tab.window else none
  | .destroyWindow w => if Wm.LiveWindow s w then some w else none
  | _ => none

namespace Screen

/-- `tty.windows`. -/
def live (s : Screen) : Set Nat := {w | w ∈ s.wm.opened}

/-- `m.root` of a window that is maximized. -/
def root (s : Screen) (w : Nat) : Option String := (s.saved w).map Saved.root

/-- The root's class is 'maximized' if some window in `tty.windows` is, and the page's own otherwise. -/
def ClassRight (orig : String) (s : Screen) : Prop :=
  s.className = if ∃ w ∈ s.wm.opened, (s.saved w).isSome then "maximized" else orig

instance (orig : String) (s : Screen) : Decidable (ClassRight orig s) :=
  inferInstanceAs (Decidable (s.className = _))

/-- The window that an operation restores, which is maximized before. -/
def Act.restores (s : Screen) : Act → Option Nat
  | .desk a => (a.closes s.wm).filter fun w => (s.saved w).isSome
  | .maximize w _ | .minimize w => if (s.saved w).isSome then some w else none
  | _ => none

/-- The window that an operation maximizes. -/
def Act.maximizes (s : Screen) : Act → Option Nat
  | .maximize w _ => if (s.saved w).isSome then none else some w
  | _ => none

/-- A window with another class than 'maximized' to put back is restored after all other open ones. A window
that is destroyed is restored or maximized while an open one is maximized. -/
def InOrder (orig : String) (s : Screen) (a : Act) : Prop := orig = "maximized" ∨
  (∀ w ∈ a.restores s, Snapshots.InTurn "maximized" s.live s.root w) ∧
  (∀ w ∈ a.maximizes s, w ∉ s.live → Snapshots.Held s.live s.root)

theorem root_ne_none {s : Screen} {w : Nat} : s.root w ≠ none ↔ (s.saved w).isSome := by
  unfold root
  cases s.saved w <;> simp

theorem classRight_iff {orig : String} {s : Screen} :
    ClassRight orig s ↔ Snapshots.Right "maximized" orig s.live s.root s.className := by
  have hheld : Snapshots.Held s.live s.root ↔ ∃ w ∈ s.wm.opened, (s.saved w).isSome :=
    exists_congr fun w => and_congr_right fun _ => root_ne_none
  unfold ClassRight Snapshots.Right
  rw [hheld]
  split
  · exact ⟨fun h => ⟨fun _ => h, fun hno => absurd ‹_› hno⟩, fun h => h.1 ‹_›⟩
  · exact ⟨fun h => ⟨fun hyes => absurd hyes ‹_›, fun _ => h⟩, fun h => h.2 ‹_›⟩

/-! ## What a step means for the class -/

inductive Turn (s : Screen) (a : Act) (s' : Screen) : Prop
  | quiet (hrestores : a.restores s = none) (hmaximizes : a.maximizes s = none)
      (hclass : s'.className = s.className) (hroot : s'.root = s.root)
      (hlive : ∀ w, s.root w ≠ none → (w ∈ s'.live ↔ w ∈ s.live))
  | restore (w : Nat) (m : String) (hrestores : a.restores s = some w) (hmaximizes : a.maximizes s = none)
      (hm : s.root w = some m) (hclass : s'.className = m)
      (hroot : ∀ v, s'.root v = if v = w then none else s.root v)
      (hlive : ∀ v, s'.root v ≠ none → (v ∈ s'.live ↔ v ∈ s.live))
  | maximize (w : Nat) (hrestores : a.restores s = none) (hmaximizes : a.maximizes s = some w)
      (hm : s.root w = none) (hclass : s'.className = "maximized")
      (hroot : ∀ v, s'.root v = if v = w then some s.className else s.root v) (hlive : s'.live = s.live)

theorem root_modify (s : Screen) (w v : Nat) (f : Frame → Frame) :
    ({ s with frames := s.frames.modify w f } : Screen).root v =
      if v = w then s.frames[w]?.bind fun frame => (f frame).minimize.map Saved.root else s.root v := by
  unfold root
  rw [saved_modify]
  split
  · rw [Option.map_bind]
    rfl
  · rfl

/-- Another size changes nothing of what a window keeps. -/
theorem Window.resize_root (w : Nat) (cols rows : Int) (s : Screen) : (Window.resize w cols rows s).root = s.root := by
  funext v
  rw [Window.resize_eq]
  refine (root_modify s w v _).trans ?_
  split
  · rename_i hv
    rw [hv]
    unfold root saved
    rw [Option.map_bind]
    rfl
  · rfl

theorem Window.minimize_root {w : Nat} {s : Screen} {m : Saved} (hm : s.saved w = some m) (v : Nat) :
    (Window.minimize w s).root v = if v = w then none else s.root v := by
  rw [Window.minimize_of_some hm]
  refine (root_modify s w v _).trans ?_
  split
  · cases s.frames[w]? <;> rfl
  · rfl

theorem Window.minimize_className {w : Nat} {s : Screen} {m : Saved} (hm : s.saved w = some m) :
    (Window.minimize w s).className = m.root := by
  rw [Window.minimize_of_some hm]

theorem Window.maximize_root {w : Nat} {s : Screen} (hw : w < s.frames.length) (size : Size) (cols rows : Int)
    (v : Nat) : (Window.resize w cols rows
      { s with frames := s.frames.modify w fun f => { f with minimize := some { size with root := s.className } }
               className := "maximized" }).root v = if v = w then some s.className else s.root v := by
  rw [Window.resize_root]
  refine (root_modify s w v _).trans ?_
  rw [List.getElem?_eq_getElem hw]
  rfl

/-- The listener of 'resize' minimizes and maximizes the same windows, so each finds the class that it kept. -/
theorem onResizeFrom_root {e : Nat → Extent} {i : Nat} {s s' : Screen} (h : onResizeFrom e i s = some s') :
    s'.root = s.root ∧ (s'.className = s.className ∨ s'.className = "maximized" ∧ Snapshots.Held s.live s.root) := by
  induction i generalizing s with
  | zero =>
    cases h
    exact ⟨rfl, .inl rfl⟩
  | succ i ih =>
    obtain ⟨w, s₁, hw, hrest, ⟨-, rfl⟩ | ⟨m, hm, hs₁⟩⟩ := onResizeFrom_succ h
    · exact ih hrest
    have hlt : w < s.frames.length := by
      obtain ⟨f, hf, -⟩ := Option.bind_eq_some_iff.1 hm
      exact (List.getElem?_eq_some_iff.1 hf).1
    have hk := Window.minimize_keeps w s
    have hnone : (Window.minimize w s).root w = none := (Window.minimize_root hm w).trans (if_pos rfl)
    have hm' : (Window.minimize w s).saved w = none := Option.map_eq_none_iff.1 hnone
    have hround : s₁.root = s.root ∧ s₁.className = "maximized" := by
      rcases Window.maximize_cases hs₁ with ⟨m', hm₁, -⟩ | ⟨win, term, size, -, -, -, -, rfl⟩
      · rw [hm'] at hm₁
        cases hm₁
      · refine ⟨?_, by rw [Window.resize_eq]⟩
        funext v
        rw [Window.maximize_root (hk.frames ▸ hlt), Window.minimize_className hm, Window.minimize_root hm]
        split
        · rename_i hv
          rw [hv, root, hm]
          rfl
        · rfl
    have hlive : s₁.live = s.live := by
      unfold live
      rw [(Window.maximize_keeps hs₁).wm, hk.wm]
    obtain ⟨hroot, hclass⟩ := ih hrest
    refine ⟨hroot.trans hround.1, .inr ⟨?_, w, List.mem_of_getElem? hw, root_ne_none.2 (by rw [hm]; rfl)⟩⟩
    rcases hclass with hsame | ⟨hmax, -⟩
    · exact hsame.trans hround.2
    · exact hmax

theorem Turn.of_same {s s' : Screen} {a : Act} (hrestores : a.restores s = none) (hmaximizes : a.maximizes s = none)
    (hclass : s'.className = s.className) (hframes : s'.frames = s.frames) (hopened : s'.wm.opened = s.wm.opened) :
    Turn s a s' := by
  refine .quiet hrestores hmaximizes hclass ?_ fun w _ => ?_
  · funext w
    unfold root saved
    rw [hframes]
  · unfold live
    rw [hopened]

/-- A window that goes with what it has is restored first, if it was maximized. -/
theorem Turn.of_close {s s' : Screen} {a : Wm.Act} {w : Nat} {D : List Nat} {new : List Wm.Event}
    (ha : a.closes s.wm = some w) (hclass : s'.className = (Window.minimize w s).className)
    (hframes : s'.frames = (Window.minimize w s).frames) (hc : Wm.Cascade s.wm s'.wm D [w] new) :
    Turn s (.desk a) s' := by
  have hroot : s'.root = (Window.minimize w s).root := by
    funext v
    unfold root saved
    rw [hframes]
  have hlive : ∀ v, v ≠ w → (v ∈ s'.live ↔ v ∈ s.live) := by
    intro v hv
    unfold live
    rw [Set.mem_ofPred_eq, Set.mem_ofPred_eq, hc.opened, List.mem_filter]
    simp [hv]
  have hrestores : (Act.desk a).restores s = (some w).filter fun w => (s.saved w).isSome := by
    show (a.closes s.wm).filter _ = _
    rw [ha]
  cases hm : s.saved w with
  | none =>
    rw [Window.minimize_of_none hm] at hclass hroot
    refine .quiet (by rw [hrestores]; simp [hm]) rfl hclass hroot fun v hv => hlive v ?_
    rintro rfl
    exact hv (Option.map_eq_none_iff.2 hm)
  | some m =>
    have hroot' : ∀ v, s'.root v = if v = w then none else s.root v := fun v =>
      (congrFun hroot v).trans (Window.minimize_root hm v)
    refine .restore w m.root (by rw [hrestores]; simp [hm]) rfl (by rw [root, hm]; rfl)
      (hclass.trans (Window.minimize_className hm)) hroot' fun v hv => hlive v ?_
    rintro rfl
    exact hv ((hroot' v).trans (if_pos rfl))

theorem Turn.of_minimize {s : Screen} {a : Act} {w : Nat} {m : Saved} (hm : s.saved w = some m)
    (hrestores : a.restores s = some w) (hmaximizes : a.maximizes s = none) : Turn s a (Window.minimize w s) := by
  refine .restore w m.root hrestores hmaximizes (by rw [root, hm]; rfl) (Window.minimize_className hm)
    (Window.minimize_root hm) fun v _ => ?_
  unfold live
  rw [(Window.minimize_keeps w s).wm]

theorem step_turn {orig : String} {s s' : Screen} {a : Act} (h : Sound s) (hr : ClassRight orig s)
    (hstep : step s a = some s') : Turn s a s' := by
  have hquiet : ∀ {a : Wm.Act}, a.closes s.wm = none → (Act.desk a).restores s = none := by
    intro a ha
    show (a.closes s.wm).filter _ = _
    rw [ha]
    rfl
  cases (step_effect h hstep).1 with
  | newWindow wm hc =>
    have hroot : ∀ w : Nat, (s.frames ++ [({ geometry with minimize := none } : Frame)])[w]?.bind Frame.minimize =
        s.frames[w]?.bind Frame.minimize := by
      intro w
      rw [List.getElem?_append]
      split
      · rfl
      · rename_i hlt
        rw [List.getElem?_eq_none (Nat.le_of_not_lt hlt), List.getElem?_singleton]
        split <;> rfl
    refine .quiet rfl rfl rfl ?_ fun w hw => ?_
    · funext w
      exact congrArg (Option.map Saved.root) (hroot w)
    · have hlt : w < s.wm.windows.length := by
        obtain ⟨m, hm⟩ := Option.isSome_iff_exists.1 (root_ne_none.1 hw)
        obtain ⟨f, hf, -⟩ := Option.bind_eq_some_iff.1 hm
        exact h.frames ▸ (List.getElem?_eq_some_iff.1 hf).1
      unfold live
      rw [Set.mem_ofPred_eq, Set.mem_ofPred_eq, hc.opened]
      simp [Wm.Window.push, Wm.modifyWindow, Wm.Tab.new, Wm.Window.new, Nat.ne_of_lt hlt]
  | createTab w f size wm hf hsize hc =>
    refine .of_same rfl rfl rfl rfl (hc.opened.trans ?_)
    simp [Wm.Window.push, Wm.modifyWindow, Wm.Tab.new]
  | ready t id =>
    obtain ⟨wm, events, called, heq, halike, -⟩ := Tab.ready_eq t id s
    rw [heq]
    exact .of_same rfl rfl rfl rfl halike.opened
  | focus a wm ha hc =>
    refine .of_same (hquiet ?_) rfl rfl rfl ?_
    · cases a <;> first | rfl | cases ha
    · simpa using hc.opened
  | deadTab t hd =>
    refine .of_same (hquiet ?_) rfl rfl rfl rfl
    show (s.wm.tabs[t]?.bind _) = _
    cases ht : s.wm.tabs[t]? with
    | none => rfl
    | some tab =>
      have hdead : tab.destroyed ≠ false := fun hf => hd (Option.map_eq_some_iff.2 ⟨tab, ht, hf⟩)
      cases hw : s.wm.windows[tab.window]? <;> simp [hdead, hw]
  | destroyTab t tab win wm new ht hd hw halone hc =>
    refine .of_same (hquiet ?_) rfl rfl rfl (by simpa using hc.opened)
    have hnot : ¬ (tab.destroyed = false ∧ win.destroyed = false ∧ win.tabs.filter (· ≠ t) = []) := by
      rintro ⟨-, hopen, hnil⟩
      rcases halone with hclosed | hothers
      · rw [hopen] at hclosed
        cases hclosed
      · exact hothers hnil
    unfold Wm.Act.closes
    simp only [ht, hw, Option.bind_eq_bind, Option.bind_some]
    exact if_neg hnot
  | destroyLast t tab win wm new ht hd hw hwd hnil hc =>
    refine .of_close ?_ rfl rfl hc
    unfold Wm.Act.closes
    simp only [ht, hw, Option.bind_eq_bind, Option.bind_some]
    exact if_pos ⟨hd, hwd, hnil⟩
  | deadWindow w hd =>
    refine .of_same (hquiet ?_) rfl rfl rfl rfl
    exact if_neg hd
  | destroyWindow w win wm new hw hd hc =>
    refine .of_close (if_pos ?_) rfl rfl hc
    exact Option.map_eq_some_iff.2 ⟨win, hw, hd⟩
  | on t type f => exact .of_same rfl rfl rfl rfl rfl
  | once t type f => exact .of_same rfl rfl rfl rfl rfl
  | resize w cols rows =>
    have hk := Window.resize_keeps w cols rows s
    refine .quiet rfl rfl (by rw [Window.resize_eq]) (Window.resize_root w cols rows s) fun v _ => ?_
    unfold live
    rw [hk.wm]
  | restore w e m hm =>
    refine .of_minimize hm (if_pos ?_) (if_pos ?_) <;> rw [hm] <;> rfl
  | maximize w e win term size hm hw hf hsize =>
    have hlt : w < s.frames.length := h.frames ▸ (List.getElem?_eq_some_iff.1 hw).1
    have hnone : ¬ ((s.saved w).isSome = true) := by simp [hm]
    refine .maximize w (if_neg hnone) (if_neg hnone) (Option.map_eq_none_iff.2 hm) (by rw [Window.resize_eq])
      (Window.maximize_root hlt size _ _) ?_
    rw [Window.resize_eq]
    rfl
  | minimize w m hm =>
    refine .of_minimize hm (if_pos ?_) rfl
    rw [hm]
    rfl
  | onResize e s' hres =>
    obtain ⟨hroot, hclass⟩ := onResizeFrom_root hres
    refine .quiet rfl rfl ?_ hroot fun w _ => ?_
    · rcases hclass with hsame | ⟨hmax, hheld⟩
      · exact hsame
      · exact hmax.trans ((classRight_iff.1 hr).1 hheld).symm
    · unfold live
      rw [(onResizeFrom_keeps hres).wm]

/-! ## Runs -/

/-- What the windows keep: 'maximized', and the page's own class once. -/
def Kept (orig : String) (s : Screen) : Prop :=
  if orig = "maximized" then ∀ w m, s.root w = some m → m = "maximized"
  else Snapshots.Nested "maximized" orig s.live s.root

/-- On a page whose own class is 'maximized' the class never differs. -/
theorem Turn.class_of_eq {s s' : Screen} {a : Act} (ht : Turn s a s')
    (hk : ∀ w m, s.root w = some m → m = "maximized") (hr : s.className = "maximized") :
    s'.className = "maximized" ∧ ∀ w m, s'.root w = some m → m = "maximized" := by
  cases ht with
  | quiet _ _ hclass hroot => exact ⟨hclass.trans hr, hroot ▸ hk⟩
  | restore w m _ _ hm hclass hroot =>
    refine ⟨hclass.trans (hk w m hm), fun v m' hv => ?_⟩
    rw [hroot] at hv
    split at hv
    · cases hv
    · exact hk v m' hv
  | maximize w _ _ _ hclass hroot =>
    refine ⟨hclass, fun v m' hv => ?_⟩
    rw [hroot] at hv
    split at hv
    · cases hv
      exact hr
    · exact hk v m' hv

theorem Turn.class_iff {orig : String} {s s' : Screen} {a : Act} (ht : Turn s a s') (hk : Kept orig s)
    (hr : ClassRight orig s) : (ClassRight orig s' ↔ InOrder orig s a) ∧ (ClassRight orig s' → Kept orig s') := by
  unfold Kept at hk ⊢
  by_cases horig : orig = "maximized"
  · rw [if_pos horig] at hk ⊢
    have hmark : ∀ {s : Screen}, ClassRight orig s ↔ s.className = "maximized" := by
      intro s
      unfold ClassRight
      rw [horig, ite_self]
    obtain ⟨hclass, hk'⟩ := ht.class_of_eq hk (hmark.1 hr)
    exact ⟨iff_of_true (hmark.2 hclass) (.inl horig), fun _ => hk'⟩
  rw [if_neg horig] at hk ⊢
  unfold InOrder
  rw [or_iff_right horig, classRight_iff]
  rw [classRight_iff] at hr
  cases ht with
  | quiet hrestores hmaximizes hclass hroot hlive =>
    rw [hrestores, hmaximizes, hclass, hroot]
    refine ⟨iff_of_true ((Snapshots.right_congr hlive).2 hr) ⟨fun w hw => (by cases hw), fun w hw => (by cases hw)⟩,
      fun _ => hk.congr hlive⟩
  | restore w m hrestores hmaximizes hm hclass hroot hlive =>
    obtain ⟨hiff, hnested⟩ := Snapshots.restore_iff horig hk hm hroot
    rw [hrestores, hmaximizes, hclass, Snapshots.right_congr hlive, hiff]
    refine ⟨?_, fun hturn => (hnested (hiff.2 hturn)).congr hlive⟩
    constructor
    · intro hturn
      refine ⟨fun v hv => ?_, fun v hv => (by cases hv)⟩
      cases hv
      exact hturn
    · exact fun h => h.1 w rfl
  | maximize w hrestores hmaximizes hm hclass hroot hlive =>
    obtain ⟨hiff, hnested⟩ := Snapshots.save_iff horig hr hk hm hroot
    rw [hrestores, hmaximizes, hclass, hlive, hiff]
    refine ⟨?_, fun hturn => hnested (hiff.2 hturn)⟩
    constructor
    · intro hturn
      refine ⟨fun v hv => (by cases hv), fun v hv => ?_⟩
      cases hv
      exact hturn
    · exact fun h => h.2 w rfl

end Screen

end Tangle
