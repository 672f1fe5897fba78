/-
The sizes of windows and tabs. A window has the size it was asked for, and so have its tabs, except that a
terminal has at least one column and one row. Where the size asked for has at least one of each, the sizes
agree and stay so, as what `minimize` and `maximize` ask for derives from sizes that agreed.
-/
import Tangle.Browser.Moves

namespace Tangle.Screen

/-- Every tab of the window has the size of the window. -/
def Agrees (s : Screen) (w : Nat) : Prop := ∀ t ∈ tabs s.wm w, s.sizes[t]? = s.frames[w]?.map Frame.toSize

/-- Every tab of every open window has the size of its window. -/
def Agree (s : Screen) : Prop := ∀ w ∈ s.wm.opened, Agrees s w

instance (s : Screen) (w : Nat) : Decidable (Agrees s w) := inferInstanceAs (Decidable (∀ t ∈ tabs s.wm w, _))

instance (s : Screen) : Decidable (Agree s) := inferInstanceAs (Decidable (∀ w ∈ s.wm.opened, Agrees s w))

structure Size.Positive (size : Size) : Prop where
  cols : 1 ≤ size.cols
  rows : 1 ≤ size.rows

/-- Where `cols` take `offset`, `client` has room for at least one, and for not so many that `| 0` wraps them
around to none or less. -/
def Room (client offset : Nat) (cols : Int) : Prop :=
  1 ≤ truncate (Float.ofNat client / Float.ofNat offset * Float.ofInt cols) % 2 ^ 32 ∧
    truncate (Float.ofNat client / Float.ofNat offset * Float.ofInt cols) % 2 ^ 32 < 2 ^ 31

/-- There is room in the root for a terminal where one of this size takes that much. -/
def Extent.HasRoom (e : Extent) (size : Size) : Prop :=
  Room e.clientWidth e.offsetWidth size.cols ∧ Room e.clientHeight e.offsetHeight size.rows

/-- An open window is asked for a positive size, and is maximized where there is room for it. -/
def Fits (s : Screen) : Act → Prop
  | .resize w cols rows => w ∈ s.wm.opened → 1 ≤ cols ∧ 1 ≤ rows
  | .maximize w e => w ∈ s.wm.opened → s.saved w = none → ∀ f, s.frames[w]? = some f → e.HasRoom f.toSize
  | .onResize e => ∀ w ∈ s.wm.opened, ∀ m, s.saved w = some m → (e w).HasRoom m.toSize
  | _ => True

theorem one_le_scale (client offset : Nat) (cols : Int) : 1 ≤ scale client offset cols ↔ Room client offset cols := by
  unfold scale bitor0 Room
  generalize truncate (Float.ofNat client / Float.ofNat offset * Float.ofInt cols) = n
  rw [Int.bmod_def]
  split <;> omega

/-- The quotient is rounded: where 49 columns take 49 pixels, one pixel has room for none. -/
example : scale 1 49 49 = 0 := by decide +kernel

/-- The size that `maximize` asks for. -/
def scaled (e : Extent) (size : Size) : Size :=
  ⟨scale e.clientWidth e.offsetWidth size.cols, scale e.clientHeight e.offsetHeight size.rows⟩

theorem scaled_positive {e : Extent} {size : Size} : (scaled e size).Positive ↔ e.HasRoom size := by
  unfold Extent.HasRoom
  rw [← one_le_scale, ← one_le_scale]
  exact ⟨fun h => ⟨h.cols, h.rows⟩, fun h => ⟨h.1, h.2⟩⟩

theorem Terminal.resize_eq_iff (size : Size) : Terminal.resize size.cols size.rows = size ↔ size.Positive := by
  obtain ⟨cols, rows⟩ := size
  unfold Terminal.resize
  simp only [Size.mk.injEq]
  constructor
  · rintro ⟨hc, hr⟩
    exact ⟨show 1 ≤ cols by omega, show 1 ≤ rows by omega⟩
  · rintro ⟨hc, hr⟩
    dsimp only at hc hr
    exact ⟨by omega, by omega⟩

theorem Terminal.new_of_positive {size size' : Size} (h : size.Positive) (hnew : Terminal.new size = some size') :
    size' = size := by
  have hc := h.cols
  have hr := h.rows
  unfold Terminal.new at hnew
  rw [if_neg (by omega), if_neg (by omega), if_neg (by omega), Option.some_inj] at hnew
  exact hnew.symm

/-! ## Tabs of windows -/

section Tabs

variable {s : Screen} {t v w : Nat}

theorem mem_tabs (h : Wm.Listed s.wm) : t ∈ tabs s.wm w ↔
    ∃ win tab, s.wm.windows[w]? = some win ∧ s.wm.tabs[t]? = some tab ∧ tab.window = w ∧ tab.destroyed = false := by
  unfold tabs
  cases hw : s.wm.windows[w]? with
  | none => simp
  | some win => simpa using h.tabs w win hw t

theorem Sound.tab_lt (h : Sound s) (ht : t ∈ tabs s.wm w) : t < s.sizes.length := by
  obtain ⟨_, tab, -, htab, -⟩ := (mem_tabs h.coherent.listed).1 ht
  rw [h.sizes]
  exact (List.getElem?_eq_some_iff.1 htab).1

theorem Sound.window_of_tab (h : Sound s) (hv : t ∈ tabs s.wm v) (hw : t ∈ tabs s.wm w) : v = w := by
  obtain ⟨_, tab, -, htab, rfl, -⟩ := (mem_tabs h.coherent.listed).1 hv
  obtain ⟨_, tab', -, htab', rfl, -⟩ := (mem_tabs h.coherent.listed).1 hw
  rw [htab, Option.some_inj] at htab'
  rw [htab']

/-- An open window has a frame, and its focused tab among its tabs. -/
theorem Sound.opened (h : Sound s) (hw : w ∈ s.wm.opened) : ∃ f win term, s.frames[w]? = some f ∧
    s.wm.windows[w]? = some win ∧ win.focused = some term ∧ term ∈ tabs s.wm w := by
  obtain ⟨win, term, hwin, hf, hterm⟩ := h.coherent.settled w hw
  have hlt : w < s.frames.length := h.frames ▸ (List.getElem?_eq_some_iff.1 hwin).1
  exact ⟨_, win, term, List.getElem?_eq_getElem hlt, hwin, hf, tabs_eq hwin ▸ hterm⟩

theorem tabs_cascade {wm wm' : Wm} {D W : List Nat} {new : List Wm.Event} (hc : Wm.Cascade wm wm' D W new) (w : Nat) :
    tabs wm' w = (tabs wm w).filter (· ∉ D) := by
  cases hw : wm.windows[w]? with
  | some win =>
    obtain ⟨f, hf, -⟩ := hc.window w win hw
    rw [tabs_eq hw, tabs_eq hf]
  | none =>
    have hw' : wm'.windows[w]? = none := by
      rw [List.getElem?_eq_none_iff] at hw ⊢
      rwa [hc.windows]
    unfold tabs
    rw [hw, hw']
    rfl

theorem tabs_push (wm : Wm) (v w : Nat) : tabs (Wm.Window.push w wm.tabs.length (Wm.Tab.new w wm)) v =
    if v = w ∧ v < wm.windows.length then tabs wm v ++ [wm.tabs.length] else tabs wm v := by
  cases hv : wm.windows[v]? with
  | some win =>
    have hlt := (List.getElem?_eq_some_iff.1 hv).1
    rw [tabs_eq (Wm.push_new w hv), tabs_eq hv]
    by_cases hvw : v = w
    · rw [if_pos hvw, if_pos ⟨hvw, hlt⟩]
    · rw [if_neg hvw, if_neg fun h => hvw h.1]
  | none =>
    have hle := List.getElem?_eq_none_iff.1 hv
    rw [if_neg fun h => Nat.not_lt.2 hle h.2]
    unfold tabs
    rw [Wm.Window.push_windows]
    show ((wm.windows[v]?.map _).map _).getD [] = _
    rw [hv]
    rfl

end Tabs

/-! ## What happens to a window -/

/-- The window is as large as before, and no other tabs have come to it. -/
structure SameAt (w : Nat) (s s' : Screen) : Prop where
  kept : ∀ t ∈ tabs s'.wm w, t ∈ tabs s.wm w ∧ s'.sizes[t]? = s.sizes[t]?
  frame : s'.frames[w]? = s.frames[w]?

/-- The window has another frame, whose size its tabs were asked for. -/
structure RefitAt (w : Nat) (f : Frame) (s s' : Screen) : Prop where
  same : tabs s'.wm w = tabs s.wm w
  sizes : ∀ t ∈ tabs s.wm w, s'.sizes[t]? = some (Terminal.resize f.cols f.rows)
  frame : s'.frames[w]? = some f

/-- The window has a positive size, and another to go back to if it is maximized. -/
def Ample (s : Screen) (w : Nat) : Prop := ∀ f, s.frames[w]? = some f →
  f.toSize.Positive ∧ ∀ m, f.minimize = some m → m.toSize.Positive

section Fates

variable {s s₁ s' : Screen} {w : Nat} {f : Frame}

protected theorem SameAt.refl (w : Nat) (s : Screen) : SameAt w s s := ⟨fun _ ht => ⟨ht, rfl⟩, rfl⟩

theorem SameAt.trans (h : SameAt w s s₁) (h' : SameAt w s₁ s') : SameAt w s s' := by
  refine ⟨fun t ht => ?_, h'.frame.trans h.frame⟩
  obtain ⟨ht₁, hsize'⟩ := h'.kept t ht
  obtain ⟨ht₀, hsize⟩ := h.kept t ht₁
  exact ⟨ht₀, hsize'.trans hsize⟩

theorem SameAt.agrees (h : SameAt w s s') (ha : Agrees s w) : Agrees s' w := by
  intro t ht
  obtain ⟨ht₀, hsize⟩ := h.kept t ht
  rw [hsize, h.frame]
  exact ha t ht₀

theorem SameAt.ample (h : SameAt w s s') (ha : Ample s w) : Ample s' w := by
  unfold Ample
  rw [h.frame]
  exact ha

theorem SameAt.saved (h : SameAt w s s') : s'.saved w = s.saved w := by
  unfold Screen.saved
  rw [h.frame]

theorem RefitAt.of_sameAt (hwm : s'.wm = s₁.wm) (h : RefitAt w f s s₁) (h' : SameAt w s₁ s') : RefitAt w f s s' := by
  refine ⟨by rw [hwm, h.same], fun t ht => ?_, h'.frame.trans h.frame⟩
  rw [(h'.kept t (by rw [hwm, h.same]; exact ht)).2]
  exact h.sizes t ht

theorem RefitAt.of_wm (hwm : s₁.wm = s.wm) (h : RefitAt w f s₁ s') : RefitAt w f s s' :=
  ⟨h.same.trans (by rw [hwm]), fun t ht => h.sizes t (by rw [hwm]; exact ht), h.frame⟩

/-- A window with tabs agrees with them again exactly if its new size is positive. -/
theorem RefitAt.agrees_iff (h : RefitAt w f s s') {t : Nat} (ht : t ∈ Screen.tabs s.wm w) :
    Agrees s' w ↔ f.toSize.Positive := by
  rw [← Terminal.resize_eq_iff]
  unfold Agrees
  rw [h.same, h.frame]
  constructor
  · intro ha
    have := ha t ht
    rwa [h.sizes t ht, Option.map_some, Option.some_inj] at this
  · intro he u hu
    rw [h.sizes u hu, he]
    rfl

theorem RefitAt.ample (h : RefitAt w f s s') (hf : f.toSize.Positive)
    (hm : ∀ m, f.minimize = some m → m.toSize.Positive) : Ample s' w := by
  intro f' hf'
  rw [h.frame, Option.some_inj] at hf'
  exact hf' ▸ ⟨hf, hm⟩

/-! ## Windows that are resized -/

/-- A window may change its frame before it is resized. -/
theorem Window.resize_fate (h : Sound s) (w : Nat) (g : Frame → Frame) (className : String) (cols rows : Int) :
    (∀ v, v ≠ w → SameAt v s
      (Window.resize w cols rows { s with frames := s.frames.modify w g, className })) ∧
    ∀ f, s.frames[w]? = some f → RefitAt w { g f with cols, rows } s
      (Window.resize w cols rows { s with frames := s.frames.modify w g, className }) := by
  rw [Window.resize_eq]
  constructor
  · intro v hv
    refine ⟨fun t ht => ⟨ht, ?_⟩, ?_⟩
    · have hnot : t ∉ tabs s.wm w := fun hw => hv (h.window_of_tab ht hw)
      show (resizeAll (tabs s.wm w) ⟨cols, rows⟩ s.sizes)[t]? = _
      rw [resizeAll_getElem?]
      simp [hnot]
    · simp [Ne.symm hv]
  · intro f hf
    refine ⟨rfl, fun t ht => ?_, by simp [hf]⟩
    show (resizeAll (tabs s.wm w) ⟨cols, rows⟩ s.sizes)[t]? = _
    rw [resizeAll_getElem?, List.getElem?_eq_getElem (h.tab_lt ht), Option.map_some, if_pos ht]

theorem Window.minimize_fate (h : Sound s) {m : Saved} (hm : s.saved w = some m) :
    (∀ v, v ≠ w → SameAt v s (Window.minimize w s)) ∧
      RefitAt w { m.toSize with minimize := none } s (Window.minimize w s) := by
  obtain ⟨f, hf, -⟩ := Option.bind_eq_some_iff.1 hm
  unfold Window.minimize
  rw [hm]
  obtain ⟨hsame, hrefit⟩ := Window.resize_fate h w (fun f => { f with minimize := none }) m.root m.cols m.rows
  exact ⟨hsame, hrefit f hf⟩

theorem Window.maximize_fate {e : Extent} (h : Sound s) (hm : s.saved w = none)
    (hcall : Window.maximize w e s = some s') : ∃ win term size, s.wm.windows[w]? = some win ∧
      win.focused = some term ∧ s.sizes[term]? = some size ∧ (∀ v, v ≠ w → SameAt v s s') ∧
      RefitAt w { scaled e size with minimize := some { size with root := s.className } } s s' := by
  obtain ⟨m, hm', -⟩ | ⟨win, term, size, -, hw, hf, hsize, rfl⟩ := Window.maximize_cases hcall
  · rw [hm] at hm'
    cases hm'
  have hlt : w < s.frames.length := h.frames ▸ (List.getElem?_eq_some_iff.1 hw).1
  obtain ⟨hsame, hrefit⟩ := Window.resize_fate h w
    (fun f => { f with minimize := some { size with root := s.className } }) "maximized"
    (scale e.clientWidth e.offsetWidth size.cols) (scale e.clientHeight e.offsetHeight size.rows)
  exact ⟨win, term, size, hw, hf, hsize, hsame, hrefit _ (List.getElem?_eq_getElem hlt)⟩

/-- A window that is minimized and maximized again goes from the size it kept to what there is room for. -/
theorem remaximize_fate {e : Extent} {m : Saved} (h : Sound s) (hw : w ∈ s.wm.opened) (hm : s.saved w = some m)
    (hcall : Window.maximize w e (Window.minimize w s) = some s') : (∀ v, v ≠ w → SameAt v s s') ∧
      (m.toSize.Positive →
        ∃ root, RefitAt w { scaled e m.toSize with minimize := some { m.toSize with root } } s s') := by
  have hk := Window.minimize_keeps w s
  obtain ⟨hmin, hminw⟩ := Window.minimize_fate h hm
  have hnone : (Window.minimize w s).saved w = none := by
    unfold Screen.saved
    rw [hminw.frame]
    rfl
  obtain ⟨win, term, size, hwin, hf, hsize, hmax, hmaxw⟩ := Window.maximize_fate (h.keeps hk) hnone hcall
  refine ⟨fun v hv => (hmin v hv).trans (hmax v hv), fun hpos => ⟨(Window.minimize w s).className, ?_⟩⟩
  -- the focused tab has the size that the window went back to
  have hterm : term ∈ tabs s.wm w := by
    obtain ⟨_, win', term', -, hwin', hf', hmem⟩ := h.opened hw
    rw [hk.wm, hwin', Option.some_inj] at hwin
    rw [← hwin, hf', Option.some_inj] at hf
    exact hf ▸ hmem
  have hsize' : size = m.toSize := by
    rw [hminw.sizes term hterm, Option.some_inj, (Terminal.resize_eq_iff _).2 hpos] at hsize
    exact hsize.symm
  rw [hsize'] at hmaxw
  exact hmaxw.of_wm hk.wm

/-- With `i` windows to go, those among them that are maximized get the size there is room for; the others
stay as they are. -/
theorem onResizeFrom_fate {e : Nat → Extent} {i : Nat} (h : Sound s) (hcall : onResizeFrom e i s = some s')
    {j : Nat} (hw : s.wm.opened[j]? = some w) :
    (i ≤ j ∨ s.saved w = none → SameAt w s s') ∧ ∀ m, j < i → s.saved w = some m → m.toSize.Positive →
      ∃ root, RefitAt w { scaled (e w) m.toSize with minimize := some { m.toSize with root } } s s' := by
  induction i generalizing s with
  | zero =>
    cases hcall
    exact ⟨fun _ => .refl w _, fun m hj => absurd hj (Nat.not_lt_zero j)⟩
  | succ i ih =>
    obtain ⟨v, s₁, hv, hrest, ⟨hnone, rfl⟩ | ⟨m, hm, hs₁⟩⟩ := onResizeFrom_succ hcall
    · obtain ⟨hsame, hrefit⟩ := ih h hrest hw
      have hcase : i = j → s₁.saved w = none := by
        rintro rfl
        rw [hw, Option.some_inj] at hv
        exact hv ▸ hnone
      refine ⟨fun hor => hsame ?_, fun m hj hm hpos => hrefit m ?_ hm hpos⟩
      · rcases hor with hle | hno
        · exact .inl (Nat.le_of_succ_le hle)
        · exact .inr hno
      · refine Nat.lt_of_le_of_ne (Nat.lt_succ_iff.1 hj) fun he => ?_
        rw [hcase he.symm] at hm
        cases hm
    have hk := (Window.minimize_keeps v s).trans (Window.maximize_keeps hs₁)
    obtain ⟨hothers, hround⟩ := remaximize_fate h (List.mem_of_getElem? hv) hm hs₁
    obtain ⟨hsame, hrefit⟩ := ih (h.keeps hk) hrest (hk.wm ▸ hw)
    by_cases hvw : w = v
    · subst hvw
      have hij : i = j := by
        exact (List.getElem?_inj (List.getElem?_eq_some_iff.1 hv).1 h.coherent.listed.opened).1 (hv.trans hw.symm)
      subst hij
      refine ⟨fun hor => ?_, fun m' _ hm' hpos => ?_⟩
      · rw [hm] at hor
        rcases hor with hle | hno
        · omega
        · cases hno
      · rw [hm, Option.some_inj] at hm'
        subst hm'
        obtain ⟨root, hr⟩ := hround hpos
        exact ⟨root, hr.of_sameAt (onResizeFrom_keeps hrest).wm (hsame (.inl (Nat.le_refl i)))⟩
    · have hsame₁ := hothers w hvw
      rw [hsame₁.saved] at hsame hrefit
      refine ⟨fun hor => hsame₁.trans (hsame ?_), fun m' hj hm' hpos => ?_⟩
      · rcases hor with hle | hno
        · exact .inl (Nat.le_of_succ_le hle)
        · exact .inr hno
      · have hij : j ≠ i := by
          rintro rfl
          rw [hw, Option.some_inj] at hv
          exact hvw hv
        obtain ⟨root, hr⟩ := hrefit m' (by omega) hm' hpos
        exact ⟨root, hr.of_wm hk.wm⟩

end Fates

/-! ## Steps -/

section Steps

variable {s s' : Screen}

/-- Windows that stay the same agree as before. -/
theorem Agree.of_same (hp : Agree s) (ha : ∀ w ∈ s.wm.opened, Ample s w)
    (hsame : ∀ w ∈ s'.wm.opened, w ∈ s.wm.opened ∧ SameAt w s s') : Agree s' ∧ ∀ w ∈ s'.wm.opened, Ample s' w :=
  ⟨fun w hw => (hsame w hw).2.agrees (hp w (hsame w hw).1),
    fun w hw => (hsame w hw).2.ample (ha w (hsame w hw).1)⟩

/-- Where all windows but one stay the same, the sizes agree if that one's do. -/
theorem Agree.iff_of_others (hp : Agree s) (ha : ∀ w ∈ s.wm.opened, Ample s w) {w : Nat} {C : Prop}
    (hsame : ∀ v ∈ s'.wm.opened, v ≠ w → v ∈ s.wm.opened ∧ SameAt v s s')
    (hw : w ∈ s'.wm.opened → (Agrees s' w ↔ C) ∧ (C → Ample s' w)) (hC : w ∉ s'.wm.opened → C) :
    (Agree s' ↔ C) ∧ (Agree s' → ∀ v ∈ s'.wm.opened, Ample s' v) := by
  have hiff : Agree s' ↔ C := by
    constructor
    · intro h
      by_cases hmem : w ∈ s'.wm.opened
      · exact (hw hmem).1.1 (h w hmem)
      · exact hC hmem
    · intro hc v hv
      by_cases hvw : v = w
      · subst hvw
        exact (hw hv).1.2 hc
      · obtain ⟨hv₀, h⟩ := hsame v hv hvw
        exact h.agrees (hp v hv₀)
  refine ⟨hiff, fun h v hv => ?_⟩
  by_cases hvw : v = w
  · subst hvw
    exact (hw hv).2 (hiff.1 h)
  · obtain ⟨hv₀, h'⟩ := hsame v hv hvw
    exact h'.ample (ha v hv₀)

theorem Agree.iff_of_refit (h : Sound s) (hp : Agree s) (ha : ∀ w ∈ s.wm.opened, Ample s w) (hwm : s'.wm = s.wm)
    {w : Nat} {size : Size} (hsame : ∀ v, v ≠ w → SameAt v s s')
    (hrefit : w ∈ s.wm.opened → ∃ f, RefitAt w f s s' ∧ f.toSize = size ∧
      ∀ m, f.minimize = some m → m.toSize.Positive) :
    (Agree s' ↔ (w ∈ s.wm.opened → size.Positive)) ∧ (Agree s' → ∀ v ∈ s'.wm.opened, Ample s' v) := by
  refine hp.iff_of_others ha (fun v hv hvw => ⟨hwm ▸ hv, hsame v hvw⟩) (fun hw => ?_)
    fun hw hopen => absurd (hwm ▸ hopen) hw
  rw [hwm] at hw
  obtain ⟨_, _, term, -, -, -, hterm⟩ := h.opened hw
  obtain ⟨f, hr, rfl, hm⟩ := hrefit hw
  exact ⟨(hr.agrees_iff hterm).trans ⟨fun hpos _ => hpos, fun hpos => hpos hw⟩, fun hpos => hr.ample (hpos hw) hm⟩

theorem SameAt.cascade {v : Nat} {D W : List Nat} {new : List Wm.Event} (hc : Wm.Cascade s.wm s'.wm D W new)
    (hv : v ∈ s'.wm.opened) (hf : v ∉ W → s'.frames[v]? = s.frames[v]?)
    (hsizes : v ∉ W → ∀ t ∈ tabs s.wm v, s'.sizes[t]? = s.sizes[t]?) : v ∈ s.wm.opened ∧ SameAt v s s' := by
  rw [hc.opened, List.mem_filter, decide_eq_true_iff] at hv
  refine ⟨hv.1, fun t ht => ?_, hf hv.2⟩
  rw [tabs_cascade hc] at ht
  have ht₀ := (List.mem_filter.1 ht).1
  exact ⟨ht₀, hsizes hv.2 t ht₀⟩

/-- Minimizing a window concerns no other. -/
theorem Window.minimize_same (h : Sound s) {v w : Nat} (hv : v ≠ w) : SameAt v s (Window.minimize w s) := by
  cases hm : s.saved w with
  | none =>
    rw [Window.minimize_of_none hm]
    exact .refl v s
  | some m => exact (Window.minimize_fate h hm).1 v hv

theorem Ample.saved {w : Nat} (h : Ample s w) {m : Saved} (hm : s.saved w = some m) : m.toSize.Positive := by
  obtain ⟨f, hf, hfm⟩ := Option.bind_eq_some_iff.1 hm
  exact (h f hf).2 m hfm

theorem minimize_agree (h : Sound s) (ha : ∀ w ∈ s.wm.opened, Ample s w) (hp : Agree s) {w : Nat} {m : Saved}
    (hm : s.saved w = some m) :
    Agree (Window.minimize w s) ∧ ∀ v ∈ (Window.minimize w s).wm.opened, Ample (Window.minimize w s) v := by
  obtain ⟨hsame, hrefit⟩ := Window.minimize_fate h hm
  obtain ⟨hiff, hample⟩ := hp.iff_of_refit h ha (Window.minimize_keeps w s).wm hsame
    fun hw => ⟨_, hrefit, rfl, fun m' hm' => (by cases hm')⟩
  have hagree := hiff.2 fun hw => (ha w hw).saved hm
  exact ⟨hagree, hample hagree⟩

/-- A new tab comes to a window of its size. -/
theorem Agree.of_push (h : Sound s) (hp : Agree s) (ha : ∀ w ∈ s.wm.opened, Ample s w) {w : Nat} {size : Size}
    (hsizes : s'.sizes = s.sizes ++ [size])
    (htabs : ∀ v, tabs s'.wm v = if v = w then tabs s.wm v ++ [s.wm.tabs.length] else tabs s.wm v)
    (hsame : ∀ v ∈ s'.wm.opened, v ≠ w → v ∈ s.wm.opened ∧ s'.frames[v]? = s.frames[v]?)
    (hw : w ∈ s'.wm.opened → s'.frames[w]?.map Frame.toSize = some size ∧ Ample s' w ∧
      ∀ t ∈ tabs s.wm w, s.sizes[t]? = some size) : Agree s' ∧ ∀ v ∈ s'.wm.opened, Ample s' v := by
  have hold : ∀ {v t : Nat}, t ∈ tabs s.wm v → s'.sizes[t]? = s.sizes[t]? := fun ht => by
    rw [hsizes, List.getElem?_append_left (h.tab_lt ht)]
  have hothers : ∀ v ∈ s'.wm.opened, v ≠ w → v ∈ s.wm.opened ∧ SameAt v s s' := by
    intro v hv hvw
    obtain ⟨hopen, hframe⟩ := hsame v hv hvw
    refine ⟨hopen, fun t ht => ?_, hframe⟩
    rw [htabs, if_neg hvw] at ht
    exact ⟨ht, hold ht⟩
  have hself : w ∈ s'.wm.opened → Agrees s' w ∧ Ample s' w := by
    intro hmem
    obtain ⟨hframe, hample, hagree⟩ := hw hmem
    refine ⟨fun t ht => ?_, hample⟩
    rw [htabs, if_pos rfl, List.mem_append, List.mem_singleton] at ht
    rw [hframe]
    rcases ht with ht | rfl
    · rw [hold ht, hagree t ht]
    · rw [hsizes, ← h.sizes, List.getElem?_concat_length]
  obtain ⟨hiff, hample⟩ := @Agree.iff_of_others s s' hp ha w True hothers
    (fun hmem => ⟨iff_of_true (hself hmem).1 trivial, fun _ => (hself hmem).2⟩) fun _ => trivial
  exact ⟨hiff.2 trivial, hample (hiff.2 trivial)⟩

theorem newWindow_agree (h : Sound s) (ha : ∀ w ∈ s.wm.opened, Ample s w) (hp : Agree s)
    (he : Effect s (.desk .newWindow) s') : Agree s' ∧ ∀ w ∈ s'.wm.opened, Ample s' w := by
  cases he with
  | focus _ _ hfocus => cases hfocus
  | newWindow wm hc =>
    have hnew : ∀ v, tabs (Wm.Window.new s.wm) v = tabs s.wm v := by
      intro v
      show (((s.wm.windows ++ [_])[v]?).map Wm.Window.tabs).getD [] = _
      rw [List.getElem?_append]
      split
      · rfl
      · rename_i hle
        unfold tabs
        rw [List.getElem?_eq_none (Nat.le_of_not_lt hle), List.getElem?_singleton]
        split <;> rfl
    have hlen : ∀ {v}, v ∈ wm.opened → v ∈ s.wm.opened ∨ v = s.wm.windows.length := by
      intro v hv
      rw [hc.opened] at hv
      simpa [Wm.Window.push, Wm.modifyWindow, Wm.Tab.new, Wm.Window.new] using hv
    have hframe : (s.frames ++ [({ geometry with minimize := none } : Frame)])[s.wm.windows.length]? =
        some { geometry with minimize := none } := by rw [← h.frames, List.getElem?_concat_length]
    refine @Agree.of_push s _ h hp ha s.wm.windows.length geometry rfl (fun v => ?_) (fun v hv hvw => ?_)
      fun _ => ⟨?_, fun f hf => ?_, fun t ht => ?_⟩
    · show tabs wm v = _
      have hpush := tabs_push (Wm.Window.new s.wm) v s.wm.windows.length
      rw [hnew] at hpush
      rw [tabs_cascade hc]
      simp only [List.not_mem_nil, not_false_eq_true, decide_true, List.filter_true]
      refine hpush.trans ?_
      have hlt : v = s.wm.windows.length → v < (Wm.Window.new s.wm).windows.length := by
        rintro rfl
        simp [Wm.Window.new]
      by_cases hv : v = s.wm.windows.length
      · rw [if_pos ⟨hv, hlt hv⟩, if_pos hv]
        rfl
      · rw [if_neg fun h => hv h.1, if_neg hv]
    · have hopen := (hlen hv).resolve_right hvw
      obtain ⟨f, _, _, hf, -⟩ := h.opened hopen
      exact ⟨hopen, List.getElem?_append_left (List.getElem?_eq_some_iff.1 hf).1⟩
    · show Option.map Frame.toSize (s.frames ++ _)[s.wm.windows.length]? = _
      rw [hframe]
      rfl
    · replace hf : (s.frames ++ _)[s.wm.windows.length]? = some f := hf
      rw [hframe, Option.some_inj] at hf
      subst hf
      exact ⟨⟨by decide, by decide⟩, fun m hm => (by cases hm)⟩
    · obtain ⟨win, _, hwin, -⟩ := (mem_tabs h.coherent.listed).1 ht
      exact absurd (List.getElem?_eq_some_iff.1 hwin).1 (Nat.lt_irrefl _)

theorem createTab_agree (h : Sound s) (ha : ∀ w ∈ s.wm.opened, Ample s w) (hp : Agree s) {w : Nat}
    (he : Effect s (.desk (.createTab w)) s') : Agree s' ∧ ∀ v ∈ s'.wm.opened, Ample s' v := by
  cases he with
  | focus _ _ hfocus => cases hfocus
  | createTab _ f size wm hf hsize hc =>
    have hopened : wm.opened = s.wm.opened := by
      rw [hc.opened]
      simp [Wm.Window.push, Wm.modifyWindow, Wm.Tab.new]
    refine @Agree.of_push s _ h hp ha w size rfl (fun v => ?_) (fun v hv _ => ⟨hopened ▸ hv, rfl⟩) fun hw => ?_
    · show tabs wm v = _
      rw [tabs_cascade hc, tabs_push]
      have hlt : w < s.wm.windows.length := h.frames ▸ (List.getElem?_eq_some_iff.1 hf).1
      by_cases hv : v = w
      · subst hv
        simp [hlt]
      · simp [hv]
    · replace hw : w ∈ s.wm.opened := hopened ▸ hw
      have hsame := Terminal.new_of_positive (ha w hw f hf).1 hsize
      subst hsame
      refine ⟨?_, ha w hw, fun t ht => ?_⟩
      · show s.frames[w]?.map _ = _
        rw [hf]
        rfl
      · rw [hp w hw t ht, hf]
        rfl

/-- A window is maximized from the size of its focused tab, which is its own. -/
theorem maximize_agree (h : Sound s) (ha : ∀ w ∈ s.wm.opened, Ample s w) (hp : Agree s) {w : Nat} {e : Extent}
    (hm : s.saved w = none) (hcall : Window.maximize w e s = some s') :
    (Agree s' ↔ Fits s (.maximize w e)) ∧ (Agree s' → ∀ v ∈ s'.wm.opened, Ample s' v) := by
  obtain ⟨win, term, size, hw, hf, hsize, hsame, hrefit⟩ := Window.maximize_fate h hm hcall
  -- an open window has the size of its focused tab
  have hown : w ∈ s.wm.opened → ∃ f, s.frames[w]? = some f ∧ f.toSize = size := by
    intro hopen
    obtain ⟨f, win', term', hframe, hw', hf', hmem⟩ := h.opened hopen
    rw [hw, Option.some_inj] at hw'
    rw [← hw', hf, Option.some_inj] at hf'
    have := hp w hopen term (hf' ▸ hmem)
    rw [hsize, hframe, Option.map_some, Option.some_inj] at this
    exact ⟨f, hframe, this.symm⟩
  obtain ⟨hiff, hample⟩ := hp.iff_of_refit h ha (Window.maximize_keeps hcall).wm hsame fun hopen => by
    refine ⟨_, hrefit, rfl, fun m hm' => ?_⟩
    obtain ⟨f, hframe, rfl⟩ := hown hopen
    cases hm'
    exact (ha w hopen f hframe).1
  refine ⟨hiff.trans ?_, hample⟩
  show (w ∈ s.wm.opened → (scaled e size).Positive) ↔ _
  rw [scaled_positive]
  constructor
  · intro hroom hopen _ f hframe
    obtain ⟨f', hframe', rfl⟩ := hown hopen
    rw [hframe, Option.some_inj] at hframe'
    exact hframe' ▸ hroom hopen
  · intro hroom hopen
    obtain ⟨f, hframe, rfl⟩ := hown hopen
    exact hroom hopen hm f hframe

theorem onResize_agree (h : Sound s) (ha : ∀ w ∈ s.wm.opened, Ample s w) (hp : Agree s) {e : Nat → Extent}
    (hcall : onResize e s = some s') :
    (Agree s' ↔ Fits s (.onResize e)) ∧ (Agree s' → ∀ v ∈ s'.wm.opened, Ample s' v) := by
  have hwm := (onResizeFrom_keeps hcall).wm
  have hfate : ∀ w ∈ s.wm.opened, (Agrees s' w ↔ ∀ m, s.saved w = some m → (e w).HasRoom m.toSize) ∧
      (Agrees s' w → Ample s' w) := by
    intro w hw
    obtain ⟨j, hj⟩ := List.mem_iff_getElem?.1 hw
    obtain ⟨hsame, hrefit⟩ := onResizeFrom_fate h hcall hj
    cases hm : s.saved w with
    | none =>
      have hs := hsame (.inr hm)
      exact ⟨iff_of_true (hs.agrees (hp w hw)) fun m hm' => (by cases hm'), fun _ => hs.ample (ha w hw)⟩
    | some m =>
      have hpos := (ha w hw).saved hm
      obtain ⟨root, hr⟩ := hrefit m (List.getElem?_eq_some_iff.1 hj).1 hm hpos
      obtain ⟨_, _, term, -, -, -, hterm⟩ := h.opened hw
      have hiff := (hr.agrees_iff hterm).trans scaled_positive
      refine ⟨hiff.trans ?_, fun hagree => hr.ample ((hr.agrees_iff hterm).1 hagree) ?_⟩
      · exact ⟨fun hroom m' hm' => Option.some_inj.1 hm' ▸ hroom, fun hroom => hroom m rfl⟩
      · intro m' hm'
        cases hm'
        exact hpos
  have hiff : Agree s' ↔ Fits s (.onResize e) := by
    unfold Agree Fits
    rw [hwm]
    exact forall₂_congr fun w hw => (hfate w hw).1
  refine ⟨hiff, fun hagree w hw => (hfate w (hwm ▸ hw)).2 (hagree w hw)⟩

theorem step_agree {a : Act} (h : Sound s) (ha : ∀ w ∈ s.wm.opened, Ample s w) (hp : Agree s)
    (he : Effect s a s') : (Agree s' ↔ Fits s a) ∧ (Agree s' → ∀ w ∈ s'.wm.opened, Ample s' w) := by
  have hfine : ∀ {s' : Screen} {a : Act}, Fits s a → (∀ w ∈ s'.wm.opened, w ∈ s.wm.opened ∧ SameAt w s s') →
      (Agree s' ↔ Fits s a) ∧ (Agree s' → ∀ w ∈ s'.wm.opened, Ample s' w) := fun hfits hsame =>
    ⟨iff_of_true (hp.of_same ha hsame).1 hfits, fun _ => (hp.of_same ha hsame).2⟩
  have hmin : ∀ {w : Nat} {m : Saved} {a : Act}, s.saved w = some m → Fits s a →
      (Agree (Window.minimize w s) ↔ Fits s a) ∧ (Agree (Window.minimize w s) →
        ∀ v ∈ (Window.minimize w s).wm.opened, Ample (Window.minimize w s) v) := fun hm hfits =>
    ⟨iff_of_true (minimize_agree h ha hp hm).1 hfits, fun _ => (minimize_agree h ha hp hm).2⟩
  cases he with
  | newWindow wm hc =>
    obtain ⟨hagree, hample⟩ := newWindow_agree h ha hp (.newWindow wm hc)
    exact ⟨iff_of_true hagree trivial, fun _ => hample⟩
  | createTab w f size wm hf hsize hc =>
    obtain ⟨hagree, hample⟩ := createTab_agree h ha hp (.createTab w f size wm hf hsize hc)
    exact ⟨iff_of_true hagree trivial, fun _ => hample⟩
  | ready t id =>
    obtain ⟨wm, events, called, heq, halike, -⟩ := Tab.ready_eq t id s
    refine hfine trivial fun v hv => ?_
    rw [heq] at hv ⊢
    refine ⟨halike.opened ▸ hv, fun t ht => ⟨?_, rfl⟩, rfl⟩
    unfold tabs at ht ⊢
    rwa [← halike.windows]
  | focus a wm hfocus hc =>
    exact hfine (by cases a <;> trivial) fun v hv =>
      SameAt.cascade hc hv (fun _ => rfl) fun _ _ _ => rfl
  | deadTab t hd => exact hfine trivial fun v hv => ⟨hv, .refl v s⟩
  | destroyTab t tab win wm new ht hd hw halone hc =>
    exact hfine trivial fun v hv => SameAt.cascade hc hv (fun _ => rfl) fun _ _ _ => rfl
  | destroyLast t tab win wm new ht hd hw hwd hnil hc =>
    refine hfine trivial fun v hv => SameAt.cascade hc hv (fun hvw => ?_) fun _ _ _ => rfl
    exact (Window.minimize_same h (List.ne_of_not_mem_cons hvw)).frame
  | deadWindow w hd => exact hfine trivial fun v hv => ⟨hv, .refl v s⟩
  | destroyWindow w win wm new hw hd hc =>
    refine hfine trivial fun v hv => SameAt.cascade hc hv (fun hvw => ?_) fun hvw t ht => ?_
    · exact (Window.minimize_same h (List.ne_of_not_mem_cons hvw)).frame
    · exact ((Window.minimize_same h (List.ne_of_not_mem_cons hvw)).kept t
        (by rwa [(Window.minimize_keeps w s).wm])).2
  | on t type f => exact hfine trivial fun v hv => ⟨hv, fun t ht => ⟨ht, rfl⟩, rfl⟩
  | once t type f => exact hfine trivial fun v hv => ⟨hv, fun t ht => ⟨ht, rfl⟩, rfl⟩
  | resize w cols rows =>
    obtain ⟨hsame, hrefit⟩ := Window.resize_fate h w id s.className cols rows
    rw [List.modify_id] at hsame hrefit
    obtain ⟨hiff, hample⟩ := @Agree.iff_of_refit _ (Window.resize w cols rows s) h hp ha
      (Window.resize_keeps w cols rows s).wm w ⟨cols, rows⟩ hsame fun hw => by
        obtain ⟨f, _, _, hf, -⟩ := h.opened hw
        exact ⟨_, hrefit f hf, rfl, (ha w hw f hf).2⟩
    exact ⟨hiff.trans (forall_congr' fun _ => ⟨fun hpos => ⟨hpos.cols, hpos.rows⟩, fun hpos => ⟨hpos.1, hpos.2⟩⟩),
      hample⟩
  | restore w e m hm =>
    refine hmin hm fun _ hnone => ?_
    rw [hm] at hnone
    cases hnone
  | maximize w e win term size hm hw hf hsize =>
    exact maximize_agree h ha hp hm (Window.maximize_of_none hm hw hf hsize e)
  | minimize w m hm => exact hmin hm trivial
  | onResize e s' hres => exact onResize_agree h ha hp hres

end Steps

/-! ## Runs -/

end Tangle.Screen
