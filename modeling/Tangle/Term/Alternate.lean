/-
The alternate screen. A program that goes there and comes back finds the normal screen as it was, with its
history, its cursor, its region and its tab stops, whatever happens in between but for a reset, a resize and
a change of screens.
-/
import Tangle.Term.Run
import Tangle.Term.Sequence

namespace Tangle.Term.Terminal

open Machine

/-! ## The screen that is kept -/

/-- What keeps and stays leaves the kept screen alone. -/
theorem normal_effect {m : Manner} (hk : m.keep) (hs : m.stay) {t u : Terminal} {normal : Saved}
    (hn : t.normal = some normal) (h : Effect m t u) : u.normal = some normal := by
  cases h with
  | move _ _ h | attr _ _ h | region _ _ _ h | range _ _ h | edit _ _ _ _ h | silent _ _ _ _ h | shift _ _ _ _ h
  | scroll h => exact (congrArg View.normal h).trans hn
  | enter v _ hnone => rw [hn] at hnone; cases hnone
  | reset v hno | resize x v _ hno => exact absurd hk hno
  | leave v _ hno => exact absurd hs hno

/-- Neither a reset nor another width, and not back to the normal screen. -/
def AwayWrite (t : Terminal) (data : List CodeUnit) : Prop :=
  Guarded parse (fun p ch => p.2 = false → p.1.Keep ch ∧ p.1.Stay ch) (t.begin, false) data

instance (t : Terminal) (data : List CodeUnit) : Decidable (t.AwayWrite data) :=
  inferInstanceAs (Decidable (Guarded _ _ _ _))

def AwayAct (t : Terminal) : Act → Prop
  | .write data => t.AwayWrite data
  | .resize _ _ => False
  | _ => True

instance : ∀ (t : Terminal) (a : Act), Decidable (t.AwayAct a)
  | t, .write data => inferInstanceAs (Decidable (t.AwayWrite data))
  | _, .resize _ _ => .isFalse id
  | _, .timeout | _, .scrollDisp _ | _, .cursorBlink | _, .blur | _, .focus | _, .key _ | _, .paste _ => .isTrue trivial

theorem normal_parse {p q : Terminal × Bool} {data : List CodeUnit} {normal : Saved} (hn : p.1.normal = some normal)
    (hm : Guarded parse (fun p ch => p.2 = false → p.1.Keep ch ∧ p.1.Stay ch) p data)
    (h : exec parse p data = some q) : q.1.normal = some normal := by
  refine exec_inv_meets (I := fun p => p.1.normal = some normal) (fun p ch q hp hc hq => ?_) hn hm.meets h
  obtain ⟨v, skip⟩ := p
  cases skip with
  | true => cases hq; exact hp
  | false =>
    obtain ⟨hk, hs⟩ := hc rfl
    exact Effects.inv (I := fun t => t.normal = some normal) (fun _ _ hn => normal_effect (m := v.manner ch) hk hs hn)
      hp (reaches_round hq)

theorem normal_idle {t u : Terminal} (h : Idle t u) : u.normal = t.normal := by
  obtain ⟨ydisp, cursorState, page, out, rfl⟩ := h
  rfl

theorem normal_step {t u : Terminal} {a : Act} {normal : Saved} (hn : t.normal = some normal) (ha : t.AwayAct a)
    (h : t.step a = some u) : u.normal = some normal := by
  by_cases hw : ∃ data, a = .write data
  · obtain ⟨data, rfl⟩ := hw
    obtain ⟨p, hexec, hfinish⟩ := Option.bind_eq_some_iff.1 (show t.write data = some u from h)
    have hbegin := (normal_idle (idle_begin t)).trans hn
    exact (normal_idle (idle_finish hfinish)).trans (normal_parse (p := (t.begin, false)) hbegin ha hexec)
  · push Not at hw
    have hr : ∀ x y, a ≠ .resize x y := by
      rintro x y rfl
      exact ha
    exact (normal_idle (step_idle hw hr h)).trans hn

/-! ## There and back -/

/-- The sequences with which programs go there and come back: `CSI ? p h` and `CSI ? p l`. -/
def setSequence (p : Nat) : List CodeUnit := control [0x3f] [p] 0x68
def resetSequence (p : Nat) : List CodeUnit := control [0x3f] [p] 0x6c

theorem csiFinal_enter {p : Nat} (hp : p ∈ alternateModes) (t : Terminal) :
    csiFinal 0x68 [p] (t.called [0x3f] [p]) = (t.called [0x3f] [p]).enterAlternate := by
  have hmode : setModeOne (t.called [0x3f] [p]) p = (t.called [0x3f] [p]).enterAlternate := by
    simp only [alternateModes, List.mem_cons, List.not_mem_nil, or_false] at hp
    rcases hp with rfl | rfl | rfl <;> rfl
  show [p].foldlM setModeOne (t.called [0x3f] [p]) = _
  rw [List.foldlM_cons, hmode]
  exact bind_pure _

theorem csiFinal_leave {p : Nat} (hp : p ∈ alternateModes) (t : Terminal) :
    csiFinal 0x6c [p] (t.called [0x3f] [p]) = (t.called [0x3f] [p]).leaveAlternate := by
  have hmode : resetModeOne (t.called [0x3f] [p]) p = (t.called [0x3f] [p]).leaveAlternate := by
    simp only [alternateModes, List.mem_cons, List.not_mem_nil, or_false] at hp
    rcases hp with rfl | rfl | rfl <;> rfl
  show [p].foldlM resetModeOne (t.called [0x3f] [p]) = _
  rw [List.foldlM_cons, hmode]
  exact bind_pure _

theorem enterAlternate_eq_some {t u : Terminal} (hn : t.normal = none) (h : t.enterAlternate = some u) :
    u.normal = some t.saved := by
  rw [enterAlternate, hn, if_neg (by decide)] at h
  exact congrArg View.normal (redrawn_alternate h).view

theorem saved_refresh {t u : Terminal} {a b : Nat} (h : t.refresh a b = some u) : u.saved = t.saved := by
  obtain ⟨children, rfl, -⟩ := refresh_eq_some h
  rfl

theorem saved_showCursor {t u : Terminal} (h : t.showCursor = some u) : u.saved = t.saved ∧ u.normal = t.normal := by
  refine ⟨?_, normal_idle (idle_showCursor h)⟩
  unfold showCursor at h
  split at h
  · exact (saved_refresh h).trans rfl
  · cases h
    rfl

theorem leaveAlternate_eq_some {t u : Terminal} {normal : Saved} (hn : t.normal = some normal)
    (h : t.leaveAlternate = some u) : u.saved = normal ∧ u.normal = none := by
  rw [leaveAlternate, hn] at h
  obtain ⟨v, hv, h⟩ := Option.bind_eq_some_iff.1 h
  obtain ⟨hsaved, hnormal⟩ := saved_showCursor h
  exact ⟨hsaved.trans (saved_refresh hv), hnormal.trans (normal_idle (idle_refresh hv))⟩

end Tangle.Term.Terminal
