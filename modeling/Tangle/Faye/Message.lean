/-
Faye messages and the channel names both ends agree on. The server formats `/:owner/:event` and the
extension takes names apart again with two patterns: only owners made of decimal digits are ever
recognised, and a recognised name determines its owner and event.
-/
import Tangle.Faye.Json
import Mathlib.Data.List.TakeWhile

namespace Tangle

/-- `message[:channel]`, `message[:data]` and the `message[:error]` an extension may set. -/
structure Message where
  channel : String
  data : Json
  error : Option String := none

/-- `"/#{owner}/#{event}"`. -/
def channelName (owner event : String) : String := "/" ++ owner ++ "/" ++ event

/-- `\d+`. -/
def IsDigits (s : String) : Prop := s.toList ≠ [] ∧ ∀ c ∈ s.toList, c.isDigit = true

instance (s : String) : Decidable (IsDigits s) := inferInstanceAs (Decidable (_ ∧ _))

/-- `channel.match(%r[\A/(\d+)/])`: the capture and what follows the match. -/
def splitChannel (channel : String) : Option (String × String) :=
  match channel.toList with
  | '/' :: cs =>
    match cs.takeWhile Char.isDigit, cs.dropWhile Char.isDigit with
    | d :: ds, '/' :: rest => some (String.ofList (d :: ds), String.ofList rest)
    | _, _ => none
  | _ => none

/-- `channel =~ %r[\A/\d+/event\z]`. -/
def matchesEvent (event channel : String) : Bool :=
  match splitChannel channel with
  | some (_, rest) => rest == event
  | none => false

theorem toList_channelName (owner event : String) :
    (channelName owner event).toList = '/' :: (owner.toList ++ '/' :: event.toList) := by
  simp [channelName]

theorem takeWhile_digits {ds cs : List Char} (hd : ∀ c ∈ ds, c.isDigit = true) :
    (ds ++ '/' :: cs).takeWhile Char.isDigit = ds := by
  rw [List.takeWhile_append_of_pos hd, List.takeWhile_cons_of_neg (by decide), List.append_nil]

theorem dropWhile_digits {ds cs : List Char} (hd : ∀ c ∈ ds, c.isDigit = true) :
    (ds ++ '/' :: cs).dropWhile Char.isDigit = '/' :: cs := by
  rw [List.dropWhile_append_of_pos hd, List.dropWhile_cons_of_neg (by decide)]

/-- A name is taken apart exactly when it was put together from a decimal owner. -/
theorem splitChannel_eq_some {channel owner event : String} :
    splitChannel channel = some (owner, event) ↔ IsDigits owner ∧ channel = channelName owner event := by
  constructor
  · intro h
    unfold splitChannel at h
    split at h
    · rename_i cs hcs
      split at h
      · rename_i d ds rest htake hdrop
        cases h
        have hsplit : cs = (d :: ds) ++ '/' :: rest := by
          rw [← htake, ← hdrop, List.takeWhile_append_dropWhile]
        refine ⟨⟨by simp, fun c hc => ?_⟩, String.toList_inj.1 ?_⟩
        · rw [String.toList_ofList, ← htake] at hc
          exact List.mem_takeWhile_imp hc
        · rw [hcs, toList_channelName, hsplit]; simp
      · cases h
    · cases h
  · rintro ⟨⟨hne, hd⟩, rfl⟩
    unfold splitChannel
    rw [toList_channelName]
    simp only [takeWhile_digits hd, dropWhile_digits hd]
    split
    · rename_i d ds rest ho hr
      cases hr
      rw [← ho, String.ofList_toList, String.ofList_toList]
    -- an owner has at least one digit, so both patterns match
    · rename_i hno
      cases ho : owner.toList with
      | nil => exact absurd ho hne
      | cons d ds => exact absurd rfl (hno d ds event.toList ho)

example : splitChannel "/12/input" = some ("12", "input") := by decide

example : splitChannel "/user/input" = none := by decide

theorem matchesEvent_iff {event channel : String} :
    matchesEvent event channel = true ↔ ∃ owner, IsDigits owner ∧ channel = channelName owner event := by
  unfold matchesEvent
  constructor
  · intro h
    split at h
    · rename_i owner rest hs
      cases eq_of_beq h
      exact ⟨owner, splitChannel_eq_some.1 hs⟩
    · cases h
  · rintro ⟨owner, hc⟩
    rw [splitChannel_eq_some.2 hc]; simp

theorem channelName_owner_inj {o o' e : String} (h : channelName o e = channelName o' e) : o = o' := by
  have hl := congrArg String.toList h
  rw [toList_channelName, toList_channelName, List.cons.injEq] at hl
  exact String.toList_inj.1 (List.append_cancel_right hl.2)

theorem getLast?_channelName {o e : String} (he : e.toList ≠ []) :
    (channelName o e).toList.getLast? = e.toList.getLast? := by
  rw [toList_channelName, ← List.cons_append, List.getLast?_append, List.getLast?_cons]
  cases h : e.toList.getLast? with
  | none => exact absurd (List.getLast?_eq_none_iff.1 h) he
  | some c => rfl

/-- Names of events that end in different characters differ, whatever their owners. -/
theorem channelName_ne {o o' e e' : String} (he : e.toList ≠ []) (he' : e'.toList ≠ [])
    (h : e.toList.getLast? ≠ e'.toList.getLast?) : channelName o e ≠ channelName o' e' := fun heq => h <| by
  rw [← getLast?_channelName (o := o) he, heq, getLast?_channelName he']

end Tangle
