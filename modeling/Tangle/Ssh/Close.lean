/-
`SSH::Base#publish` and `#close`. A publication passes the extension like any other message. `close`
runs the `on_close` listeners first and publishes the kill event after them, so by then the terminal
is out of the registry and the kill finds nothing to write to.
-/
import Tangle.Tty.Extension

namespace Tangle

open Pipe (Item)
open TTY (Ref Registry)
open SSH (Tty Listener)
open Extension

namespace Reactor

/-- `faye_client.publish`: distributed unless the extension sets an error. -/
def publish (s : Reactor) (p : Publication) : Reactor :=
  let r := incoming s p.message
  if r.message.error.isNone then { r.state with published := r.state.published ++ [p] } else r.state

/-- Runs one `on_close` listener of a terminal. -/
def runListener (term : Ref) (s : Reactor) : Listener → Reactor
  | .deleteTty =>
    { s with terms := s.terms.delete term,
             ttys := OrdHash.update term.objectId (fun t => { t with closes := t.closes + 1 }) s.ttys }

/-- `SSH::Base#close`: `@listeners.map(&:call)`, then `kill`. -/
def close (s : Reactor) (id : Int) : Reactor :=
  match s.ttys.lookup id with
  | none => s
  | some t => (t.listeners.foldl (runListener ⟨t.owner, id⟩) s).publish (.kill t.owner id)

end Reactor

/-! ## Publications and the extension -/

theorem matchesEvent_channelName_ne {o e e' : String} (he : e.toList ≠ []) (he' : e'.toList ≠ [])
    (h : e.toList.getLast? ≠ e'.toList.getLast?) : matchesEvent e' (channelName o e) = false := by
  cases hm : matchesEvent e' (channelName o e) with
  | false => rfl
  | true =>
    obtain ⟨o', -, hc⟩ := matchesEvent_iff.1 hm
    exact absurd hc (channelName_ne he he' h)

theorem data_not_input (o : String) : matchesEvent "input" (channelName o "data") = false :=
  matchesEvent_channelName_ne (by decide) (by decide) (by decide)

theorem data_not_kill (o : String) : matchesEvent "kill" (channelName o "data") = false :=
  matchesEvent_channelName_ne (by decide) (by decide) (by decide)

theorem kill_not_input (o : String) : matchesEvent "input" (channelName o "kill") = false :=
  matchesEvent_channelName_ne (by decide) (by decide) (by decide)

/-- Only input messages are ever answered with an error. -/
theorem incoming_message {s : Reactor} {m : Message} (h : matchesEvent "input" m.channel = false) :
    (incoming s m).message = m := by
  unfold incoming
  rw [h]
  simp only [Bool.false_eq_true, if_false]
  split
  · unfold handleKill
    rcases extractUser m with e | user
    · rfl
    · rcases hid : m.data.index "id" with e | id
      · simp only [bind, Except.bind]; rfl
      · simp only [bind, Except.bind, pure, Except.pure]
        cases s.terms.get user id <;> rfl
  · rfl

/-- The kill event of a terminal is addressed to nothing but that terminal. -/
theorem kill_addressed {o : String} {id : Int} {term : Ref} {ele : Item String}
    (h : (Publication.kill o id).message.addressed = some (term, ele)) : term = ⟨o, id⟩ := by
  unfold Message.addressed at h
  split at h
  · rename_i user hs
    have hc := (splitChannel_eq_some.1 hs).2
    exact absurd hc (channelName_ne (by decide) (by decide) (by decide))
  · rename_i user hs
    have hc := (splitChannel_eq_some.1 hs).2
    have ho : o = user := channelName_owner_inj hc
    simp only [Publication.message, Json.index, List.lookup_cons, BEq.rfl, Option.getD_some, Option.some.injEq,
      Prod.mk.injEq] at h
    rw [← h.1, ho]
  · cases h

theorem publish_data (s : Reactor) (o : String) (id : Int) (d : String) :
    s.publish (.data o id d) = { s with published := s.published ++ [.data o id d] } := by
  have hr : incoming s (Publication.data o id d).message = ⟨s, (Publication.data o id d).message, none⟩ := by
    unfold incoming Publication.message
    simp only [data_not_input, data_not_kill]; rfl
  unfold Reactor.publish
  simp only [hr]; rfl

theorem publish_kill {s : Reactor} {o : String} {id : Int} (h : (⟨o, id⟩ : Ref) ∉ s.terms) :
    s.publish (.kill o id) = { s with published := s.published ++ [.kill o id] } := by
  have hs : (incoming s (Publication.kill o id).message).state = s := by
    rw [incoming_state]
    split
    · rename_i term ele ha
      rw [kill_addressed ha, if_neg h]
    · rfl
  have hm : (incoming s (Publication.kill o id).message).message = (Publication.kill o id).message :=
    incoming_message (kill_not_input o)
  unfold Reactor.publish
  simp only [hs, hm]; rfl

theorem publish_terms (s : Reactor) (p : Publication) : (s.publish p).terms = s.terms := by
  have hi : (incoming s p.message).state.terms = s.terms := by
    rw [incoming_state]
    split
    · split <;> rfl
    · rfl
  unfold Reactor.publish
  simp only
  split <;> exact hi

/-- `close` on a terminal whose only listener is that of `TTY.create`: the terminal leaves the
registry and its kill event is published, and nothing else happens. -/
theorem close_eq {s : Reactor} {id : Int} {t : Tty} (ht : s.ttys.lookup id = some t)
    (hl : t.listeners = [.deleteTty]) :
    s.close id =
      { s with terms := s.terms.delete ⟨t.owner, id⟩,
               ttys := OrdHash.update id (fun t => { t with closes := t.closes + 1 }) s.ttys,
               published := s.published ++ [.kill t.owner id] } := by
  unfold Reactor.close
  rw [ht]
  simp only [hl, List.foldl_cons, List.foldl_nil]
  rw [publish_kill (by simp [Reactor.runListener, Registry.mem_delete])]
  rfl

end Tangle
