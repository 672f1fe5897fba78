/-
The server process as its reactor thread sees it (the registry, the terminals, the clock, what was
published), the Faye extension `TTY::Extension` that every incoming message passes, and the two
publications of `SSH::Base`, which pass it too. All the extension ever does to the process is to
write one item to the queue of one registered terminal.
-/
import Tangle.Faye.Message
import Tangle.Ssh.Base
import Tangle.Tty.Registry

namespace Tangle

open Pipe (Item)
open TTY (Ref Registry)
open SSH (Tty)

/-- What `SSH::Base` publishes. -/
inductive Publication
  | data (owner : String) (id : Int) (data : String)
  | kill (owner : String) (id : Int)
  deriving DecidableEq, Repr

/-- `faye_client.publish data_channel, id: object_id, data: data` and
`faye_client.publish kill_channel, id: object_id`. -/
def Publication.message : Publication → Message
  | .data owner id d => { channel := channelName owner "data", data := .obj [("id", .int id), ("data", .str d)] }
  | .kill owner id => { channel := channelName owner "kill", data := .obj [("id", .int id)] }

/-- `/:owner/input` with a terminal id and its args. -/
def Message.input (owner : String) (id : Int) (args : List Json) : Message :=
  { channel := channelName owner "input", data := .obj [("id", .int id), ("args", .arr args)] }

/-- `/:owner/kill` with a terminal id. -/
def Message.kill (owner : String) (id : Int) : Message :=
  { channel := channelName owner "kill", data := .obj [("id", .int id)] }

/-- The server process. `ttys` holds every terminal ever constructed, by object id; `timer` is the
next time the periodic timer of `add_timer` fires; `published` is what Faye was given to distribute. -/
structure Reactor where
  production : Bool
  now : Nat
  timerAdded : Bool
  timer : Option Nat
  terms : Registry
  ttys : OrdHash Int Tty
  published : List Publication

namespace Reactor

def init (production : Bool) : Reactor :=
  { production, now := 0, timerAdded := false, timer := none, terms := .empty, ttys := ∅, published := [] }

/-- Rewrites one terminal. -/
def modifyTty (id : Int) (f : Tty → Tty) (s : Reactor) : Reactor := { s with ttys := OrdHash.update id f s.ttys }

@[simp] theorem modifyTty_terms (id : Int) (f : Tty → Tty) (s : Reactor) : (s.modifyTty id f).terms = s.terms := rfl
@[simp] theorem modifyTty_now (id : Int) (f : Tty → Tty) (s : Reactor) : (s.modifyTty id f).now = s.now := rfl
@[simp] theorem modifyTty_timer (id : Int) (f : Tty → Tty) (s : Reactor) : (s.modifyTty id f).timer = s.timer := rfl
@[simp] theorem modifyTty_timerAdded (id : Int) (f : Tty → Tty) (s : Reactor) :
    (s.modifyTty id f).timerAdded = s.timerAdded := rfl
@[simp] theorem modifyTty_published (id : Int) (f : Tty → Tty) (s : Reactor) :
    (s.modifyTty id f).published = s.published := rfl

theorem lookup_modifyTty (id k : Int) (f : Tty → Tty) (s : Reactor) :
    (s.modifyTty id f).ttys.lookup k = if k = id then (s.ttys.lookup id).map f else s.ttys.lookup k :=
  OrdHash.lookup_update id k f s.ttys

/-- `term.write << ele`; `term.write.close` is `term.write << :EOF_SENTINEL`. -/
def writeTo (s : Reactor) (term : Ref) (ele : Item String) : Reactor := s.modifyTty term.objectId (Tty.push s.now ele)

end Reactor

/-! ## The extension -/

namespace Extension

/-- `message[:channel].match(%r[\A/(\d+)/])[1]`. -/
def extractUser (m : Message) : Except Exn String :=
  match splitChannel m.channel with
  | some (user, _) => .ok user
  | none => .error .noMethodError

/-- Finds appropriate terminal and forwards input to it. -/
def handleInput (s : Reactor) (m : Message) : Except Exn (Reactor × Message) := do
  let user ← extractUser m
  let id ← m.data.index "id"
  let request ← m.data.index "args"
  match s.terms.get user id with
  | some term => do
    let text ← request.join
    return (s.writeTo term (.data text), m)
  -- the only error the extension ever sets
  | none => return (s, { m with error := some "Terminal does not exist." })

/-- Finds appropriate terminal and kills it. -/
def handleKill (s : Reactor) (m : Message) : Except Exn (Reactor × Message) := do
  let user ← extractUser m
  let id ← m.data.index "id"
  match s.terms.get user id with
  | none => return (s, m)
  | some term => return (s.writeTo term .eof, m)

/-- What a call of `incoming` leaves: the process, the message its callback was called with, and the
exception that goes on into Faye's pipeline, if any. -/
structure Result where
  state : Reactor
  message : Message
  raised : Option Exn

/-- The `ensure` clause: the callback is called with the message, raised or not. -/
def ensureCallback (s : Reactor) (m : Message) : Except Exn (Reactor × Message) → Result
  | .ok (s', m') => ⟨s', m', none⟩
  | .error e => ⟨s, m, some e⟩

def incoming (s : Reactor) (m : Message) : Result :=
  if matchesEvent "input" m.channel then ensureCallback s m (handleInput s m)
  else if matchesEvent "kill" m.channel then ensureCallback s m (handleKill s m)
  else ⟨s, m, none⟩

end Extension

open Extension

/-- The terminal a message is for and what it asks to write: the joined args of a well-formed input
message, the end mark for a kill message. -/
def Message.addressed (m : Message) : Option (Ref × Item String) :=
  match splitChannel m.channel with
  | some (user, "input") =>
    match m.data.index "id", m.data.index "args" with
    | .ok (.int id), .ok (.arr args) => some (⟨user, id⟩, .data (Json.joinElems args))
    | _, _ => none
  | some (user, "kill") =>
    match m.data.index "id" with
    | .ok (.int id) => some (⟨user, id⟩, .eof)
    | _ => none
  | _ => none

theorem matchesEvent_of_split {c user event e : String} (h : splitChannel c = some (user, event)) :
    matchesEvent e c = (event == e) := by
  unfold matchesEvent; rw [h]

theorem matchesEvent_of_none {c e : String} (h : splitChannel c = none) : matchesEvent e c = false := by
  unfold matchesEvent; rw [h]

theorem get_of_mem {reg : Registry} {user : String} {id : Int} (h : (⟨user, id⟩ : Ref) ∈ reg) :
    reg.get user (.int id) = some ⟨user, id⟩ := Registry.get_eq_some.2 ⟨rfl, rfl, h⟩

theorem get_of_not_mem {reg : Registry} {user : String} {id : Int} (h : (⟨user, id⟩ : Ref) ∉ reg) :
    reg.get user (.int id) = none := by
  cases hg : reg.get user (.int id) with
  | none => rfl
  | some term =>
    obtain ⟨rfl, hid, hm⟩ := Registry.get_eq_some.1 hg
    cases hid; exact absurd hm h

theorem get_of_not_int {reg : Registry} {user : String} {id : Json} (h : ∀ k, id ≠ .int k) :
    reg.get user id = none := by
  cases hg : reg.get user id with
  | none => rfl
  | some term => exact absurd (Registry.get_eq_some.1 hg).2.1 (h _)

/-- The fields of an object; of anything else indexing raises. -/
theorem index_cases (j : Json) :
    (∃ fields, j = .obj fields ∧ ∀ key, j.index key = .ok ((fields.lookup key).getD .null)) ∨
    ∃ e, ∀ key, j.index key = .error e := by
  cases j with
  | obj fields => exact .inl ⟨fields, rfl, fun _ => rfl⟩
  | null => exact .inr ⟨_, fun _ => rfl⟩
  | bool => exact .inr ⟨_, fun _ => rfl⟩
  | int => exact .inr ⟨_, fun _ => rfl⟩
  | frac => exact .inr ⟨_, fun _ => rfl⟩
  | str => exact .inr ⟨_, fun _ => rfl⟩
  | arr => exact .inr ⟨_, fun _ => rfl⟩

theorem handleInput_state (s : Reactor) (m : Message) {user : String}
    (hs : splitChannel m.channel = some (user, "input")) :
    (ensureCallback s m (handleInput s m)).state = match m.addressed with
      | some (term, ele) => if term ∈ s.terms then s.writeTo term ele else s
      | none => s := by
  unfold handleInput extractUser Message.addressed
  simp only [hs, bind, Except.bind, pure, Except.pure]
  rcases index_cases m.data with ⟨fields, -, hi⟩ | ⟨e, hi⟩
  · simp only [hi]
    by_cases hint : ∃ k, (fields.lookup "id").getD Json.null = .int k
    · obtain ⟨k, hk⟩ := hint
      simp only [hk]
      by_cases hm : (⟨user, k⟩ : Ref) ∈ s.terms
      · simp only [get_of_mem hm]
        cases (fields.lookup "args").getD Json.null <;> simp [Json.join, ensureCallback, hm]
      · simp only [get_of_not_mem hm]
        cases (fields.lookup "args").getD Json.null <;> simp [ensureCallback, hm]
    · have hno : ∀ k, (fields.lookup "id").getD Json.null ≠ .int k := fun k h => hint ⟨k, h⟩
      simp only [get_of_not_int hno]
      cases hv : (fields.lookup "id").getD Json.null <;> first | exact absurd hv (hno _) | rfl
  · simp only [hi]; rfl

theorem handleKill_state (s : Reactor) (m : Message) {user : String}
    (hs : splitChannel m.channel = some (user, "kill")) :
    (ensureCallback s m (handleKill s m)).state = match m.addressed with
      | some (term, ele) => if term ∈ s.terms then s.writeTo term ele else s
      | none => s := by
  unfold handleKill extractUser Message.addressed
  simp only [hs, bind, Except.bind, pure, Except.pure]
  rcases index_cases m.data with ⟨fields, -, hi⟩ | ⟨e, hi⟩
  · simp only [hi]
    by_cases hint : ∃ k, (fields.lookup "id").getD Json.null = .int k
    · obtain ⟨k, hk⟩ := hint
      simp only [hk]
      by_cases hm : (⟨user, k⟩ : Ref) ∈ s.terms
      · simp [get_of_mem hm, ensureCallback, hm]
      · simp [get_of_not_mem hm, ensureCallback, hm]
    · have hno : ∀ k, (fields.lookup "id").getD Json.null ≠ .int k := fun k h => hint ⟨k, h⟩
      simp only [get_of_not_int hno]
      cases hv : (fields.lookup "id").getD Json.null <;> first | exact absurd hv (hno _) | rfl
  · simp only [hi]; rfl

/-- Everything a message can do to the process: write one item to the queue of the registered
terminal it is addressed to. -/
theorem incoming_state (s : Reactor) (m : Message) :
    (incoming s m).state = match m.addressed with
      | some (term, ele) => if term ∈ s.terms then s.writeTo term ele else s
      | none => s := by
  unfold incoming
  cases hs : splitChannel m.channel with
  | none => simp [matchesEvent_of_none hs, Message.addressed, hs]
  | some p =>
    obtain ⟨user, event⟩ := p
    simp only [matchesEvent_of_split hs]
    split
    · rename_i hi; cases eq_of_beq hi; exact handleInput_state s m hs
    · rename_i hi
      split
      · rename_i hk; cases eq_of_beq hk; exact handleKill_state s m hs
      · rename_i hk
        have hna : m.addressed = none := by
          unfold Message.addressed
          rw [hs]
          split <;> simp_all
        rw [hna]

/-- A well-formed input message is passed on without an error exactly when its terminal is
registered. -/
theorem incoming_error_none {s : Reactor} {m : Message} {term : Ref} {text : String}
    (ha : m.addressed = some (term, .data text)) (he : m.error = none) :
    (incoming s m).message.error = none ↔ term ∈ s.terms := by
  unfold Message.addressed at ha
  split at ha
  · rename_i user hs
    split at ha
    · rename_i id args hid hargs
      cases ha
      have hin : matchesEvent "input" m.channel = true := by rw [matchesEvent_of_split hs]; rfl
      unfold incoming
      rw [if_pos hin]
      unfold handleInput extractUser
      simp only [hs, hid, hargs, bind, Except.bind, pure, Except.pure]
      by_cases hm : (⟨user, id⟩ : Ref) ∈ s.terms
      · simp [get_of_mem hm, Json.join, ensureCallback, hm, he]
      · simp [get_of_not_mem hm, ensureCallback, hm]
    · cases ha
  · split at ha <;> cases ha
  · cases ha

end Tangle
