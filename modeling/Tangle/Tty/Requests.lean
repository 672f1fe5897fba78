/-
What a browser can ask of the server. A user whose id is not made of decimal digits gets a terminal,
but the names of its channels are not recognised, so nothing typed into it arrives. A message whose
data does not have the expected shape changes no queue and its callback is called; but unless the data
is an object, and an array is under `args` where the terminal exists, the extension raises.
-/
import Tangle.Tty.Create

namespace Tangle

open Pipe (Item)
open TTY (Ref)
open SSH (Tty)
open Extension

/-! ## Users -/

/-- The terminal `k` of the user is registered. -/
def Reactor.Holds (s : Reactor) (userId : String) (k : Int) : Prop :=
  (⟨userId, k⟩ : Ref) ∈ s.terms ∧ (s.ttys.lookup k).isSome = true

/-- The extension recognises the message as an event of the user, and `ele` is written to the queue of
the user's terminal `k`, as one more item. -/
def Reaches (s : Reactor) (event : String) (m : Message) (userId : String) (k : Int) (ele : Item String) : Prop :=
  matchesEvent event m.channel = true ∧ extractUser m = .ok userId ∧
    (incoming s m).state.ttys.lookup k = (s.ttys.lookup k).map (Tty.push s.now ele)

/-- Whatever input and kill messages name the user and the terminal, they reach it. -/
structure Addressable (s : Reactor) (userId : String) (k : Int) : Prop where
  input : ∀ m args, m.channel = channelName userId "input" → m.data.index "id" = .ok (.int k) →
    m.data.index "args" = .ok (.arr args) → Reaches s "input" m userId k (.data (Json.joinElems args))
  kill : ∀ m, m.channel = channelName userId "kill" → m.data.index "id" = .ok (.int k) →
    Reaches s "kill" m userId k .eof

/-- A channel is the name of at most one owner's event. -/
def OneOwner : Prop :=
  ∀ o o' e e', e ∈ ["input", "kill"] → e' ∈ ["input", "kill"] → channelName o e = channelName o' e' → o = o'

theorem oneOwner : OneOwner := by
  intro o o' e e' he he' h
  simp only [List.mem_cons, List.not_mem_nil, or_false] at he he'
  rcases he with rfl | rfl <;> rcases he' with rfl | rfl
  · exact channelName_owner_inj h
  · exact absurd h (channelName_ne (by decide) (by decide) (by decide))
  · exact absurd h (channelName_ne (by decide) (by decide) (by decide))
  · exact channelName_owner_inj h

theorem incoming_addressed {s : Reactor} {m : Message} {userId : String} {k : Int} {ele : Item String}
    (hs : s.Holds userId k) (ha : m.addressed = some (⟨userId, k⟩, ele)) :
    (incoming s m).state.ttys.lookup k = (s.ttys.lookup k).map (Tty.push s.now ele) := by
  rw [incoming_state, ha]
  simp only [hs.1, if_true]
  rw [Reactor.writeTo, Reactor.lookup_modifyTty, if_pos rfl]

theorem addressable {s : Reactor} {userId : String} {k : Int} (hu : IsDigits userId) (hs : s.Holds userId k) :
    Addressable s userId k := by
  have hsplit : ∀ event, splitChannel (channelName userId event) = some (userId, event) :=
    fun event => splitChannel_eq_some.2 ⟨hu, rfl⟩
  have huser : ∀ {m : Message} {event}, m.channel = channelName userId event →
      matchesEvent event m.channel = true ∧ extractUser m = .ok userId := by
    intro m event hc
    refine ⟨matchesEvent_iff.2 ⟨userId, hu, hc⟩, ?_⟩
    unfold extractUser; rw [hc, hsplit]
  constructor
  · intro m args hc hid hargs
    obtain ⟨hm, hx⟩ := huser hc
    refine ⟨hm, hx, incoming_addressed hs ?_⟩
    unfold Message.addressed
    simp only [hc, hsplit, hid, hargs]
  · intro m hc hid
    obtain ⟨hm, hx⟩ := huser hc
    refine ⟨hm, hx, incoming_addressed hs ?_⟩
    unfold Message.addressed
    simp only [hc, hsplit, hid]

theorem Addressable.digits {s : Reactor} {userId : String} {k : Int} (h : Addressable s userId k) :
    IsDigits userId := by
  obtain ⟨hm, -⟩ := h.kill (Message.kill userId k) rfl rfl
  obtain ⟨owner, ho, hc⟩ := matchesEvent_iff.1 hm
  rwa [channelName_owner_inj hc]

/-- A call of `Handler#ssh` that returns has registered its terminal. -/
theorem ssh_holds {s s' : Reactor} {userId : String} {out : Outside} {k : Int}
    (h : (Handler.ssh userId out).run s = .ok k s') : s'.Holds userId k := by
  unfold Handler.ssh at h
  by_cases hearly : TTY.RaisesEarly s out
  · obtain ⟨e, s1, hrun, -⟩ := TTY.create_early hearly userId
    rw [TTY.bind_error hrun] at h; cases h
  · rcases TTY.create_late hearly userId with ⟨r, phase, s1, hrun, -, hreg⟩ | ⟨stop, r, phase, s1, hrun, -⟩
    · rw [TTY.bind_ok hrun] at h
      cases h
      refine ⟨?_, ?_⟩
      · rw [hreg.terms, TTY.Registry.mem_push]; exact .inl rfl
      · rw [hreg.ttys, if_pos rfl]; rfl
    · rw [TTY.bind_error hrun] at h; cases h

/-- The terminal that `Handler#ssh` returns is registered, and its user's messages reach it, as long as
it stays registered, exactly when the user's id is made of decimal digits. -/
theorem ssh_addressable_iff {s s' : Reactor} {userId : String} {out : Outside} {k : Int}
    (h : (Handler.ssh userId out).run s = .ok k s') :
    s'.Holds userId k ∧
    (((∀ s, s.Holds userId k → Addressable s userId k) ∧ OneOwner) ↔ IsDigits userId) := by
  have hs := ssh_holds h
  refine ⟨hs, fun ha => (ha.1 s' hs).digits, fun hu => ⟨fun s hs => addressable hu hs, oneOwner⟩⟩

theorem ssh_addressable_local : ∃ s', (Handler.ssh "12" { objectId := 8 }).run (Reactor.init false) = .ok 8 s' ∧
    Addressable s' "12" 8 :=
  ⟨_, rfl, ((@ssh_addressable_iff (Reactor.init false) _ "12" { objectId := 8 } 8 rfl).2.2 ⟨by simp, by simp⟩).1 _
    (@ssh_addressable_iff (Reactor.init false) _ "12" { objectId := 8 } 8 rfl).1⟩

/-- `alice` gets terminal 8, and what is typed into it is lost. -/
theorem ssh_unaddressable : ∃ s', (Handler.ssh "alice" { objectId := 8 }).run (Reactor.init false) = .ok 8 s' ∧
    ¬ Addressable s' "alice" 8 :=
  ⟨_, rfl, fun h => absurd (h.digits.2 'a' (by simp)) (by decide)⟩

/-! ## Malformed requests -/

namespace Extension

/-- While a message passes: the process, the message, which a handler may change, and the messages the
callback was called with. -/
structure Passing where
  state : Reactor
  message : Message
  called : List Message

abbrev Pass := EStateM Exn Passing

/-- A handler raises before it has changed anything. -/
def runHandler (handle : Reactor → Message → Except Exn (Reactor × Message)) : Pass Unit := do
  let p ← get
  match handle p.state p.message with
  | .ok (s', m') => set { p with state := s', message := m' }
  | .error e => throw e

/-- `callback.call(message)`. -/
def callCallback : Pass Unit := modify fun p => { p with called := p.called ++ [p.message] }

/-- `x ensure clause`. -/
def ensure (x clause : Pass Unit) : Pass Unit := fun p =>
  match x p with
  | .ok _ p => clause p
  | .error e p =>
    match clause p with
    | .ok _ p => .error e p
    | .error e p => .error e p

def incomingEnsure : Pass Unit :=
  ensure (do
    let channel := (← get).message.channel
    if matchesEvent "input" channel then runHandler handleInput
    else if matchesEvent "kill" channel then runHandler handleKill)
    callCallback

/-- How a call ends whose handler left `r` and whose callback was called with `called`. -/
def Result.ended (r : Result) (called : List Message) : EStateM.Result Exn Passing Unit :=
  match r.raised with
  | none => .ok () ⟨r.state, r.message, called⟩
  | some e => .error e ⟨r.state, r.message, called⟩

theorem run_runHandler (handle : Reactor → Message → Except Exn (Reactor × Message)) (s : Reactor) (m : Message)
    (called : List Message) :
    (runHandler handle).run ⟨s, m, called⟩ = (ensureCallback s m (handle s m)).ended called := by
  cases h : handle s m with
  | ok r => simp [runHandler, h, ensureCallback, Result.ended]
  | error e => simp [runHandler, h, ensureCallback, Result.ended]

/-- The `ensure` clause runs after the handler, whether it raised or not. -/
theorem run_ensure {x : Pass Unit} {p : Passing} {r : Result} (h : x.run p = r.ended []) :
    (ensure x callCallback).run p = r.ended [r.message] := by
  obtain ⟨state, message, raised⟩ := r
  have h : x p = Result.ended ⟨state, message, raised⟩ [] := h
  unfold EStateM.run ensure
  rw [h]
  cases raised <;> rfl

theorem run_incomingEnsure (s : Reactor) (m : Message) :
    incomingEnsure.run ⟨s, m, []⟩ = (incoming s m).ended [(incoming s m).message] := by
  refine run_ensure ?_
  show (if matchesEvent "input" m.channel then runHandler handleInput
    else if matchesEvent "kill" m.channel then runHandler handleKill else pure () : Pass Unit).run ⟨s, m, []⟩ = _
  unfold incoming
  split
  · exact run_runHandler _ _ _ _
  · split
    · exact run_runHandler _ _ _ _
    · rfl

end Extension

namespace Message

/-- The data carries an id and, for an input, an array of args. -/
def Carries (m : Message) : Prop :=
  ∃ fields, m.data = .obj fields ∧ (∃ id, fields.lookup "id" = some id) ∧
    (matchesEvent "input" m.channel = true → ∃ args, fields.lookup "args" = some (.arr args))

/-- What the handlers need not to raise: the data is an object, and an input for a terminal that exists
has an array under `args`. -/
def Digestible (s : Reactor) (m : Message) : Prop :=
  ∃ fields, m.data = .obj fields ∧
    (matchesEvent "input" m.channel = true → ∀ user, extractUser m = .ok user →
      (s.terms.get user ((fields.lookup "id").getD .null)).isSome = true →
        ∃ args, fields.lookup "args" = some (.arr args))

end Message

/-- The callback is called once, the extension returns without raising, and malformed data changes
nothing. -/
structure Survives (s : Reactor) (m : Message) : Prop where
  callback : ∃ r, incomingEnsure.run ⟨s, m, []⟩ = .ok () r ∧ r.called.length = 1
  unchanged : ¬ m.Carries → (incoming s m).state = s

theorem lookup_of_getD {fields : List (String × Json)} {key : String} {v : Json} (hv : v ≠ .null)
    (h : (fields.lookup key).getD .null = v) : fields.lookup key = some v := by
  cases hl : fields.lookup key with
  | none => rw [hl] at h; exact absurd h.symm hv
  | some w => rw [hl] at h; exact congrArg some h

/-- Only data of the expected shape is addressed to a terminal. -/
theorem carries_of_addressed {m : Message} {p : Ref × Item String} (h : m.addressed = some p) : m.Carries := by
  have hidx : ∀ {key v}, m.data.index key = .ok v →
      ∃ fields, m.data = .obj fields ∧ (fields.lookup key).getD .null = v := by
    intro key v hk
    rcases index_cases m.data with ⟨fields, hd, hi⟩ | ⟨e, hi⟩
    · rw [hi] at hk; cases hk; exact ⟨fields, hd, rfl⟩
    · rw [hi] at hk; cases hk
  unfold Message.addressed at h
  split at h
  · split at h
    · rename_i id args hid hargs
      obtain ⟨fields, hd, hid⟩ := hidx hid
      obtain ⟨fields', hd', hargs⟩ := hidx hargs
      rw [hd] at hd'
      cases hd'
      exact ⟨fields, hd, ⟨.int id, lookup_of_getD nofun hid⟩, fun _ => ⟨args, lookup_of_getD nofun hargs⟩⟩
    · cases h
  · rename_i user hs
    split at h
    · rename_i id hid
      obtain ⟨fields, hd, hid⟩ := hidx hid
      refine ⟨fields, hd, ⟨.int id, lookup_of_getD nofun hid⟩, fun hm => ?_⟩
      rw [matchesEvent_of_split hs] at hm; cases hm
    · cases h
  · cases h

theorem unchanged_of_malformed {s : Reactor} {m : Message} (h : ¬ m.Carries) : (incoming s m).state = s := by
  rw [incoming_state]
  cases ha : m.addressed with
  | none => rfl
  | some p => exact absurd (carries_of_addressed ha) h

/-- Data that is not an object cannot be indexed. -/
theorem not_digestible {s : Reactor} {m : Message} (h : ∀ fields, m.data ≠ .obj fields) : ¬ m.Digestible s := by
  rintro ⟨fields, hd, -⟩
  exact h fields hd

theorem input_raised {s : Reactor} {m : Message} {user : String} (hs : splitChannel m.channel = some (user, "input")) :
    (ensureCallback s m (handleInput s m)).raised = none ↔ m.Digestible s := by
  have hm : matchesEvent "input" m.channel = true := by rw [matchesEvent_of_split hs]; rfl
  have hu : extractUser m = .ok user := by unfold extractUser; rw [hs]
  unfold handleInput
  rw [hu]
  simp only [bind, Except.bind]
  rcases index_cases m.data with ⟨fields, hd, hi⟩ | ⟨e, hi⟩
  · have hdig : m.Digestible s ↔ ((s.terms.get user ((fields.lookup "id").getD .null)).isSome = true →
        ∃ args, fields.lookup "args" = some (.arr args)) := by
      constructor
      · rintro ⟨fields', hd', h⟩
        rw [hd] at hd'; cases hd'
        exact h hm user hu
      · intro h
        refine ⟨fields, hd, fun _ user' hu' => ?_⟩
        rw [hu] at hu'; cases hu'
        exact h
    rw [hdig]
    simp only [hi]
    cases s.terms.get user ((fields.lookup "id").getD .null) with
    | none => simp [pure, Except.pure, ensureCallback]
    | some term =>
      -- only an array is joined
      cases ha : fields.lookup "args" with
      | none => simp [Json.join, ensureCallback]
      | some args => cases args <;> simp [Json.join, ensureCallback, pure, Except.pure]
  · refine iff_of_false ?_ (not_digestible fun fields hd => ?_)
    · simp [hi, ensureCallback]
    · rw [hd] at hi
      have h := hi "id"
      cases h

theorem kill_raised {s : Reactor} {m : Message} {user : String} (hs : splitChannel m.channel = some (user, "kill")) :
    (ensureCallback s m (handleKill s m)).raised = none ↔ m.Digestible s := by
  have hm : matchesEvent "input" m.channel = false := by rw [matchesEvent_of_split hs]; rfl
  unfold handleKill extractUser
  simp only [hs, bind, Except.bind]
  rcases index_cases m.data with ⟨fields, hd, hi⟩ | ⟨e, hi⟩
  · refine iff_of_true ?_ ⟨fields, hd, fun h => absurd (hm.symm.trans h) Bool.false_ne_true⟩
    simp only [hi]
    cases s.terms.get user ((fields.lookup "id").getD .null) <;> simp [pure, Except.pure, ensureCallback]
  · refine iff_of_false ?_ (not_digestible fun fields hd => ?_)
    · simp [hi, ensureCallback]
    · rw [hd] at hi
      have h := hi "id"
      cases h

/-- When the extension raises on a message it recognises. -/
theorem raised_iff {s : Reactor} {m : Message}
    (hc : matchesEvent "input" m.channel = true ∨ matchesEvent "kill" m.channel = true) :
    (incoming s m).raised = none ↔ m.Digestible s := by
  unfold incoming
  split
  · rename_i hi
    obtain ⟨user, hu, hch⟩ := matchesEvent_iff.1 hi
    exact input_raised (splitChannel_eq_some.2 ⟨hu, hch⟩)
  · rename_i hi
    have hk := hc.resolve_left hi
    rw [if_pos hk]
    obtain ⟨user, hu, hch⟩ := matchesEvent_iff.1 hk
    exact kill_raised (splitChannel_eq_some.2 ⟨hu, hch⟩)

/-- The extension survives a message on an input or kill channel exactly when its data is an object,
with an array under `args` if it is an input for a terminal that exists. -/
theorem incoming_survives_iff {s : Reactor} {m : Message}
    (hc : matchesEvent "input" m.channel = true ∨ matchesEvent "kill" m.channel = true) :
    Survives s m ↔ m.Digestible s := by
  rw [← raised_iff hc]
  have hrun := run_incomingEnsure s m
  unfold Result.ended at hrun
  constructor
  · rintro ⟨⟨r, hr, -⟩, -⟩
    rw [hrun] at hr
    cases hx : (incoming s m).raised with
    | none => rfl
    | some e => rw [hx] at hr; cases hr
  · intro hx
    rw [hx] at hrun
    exact ⟨⟨_, hrun, rfl⟩, unchanged_of_malformed⟩

/-- An input without an id, while a terminal of its user is registered. -/
theorem incoming_survives_nameless : ∃ tty s, (TTY.create "1" { objectId := 8 }).run (.init false) = .ok tty s ∧
    ⟨"1", 8⟩ ∈ s.terms ∧ Survives s { channel := "/1/input", data := .obj [("args", .arr [])] } := by
  refine ⟨_, _, rfl, by decide +kernel, (incoming_survives_iff (.inl (by decide))).2 ⟨_, rfl, fun _ user hu hsome => ?_⟩⟩
  exact ⟨[], rfl⟩

/-- A message without data makes the extension raise. -/
theorem incoming_raises : ¬ Survives (Reactor.init false) { channel := "/1/input", data := .null } := by
  rintro ⟨⟨r, hr, -⟩, -⟩
  rw [run_incomingEnsure] at hr
  cases hr

end Tangle
