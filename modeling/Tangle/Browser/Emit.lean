/-
What the browser publishes. `tty.socket.emit` takes the terminal's id by position, after the event;
input and resize pass it there, `Tab.destroy` passes an object that has it as a field. The extension
looks the id up as it is, so of these messages the kill message reaches no terminal.
-/
import Tangle.Tty.Step

namespace Tangle

open TTY (Ref)
open SSH (Tty)

/-- A JavaScript value. -/
inductive Js
  | undefined
  | null
  | bool (b : Bool)
  | num (n : Int)
  | str (s : String)
  | arr (elems : List Js)
  | obj (fields : List (String × Js))
  | func

namespace Js

mutual

/-- `JSON.stringify`; `undefined` and functions have no JSON. -/
def toJson : Js → Option Json
  | .undefined | .func => none
  | .null => some .null
  | .bool b => some (.bool b)
  | .num n => some (.int n)
  | .str s => some (.str s)
  | .arr elems => some (.arr (elemsToJson elems))
  | .obj fields => some (.obj (fieldsToJson fields))

def elemsToJson : List Js → List Json
  | [] => []
  | x :: xs => (toJson x).getD .null :: elemsToJson xs

def fieldsToJson : List (String × Js) → List (String × Json)
  | [] => []
  | f :: fs => (fieldToJson f).toList ++ fieldsToJson fs

def fieldToJson : String × Js → Option (String × Json)
  | (key, x) => (toJson x).map (Prod.mk key)

end

end Js

/-- `tty.socket.emit(event, ...)` for the user of `tty.open`, with `callbackID` callbacks registered so
far: the message it publishes and the new count. -/
def emit (userID : String) (callbackID : Nat) (event : String) (arguments : List Js) : Message × Nat :=
  let id := arguments.headD .undefined
  let args := arguments.tail
  let channel := channelName userID event
  match args.getLast? with
  -- a callback is registered under a name on the window and popped from `args`
  | some .func =>
    let name := "callback_" ++ toString callbackID
    let data := [("id", id), ("args", .arr args.dropLast), ("callback", .str name)]
    ({ channel, data := .obj (Js.fieldsToJson data) }, callbackID + 1)
  | _ => ({ channel, data := .obj (Js.fieldsToJson [("id", id), ("args", .arr args)]) }, callbackID)

/-- A tab, as far as messages touch it. Before `ready` its `id` is the empty string and `pty` is not
set; `process` is the status that it shows. -/
structure Tab where
  id : Option Int
  process : String
  destroyed : Bool
  deriving DecidableEq

namespace Tab

/-- `this.id`. -/
def idValue (tab : Tab) : Js :=
  match tab.id with
  | none => .str ""
  | some id => .num id

/-- `this.socket.emit('input', this.id, data)`. -/
def handler (userID : String) (callbackID : Nat) (tab : Tab) (data : String) : Message :=
  (emit userID callbackID "input" [tab.idValue, .str data]).1

/-- `this.socket.emit('resize', this.id, cols, rows)`. -/
def resize (userID : String) (callbackID : Nat) (tab : Tab) (cols rows : Int) : Message :=
  (emit userID callbackID "resize" [tab.idValue, .num cols, .num rows]).1

/-- `this.socket.emit('kill', { id: this.id })`. -/
def destroy (userID : String) (callbackID : Nat) (tab : Tab) : Message :=
  (emit userID callbackID "kill" [.obj [("id", tab.idValue)]]).1

end Tab

/-! ## What reaches a terminal -/

/-- Input from a tab is addressed to the terminal whose id the tab has. -/
theorem handler_addressed {userID : String} (hu : IsDigits userID) (callbackID : Nat) {tab : Tab} {k : Int}
    (hk : tab.id = some k) (data : String) :
    (tab.handler userID callbackID data).addressed = some (⟨userID, k⟩, .data data) := by
  have hs : splitChannel (tab.handler userID callbackID data).channel = some (userID, "input") :=
    splitChannel_eq_some.2 ⟨hu, rfl⟩
  unfold Message.addressed
  rw [hs]
  simp [Tab.handler, emit, Tab.idValue, hk, Js.fieldsToJson, Js.fieldToJson, Js.toJson, Js.elemsToJson, Json.index,
    List.lookup_cons, Json.joinElems, Json.joinElem]

theorem destroy_addressed (userID : String) (callbackID : Nat) (tab : Tab) :
    (tab.destroy userID callbackID).addressed = none := by
  have hid : ∃ fields, (tab.destroy userID callbackID).data.index "id" = .ok (.obj fields) := ⟨_, rfl⟩
  obtain ⟨fields, hid⟩ := hid
  unfold Message.addressed
  split
  · rw [hid]
  · rw [hid]
  · rfl

/-- From `s` to `s'` an end mark was written to the queue of one terminal and nothing to any other. -/
def KillsExactly (s s' : Reactor) (tty : Ref) : Prop :=
  (∃ t t', s.ttys.lookup tty.objectId = some t ∧ s'.ttys.lookup tty.objectId = some t' ∧
    t'.write = (t.write.push .eof).2) ∧
  ∀ k, k ≠ tty.objectId → (s'.ttys.lookup k).map Tty.write = (s.ttys.lookup k).map Tty.write

theorem incoming_destroy (s : Reactor) (userID : String) (callbackID : Nat) (tab : Tab) :
    (Extension.incoming s (tab.destroy userID callbackID)).state = s := by
  rw [incoming_state, destroy_addressed]

/-- Whatever is registered, for no owner and no live tab does the kill message of `Tab.destroy` write
the end mark to the terminal whose id the tab has. -/
theorem destroy_never_kills (s : Reactor) (userID : String) (callbackID : Nat) (k : Int) (process : String) :
    ¬ KillsExactly s (Extension.incoming s (Tab.destroy userID callbackID ⟨some k, process, false⟩)).state
      ⟨userID, k⟩ := by
  rw [incoming_destroy]
  rintro ⟨⟨t, t', ht, ht', hw⟩, -⟩
  rw [ht] at ht'; cases ht'
  exact t.write.push_eof_ne hw.symm

/-- The tab of a terminal that was just created. -/
theorem destroy_misses_created : ∃ s,
    Machine.exec Reactor.step (Reactor.init false) [.create "1" { objectId := 8 }] = some s ∧
    (⟨"1", 8⟩ : Ref) ∈ s.terms ∧
    ¬ KillsExactly s (Extension.incoming s (Tab.destroy "1" 0 ⟨some 8, "Connected", false⟩)).state ⟨"1", 8⟩ := by
  refine ⟨_, rfl, by decide, ?_⟩
  rw [incoming_destroy]
  rintro ⟨⟨t, t', ht, ht', hw⟩, -⟩
  rw [ht] at ht'; cases ht'
  exact t.write.push_eof_ne hw.symm

end Tangle
