/-
A terminal and its SSH session. `SSH::Base` keeps the owner, the time of the last input, the write
queue and the `on_close` listeners; the phase says how far `open` has come, for `SSH::Local` and for
`SSH::Remote`, whose `ubuntu` session runs before the user's own. em-ssh answers by events: each
session fires one of `errback` and `callback`, the replies to channel, pty and shell requests carry a
success flag, and `channel.wait` returns when either side has closed the channel.
-/
import Tangle.Support.CloseableQueue
import Tangle.Faye.Json

namespace Tangle.SSH

open Support (CloseableQueue Callback)
open Pipe (Item)

def EXPIRY_SECONDS : Nat := 30 * 60

/-- The channel that `open_channel` asks for, up to its end. -/
inductive Channel
  | opening
  | openFailed
  | ptyRequested
  | ptyDenied
  | shellRequested
  | shellDenied
  /-- `set_write_callbacks` has run. -/
  | shell
  | closed
  deriving DecidableEq, Repr

/-- `ch.active?`. -/
def Channel.active : Channel → Bool
  | .ptyRequested | .ptyDenied | .shellRequested | .shellDenied | .shell => true
  | .opening | .openFailed | .closed => false

/-- How far `open` has come. -/
inductive Phase
  /-- No connection: `open` has not started one, or starting it raised. -/
  | idle
  /-- `launch_vm` waits for its VM. -/
  | launching
  /-- The `ubuntu` connection of `ensure_unix_user_exists_on` is pending; `block` is `block_given?`. -/
  | ensuring (block : Bool)
  /-- The `ubuntu` session is up and `ensure_user_exists.sh` runs on it. -/
  | provisioning (block : Bool)
  /-- The connection of the terminal's own session is pending. -/
  | connecting
  /-- The session is up and its fiber is in `channel.wait`. -/
  | session (ch : Channel)
  /-- The last connection failed or the session was closed. -/
  | ended
  deriving DecidableEq, Repr

/-- A call on the terminal's channel. -/
inductive Call
  | sendData (data : String)
  | close
  deriving DecidableEq, Repr

/-- A block given to `on_close`; the only one in the program is `{ TTY.delete tty }`. -/
inductive Listener
  | deleteTty
  deriving DecidableEq, Repr

/-- A terminal. The last three fields record what happened to it: whether the other side closed the
channel first, the calls made on the channel, and how often `close` ran its listeners. -/
structure Tty where
  owner : String
  last : Nat
  write : CloseableQueue String
  listeners : List Listener
  retries : Nat
  phase : Phase
  hungUp : Bool
  calls : List Call
  closes : Nat

namespace Tty

/-- `SSH::Base#initialize`, and `@retries = 0` of `SSH::Remote`. -/
def new (owner : String) (now : Nat) : Tty :=
  { owner, last := now, write := CloseableQueue.new, listeners := [], retries := 0, phase := .idle,
    hungUp := false, calls := [], closes := 0 }

def onClose (block : Listener) (t : Tty) : Tty := { t with listeners := t.listeners ++ [block] }

/-- `Time.now - @last > EXPIRY_SECONDS`. -/
def expired (now : Nat) (t : Tty) : Bool := decide (now - t.last > EXPIRY_SECONDS)

/-- `ch.active?` on the terminal's channel. -/
def active (t : Tty) : Bool :=
  match t.phase with
  | .session ch => ch.active
  | _ => false

/-- The callbacks `set_write_callbacks` registers: `{ ch.close if ch.active? }` and
`{ |data| @last = Time.now; ch.send_data data }`. -/
def runCallback (now : Nat) (t : Tty) : Callback String → Tty
  | .data data => { t with last := now, calls := t.calls ++ [.sendData data] }
  | .close => if t.active then { t with phase := .session .closed, calls := t.calls ++ [.close] } else t

/-- `write << ele`, with the callbacks it sets off. -/
def push (now : Nat) (ele : Item String) (t : Tty) : Tty :=
  let r := t.write.push ele
  r.1.foldl (runCallback now) { t with write := r.2 }

/-- `@write.on_close { .. }; @write.on_data { .. }`. -/
def setWriteCallbacks (now : Nat) (t : Tty) : Tty :=
  let r := t.write.onClose.onData
  r.1.foldl (runCallback now) { t with write := r.2 }

end Tty

/-! ## Events of em-ssh -/

/-- What a terminal is told: by em-ssh, or by EC2 while `create` waits in `launch_vm`. Where a
connection is started, the event carries what `EM::Ssh.start` raises, if it does. -/
inductive Event
  /-- `vm.status` is no longer `:pending`, or asking for it raised. -/
  | launched (status start : Option Exn)
  | errback (restart : Option Exn)
  | callback
  /-- `.wait` on the channel of `ensure_user_exists.sh` returns. -/
  | provisioned (start : Option Exn)
  | channelOpen (ok : Bool)
  | pty (ok : Bool)
  | shell (success : Bool)
  | data (d : String)
  /-- The other side closes the channel. -/
  | hangup
  /-- `channel.wait` returns. -/
  | waitReturns
  deriving DecidableEq, Repr

/-- What a handler does beyond its own terminal. -/
inductive Effect
  | nothing
  | publish (data : String)
  | close
  deriving DecidableEq, Repr

/-- The phase after `EM::Ssh.start`, which either starts the connection or raises into the reactor. -/
def started (raised : Option Exn) (next : Phase) : Phase := if raised.isSome then .idle else next

/-- `SSH::Base#open_channel` and `#open_shell`, `SSH::Local#open`, and the end of `#launch_vm`,
`#ensure_unix_user_exists_on` and `#start_user_session_on` of `SSH::Remote`; `none` where the event
cannot happen. -/
def Tty.handle (now : Nat) (t : Tty) (e : Event) : Option (Tty × Effect) :=
  match t.phase, e with
  | .launching, .launched (some _) _ => some ({ t with phase := .idle }, .nothing)
  | .launching, .launched none start =>
    some ({ t with retries := t.retries + 2, phase := started start (.ensuring true) }, .nothing)
  | .ensuring _, .errback restart =>
    -- `_retry` runs `ensure_unix_user_exists_on vm` without its block
    if t.retries > 0 then
      some ({ t with retries := t.retries - 1, phase := started restart (.ensuring false) }, .nothing)
    else some ({ t with phase := .ended }, .close)
  | .ensuring block, .callback => some ({ t with phase := .provisioning block }, .nothing)
  | .provisioning block, .provisioned start =>
    if block then some ({ t with phase := started start .connecting }, .nothing)
    else some ({ t with phase := .ended }, .close)
  | .connecting, .errback _ => some ({ t with phase := .ended }, .close)
  | .connecting, .callback => some ({ t with phase := .session .opening }, .nothing)
  -- `do |pty, ok| .. if ok`: nothing follows a denied request
  | .session .opening, .channelOpen ok =>
    some ({ t with phase := .session (if ok then .ptyRequested else .openFailed) }, .nothing)
  | .session .ptyRequested, .pty ok =>
    some ({ t with phase := .session (if ok then .shellRequested else .ptyDenied) }, .nothing)
  | .session .shellRequested, .shell success =>
    if success then some (Tty.setWriteCallbacks now { t with phase := .session .shell }, .nothing)
    else some ({ t with phase := .session .shellDenied }, .nothing)
  | .session ch, .data d => if ch.active then some (t, .publish d) else none
  | .session ch, .hangup =>
    if ch.active then some ({ t with phase := .session .closed, hungUp := true }, .nothing) else none
  -- `ssh.close` and `close` after `channel.wait`
  | .session .closed, .waitReturns => some ({ t with phase := .ended }, .close)
  | _, _ => none

end Tangle.SSH
