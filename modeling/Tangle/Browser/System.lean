/-
Server and browser together. The id of a terminal reaches the page on one path, as the answer of the
`ssh` RPC, and its output and its end on another, through Faye; every order of the two is a run here.
Faye brings what is published on a subscribed channel to the browser once and in order. What the
browser publishes reaches the server as any client's message does, at any time.
-/
import Tangle.Browser.Tabs

namespace Tangle

/-- The browser of one user and the server. `inbox` is on its way from Faye to the browser and
`handled` is what it has handled; `rpc` are the ids that `ssh` answered and `spent` those of them that
`ready` was called with. -/
structure System where
  server : Reactor
  browser : Browser
  inbox : List Mail
  handled : List Mail
  rpc : List Int
  spent : List Int

namespace System

inductive Act
  | server (a : Tangle.Act)
  | deliver
  | ready (i : Nat) (id : Int)
  | transportUp
  | transportDown
  | publishError (id : Json)
  | createTab
  | destroyTab (i : Nat)

def init (production : Bool) (userID : String) : System :=
  { server := .init production, browser := .init userID, inbox := [], handled := [], rpc := [], spent := [] }

/-- A message of a client that the extension lets through. -/
def relayed (s : Reactor) : Tangle.Act → List Mail
  | .incoming m =>
    let m := (Extension.incoming s m).message
    if m.error.isNone then [.relayed m] else []
  | _ => []

/-- `tty.socket.on('data', ..)` and `tty.socket.on('kill', ..)`. -/
def subscribed (userID : String) (mail : Mail) : Bool :=
  mail.message.channel = channelName userID "data" ∨ mail.message.channel = channelName userID "kill"

/-- What a step of the server, from `s` to `s'`, sends the browser. -/
def arrivals (userID : String) (s : Reactor) (a : Tangle.Act) (s' : Reactor) : List Mail :=
  ((s'.published.drop s.published.length).map Mail.published ++ relayed s a).filter (subscribed userID)

/-- The id with which a call of `Handler#ssh` for the user returns in this step: at once, or after it
waited in `launch_vm`. -/
def returned (userID : String) (s : Reactor) : Tangle.Act → List Int
  | .create owner out =>
    match (Handler.ssh owner out).run s with
    | .ok id _ => if owner = userID then [id] else []
    | .error .. => []
  | .ssh id (.launched none none) =>
    match s.ttys.lookup id with
    | some t => if t.owner = userID then [id] else []
    | none => []
  | _ => []

/-- One step of either side. The page calls `ready` once with each id that it was answered. -/
def step (s : System) : Act → Option System
  | .server a =>
    match s.server.step a with
    | none => none
    | some server =>
      some { s with server, inbox := s.inbox ++ arrivals s.browser.userID s.server a server,
                    rpc := s.rpc ++ returned s.browser.userID s.server a }
  | .deliver =>
    match s.inbox with
    | [] => none
    | mail :: inbox => some { s with browser := s.browser.onMail mail, inbox, handled := s.handled ++ [mail] }
  | .ready i id =>
    if id ∈ s.rpc ∧ id ∉ s.spent ∧ i < s.browser.tabs.length then
      some { s with browser := s.browser.ready i id, spent := id :: s.spent }
    else none
  | .transportUp => some { s with browser := s.browser.transportUp }
  | .transportDown => some { s with browser := s.browser.transportDown }
  | .publishError id => some { s with browser := s.browser.publishError id }
  | .createTab => some { s with browser := s.browser.createTab }
  | .destroyTab i => some { s with browser := s.browser.destroyTab i }

/-! ## The invariant of both sides -/

/-- `Handler#ssh` answers the object id of the new terminal. -/
theorem run_ssh {s s' : Reactor} {owner : String} {out : Outside} {id : Int}
    (h : (Handler.ssh owner out).run s = .ok id s') : id = out.objectId := by
  unfold Handler.ssh at h
  by_cases hearly : TTY.RaisesEarly s out
  · obtain ⟨e, s1, hrun, -⟩ := TTY.create_early hearly owner
    rw [TTY.bind_error hrun] at h; cases h
  · rcases TTY.create_late hearly owner with ⟨r, phase, s1, hrun, -⟩ | ⟨stop, r, phase, s1, hrun, -⟩
    · rw [TTY.bind_ok hrun] at h; cases h; rfl
    · rw [TTY.bind_error hrun] at h; cases h

/-- No id is falsy. -/
theorem returned_ne {s s' : Reactor} {a : Tangle.Act} (hwf : s.WF) (h : s.step a = some s') (userID : String) :
    ∀ k ∈ returned userID s a, k ≠ 0 := by
  intro k hk
  unfold returned at hk
  split at hk
  · rename_i owner out
    split at hk
    · rename_i id s1 hrun
      split at hk
      · rw [List.mem_singleton] at hk
        rw [hk, run_ssh hrun]
        simp only [Reactor.step] at h
        split at h
        · rename_i hg; exact hg.1
        · cases h
      · cases hk
    · cases hk
  · split at hk
    · rename_i id _ t ht
      split at hk
      · rw [List.mem_singleton] at hk
        rw [hk]; exact hwf.nonzero id t ht
      · cases hk
    · cases hk
  · cases hk

structure Inv (s : System) : Prop where
  server : s.server.WF
  linked : s.browser.Linked s.spent
  rpc : ∀ k ∈ s.rpc, k ≠ 0
  spent : ∀ k ∈ s.spent, k ≠ 0

theorem init_inv (production : Bool) (userID : String) : Inv (init production userID) :=
  ⟨Reactor.init_wf production, Browser.init_linked userID, by simp [init], by simp [init]⟩

theorem step_server {s t : System} {a : Tangle.Act} (h : s.step (.server a) = some t) : ∃ server,
    s.server.step a = some server ∧
      t = { s with server, inbox := s.inbox ++ arrivals s.browser.userID s.server a server,
                   rpc := s.rpc ++ returned s.browser.userID s.server a } := by
  simp only [step] at h
  split at h
  · cases h
  · rename_i server hs
    cases h
    exact ⟨server, hs, rfl⟩

theorem step_deliver {s t : System} (h : s.step .deliver = some t) : ∃ mail inbox, s.inbox = mail :: inbox ∧
    t = { s with browser := s.browser.onMail mail, inbox, handled := s.handled ++ [mail] } := by
  simp only [step] at h
  split at h
  · cases h
  · rename_i mail inbox hs
    cases h
    exact ⟨mail, inbox, hs, rfl⟩

theorem step_ready {s t : System} {i : Nat} {id : Int} (h : s.step (.ready i id) = some t) :
    (id ∈ s.rpc ∧ id ∉ s.spent ∧ i < s.browser.tabs.length) ∧
      t = { s with browser := s.browser.ready i id, spent := id :: s.spent } := by
  simp only [step] at h
  split at h
  · rename_i hg
    cases h
    exact ⟨hg, rfl⟩
  · cases h

theorem step_inv {s t : System} {a : Act} (hi : Inv s) (h : s.step a = some t) : Inv t := by
  cases a with
  | server a =>
    obtain ⟨server, hs, rfl⟩ := step_server h
    refine ⟨Reactor.step_wf hi.server hs, hi.linked, fun k hk => ?_, hi.spent⟩
    rcases List.mem_append.1 hk with hk | hk
    · exact hi.rpc k hk
    · exact returned_ne hi.server hs _ k hk
  | deliver =>
    obtain ⟨mail, inbox, -, rfl⟩ := step_deliver h
    exact ⟨hi.server, hi.linked.onMail mail, hi.rpc, hi.spent⟩
  | ready i id =>
    obtain ⟨⟨hr, hsp, -⟩, rfl⟩ := step_ready h
    refine ⟨hi.server, hi.linked.ready i hsp, hi.rpc, fun k hk => ?_⟩
    rcases List.mem_cons.1 hk with rfl | hk
    · exact hi.rpc k hr
    · exact hi.spent k hk
  | transportUp => cases h; exact ⟨hi.server, hi.linked.transportUp, hi.rpc, hi.spent⟩
  | transportDown => cases h; exact ⟨hi.server, hi.linked.transportDown, hi.rpc, hi.spent⟩
  | publishError id => cases h; exact ⟨hi.server, hi.linked.publishError id, hi.rpc, hi.spent⟩
  | createTab => cases h; exact ⟨hi.server, hi.linked.createTab, hi.rpc, hi.spent⟩
  | destroyTab i => cases h; exact ⟨hi.server, hi.linked.destroyTab i, hi.rpc, hi.spent⟩

/-- What neither the server nor Faye did leaves mail and writes as they are. -/
structure Quiet (s t : System) : Prop where
  server : t.server = s.server
  inbox : t.inbox = s.inbox
  handled : t.handled = s.handled
  userID : t.browser.userID = s.browser.userID
  writes : t.browser.writes = s.browser.writes

theorem step_quiet {s t : System} {a : Act} (h : s.step a = some t) (hserver : ∀ x, a ≠ .server x)
    (hdeliver : a ≠ .deliver) : Quiet s t := by
  cases a with
  | server x => exact absurd rfl (hserver x)
  | deliver => exact absurd rfl hdeliver
  | ready i id =>
    obtain ⟨-, rfl⟩ := step_ready h
    exact ⟨rfl, rfl, rfl, rfl, rfl⟩
  | transportUp =>
    cases h
    exact ⟨rfl, rfl, rfl, (Browser.sets_transportUp _).userID, Browser.transportUp_writes _⟩
  | transportDown =>
    cases h
    exact ⟨rfl, rfl, rfl, (Browser.sets_transportDown _).userID, Browser.transportDown_writes _⟩
  | publishError id =>
    cases h
    obtain ⟨hit, hb⟩ := Browser.sets_publishError id s.browser
    exact ⟨rfl, rfl, rfl, hb.userID, Browser.publishError_writes id _⟩
  | createTab => cases h; exact ⟨rfl, rfl, rfl, rfl, rfl⟩
  | destroyTab i =>
    cases h
    rcases Browser.destroyTab_cases i s.browser with he | ⟨tab, -, -, he⟩
    all_goals
      rw [he]
      exact ⟨rfl, rfl, rfl, rfl, rfl⟩

end System

end Tangle
