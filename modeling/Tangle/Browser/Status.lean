/-
Whether a tab that shows `Connected` has a terminal. A kill event that finds its tab disconnects it,
and nothing keeps that: `ready` and `transport:up` connect every tab they meet, also one whose kill
event was handled. A run keeps browser and server in agreement exactly when neither happens to a tab
whose terminal is gone and whose kill event is no longer on its way.
-/
import Tangle.Browser.System

namespace Tangle.System

open TTY (Ref)
open Browser (Sets)

/-- The kill handler looks the mail's tab up under `k`. -/
def Kills (userID : String) (k : Int) (mail : Mail) : Prop :=
  mail.message.channel = channelName userID "kill" ∧ Browser.idKey mail.message = some k.repr

/-- A kill message for `k` is on its way to the browser. -/
def KillInFlight (s : System) (k : Int) : Prop := ∃ mail ∈ s.inbox, Kills s.browser.userID k mail

/-- A live tab whose kill message is not on its way shows `Connected` only if its terminal is
registered. -/
def StatusAgrees (s : System) : Prop :=
  ∀ (i : Nat) tab k, s.browser.tabs[i]? = some tab → tab.destroyed = false → tab.id = some k →
    ¬ KillInFlight s k → tab.process = "Connected" → (⟨s.browser.userID, k⟩ : Ref) ∈ s.server.terms

/-- The terminal is registered or its kill message is on its way. -/
def Settled (s : System) (k : Int) : Prop := (⟨s.browser.userID, k⟩ : Ref) ∈ s.server.terms ∨ KillInFlight s k

/-- Where a step connects live tabs, their terminals are settled. -/
def ConnectsSettled (s : System) : Act → Prop
  | .ready i id => ∀ tab, s.browser.tabs[i]? = some tab → tab.destroyed = false → Settled s id
  | .transportUp => ∀ (i : Nat) tab k, s.browser.tabs[i]? = some tab → tab.destroyed = false → tab.id = some k →
    Settled s k
  | _ => True

theorem agrees_iff {s : System} : StatusAgrees s ↔ ∀ (i : Nat) tab k, s.browser.tabs[i]? = some tab →
    tab.destroyed = false → tab.id = some k → tab.process = "Connected" → Settled s k := by
  refine forall₃_congr fun i tab k => forall₃_congr fun _ _ _ => ?_
  unfold Settled
  tauto

theorem settled_browser {s : System} {b : Browser} (hu : b.userID = s.browser.userID) (k : Int) :
    Settled { s with browser := b } k ↔ Settled s k := by
  unfold Settled KillInFlight
  rw [hu]

/-! ## Steps -/

/-- The server settles every terminal it closes: the kill message is sent with the removal. -/
theorem Settled.server {s t : System} {a : Tangle.Act} {k : Int} (hi : Inv s) (h : s.step (.server a) = some t)
    (hs : Settled s k) : Settled t k := by
  obtain ⟨server, hst, rfl⟩ := step_server h
  have hstep := Reactor.stepped hi.server hst
  rcases hs with hm | ⟨mail, hin, hk⟩
  -- a terminal that leaves the registry sends its kill message in the same step
  · by_cases hc : Reactor.Closes s.server a ⟨s.browser.userID, k⟩
    · obtain ⟨new, hpub, hone, -⟩ := hstep.published
      have hnew : .kill s.browser.userID k ∈ new := List.count_pos_iff.1 (by rw [hone _ hc]; exact Nat.one_pos)
      refine .inr ⟨.published (.kill s.browser.userID k), List.mem_append_right _ ?_, rfl, rfl⟩
      unfold arrivals
      rw [hpub, List.drop_left, List.mem_filter]
      exact ⟨List.mem_append_left _ (List.mem_map_of_mem hnew), by simp [subscribed, Mail.message, Publication.message]⟩
    · exact .inl ((hstep.mem _).2 (.inl ⟨hm, hc⟩))
  · exact .inr ⟨mail, List.mem_append_left _ hin, hk⟩

/-- Listeners that disconnect keep the agreement, if they reach every tab whose terminal is no longer
settled. -/
theorem StatusAgrees.sets {s t : System} {hit : List Nat} (hb : Sets s.browser t.browser hit Tab.disconnected)
    (hs : ∀ (i : Nat) tab k, s.browser.tabs[i]? = some tab → tab.destroyed = false → tab.id = some k → Settled s k →
      Settled t k ∨ i ∈ hit) (ha : StatusAgrees s) : StatusAgrees t := by
  rw [agrees_iff] at ha ⊢
  intro i tab' k hi hd hk hp
  rw [hb.tabs] at hi
  obtain ⟨tab, ht, rfl⟩ := Option.map_eq_some_iff.1 hi
  by_cases hh : i ∈ hit
  · rw [if_pos hh] at hd hp
    exact absurd hp (Tab.disconnected_process (by simpa using hd))
  · rw [if_neg hh] at hd hk hp
    exact (hs i tab k ht hd hk (ha i tab k ht hd hk hp)).resolve_right hh

theorem agrees_deliver {s t : System} (hi : Inv s) (ha : StatusAgrees s) (h : s.step .deliver = some t) :
    StatusAgrees t := by
  obtain ⟨mail, inbox, hin, rfl⟩ := step_deliver h
  obtain ⟨hit, hb, hkill⟩ := Browser.sets_onMail mail s.browser
  apply ha.sets hb
  intro i tab k ht hd hk hs
  rcases hs with hm | ⟨mail', hmem, hc, hkey⟩
  · exact .inl (.inl (hb.userID ▸ hm))
  · rw [hin] at hmem
    -- either this was the kill message, and it reaches the tab, or it is still to come
    rcases List.mem_cons.1 hmem with rfl | hmem
    · refine .inr (hkill hc i ?_)
      unfold Browser.term
      rw [hkey]
      exact hi.linked.tabs i tab k ht hd hk
    · exact .inl (.inr ⟨mail', hmem, hb.userID ▸ hc, hkey⟩)

theorem agrees_ready {s t : System} {i : Nat} {id : Int} (hi : Inv s) (ha : StatusAgrees s)
    (h : s.step (.ready i id) = some t) : StatusAgrees t ↔ ConnectsSettled s (.ready i id) := by
  obtain ⟨⟨hr, -, -⟩, rfl⟩ := step_ready h
  rw [agrees_iff] at ha ⊢
  constructor
  · intro hat tab ht hd
    refine hat i (Tab.connected { tab with id := some id }) id ?_ (by simpa using hd) (by simp)
      (Tab.connected_process hd rfl (hi.rpc id hr))
    show (s.browser.ready i id).tabs[i]? = _
    rw [Browser.ready_tabs, ht, Option.map_some, if_pos rfl]
  · intro hc j tab' k hj hd hk hp
    have hj : (s.browser.ready i id).tabs[j]? = some tab' := hj
    rw [Browser.ready_tabs] at hj
    obtain ⟨tab, ht, rfl⟩ := Option.map_eq_some_iff.1 hj
    by_cases hij : i = j
    · subst hij
      rw [if_pos rfl] at hd hk
      rw [Tab.connected_id] at hk
      cases hk
      exact hc tab ht (by simpa using hd)
    · rw [if_neg hij] at hd hk hp
      exact ha j tab k ht hd hk hp

theorem agrees_transportUp {s t : System} (hi : Inv s) (h : s.step .transportUp = some t) :
    StatusAgrees t ↔ ConnectsSettled s .transportUp := by
  cases h
  have hb := Browser.sets_transportUp s.browser
  have hset (k) : Settled { s with browser := s.browser.transportUp } k ↔ Settled s k := settled_browser hb.userID k
  rw [agrees_iff]
  simp only [hset]
  constructor
  · intro hat i tab k ht hd hk
    have hl := hi.linked.tabs i tab k ht hd hk
    refine hat i tab.connected k ?_ (by simpa using hd) (by simpa using hk)
      (Tab.connected_process hd hk (hi.spent k (hi.linked.terms k i hl)))
    show s.browser.transportUp.tabs[i]? = _
    rw [hb.tabs, ht, Option.map_some, if_pos (OrdHash.mem_values hl)]
  · intro hc i tab' k hj hd hk hp
    have hj : s.browser.transportUp.tabs[i]? = some tab' := hj
    rw [hb.tabs] at hj
    obtain ⟨tab, ht, rfl⟩ := Option.map_eq_some_iff.1 hj
    split at hd <;> rename_i hh
    · rw [if_pos hh] at hk
      exact hc i tab k ht (by simpa using hd) (by simpa using hk)
    · rw [if_neg hh] at hk
      exact hc i tab k ht hd hk

theorem agrees_step {s t : System} {a : Act} (hi : Inv s) (ha : StatusAgrees s) (h : s.step a = some t) :
    StatusAgrees t ↔ ConnectsSettled s a := by
  have hkeeps (ht : StatusAgrees t) : ConnectsSettled s a → (StatusAgrees t ↔ ConnectsSettled s a) := fun hc =>
    ⟨fun _ => hc, fun _ => ht⟩
  cases a with
  | server a =>
    have hb : Sets s.browser t.browser [] Tab.disconnected := by
      obtain ⟨server, -, rfl⟩ := step_server h
      exact Browser.sets_nil _ _
    exact hkeeps (ha.sets hb fun i tab k _ _ _ hs => .inl (hs.server hi h)) trivial
  | deliver => exact hkeeps (agrees_deliver hi ha h) trivial
  | ready i id => exact agrees_ready hi ha h
  | transportUp => exact agrees_transportUp hi h
  | transportDown =>
    cases h
    have hb := Browser.sets_transportDown s.browser
    exact hkeeps (ha.sets hb fun i tab k _ _ _ hs => .inl ((settled_browser hb.userID k).2 hs)) trivial
  | publishError id =>
    cases h
    obtain ⟨hit, hb⟩ := Browser.sets_publishError id s.browser
    exact hkeeps (ha.sets hb fun i tab k _ _ _ hs => .inl ((settled_browser hb.userID k).2 hs)) trivial
  | createTab =>
    cases h
    refine hkeeps (agrees_iff.2 fun i tab k hj hd hk hp => ?_) trivial
    rcases Browser.createTab_tabs s.browser i with he | ⟨-, he⟩
    · exact agrees_iff.1 ha i tab k (he ▸ hj) hd hk hp
    · cases (he.symm.trans hj); cases hk
  | destroyTab i =>
    have hq := step_quiet h (by simp) (by simp)
    cases h
    refine hkeeps (agrees_iff.2 fun j tab k hj hd hk hp => ?_) trivial
    exact (settled_browser hq.userID k).2 (agrees_iff.1 ha j tab k (Browser.destroyTab_live hj hd).1 hd hk hp)

/-! ## Runs -/

/-- Along a run the status of every tab agrees with the registry exactly when each step that connects
tabs, by `ready` or `transport:up`, meets only terminals that are registered or whose kill message is
still on its way. -/
theorem status_agrees_iff (production : Bool) (userID : String) (as : List Act) :
    Machine.Always step StatusAgrees (init production userID) as ↔
      Machine.Meets step ConnectsSettled (init production userID) as :=
  Machine.always_iff_meets (fun s a t hi h => step_inv hi h) (fun s a t hi ha h => agrees_step hi ha h)
    (init_inv production userID) (by simp [StatusAgrees, init, Browser.init])

/-- The connection of terminal 8 fails, its kill event disconnects the tab, and then the transport
comes up again. -/
theorem connected_without_terminal : ∃ s, Machine.exec step (init false "1")
    [.createTab, .server (.create "1" { objectId := 8 }), .ready 0 8, .server (.ssh 8 (.errback none)), .deliver,
      .transportUp] = some s ∧ ¬ StatusAgrees s := by
  have hrun : ∃ s ∈ Machine.exec step (init false "1") [.createTab, .server (.create "1" { objectId := 8 }),
      .ready 0 8, .server (.ssh 8 (.errback none)), .deliver, .transportUp],
      s.browser.tabs = [⟨some 8, "Connected", false⟩] ∧ s.inbox.isEmpty = true ∧ s.browser.userID = "1" ∧
        (⟨"1", 8⟩ : Ref) ∉ s.server.terms := by decide +kernel
  obtain ⟨s, hs, htabs, hin, hu, hm⟩ := hrun
  refine ⟨s, hs, fun h => hm (hu ▸ h 0 ⟨some 8, "Connected", false⟩ 8 (by rw [htabs]; rfl) rfl rfl ?_ rfl)⟩
  rintro ⟨mail, hmail, -⟩
  rw [List.isEmpty_iff.1 hin] at hmail
  cases hmail

end Tangle.System
