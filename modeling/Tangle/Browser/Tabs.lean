/-
The browser's side: the tabs, `tty.terms` by which a message finds its tab, and the listeners that
set what a tab shows. An entry of `tty.terms` is a tab's index. All that messages, transport events
and publish errors do to tabs is to set the status of some of them, which `Sets` says once.
-/
import Mathlib
import Tangle.Browser.Emit

namespace Tangle

/-- What Faye brings to a subscribed browser: what the server published, or what another client did. -/
inductive Mail
  | published (p : Publication)
  | relayed (m : Message)

def Mail.message : Mail → Message
  | .published p => p.message
  | .relayed m => m

/-! ## Tabs -/

/-- `(text + '').replace(/[&<>]/g, '')`. -/
def sanitize (text : String) : String := String.ofList (text.toList.filter fun c => c ∉ ['&', '<', '>'])

namespace Tab

/-- `if (this.pty)`: `ready` sets `pty` to the id. -/
def pty (tab : Tab) : Bool :=
  match tab.id with
  | none => false
  | some id => id ≠ 0

/-- The property of `tty.terms` that `this.id` names. -/
def key (tab : Tab) : String :=
  match tab.id with
  | none => ""
  | some id => id.repr

def setProcessName (name : String) (tab : Tab) : Tab := { tab with process := sanitize name }

/-- A tab as its constructor leaves it. -/
def connecting : Tab := setProcessName "Connecting ..." ⟨none, "", false⟩

/-- `tab.emit('connected')`; `destroy` removes the listeners. -/
def connected (tab : Tab) : Tab :=
  if tab.destroyed then tab else if tab.pty then tab.setProcessName "Connected" else tab

/-- `tab.emit('disconnected')`. -/
def disconnected (tab : Tab) : Tab := if tab.destroyed then tab else tab.setProcessName "Disconnected"

@[simp] theorem connected_id (tab : Tab) : tab.connected.id = tab.id := by
  unfold connected
  split <;> [rfl; split <;> rfl]

@[simp] theorem connected_destroyed (tab : Tab) : tab.connected.destroyed = tab.destroyed := by
  unfold connected
  split <;> [rfl; split <;> rfl]

@[simp] theorem disconnected_id (tab : Tab) : tab.disconnected.id = tab.id := by unfold disconnected; split <;> rfl

@[simp] theorem disconnected_destroyed (tab : Tab) : tab.disconnected.destroyed = tab.destroyed := by
  unfold disconnected; split <;> rfl

theorem connected_process {tab : Tab} {k : Int} (hd : tab.destroyed = false) (hk : tab.id = some k) (h0 : k ≠ 0) :
    tab.connected.process = "Connected" := by
  have hp : tab.pty = true := by unfold pty; rw [hk]; simpa using h0
  unfold connected
  rw [hd, hp]
  show sanitize "Connected" = "Connected"
  decide

theorem disconnected_process {tab : Tab} (hd : tab.destroyed = false) : tab.disconnected.process ≠ "Connected" := by
  unfold disconnected
  rw [hd]
  show sanitize "Disconnected" ≠ "Connected"
  decide

theorem connected_connected (tab : Tab) : tab.connected.connected = tab.connected := by
  unfold connected
  by_cases hd : tab.destroyed = true
  · simp [hd]
  · by_cases hp : tab.pty = true
    · simp [hd, hp, setProcessName]
    · simp [hd, hp]

theorem disconnected_disconnected (tab : Tab) : tab.disconnected.disconnected = tab.disconnected := by
  unfold disconnected
  by_cases hd : tab.destroyed = true
  · simp [hd]
  · simp [hd, setProcessName]

end Tab

/-! ## The browser -/

/-- A call of `Tab.write`: the tab, what it was given, and the mail that was handled. -/
structure Write where
  tab : Nat
  data : Option Json
  mail : Mail

/-- The page after `tty.open(userID)`; `writes` is what its tabs were written. -/
structure Browser where
  userID : String
  tabs : List Tab
  terms : OrdHash String Nat
  writes : List Write

namespace Browser

def init (userID : String) : Browser := { userID, tabs := [], terms := ∅, writes := [] }

def modifyTab (i : Nat) (f : Tab → Tab) (b : Browser) : Browser := { b with tabs := b.tabs.modify i f }

/-- `new Tab(win, socket)`. -/
def createTab (b : Browser) : Browser := { b with tabs := b.tabs ++ [Tab.connecting] }

/-- `Tab.ready(id)` on tab `i`. -/
def ready (i : Nat) (id : Int) (b : Browser) : Browser :=
  let b := b.modifyTab i fun tab => { tab with id := some id }
  let b := { b with terms := OrdHash.set id.repr i b.terms }
  b.modifyTab i Tab.connected

/-- `$.each(tty.terms, function(_, term) { .. })`. -/
def each (f : Tab → Tab) (b : Browser) : Browser := b.terms.values.foldl (fun b i => b.modifyTab i f) b

def transportUp (b : Browser) : Browser := b.each Tab.connected

def transportDown (b : Browser) : Browser := b.each Tab.disconnected

/-- The property that `msg.id` names; `none` where reading `msg.id` throws. -/
def idKey (m : Message) : Option String :=
  (m.data.property "id").map fun id =>
    match id with
    | none => "undefined"
    | some id => id.propertyKey

/-- `tty.terms[msg.id]`. -/
def term (b : Browser) (m : Message) : Option Nat := (idKey m).bind fun key => b.terms.lookup key

/-- `tty.socket.on('data', ..)`; `write` does nothing on a destroyed tab. -/
def onData (mail : Mail) (b : Browser) : Browser :=
  match b.term mail.message with
  | none => b
  | some i =>
    -- `Terminal.destroy` has replaced `write`
    if (b.tabs[i]?.map Tab.destroyed).getD true then b
    else { b with writes := b.writes ++ [⟨i, (mail.message.data.property "data").join, mail⟩] }

/-- `tty.socket.on('kill', ..)`. -/
def onKill (mail : Mail) (b : Browser) : Browser :=
  match b.term mail.message with
  | none => b
  | some i => b.modifyTab i Tab.disconnected

/-- A message on one of the channels the browser subscribes to. -/
def onMail (mail : Mail) (b : Browser) : Browser :=
  if mail.message.channel = channelName b.userID "data" then b.onData mail
  else if mail.message.channel = channelName b.userID "kill" then b.onKill mail
  else b

/-- The `errback` of a publication that was emitted with this id; it throws where the id has no tab. -/
def publishError (id : Json) (b : Browser) : Browser :=
  match b.terms.lookup id.propertyKey with
  | none => b
  | some i => b.modifyTab i Tab.disconnected

/-- `Tab.destroy` on tab `i`, but for the kill message it emits. -/
def destroyTab (i : Nat) (b : Browser) : Browser :=
  match b.tabs[i]? with
  | none => b
  | some tab =>
    if tab.destroyed then b
    else { b.modifyTab i (fun tab => { tab with destroyed := true }) with terms := b.terms.erase tab.key }

/-! ## What becomes of the tabs -/

theorem getElem?_modifyTab (i j : Nat) (f : Tab → Tab) (b : Browser) :
    (b.modifyTab i f).tabs[j]? = b.tabs[j]?.map fun tab => if i = j then f tab else tab :=
  List.getElem?_modify ..

/-- From `b` to `b'` the listener `f` ran on the tabs `hit`. -/
structure Sets (b b' : Browser) (hit : List Nat) (f : Tab → Tab) : Prop where
  userID : b'.userID = b.userID
  terms : b'.terms = b.terms
  tabs : ∀ j, b'.tabs[j]? = b.tabs[j]?.map fun tab => if j ∈ hit then f tab else tab

theorem sets_nil (b : Browser) (f : Tab → Tab) : Sets b b [] f := ⟨rfl, rfl, fun j => by simp⟩

theorem sets_modifyTab (i : Nat) (f : Tab → Tab) (b : Browser) : Sets b (b.modifyTab i f) [i] f :=
  ⟨rfl, rfl, fun j => by rw [getElem?_modifyTab]; simp [eq_comm]⟩

theorem sets_foldl {f : Tab → Tab} (hf : ∀ tab, f (f tab) = f tab) : ∀ (is : List Nat) (b : Browser),
    Sets b (is.foldl (fun b i => b.modifyTab i f) b) is f ∧ (is.foldl (fun b i => b.modifyTab i f) b).writes = b.writes
  | [], b => ⟨sets_nil b f, rfl⟩
  | i :: is, b => by
    obtain ⟨h, hw⟩ := sets_foldl hf is (b.modifyTab i f)
    refine ⟨⟨h.userID, h.terms, fun j => ?_⟩, hw⟩
    rw [List.foldl_cons, h.tabs, getElem?_modifyTab, Option.map_map]
    congr 1
    funext tab
    by_cases hi : i = j
    · subst hi; simp [hf]
    · simp [hi, Ne.symm hi]

theorem sets_transportUp (b : Browser) : Sets b b.transportUp b.terms.values Tab.connected :=
  (sets_foldl Tab.connected_connected _ b).1

theorem sets_transportDown (b : Browser) : Sets b b.transportDown b.terms.values Tab.disconnected :=
  (sets_foldl Tab.disconnected_disconnected _ b).1

theorem transportUp_writes (b : Browser) : b.transportUp.writes = b.writes :=
  (sets_foldl Tab.connected_connected _ b).2

theorem transportDown_writes (b : Browser) : b.transportDown.writes = b.writes :=
  (sets_foldl Tab.disconnected_disconnected _ b).2

theorem publishError_writes (id : Json) (b : Browser) : (b.publishError id).writes = b.writes := by
  unfold publishError; split <;> rfl

theorem sets_publishError (id : Json) (b : Browser) : ∃ hit, Sets b (b.publishError id) hit Tab.disconnected := by
  unfold publishError
  split
  · exact ⟨[], sets_nil b _⟩
  · exact ⟨_, sets_modifyTab ..⟩

theorem sets_onData (mail : Mail) (b : Browser) : Sets b (b.onData mail) [] Tab.disconnected := by
  unfold onData
  split
  · exact sets_nil b _
  · split
    · exact sets_nil b _
    · exact ⟨rfl, rfl, fun j => by simp⟩

theorem sets_onKill (mail : Mail) (b : Browser) :
    Sets b (b.onKill mail) (b.term mail.message).toList Tab.disconnected := by
  unfold onKill
  split
  · rename_i ht; rw [ht]; exact sets_nil b _
  · rename_i i ht; rw [ht]; exact sets_modifyTab ..

/-- Handling mail disconnects at most the tab that a kill message is for. -/
theorem sets_onMail (mail : Mail) (b : Browser) : ∃ hit, Sets b (b.onMail mail) hit Tab.disconnected ∧
    (mail.message.channel = channelName b.userID "kill" → ∀ i, b.term mail.message = some i → i ∈ hit) := by
  unfold onMail
  split
  · rename_i hc
    exact ⟨[], sets_onData mail b, fun hk =>
      absurd (hc.symm.trans hk) (channelName_ne (by decide) (by decide) (by decide))⟩
  · split
    · exact ⟨_, sets_onKill mail b, fun _ i hi => by rw [hi]; simp⟩
    · rename_i hk
      exact ⟨[], sets_nil b _, fun hc => absurd hc hk⟩

theorem ready_tabs (i : Nat) (id : Int) (b : Browser) (j : Nat) : (b.ready i id).tabs[j]? =
    b.tabs[j]?.map fun tab => if i = j then Tab.connected { tab with id := some id } else tab := by
  unfold ready
  rw [getElem?_modifyTab, getElem?_modifyTab, Option.map_map]
  congr 1
  funext tab
  by_cases hi : i = j <;> simp [hi]

theorem createTab_tabs (b : Browser) (j : Nat) :
    b.createTab.tabs[j]? = b.tabs[j]? ∨ (b.tabs[j]? = none ∧ b.createTab.tabs[j]? = some Tab.connecting) := by
  show (b.tabs ++ [Tab.connecting])[j]? = _ ∨ _
  rcases lt_trichotomy j b.tabs.length with hj | rfl | hj
  · exact .inl (List.getElem?_append_left hj)
  · exact .inr ⟨by simp, List.getElem?_concat_length ..⟩
  · left
    rw [List.getElem?_eq_none (by simp; omega), List.getElem?_eq_none (by omega)]

/-- Destroying a tab that is there and live; there is nothing to do for any other. -/
theorem destroyTab_cases (i : Nat) (b : Browser) : b.destroyTab i = b ∨
    ∃ tab, b.tabs[i]? = some tab ∧ tab.destroyed = false ∧
      b.destroyTab i =
        { b.modifyTab i (fun tab => { tab with destroyed := true }) with terms := b.terms.erase tab.key } := by
  unfold destroyTab
  split
  · exact .inl rfl
  · rename_i tab ht
    split
    · exact .inl rfl
    · rename_i hd
      exact .inr ⟨tab, ht, by simpa using hd, rfl⟩

theorem destroyTab_tabs (i : Nat) (b : Browser) (j : Nat) : (b.destroyTab i).tabs[j]? =
    b.tabs[j]?.map fun tab => if i = j then { tab with destroyed := true } else tab := by
  unfold destroyTab
  split
  · rename_i hi
    by_cases hij : i = j
    · rw [← hij, hi]; rfl
    · simp [hij]
  · rename_i tab hi
    split
    · rename_i hd
      by_cases hij : i = j
      · rw [← hij, hi]
        obtain ⟨id, process, destroyed⟩ := tab
        cases hd; simp
      · simp [hij]
    · exact getElem?_modifyTab ..

/-- A tab that is live after another one was destroyed was there before. -/
theorem destroyTab_live {i j : Nat} {b : Browser} {tab : Tab} (h : (b.destroyTab i).tabs[j]? = some tab)
    (hd : tab.destroyed = false) : b.tabs[j]? = some tab ∧ i ≠ j := by
  rw [destroyTab_tabs] at h
  obtain ⟨u, hu, rfl⟩ := Option.map_eq_some_iff.1 h
  by_cases hij : i = j
  · rw [if_pos hij] at hd; cases hd
  · rw [if_neg hij]; exact ⟨hu, hij⟩

/-! ## Entries of `tty.terms` -/

/-- A live tab is found under its id; an id has an entry, or had one when something was written under
it, only once `ready` was called with it. -/
structure Linked (b : Browser) (spent : List Int) : Prop where
  tabs : ∀ (i : Nat) tab k, b.tabs[i]? = some tab → tab.destroyed = false → tab.id = some k →
    b.terms.lookup k.repr = some i
  terms : ∀ (k : Int) i, b.terms.lookup k.repr = some i → k ∈ spent
  writes : ∀ w ∈ b.writes, ∀ k : Int, idKey w.mail.message = some k.repr → k ∈ spent

/-- The id of a tab that was never ready names no entry. -/
theorem repr_ne_empty (k : Int) : k.repr ≠ "" := by
  rw [Int.repr_eq_if]
  split
  · exact Nat.repr_ne_empty
  · simp

theorem init_linked (userID : String) : Linked (init userID) [] := ⟨by simp [init], by simp [init], by simp [init]⟩

theorem Sets.linked {b b' : Browser} {hit : List Nat} {f : Tab → Tab} {spent : List Int} (h : Sets b b' hit f)
    (hid : ∀ tab, (f tab).id = tab.id) (hd : ∀ tab, (f tab).destroyed = tab.destroyed) (hl : Linked b spent)
    (hw : ∀ w ∈ b'.writes, ∀ k : Int, idKey w.mail.message = some k.repr → k ∈ spent) : Linked b' spent := by
  refine ⟨fun i tab' k hi hlive hk => ?_, fun k i hi => hl.terms k i (h.terms ▸ hi), hw⟩
  rw [h.tabs] at hi
  obtain ⟨tab, ht, rfl⟩ := Option.map_eq_some_iff.1 hi
  rw [h.terms]
  split at hlive <;> rename_i hh
  · rw [if_pos hh] at hk
    exact hl.tabs i tab k ht (by rw [← hd]; exact hlive) (by rw [← hid]; exact hk)
  · rw [if_neg hh] at hk
    exact hl.tabs i tab k ht hlive hk

theorem Linked.transportUp {b : Browser} {spent : List Int} (h : Linked b spent) : Linked b.transportUp spent :=
  (sets_transportUp b).linked Tab.connected_id Tab.connected_destroyed h
    (transportUp_writes b ▸ h.writes)

theorem Linked.transportDown {b : Browser} {spent : List Int} (h : Linked b spent) : Linked b.transportDown spent :=
  (sets_transportDown b).linked Tab.disconnected_id Tab.disconnected_destroyed h
    (transportDown_writes b ▸ h.writes)

theorem Linked.publishError {b : Browser} {spent : List Int} (h : Linked b spent) (id : Json) :
    Linked (b.publishError id) spent := by
  obtain ⟨hit, hs⟩ := sets_publishError id b
  exact hs.linked Tab.disconnected_id Tab.disconnected_destroyed h (publishError_writes id b ▸ h.writes)

/-- What handling mail writes. -/
theorem onMail_writes (mail : Mail) (b : Browser) : (b.onMail mail).writes = b.writes ∨
    ∃ i, b.term mail.message = some i ∧
      (b.onMail mail).writes = b.writes ++ [⟨i, (mail.message.data.property "data").join, mail⟩] := by
  unfold onMail
  split
  · unfold onData
    split
    · exact .inl rfl
    · rename_i i hi
      split
      · exact .inl rfl
      · exact .inr ⟨i, hi, rfl⟩
  · split
    · unfold onKill
      split <;> exact .inl rfl
    · exact .inl rfl

theorem Linked.onMail {b : Browser} {spent : List Int} (h : Linked b spent) (mail : Mail) :
    Linked (b.onMail mail) spent := by
  obtain ⟨hit, hs, -⟩ := sets_onMail mail b
  apply hs.linked Tab.disconnected_id Tab.disconnected_destroyed h
  intro w hw k hk
  rcases onMail_writes mail b with he | ⟨i, hi, he⟩
  · rw [he] at hw; exact h.writes w hw k hk
  · rw [he, List.mem_append, List.mem_singleton] at hw
    rcases hw with hw | rfl
    · exact h.writes w hw k hk
    · refine h.terms k i ?_
      unfold term at hi
      rw [hk] at hi; exact hi

theorem Linked.ready {b : Browser} {spent : List Int} (h : Linked b spent) (i : Nat) {id : Int} (hid : id ∉ spent) :
    Linked (b.ready i id) (id :: spent) := by
  have hterms (k : Int) : (b.ready i id).terms.lookup k.repr = if k = id then some i else b.terms.lookup k.repr := by
    show (OrdHash.set id.repr i b.terms).lookup k.repr = _
    rw [OrdHash.lookup_set]
    simp only [Int.repr_inj]
  refine ⟨fun j tab' k hj hd hk => ?_, fun k j hj => ?_, fun w hw k hk => List.mem_cons_of_mem _ (h.writes w hw k hk)⟩
  · rw [ready_tabs] at hj
    obtain ⟨tab, ht, rfl⟩ := Option.map_eq_some_iff.1 hj
    rw [hterms]
    by_cases hij : i = j
    · rw [if_pos hij, Tab.connected_id] at hk
      cases hk; subst hij
      exact if_pos rfl
    · rw [if_neg hij] at hd hk
      have hl := h.tabs j tab k ht hd hk
      rw [if_neg, hl]
      rintro rfl
      exact hid (h.terms k j hl)
  · rw [hterms] at hj
    split at hj
    · rename_i he; rw [he]; exact List.mem_cons_self ..
    · exact List.mem_cons_of_mem _ (h.terms k j hj)

theorem Linked.createTab {b : Browser} {spent : List Int} (h : Linked b spent) : Linked b.createTab spent := by
  refine ⟨fun j tab k hj hd hk => ?_, h.terms, h.writes⟩
  rcases createTab_tabs b j with he | ⟨-, he⟩
  · exact h.tabs j tab k (he ▸ hj) hd hk
  · rw [he] at hj; cases hj; cases hk

/-- What destroying a live tab deletes is the tab's own entry. -/
theorem Linked.lookup_key {b : Browser} {spent : List Int} (h : Linked b spent) {i : Nat} {tab : Tab} {k : Int}
    (ht : b.tabs[i]? = some tab) (hd : tab.destroyed = false) (hk : tab.key = k.repr) :
    b.terms.lookup k.repr = some i := by
  unfold Tab.key at hk
  split at hk
  · exact absurd hk.symm (repr_ne_empty k)
  · rename_i id hid
    exact h.tabs i tab k ht hd (Int.repr_inj.1 hk ▸ hid)

theorem Linked.destroyTab {b : Browser} {spent : List Int} (h : Linked b spent) (i : Nat) :
    Linked (b.destroyTab i) spent := by
  rcases destroyTab_cases i b with he | ⟨tab, ht, hd, he⟩
  · rw [he]; exact h
  · have hlk (k : Int) : (b.destroyTab i).terms.lookup k.repr =
        if k.repr = tab.key then none else b.terms.lookup k.repr := by
      rw [he]; exact OrdHash.lookup_erase ..
    refine ⟨fun j tab' k hj hd' hk => ?_, fun k j hj => ?_, by rw [he]; exact h.writes⟩
    · obtain ⟨hj, hij⟩ := destroyTab_live hj hd'
      have hl := h.tabs j tab' k hj hd' hk
      rw [hlk, if_neg, hl]
      intro hkey
      rw [h.lookup_key ht hd hkey.symm] at hl
      cases hl; exact hij rfl
    · rw [hlk] at hj
      split at hj
      · cases hj
      · exact h.terms k j hj

end Browser

end Tangle
