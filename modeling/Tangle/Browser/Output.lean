/-
Where the output of a terminal ends up. The data handler drops what it finds no tab for, and a
terminal has no tab before `ready`. What is handled from then on is written to that tab, once and in
order, and nothing of it to another.
-/
import Tangle.Browser.System

namespace Tangle.System

open Browser (Linked)

/-- The chunk of output of terminal `k` that mail from the server carries. -/
def chunk (userID : String) (k : Int) : Mail → Option String
  | .published (.data owner id d) => if owner = userID ∧ id = k then some d else none
  | _ => none

/-- The chunks of output of terminal `k`, in order. -/
def chunks (userID : String) (k : Int) (mails : List Mail) : List String := mails.filterMap (chunk userID k)

/-- The writes to tab `i` that came from output of terminal `k`. -/
def isOutput (userID : String) (k : Int) (i : Nat) (w : Write) : Bool := w.tab = i ∧ (chunk userID k w.mail).isSome

/-- What tab `i` was written of the output of terminal `k`, in order. -/
def shown (userID : String) (k : Int) (i : Nat) (writes : List Write) : List (Option Json) :=
  (writes.filter (isOutput userID k i)).map Write.data

/-- Everything the server published for terminal `k`. -/
def output (s : System) (k : Int) : List String :=
  chunks s.browser.userID k (s.server.published.map Mail.published)

theorem chunks_append (userID : String) (k : Int) (l l' : List Mail) :
    chunks userID k (l ++ l') = chunks userID k l ++ chunks userID k l' := List.filterMap_append

theorem chunk_eq_some {userID : String} {k : Int} {mail : Mail} {d : String} :
    chunk userID k mail = some d ↔ mail = .published (.data userID k d) := by
  constructor
  · intro h
    unfold chunk at h
    split at h
    · split at h
      · rename_i hok; obtain ⟨rfl, rfl⟩ := hok; cases h; rfl
      · cases h
    · cases h
  · rintro rfl; simp [chunk]

theorem idKey_of_chunk {userID : String} {k : Int} {mail : Mail} (h : (chunk userID k mail).isSome = true) :
    Browser.idKey mail.message = some k.repr := by
  obtain ⟨d, hd⟩ := Option.isSome_iff_exists.1 h
  rw [chunk_eq_some.1 hd]; rfl

/-! ## Nothing is lost on the way -/

/-- What was published was handled or is on its way. -/
def Conserved (s : System) : Prop :=
  ∀ k, output s k = chunks s.browser.userID k s.handled ++ chunks s.browser.userID k s.inbox

theorem chunks_subscribed (userID : String) (k : Int) (mails : List Mail) :
    chunks userID k (mails.filter (subscribed userID)) = chunks userID k mails := by
  unfold chunks
  rw [List.filterMap_filter]
  refine List.filterMap_congr fun mail _ => ?_
  split
  · rfl
  · rename_i hs
    cases hc : chunk userID k mail with
    | none => rfl
    | some d =>
      rw [chunk_eq_some.1 hc] at hs
      exact absurd (by simp [subscribed, Mail.message, Publication.message]) hs

theorem chunks_relayed (userID : String) (k : Int) (s : Reactor) (a : Tangle.Act) :
    chunks userID k (relayed s a) = [] := by
  unfold relayed
  split
  · simp only
    split <;> rfl
  · rfl

theorem conserved_server {s t : System} {a : Tangle.Act} (hi : Inv s) (hc : Conserved s)
    (h : s.step (.server a) = some t) : Conserved t := by
  intro k
  obtain ⟨server, hst, rfl⟩ := step_server h
  obtain ⟨new, hpub, -⟩ := (Reactor.stepped hi.server hst).published
  have ha : chunks s.browser.userID k (arrivals s.browser.userID s.server a server) =
      chunks s.browser.userID k (new.map Mail.published) := by
    unfold arrivals
    rw [hpub, List.drop_left, chunks_subscribed, chunks_append, chunks_relayed, List.append_nil]
  unfold output
  rw [hpub, List.map_append, chunks_append, chunks_append, ha, ← List.append_assoc, ← hc k]
  rfl

theorem conserved_deliver {s t : System} (hc : Conserved s) (h : s.step .deliver = some t) : Conserved t := by
  intro k
  obtain ⟨mail, inbox, hin, rfl⟩ := step_deliver h
  obtain ⟨hit, hb, -⟩ := Browser.sets_onMail mail s.browser
  have hk := hc k
  rw [hin, ← List.singleton_append, chunks_append, ← List.append_assoc, ← chunks_append] at hk
  unfold output at hk ⊢
  rw [hb.userID]
  exact hk

theorem conserved_step {s t : System} {a : Act} (hi : Inv s) (hc : Conserved s) (h : s.step a = some t) :
    Conserved t := by
  by_cases hserver : ∃ x, a = .server x
  · obtain ⟨x, rfl⟩ := hserver
    exact conserved_server hi hc h
  · by_cases hdeliver : a = .deliver
    · subst hdeliver
      exact conserved_deliver hc h
    · have hq := step_quiet h (fun x hx => hserver ⟨x, hx⟩) hdeliver
      intro k
      unfold output
      rw [hq.server, hq.inbox, hq.handled, hq.userID]
      exact hc k

/-! ## What a tab is written -/

/-- The value that `write` is called with for a chunk. -/
def text (d : String) : Option Json := some (.str d)

theorem shown_append (userID : String) (k : Int) (i : Nat) (writes : List Write) (w : Write) :
    shown userID k i (writes ++ [w]) = shown userID k i writes ++ if isOutput userID k i w then [w.data] else [] := by
  unfold shown
  rw [List.filter_append, List.map_append]
  by_cases h : isOutput userID k i w = true <;> simp [h]

theorem shown_of_unspent {b : Browser} {spent : List Int} (hl : Linked b spent) {k : Int} (hk : k ∉ spent)
    (userID : String) (i : Nat) : shown userID k i b.writes = [] := by
  unfold shown
  rw [List.map_eq_nil_iff, List.filter_eq_nil_iff]
  intro w hw ho
  simp only [isOutput, decide_eq_true_eq] at ho
  exact hk (hl.writes w hw k (idKey_of_chunk ho.2))

/-- Terminal `k` has tab `i`, which was written what was handled of its output after `before`. -/
structure Holds (s : System) (k : Int) (i : Nat) (before : List String) : Prop where
  spent : k ∈ s.spent
  entry : ∀ j, s.browser.terms.lookup k.repr = some j → j = i
  tab : ∃ tab, s.browser.tabs[i]? = some tab ∧ (tab.destroyed = false → s.browser.terms.lookup k.repr = some i ∧
    (chunks s.browser.userID k s.handled).map text = before.map text ++ shown s.browser.userID k i s.browser.writes)
  others : ∀ j, j ≠ i → shown s.browser.userID k j s.browser.writes = []

/-- `ready` gives the terminal its tab. -/
theorem holds_ready {s t : System} {i : Nat} {k : Int} (hi : Inv s) (h : s.step (.ready i k) = some t) :
    Holds t k i (chunks s.browser.userID k s.handled) := by
  obtain ⟨⟨-, hsp, hlt⟩, rfl⟩ := step_ready h
  have hlk : (s.browser.ready i k).terms.lookup k.repr = some i := OrdHash.lookup_set_self ..
  have hshown (j) : shown s.browser.userID k j s.browser.writes = [] := shown_of_unspent hi.linked hsp _ j
  refine ⟨List.mem_cons_self .., fun j hj => ?_, ?_, fun j _ => hshown j⟩
  · rw [hlk] at hj; cases hj; rfl
  · refine ⟨_, (Browser.ready_tabs i k s.browser i).trans (by rw [List.getElem?_eq_getElem hlt]; rfl),
      fun _ => ⟨hlk, ?_⟩⟩
    show _ = _ ++ shown s.browser.userID k i s.browser.writes
    rw [hshown, List.append_nil]
    rfl

/-- A step that leaves mail, writes, the entry of the terminal and whether its tab is live. -/
theorem Holds.quiet {s t : System} {k : Int} {i : Nat} {before : List String} (h : Holds s k i before) (hq : Quiet s t)
    (hspent : k ∈ t.spent) (hlk : t.browser.terms.lookup k.repr = s.browser.terms.lookup k.repr)
    (htab : ∀ tab, s.browser.tabs[i]? = some tab →
      ∃ tab', t.browser.tabs[i]? = some tab' ∧ tab'.destroyed = tab.destroyed) : Holds t k i before := by
  refine ⟨hspent, fun j hj => h.entry j (hlk ▸ hj), ?_, fun j hj => ?_⟩
  · obtain ⟨tab, ht, himp⟩ := h.tab
    obtain ⟨tab', ht', hd⟩ := htab tab ht
    refine ⟨tab', ht', fun hlive => ?_⟩
    rw [hlk, hq.userID, hq.handled, hq.writes]
    exact himp (hd ▸ hlive)
  · rw [hq.userID, hq.writes]
    exact h.others j hj

theorem Holds.sets {s t : System} {k : Int} {i : Nat} {before : List String} {hit : List Nat} {f : Tab → Tab}
    (h : Holds s k i before) (hq : Quiet s t) (hspent : t.spent = s.spent)
    (hb : Browser.Sets s.browser t.browser hit f) (hf : ∀ tab, (f tab).destroyed = tab.destroyed) :
    Holds t k i before := by
  apply h.quiet hq (hspent ▸ h.spent) (by rw [hb.terms])
  intro tab ht
  refine ⟨if i ∈ hit then f tab else tab, by rw [hb.tabs, ht]; rfl, ?_⟩
  split
  · exact hf tab
  · rfl

/-- Handling a chunk of a terminal that has a live tab writes it there. -/
theorem onMail_chunk {b : Browser} {k : Int} {i : Nat} {tab : Tab} (d : String)
    (hlk : b.terms.lookup k.repr = some i) (ht : b.tabs[i]? = some tab) (hd : tab.destroyed = false) :
    (b.onMail (.published (.data b.userID k d))).writes =
      b.writes ++ [⟨i, text d, .published (.data b.userID k d)⟩] := by
  have hterm : b.term (Mail.published (.data b.userID k d)).message = some i := hlk
  have hc : (Mail.published (.data b.userID k d)).message.channel = channelName b.userID "data" := rfl
  unfold Browser.onMail
  rw [if_pos hc]
  unfold Browser.onData
  rw [hterm]
  simp only [ht, Option.map_some, hd]
  rfl

theorem holds_deliver {s t : System} {k : Int} {i : Nat} {before : List String} (h : Holds s k i before)
    (hst : s.step .deliver = some t) : Holds t k i before := by
  obtain ⟨mail, inbox, -, rfl⟩ := step_deliver hst
  obtain ⟨hit, hb, -⟩ := Browser.sets_onMail mail s.browser
  have hothers (j) (hj : j ≠ i) : shown s.browser.userID k j (s.browser.onMail mail).writes = [] := by
    rcases Browser.onMail_writes mail s.browser with he | ⟨j', hj', he⟩
    · rw [he]; exact h.others j hj
    · rw [he, shown_append, h.others j hj, if_neg, List.append_nil]
      simp only [isOutput, decide_eq_true_eq]
      rintro ⟨rfl, hc⟩
      -- the only tab the handler finds is `i`
      refine hj (h.entry _ ?_)
      unfold Browser.term at hj'
      rw [idKey_of_chunk hc] at hj'
      exact hj'
  refine ⟨h.spent, fun j hj => h.entry j (hb.terms ▸ hj), ?_, fun j hj => hb.userID ▸ hothers j hj⟩
  obtain ⟨tab, ht, himp⟩ := h.tab
  have ht' : (s.browser.onMail mail).tabs[i]? = some (if i ∈ hit then tab.disconnected else tab) := by
    rw [hb.tabs, ht]; rfl
  refine ⟨_, ht', fun hlive => ?_⟩
  have hlive : tab.destroyed = false := by
    split at hlive
    · rwa [Tab.disconnected_destroyed] at hlive
    · exact hlive
  obtain ⟨hlk, heq⟩ := himp hlive
  refine ⟨hb.terms ▸ hlk, ?_⟩
  show (chunks (s.browser.onMail mail).userID k (s.handled ++ [mail])).map text =
    before.map text ++ shown (s.browser.onMail mail).userID k i (s.browser.onMail mail).writes
  rw [hb.userID, chunks_append, List.map_append, heq, List.append_assoc]
  congr 1
  cases hc : chunk s.browser.userID k mail with
  | some d =>
    rw [chunk_eq_some.1 hc, onMail_chunk d hlk ht hlive, shown_append]
    simp [chunks, isOutput, chunk]
  | none =>
    have hnil : chunks s.browser.userID k [mail] = [] := by simp [chunks, hc]
    rw [hnil, List.map_nil, List.append_nil]
    rcases Browser.onMail_writes mail s.browser with he | ⟨j', -, he⟩
    · rw [he]
    · rw [he, shown_append, if_neg (by simp [isOutput, hc]), List.append_nil]

theorem holds_destroyTab {s t : System} {k : Int} {i j : Nat} {before : List String} (hi : Inv s)
    (h : Holds s k i before) (hst : s.step (.destroyTab j) = some t) : Holds t k i before := by
  have hq := step_quiet hst (by simp) (by simp)
  cases hst
  rcases Browser.destroyTab_cases j s.browser with he | ⟨u, hu, hlive, he⟩
  · rw [he]; exact h
  · have hlk : (s.browser.destroyTab j).terms.lookup k.repr =
        if k.repr = u.key then none else s.browser.terms.lookup k.repr := by
      rw [he]; exact OrdHash.lookup_erase ..
    -- its own tab, whose entry goes with it, or another one
    by_cases hij : j = i
    · subst hij
      refine ⟨h.spent, fun l hl => ?_, ⟨{ u with destroyed := true }, ?_, nofun⟩, fun l hl => ?_⟩
      · have hl : (s.browser.destroyTab j).terms.lookup k.repr = some l := hl
        rw [hlk] at hl
        split at hl
        · cases hl
        · exact h.entry l hl
      · exact (Browser.destroyTab_tabs ..).trans (by rw [hu]; simp)
      · rw [hq.userID, hq.writes]
        exact h.others l hl
    · refine h.quiet hq h.spent (hlk.trans (if_neg fun hkey => hij ?_)) fun tab ht =>
        ⟨tab, (Browser.destroyTab_tabs ..).trans (by rw [ht]; simp [hij]), rfl⟩
      exact h.entry j (hi.linked.lookup_key hu hlive hkey.symm)

theorem holds_step {s t : System} {k : Int} {i : Nat} {before : List String} {a : Act} (hi : Inv s)
    (h : Holds s k i before) (hst : s.step a = some t) : Holds t k i before := by
  cases a with
  | server a =>
    obtain ⟨server, -, rfl⟩ := step_server hst
    exact ⟨h.spent, h.entry, h.tab, h.others⟩
  | deliver => exact holds_deliver h hst
  | ready j id =>
    have hq := step_quiet hst (by simp) (by simp)
    obtain ⟨⟨-, hsp, -⟩, rfl⟩ := step_ready hst
    have hne : k.repr ≠ id.repr := fun he => hsp (Int.repr_inj.1 he ▸ h.spent)
    apply h.quiet hq (List.mem_cons_of_mem _ h.spent) (OrdHash.lookup_set_ne j _ hne)
    intro tab ht
    refine ⟨_, (Browser.ready_tabs j id s.browser i).trans (by rw [ht]; rfl), ?_⟩
    split <;> simp
  | transportUp =>
    have hq := step_quiet hst (by simp) (by simp)
    cases hst
    exact h.sets hq rfl (Browser.sets_transportUp s.browser) Tab.connected_destroyed
  | transportDown =>
    have hq := step_quiet hst (by simp) (by simp)
    cases hst
    exact h.sets hq rfl (Browser.sets_transportDown s.browser) Tab.disconnected_destroyed
  | publishError id =>
    have hq := step_quiet hst (by simp) (by simp)
    cases hst
    obtain ⟨hit, hb⟩ := Browser.sets_publishError id s.browser
    exact h.sets hq rfl hb Tab.disconnected_destroyed
  | createTab =>
    have hq := step_quiet hst (by simp) (by simp)
    cases hst
    apply h.quiet hq h.spent rfl
    intro tab ht
    rcases Browser.createTab_tabs s.browser i with he | ⟨he, -⟩
    · exact ⟨tab, he.trans ht, rfl⟩
    · rw [ht] at he; cases he
  | destroyTab j => exact holds_destroyTab hi h hst

/-! ## Runs -/

theorem init_conserved (production : Bool) (userID : String) : Conserved (init production userID) := fun _ => rfl

theorem exec_conserved {as : List Act} {s t : System} (hi : Inv s) (hc : Conserved s)
    (h : Machine.exec step s as = some t) : Inv t ∧ Conserved t :=
  Machine.exec_inv (I := fun s => Inv s ∧ Conserved s)
    (fun _ _ _ ⟨hi, hc⟩ hst => ⟨step_inv hi hst, conserved_step hi hc hst⟩) ⟨hi, hc⟩ h

theorem exec_holds {as : List Act} {s t : System} {k : Int} {i : Nat} {before : List String} (hi : Inv s)
    (hh : Holds s k i before) (h : Machine.exec step s as = some t) : Inv t ∧ Holds t k i before :=
  Machine.exec_inv (I := fun s => Inv s ∧ Holds s k i before)
    (fun _ _ _ ⟨hi, hh⟩ hst => ⟨step_inv hi hst, holds_step hi hh hst⟩) ⟨hi, hh⟩ h

/-- All output of terminal `k` but what comes first in `missed` was written to tab `i`, once and in
order, or is on its way to the browser, and none of it was written to another tab. -/
def Shows (s : System) (k : Int) (i : Nat) (missed : List String) : Prop :=
  (output s k).map text = missed.map text ++ shown s.browser.userID k i s.browser.writes ++
      (chunks s.browser.userID k s.inbox).map text ∧
    ∀ j, j ≠ i → shown s.browser.userID k j s.browser.writes = []

/-- The tab that `ready` gives a terminal is written its output, once and in order, from the first
chunk on that is handled after the call; what was handled before is written to no tab. -/
theorem output_shown {production : Bool} {userID : String} {as bs : List Act} {s t u : System} {i : Nat} {k : Int}
    {tab : Tab} (has : Machine.exec step (init production userID) as = some s) (hready : s.step (.ready i k) = some t)
    (hbs : Machine.exec step t bs = some u) (htab : u.browser.tabs[i]? = some tab) (hlive : tab.destroyed = false) :
    Shows u k i (chunks s.browser.userID k s.handled) := by
  obtain ⟨hi, hc⟩ := exec_conserved (init_inv production userID) (init_conserved production userID) has
  have hit := step_inv hi hready
  obtain ⟨-, hcu⟩ := exec_conserved hit (conserved_step hi hc hready) hbs
  obtain ⟨-, hh⟩ := exec_holds hit (holds_ready hi hready) hbs
  refine ⟨?_, hh.others⟩
  obtain ⟨tab', htab', himp⟩ := hh.tab
  rw [htab] at htab'; cases htab'
  rw [hcu k, List.map_append, (himp hlive).2]

/-- A chunk before `ready` and one after it. -/
theorem output_shown_late : ∃ s t u, Machine.exec step (init false "1")
      [.createTab, .server (.create "1" { objectId := 8 }), .server (.ssh 8 .callback),
        .server (.ssh 8 (.channelOpen true)), .server (.ssh 8 (.data "login: ")), .deliver] = some s ∧
    s.step (.ready 0 8) = some t ∧ Machine.exec step t [.server (.ssh 8 (.data "$ ")), .deliver] = some u ∧
    Shows u 8 0 (chunks s.browser.userID 8 s.handled) := by
  have hrun : ∃ s ∈ Machine.exec step (init false "1")
        [.createTab, .server (.create "1" { objectId := 8 }), .server (.ssh 8 .callback),
          .server (.ssh 8 (.channelOpen true)), .server (.ssh 8 (.data "login: ")), .deliver],
      ∃ t ∈ s.step (.ready 0 8), ∃ u ∈ Machine.exec step t [.server (.ssh 8 (.data "$ ")), .deliver],
        u.browser.tabs = [⟨some 8, "Connected", false⟩] := by decide +kernel
  obtain ⟨s, hs, t, ht, u, hu, htabs⟩ := hrun
  exact ⟨s, t, u, hs, ht, hu, output_shown hs ht hu (by rw [htabs]; rfl) rfl⟩

/-- The browser handles the first chunk before the page calls `ready`. -/
theorem login_not_shown : ∃ s, Machine.exec step (init false "1")
      [.createTab, .server (.create "1" { objectId := 8 }), .server (.ssh 8 .callback),
        .server (.ssh 8 (.channelOpen true)), .server (.ssh 8 (.data "login: ")), .deliver, .ready 0 8] = some s ∧
    s.browser.tabs = [⟨some 8, "Connected", false⟩] ∧ ¬ Shows s 8 0 [] := by
  have hrun : ∃ s ∈ Machine.exec step (init false "1")
      [.createTab, .server (.create "1" { objectId := 8 }), .server (.ssh 8 .callback),
        .server (.ssh 8 (.channelOpen true)), .server (.ssh 8 (.data "login: ")), .deliver, .ready 0 8],
      s.browser.tabs = [⟨some 8, "Connected", false⟩] ∧ output s 8 = ["login: "] ∧ s.browser.writes.isEmpty = true ∧
        s.inbox.isEmpty = true := by decide +kernel
  obtain ⟨s, hs, htabs, hout, hw, hin⟩ := hrun
  refine ⟨s, hs, htabs, fun h => ?_⟩
  have heq := h.1
  rw [hout, List.isEmpty_iff.1 hw, List.isEmpty_iff.1 hin] at heq
  simp [shown, chunks] at heq

end Tangle.System
