/-
Publications that fail. The `errback` of `tty.socket.emit` runs at any later time and looks the tab up
in `tty.terms` by the id it was emitted with; it throws where there is no entry. The entry is there
for input and resize from a tab that was ready, as long as neither the tab is destroyed nor its id is
given to another one; a kill passes an object instead of the id and is never found.
-/
import Tangle.Browser.Tabs

namespace Tangle

/-- The property name a value is converted to in `obj[value]`; no function is ever used so. -/
def Js.propertyKey (v : Js) : String := (v.toJson.map Json.propertyKey).getD "undefined"

namespace Tab

/-- The arguments `emit` gets after the event: of an input, -/
def inputArguments (tab : Tab) (data : String) : List Js := [tab.idValue, .str data]

/-- of a resize, -/
def resizeArguments (tab : Tab) (cols rows : Int) : List Js := [tab.idValue, .num cols, .num rows]

/-- and of a kill. -/
def destroyArguments (tab : Tab) : List Js := [.obj [("id", tab.idValue)]]

theorem handler_eq (userID : String) (n : Nat) (tab : Tab) (data : String) :
    tab.handler userID n data = (emit userID n "input" (tab.inputArguments data)).1 := rfl

theorem resize_eq (userID : String) (n : Nat) (tab : Tab) (cols rows : Int) :
    tab.resize userID n cols rows = (emit userID n "resize" (tab.resizeArguments cols rows)).1 := rfl

theorem destroy_eq (userID : String) (n : Nat) (tab : Tab) :
    tab.destroy userID n = (emit userID n "kill" tab.destroyArguments).1 := rfl

end Tab

namespace Browser

/-- The tab on which the `errback` emits `'disconnected'`. -/
def errbackTab (arguments : List Js) (b : Browser) : Except Exn Nat :=
  match b.terms.lookup (arguments.headD .undefined).propertyKey with
  | some i => .ok i
  | none => .error .typeError

def errback (arguments : List Js) (b : Browser) : Except Exn Browser := do
  let i ← b.errbackTab arguments
  return b.modifyTab i Tab.disconnected

/-- Where the exception is dropped, this is what a publish error does. -/
theorem publishError_eq {v : Js} {id : Json} (h : v.toJson = some id) (args : List Js) (b : Browser) :
    b.publishError id = match b.errback (v :: args) with
      | .ok b' => b'
      | .error _ => b := by
  unfold publishError errback errbackTab Js.propertyKey
  rw [List.headD_cons, h]
  simp only [Option.map_some, Option.getD_some]
  cases b.terms.lookup id.propertyKey <;> rfl

/-- The tab is there and not destroyed. -/
def Live (b : Browser) (i : Nat) : Prop := ∃ tab, b.tabs[i]? = some tab ∧ tab.destroyed = false

end Browser

/-! ## Pages with publications under way -/

/-- A call of `tty.socket.emit`, by which tab and with which arguments. -/
structure Publish where
  tab : Nat
  arguments : List Js

/-- The browser with everything it has published; any of it may still fail. -/
structure Page where
  browser : Browser
  publishes : List Publish

namespace Page

open Browser (Live)

def init (userID : String) : Page := { browser := .init userID, publishes := [] }

inductive Act
  | create
  | ready (i : Nat) (id : Int)
  | input (i : Nat) (data : String)
  | resize (i : Nat) (cols rows : Int)
  | destroy (i : Nat)
deriving DecidableEq

def emits (i : Nat) (arguments : List Js) (s : Page) : Page := { s with publishes := s.publishes ++ [⟨i, arguments⟩] }

def step (s : Page) : Act → Option Page
  | .create => some { s with browser := s.browser.createTab }
  | .ready i id => if i < s.browser.tabs.length then some { s with browser := s.browser.ready i id } else none
  -- `Terminal.destroy` has replaced `handler`
  | .input i data => s.browser.tabs[i]?.map fun tab => if tab.destroyed then s else s.emits i (tab.inputArguments data)
  | .resize i cols rows => s.browser.tabs[i]?.map fun tab => s.emits i (tab.resizeArguments cols rows)
  | .destroy i => s.browser.tabs[i]?.map fun tab =>
    if tab.destroyed then s else { s.emits i tab.destroyArguments with browser := s.browser.destroyTab i }

/-- The `errback` completes, and of the live tabs it emits `'disconnected'` on the one that published,
and on no other. -/
def Handled (s : Page) (p : Publish) : Prop :=
  ∃ j, s.browser.errbackTab p.arguments = .ok j ∧ ∀ i, Live s.browser i → (i = j ↔ i = p.tab)

/-! ## What was done to the tabs -/

/-- The id that the tab was last made ready with. -/
def givenId (as : List Act) (i : Nat) : Option Int :=
  as.foldl (fun id a => match a with | .ready j k => if j = i then some k else id | _ => id) none

/-- The act gives the id to no tab, and destroys none that has it. -/
def Leaves (k : Int) (as : List Act) : Act → Prop
  | .ready _ id => id ≠ k
  | .destroy i => givenId as i = some k → .destroy i ∈ as
  | _ => True

/-- The tab was made ready with the id, and since then no tab was, and none that had the id was destroyed. -/
def Holds (as : List Act) (k : Int) (j : Nat) : Prop :=
  ∃ u v, as = u ++ .ready j k :: v ∧ ∀ v₁ a v₂, v = v₁ ++ a :: v₂ → Leaves k (u ++ .ready j k :: v₁) a

/-- The tab whose id the act passes to `emit`: that of an input or a resize. -/
def Act.sender : Act → Option Nat
  | .input i _ | .resize i _ _ => some i
  | _ => none

/-- What was published is an input or a resize of a tab that had been made ready; and of what was done before and
after, the id was last given to this tab, and neither given nor taken since, or so to another tab and both tabs were
destroyed. -/
def Kept (before : List Act) (a : Act) (after : List Act) : Prop :=
  ∃ i k j, a.sender = some i ∧ givenId before i = some k ∧ Holds (before ++ a :: after) k j ∧
    (j = i ∨ (.destroy i ∈ before ++ a :: after ∧ .destroy j ∈ before ++ a :: after))

theorem givenId_concat (as : List Act) (a : Act) (i : Nat) : givenId (as ++ [a]) i =
    match a with | .ready j k => if j = i then some k else givenId as i | _ => givenId as i := by
  unfold givenId
  rw [List.foldl_concat]

theorem holds_concat {as : List Act} {a : Act} {k : Int} {j : Nat} :
    Holds (as ++ [a]) k j ↔ a = .ready j k ∨ (Holds as k j ∧ Leaves k as a) := by
  constructor
  · rintro ⟨u, v, heq, hleaves⟩
    obtain rfl | ⟨v', b, rfl⟩ := List.eq_nil_or_concat' v
    · obtain ⟨-, ha⟩ := List.append_inj' heq rfl
      exact .inl (List.singleton_inj.1 ha)
    · rw [← List.cons_append, ← List.append_assoc] at heq
      obtain ⟨rfl, ha⟩ := List.append_inj' heq rfl
      cases List.singleton_inj.1 ha
      refine .inr ⟨⟨u, v', rfl, fun v₁ x v₂ hv => ?_⟩, hleaves v' a [] rfl⟩
      exact hleaves v₁ x (v₂ ++ [a]) (by rw [hv, List.append_assoc]; rfl)
  · rintro (rfl | ⟨⟨u, v, rfl, hleaves⟩, ha⟩)
    · exact ⟨as, [], rfl, fun v₁ x v₂ hv => absurd hv.symm (by simp)⟩
    · refine ⟨u, v ++ [a], by rw [List.append_assoc]; rfl, fun v₁ x v₂ hv => ?_⟩
      obtain rfl | ⟨v₂', b, rfl⟩ := List.eq_nil_or_concat' v₂
      · obtain ⟨rfl, hx⟩ := List.append_inj' hv rfl
        cases List.singleton_inj.1 hx
        exact ha
      · rw [← List.cons_append, ← List.append_assoc] at hv
        exact hleaves v₁ x v₂' (List.append_inj' hv rfl).1

/-- The page is what was done to it. -/
structure Record (as : List Act) (s : Page) : Prop where
  ids : ∀ i tab, s.browser.tabs[i]? = some tab → tab.id = givenId as i
  destroyed : ∀ i tab, s.browser.tabs[i]? = some tab → (tab.destroyed = true ↔ .destroy i ∈ as)
  unmade : ∀ i, s.browser.tabs[i]? = none → givenId as i = none ∧ .destroy i ∉ as
  terms : ∀ k j, s.browser.terms.lookup (Int.repr k) = some j ↔ Holds as k j
  keys : ∀ key j, s.browser.terms.lookup key = some j → ∃ k : Int, key = k.repr
  made : ∀ i k, .ready i k ∈ as → ∃ tab, s.browser.tabs[i]? = some tab

theorem Holds.mem {as : List Act} {k : Int} {j : Nat} (h : Holds as k j) : .ready j k ∈ as := by
  obtain ⟨u, v, rfl, -⟩ := h
  simp

theorem mem_of_givenId {as : List Act} {i : Nat} {k : Int} (h : givenId as i = some k) : .ready i k ∈ as := by
  induction as using List.reverseRecOn with
  | nil => cases h
  | append_singleton as a ih =>
    have hbefore : givenId as i = some k → .ready i k ∈ as ++ [a] := fun h => List.mem_append_left _ (ih h)
    rw [givenId_concat] at h
    split at h
    · rename_i j id
      split at h
      · rename_i hij
        cases h
        rw [hij]
        exact List.mem_append_right _ (List.mem_singleton.2 rfl)
      · exact hbefore h
    · exact hbefore h

theorem not_holds_nil (k : Int) (j : Nat) : ¬ Holds [] k j := by
  rintro ⟨u, v, h, -⟩
  simp at h

theorem init_record (userID : String) : Record [] (init userID) where
  ids i tab h := by simp [init, Browser.init] at h
  destroyed i tab h := by simp [init, Browser.init] at h
  unmade i _ := ⟨rfl, List.not_mem_nil⟩
  terms k j := iff_of_false (by simp [init, Browser.init]) (not_holds_nil k j)
  keys key j h := by simp [init, Browser.init] at h
  made i k h := absurd h List.not_mem_nil

/-- Acts that neither make nor change a tab. -/
theorem Record.publish {as : List Act} {s s' : Page} {a : Act} (h : Record as s) (hb : s'.browser = s.browser)
    (ha : ∀ i id, a ≠ .ready i id) (hd : ∀ i, a ≠ .destroy i) : Record (as ++ [a]) s' := by
  have hid : ∀ i, givenId (as ++ [a]) i = givenId as i := fun i => by
    rw [givenId_concat]
    cases a with
    | ready j k => exact absurd rfl (ha j k)
    | create | input | resize | destroy => rfl
  have hmem : ∀ i, .destroy i ∈ as ++ [a] ↔ .destroy i ∈ as := fun i => by simp [(hd i).symm]
  have hholds : ∀ k j, Holds (as ++ [a]) k j ↔ Holds as k j := fun k j => by
    have hl : Leaves k as a := by
      cases a with
      | ready j k => exact absurd rfl (ha j k)
      | destroy i => exact absurd rfl (hd i)
      | create | input | resize => trivial
    rw [holds_concat]
    exact ⟨fun hor => hor.elim (fun he => absurd he (ha j k)) And.left, fun hh => .inr ⟨hh, hl⟩⟩
  constructor
  · intro i tab ht
    rw [hid]
    exact h.ids i tab (hb ▸ ht)
  · intro i tab ht
    rw [hmem]
    exact h.destroyed i tab (hb ▸ ht)
  · intro i ht
    rw [hid, hmem]
    exact h.unmade i (hb ▸ ht)
  · intro k j
    rw [hb, hholds]
    exact h.terms k j
  · rw [hb]
    exact h.keys
  · intro i k hmem
    rw [hb]
    exact h.made i k (by simpa [(ha i k).symm] using hmem)

theorem Record.create {as : List Act} {s : Page} (h : Record as s) :
    Record (as ++ [.create]) { s with browser := s.browser.createTab } := by
  have hp : Record (as ++ [.create]) s := h.publish rfl nofun nofun
  have hnew : ∀ (i : Nat) (tab : Tab), s.browser.createTab.tabs[i]? = some tab →
      s.browser.tabs[i]? = some tab ∨ (s.browser.tabs[i]? = none ∧ tab = Tab.connecting) := by
    intro i tab ht
    rcases s.browser.createTab_tabs i with he | ⟨hnone, he⟩
    · exact .inl (he.symm.trans ht)
    · exact .inr ⟨hnone, Option.some.inj (ht.symm.trans he)⟩
  constructor
  · intro i tab ht
    rcases hnew i tab ht with ht | ⟨hnone, rfl⟩
    · exact hp.ids i tab ht
    · exact (hp.unmade i hnone).1.symm
  · intro i tab ht
    rcases hnew i tab ht with ht | ⟨hnone, rfl⟩
    · exact hp.destroyed i tab ht
    · exact iff_of_false (by simp [Tab.connecting, Tab.setProcessName]) (hp.unmade i hnone).2
  · intro i ht
    refine hp.unmade i ?_
    rcases s.browser.createTab_tabs i with he | ⟨hnone, -⟩
    · exact he.symm.trans ht
    · exact hnone
  · exact hp.terms
  · exact hp.keys
  · intro i k hmem
    obtain ⟨tab, ht⟩ := hp.made i k hmem
    rcases s.browser.createTab_tabs i with he | ⟨hnone, -⟩
    · exact ⟨tab, he.trans ht⟩
    · rw [hnone] at ht
      cases ht

theorem Record.ready {as : List Act} {s : Page} (h : Record as s) {i : Nat} (hi : i < s.browser.tabs.length) (id : Int) :
    Record (as ++ [.ready i id]) { s with browser := s.browser.ready i id } := by
  have hmem : ∀ j, .destroy j ∈ as ++ [.ready i id] ↔ .destroy j ∈ as := fun j => by simp
  have htabs : ∀ j tab', (s.browser.ready i id).tabs[j]? = some tab' → ∃ tab, s.browser.tabs[j]? = some tab ∧
      tab'.destroyed = tab.destroyed ∧ tab'.id = if i = j then some id else tab.id := by
    intro j tab' ht
    rw [Browser.ready_tabs] at ht
    obtain ⟨tab, hold, rfl⟩ := Option.map_eq_some_iff.1 ht
    refine ⟨tab, hold, ?_⟩
    split <;> simp
  have hlookup : ∀ key, (s.browser.ready i id).terms.lookup key =
      if key = id.repr then some i else s.browser.terms.lookup key := fun key => OrdHash.lookup_set ..
  have hholds : ∀ k j, Holds (as ++ [.ready i id]) k j ↔ if k = id then j = i else Holds as k j := by
    intro k j
    rw [holds_concat]
    by_cases hk : k = id
    · subst hk
      rw [if_pos rfl]
      constructor
      · rintro (he | ⟨-, hne⟩)
        · cases he
          rfl
        · exact absurd rfl hne
      · rintro rfl
        exact .inl rfl
    · rw [if_neg hk]
      constructor
      · rintro (he | ⟨hh, -⟩)
        · cases he
          exact absurd rfl hk
        · exact hh
      · exact fun hh => .inr ⟨hh, Ne.symm hk⟩
  have hmade : ∀ (j : Nat) (tab : Tab), s.browser.tabs[j]? = some tab →
      ∃ tab', (s.browser.ready i id).tabs[j]? = some tab' := by
    intro j tab ht
    rw [Browser.ready_tabs, ht]
    exact ⟨_, rfl⟩
  constructor
  · intro j tab' ht
    obtain ⟨tab, ht, -, hid⟩ := htabs j tab' ht
    rw [hid, givenId_concat, h.ids j tab ht]
  · intro j tab' ht
    obtain ⟨tab, ht, hd, -⟩ := htabs j tab' ht
    rw [hd, hmem]
    exact h.destroyed j tab ht
  · intro j ht
    have hnone : s.browser.tabs[j]? = none := by
      by_contra hsome
      obtain ⟨tab, htab⟩ := Option.ne_none_iff_exists'.1 hsome
      obtain ⟨tab', ht'⟩ := hmade j tab htab
      exact absurd (ht.symm.trans ht') nofun
    have hij : i ≠ j := by
      rintro rfl
      exact absurd hi (Nat.not_lt.2 (List.getElem?_eq_none_iff.1 hnone))
    rw [givenId_concat, hmem]
    exact ⟨(if_neg hij).trans (h.unmade j hnone).1, (h.unmade j hnone).2⟩
  · intro k j
    show (s.browser.ready i id).terms.lookup k.repr = some j ↔ _
    rw [hlookup, hholds]
    by_cases hk : k = id
    · rw [if_pos hk, if_pos (congrArg Int.repr hk)]
      exact Option.some_inj.trans eq_comm
    · rw [if_neg hk, if_neg fun he => hk (Int.repr_inj.1 he)]
      exact h.terms k j
  · intro key j hj
    replace hj : (s.browser.ready i id).terms.lookup key = some j := hj
    rw [hlookup] at hj
    split at hj
    · exact ⟨id, ‹_›⟩
    · exact h.keys key j hj
  · intro j k hmem
    rcases List.mem_append.1 hmem with hmem | hmem
    · obtain ⟨tab, ht⟩ := h.made j k hmem
      exact hmade j tab ht
    · cases List.mem_singleton.1 hmem
      exact hmade _ _ (List.getElem?_eq_getElem hi)

theorem Record.destroy {as : List Act} {s : Page} (h : Record as s) {i : Nat} {tab : Tab}
    (ht : s.browser.tabs[i]? = some tab) :
    Record (as ++ [.destroy i]) { s with browser := s.browser.destroyTab i } := by
  have htabs : ∀ j tab', (s.browser.destroyTab i).tabs[j]? = some tab' → ∃ tab, s.browser.tabs[j]? = some tab ∧
      tab'.id = tab.id ∧ (tab'.destroyed = true ↔ tab.destroyed = true ∨ i = j) := by
    intro j tab' ht
    rw [Browser.destroyTab_tabs] at ht
    obtain ⟨tab, hold, rfl⟩ := Option.map_eq_some_iff.1 ht
    refine ⟨tab, hold, ?_⟩
    by_cases hij : i = j <;> simp [hij]
  have hlookup : ∀ k : Int, AList.lookup k.repr (s.browser.destroyTab i).terms =
      if givenId as i = some k ∧ .destroy i ∉ as then none else s.browser.terms.lookup k.repr := by
    intro k
    rcases Browser.destroyTab_cases i s.browser with he | ⟨tab', ht', hd, he⟩
    · rw [he, if_neg]
      rintro ⟨-, hno⟩
      have hd : tab.destroyed = false := by
        rw [Bool.eq_false_iff, ne_eq, h.destroyed i tab ht]
        exact hno
      have hdead : (s.browser.destroyTab i).tabs[i]? = some { tab with destroyed := true } := by
        rw [Browser.destroyTab_tabs, ht]
        simp
      rw [he, ht] at hdead
      rw [congrArg Tab.destroyed (Option.some.inj hdead)] at hd
      cases hd
    · have hno : .destroy i ∉ as := fun hmem => by
        rw [(h.destroyed i tab' ht').2 hmem] at hd
        cases hd
      rw [he]
      show AList.lookup k.repr (s.browser.terms.erase tab'.key) = _
      rw [OrdHash.lookup_erase, ← h.ids i tab' ht']
      unfold Tab.key
      cases hid : tab'.id with
      | none => rw [if_neg (Browser.repr_ne_empty k), if_neg fun hc => nomatch hc.1]
      | some id => simp [Int.repr_inj, hno, eq_comm]
  have hmem : ∀ j, .destroy j ∈ as ++ [.destroy i] ↔ .destroy j ∈ as ∨ i = j := fun j => by simp [eq_comm]
  have hholds : ∀ k j, Holds (as ++ [.destroy i]) k j ↔ Holds as k j ∧ (givenId as i = some k → .destroy i ∈ as) := by
    intro k j
    rw [holds_concat]
    exact ⟨fun hor => hor.resolve_left nofun, .inr⟩
  constructor
  · intro j tab' ht
    obtain ⟨tab, ht, hid, -⟩ := htabs j tab' ht
    rw [hid, givenId_concat]
    exact h.ids j tab ht
  · intro j tab' ht
    obtain ⟨tab, ht, -, hd⟩ := htabs j tab' ht
    rw [hd, hmem, h.destroyed j tab ht]
  · intro j hj
    replace hj : (s.browser.destroyTab i).tabs[j]? = none := hj
    rw [Browser.destroyTab_tabs, Option.map_eq_none_iff] at hj
    rw [givenId_concat, hmem]
    refine ⟨(h.unmade j hj).1, fun hor => hor.elim (h.unmade j hj).2 ?_⟩
    rintro rfl
    rw [ht] at hj
    cases hj
  · intro k j
    show AList.lookup k.repr (s.browser.destroyTab i).terms = some j ↔ _
    rw [hlookup, hholds, ← h.terms]
    split
    · rename_i hc
      exact iff_of_false nofun fun hh => hc.2 (hh.2 hc.1)
    · rename_i hc
      rw [not_and, not_not] at hc
      exact (and_iff_left hc).symm
  · intro key j hj
    replace hj : AList.lookup key (s.browser.destroyTab i).terms = some j := hj
    rcases Browser.destroyTab_cases i s.browser with he | ⟨tab', -, -, he⟩
    · exact h.keys key j (he ▸ hj)
    · rw [he] at hj
      replace hj : AList.lookup key (s.browser.terms.erase tab'.key) = some j := hj
      rw [OrdHash.lookup_erase] at hj
      split at hj
      · cases hj
      · exact h.keys key j hj
  · intro j k hmem
    obtain ⟨tab, ht⟩ := h.made j k (by simpa using hmem)
    show ∃ tab, (s.browser.destroyTab i).tabs[j]? = some tab
    rw [Browser.destroyTab_tabs, ht]
    exact ⟨_, rfl⟩

theorem Record.step {as : List Act} {s s' : Page} {a : Act} (h : Record as s) (hstep : s.step a = some s') :
    Record (as ++ [a]) s' := by
  cases a <;> simp only [Page.step] at hstep
  case create =>
    cases hstep
    exact h.create
  case ready i id =>
    split at hstep
    · cases hstep
      exact h.ready ‹_› id
    · cases hstep
  case input i data =>
    obtain ⟨tab, -, rfl⟩ := Option.map_eq_some_iff.1 hstep
    exact h.publish (by split <;> rfl) nofun nofun
  case resize i cols rows =>
    obtain ⟨tab, -, rfl⟩ := Option.map_eq_some_iff.1 hstep
    exact h.publish rfl nofun nofun
  case destroy i =>
    obtain ⟨tab, ht, rfl⟩ := Option.map_eq_some_iff.1 hstep
    have hrecord := h.destroy ht
    split
    · rename_i hd
      have hsame : s.browser.destroyTab i = s.browser := by
        unfold Browser.destroyTab
        simp [ht, hd]
      rw [hsame] at hrecord
      exact hrecord
    · exact ⟨hrecord.ids, hrecord.destroyed, hrecord.unmade, hrecord.terms, hrecord.keys, hrecord.made⟩

theorem Record.run : ∀ {bs as : List Act} {s s' : Page}, Record as s → Machine.exec Page.step s bs = some s' →
    Record (as ++ bs) s'
  | [], as, s, s', h, hrun => by
    cases hrun
    rwa [List.append_nil]
  | b :: bs, as, s, s', h, hrun => by
    obtain ⟨s₁, hs₁, hrun⟩ := Machine.exec_cons.1 hrun
    have hall := (h.step hs₁).run hrun
    rwa [List.append_assoc] at hall

theorem repr_ne_object (k : Int) : k.repr ≠ "[object Object]" := by
  intro h
  have hdigit : ∀ n : Nat, 'o' ∉ n.repr.toList := by
    intro n hn
    rw [Nat.toList_repr] at hn
    exact absurd (Nat.isDigit_of_mem_toDigits (by decide) (by decide) hn) (by decide)
  have ho : 'o' ∈ k.repr.toList := by rw [h]; decide
  rw [Int.repr_eq_if] at ho
  split at ho
  · exact hdigit _ ho
  · rw [String.toList_append, List.mem_append] at ho
    rcases ho with ho | ho
    · exact absurd ho (by decide)
    · exact hdigit _ ho

/-- What a step publishes: an input or a resize under the id of the tab, or a kill. -/
theorem published_cases {s s' : Page} {a : Act} {p : Publish} (h : s.step a = some s')
    (hp : s'.publishes = s.publishes ++ [p]) : ∃ tab, s.browser.tabs[p.tab]? = some tab ∧
      ((a.sender = some p.tab ∧ p.arguments.headD .undefined = tab.idValue) ∨
        (a.sender = none ∧ p.arguments.headD .undefined = .obj [("id", tab.idValue)])) := by
  have hnone : s.publishes ≠ s.publishes ++ [p] := by simp
  cases a <;> simp only [Page.step] at h
  case create =>
    cases h
    exact absurd hp hnone
  case ready =>
    split at h
    · cases h
      exact absurd hp hnone
    · cases h
  case input i data =>
    obtain ⟨tab, ht, rfl⟩ := Option.map_eq_some_iff.1 h
    split at hp
    · exact absurd hp hnone
    · cases List.singleton_inj.1 (List.append_cancel_left hp)
      exact ⟨tab, ht, .inl ⟨rfl, rfl⟩⟩
  case resize i cols rows =>
    obtain ⟨tab, ht, rfl⟩ := Option.map_eq_some_iff.1 h
    cases List.singleton_inj.1 (List.append_cancel_left hp)
    exact ⟨tab, ht, .inl ⟨rfl, rfl⟩⟩
  case destroy i =>
    obtain ⟨tab, ht, rfl⟩ := Option.map_eq_some_iff.1 h
    split at hp
    · exact absurd hp hnone
    · cases List.singleton_inj.1 (List.append_cancel_left hp)
      exact ⟨tab, ht, .inr ⟨rfl, rfl⟩⟩

/-- Where the id of a tab was passed, what counts is who has the id now. -/
theorem Record.handled_iff {as : List Act} {s : Page} (h : Record as s) {p : Publish} {k : Int} {tab : Tab}
    (ht : s.browser.tabs[p.tab]? = some tab) (hk : p.arguments.headD .undefined = .num k) :
    Handled s p ↔ ∃ j, Holds as k j ∧ (j = p.tab ∨ (.destroy p.tab ∈ as ∧ .destroy j ∈ as)) := by
  have hlive : ∀ {i tab}, s.browser.tabs[i]? = some tab → (Live s.browser i ↔ .destroy i ∉ as) := by
    intro i tab ht
    rw [← h.destroyed i tab ht, Bool.not_eq_true]
    constructor
    · rintro ⟨tab', ht', hd⟩
      rw [ht, Option.some_inj] at ht'
      exact ht' ▸ hd
    · exact fun hd => ⟨tab, ht, hd⟩
  have herr : ∀ j, s.browser.errbackTab p.arguments = .ok j ↔ Holds as k j := by
    intro j
    rw [← h.terms]
    unfold Browser.errbackTab
    rw [hk]
    show (match s.browser.terms.lookup k.repr with | some i => Except.ok i | none => .error Exn.typeError) = _ ↔ _
    cases s.browser.terms.lookup k.repr <;> simp
  unfold Handled
  refine exists_congr fun j => ?_
  rw [herr]
  refine and_congr_right fun hj => ?_
  obtain ⟨tab', ht'⟩ := h.made j k hj.mem
  constructor
  · intro hall
    by_cases hd : .destroy j ∈ as
    · by_cases hd' : .destroy p.tab ∈ as
      · exact .inr ⟨hd', hd⟩
      · exact .inl ((hall p.tab ((hlive ht).2 hd')).2 rfl).symm
    · exact .inl ((hall j ((hlive ht').2 hd)).1 rfl)
  · rintro (rfl | ⟨hd, hd'⟩) i hi
    · exact Iff.rfl
    · constructor
      · rintro rfl
        exact absurd hd' ((hlive ht').1 hi)
      · rintro rfl
        exact absurd hd ((hlive ht).1 hi)

/-- Whatever is done in a page before and after a publication, its failure is handled exactly when it passed the id of
a tab that was ready, and the id has been kept since. -/
theorem handled_iff_kept {userID : String} {before after : List Act} {a : Act} {s₀ s₁ s : Page} {p : Publish}
    (hbefore : Machine.exec step (init userID) before = some s₀) (ha : s₀.step a = some s₁)
    (hp : s₁.publishes = s₀.publishes ++ [p]) (hafter : Machine.exec step s₁ after = some s) :
    Handled s p ↔ Kept before a after := by
  have h₀ : Record before s₀ := (init_record userID).run hbefore
  have h : Record (before ++ a :: after) s := by
    have hrun := (h₀.step ha).run hafter
    rwa [List.append_assoc] at hrun
  obtain ⟨tab, ht, hargs⟩ := published_cases ha hp
  -- no entry has another name than an id
  have hunhandled : (∀ k : Int, (p.arguments.headD .undefined).propertyKey ≠ k.repr) → ¬ Handled s p := by
    rintro hkey ⟨j, hj, -⟩
    unfold Browser.errbackTab at hj
    split at hj
    · rename_i i hi
      obtain ⟨k, hk⟩ := h.keys _ _ hi
      exact hkey k hk
    · cases hj
  rcases hargs with ⟨hsender, harg⟩ | ⟨hsender, harg⟩
  · have hid := h₀.ids p.tab tab ht
    cases hk : tab.id with
    | none =>
      refine iff_of_false (hunhandled fun k hkey => ?_) ?_
      · rw [harg, Tab.idValue, hk] at hkey
        exact Browser.repr_ne_empty k hkey.symm
      · rintro ⟨i, k, j, hi, hgiven, -⟩
        rw [hsender, Option.some_inj] at hi
        rw [← hi, ← hid, hk] at hgiven
        cases hgiven
    | some k =>
      rw [Tab.idValue, hk] at harg
      have hready := mem_of_givenId (hid.symm.trans hk)
      obtain ⟨tab', ht'⟩ := h.made p.tab k (List.mem_append_left _ hready)
      rw [h.handled_iff ht' harg]
      constructor
      · rintro ⟨j, hj, hor⟩
        exact ⟨p.tab, k, j, hsender, hid.symm.trans hk, hj, hor⟩
      · rintro ⟨i, k', j, hi, hgiven, hj, hor⟩
        rw [hsender, Option.some_inj] at hi
        subst hi
        rw [← hid, hk, Option.some_inj] at hgiven
        subst hgiven
        exact ⟨j, hj, hor⟩
  · refine iff_of_false (hunhandled fun k hkey => ?_) ?_
    · rw [harg] at hkey
      exact repr_ne_object k hkey.symm
    · rintro ⟨i, k, j, hi, -⟩
      rw [hsender] at hi
      cases hi

/-- Input that is typed after two tabs became ready; then the other one is destroyed. -/
theorem handled_ready : ∃ s₀ s₁ s p,
    Machine.exec step (init "1") [.create, .create, .ready 0 8, .ready 1 16] = some s₀ ∧
    s₀.step (.input 0 "ls") = some s₁ ∧ s₁.publishes = s₀.publishes ++ [p] ∧
    Machine.exec step s₁ [.destroy 1] = some s ∧ Handled s p := by
  refine ⟨_, _, _, _, rfl, rfl, rfl, rfl, (@handled_iff_kept "1" [.create, .create, .ready 0 8, .ready 1 16] [.destroy 1]
    (.input 0 "ls") _ _ _ _ rfl rfl rfl rfl).2 ⟨0, 8, 0, rfl, rfl, ?_, .inl rfl⟩⟩
  have hready : Holds ([.create, .create] ++ [.ready 0 8]) 8 0 := holds_concat.2 (.inl rfl)
  have hother : Holds ([.create, .create, .ready 0 8] ++ [.ready 1 16]) 8 0 :=
    holds_concat.2 (.inr ⟨hready, (by decide : (16 : Int) ≠ 8)⟩)
  have hinput : Holds ([.create, .create, .ready 0 8, .ready 1 16] ++ [.input 0 "ls"]) 8 0 :=
    holds_concat.2 (.inr ⟨hother, trivial⟩)
  have hother : givenId [.create, .create, .ready 0 8, .ready 1 16, .input 0 "ls"] 1 ≠ some 8 := by decide
  exact (holds_concat (a := .destroy 1)).2 (.inr ⟨hinput, fun h => absurd h hother⟩)

/-- The kill message of a tab that is closed. -/
theorem kill_failure_throws : ∃ s, Machine.exec step (init "1") [.create, .ready 0 8, .destroy 0] = some s ∧
    ∃ p ∈ s.publishes, ¬ Handled s p := by
  refine ⟨_, rfl, _, List.mem_singleton.2 rfl, ?_⟩
  rintro ⟨j, hj, -⟩
  cases hj

end Page

end Tangle
