/-
The server as a state machine: calls of `TTY.create`, messages from browsers, events of em-ssh, expiry
sweeps, the clock, in any order. What a step can do is said once, in `stepped`: to each terminal, to
the registry, and in kill events. From it follow the invariant of the process and how what was written
to a terminal and what was sent on its channel hang together in every run.
-/
import Tangle.Lib.Machine
import Tangle.Ssh.Session
import Tangle.Tty.Sweep

namespace Tangle

open Pipe (Item)
open TTY (Ref Registry opened RaisesEarly)
open SSH (Tty Phase Event)

inductive Act
  | create (userId : String) (out : Outside)
  | incoming (m : Message)
  | ssh (id : Int) (e : Event)
  | sweep
  | tick (n : Nat)

namespace Reactor

/-- The process after a call of `TTY.create`, returned or not. -/
def afterCreate (s : Reactor) (userId : String) (out : Outside) : Reactor :=
  match (TTY.create userId out).run s with
  | .ok _ s' => s'
  | .error _ s' => s'

/-- An event rewrites its terminal; what goes beyond that comes after. -/
def ssh (s : Reactor) (id : Int) (e : Event) : Option Reactor :=
  match s.ttys.lookup id with
  | none => none
  | some t =>
    match t.handle s.now e with
    | none => none
    | some (t', .nothing) => some (s.modifyTty id fun _ => t')
    | some (t', .publish d) => some ((s.modifyTty id fun _ => t').publish (.data t.owner id d))
    | some (t', .close) => some ((s.modifyTty id fun _ => t').close id)

/-- One step. A call of `create` gives its terminal an object id of its own; the periodic timer fires
when it is due. -/
def step (s : Reactor) : Act → Option Reactor
  | .create userId out =>
    -- `ttys` keeps every terminal, so an id is never given out twice
    if out.objectId ≠ 0 ∧ s.ttys.lookup out.objectId = none then some (s.afterCreate userId out) else none
  | .incoming m => some (Extension.incoming s m).state
  | .ssh id e => s.ssh id e
  | .sweep =>
    match s.timer with
    | some due => if due ≤ s.now then some { TTY.sweep s with timer := some (s.now + TTY.EXPIRY_TIMER) } else none
    | none => none
  | .tick n => some { s with now := s.now + n }

/-! ## What a step does -/

def Act.elapsed : Act → Nat
  | .tick n => n
  | _ => 0

/-- What a step writes to the queue of a terminal. -/
def written (s : Reactor) : Act → Ref → List (Item String)
  | .incoming m, tty =>
    match m.addressed with
    | some (term, ele) => if term = tty ∧ term ∈ s.terms then [ele] else []
    | none => []
  | _, _ => []

/-- The step registers a new terminal. -/
def Creates (s : Reactor) : Act → Ref → Prop
  | .create userId out, tty => tty = ⟨userId, out.objectId⟩ ∧ ¬ RaisesEarly s out
  | _, _ => False

/-- The step calls `close` on a terminal. -/
def Closes (s : Reactor) : Act → Ref → Prop
  | .ssh id e, tty => tty.objectId = id ∧
    ∃ t t', s.ttys.lookup id = some t ∧ t.owner = tty.owner ∧ t.handle s.now e = some (t', .close)
  | .sweep, tty => Due s tty
  | _, _ => False

/-- What a step makes of a terminal. -/
inductive Next (s : Reactor) (k : Int) (t : Tty) : Act → Tty → Prop
  | same {a} : ¬ Closes s a (ref k t) → written s a (ref k t) = [] → (∀ e, a ≠ .ssh k e) → Next s k t a t
  | write {m ele} : m.addressed = some (ref k t, ele) → ref k t ∈ s.terms →
      Next s k t (.incoming m) (t.push s.now ele)
  | event {e t' eff} : t.handle s.now e = some (t', eff) → eff ≠ .close → Next s k t (.ssh k e) t'
  | ends {e t'} : t.handle s.now e = some (t', .close) → Next s k t (.ssh k e) t'.closedOnce
  | expires : ref k t ∈ s.terms → t.expired s.now = true → Next s k t .sweep t.closedOnce

/-- How far `open` has come when `create` returns, raises or waits. -/
def openPhases : List Phase := [.idle, .launching, .connecting, .ensuring true]

/-- What a step does. -/
structure Stepped (s : Reactor) (a : Act) (s' : Reactor) : Prop where
  now : s'.now = s.now + Act.elapsed a
  old : ∀ k t, s.ttys.lookup k = some t → ∃ t', s'.ttys.lookup k = some t' ∧ Next s k t a t'
  fresh : ∀ tty, Creates s a tty → tty.objectId ≠ 0 ∧ s.ttys.lookup tty.objectId = none
  created : ∀ tty, Creates s a tty →
    ∃ r phase, phase ∈ openPhases ∧ s'.ttys.lookup tty.objectId = some (opened s tty.owner r phase)
  none : ∀ k, s.ttys.lookup k = none → (∀ tty, Creates s a tty → tty.objectId ≠ k) → s'.ttys.lookup k = none
  mem : ∀ tty, tty ∈ s'.terms ↔ (tty ∈ s.terms ∧ ¬ Closes s a tty) ∨ Creates s a tty
  published : ∃ new, s'.published = s.published ++ new ∧
    (∀ tty, Closes s a tty → new.count (.kill tty.owner tty.objectId) = 1) ∧
    (∀ tty, ¬ Closes s a tty → .kill tty.owner tty.objectId ∉ new)

/-- A step that rewrites one terminal, and neither closes nor creates any. -/
theorem stepped_rewrite {s s' : Reactor} {a : Act} {id : Int} {t t' : Tty} {new : List Publication}
    (ht : s.ttys.lookup id = some t) (hlk : ∀ k, s'.ttys.lookup k = if k = id then some t' else s.ttys.lookup k)
    (hnow : s'.now = s.now + Act.elapsed a) (hterms : s'.terms = s.terms) (hpub : s'.published = s.published ++ new)
    (hnew : ∀ o k, .kill o k ∉ new) (hcl : ∀ tty, ¬ Closes s a tty) (hcr : ∀ tty, ¬ Creates s a tty)
    (hnext : Next s id t a t') (hother : ∀ k u, k ≠ id → Next s k u a u) : Stepped s a s' := by
  refine ⟨hnow, fun k u hk => ?_, fun tty h => absurd h (hcr tty), fun tty h => absurd h (hcr tty), fun k hk _ => ?_,
    fun tty => ?_, new, hpub, fun tty h => absurd h (hcl tty), fun tty _ => hnew _ _⟩
  · rw [hlk]
    split
    · rename_i hkt; subst hkt; rw [ht] at hk; cases hk
      exact ⟨t', rfl, hnext⟩
    · rename_i hkt; exact ⟨u, hk, hother k u hkt⟩
  · rw [hlk, if_neg]
    · exact hk
    · rintro rfl; rw [ht] at hk; cases hk
  · rw [hterms]; simp [hcl, hcr]

theorem stepped_incoming {s : Reactor} (hwf : s.WF) (m : Message) :
    Stepped s (.incoming m) (Extension.incoming s m).state := by
  rw [incoming_state]
  have hsame (h : ∀ tty, written s (.incoming m) tty = []) : Stepped s (.incoming m) s :=
    ⟨rfl, fun k t hk => ⟨t, hk, .same id (h _) nofun⟩, nofun, nofun, fun k hk _ => hk,
      fun tty => by simp [Closes, Creates], [], by simp, nofun, by simp⟩
  split
  · rename_i term ele ha
    split
    · rename_i hm
      obtain ⟨u, hu, ho⟩ := hwf.known term hm
      have href : term = ref term.objectId u := by unfold ref; rw [ho]
      have hlk (k : Int) : (s.writeTo term ele).ttys.lookup k =
          if k = term.objectId then some (u.push s.now ele) else s.ttys.lookup k := by
        unfold writeTo; rw [lookup_modifyTty, hu]; rfl
      refine stepped_rewrite hu hlk rfl rfl (List.append_nil _).symm (by simp) (fun _ => id) (fun _ => id)
        (.write (by rw [← href]; exact ha) (by rw [← href]; exact hm)) fun k v hk => .same id ?_ nofun
      -- the message is for another terminal
      simp only [written, ha]
      rw [if_neg]
      rintro ⟨he, -⟩
      exact hk (by rw [he])
    · rename_i hm
      exact hsame fun tty => by simp only [written, ha]; rw [if_neg fun h => hm h.2]
  · rename_i ha
    exact hsame fun tty => by simp only [written, ha]

theorem stepped_create {s s' : Reactor} {userId : String} {out : Outside} (h : s.step (.create userId out) = some s') :
    Stepped s (.create userId out) s' := by
  simp only [step] at h
  split at h
  · rename_i hg
    obtain ⟨h0, hfresh⟩ := hg
    cases h
    have hno : ∀ tty, ¬ Closes s (.create userId out) tty := fun _ => id
    by_cases hearly : RaisesEarly s out
    · obtain ⟨e, s1, hrun, hterms, httys, hnow, hpub⟩ := TTY.create_early hearly userId
      have hs : s.afterCreate userId out = s1 := by unfold afterCreate; rw [hrun]
      have hnc : ∀ tty, ¬ Creates s (.create userId out) tty := fun tty hc => hc.2 hearly
      rw [hs]
      refine ⟨hnow, fun k t hk => ⟨t, by rw [httys]; exact hk, .same (hno _) rfl nofun⟩,
        fun tty hc => absurd hc (hnc tty),
        fun tty hc => absurd hc (hnc tty), fun k hk _ => by rw [httys]; exact hk, fun tty => ?_, [], by rw [hpub]; simp,
        fun tty hc => absurd hc (hno tty), by simp⟩
      rw [hterms]
      simp [hno, hnc]
    · have hreg : ∃ r phase, phase ∈ openPhases ∧ TTY.Registers s (s.afterCreate userId out) ⟨userId, out.objectId⟩
          (opened s userId r phase) := by
        rcases TTY.create_late hearly userId with ⟨r, phase, s1, hrun, hph, hreg⟩
          | ⟨stop, r, phase, s1, hrun, hph, hreg⟩
        all_goals
          have hs : s.afterCreate userId out = s1 := by unfold afterCreate; rw [hrun]
          refine ⟨r, phase, ?_, hs ▸ hreg⟩
          simp only [List.mem_cons, List.not_mem_nil, or_false] at hph
          rcases hph with rfl | rfl <;> simp [openPhases]
      obtain ⟨r, phase, hph, hreg⟩ := hreg
      have hc : ∀ tty, Creates s (.create userId out) tty ↔ tty = ⟨userId, out.objectId⟩ :=
        fun tty => and_iff_left hearly
      refine ⟨hreg.now, fun k t hk => ⟨t, ?_, .same (hno _) rfl nofun⟩, fun tty htty => ?_, fun tty htty => ?_,
        fun k hk hne => ?_,
        fun tty => ?_, [], by rw [hreg.published]; simp, fun tty hx => absurd hx (hno tty), by simp⟩
      · rw [hreg.ttys, if_neg]
        · exact hk
        · rintro rfl; simp only at hk; rw [hfresh] at hk; cases hk
      · cases (hc tty).1 htty; exact ⟨h0, hfresh⟩
      · cases (hc tty).1 htty
        exact ⟨r, phase, hph, by rw [hreg.ttys, if_pos rfl]⟩
      · rw [hreg.ttys, if_neg]
        · exact hk
        · rintro rfl; exact hne _ ((hc _).2 rfl) rfl
      · rw [hreg.terms, Registry.mem_push, hc]
        simp [hno, or_comm]
  · cases h

theorem stepped_sweep {s s' : Reactor} (hwf : s.WF) (h : s.step .sweep = some s') : Stepped s .sweep s' := by
  have hs : s' = { TTY.sweep s with timer := s'.timer } := by
    simp only [step] at h
    split at h
    · split at h
      · cases h; rfl
      · cases h
    · cases h
  have hsw := sweep_closed hwf.listening
  obtain ⟨new, hpub, hone, hzero, -⟩ := hsw.published
  rw [hs]
  refine ⟨hsw.now, fun k t hk => ?_, nofun, nofun, fun k hk _ => hsw.fresh k hk,
    fun tty => (hsw.mem tty).trans (by simp [Closes, Creates]), new, hpub, hone, hzero⟩
  by_cases hd : Due s (ref k t)
  · obtain ⟨hm, u, hu, hexp⟩ := hd
    simp only at hu
    rw [hk] at hu; cases hu
    exact ⟨_, hsw.hit k t hk ⟨hm, t, hk, hexp⟩, .expires hm hexp⟩
  · exact ⟨t, hsw.miss k t hk hd, .same hd rfl nofun⟩

theorem stepped_ssh {s s' : Reactor} {id : Int} {e : Event} (hwf : s.WF) (h : s.step (.ssh id e) = some s') :
    Stepped s (.ssh id e) s' := by
  simp only [step, ssh] at h
  cases ht : s.ttys.lookup id with
  | none => simp only [ht] at h; cases h
  | some t =>
    cases hh : t.handle s.now e with
    | none => simp only [ht, hh] at h; cases h
    | some r =>
      obtain ⟨t', eff⟩ := r
      simp only [ht, hh] at h
      have hlk (k : Int) : (s.modifyTty id fun _ => t').ttys.lookup k =
          if k = id then some t' else s.ttys.lookup k := by
        rw [lookup_modifyTty, ht]; rfl
      have hcl (tty : Ref) : Closes s (.ssh id e) tty ↔ tty = ref id t ∧ eff = .close := by
        constructor
        · rintro ⟨hid, u, u', hu, ho, hu'⟩
          rw [ht] at hu; cases hu
          rw [hh] at hu'; cases hu'
          exact ⟨by unfold ref; rw [ho, ← hid], rfl⟩
        · rintro ⟨rfl, rfl⟩
          exact ⟨rfl, t, t', ht, rfl, hh⟩
      have hnext {k u} (hk : k ≠ id) : Next s k u (.ssh id e) u :=
        .same (fun hc => hk (congrArg Ref.objectId ((hcl _).1 hc).1)) rfl fun e' he => hk (by cases he; rfl)
      cases eff with
      | nothing =>
        cases h
        exact stepped_rewrite ht hlk rfl rfl (List.append_nil _).symm (by simp)
          (fun tty hc => nomatch ((hcl tty).1 hc).2)
          (fun _ hc => hc) (.event hh nofun) fun k u => hnext
      | publish d =>
        cases h
        rw [publish_data]
        exact stepped_rewrite ht hlk rfl rfl rfl (by simp) (fun tty hc => nomatch ((hcl tty).1 hc).2) (fun _ hc => hc)
          (.event hh nofun) fun k u => hnext
      | close =>
        obtain ⟨ho, hl, -⟩ := (SSH.Tty.handle_cases hh).frame
        have ht' : (s.modifyTty id fun _ => t').ttys.lookup id = some t' := by rw [hlk, if_pos rfl]
        cases h
        rw [close_eq ht' (hl.trans (hwf.listeners id t ht))]
        have hlk' (k : Int) : (OrdHash.update id (fun t => { t with closes := t.closes + 1 })
            (s.modifyTty id fun _ => t').ttys).lookup k = if k = id then some t'.closedOnce else s.ttys.lookup k := by
          rw [OrdHash.lookup_update, ht', hlk]
          split <;> rfl
        refine ⟨rfl, fun k u hk => ?_, nofun, nofun, fun k hk _ => ?_, fun tty => ?_, [.kill t.owner id],
          by rw [ho]; rfl,
          fun tty hc => ?_, fun tty hc => ?_⟩
        · simp only [hlk']
          split
          · rename_i hkt; subst hkt; rw [ht] at hk; cases hk
            exact ⟨_, rfl, .ends hh⟩
          · rename_i hkt; exact ⟨u, hk, hnext hkt⟩
        · simp only [hlk']
          rw [if_neg]
          · exact hk
          · rintro rfl; rw [ht] at hk; cases hk
        · rw [Registry.mem_delete, hcl, ho]
          simp [Creates, and_comm]
        · cases ((hcl tty).1 hc).1; simp
        · rw [List.mem_singleton]
          intro he
          refine hc ((hcl tty).2 ⟨?_, rfl⟩)
          cases tty; cases he; rfl

theorem stepped {s s' : Reactor} {a : Act} (hwf : s.WF) (h : s.step a = some s') : Stepped s a s' := by
  cases a with
  | create userId out => exact stepped_create h
  | incoming m => cases h; exact stepped_incoming hwf m
  | ssh id e => exact stepped_ssh hwf h
  | sweep => exact stepped_sweep hwf h
  | tick n =>
    cases h
    exact ⟨rfl, fun k t hk => ⟨t, hk, .same id rfl nofun⟩, nofun, nofun, fun k hk _ => hk,
      fun tty => by simp [Closes, Creates], [], by simp, nofun, by simp⟩

/-! ## The invariant of the process -/

theorem Next.frame {s : Reactor} {k : Int} {t t' : Tty} {a : Act} (h : Next s k t a t') :
    t'.owner = t.owner ∧ t'.listeners = t.listeners := by
  cases h with
  | same | expires => exact ⟨rfl, rfl⟩
  | write => exact let h := (SSH.Tty.push_frame s.now _ t).1; ⟨h.owner, h.listeners⟩
  | event h | ends h => exact let h := (SSH.Tty.handle_cases h).frame; ⟨h.1, h.2.1⟩

theorem Next.ref_eq {s : Reactor} {k : Int} {t t' : Tty} {a : Act} (h : Next s k t a t') : ref k t' = ref k t := by
  unfold ref; rw [h.frame.1]

/-- Only a step that closes a terminal ends it. -/
theorem Next.ended {s : Reactor} {k : Int} {t t' : Tty} {a : Act} (ht : s.ttys.lookup k = some t) (h : Next s k t a t')
    (he : t'.phase = .ended) : t.phase = .ended ∨ Closes s a (ref k t) := by
  cases h with
  | same => exact .inl he
  | @write m ele ha hm =>
    rcases SSH.Tty.push_phase s.now ele t with hp | ⟨-, hp⟩
    · exact .inl (hp.symm.trans he)
    · rw [hp] at he; cases he
  | event h hne => exact absurd ((SSH.Tty.handle_cases h).close_iff.2 he) hne
  | @ends e t' h => exact .inr ⟨rfl, t, t', ht, rfl, h⟩
  | expires hm hexp => exact .inr ⟨hm, t, ht, hexp⟩

/-- To show something of every terminal after a step, show it of what becomes of the old ones and of
the new one. -/
theorem Stepped.forall {s s' : Reactor} {a : Act} (h : Stepped s a s') {Q : Int → Tty → Prop}
    (hold : ∀ k t t', s.ttys.lookup k = some t → Next s k t a t' → Q k t')
    (hnew : ∀ tty r phase, Creates s a tty → phase ∈ openPhases → Q tty.objectId (opened s tty.owner r phase)) :
    ∀ k t', s'.ttys.lookup k = some t' → Q k t' := by
  intro k t' hk
  cases ht : s.ttys.lookup k with
  | some t =>
    obtain ⟨u, hu, hn⟩ := h.old k t ht
    rw [hk] at hu; cases hu
    exact hold k t t' ht hn
  | none =>
    by_cases hc : ∃ tty, Creates s a tty ∧ tty.objectId = k
    · obtain ⟨tty, hc, rfl⟩ := hc
      obtain ⟨r, phase, hph, hu⟩ := h.created tty hc
      rw [hk] at hu; cases hu
      exact hnew tty r phase hc hph
    · have hu := h.none k ht fun tty htty he => hc ⟨tty, htty, he⟩
      rw [hk] at hu; cases hu

/-- A terminal that is registered after a step and existed before was registered before. -/
theorem Stepped.mem_old {s s' : Reactor} {a : Act} (h : Stepped s a s') {k : Int} {t : Tty}
    (ht : s.ttys.lookup k = some t) : ref k t ∈ s'.terms ↔ ref k t ∈ s.terms ∧ ¬ Closes s a (ref k t) := by
  rw [h.mem, or_iff_left]
  intro hc
  have := (h.fresh _ hc).2
  rw [ht] at this; cases this

theorem Stepped.wf {s s' : Reactor} {a : Act} (hwf : s.WF) (h : Stepped s a s') : s'.WF := by
  have hlis : ∀ k t', s'.ttys.lookup k = some t' → t'.listeners = [.deleteTty] :=
    h.forall (fun k t t' ht hn => hn.frame.2.trans (hwf.listeners k t ht)) fun tty r phase _ _ => rfl
  have hnz : ∀ k t', s'.ttys.lookup k = some t' → k ≠ 0 :=
    h.forall (fun k t t' ht _ => hwf.nonzero k t ht) fun tty r phase hc _ => (h.fresh tty hc).1
  have hended : ∀ k t', s'.ttys.lookup k = some t' → t'.phase = .ended → ref k t' ∉ s'.terms := by
    refine h.forall (fun k t t' ht hn he => ?_) fun tty r phase _ hph he => ?_
    · rw [hn.ref_eq, h.mem_old ht]
      rintro ⟨hm, hno⟩
      exact (hn.ended ht he).elim (fun hp => hwf.ended k t ht hp hm) hno
    · rw [show phase = .ended from he] at hph
      simp [openPhases] at hph
  refine ⟨fun tty hm => ?_, hlis, hnz, hended⟩
  rcases (h.mem tty).1 hm with ⟨hm, -⟩ | hc
  · obtain ⟨t, ht, ho⟩ := hwf.known tty hm
    obtain ⟨t', ht', hn⟩ := h.old _ t ht
    exact ⟨t', ht', hn.frame.1.trans ho⟩
  · obtain ⟨r, phase, -, ht'⟩ := h.created tty hc
    exact ⟨_, ht', rfl⟩

theorem init_wf (production : Bool) : (init production).WF :=
  ⟨fun tty h => absurd h (Registry.not_mem_empty tty), nofun, nofun, nofun⟩

theorem step_wf {s s' : Reactor} {a : Act} (hwf : s.WF) (h : s.step a = some s') : s'.WF := (stepped hwf h).wf hwf

theorem exec_wf {as : List Act} {s s' : Reactor} (hwf : s.WF) (h : Machine.exec step s as = some s') : s'.WF :=
  Machine.exec_inv (fun _ _ _ => step_wf) hwf h

/-- Terminals stay, under their owner. -/
theorem exec_ref {as : List Act} {s s' : Reactor} (hwf : s.WF) (h : Machine.exec step s as = some s') :
    ∀ k t, s.ttys.lookup k = some t → ∃ t', s'.ttys.lookup k = some t' ∧ ref k t' = ref k t := by
  refine Machine.exec_rel (I := WF) (R := fun s s' => ∀ k t, s.ttys.lookup k = some t →
    ∃ t', s'.ttys.lookup k = some t' ∧ ref k t' = ref k t) (fun s a s' => step_wf) (fun s k t ht => ⟨t, ht, rfl⟩)
    (fun s1 s2 s3 h h' k t ht => ?_) (fun s a s' hwf hst k t ht => ?_) hwf h
  · obtain ⟨u, hu, hr⟩ := h k t ht
    obtain ⟨v, hv, hr'⟩ := h' k u hu
    exact ⟨v, hv, hr'.trans hr⟩
  · obtain ⟨t', ht', hn⟩ := (stepped hwf hst).old k t ht
    exact ⟨t', ht', hn.ref_eq⟩

/-! ## What a run writes -/

/-- What a run writes to the queue of a terminal. -/
def writes (tty : Ref) : Reactor → List Act → List (Item String)
  | _, [] => []
  | s, a :: as =>
    match s.step a with
    | some s' => written s a tty ++ writes tty s' as
    | none => []

/-- The joined args of the input messages that a run handles for a terminal while it is registered and
before its first kill message, in order. -/
def inputs (tty : Ref) (s : Reactor) (as : List Act) : List String := Pipe.body (writes tty s as)

/-- The run handles a kill message for the terminal while it is registered. -/
def killed (tty : Ref) (s : Reactor) (as : List Act) : Bool := Pipe.closed (writes tty s as)

/-- Every terminal is sound for what `W` says was written to it, and nothing else was written to. -/
structure History (s : Reactor) (W : Ref → List (Item String)) : Prop where
  sound : ∀ k t, s.ttys.lookup k = some t → t.Sound (W (ref k t))
  other : ∀ tty, (∀ t, s.ttys.lookup tty.objectId = some t → t.owner ≠ tty.owner) → W tty = []

theorem init_history (production : Bool) : History (init production) fun _ => [] := ⟨nofun, fun _ _ => rfl⟩

theorem written_of_not_mem {s : Reactor} {a : Act} {tty : Ref} (h : tty ∉ s.terms) : written s a tty = [] := by
  unfold written
  split
  · split
    · rw [if_neg]; rintro ⟨rfl, hm⟩; exact h hm
    · rfl
  · rfl

theorem Next.sound {s : Reactor} {k : Int} {t t' : Tty} {a : Act} {w : List (Item String)} (h : Next s k t a t')
    (hs : t.Sound w) : t'.Sound (w ++ written s a (ref k t)) := by
  cases h with
  | same _ hw _ => rw [hw, List.append_nil]; exact hs
  | @write m ele ha hm =>
    have : written s (.incoming m) (ref k t) = [ele] := by simp [written, ha, hm]
    rw [this]; exact hs.push s.now ele
  | event h =>
    show t'.Sound (w ++ []); rw [List.append_nil]; exact hs.handles (SSH.Tty.handle_cases h)
  | @ends e t' h =>
    show t'.closedOnce.Sound (w ++ []); rw [List.append_nil]
    exact let h := hs.handles (SSH.Tty.handle_cases h); ⟨h.queue, h.calls, h.shell, h.attached, h.hungUp⟩
  | expires =>
    show t.closedOnce.Sound (w ++ []); rw [List.append_nil]
    exact ⟨hs.queue, hs.calls, hs.shell, hs.attached, hs.hungUp⟩

theorem Stepped.history {s s' : Reactor} {a : Act} {W : Ref → List (Item String)} (hwf : s.WF) (h : Stepped s a s')
    (hh : History s W) : History s' fun tty => W tty ++ written s a tty := by
  refine ⟨h.forall (fun k t t' ht hn => ?_) (fun tty r phase hc hph => ?_), fun tty hno => ?_⟩
  · rw [hn.ref_eq]; exact hn.sound (hh.sound k t ht)
  · have hnone := (h.fresh tty hc).2
    have hn : tty ∉ s.terms := fun hm => by
      obtain ⟨t, ht, -⟩ := hwf.known tty hm
      rw [hnone] at ht; cases ht
    have hW : W tty = [] := hh.other tty fun t ht => by rw [hnone] at ht; cases ht
    have href : ref tty.objectId (opened s tty.owner r phase) = tty := rfl
    rw [href, hW, written_of_not_mem hn]
    exact SSH.Tty.sound_new fun hp => by rw [hp] at hph; simp [openPhases] at hph
  -- a terminal that does not exist was not there to be written to
  · have hno' : ∀ t, s.ttys.lookup tty.objectId = some t → t.owner ≠ tty.owner := fun t ht ho => by
      obtain ⟨t', ht', hn⟩ := h.old _ t ht
      exact hno t' ht' (hn.frame.1.trans ho)
    have hn : tty ∉ s.terms := fun hm => by
      obtain ⟨t, ht, ho⟩ := hwf.known tty hm
      exact hno' t ht ho
    rw [hh.other tty hno', written_of_not_mem hn]; rfl

/-- Along a run, every terminal stays sound for what was written to it. -/
theorem exec_history : ∀ {as : List Act} {s s' : Reactor} {W : Ref → List (Item String)}, s.WF → History s W →
    Machine.exec step s as = some s' → s'.WF ∧ History s' fun tty => W tty ++ writes tty s as
  | [], s, s', W, hwf, hh, h => by
    cases h
    exact ⟨hwf, by simpa [writes] using hh⟩
  | a :: as, s, s', W, hwf, hh, h => by
    obtain ⟨u, hu, h⟩ := Machine.exec_cons.1 h
    have hst := stepped hwf hu
    obtain ⟨hwf', hh'⟩ := exec_history (hst.wf hwf) (hst.history hwf hh) h
    refine ⟨hwf', ?_⟩
    have heq (tty : Ref) : writes tty s (a :: as) = written s a tty ++ writes tty u as := by
      simp only [writes, hu]
    simpa only [heq, List.append_assoc] using hh'

end Reactor

end Tangle
