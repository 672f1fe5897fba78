/-
What becomes of input. In every run the strings sent on a terminal's channel are those of the input
messages handled for it while it was registered and before its first kill message, in order; once the
shell is open they are all of them. An input message that is accepted after a kill message, while the
terminal is still registered, is never sent.
-/
import Tangle.Tty.Step

namespace Tangle

open Pipe (Item)
open TTY (Ref opened)
open SSH (Tty Event Call)

namespace SSH.Tty

/-- The strings passed to `send_data`. -/
def sent (t : Tty) : List String := t.calls.filterMap fun | .sendData d => some d | .close => none

/-- What was sent, and what still waits in the queue with no end mark before it. -/
def stream (t : Tty) : List String := t.sent ++ t.write.pending

theorem Sound.sent {t : Tty} {w : List (Item String)} (h : t.Sound w) :
    t.sent = if t.write.closeCb then Pipe.body w else [] := by
  unfold Tty.sent
  rw [h.calls]
  unfold callsOf
  cases t.write.closeCb with
  | false => rfl
  | true =>
    have hmap : ∀ ds : List String, (ds.map Call.sendData).filterMap
        (fun | .sendData d => some d | .close => none) = ds := by
      intro ds
      rw [List.filterMap_map]
      exact List.filterMap_some
    rw [if_pos rfl, if_pos rfl, List.filterMap_append, hmap]
    split <;> simp

theorem Sound.stream {t : Tty} {w : List (Item String)} (h : t.Sound w) : t.stream = Pipe.body w := by
  obtain ⟨cbs, hq⟩ := h.queue
  unfold Tty.stream
  rw [h.sent]
  exact hq.pending

end SSH.Tty

namespace Reactor

/-! ## Which events have happened -/

/-- A mark that one event sets on its terminal, and nothing else sets or clears. -/
structure MarkedBy (flag : Tty → Bool) (e : Event) : Prop where
  next : ∀ s k t a t', Next s k t a t' → (flag t' = true ↔ flag t = true ∨ a = .ssh k e)
  new : ∀ s userId r phase, flag (opened s userId r phase) = false

theorem MarkedBy.after {flag : Tty → Bool} {e : Event} (hf : MarkedBy flag e) {s s' : Reactor} {a : Act} {k : Int}
    {t' : Tty} (hwf : s.WF) (h : s.step a = some s') (ht' : s'.ttys.lookup k = some t') :
    flag t' = true ↔ (∃ t, s.ttys.lookup k = some t ∧ flag t = true) ∨ a = .ssh k e := by
  have hst := stepped hwf h
  cases ht : s.ttys.lookup k with
  | some t =>
    obtain ⟨u, hu, hn⟩ := hst.old k t ht
    rw [ht'] at hu; cases hu
    simp [hf.next s k t a t' hn]
  | none =>
    have hna : a ≠ .ssh k e := by
      rintro rfl
      simp only [step, ssh, ht] at h; cases h
    have hfalse : flag t' = false := by
      refine hst.forall (Q := fun k' u => k' = k → flag u = false) (fun k' t u htk hn hk => ?_)
        (fun tty r phase _ _ _ => hf.new s tty.owner r phase) k t' ht' rfl
      subst hk; rw [ht] at htk; cases htk
    simp [hfalse, hna]

/-- A run has marked a terminal exactly when the event happened to it. -/
theorem MarkedBy.run {flag : Tty → Bool} {e : Event} (hf : MarkedBy flag e) {k : Int} :
    ∀ {as : List Act} {s s' : Reactor} {t' : Tty}, s.WF → Machine.exec step s as = some s' →
      s'.ttys.lookup k = some t' →
      (flag t' = true ↔ (∃ t, s.ttys.lookup k = some t ∧ flag t = true) ∨ .ssh k e ∈ as)
  | [], s, s', t', hwf, h, ht' => by
    cases h
    simp [ht']
  | a :: as, s, s', t', hwf, h, ht' => by
    obtain ⟨u, hu, h⟩ := Machine.exec_cons.1 h
    rw [MarkedBy.run hf (step_wf hwf hu) h ht', List.mem_cons]
    constructor
    · rintro (⟨t, ht, hft⟩ | hm)
      · exact ((hf.after hwf hu ht).1 hft).imp id fun he => .inl he.symm
      · exact .inr (.inr hm)
    · -- the terminal lives on
      have hlive : ∀ t, s.ttys.lookup k = some t → flag t = true ∨ a = .ssh k e →
          ∃ t1, u.ttys.lookup k = some t1 ∧ flag t1 = true := fun t ht hft => by
        obtain ⟨t1, ht1, hn⟩ := (stepped hwf hu).old k t ht
        exact ⟨t1, ht1, (hf.next s k t a t1 hn).2 hft⟩
      rintro (⟨t, ht, hft⟩ | he | hm)
      · exact .inl (hlive t ht (.inl hft))
      · cases ht : s.ttys.lookup k with
        | none => subst he; simp only [step, ssh, ht] at hu; cases hu
        | some t => exact .inl (hlive t ht (.inr he.symm))
      · exact .inr hm

theorem shell_marked : MarkedBy (fun t => t.write.closeCb) (.shell true) := by
  refine ⟨fun s k t a t' hn => ?_, fun s userId r phase => rfl⟩
  cases hn with
  | same _ _ hne => simp [hne]
  | write => rw [(SSH.Tty.push_frame _ _ t).2, Support.CloseableQueue.push_closeCb]; simp
  | event h | ends h => simpa [SSH.Tty.closedOnce] using (SSH.Tty.handle_cases h).closeCb
  | expires => simp [SSH.Tty.closedOnce]

theorem hangup_marked : MarkedBy (fun t => t.hungUp) .hangup := by
  refine ⟨fun s k t a t' hn => ?_, fun s userId r phase => rfl⟩
  cases hn with
  | same _ _ hne => simp [hne]
  | write => rw [(SSH.Tty.push_frame _ _ t).1.hungUp]; simp
  | event h | ends h => simpa [SSH.Tty.closedOnce] using (SSH.Tty.handle_cases h).hungUp
  | expires => simp [SSH.Tty.closedOnce]

/-! ## Input -/

/-- Input delivery is exact and isolated. `sent` is a prefix of the joined args of the input messages
that were handled for the terminal while it was registered and before its first kill message; once the
shell is open it is all of them, after which the channel is closed, once, if a kill message was handled
and the other side had not hung up, and nothing follows. -/
theorem input_delivery {production : Bool} {as : List Act} {s : Reactor} {k : Int} {t : Tty}
    (h : Machine.exec step (init production) as = some s) (ht : s.ttys.lookup k = some t) :
    t.sent <+: inputs (ref k t) (init production) as ∧
    (.ssh k (.shell true) ∈ as →
      t.sent = inputs (ref k t) (init production) as ∧
      (killed (ref k t) (init production) as = true ∧ .ssh k .hangup ∉ as →
        t.calls = t.sent.map Call.sendData ++ [.close]) ∧
      (killed (ref k t) (init production) as = false ∨ .ssh k .hangup ∈ as →
        t.calls = t.sent.map Call.sendData)) := by
  have hs := (exec_history (init_wf production) (init_history production) h).2.sound k t ht
  rw [List.nil_append] at hs
  have hshell := shell_marked.run (init_wf production) h ht
  have hhung := hangup_marked.run (init_wf production) h ht
  simp only [init, AList.lookup_empty, reduceCtorEq, false_and, exists_false, false_or] at hshell hhung
  unfold inputs killed
  constructor
  · rw [hs.sent]
    split
    · exact List.prefix_refl _
    · exact List.nil_prefix
  · intro hsh
    have hcb := hshell.2 hsh
    have hsent : t.sent = Pipe.body (writes (ref k t) (init production) as) := by rw [hs.sent, if_pos hcb]
    refine ⟨hsent, fun ⟨hcl, hno⟩ => ?_, fun hor => ?_⟩
    · have hh : t.hungUp = false := Bool.eq_false_iff.2 fun hh => hno (hhung.1 hh)
      rw [hsent, hs.calls]
      unfold SSH.Tty.callsOf
      simp [hcb, hcl, hh]
    · rw [hsent, hs.calls]
      unfold SSH.Tty.callsOf
      rcases hor with hcl | hh
      · simp [hcb, hcl]
      · simp [hcb, hhung.2 hh]

/-- A shell opens on a terminal of user `1` that was typed to before and is killed after. -/
def typedAndKilled : List Act :=
  [.create "1" { objectId := 8 }, .incoming (.input "1" 8 [.str "l", .str "s"]), .ssh 8 .callback,
    .ssh 8 (.channelOpen true), .ssh 8 (.pty true), .ssh 8 (.shell true), .incoming (.input "1" 8 [.str "pwd"]),
    .incoming (.kill "1" 8), .incoming (.input "1" 8 [.str "exit"])]

theorem input_delivery_typed : ∃ s t, Machine.exec step (init false) typedAndKilled = some s ∧
    s.ttys.lookup 8 = some t ∧ t.sent = ["ls", "pwd"] ∧ t.calls = t.sent.map Call.sendData ++ [.close] := by
  refine ⟨_, _, rfl, rfl, by decide, ?_⟩
  exact ((@input_delivery false typedAndKilled _ 8 _ rfl rfl).2 (by simp [typedAndKilled])).2.1
    ⟨by decide, by simp [typedAndKilled]⟩

/-! ## Accepted input -/

/-- An input message that passes without an error is sent, or still waits to be sent, at the place of
the stream where it was handled, in every continuation of the run, exactly when no kill message had
been handled for its terminal before. -/
theorem accepted_input_kept_iff {production : Bool} {as bs : List Act} {s s' : Reactor} {m : Message} {tty : Ref}
    {text : String} {t t' : Tty} (h : Machine.exec step (init production) as = some s)
    (ht : s.ttys.lookup tty.objectId = some t) (ha : m.addressed = some (tty, .data text)) (hm : m.error = none)
    (hok : (Extension.incoming s m).message.error = none)
    (h' : Machine.exec step s (.incoming m :: bs) = some s') (ht' : s'.ttys.lookup tty.objectId = some t') :
    t'.stream[t.stream.length]? = some text ↔ killed tty (init production) as = false := by
  have hreg := (incoming_error_none ha hm).1 hok
  obtain ⟨hwf, hh⟩ := exec_history (init_wf production) (init_history production) h
  have hh' := (exec_history hwf hh h').2
  obtain ⟨u, hu, ho⟩ := hwf.known tty hreg
  rw [ht] at hu; cases hu
  have href : ref tty.objectId t = tty := by unfold ref; rw [ho]
  -- the terminal is the same one later
  have href' : ref tty.objectId t' = tty := by
    obtain ⟨u, hu, hr⟩ := exec_ref hwf h' _ t ht
    rw [ht'] at hu; cases hu
    rw [hr, href]
  have hs := hh.sound _ t ht
  have hs' := hh'.sound _ t' ht'
  rw [href] at hs
  rw [href'] at hs'
  obtain ⟨s1, hs1, -⟩ := Machine.exec_cons.1 h'
  -- what was written before, then this text, then the rest
  have hw : writes tty s (.incoming m :: bs) = .data text :: writes tty s1 bs := by
    simp [writes, hs1, written, ha, hreg]
  rw [hw] at hs'
  rw [hs.stream, hs'.stream]
  simp only [List.nil_append]
  unfold killed
  cases hcl : Pipe.closed (writes tty (init production) as) with
  | true => rw [Pipe.body_append_closed hcl]; simp
  | false => rw [Pipe.body_append_open hcl]; simp

/-- A terminal that has just been created. -/
def created : List Act := [.create "1" { objectId := 8 }]

theorem accepted_input_kept_ls : ∃ s s' t t', Machine.exec step (init false) created = some s ∧
    s.ttys.lookup 8 = some t ∧ Machine.exec step s [.incoming (.input "1" 8 [.str "ls"]), .ssh 8 .callback] = some s' ∧
    s'.ttys.lookup 8 = some t' ∧ t'.stream[t.stream.length]? = some "ls" := by
  refine ⟨_, _, _, _, rfl, rfl, rfl, rfl, ?_⟩
  exact (@accepted_input_kept_iff false created [.ssh 8 .callback] _ _ (.input "1" 8 [.str "ls"]) ⟨"1", 8⟩ "ls" _ _
    rfl rfl rfl rfl rfl rfl rfl).2 (by decide)

/-- After a kill message the terminal is still registered, so the input passes, and it is lost. -/
theorem accepted_input_lost : ∃ s s' t t',
    Machine.exec step (init false) (created ++ [.incoming (.kill "1" 8)]) = some s ∧
    s.ttys.lookup 8 = some t ∧ (Message.input "1" 8 [.str "ls"]).addressed = some (⟨"1", 8⟩, .data "ls") ∧
    (Extension.incoming s (.input "1" 8 [.str "ls"])).message.error = none ∧
    Machine.exec step s [.incoming (.input "1" 8 [.str "ls"])] = some s' ∧ s'.ttys.lookup 8 = some t' ∧
    t'.stream[t.stream.length]? ≠ some "ls" := by
  refine ⟨_, _, _, _, rfl, rfl, rfl, rfl, rfl, rfl, by decide⟩

end Reactor

end Tangle
