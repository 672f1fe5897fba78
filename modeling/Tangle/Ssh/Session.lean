/-
The life of one terminal. What a write, the opening of the shell and every event of em-ssh do to it is
said once; from that follows how the phase, the queue and the calls made on the channel hang together
at any time, whatever was written to the terminal and whatever em-ssh reported.
-/
import Tangle.Ssh.Base

namespace Tangle.SSH.Tty

open Support (CloseableQueue Callback)
open Pipe (Item)

/-! ## The callbacks -/

/-- What the callbacks of the write queue leave as it is. -/
structure Frame (t t' : Tty) : Prop where
  owner : t'.owner = t.owner
  listeners : t'.listeners = t.listeners
  retries : t'.retries = t.retries
  hungUp : t'.hungUp = t.hungUp
  closes : t'.closes = t.closes

theorem Frame.refl (t : Tty) : Frame t t := ⟨rfl, rfl, rfl, rfl, rfl⟩

theorem Frame.trans {t t1 t2 : Tty} (h : Frame t t1) (h' : Frame t1 t2) : Frame t t2 :=
  ⟨h'.owner.trans h.owner, h'.listeners.trans h.listeners, h'.retries.trans h.retries, h'.hungUp.trans h.hungUp,
    h'.closes.trans h.closes⟩

theorem runCallback_frame (now : Nat) (t : Tty) (cb : Callback String) :
    Frame t (runCallback now t cb) ∧ (runCallback now t cb).write = t.write := by
  unfold runCallback
  cases cb with
  | data d => exact ⟨⟨rfl, rfl, rfl, rfl, rfl⟩, rfl⟩
  | close =>
    cases t.active with
    | true => exact ⟨⟨rfl, rfl, rfl, rfl, rfl⟩, rfl⟩
    | false => exact ⟨Frame.refl t, rfl⟩

theorem foldl_frame (now : Nat) : ∀ (cbs : List (Callback String)) (t : Tty),
    Frame t (cbs.foldl (runCallback now) t) ∧ (cbs.foldl (runCallback now) t).write = t.write
  | [], t => ⟨Frame.refl t, rfl⟩
  | cb :: cbs, t => by
    obtain ⟨hf, hw⟩ := runCallback_frame now t cb
    obtain ⟨hf', hw'⟩ := foldl_frame now cbs (runCallback now t cb)
    exact ⟨hf.trans hf', hw'.trans hw⟩

/-- The data callback sends, and changes nothing else on the channel. -/
theorem foldl_data (now : Nat) : ∀ (ds : List String) (t : Tty),
    ((ds.map Callback.data).foldl (runCallback now) t).calls = t.calls ++ ds.map Call.sendData ∧
    ((ds.map Callback.data).foldl (runCallback now) t).phase = t.phase
  | [], t => by simp
  | d :: ds, t => by
    obtain ⟨hc, hp⟩ := foldl_data now ds (runCallback now t (.data d))
    rw [List.map_cons, List.foldl_cons, hc, hp]
    simp [runCallback]

/-- The close callback closes an active channel; otherwise the phase stays. -/
theorem foldl_phase (now : Nat) : ∀ (cbs : List (Callback String)) (t : Tty),
    (cbs.foldl (runCallback now) t).phase = t.phase ∨
    (t.active = true ∧ (cbs.foldl (runCallback now) t).phase = .session .closed)
  | [], t => .inl rfl
  | .data d :: cbs, t => foldl_phase now cbs (runCallback now t (.data d))
  | .close :: cbs, t => by
    rw [List.foldl_cons]
    cases ha : t.active with
    | false =>
      have hr : runCallback now t .close = t := by unfold runCallback; rw [ha]; rfl
      rw [hr, ← ha]; exact foldl_phase now cbs t
    | true =>
      have hr : (runCallback now t .close).phase = .session .closed := by unfold runCallback; rw [ha]; rfl
      rcases foldl_phase now cbs (runCallback now t .close) with hp | ⟨-, hp⟩
      · exact .inr ⟨rfl, hp.trans hr⟩
      · exact .inr ⟨rfl, hp⟩

theorem push_frame (now : Nat) (ele : Item String) (t : Tty) :
    Frame t (t.push now ele) ∧ (t.push now ele).write = (t.write.push ele).2 :=
  let h := foldl_frame now (t.write.push ele).1 { t with write := (t.write.push ele).2 }
  ⟨⟨h.1.owner, h.1.listeners, h.1.retries, h.1.hungUp, h.1.closes⟩, h.2⟩

theorem setWriteCallbacks_frame (now : Nat) (t : Tty) :
    Frame t (t.setWriteCallbacks now) ∧ (t.setWriteCallbacks now).write = t.write.onClose.onData.2 :=
  let h := foldl_frame now t.write.onClose.onData.1 { t with write := t.write.onClose.onData.2 }
  ⟨⟨h.1.owner, h.1.listeners, h.1.retries, h.1.hungUp, h.1.closes⟩, h.2⟩

/-! ## Events -/

/-- The events that move the phase on and touch nothing else but the retries. -/
inductive Moves : Phase → Event → Phase → Effect → Prop
  | launchFailed {err start} : Moves .launching (.launched (some err) start) .idle .nothing
  | launched {start} : Moves .launching (.launched none start) (started start (.ensuring true)) .nothing
  | retry {block restart} : Moves (.ensuring block) (.errback restart) (started restart (.ensuring false)) .nothing
  | exhausted {block restart} : Moves (.ensuring block) (.errback restart) .ended .close
  | ubuntu {block} : Moves (.ensuring block) .callback (.provisioning block) .nothing
  | provisioned {start} : Moves (.provisioning true) (.provisioned start) (started start .connecting) .nothing
  | noBlock {start} : Moves (.provisioning false) (.provisioned start) .ended .close
  | failed {restart} : Moves .connecting (.errback restart) .ended .close
  | connected : Moves .connecting .callback (.session .opening) .nothing
  | channel {ok} : Moves (.session .opening) (.channelOpen ok)
      (.session (if ok then .ptyRequested else .openFailed)) .nothing
  | pty {ok} : Moves (.session .ptyRequested) (.pty ok) (.session (if ok then .shellRequested else .ptyDenied)) .nothing
  | noShell : Moves (.session .shellRequested) (.shell false) (.session .shellDenied) .nothing
  | finished : Moves (.session .closed) .waitReturns .ended .close

/-- What one event does to a terminal. -/
inductive Handles (now : Nat) (t : Tty) : Event → Tty → Effect → Prop
  | moves {e phase eff} (retries : Nat) : Moves t.phase e phase eff → Handles now t e { t with retries, phase } eff
  | shell : t.phase = .session .shellRequested →
      Handles now t (.shell true) (setWriteCallbacks now { t with phase := .session .shell }) .nothing
  | data {d} : t.active = true → Handles now t (.data d) t (.publish d)
  | hangup : t.active = true → Handles now t .hangup { t with phase := .session .closed, hungUp := true } .nothing

theorem handles_moves {now : Nat} {t : Tty} {e : Event} {p phase : Phase} {eff : Effect} (hp : t.phase = p)
    (retries : Nat) (h : Moves p e phase eff) : Handles now t e { t with retries, phase } eff :=
  .moves retries (by rw [hp]; exact h)

theorem active_session {t : Tty} {ch : Channel} (h : t.phase = .session ch) : t.active = ch.active := by
  unfold active; rw [h]

theorem handle_cases {now : Nat} {t t' : Tty} {e : Event} {eff : Effect} (h : t.handle now e = some (t', eff)) :
    Handles now t e t' eff := by
  unfold handle at h
  split at h
  · rename_i hp; cases h; exact handles_moves hp t.retries .launchFailed
  · rename_i hp; cases h; exact handles_moves hp (t.retries + 2) .launched
  · rename_i hp
    split at h
    · cases h; exact handles_moves hp (t.retries - 1) .retry
    · cases h; exact handles_moves hp t.retries .exhausted
  · rename_i hp; cases h; exact handles_moves hp t.retries .ubuntu
  · rename_i hp
    split at h
    · rename_i hb; subst hb; cases h; exact handles_moves hp t.retries .provisioned
    · rename_i hb; obtain rfl := Bool.eq_false_iff.2 hb; cases h; exact handles_moves hp t.retries .noBlock
  · rename_i hp; cases h; exact handles_moves hp t.retries .failed
  · rename_i hp; cases h; exact handles_moves hp t.retries .connected
  · rename_i hp; cases h; exact handles_moves hp t.retries .channel
  · rename_i hp; cases h; exact handles_moves hp t.retries .pty
  · rename_i hp
    split at h
    · rename_i hs; subst hs; cases h; exact .shell hp
    · rename_i hs; obtain rfl := Bool.eq_false_iff.2 hs; cases h; exact handles_moves hp t.retries .noShell
  · rename_i hp
    split at h
    · rename_i ha; cases h; exact .data (by rw [active_session hp]; exact ha)
    · cases h
  · rename_i hp
    split at h
    · rename_i ha; cases h; exact .hangup (by rw [active_session hp]; exact ha)
    · cases h
  · rename_i hp; cases h; exact handles_moves hp t.retries .finished
  · cases h

/-- An event leaves the owner, the listeners and what was closed before as they are. -/
theorem Handles.frame {now : Nat} {t t' : Tty} {e : Event} {eff : Effect} (h : Handles now t e t' eff) :
    t'.owner = t.owner ∧ t'.listeners = t.listeners ∧ t'.closes = t.closes := by
  cases h with
  | moves | data | hangup => exact ⟨rfl, rfl, rfl⟩
  | shell => exact let h := (setWriteCallbacks_frame now { t with phase := .session .shell }).1
             ⟨h.owner, h.listeners, h.closes⟩

theorem push_phase (now : Nat) (ele : Item String) (t : Tty) :
    (t.push now ele).phase = t.phase ∨ (t.active = true ∧ (t.push now ele).phase = .session .closed) :=
  foldl_phase now (t.write.push ele).1 { t with write := (t.write.push ele).2 }

theorem setWriteCallbacks_phase (now : Nat) (t : Tty) :
    (t.setWriteCallbacks now).phase = t.phase ∨
      (t.active = true ∧ (t.setWriteCallbacks now).phase = .session .closed) :=
  foldl_phase now t.write.onClose.onData.1 { t with write := t.write.onClose.onData.2 }

/-- What a move can start from and lead to. -/
theorem Moves.phases {p p' : Phase} {e : Event} {eff : Effect} (h : Moves p e p' eff) :
    (p ≠ .idle ∧ p ≠ .ended ∧ p ≠ .session .shell) ∧ (p' ≠ .session .shell ∧ p' ≠ .session .closed) ∧
    (p = .session .closed → p' = .ended) ∧ (eff = .close ↔ p' = .ended) := by
  cases h with
  | launched | retry | provisioned => rename_i start; cases start <;> simp [started]
  | channel | pty => rename_i ok; cases ok <;> simp
  | launchFailed | exhausted | ubuntu | noBlock | failed | connected | noShell | finished => simp

/-- Moves are neither the opening of the shell nor a hang-up. -/
theorem Moves.ne {p p' : Phase} {e : Event} {eff : Effect} (h : Moves p e p' eff) : e ≠ .shell true ∧ e ≠ .hangup := by
  cases h <;> exact ⟨nofun, nofun⟩

/-- The consumer is registered by the opening of the shell alone. -/
theorem Handles.closeCb {now : Nat} {t t' : Tty} {e : Event} {eff : Effect} (h : Handles now t e t' eff) :
    t'.write.closeCb = true ↔ t.write.closeCb = true ∨ e = .shell true := by
  cases h with
  | moves _ hm => simp [hm.ne.1]
  | shell =>
    rw [(setWriteCallbacks_frame now _).2]
    simp [CloseableQueue.onData, CloseableQueue.pop_closeCb, CloseableQueue.onClose]
  | data | hangup => simp

theorem Handles.hungUp {now : Nat} {t t' : Tty} {e : Event} {eff : Effect} (h : Handles now t e t' eff) :
    t'.hungUp = true ↔ t.hungUp = true ∨ e = .hangup := by
  cases h with
  | moves _ hm => simp [hm.ne.2]
  | shell => rw [(setWriteCallbacks_frame now _).1.hungUp]; simp
  | data | hangup => simp

/-- A terminal is done exactly when the handler calls `close`. -/
theorem Handles.close_iff {now : Nat} {t t' : Tty} {e : Event} {eff : Effect} (h : Handles now t e t' eff) :
    eff = .close ↔ t'.phase = .ended := by
  cases h with
  | moves _ hm => exact hm.phases.2.2.2
  | shell hp =>
    rcases setWriteCallbacks_phase now { t with phase := .session .shell } with h | ⟨-, h⟩ <;> simp [h]
  | data ha =>
    refine ⟨nofun, fun hp => ?_⟩
    unfold active at ha; rw [hp] at ha; cases ha
  | hangup => simp

/-! ## What was written, what was sent -/

/-- The calls made on the channel once `w` has been written. -/
def callsOf (t : Tty) (w : List (Item String)) : List Call :=
  if t.write.closeCb then
    (Pipe.body w).map .sendData ++ if Pipe.closed w && !t.hungUp then [.close] else []
  else []

/-- How the phase, the queue and the calls hang together in a terminal to which `w` was written. -/
structure Sound (t : Tty) (w : List (Item String)) : Prop where
  queue : ∃ cbs, t.write.Refines cbs ⟨w, t.write.closeCb⟩
  calls : t.calls = callsOf t w
  shell : t.phase = .session .shell → t.write.closeCb = true
  attached : t.write.closeCb = true →
    (t.phase = .session .shell ∧ Pipe.closed w = false ∧ t.hungUp = false) ∨
    ((t.phase = .session .closed ∨ t.phase = .ended) ∧ (Pipe.closed w = true ∨ t.hungUp = true))
  hungUp : t.hungUp = true → t.phase = .session .closed ∨ t.phase = .ended

theorem sound_new {owner : String} {now retries : Nat} {listeners : List Listener} {phase : Phase}
    (h : phase ≠ .session .shell) : Sound { new owner now with listeners, retries, phase } [] :=
  ⟨⟨[], CloseableQueue.refines_new⟩, rfl, fun hp => absurd hp h,
    fun hc => absurd hc Bool.false_ne_true, fun hh => absurd hh Bool.false_ne_true⟩

/-- A write that reaches no consumer just waits. -/
theorem push_quiet {t : Tty} {ele : Item String} (h : (t.write.push ele).1 = []) (now : Nat) :
    t.push now ele = { t with write := (t.write.push ele).2 } := by
  unfold push; simp only [h, List.foldl_nil]

theorem Sound.push {t : Tty} {w : List (Item String)} (h : Sound t w) (now : Nat) (ele : Item String) :
    Sound (t.push now ele) (w ++ [ele]) := by
  obtain ⟨cbs, hq⟩ := h.queue
  have hcbs := hq.push_callbacks ele
  have hq' := hq.push ele
  obtain ⟨hf, hw⟩ := push_frame now ele t
  have hcc : (t.push now ele).write.closeCb = t.write.closeCb := by rw [hw]; exact hq'.closeCb
  have hqueue : ∃ cbs, (t.push now ele).write.Refines cbs ⟨w ++ [ele], (t.push now ele).write.closeCb⟩ := by
    rw [hcc, hw]; exact ⟨_, hq'⟩
  cases hc : t.write.closeCb && !Pipe.closed w with
  | false =>
    -- no shell yet, or the consumer has stopped
    rw [hc] at hcbs
    rw [push_quiet hcbs] at hqueue hcc ⊢
    have hb : Pipe.closed w = true ∨ t.write.closeCb = false := by
      revert hc; cases Pipe.closed w <;> cases t.write.closeCb <;> simp
    refine ⟨hqueue, ?_, fun hp => hcc.trans (h.shell hp), fun hr => ?_, h.hungUp⟩
    · refine h.calls.trans ?_
      unfold callsOf
      rw [hcc]
      rcases hb with hb | hb
      · simp only [Pipe.body_append_closed hb, Pipe.closed_append, hb, Bool.true_or]
      · rw [hb]; rfl
    · rcases h.attached (hcc.symm.trans hr) with ⟨hp, hcl, hh⟩ | ⟨hp, hcl⟩
      · rw [hcc.symm.trans hr, hcl] at hc; cases hc
      · exact .inr ⟨hp, hcl.imp (fun hcl => by rw [Pipe.closed_append, hcl]; rfl) id⟩
  | true =>
    obtain ⟨hr, hcl⟩ := (Bool.and_eq_true _ _).mp hc |>.imp id (by simpa using ·)
    rw [hc] at hcbs
    have hcalls : t.calls = (Pipe.body w).map .sendData := by
      rw [h.calls]; unfold callsOf; rw [hr, hcl]; simp
    cases ele with
    | data d =>
      have hp' : (t.push now (.data d)).phase = t.phase := by unfold Tty.push; simp only [hcbs]; rfl
      have hc' : (t.push now (.data d)).calls = t.calls ++ [.sendData d] := by
        unfold Tty.push; simp only [hcbs]; rfl
      have hcl' : Pipe.closed (w ++ [.data d]) = false := by simp [Pipe.closed_append, hcl]
      refine ⟨hqueue, ?_, fun _ => hcc.trans hr, fun _ => ?_, fun hh => by rw [hp']; exact h.hungUp (hf.hungUp ▸ hh)⟩
      · rw [hc', hcalls]
        unfold callsOf
        rw [hcc, hr, hcl', Pipe.body_append_open hcl]
        simp
      · rw [hp', hcl', hf.hungUp]
        simpa [hcl] using h.attached hr
    | eof =>
      have hcl' : Pipe.closed (w ++ [.eof]) = true := by simp [Pipe.closed_append, hcl]
      have hbody : Pipe.body (w ++ [.eof]) = Pipe.body w := by simp [Pipe.body_append_open hcl]
      have hgoal : ((t.push now .eof).phase = .session .closed ∨ (t.push now .eof).phase = .ended) ∧
          (t.push now .eof).calls = t.calls ++ if !t.hungUp then [.close] else [] := by
        unfold Tty.push
        simp only [hcbs]
        rcases h.attached hr with ⟨hp, -, hh⟩ | ⟨hp, hcl2⟩
        · -- the callback closes the open channel
          simp [runCallback, active, hp, Channel.active, hh]
        · have hh : t.hungUp = true := hcl2.resolve_left (by rw [hcl]; simp)
          rcases hp with hp | hp <;> simp [runCallback, active, hp, Channel.active, hh]
      refine ⟨hqueue, ?_, fun _ => hcc.trans hr, fun _ => .inr ⟨hgoal.1, .inl hcl'⟩, fun _ => hgoal.1⟩
      rw [hgoal.2, hcalls]
      unfold callsOf
      rw [hcc, hr, hcl', hbody, hf.hungUp]
      simp

/-- The shell opens: the backlog is sent, and the end mark in it closes the channel. -/
theorem Sound.setWriteCallbacks {t : Tty} {w : List (Item String)} (h : Sound t w)
    (hp : t.phase = .session .shellRequested) (now : Nat) :
    Sound (Tty.setWriteCallbacks now { t with phase := .session .shell }) w := by
  -- no shell was opened before, and nobody has hung up
  have hr : t.write.closeCb = false := by
    cases hr : t.write.closeCb with
    | false => rfl
    | true => rcases h.attached hr with ⟨hp', -⟩ | ⟨hp' | hp', -⟩ <;> rw [hp] at hp' <;> cases hp'
  have hh : t.hungUp = false := by
    cases hh : t.hungUp with
    | false => rfl
    | true => rcases h.hungUp hh with hp' | hp' <;> rw [hp] at hp' <;> cases hp'
  obtain ⟨cbs, hq⟩ := h.queue
  rw [hr] at hq
  have hcbs := hq.onData_callbacks rfl
  have hq' := hq.onData rfl
  obtain ⟨hf, hw⟩ := setWriteCallbacks_frame now { t with phase := .session .shell }
  have hcc : (Tty.setWriteCallbacks now { t with phase := .session .shell }).write.closeCb = true := by
    rw [hw]; exact hq'.closeCb
  have hcalls : t.calls = [] := by rw [h.calls]; unfold callsOf; rw [hr]; rfl
  have hgoal : (Tty.setWriteCallbacks now { t with phase := .session .shell }).calls =
        t.calls ++ (Pipe.body w).map .sendData ++ (if Pipe.closed w then [.close] else []) ∧
      (Tty.setWriteCallbacks now { t with phase := .session .shell }).phase =
        .session (if Pipe.closed w then .closed else .shell) := by
    unfold Tty.setWriteCallbacks
    simp only [hcbs, List.foldl_append]
    obtain ⟨hc, hph⟩ := foldl_data now (Pipe.body w)
      { t with phase := .session .shell, write := t.write.onClose.onData.2 }
    cases hcl : Pipe.closed w with
    | false => simp [hc, hph]
    | true => simp [runCallback, active, hph, Channel.active, hc]
  refine ⟨⟨_, by rw [hcc, hw]; exact hq'⟩, ?_, fun _ => hcc, fun _ => ?_, fun h' => ?_⟩
  · rw [hgoal.1]
    unfold callsOf
    rw [hcc, hf.hungUp, hh, hcalls]
    simp
  · rw [hgoal.2, hf.hungUp, hh]
    cases Pipe.closed w <;> simp
  · rw [hf.hungUp, hh] at h'; cases h'

/-- Whatever em-ssh reports. -/
theorem Sound.handles {now : Nat} {t t' : Tty} {e : Event} {eff : Effect} {w : List (Item String)} (h : Sound t w)
    (hh : Handles now t e t' eff) : Sound t' w := by
  cases hh with
  | moves retries hm =>
    obtain ⟨⟨-, hne, hns⟩, ⟨hns', -⟩, hend, -⟩ := hm.phases
    refine ⟨h.queue, h.calls, fun hp => absurd hp hns', fun hr => ?_, fun hu => ?_⟩
    · rcases h.attached hr with ⟨hp, -⟩ | ⟨hp, hcl⟩
      · exact absurd hp hns
      · exact .inr ⟨.inr (hend (hp.resolve_right hne)), hcl⟩
    · exact .inr (hend ((h.hungUp hu).resolve_right hne))
  | shell hp => exact h.setWriteCallbacks hp now
  | data => exact h
  | hangup ha =>
    have hno : t.hungUp = false := by
      cases hu : t.hungUp with
      | false => rfl
      | true => rcases h.hungUp hu with hp | hp <;> simp [active, hp, Channel.active] at ha
    refine ⟨h.queue, ?_, (nomatch ·), fun hr => .inr ⟨.inl rfl, .inr rfl⟩, fun _ => .inl rfl⟩
    refine h.calls.trans ?_
    unfold callsOf
    cases hr : t.write.closeCb with
    | false => rfl
    | true =>
      rcases h.attached hr with ⟨-, hcl, -⟩ | ⟨hp | hp, -⟩
      · simp [hcl]
      · simp [active, hp, Channel.active] at ha
      · simp [active, hp] at ha

end Tangle.SSH.Tty
