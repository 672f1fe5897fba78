/-
`CloseableQueue` with callbacks that use the queue themselves. While a callback runs it may push and
close like anybody else; what is on the way then is a stack of calls that have not returned. Whenever
nothing is on the way the queue stands for the same pipe as the one whose callbacks do nothing, so
everything pushed before the first close has been handed over, in order, and the close callback after
it; and from every state the callbacks need only return for that to be reached.
-/
import Tangle.Lib.Machine
import Tangle.Support.CloseableQueue

namespace Tangle.Support

open Pipe (Item)

/-- A call that has not returned. -/
inductive Frame
  /-- The `on_data` callback, called by the proxy; `pop(&proxy)` follows. -/
  | data
  /-- The `on_close` callback. -/
  | close
  /-- `push`, in its loop `until @items.empty? || @popq.empty?`. -/
  | push
  deriving DecidableEq, Repr

/-- `@items`, how often the proxy waits in `@popq`, whether `@close_cb` is set and `on_data` was called,
and the calls on the way, innermost first. The last two fields record the callbacks that were invoked
and everything that was pushed. -/
structure Reentrant (α : Type) where
  items : List (Item α)
  popq : Nat
  closeCb : Bool
  consuming : Bool
  stack : List Frame
  called : List (Callback α)
  pushed : List (Item α)
  deriving DecidableEq

namespace Reentrant

variable {α : Type}

def new : Reentrant α :=
  { items := [], popq := 0, closeCb := false, consuming := false, stack := [], called := [], pushed := [] }

/-- `proxy.call ele`, up to where a callback runs. -/
def callProxy (ele : Item α) (s : Reentrant α) : Reentrant α :=
  match ele with
  | .eof => if s.closeCb then { s with stack := .close :: s.stack, called := s.called ++ [.close] } else s
  | .data a => { s with stack := .data :: s.stack, called := s.called ++ [.data a] }

/-- `pop(&proxy)`. -/
def pop (s : Reentrant α) : Reentrant α :=
  match s.items with
  | [] => { s with popq := s.popq + 1 }
  | ele :: items => callProxy ele { s with items }

/-- `push`, up to its loop. -/
def push (ele : Item α) (s : Reentrant α) : Reentrant α :=
  { s with items := s.items ++ [ele], pushed := s.pushed ++ [ele], stack := .push :: s.stack }

/-- The test of the loop of `push`, and one round of it, with `stack` below. -/
def loop (stack : List Frame) (s : Reentrant α) : Reentrant α :=
  match s.items, s.popq with
  | ele :: items, popq + 1 => callProxy ele { s with items, popq }
  | _, _ => { s with stack }

inductive Act (α : Type)
  | push (a : α)
  | close
  | onClose
  | onData
  /-- The callback that runs returns. -/
  | ret
  /-- `push` goes on. -/
  | loop
  deriving DecidableEq

/-- Whoever is running acts: the callback on top of the stack, or, when nothing is on the way, anybody.
Each callback is registered once, `on_close` first. -/
def step (s : Reentrant α) (act : Act α) : Option (Reentrant α) :=
  match s.stack, act with
  | .push :: stack, .loop => some (s.loop stack)
  | .push :: _, _ => none
  | _, .push a => some (s.push (.data a))
  | _, .close => some (s.push .eof)
  | _, .onClose => if s.closeCb then none else some { s with closeCb := true }
  | _, .onData => if s.closeCb && !s.consuming then some { s with consuming := true }.pop else none
  | .data :: stack, .ret => some { s with stack }.pop
  | .close :: stack, .ret => some { s with stack }
  | [], .ret => none
  | _, .loop => none

/-! ## What hangs together -/

/-- The calls below or above a callback: at most the `push` that led there. -/
def Shallow (stack : List Frame) : Prop := stack = [] ∨ stack = [.push]

/-- The consumer is not registered, waits, runs the data callback, or has met the end mark; `d` is what
it was handed. -/
inductive Sound (s : Reentrant α) : Prop
  | detached : s.consuming = false → s.items = s.pushed → s.called = [] → s.popq = 0 → Shallow s.stack → Sound s
  | waiting (d : List α) : s.consuming = true → s.closeCb = true → s.pushed = d.map .data ++ s.items →
      s.called = d.map .data → s.popq = 1 → (s.stack = [] ∧ s.items = []) ∨ s.stack = [.push] → Sound s
  | running (d : List α) (above below : List Frame) : s.consuming = true → s.closeCb = true →
      s.pushed = d.map .data ++ s.items → s.called = d.map .data → s.popq = 0 →
      s.stack = above ++ .data :: below → Shallow above → Shallow below → Sound s
  | ended (d : List α) : s.consuming = true → s.closeCb = true → s.pushed = d.map .data ++ .eof :: s.items →
      s.called = d.map .data ++ [.close] → s.popq = 0 →
      Shallow s.stack ∨ (∃ above below, s.stack = above ++ .close :: below ∧ Shallow above ∧ Shallow below) → Sound s

theorem new_sound : Sound (new : Reentrant α) := .detached rfl rfl rfl rfl (.inl rfl)

section Consumer

variable {s : Reentrant α} {d : List α}

/-- The consumer takes an item off the queue. -/
theorem sound_callProxy {ele : Item α} (hc : s.consuming = true) (hcb : s.closeCb = true)
    (hp : s.pushed = d.map .data ++ ele :: s.items) (hd : s.called = d.map .data) (hq : s.popq = 0)
    (hst : Shallow s.stack) : Sound (callProxy ele s) := by
  unfold callProxy
  cases ele with
  | data a =>
    refine .running (d ++ [a]) [] s.stack hc hcb ?_ ?_ hq rfl (.inl rfl) hst
    · rw [hp]; simp
    · simp [hd]
  | eof =>
    simp only
    rw [if_pos hcb]
    exact .ended d hc hcb hp (by rw [hd]) hq (.inr ⟨[], s.stack, rfl, .inl rfl, hst⟩)

/-- The consumer asks for the next item. -/
theorem sound_pop (hc : s.consuming = true) (hcb : s.closeCb = true) (hp : s.pushed = d.map .data ++ s.items)
    (hd : s.called = d.map .data) (hq : s.popq = 0) (hst : Shallow s.stack) : Sound s.pop := by
  unfold pop
  cases hi : s.items with
  | nil =>
    have hp : s.pushed = d.map .data ++ [] := by rw [hp, hi]
    refine .waiting d hc hcb hp hd (congrArg (· + 1) hq) ?_
    rcases hst with h | h
    · exact .inl ⟨h, rfl⟩
    · exact .inr h
  | cons ele items => exact sound_callProxy hc hcb (hi ▸ hp) hd hq hst

end Consumer

/-- The top of the stack is not a `push`. -/
theorem Shallow.user {stack : List Frame} (h : Shallow stack) (hu : stack.head? ≠ some .push) : stack = [] := by
  rcases h with h | h
  · exact h
  · rw [h] at hu; exact absurd rfl hu

/-- Whoever is running pushes. -/
theorem Sound.push {s : Reentrant α} (h : Sound s) (hu : s.stack.head? ≠ some .push) (ele : Item α) :
    Sound (s.push ele) := by
  cases h with
  | detached hc hi hd hq hst =>
    have hst := hst.user hu
    exact .detached hc (by simp [Reentrant.push, hi]) hd hq (.inr (by simp [Reentrant.push, hst]))
  | waiting d hc hcb hp hd hq hst =>
    have hst := hst.resolve_right fun h => hu (by rw [h]; rfl)
    exact .waiting d hc hcb (by simp [Reentrant.push, hp]) hd hq (.inr (by simp [Reentrant.push, hst.1]))
  | running d above below hc hcb hp hd hq hst ha hb =>
    rcases ha with rfl | rfl
    · exact .running d [.push] below hc hcb (by simp [Reentrant.push, hp]) hd hq
        (by simp [Reentrant.push, hst]) (.inr rfl) hb
    · rw [hst] at hu; exact absurd rfl hu
  | ended d hc hcb hp hd hq hst =>
    refine .ended d hc hcb (by simp [Reentrant.push, hp]) hd hq ?_
    rcases hst with hst | ⟨above, below, hst, ha, hb⟩
    · have hst := hst.user hu
      exact .inl (.inr (by simp [Reentrant.push, hst]))
    · rcases ha with rfl | rfl
      · exact .inr ⟨[.push], below, by simp [Reentrant.push, hst], .inr rfl, hb⟩
      · rw [hst] at hu; exact absurd rfl hu

/-- `push` tests its loop. -/
theorem Sound.loop {s : Reentrant α} {stack : List Frame} (h : Sound s) (hs : s.stack = .push :: stack) :
    Sound (s.loop stack) := by
  have hidle (hq : s.popq = 0) : s.loop stack = { s with stack } := by
    unfold Reentrant.loop; rw [hq]
    split <;> first | rfl | contradiction
  have htop {above below : List Frame} {f : Frame} (hf : f ≠ .push) (hst : s.stack = above ++ f :: below)
      (ha : Shallow above) :
      stack = f :: below := by
    rcases ha with rfl | rfl
    · rw [hs] at hst; cases hst; exact absurd rfl hf
    · rw [hs] at hst; cases hst; rfl
  have hbase (hst : Shallow s.stack) : stack = [] := by
    rcases hst with h | h
    · rw [hs] at h; cases h
    · rw [hs] at h; cases h; rfl
  cases h with
  | detached hc hi hd hq hst =>
    rw [hidle hq]
    exact .detached hc hi hd hq (.inl (hbase hst))
  | waiting d hc hcb hp hd hq hst =>
    have hst : stack = [] := by
      rcases hst with ⟨h, -⟩ | h
      · rw [hs] at h; cases h
      · rw [hs] at h; cases h; rfl
    unfold Reentrant.loop
    rw [hq]
    cases hi : s.items with
    | nil =>
      have hp : s.pushed = d.map .data ++ [] := by rw [hp, hi]
      exact .waiting d hc hcb hp hd rfl (.inl ⟨hst, rfl⟩)
    | cons ele items => exact sound_callProxy hc hcb (hi ▸ hp) hd rfl (.inr (by rw [← hst]; exact hs))
  | running d above below hc hcb hp hd hq hst ha hb =>
    rw [hidle hq]
    exact .running d [] below hc hcb hp hd hq (htop nofun hst ha) (.inl rfl) hb
  | ended d hc hcb hp hd hq hst =>
    rw [hidle hq]
    refine .ended d hc hcb hp hd hq ?_
    rcases hst with hst | ⟨above, below, hst, ha, hb⟩
    · exact .inl (.inl (hbase hst))
    · exact .inr ⟨[], below, htop nofun hst ha, .inl rfl, hb⟩

/-- `on_close` is registered. -/
theorem Sound.onClose {s : Reentrant α} (h : Sound s) (hcb : s.closeCb = false) : Sound { s with closeCb := true } := by
  cases h with
  | detached hc hi hd hq hst => exact .detached hc hi hd hq hst
  | waiting _ _ h | running _ _ _ _ h | ended _ _ h => rw [hcb] at h; cases h

/-- `on_data` is registered: the consumer asks for its first item. -/
theorem Sound.onData {s : Reentrant α} (h : Sound s) (hcb : s.closeCb = true) (hc : s.consuming = false) :
    Sound { s with consuming := true }.pop := by
  cases h with
  | detached _ hi hd hq hst => exact sound_pop (d := []) rfl hcb hi.symm hd hq hst
  | waiting _ h | running _ _ _ h | ended _ h => rw [hc] at h; cases h

/-- The data callback returns. -/
theorem Sound.retData {s : Reentrant α} {stack : List Frame} (h : Sound s) (hs : s.stack = .data :: stack) :
    Sound { s with stack }.pop := by
  have hno {above below : List Frame} (hst : s.stack = above ++ .close :: below) (ha : Shallow above) : False := by
    rcases ha with rfl | rfl <;> rw [hs] at hst <;> cases hst
  have hbase (hst : Shallow s.stack) : False := by
    rcases hst with h | h <;> rw [hs] at h <;> cases h
  cases h with
  | detached _ _ _ _ hst => exact (hbase hst).elim
  | waiting _ _ _ _ _ _ hst =>
    rcases hst with ⟨h, -⟩ | h
    · exact (hbase (.inl h)).elim
    · exact (hbase (.inr h)).elim
  | running d above below hc hcb hp hd hq hst ha hb =>
    rcases ha with rfl | rfl <;> rw [hs] at hst <;> cases hst
    exact sound_pop hc hcb hp hd hq hb
  | ended _ _ _ _ _ _ hst =>
    rcases hst with hst | ⟨above, below, hst, ha, -⟩
    · exact (hbase hst).elim
    · exact (hno hst ha).elim

/-- The close callback returns. -/
theorem Sound.retClose {s : Reentrant α} {stack : List Frame} (h : Sound s) (hs : s.stack = .close :: stack) :
    Sound { s with stack } := by
  have hbase (hst : Shallow s.stack) : False := by
    rcases hst with h | h <;> rw [hs] at h <;> cases h
  cases h with
  | detached _ _ _ _ hst => exact (hbase hst).elim
  | waiting _ _ _ _ _ _ hst =>
    rcases hst with ⟨h, -⟩ | h
    · exact (hbase (.inl h)).elim
    · exact (hbase (.inr h)).elim
  | running _ above below _ _ _ _ _ hst ha _ => rcases ha with rfl | rfl <;> rw [hs] at hst <;> cases hst
  | ended d hc hcb hp hd hq hst =>
    rcases hst with hst | ⟨above, below, hst, ha, hb⟩
    · exact (hbase hst).elim
    · rcases ha with rfl | rfl <;> rw [hs] at hst <;> cases hst
      exact .ended d hc hcb hp hd hq (.inl hb)

theorem Sound.step {s s' : Reentrant α} {act : Act α} (h : Sound s) (hstep : s.step act = some s') : Sound s' := by
  unfold Reentrant.step at hstep
  have huser : (∀ stack, s.stack ≠ .push :: stack) → s.stack.head? ≠ some .push := by
    intro hno hh
    obtain ⟨stack, hs⟩ := List.head?_eq_some_iff.1 hh
    exact hno stack hs
  split at hstep
  · cases hstep; exact h.loop ‹_›
  · cases hstep
  · cases hstep; exact h.push (huser ‹_›) _
  · cases hstep; exact h.push (huser ‹_›) _
  · split at hstep
    · cases hstep
    · rename_i hcb; cases hstep; exact h.onClose (by simpa using hcb)
  · split at hstep
    · rename_i hcb
      cases hstep
      rw [Bool.and_eq_true, Bool.not_eq_true'] at hcb
      exact h.onData hcb.1 hcb.2
    · cases hstep
  · cases hstep; exact h.retData ‹_›
  · cases hstep; exact h.retClose ‹_›
  · cases hstep
  · cases hstep

/-! ## What was pushed -/

/-- What an action writes to the queue. -/
def Act.written : Act α → Option (Item α)
  | .push a => some (.data a)
  | .close => some .eof
  | .onClose | .onData | .ret | .loop => none

theorem callProxy_pushed (ele : Item α) (s : Reentrant α) : (callProxy ele s).pushed = s.pushed := by
  unfold callProxy
  cases ele with
  | data a => rfl
  | eof => simp only; split <;> rfl

theorem pop_pushed (s : Reentrant α) : s.pop.pushed = s.pushed := by
  unfold pop
  split
  · rfl
  · exact callProxy_pushed _ _

theorem loop_pushed (stack : List Frame) (s : Reentrant α) : (s.loop stack).pushed = s.pushed := by
  unfold loop
  split
  · exact callProxy_pushed _ _
  · rfl

theorem step_pushed {s s' : Reentrant α} {act : Act α} (h : s.step act = some s') :
    s'.pushed = s.pushed ++ act.written.toList := by
  unfold step at h
  split at h
  · cases h; simp [Act.written, loop_pushed]
  · cases h
  · cases h; rfl
  · cases h; rfl
  · split at h
    · cases h
    · cases h; simp [Act.written]
  · split at h
    · cases h; simp [Act.written, pop_pushed]
    · cases h
  · cases h; simp [Act.written, pop_pushed]
  · cases h; simp [Act.written]
  · cases h
  · cases h

theorem exec_pushed : ∀ {as : List (Act α)} {s s' : Reentrant α}, Machine.exec step s as = some s' →
    s'.pushed = s.pushed ++ as.filterMap Act.written
  | [], s, s', h => by cases h; simp
  | act :: as, s, s', h => by
    obtain ⟨t, ht, h⟩ := Machine.exec_cons.1 h
    rw [exec_pushed h, step_pushed ht, List.append_assoc, List.filterMap_cons]
    cases act.written <;> rfl

/-! ## Returning -/

/-- What is left to do when the callbacks do nothing but return. -/
def work (s : Reentrant α) : Nat := 2 * s.items.length + s.stack.length

theorem callProxy_work (ele : Item α) (s : Reentrant α) : (callProxy ele s).work ≤ s.work + 1 := by
  unfold callProxy
  cases ele with
  | data a => simp [work]; omega
  | eof =>
    simp only
    split
    · simp [work]; omega
    · omega

theorem pop_work (s : Reentrant α) : s.pop.work ≤ s.work := by
  unfold pop
  cases hi : s.items with
  | nil => simp [work, hi]
  | cons ele items =>
    refine Nat.le_trans (callProxy_work _ _) ?_
    simp only [work, hi, List.length_cons]; omega

theorem loop_work {stack : List Frame} {s : Reentrant α} (hs : s.stack = .push :: stack) :
    (s.loop stack).work < s.work := by
  unfold loop
  split
  · rename_i ele items popq hi hq
    refine Nat.lt_of_le_of_lt (callProxy_work _ _) ?_
    simp [work, hi]; omega
  · simp [work, hs]

/-- While anything is on the way, the innermost call can go on. -/
theorem exists_return {s : Reentrant α} (h : s.stack ≠ []) :
    ∃ act s', (act = .ret ∨ act = .loop) ∧ s.step act = some s' ∧ s'.work < s.work := by
  cases hs : s.stack with
  | nil => exact absurd hs h
  | cons f stack =>
    cases f with
    | data =>
      refine ⟨.ret, { s with stack }.pop, .inl rfl, by simp only [step, hs], Nat.lt_of_le_of_lt (pop_work _) ?_⟩
      simp [work, hs]
    | close => exact ⟨.ret, { s with stack }, .inl rfl, by simp only [step, hs], by simp [work, hs]⟩
    | push => exact ⟨.loop, s.loop stack, .inr rfl, by simp only [step, hs], loop_work hs⟩

theorem exec_return : ∀ (n : Nat) {s : Reentrant α}, s.work ≤ n → ∃ (as : List (Act α)) (s' : Reentrant α),
    (∀ act ∈ as, act = .ret ∨ act = .loop) ∧ Machine.exec step s as = some s' ∧ s'.stack = []
  | n, s, hn => by
    by_cases hs : s.stack = []
    · exact ⟨[], s, by simp, rfl, hs⟩
    · obtain ⟨act, s1, ha, hstep, hw⟩ := exists_return hs
      cases n with
      | zero => omega
      | succ n =>
        obtain ⟨as, s', has, hrun, hs'⟩ := exec_return n (s := s1) (by omega)
        refine ⟨act :: as, s', fun b hb => ?_, Machine.exec_cons.2 ⟨s1, hstep, hrun⟩, hs'⟩
        rcases List.mem_cons.1 hb with rfl | hb
        · exact ha
        · exact has b hb

/-! ## The delivery law -/

/-- The queue at rest, as one whose callbacks do nothing. -/
def atRest (s : Reentrant α) : CloseableQueue α :=
  { items := s.items, popping := decide (s.popq = 1), closeCb := s.consuming }

/-- At rest the queue stands for the pipe that everything was pushed to. -/
theorem Sound.refines {s : Reentrant α} (h : Sound s) (hs : s.stack = []) :
    s.atRest.Refines s.called ⟨s.pushed, s.consuming⟩ := by
  have hno {above below : List Frame} {f : Frame} (hst : s.stack = above ++ f :: below) : False := by
    rw [hs] at hst; simp at hst
  cases h with
  | detached hc hi hd hq _ =>
    refine ⟨?_, ?_, ?_, rfl⟩
    · simp [hd, hc, Pipe.State.received, Pipe.State.ended]
    · simp [atRest, hi, hc, Pipe.State.waiting]
    · simp [atRest, hq, hc]
  | waiting d hc _ hp hd hq hst =>
    have hi : s.items = [] := (hst.resolve_right (by rw [hs]; simp)).2
    obtain ⟨hb, hr, hcl⟩ := Pipe.stream_data d s.items
    rw [← hp, hi] at hb hr hcl
    refine ⟨?_, ?_, ?_, rfl⟩
    · simp [hd, hc, Pipe.State.received, Pipe.State.ended, hb, hcl]
    · simp [atRest, hi, hc, Pipe.State.waiting, hr]
    · simp [atRest, hq, hc, hcl]
  | running _ _ _ _ _ _ _ _ hst => exact (hno hst).elim
  | ended d hc _ hp hd hq _ =>
    obtain ⟨hb, hr, hcl⟩ := Pipe.stream_data d (.eof :: s.items)
    rw [← hp] at hb hr hcl
    refine ⟨?_, ?_, ?_, rfl⟩
    · simp [hd, hc, Pipe.State.received, Pipe.State.ended, hb, hcl]
    · simp [atRest, hc, Pipe.State.waiting, hr]
    · simp [atRest, hq, hc, hcl]

/-- At any time the data callback has had a prefix of what it is due, and the close callback has been
called only after all of it. -/
theorem Sound.handed {s : Reentrant α} (h : Sound s) :
    (∃ d, d <+: Pipe.body s.pushed ∧ s.called = d.map .data) ∨
    (Pipe.closed s.pushed = true ∧ s.called = (Pipe.body s.pushed).map .data ++ [.close]) := by
  cases h with
  | detached _ _ hd => exact .inl ⟨[], List.nil_prefix, hd⟩
  | waiting d _ _ hp hd | running d _ _ _ _ hp hd =>
    refine .inl ⟨d, ?_, hd⟩
    rw [hp, (Pipe.stream_data d s.items).1]
    exact List.prefix_append ..
  | ended d _ _ hp hd =>
    obtain ⟨hb, -, hcl⟩ := Pipe.stream_data d (.eof :: s.items)
    rw [← hp] at hb hcl
    exact .inr ⟨hcl, by rw [hd, hb]; simp⟩

/-- Whatever is pushed and closed, by anybody and from inside the callbacks, and whenever the callbacks
are registered: the data callback is handed a prefix of the items pushed before the first close and the
close callback is called at most once, after all of them; when nothing is on the way all of them have
been handed over, and so it will be as soon as the callbacks return. -/
theorem delivery_law {as : List (Act α)} {s : Reentrant α} (h : Machine.exec step new as = some s) :
    ((∃ d, d <+: Pipe.body (as.filterMap Act.written) ∧ s.called = d.map .data) ∨
      (Pipe.closed (as.filterMap Act.written) = true ∧
        s.called = (Pipe.body (as.filterMap Act.written)).map .data ++ [.close])) ∧
    (s.stack = [] → s.called = if s.consuming then
      (Pipe.body (as.filterMap Act.written)).map .data ++
        if Pipe.closed (as.filterMap Act.written) then [.close] else []
      else []) ∧
    ∃ bs s', (∀ act ∈ bs, act = .ret ∨ act = .loop) ∧ Machine.exec step s bs = some s' ∧ s'.stack = [] := by
  have hs := Machine.exec_inv (fun s a s' => Sound.step) new_sound h
  have hp : s.pushed = as.filterMap Act.written := exec_pushed h
  rw [← hp]
  refine ⟨hs.handed, fun hst => ?_, exec_return _ (Nat.le_refl _)⟩
  rw [(hs.refines hst).cbs]
  unfold Pipe.State.received Pipe.State.ended
  cases s.consuming <;> simp

/-- The callback for 1 pushes 2, the callback for 2 closes the queue and pushes 3. -/
theorem delivery_law_reentrant : ∃ s : Reentrant Nat, Machine.exec step new
      [.push 1, .loop, .onClose, .onData, .push 2, .loop, .ret, .close, .loop, .push 3, .loop, .ret, .ret] = some s ∧
    s.called = [.data 1, .data 2, .close] := by
  have hrun : ∃ s ∈ Machine.exec step new
      [.push 1, .loop, .onClose, .onData, .push 2, .loop, .ret, .close, .loop, .push 3, .loop, .ret, .ret],
      s.stack = [] ∧ s.consuming = true := by decide +kernel
  obtain ⟨s, hs, hst, hc⟩ := hrun
  refine ⟨s, hs, ?_⟩
  rw [(delivery_law hs).2.1 hst, hc]
  rfl

end Reentrant

end Tangle.Support
