/-
`Support::CloseableQueue`, an `EM::Queue` that is closed in-band: `close` pushes `:EOF_SENTINEL`, and
the consumer that `on_data` registers stops at it. The consumer re-registers itself from inside its
own callback, so a backlog is drained by recursion through `pop`, while a live queue is driven from
the loop of `push`; on the reactor thread both act at once. The queue refines a pipe: after any
pushes, the callbacks invoked are exactly the values pushed before the first sentinel, in order, and
then the close callback.
-/
import Tangle.Lib.Pipe

namespace Tangle.Support

open Pipe (Item)

/-- A callback the queue invokes: `cb.call ele`, or `EM.schedule @close_cb`. -/
inductive Callback (α : Type)
  | data (ele : α)
  | close
  deriving DecidableEq, Repr

/-- `@items`; whether the proxy of `on_data` waits in `@popq`; whether `@close_cb` is set. Calling
`on_data` twice is undefined by its documentation, so at most one proxy ever waits. -/
structure CloseableQueue (α : Type) where
  items : List (Item α)
  popping : Bool
  closeCb : Bool
  deriving DecidableEq

namespace CloseableQueue

variable {α : Type}

def new : CloseableQueue α := ⟨[], false, false⟩

/-- `proxy.call ele` with `items` left in the queue: the callbacks invoked, the items left after it,
and whether the proxy waits in `@popq` again. -/
def proxy (closeCb : Bool) : Item α → List (Item α) → List (Callback α) × List (Item α) × Bool
  | .eof, items => (if closeCb then [.close] else [], items, false)
  | .data a, [] => ([.data a], [], true)
  | .data a, ele :: items =>
    let r := proxy closeCb ele items
    (.data a :: r.1, r.2)

/-- `pop(&proxy)`. -/
def pop (q : CloseableQueue α) : List (Callback α) × CloseableQueue α :=
  match q.items with
  | [] => ([], { q with popping := true })
  | ele :: items =>
    let r := proxy q.closeCb ele items
    (r.1, { q with items := r.2.1, popping := r.2.2 })

/-- `push`, alias `<<`. One round of its loop is enough: after it either nothing waits in `@items` or
nothing in `@popq`. -/
def push (q : CloseableQueue α) (ele : Item α) : List (Callback α) × CloseableQueue α :=
  let q := { q with items := q.items ++ [ele] }
  if q.popping then pop { q with popping := false } else ([], q)

/-- `self << :EOF_SENTINEL`. -/
def close (q : CloseableQueue α) : List (Callback α) × CloseableQueue α := q.push .eof

def onClose (q : CloseableQueue α) : CloseableQueue α := { q with closeCb := true }

def onData (q : CloseableQueue α) : List (Callback α) × CloseableQueue α := q.pop

/-- The sentinel was consumed: the consumer was registered and waits no more. -/
def stopped (q : CloseableQueue α) : Bool := q.closeCb && !q.popping

/-- The sentinel has been pushed, whether it still waits or was consumed. -/
def closed (q : CloseableQueue α) : Bool := Pipe.closed q.items || q.stopped

/-- The data that will still be handed to the callback. -/
def pending (q : CloseableQueue α) : List α := if q.stopped then [] else Pipe.body q.items

/-! ## The consumer -/

/-- The proxy hands over the data up to the first sentinel, then calls the close callback, and waits
again exactly when it met no sentinel. -/
theorem proxy_eq : ∀ (items : List (Item α)) (ele : Item α),
    proxy true ele items = ((Pipe.body (ele :: items)).map Callback.data ++
      (if Pipe.closed (ele :: items) then [.close] else []),
      Pipe.rest (ele :: items), !Pipe.closed (ele :: items))
  | _, .eof => by simp [proxy]
  | [], .data a => by simp [proxy]
  | ele :: items, .data a => by
    cases hc : Pipe.closed (ele :: items) <;> simp [proxy, proxy_eq items ele, hc]

theorem pop_eq {q : CloseableQueue α} (hcb : q.closeCb = true) (hp : q.popping = false) :
    q.pop = ((Pipe.body q.items).map Callback.data ++ (if Pipe.closed q.items then [.close] else []),
      { q with items := Pipe.rest q.items, popping := !Pipe.closed q.items }) := by
  obtain ⟨items, popping, closeCb⟩ := q
  simp only at hcb hp
  subst hcb hp
  cases items with
  | nil => rfl
  | cons ele items => simp only [pop, proxy_eq]

theorem pop_closeCb (q : CloseableQueue α) : q.pop.2.closeCb = q.closeCb := by
  unfold pop
  cases q.items <;> rfl

theorem push_closeCb (q : CloseableQueue α) (ele : Item α) : (q.push ele).2.closeCb = q.closeCb := by
  unfold push
  simp only
  split
  · exact pop_closeCb _
  · rfl

theorem proxy_popping (closeCb : Bool) : ∀ (items : List (Item α)) (ele : Item α),
    (proxy closeCb ele items).2.2 = !Pipe.closed (ele :: items)
  | _, .eof => by simp [proxy]
  | [], .data a => by simp [proxy]
  | ele :: items, .data a => by simp [proxy, proxy_popping closeCb items ele]

/-- An end mark that is pushed leaves the queue longer or its consumer stopped. -/
theorem push_eof_ne (q : CloseableQueue α) : (q.push .eof).2 ≠ q := by
  obtain ⟨items, popping, closeCb⟩ := q
  cases popping with
  | false =>
    intro h
    have := congrArg (fun q => q.items.length) h
    simp [push] at this
  | true =>
    intro h
    have := congrArg CloseableQueue.popping h
    cases items with
    | nil => simp [push, pop, proxy_popping] at this
    | cons ele items =>
      have hcl : Pipe.closed (ele :: (items ++ [.eof])) = true := by rw [← List.cons_append, Pipe.closed_append]; simp
      simp [push, pop, proxy_popping, hcl] at this

/-! ## Refinement of a pipe -/

/-- The queue, with the callbacks it has invoked so far, stands for the pipe `p`. -/
structure Refines (q : CloseableQueue α) (cbs : List (Callback α)) (p : Pipe.State α) : Prop where
  cbs : cbs = p.received.map Callback.data ++ if p.ended then [.close] else []
  items : q.items = p.waiting
  popping : q.popping = (p.reading && !Pipe.closed p.written)
  closeCb : q.closeCb = p.reading

theorem refines_new : Refines (new : CloseableQueue α) [] Pipe.State.empty := ⟨rfl, rfl, rfl, rfl⟩

/-- A push writes to the pipe; what it makes the consumer do is invoked at once. -/
theorem Refines.push {q : CloseableQueue α} {cbs : List (Callback α)} {p : Pipe.State α} (h : Refines q cbs p)
    (ele : Item α) : Refines (q.push ele).2 (cbs ++ (q.push ele).1) (p.write ele) := by
  obtain ⟨items, popping, closeCb⟩ := q
  obtain ⟨written, reading⟩ := p
  obtain ⟨rfl, hi, hp, hc⟩ := h
  simp only [Pipe.State.waiting] at hi hp hc
  subst hi hp hc
  cases closeCb with
  | false =>
    exact ⟨by simp [CloseableQueue.push, Pipe.State.received, Pipe.State.ended, Pipe.State.write], rfl, rfl, rfl⟩
  | true =>
    cases hcl : Pipe.closed written with
    | true =>
      -- the consumer is gone: the item just waits
      refine ⟨?_, ?_, ?_, ?_⟩ <;>
        simp [CloseableQueue.push, Pipe.State.received, Pipe.State.ended, Pipe.State.write, Pipe.State.waiting,
          Pipe.body_append, Pipe.rest_append, Pipe.closed_append, hcl]
    | false =>
      -- the consumer waits on an empty queue: it is called on the new item
      have hr : Pipe.rest written = [] := Pipe.rest_open hcl
      refine ⟨?_, ?_, ?_, ?_⟩ <;> cases ele <;>
        simp [CloseableQueue.push, CloseableQueue.pop, proxy, Pipe.State.received, Pipe.State.ended, Pipe.State.write,
          Pipe.State.waiting, Pipe.body_append, Pipe.rest_append, Pipe.closed_append, hcl, hr]

/-- Registering both callbacks attaches the reader, which drains the backlog. -/
theorem Refines.onData {q : CloseableQueue α} {cbs : List (Callback α)} {p : Pipe.State α} (h : Refines q cbs p)
    (hr : p.reading = false) :
    Refines q.onClose.onData.2 (cbs ++ q.onClose.onData.1) p.attach := by
  obtain ⟨items, popping, closeCb⟩ := q
  obtain ⟨written, reading⟩ := p
  obtain ⟨rfl, hi, hp, hc⟩ := h
  simp only at hr
  subst hr
  simp only [Pipe.State.waiting] at hi hp hc
  subst hi hp hc
  unfold CloseableQueue.onData CloseableQueue.onClose
  rw [pop_eq rfl rfl]
  exact ⟨by simp [Pipe.State.received, Pipe.State.ended, Pipe.State.attach], rfl, rfl, rfl⟩

/-- What a push makes the consumer do: nothing unless it is registered and has met no sentinel. -/
theorem Refines.push_callbacks {q : CloseableQueue α} {cbs : List (Callback α)} {p : Pipe.State α}
    (h : Refines q cbs p) (ele : Item α) :
    (q.push ele).1 = if p.reading && !Pipe.closed p.written then
      (match ele with | .data a => [.data a] | .eof => [.close]) else [] := by
  obtain ⟨items, popping, closeCb⟩ := q
  obtain ⟨written, reading⟩ := p
  obtain ⟨-, hi, hp, hc⟩ := h
  simp only [Pipe.State.waiting] at hi hp hc
  subst hi hp hc
  cases closeCb with
  | false => rfl
  | true =>
    cases hcl : Pipe.closed written with
    | true => simp [CloseableQueue.push]
    | false => cases ele <;> simp [CloseableQueue.push, CloseableQueue.pop, proxy, Pipe.rest_open hcl]

/-- What registering the callbacks makes the consumer do: it drains the backlog. -/
theorem Refines.onData_callbacks {q : CloseableQueue α} {cbs : List (Callback α)} {p : Pipe.State α}
    (h : Refines q cbs p) (hr : p.reading = false) :
    q.onClose.onData.1 = (Pipe.body p.written).map Callback.data ++ if Pipe.closed p.written then [.close] else [] := by
  have hi := h.items
  have hp := h.popping
  unfold Pipe.State.waiting at hi
  rw [hr] at hi hp
  unfold CloseableQueue.onData
  rw [pop_eq (q := q.onClose) rfl hp]
  simp only [CloseableQueue.onClose, hi]
  rfl

/-- Nothing that is pushed after the sentinel is handed over. -/
example : ((((new.push (.data 1)).2.push .eof).2.push (.data 2)).2.onClose.onData).1 = [.data 1, .close] := by decide

section Queries

variable {q : CloseableQueue α} {cbs : List (Callback α)} {p : Pipe.State α}

theorem Refines.stopped (h : Refines q cbs p) : q.stopped = p.ended := by
  unfold CloseableQueue.stopped Pipe.State.ended
  rw [h.popping, h.closeCb]
  cases p.reading <;> simp

theorem Refines.closed (h : Refines q cbs p) : q.closed = Pipe.closed p.written := by
  unfold CloseableQueue.closed
  rw [h.stopped, h.items]
  unfold Pipe.State.waiting Pipe.State.ended
  cases p.reading with
  | false => simp
  | true =>
    cases hc : Pipe.closed p.written with
    | true => simp
    | false => simp [Pipe.rest_open hc]

theorem Refines.pending (h : Refines q cbs p) : p.received ++ q.pending = Pipe.body p.written := by
  rw [← p.stream_eq]
  unfold CloseableQueue.pending Pipe.State.stream
  rw [h.stopped, h.items]
  unfold Pipe.State.waiting Pipe.State.ended
  cases p.reading with
  | false => rfl
  | true =>
    cases hc : Pipe.closed p.written with
    | true => rfl
    | false => simp [Pipe.rest_open hc]

end Queries

end CloseableQueue

end Tangle.Support
