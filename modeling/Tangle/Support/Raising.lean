/-
`CloseableQueue` with an `on_data` callback that may raise. The proxy asks for the next item only after
the callback has returned, so an exception takes the proxy out of the queue for good: it unwinds through
`pop` or `push` to the reactor, whose error handler logs it, and whatever comes after that item is never
taken. The callbacks are told of everything pushed before the close exactly if none of it makes them raise.
-/
import Tangle.Lib.Machine
import Tangle.Support.CloseableQueue

namespace Tangle.Support

open Pipe (Item)

namespace CloseableQueue

variable {α : Type} (raises : α → Bool)

/-- `proxy.call ele` with a callback that raises on some data: as `proxy`, but then nothing is popped. -/
def proxyR (closeCb : Bool) : Item α → List (Item α) → List (Callback α) × List (Item α) × Bool
  | .eof, items => (if closeCb then [.close] else [], items, false)
  | .data a, [] => ([.data a], [], !raises a)
  | .data a, ele :: items =>
    if raises a then ([.data a], ele :: items, false)
    else
      let r := proxyR closeCb ele items
      (.data a :: r.1, r.2)

/-- `pop(&proxy)`. -/
def popR (q : CloseableQueue α) : List (Callback α) × CloseableQueue α :=
  match q.items with
  | [] => ([], { q with popping := true })
  | ele :: items =>
    let r := proxyR raises q.closeCb ele items
    (r.1, { q with items := r.2.1, popping := r.2.2 })

/-- `push`. An exception ends its loop; without one a round is enough, as in `push`. -/
def pushR (q : CloseableQueue α) (ele : Item α) : List (Callback α) × CloseableQueue α :=
  let q := { q with items := q.items ++ [ele] }
  if q.popping then popR raises { q with popping := false } else ([], q)

/-- With a callback that never raises these are the operations of the queue. -/
theorem proxyR_never (closeCb : Bool) : ∀ (items : List (Item α)) (ele : Item α),
    proxyR (fun _ => false) closeCb ele items = proxy closeCb ele items
  | _, .eof => by simp [proxyR, proxy]
  | [], .data a => rfl
  | ele :: items, .data a => by simp [proxyR, proxy, proxyR_never closeCb items ele]

theorem popR_never (q : CloseableQueue α) : popR (fun _ => false) q = q.pop := by
  unfold popR pop
  cases q.items with
  | nil => rfl
  | cons ele items => simp only [proxyR_never]

theorem pushR_never (q : CloseableQueue α) (ele : Item α) : pushR (fun _ => false) q ele = q.push ele := by
  unfold pushR push
  simp only [popR_never]

/-! ## What is offered -/

/-- The data up to the first on which the callback raises, that one included. -/
def offered : List α → List α
  | [] => []
  | a :: as => a :: if raises a then [] else offered as

variable {raises}

theorem offered_of_never {as : List α} (h : as.any raises = false) : offered raises as = as := by
  induction as with
  | nil => rfl
  | cons a as ih =>
    obtain ⟨ha, has⟩ := Bool.or_eq_false_iff.1 h
    rw [offered, ha, if_neg Bool.false_ne_true, ih has]

theorem offered_append (as bs : List α) :
    offered raises (as ++ bs) = if as.any raises then offered raises as else as ++ offered raises bs := by
  induction as with
  | nil => rfl
  | cons a as ih =>
    cases ha : raises a with
    | true => simp [offered, ha]
    | false =>
      simp only [List.cons_append, offered, ha, List.any_cons, Bool.false_or, ih, Bool.false_eq_true, if_false]
      split <;> rfl

variable (raises) in
/-- The proxy hands over the data up to the first sentinel or the first exception. It calls the close
callback if it met the sentinel, and waits again, on an empty queue, if it met neither. -/
theorem proxyR_eq : ∀ (items : List (Item α)) (ele : Item α),
    (proxyR raises true ele items).1 = (offered raises (Pipe.body (ele :: items))).map Callback.data ++
      (if Pipe.closed (ele :: items) && !(Pipe.body (ele :: items)).any raises then [.close] else []) ∧
    (proxyR raises true ele items).2.2 =
      (!Pipe.closed (ele :: items) && !(Pipe.body (ele :: items)).any raises) ∧
    ((proxyR raises true ele items).2.2 = true → (proxyR raises true ele items).2.1 = [])
  | items, .eof => by cases items <;> simp [proxyR, offered]
  | [], .data a => by simp [proxyR, offered]
  | ele :: items, .data a => by
    obtain ⟨hcalled, hpopping, hitems⟩ := proxyR_eq items ele
    cases ha : raises a with
    | true => simp [proxyR, offered, ha]
    | false =>
      simp only [proxyR, offered, ha, Pipe.body_data, Pipe.closed_data, List.any_cons, Bool.false_or,
        Bool.false_eq_true, if_false]
      refine ⟨?_, hpopping, hitems⟩
      rw [hcalled]
      rfl

variable (raises) in
theorem popR_eq {q : CloseableQueue α} (hcb : q.closeCb = true) (hp : q.popping = false) :
    (popR raises q).1 = (offered raises (Pipe.body q.items)).map Callback.data ++
      (if Pipe.closed q.items && !(Pipe.body q.items).any raises then [.close] else []) ∧
    (popR raises q).2.popping = (!Pipe.closed q.items && !(Pipe.body q.items).any raises) ∧
    (popR raises q).2.closeCb = true ∧ ((popR raises q).2.popping = true → (popR raises q).2.items = []) := by
  obtain ⟨items, popping, closeCb⟩ := q
  simp only at hcb hp
  subst hcb hp
  cases items with
  | nil => exact ⟨rfl, rfl, rfl, fun _ => rfl⟩
  | cons ele items =>
    obtain ⟨hcalled, hpopping, hitems⟩ := proxyR_eq raises items ele
    exact ⟨hcalled, hpopping, rfl, hitems⟩

end CloseableQueue

open CloseableQueue (proxyR popR pushR offered)

/-- The queue, whether `on_data` was called, the callbacks that were invoked and everything pushed. -/
structure Raising (α : Type) where
  queue : CloseableQueue α
  consuming : Bool
  called : List (Callback α)
  pushed : List (Item α)
  deriving DecidableEq

namespace Raising

variable {α : Type}

def new : Raising α := ⟨.new, false, [], []⟩

inductive Act (α : Type)
  | push (a : α)
  | close
  | onClose
  | onData
  deriving DecidableEq

def push (raises : α → Bool) (s : Raising α) (ele : Item α) : Raising α :=
  { s with queue := (pushR raises s.queue ele).2, called := s.called ++ (pushR raises s.queue ele).1
           pushed := s.pushed ++ [ele] }

/-- Each callback is registered once, `on_close` first. Where the `on_data` callback raises, the error
handler of the reactor has caught the exception before anybody acts again. -/
def step (raises : α → Bool) (s : Raising α) : Act α → Option (Raising α)
  | .push a => some (s.push raises (.data a))
  | .close => some (s.push raises .eof)
  | .onClose => if s.queue.closeCb then none else some { s with queue := s.queue.onClose }
  | .onData =>
    if s.queue.closeCb && !s.consuming then
      some { s with queue := (popR raises s.queue).2, consuming := true, called := s.called ++ (popR raises s.queue).1 }
    else none

/-! ## What the callbacks are told -/

/-- Before `on_data` everything waits. From then on the callbacks have been told of the data up to the
first that raised or the first sentinel; the proxy waits for more if it has met neither. -/
structure Told (raises : α → Bool) (s : Raising α) : Prop where
  detached : s.consuming = false → s.called = [] ∧ s.queue.items = s.pushed ∧ s.queue.popping = false
  closeCb : s.consuming = true → s.queue.closeCb = true
  called : s.consuming = true → s.called = (offered raises (Pipe.body s.pushed)).map Callback.data ++
    if Pipe.closed s.pushed && !(Pipe.body s.pushed).any raises then [.close] else []
  popping : s.consuming = true → s.queue.popping = (!Pipe.closed s.pushed && !(Pipe.body s.pushed).any raises)
  drained : s.queue.popping = true → s.queue.items = []

theorem told_new (raises : α → Bool) : Told raises (new : Raising α) :=
  ⟨fun _ => ⟨rfl, rfl, rfl⟩, by simp [new], by simp [new], by simp [new], by simp [new, CloseableQueue.new]⟩

variable {raises : α → Bool} {s t : Raising α}

theorem Told.push (h : Told raises s) (ele : Item α) : Told raises (s.push raises ele) := by
  obtain ⟨queue, consuming, called, pushed⟩ := s
  cases hp : queue.popping with
  | false =>
    -- the proxy is not in the queue: the item just waits
    have hpush : pushR raises queue ele = ([], { queue with items := queue.items ++ [ele] }) := by
      simp [pushR, hp]
    unfold Raising.push
    rw [hpush]
    refine ⟨fun hc => ?_, h.closeCb, fun hc => ?_, fun hc => ?_, fun hp' => ?_⟩
    · obtain ⟨hcalled, hitems, -⟩ := h.detached hc
      simp only at hcalled hitems
      exact ⟨by simp [hcalled], by simp [hitems], hp⟩
    · have hcalled := h.called hc
      have hstop := h.popping hc
      simp only [hp] at hcalled hstop
      simp only [List.append_nil, hcalled, Pipe.body_append, Pipe.closed_append]
      cases hcl : Pipe.closed pushed with
      | true => simp
      | false =>
        have hraised : (Pipe.body pushed).any raises = true := by simpa [hcl] using hstop
        simp [CloseableQueue.offered_append, hraised, -List.any_eq_true]
    · have hstop := h.popping hc
      simp only [hp] at hstop ⊢
      rw [Pipe.body_append, Pipe.closed_append]
      cases hcl : Pipe.closed pushed with
      | true => simp
      | false =>
        have hraised : (Pipe.body pushed).any raises = true := by simpa [hcl] using hstop
        simp [hraised, -List.any_eq_true]
    · simp only [hp] at hp'
      cases hp'
  | true =>
    -- the proxy waits: it is called on the new item
    have hc : consuming = true := by
      cases consuming with
      | true => rfl
      | false =>
        have := (h.detached rfl).2.2
        simp only [hp] at this
        cases this
    have hitems := h.drained hp
    have hcb := h.closeCb hc
    have hcalled := h.called hc
    have hgoes := h.popping hc
    simp only [hp] at hitems hcb hcalled hgoes
    obtain ⟨hopen, hnever⟩ : Pipe.closed pushed = false ∧ (Pipe.body pushed).any raises = false := by
      simpa [-List.any_eq_false] using hgoes.symm
    have hpush : pushR raises queue ele = popR raises { queue with items := [ele], popping := false } := by
      simp [pushR, hp, hitems]
    obtain ⟨hcalls, hpopping, hcb', hdrained⟩ :=
      CloseableQueue.popR_eq raises (q := { queue with items := [ele], popping := false }) hcb rfl
    unfold Raising.push
    rw [hpush]
    refine ⟨fun hc' => ?_, fun _ => hcb', fun _ => ?_, fun _ => ?_, hdrained⟩
    · simp only [hc] at hc'
      cases hc'
    · rw [hcalls, hcalled, Pipe.body_append_open hopen, Pipe.closed_append, CloseableQueue.offered_append, hnever,
        hopen, CloseableQueue.offered_of_never hnever]
      simp [hnever, -List.any_eq_false]
    · rw [hpopping, Pipe.body_append_open hopen, Pipe.closed_append, hopen, List.any_append, hnever]
      rfl

theorem Told.step (h : Told raises s) {act : Act α} (ht : step raises s act = some t) : Told raises t := by
  cases act with
  | push a => cases ht; exact h.push _
  | close => cases ht; exact h.push _
  | onClose =>
    simp only [Raising.step] at ht
    split at ht
    · cases ht
    · cases ht
      exact ⟨h.detached, fun _ => rfl, h.called, h.popping, h.drained⟩
  | onData =>
    simp only [Raising.step] at ht
    split at ht
    · rename_i hen
      cases ht
      obtain ⟨hcb, hcons⟩ : s.queue.closeCb = true ∧ s.consuming = false := by simpa using hen
      obtain ⟨hcalled, hitems, hp⟩ := h.detached hcons
      obtain ⟨hcalls, hpopping, hcb', hdrained⟩ := CloseableQueue.popR_eq raises hcb hp
      refine ⟨fun hc => (by cases hc), fun _ => hcb', fun _ => ?_, fun _ => ?_, hdrained⟩
      · show s.called ++ _ = _
        rw [hcalls, hcalled, hitems]
        rfl
      · rw [← hitems]
        exact hpopping
    · cases ht

theorem run_told {acts : List (Act α)} (hrun : Machine.exec (step raises) new acts = some s) : Told raises s :=
  @Machine.exec_inv _ _ _ (Told raises) (fun _ _ _ h ht => h.step ht) acts new s (told_new raises) hrun

/-- Once the callbacks are registered and the queue is closed they have been told of everything pushed
before the close, in order, and then of the close, exactly if nothing of it made the callback raise. -/
theorem told_all_iff {acts : List (Act α)} (hrun : Machine.exec (step raises) new acts = some s)
    (hcons : s.consuming = true) (hclosed : Pipe.closed s.pushed = true) :
    s.called = (Pipe.body s.pushed).map Callback.data ++ [.close] ↔ ∀ a ∈ Pipe.body s.pushed, raises a = false := by
  rw [(run_told hrun).called hcons, hclosed]
  cases hany : (Pipe.body s.pushed).any raises with
  | false =>
    rw [CloseableQueue.offered_of_never hany]
    simpa using hany
  | true =>
    obtain ⟨a, ha, hraises⟩ := List.any_eq_true.1 hany
    refine ⟨fun h => ?_, fun h => ?_⟩
    · -- the close callback is the last of the one list and not in the other
      have hmem : Callback.close ∈ (Pipe.body s.pushed).map Callback.data ++ [Callback.close] := by simp
      rw [← h] at hmem
      simp at hmem
    · rw [h a ha] at hraises
      cases hraises

/-- Nothing raises: the callbacks are told of a backlog, of what comes live, and of the close. -/
theorem told_all_seven : ∃ s, Machine.exec (step fun n : Nat => n == 0) new
      [.push 7, .onClose, .onData, .push 8, .close, .push 0] = some s ∧
    s.called = (Pipe.body s.pushed).map Callback.data ++ [.close] := by
  refine ⟨_, rfl, ?_⟩
  have hrun : Machine.exec (step fun n : Nat => n == 0) new
      [.push 7, .onClose, .onData, .push 8, .close, .push 0] = some _ := rfl
  exact (told_all_iff hrun rfl rfl).2 (by decide)

/-- The callback raises on the first of two items: it is never offered the second, nor is the close callback run. -/
theorem told_no_more : (Machine.exec (step fun n : Nat => n == 1) new [.onClose, .onData, .push 1, .push 2, .close]).map
      Raising.called = some [.data 1] ∧
    ¬ ∀ (raises : Nat → Bool) (acts : List (Act Nat)) (s : Raising Nat), Machine.exec (step raises) new acts = some s →
      s.consuming = true → Pipe.closed s.pushed = true →
      s.called = (Pipe.body s.pushed).map Callback.data ++ [.close] := by
  refine ⟨by decide, fun h => ?_⟩
  have := h (· == 1) [.onClose, .onData, .push 1, .push 2, .close] _ rfl rfl rfl
  revert this
  decide

end Raising

end Tangle.Support
