/-
Streams that are ended in-band: a writer appends values and, at some point, an end mark to one
sequence. What a reader may see of such a stream is its body, the values before the first end mark;
whatever is written after that mark is never part of it. A pipe is such a stream together with
whether its reader is attached yet: an attached reader has received the whole body, and what is still
waiting is what no reader will ever take.
-/
import Mathlib.Data.List.Basic

namespace Pipe

/-- What is written to a stream: a value, or the end mark. -/
inductive Item (α : Type*)
  | data (a : α)
  | eof
  deriving DecidableEq, Repr

variable {α : Type*}

/-- The values before the first end mark. -/
def body : List (Item α) → List α
  | [] => []
  | .data a :: is => a :: body is
  | .eof :: _ => []

/-- Everything after the first end mark. -/
def rest : List (Item α) → List (Item α)
  | [] => []
  | .data _ :: is => rest is
  | .eof :: is => is

/-- There is an end mark. -/
def closed : List (Item α) → Bool
  | [] => false
  | .data _ :: is => closed is
  | .eof :: _ => true

@[simp] theorem body_nil : body ([] : List (Item α)) = [] := rfl
@[simp] theorem body_data (a : α) (is : List (Item α)) : body (.data a :: is) = a :: body is := rfl
@[simp] theorem body_eof (is : List (Item α)) : body (.eof :: is) = [] := rfl
@[simp] theorem rest_nil : rest ([] : List (Item α)) = [] := rfl
@[simp] theorem rest_data (a : α) (is : List (Item α)) : rest (.data a :: is) = rest is := rfl
@[simp] theorem rest_eof (is : List (Item α)) : rest (.eof :: is) = is := rfl
@[simp] theorem closed_nil : closed ([] : List (Item α)) = false := rfl
@[simp] theorem closed_data (a : α) (is : List (Item α)) : closed (.data a :: is) = closed is := rfl
@[simp] theorem closed_eof (is : List (Item α)) : closed (.eof :: is) = true := rfl

theorem closed_iff {is : List (Item α)} : closed is = true ↔ .eof ∈ is := by
  induction is with
  | nil => simp
  | cons i is ih => cases i <;> simp [ih]

/-! ## Writing more -/

theorem closed_append (is js : List (Item α)) : closed (is ++ js) = (closed is || closed js) := by
  induction is with
  | nil => rfl
  | cons i is ih => cases i <;> simp [ih]

/-- After the end mark nothing adds to the body. -/
theorem body_append (is js : List (Item α)) :
    body (is ++ js) = if closed is then body is else body is ++ body js := by
  induction is with
  | nil => rfl
  | cons i is ih =>
    cases i with
    | data a => cases hc : closed is <;> simp [ih, hc]
    | eof => rfl

theorem rest_append (is js : List (Item α)) :
    rest (is ++ js) = if closed is then rest is ++ js else rest js := by
  induction is with
  | nil => rfl
  | cons i is ih =>
    cases i with
    | data a => cases hc : closed is <;> simp [ih, hc]
    | eof => rfl

theorem body_append_closed {is : List (Item α)} (h : closed is = true) (js : List (Item α)) :
    body (is ++ js) = body is := by rw [body_append, if_pos h]

theorem body_append_open {is : List (Item α)} (h : closed is = false) (js : List (Item α)) :
    body (is ++ js) = body is ++ body js := by rw [body_append, h]; rfl

theorem rest_open {is : List (Item α)} (h : closed is = false) : rest is = [] := by
  have := rest_append is []
  rw [List.append_nil, h] at this
  exact this

/-- Values alone are a stream that is still open. -/
theorem stream_data (as : List α) (is : List (Item α)) :
    body (as.map .data ++ is) = as ++ body is ∧ rest (as.map .data ++ is) = rest is ∧
      closed (as.map .data ++ is) = closed is := by
  induction as with
  | nil => exact ⟨rfl, rfl, rfl⟩
  | cons a as ih => simpa using ih

/-! ## Pipes -/

/-- Everything written so far, and whether the reader is attached. -/
structure State (α : Type*) where
  written : List (Item α)
  reading : Bool

namespace State

def empty : State α := ⟨[], false⟩

def write (p : State α) (i : Item α) : State α := { p with written := p.written ++ [i] }

def attach (p : State α) : State α := { p with reading := true }

/-- What the reader has received. -/
def received (p : State α) : List α := if p.reading then body p.written else []

/-- The reader has seen the end mark. -/
def ended (p : State α) : Bool := p.reading && closed p.written

/-- What is still in the pipe. -/
def waiting (p : State α) : List (Item α) := if p.reading then rest p.written else p.written

/-- What the reader has received and what it will still be handed. -/
def stream (p : State α) : List α := p.received ++ if p.reading then [] else body p.waiting

/-- Received or waiting, the stream is the body of what was written. -/
theorem stream_eq (p : State α) : p.stream = body p.written := by
  unfold stream received waiting
  cases p.reading <;> simp

end State

end Pipe
