import LinkLayer.Datagram
import LinkLayer.Fifo

/-! A bounded record of the latest transfers: when it is full the oldest entry goes. -/
namespace LinkLayer

namespace Trace

inductive Kind where
  | read
  | write
  | addressRead
deriving DecidableEq, Repr

def Kind.name : Kind → String
  | .read => "Read"
  | .write => "Write"
  | .addressRead => "MacGet"

inductive Verdict where
  | ok
  | failed
deriving DecidableEq, Repr

def Verdict.name : Verdict → String
  | .ok => "Ok"
  | .failed => "Failed"

/-- Most bytes of a transfer that are kept. -/
def keptLength : Nat := 64

/-- One transfer: its full length and the first bytes of it. -/
structure Entry where
  time : Time
  kind : Kind
  verdict : Verdict
  length : Nat
  data : Bytes
deriving DecidableEq, Repr

def Entry.ofTransfer (time : Time) (kind : Kind) (verdict : Verdict) (data : Bytes) : Entry :=
  ⟨time, kind, verdict, data.length, data.take keptLength⟩

/-- How many entries of 56 bytes the largest allocation has room for. All of them are laid out when
the trace is made. -/
def maxCapacity : Nat := Bytes.maxAllocation / 56

end Trace

/-- Entries from oldest to newest. A capacity of zero keeps nothing. -/
structure Trace where
  capacity : Nat
  entries : Fifo Trace.Entry := .empty
  /-- How many entries can come before the oldest one has to go. -/
  free : Nat := capacity
  length_add_free : entries.toList.length + free = capacity := by simp
deriving DecidableEq, Repr

namespace Trace

variable {trace : Trace} {entry : Entry}

def isEnabled (trace : Trace) : Bool := 0 < trace.capacity

/-- Adds an entry. The oldest one goes if none is free. -/
def add (trace : Trace) (entry : Entry) : Trace :=
  match h : trace.free with
  | free + 1 =>
    { capacity := trace.capacity
      entries := trace.entries.push entry
      free
      length_add_free := by
        have := trace.length_add_free
        simp only [Fifo.toList_push, List.length_append, List.length_singleton]
        omega }
  | 0 =>
    { capacity := trace.capacity
      entries := (trace.entries.push entry).tail
      free := 0
      length_add_free := by
        have := trace.length_add_free
        simp only [Fifo.toList_tail, Fifo.toList_push, List.length_tail, List.length_append,
          List.length_singleton]
        omega }

def record (trace : Trace) (time : Time) (kind : Kind) (verdict : Verdict) (data : Bytes) : Trace :=
  trace.add (.ofTransfer time kind verdict data)

def clear (trace : Trace) : Trace := { capacity := trace.capacity }

@[simp] theorem capacity_add : (trace.add entry).capacity = trace.capacity := by
  unfold add
  split <;> rfl

@[simp] theorem capacity_record {time : Time} {kind : Kind} {verdict : Verdict} {data : Bytes} :
    (trace.record time kind verdict data).capacity = trace.capacity := capacity_add

@[simp] theorem capacity_clear : trace.clear.capacity = trace.capacity := rfl

theorem length_le : trace.entries.toList.length ≤ trace.capacity := by
  have := trace.length_add_free
  omega

/-- The latest entries stay, as many as the capacity allows. -/
theorem toList_add : (trace.add entry).entries.toList =
    (trace.entries.toList ++ [entry]).drop
      ((trace.entries.toList ++ [entry]).length - trace.capacity) := by
  have h := trace.length_add_free
  unfold add
  split
  · rw [Nat.sub_eq_zero_of_le (by simp; omega)]
    simp
  · rw [show (trace.entries.toList ++ [entry]).length - trace.capacity = 1 by simp; omega]
    simp

/-- Adding to the latest entries of a history gives the latest entries of the longer history. -/
theorem entries_add {history : List Entry}
    (h : trace.entries.toList = history.drop (history.length - trace.capacity)) :
    (trace.add entry).entries.toList =
      (history ++ [entry]).drop ((history ++ [entry]).length - trace.capacity) := by
  rw [toList_add, h]
  rcases Nat.le_total history.length trace.capacity with hl | hl
  · simp [Nat.sub_eq_zero_of_le hl]
  · have hk : history.drop (history.length - trace.capacity) ++ [entry] =
        (history ++ [entry]).drop (history.length - trace.capacity) := by
      rw [List.drop_append_of_le_length (by omega)]
    rw [hk, List.drop_drop]
    congr 1
    simp
    omega

end Trace
end LinkLayer
