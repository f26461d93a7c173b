import LinkLayer.Datagram
import LinkLayer.Fifo

/-!
First-in first-out queues of datagrams. Nothing watches the queue: a datagram that became too old is
noticed when it reaches the head.
-/
namespace LinkLayer

abbrev Queue := Fifo Datagram

/-- What taking the head off a queue gives: the expired datagrams before it, the head itself, and
the queue behind it. -/
structure Dequeued where
  expired : List Datagram
  datagram : Option Datagram
  rest : Queue
deriving DecidableEq, Repr

namespace Queue

variable {queue : Queue} {now : Time}

def enqueue (queue : Queue) (d : Datagram) : Queue := queue.push d

/-- Takes off the first datagram that is not expired and releases the ones before it. -/
def dequeue (queue : Queue) (now : Time) : Dequeued :=
  let live := queue.dropWhile (·.isExpired now)
  { expired := queue.takeWhile (·.isExpired now), datagram := live.head?, rest := live.tail }

/-- Releases everything, expired or not. -/
def drain (queue : Queue) : List Datagram × Queue := (queue.toList, .empty)

@[simp] theorem toList_enqueue (queue : Queue) (d : Datagram) :
    (queue.enqueue d).toList = queue.toList ++ [d] := Fifo.toList_push d

theorem dequeue_append (queue : Queue) (now : Time) :
    (queue.dequeue now).expired ++ (queue.dequeue now).datagram.toList ++
      (queue.dequeue now).rest.toList = queue.toList := by
  have h : ∀ ds : List Datagram, ds.head?.toList ++ ds.tail = ds := fun ds => by
    cases ds <;> rfl
  simp [dequeue, h, List.takeWhile_append_dropWhile]

theorem isExpired_of_mem_expired {d : Datagram} (h : d ∈ (queue.dequeue now).expired) :
    d.isExpired now = true := by
  rw [dequeue, Fifo.takeWhile_eq] at h
  exact List.all_eq_true.mp List.all_takeWhile d h

theorem not_isExpired_of_dequeue {d : Datagram} (h : (queue.dequeue now).datagram = some d) :
    d.isExpired now = false := by
  have := List.head?_dropWhile_not (·.isExpired now) queue.toList
  simp only [dequeue, Fifo.head?_eq, Fifo.toList_dropWhile] at h
  rw [h] at this
  simpa using this

theorem rest_eq_empty_of_dequeue (h : (queue.dequeue now).datagram = none) :
    (queue.dequeue now).rest = .empty := by
  simp only [dequeue, Fifo.head?_eq, List.head?_eq_none_iff] at h
  ext1
  simp [dequeue, -Fifo.toList_dropWhile, h]

end Queue
end LinkLayer
