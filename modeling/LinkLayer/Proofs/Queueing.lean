import Mathlib.Algebra.GroupWithZero.Nat
import Mathlib.Data.List.Basic
import LinkLayer.Interface.Basic

/-!
What becomes of the datagrams in a queue. Main statement: taking one off is a search from the head
that ends, and releases the expired ones at the front and no other. Whatever is done to a queue, its
datagrams leave in the order in which they came, and each is returned, expired, drained or still
there (`first_in_first_out`).
-/
namespace LinkLayer.Queue

/-- The head is taken off again and again, until it is not expired or there is none. -/
inductive Searched (now : Time) : Queue → Dequeued → Prop
  | ended {queue : Queue} (h : queue.head? = none) :
      Searched now queue { expired := [], datagram := none, rest := queue }
  | found {queue : Queue} {d : Datagram} (h : queue.head? = some d)
      (hd : d.isExpired now = false) :
      Searched now queue { expired := [], datagram := some d, rest := queue.tail }
  | released {queue : Queue} {d : Datagram} {taken : Dequeued} (h : queue.head? = some d)
      (hd : d.isExpired now = true) (ht : Searched now queue.tail taken) :
      Searched now queue { taken with expired := d :: taken.expired }

/-- The longest front of a list in which every datagram is expired. -/
structure ExpiredFront (now : Time) (ds front : List Datagram) : Prop where
  isPrefix : front <+: ds
  expired : ∀ d ∈ front, d.isExpired now = true
  longest : ∀ other, other <+: ds → (∀ d ∈ other, d.isExpired now = true) →
    other.length ≤ front.length

inductive Operation where
  | enqueue (d : Datagram)
  | dequeue (now : Time)
  | drain
deriving DecidableEq, Repr

def Operation.enqueued? : Operation → Option Datagram
  | enqueue d => some d
  | dequeue _ | drain => none

/-- What an operation takes out of a queue. -/
structure Departures where
  expired : List Datagram := []
  returned : Option Datagram := none
  drained : List Datagram := []
deriving DecidableEq, Repr

/-- All that left the queue, in the order in which it stood there. -/
def Departures.all (departures : Departures) : List Datagram :=
  departures.expired ++ departures.returned.toList ++ departures.drained

def Operation.applyTo (queue : Queue) : Operation → Departures × Queue
  | enqueue d => ({}, queue.enqueue d)
  | dequeue now =>
    let taken := queue.dequeue now
    ({ expired := taken.expired, returned := taken.datagram }, taken.rest)
  | drain => ({ drained := queue.drain.1 }, queue.drain.2)

/-- What each operation took out, and the queue that is left of all of them. -/
structure Worked where
  departures : List Departures
  rest : Queue
deriving DecidableEq, Repr

/-- Does the operations one after the other. -/
def work : List Operation → Queue → Worked
  | [], queue => { departures := [], rest := queue }
  | operation :: operations, queue =>
    let done := operation.applyTo queue
    let worked := work operations done.2
    { worked with departures := done.1 :: worked.departures }

variable {queue : Queue} {now : Time} {taken : Dequeued}

theorem dequeue_ofList (ds : List Datagram) (now : Time) :
    dequeue (.ofList ds) now =
      { expired := ds.takeWhile (·.isExpired now)
        datagram := (ds.dropWhile (·.isExpired now)).head?
        rest := .ofList (ds.dropWhile (·.isExpired now)).tail } := by
  simp only [dequeue, Fifo.takeWhile_eq, Fifo.head?_eq, Fifo.toList_dropWhile, Fifo.toList_ofList,
    Dequeued.mk.injEq, true_and]
  ext1
  simp

theorem tail_ofList_cons (d : Datagram) (ds : List Datagram) :
    (Fifo.ofList (d :: ds)).tail = .ofList ds := by
  ext1
  simp

theorem searched_ofList (ds : List Datagram) (now : Time) :
    Searched now (.ofList ds) (dequeue (.ofList ds) now) := by
  induction ds with
  | nil => exact dequeue_ofList [] now ▸ .ended (by simp)
  | cons d ds ih =>
    rw [dequeue_ofList] at ih ⊢
    cases hd : d.isExpired now with
    | false =>
      rw [List.takeWhile_cons_of_neg (by simp [hd]), List.dropWhile_cons_of_neg (by simp [hd]),
        List.tail_cons, ← tail_ofList_cons d ds]
      exact .found (by simp) hd
    | true =>
      rw [List.takeWhile_cons_of_pos (by simp [hd]), List.dropWhile_cons_of_pos (by simp [hd])]
      rw [← tail_ofList_cons d ds] at ih
      exact .released (by simp) hd ih

/-- Two searches of one queue end alike. -/
theorem Searched.unique {other : Dequeued} (h : Searched now queue taken)
    (ho : Searched now queue other) : taken = other := by
  induction h generalizing other with
  | ended h => cases ho <;> simp_all
  | found h hd => cases ho <;> simp_all
  | released h hd ht ih =>
    cases ho with
    | released h' hd' ht' => simp_all [ih ht']
    | ended h' | found h' hd' => simp_all

theorem searched_iff : Searched now queue taken ↔ taken = queue.dequeue now := by
  have hs : Searched now queue (queue.dequeue now) := by
    rw [← queue.ofList_toList]
    exact searched_ofList _ now
  exact ⟨fun h => h.unique hs, fun h => h ▸ hs⟩

theorem expiredFront_takeWhile (now : Time) (ds : List Datagram) :
    ExpiredFront now ds (ds.takeWhile (·.isExpired now)) where
  isPrefix := List.takeWhile_prefix _
  expired := List.all_eq_true.mp List.all_takeWhile
  longest := by
    rintro other ⟨behind, rfl⟩ ho
    rw [List.takeWhile_append_of_pos ho, List.length_append]
    exact Nat.le_add_right _ _

/-- What was there and what came is what left and what is there now. -/
theorem toList_applyTo (operation : Operation) (queue : Queue) :
    queue.toList ++ operation.enqueued?.toList =
      (operation.applyTo queue).1.all ++ (operation.applyTo queue).2.toList := by
  cases operation with
  | enqueue d => simp [Operation.applyTo, Operation.enqueued?, Departures.all]
  | dequeue now =>
    have h := queue.dequeue_append now
    simpa [Operation.applyTo, Operation.enqueued?, Departures.all] using h.symm
  | drain => simp [Operation.applyTo, Operation.enqueued?, Departures.all, drain]

theorem toList_work (operations : List Operation) (queue : Queue) :
    queue.toList ++ operations.filterMap Operation.enqueued? =
      (work operations queue).departures.flatMap Departures.all ++
        (work operations queue).rest.toList := by
  induction operations generalizing queue with
  | nil => simp [work]
  | cons operation operations ih =>
    have hstep := toList_applyTo operation queue
    simp only [List.filterMap_eq_flatMap_toList, List.flatMap_cons, work] at ih ⊢
    rw [← List.append_assoc, hstep, List.append_assoc, ih, List.append_assoc]

theorem returned_sublist_all (departures : List Departures) :
    (departures.filterMap (·.returned)).Sublist (departures.flatMap Departures.all) := by
  rw [List.filterMap_eq_flatMap_toList]
  induction departures with
  | nil => exact .slnil
  | cons first departures ih =>
    have hone : first.returned.toList.Sublist first.all :=
      (List.sublist_append_right _ _).trans (List.sublist_append_left _ _)
    exact hone.append ih

theorem length_all (departures : List Departures) :
    (departures.flatMap Departures.all).length =
      (departures.filterMap (·.returned)).length + (departures.map (·.expired.length)).sum +
        (departures.map (·.drained.length)).sum := by
  rw [List.filterMap_eq_flatMap_toList]
  induction departures with
  | nil => rfl
  | cons first departures ih =>
    simp only [List.flatMap_cons, List.length_append, List.map_cons, List.sum_cons, Departures.all]
    omega

/-- A datagram is taken off by releasing the longest expired front of the queue, wherever other
expired ones stand, and then the head of the rest, if there is one. In any use of a queue what
leaves it are the datagrams that came, in their order, up to those that are left, so the numbers of
them agree and the returned ones keep their order. An interface that goes down drains its three
queues. -/
theorem first_in_first_out :
    (∀ (queue : Queue) (now : Time),
      (∀ taken, Searched now queue taken ↔ taken = queue.dequeue now) ∧
      ∃ front rest, queue.toList = front ++ rest ∧ ExpiredFront now queue.toList front ∧
        queue.dequeue now =
          { expired := front, datagram := rest.head?, rest := .ofList rest.tail }) ∧
    (∀ (operations : List Operation) (queue : Queue),
      let enqueued := operations.filterMap Operation.enqueued?
      let worked := work operations queue
      let returned := worked.departures.filterMap (·.returned)
      queue.toList ++ enqueued =
        worked.departures.flatMap Departures.all ++ worked.rest.toList ∧
      queue.length + enqueued.length =
        returned.length + (worked.departures.map (·.expired.length)).sum +
          (worked.departures.map (·.drained.length)).sum + worked.rest.length ∧
      returned.Sublist (queue.toList ++ enqueued)) ∧
    ∀ {τ : Type} (s : Interface τ),
      (Interface.setUp false).run s =
        { value := ()
          state := { s with
            isUp := false
            sendQueue := s.sendQueue.drain.2
            receiveQueue := s.receiveQueue.drain.2
            deferred := s.deferred.drain.2 }
          events :=
            [.wentDown s.sendQueue.drain.1 s.receiveQueue.drain.1 s.deferred.drain.1] } := by
  refine ⟨?_, ?_, ?_⟩
  · intro queue now
    have hsplit := List.takeWhile_append_dropWhile (p := (·.isExpired now)) (l := queue.toList)
    have hdequeue := dequeue_ofList queue.toList now
    rw [queue.ofList_toList] at hdequeue
    exact ⟨fun taken => searched_iff, _, _, hsplit.symm, expiredFront_takeWhile now _, hdequeue⟩
  · intro operations queue enqueued worked returned
    have hflow : queue.toList ++ enqueued =
        worked.departures.flatMap Departures.all ++ worked.rest.toList :=
      toList_work operations queue
    have hlength := congrArg List.length hflow
    rw [List.length_append, List.length_append, length_all] at hlength
    refine ⟨hflow, ?_, ?_⟩
    · rw [Fifo.length_eq, Fifo.length_eq]
      exact hlength
    · rw [hflow]
      exact (returned_sublist_all _).trans (List.sublist_append_left _ _)
  · intro τ s
    rfl

/-- The third datagram is released neither from behind the second nor when the clock is back. -/
example :
    let d (expiry : Option Time) : Datagram :=
      { header := {}, options := [], payload := [], expiry }
    work [.enqueue (d (some 5)), .enqueue (d none), .enqueue (d (some 3)), .dequeue 7, .dequeue 1,
        .drain] .empty =
      { departures := [{}, {}, {}, { expired := [d (some 5)], returned := d none },
          { returned := d (some 3) }, {}]
        rest := .empty } := by
  decide

end LinkLayer.Queue
