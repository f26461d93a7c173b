import Mathlib.Tactic.Abel
import LinkLayer.Proofs.Handshake
import LinkLayer.Proofs.Tallies

/-!
What two interfaces on a cable count while batches of equal things go between them: datagrams of one
length, the requests for one address, and the replies. Main statements: each batch adds what one of
its members adds, that many times (`passCost_of_unbound`, `passCost_of_bound`,
`intakeCost_messages`, `intakeCost_datagrams`), and both sides' counters follow from the situations
of the two alone (`Tallied.sendQueued`, `Tallied.receiveWaiting`).
-/
namespace LinkLayer

open Interface (Pass)

namespace Bearings

variable {b : Bearings} {now : Time} {pass : Pass} {ip : Ipv4.Address} {mac : MacAddress}
  {ds : List Datagram} {length : Nat}

theorem passCost_of_forall {cost : Counters}
    (h : ∀ d ∈ ds, (b.plan now d).cost pass d = cost) :
    b.passCost pass now ds = ds.length • cost := by
  rw [passCost, List.map_congr_left h, List.map_const', List.sum_replicate]

/-- Without the binding each datagram costs a request, and waits. -/
theorem passCost_of_unbound (hd : ∀ d ∈ ds, b.Sendable now ip d) (hl : b.cache.lookup ip = none) :
    b.passCost .first now ds = ds.length •
      { write.total := 1, send.dequeued := 1, send.arp := 1, arp.queued := 1,
        totals.sentBytes := 42 } := by
  refine passCost_of_forall fun d hm => ?_
  rw [(hd d hm).plan, hl]
  rfl

/-- With the binding each datagram costs its frame. -/
theorem passCost_of_bound (hd : ∀ d ∈ ds, b.Sendable now ip d)
    (hl : b.cache.lookup ip = some mac) (hn : ∀ d ∈ ds, d.ipLength = length) :
    b.passCost pass now ds = ds.length •
      { Pass.countTaken {} pass with
        write.total := 1, send.ip := 1, totals.sentBytes := length } := by
  refine passCost_of_forall fun d hm => ?_
  rw [(hd d hm).plan, hl, ← hn d hm]
  rfl

/-- A datagram that is too long costs nothing but itself. -/
theorem passCost_of_tooLong (h : ∀ d ∈ ds, b.plan now d = .refuse (.badLength d.frameLength)) :
    b.passCost .first now ds = ds.length •
      { send.dequeued := 1, send.badLength := 1, totals.dropped := 1 } := by
  refine passCost_of_forall fun d hm => ?_
  rw [h d hm]
  rfl

end Bearings

namespace Situation

variable {v : Situation} {now : Time} {message : Arp.Message} {ip : Ipv4.Address}
  {mac : MacAddress} {ds : List Datagram} {length : Nat}

theorem sendQueued_nil (h : v.sendQueue = []) (now : Time) : v.sendQueued now = v := by
  obtain ⟨bearings, isUp, sendQueue, deferred, receiveQueue, inbox, outbox, dropped, expired⟩ := v
  subst h
  simp [sendQueued, pass, Bearings.waits, Bearings.frames]

theorem sendQueued_bound (hd : ∀ d ∈ v.sendQueue, v.bearings.Sendable now ip d)
    (hl : v.bearings.cache.lookup ip = some mac) :
    v.sendQueued now = { v with
      sendQueue := []
      outbox := v.outbox ++ v.sendQueue.map fun d => (d.toFrame mac v.bearings.mac).bytes } := by
  obtain ⟨hwaits, hframes⟩ := Bearings.of_bound hd hl
  rw [sendQueued, pass_of_sendable hd, hwaits, hframes, List.append_nil]

theorem sendQueued_tooLong
    (h : ∀ d ∈ v.sendQueue, v.bearings.plan now d = .refuse (.badLength d.frameLength)) :
    v.sendQueued now = { v with
      sendQueue := [], dropped := v.dropped + v.sendQueue.length } := by
  have hwaits : v.bearings.waits now v.sendQueue = [] := by
    refine List.filter_eq_nil_iff.mpr fun d hm => ?_
    rw [h d hm]
    exact Bool.false_ne_true
  have hframes : v.bearings.frames now v.sendQueue = [] := by
    refine List.filterMap_eq_nil_iff.mpr fun d hm => ?_
    rw [h d hm]
    rfl
  have hrefused : (v.sendQueue.countP fun d => (v.bearings.plan now d).refuses) =
      v.sendQueue.length := by
    refine List.countP_eq_length.mpr fun d hm => ?_
    rw [h d hm]
    rfl
  have hexpired : (v.sendQueue.countP fun d => (v.bearings.plan now d).expires) = 0 := by
    refine List.countP_eq_zero.mpr fun d hm => ?_
    rw [h d hm]
    exact Bool.false_ne_true
  rw [sendQueued, pass, hwaits, hframes, hrefused, hexpired, List.append_nil, List.append_nil,
    Nat.add_zero]

/-- What the frame of a message costs, whatever the message tells. -/
def messageCost : Counters :=
  { receive.total := 1, receive.good := 1, process.arp := 1, totals.receivedBytes := 42 }

theorem takeInCost_message (v : Situation) (now : Time) (message : Arp.Message) :
    v.takeInCost now message.toFrame.bytes = messageCost + v.hearCost now message := by
  have hm : Arp.Message.ofFrame ⟨message.toFrame.bytes⟩ = .ok message :=
    Arp.Message.ofFrame_toFrame message
  simp only [takeInCost, Arp.Message.handledKind_toFrame, hm]
  rfl

/-- Where nothing waits, equal messages are read, counted and answered one by one. -/
theorem intakeCost_messages (hd : v.deferred = []) (clock : Clock) (message : Arp.Message)
    (n : Nat) :
    v.intakeCost clock (List.replicate n message.toFrame.bytes) =
      n • ({ read.total := 1 } + messageCost + v.bearings.answerCost message) +
        { read.total := 1 } := by
  induction n generalizing v clock with
  | zero =>
    rw [zero_nsmul, zero_add]
    rfl
  | succ n ih =>
    have hhear : v.hearCost clock.later.time message = v.bearings.answerCost message := by
      rw [hearCost, hd]
      exact add_zero _
    obtain ⟨hnext, hsame⟩ : (v.takeIn clock.later.time message.toFrame.bytes).deferred = [] ∧
        (v.takeIn clock.later.time message.toFrame.bytes).bearings.answerCost message =
          v.bearings.answerCost message := by
      rw [takeIn_message, hear_idle hd]
      exact ⟨hd, rfl⟩
    rw [List.replicate_succ, intakeCost, takeInCost_message, hhear, ih hnext, hsame, succ_nsmul',
      ← add_assoc, ← add_assoc]

/-- Frames with whole datagrams of one length. -/
theorem intakeCost_datagrams (clock : Clock) (source : MacAddress) (hm : mac ≠ .broadcast)
    (hd : ∀ d ∈ ds, d.Fits ∧ d.Consistent) (hn : ∀ d ∈ ds, d.ipLength = length) :
    v.intakeCost clock (ds.map fun d => (d.toFrame mac source).bytes) =
      ds.length •
        { read.total := 1, receive.total := 1, receive.good := 1, process.normalIp := 1,
          totals.receivedBytes := max Ethernet.minLength (Ethernet.headerLength + length) } +
        { read.total := 1 } := by
  induction ds generalizing v clock with
  | nil =>
    rw [List.length_nil, zero_nsmul, zero_add]
    rfl
  | cons d ds ih =>
    obtain ⟨⟨hf, hc⟩, hd⟩ := List.forall_mem_cons.mp hd
    obtain ⟨hone, hn⟩ := List.forall_mem_cons.mp hn
    have hp : Ipv4.Packet.ofFrame ⟨(d.toFrame mac source).bytes⟩ = .ok _ :=
      Datagram.ofFrame_toFrame hf hc mac source
    have hl : (d.toFrame mac source).bytes.length =
        max Ethernet.minLength (Ethernet.headerLength + length) := by
      rw [← hone]
      exact d.length_toFrame mac source
    have hcost : { read.total := 1 } +
          v.takeInCost clock.later.time (d.toFrame mac source).bytes =
        { read.total := 1, receive.total := 1, receive.good := 1, process.normalIp := 1,
          totals.receivedBytes := max Ethernet.minLength (Ethernet.headerLength + length) } := by
      simp [takeInCost, Datagram.handledKind_toFrame hm, hp, hl, Counters.countKind,
        Counters.add_eq, Counters.zipWith]
    rw [List.map_cons, intakeCost, hcost, ih _ hd hn, List.length_cons, succ_nsmul', add_assoc]

/-- The first reply releases all that waits, and all replies are counted. -/
theorem intakeCost_answers (clock : Clock) (message : Arp.Message)
    (hd : ∀ d ∈ v.deferred, v.bearings.Sendable clock.later.time message.senderIp d)
    (ho : message.operation = .reply)
    (hl : (v.bearings.cache.learn message).lookup message.senderIp = some message.senderMac)
    (hn : ∀ d ∈ v.deferred, d.ipLength = length) :
    v.intakeCost clock (List.replicate v.deferred.length message.toFrame.bytes) =
      v.deferred.length • ({ read.total := 1 } + messageCost + v.bearings.answerCost message) +
        v.deferred.length •
          { write.total := 1, send.ip := 1, arp.dequeued := 1, totals.sentBytes := length } +
        { read.total := 1 } := by
  have hfirst := takeIn_answer hd ho hl
  cases hv : v.deferred.length with
  | zero =>
    rw [zero_nsmul, zero_nsmul, zero_add, zero_add]
    rfl
  | succ n =>
    have hb : ∀ d ∈ v.deferred, Bearings.Sendable
        { v.bearings with cache := v.bearings.cache.learn message } clock.later.time
          message.senderIp d :=
      fun d hm => ⟨(hd d hm).fresh, (hd d hm).route⟩
    have hhear : v.hearCost clock.later.time message =
        v.bearings.answerCost message + v.deferred.length •
          { write.total := 1, send.ip := 1, arp.dequeued := 1, totals.sentBytes := length } :=
      congrArg (v.bearings.answerCost message + ·) (Bearings.passCost_of_bound hb hl hn)
    obtain ⟨hnext, hsame⟩ : (v.takeIn clock.later.time message.toFrame.bytes).deferred = [] ∧
        (v.takeIn clock.later.time message.toFrame.bytes).bearings.answerCost message =
          v.bearings.answerCost message := by
      rw [hfirst]
      exact ⟨rfl, rfl⟩
    rw [List.replicate_succ, intakeCost, takeInCost_message, hhear,
      intakeCost_messages hnext clock.nextFrame message n, hsame, hv,
      succ_nsmul' (_ + messageCost + v.bearings.answerCost message) n]
    abel

end Situation

namespace Cable

variable {cable : Cable} {side : Side} {now : Time} {clock : Clock} {call : Interface.Call}
  {v w v' w' : Situation} {c c' d : Counters}

/-- Where both sides stand, and what they have counted. -/
structure Tallied (cable : Cable) (side : Side) (v w : Situation) (c c' : Counters) : Prop where
  stands : Stands cable side v w
  here : (cable.interface side).counters = c
  there : (cable.interface side.other).counters = c'

theorem Tallied.symm (h : Tallied cable side v w c c') : Tallied cable side.other w v c' c where
  stands := h.stands.symm
  here := h.there
  there := by rw [Side.other_other, h.here]

theorem tallied_of_symm (h : Tallied cable side.other w v c' c) : Tallied cable side v w c c' := by
  have hs := h.symm
  rwa [Side.other_other] at hs

/-- The other side counts nothing while a call is made here. -/
theorem Tallied.perform (h : Tallied cable side v w c c')
    (hs : Stands ((perform side clock call).run cable).state side v' w')
    (hc : ((Interface.perform clock call).run (cable.interface side)).state.counters = d) :
    Tallied ((perform side clock call).run cable).state side v' w' d c' where
  stands := hs
  here := by
    rw [interface_perform]
    exact hc
  there := by
    rw [interface_perform_other]
    exact h.there

theorem Tallied.setUp (h : Tallied cable side v w c c') (ho : v.outbox = []) (clock : Clock) :
    Tallied ((Cable.perform side clock (.setUp true)).run cable).state side { v with isUp := true }
      w c c' :=
  h.perform (h.stands.setUp ho clock) h.here

theorem Tallied.submit (h : Tallied cable side v w c c') (ho : v.outbox = []) (clock : Clock)
    (d : Datagram) :
    Tallied ((Cable.perform side clock (.submit d)).run cable).state side
      (v.submit clock.time d) w c c' :=
  h.perform (h.stands.submit ho clock d) h.here

theorem Tallied.sendQueued (h : Tallied cable side v w c c') (hu : v.isUp = true)
    (ha : ∀ d ∈ v.sendQueue, clock.Agrees now d) (hv : v.sendQueued now = v')
    (hc : v.bearings.passCost .first now v.sendQueue = d) :
    Tallied ((Cable.perform side clock .sendQueued).run cable).state side { v' with outbox := [] }
      { w with inbox := w.inbox ++ v'.outbox } (c + d) c' := by
  refine h.perform (h.stands.sendQueued hu ha hv) ?_
  have hup := (congrArg Situation.isUp h.stands.here).trans hu
  rw [Interface.counters_sendQueued hup h.stands.worksHere (h.stands.here ▸ ha), h.stands.here,
    h.here, hc]

theorem Tallied.receiveWaiting (h : Tallied cable side v w c c') (hu : v.isUp = true)
    (hi : [] ∉ v.inbox) (ha : ∀ d ∈ v.deferred, clock.Agrees now d)
    (hv : v.receiveWaiting clock = v') (hc : v.intakeCost clock v.inbox = d) :
    Tallied ((Cable.perform side clock .receiveWaiting).run cable).state side
      { v' with outbox := [] } { w with inbox := w.inbox ++ v'.outbox } (c + d) c' := by
  refine h.perform (h.stands.receiveWaiting hu hi ha hv) ?_
  have hup := (congrArg Situation.isUp h.stands.here).trans hu
  rw [Interface.counters_receiveWaiting hup h.stands.worksHere (h.stands.here ▸ hi)
    (h.stands.here ▸ ha), h.stands.here, h.here, hc]

theorem Tallied.takeReceived (h : Tallied cable side v w c c') (ho : v.outbox = []) (clock : Clock)
    (hq : ∀ d ∈ v.receiveQueue, d.isExpired clock.time = false) :
    ((Cable.perform side clock .takeReceived).run cable).value.returned? = v.receiveQueue.head? ∧
      Tallied ((Cable.perform side clock .takeReceived).run cable).state side
        { v with receiveQueue := v.receiveQueue.tail } w c c' := by
  obtain ⟨hr, hs⟩ := h.stands.takeReceived ho clock hq
  refine ⟨hr, h.perform hs ?_⟩
  rw [Interface.counters_takeReceived (h.stands.here ▸ hq), h.here]

end Cable
end LinkLayer
