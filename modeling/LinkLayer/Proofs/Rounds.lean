import LinkLayer.Proofs.Letters

/-!
One round of the loopback run. Main statements: what becomes of both sides and of their counters in
a round in which there is nothing to do (`At.round_idle`), in one in which the host has only letters
that are too long (`At.round_tooLong`), and in the two that bring letters there and back: in the
first the sides meet (`At.round_meeting`), in the second the letters go round (`At.round_echo`).
-/
namespace LinkLayer

/-- A side that is up and has nothing to send and nothing for its host, and is sent nothing. -/
structure Situation.Rests (v : Situation) : Prop where
  isUp : v.isUp = true
  sendQueue : v.sendQueue = []
  deferred : v.deferred = []
  receiveQueue : v.receiveQueue = []
  inbox : v.inbox = []
  outbox : v.outbox = []

theorem Situation.rests_idle (b : Bearings) : (idle b).Rests := ⟨rfl, rfl, rfl, rfl, rfl, rfl⟩

namespace Loopback

variable {options : Options} {side : Side} {clock : Nat → Clock} {n length : Nat}
  {ds : List Datagram} {v w v' w' : Situation} {c c' d : Counters} {now : Time}

/-- What a read costs that finds nothing. -/
def readCost : Counters := { read.total := 1 }

/-- A letter that has to wait, and the request it causes. -/
def askCost : Counters :=
  { write.total := 1, send.dequeued := 1, send.arp := 1, arp.queued := 1, totals.sentBytes := 42 }

/-- A request that is read and answered. -/
def requestCost : Counters :=
  { read.total := 1, write.total := 1, receive.total := 1, receive.good := 1, process.arp := 1,
    send.arp := 1, arp.requests := 1, totals.sentBytes := 42, totals.receivedBytes := 42 }

/-- A reply that is read. -/
def replyCost : Counters :=
  { read.total := 1, receive.total := 1, receive.good := 1, process.arp := 1, arp.answers := 1,
    totals.receivedBytes := 42 }

/-- A letter that is sent after it had to wait. -/
def releaseCost (length : Nat) : Counters :=
  { write.total := 1, send.ip := 1, arp.dequeued := 1, totals.sentBytes := 20 + length }

/-- A letter that is sent at once. -/
def postCost (length : Nat) : Counters :=
  { write.total := 1, send.dequeued := 1, send.ip := 1, totals.sentBytes := 20 + length }

/-- A letter that is read, with the padding of its frame. -/
def getCost (length : Nat) : Counters :=
  { read.total := 1, receive.total := 1, receive.good := 1, process.normalIp := 1,
    totals.receivedBytes := max 60 (34 + length) }

/-- A letter that is too long. -/
def refuseCost : Counters := { send.dequeued := 1, send.badLength := 1, totals.dropped := 1 }

namespace Session

variable {session : Session}

/-- The peer goes on as long as it gets something. -/
theorem echoReceived_succ (session : Session) (limit : Nat) :
    session.echoReceived (limit + 1) =
      match (session.perform .far .takeReceived).1.returned? with
      | some d =>
        let next := (session.run .far .takeReceived).run .far (.submit (echo d))
        { next with echoed := next.echoed + 1 }.echoReceived limit
      | none => session.run .far .takeReceived := by
  rw [echoReceived, run]
  generalize session.perform .far .takeReceived = made
  obtain ⟨reply, next⟩ := made
  cases reply with
  | received d => cases d <;> rfl
  | _ => rfl

theorem countReturned_succ (session : Session) (limit : Nat) :
    session.countReturned (limit + 1) =
      match (session.perform .near .takeReceived).1.returned? with
      | some _ =>
        let next := session.run .near .takeReceived
        { next with returned := next.returned + 1 }.countReturned limit
      | none => session.run .near .takeReceived := by
  rw [countReturned, run]
  generalize session.perform .near .takeReceived = made
  obtain ⟨reply, next⟩ := made
  cases reply with
  | received d => cases d <;> rfl
  | _ => rfl

theorem calls_run (session : Session) (side : Side) (call : Interface.Call) :
    (session.run side call).calls = session.calls + 1 := rfl

theorem calls_lt_echoReceived (session : Session) (limit : Nat) :
    session.calls < (session.echoReceived (limit + 1)).calls := by
  induction limit generalizing session with
  | zero =>
    rw [echoReceived_succ]
    split
    · exact Nat.lt_add_of_pos_right (Nat.zero_lt_succ 1)
    · exact Nat.lt_succ_self _
  | succ limit ih =>
    rw [echoReceived_succ]
    split
    · refine Nat.lt_trans ?_ (ih _)
      exact Nat.lt_add_of_pos_right (Nat.zero_lt_succ 1)
    · exact Nat.lt_succ_self _

theorem calls_lt_countReturned (session : Session) (limit : Nat) :
    session.calls < (session.countReturned (limit + 1)).calls := by
  induction limit generalizing session with
  | zero =>
    rw [countReturned_succ]
    split <;> exact Nat.lt_succ_self _
  | succ limit ih =>
    rw [countReturned_succ]
    split
    · refine Nat.lt_trans ?_ (ih _)
      exact Nat.lt_succ_self _
    · exact Nat.lt_succ_self _

theorem calls_lt_round (session : Session) : session.calls < session.round.calls := by
  let received := (session.run .near .sendQueued).run .far .receiveWaiting
  let echoes := received.echoReceived (received.received .far + 1)
  let back := (echoes.run .far .sendQueued).run .near .receiveWaiting
  have hechoes : session.calls + 2 < echoes.calls := calls_lt_echoReceived received _
  have hround : echoes.calls + 2 < session.round.calls := calls_lt_countReturned back _
  omega

/-- Where a run stands at a side and at the other one. -/
structure At (session : Session) (clock : Nat → Clock) (side : Side) (v w : Situation)
    (c c' : Counters) : Prop where
  tallied : Cable.Tallied session.cable side v w c c'
  clock : session.clock = clock

theorem At.symm (h : session.At clock side v w c c') : session.At clock side.other w v c' c :=
  ⟨h.tallied.symm, h.clock⟩

theorem at_of_symm (h : session.At clock side.other w v c' c) : session.At clock side v w c c' :=
  ⟨Cable.tallied_of_symm h.tallied, h.clock⟩

theorem At.length_received (h : session.At clock side v w c c') :
    session.received side = v.receiveQueue.length := by
  rw [received, Fifo.length_eq, ← h.tallied.stands.here]
  rfl

theorem At.setUp (h : session.At clock side v w c c') (ho : v.outbox = []) :
    (session.run side (.setUp true)).At clock side { v with isUp := true } w c c' :=
  ⟨h.tallied.setUp ho _, h.clock⟩

theorem At.submit (h : session.At clock side v w c c') (ho : v.outbox = []) (d : Datagram) :
    (session.run side (.submit d)).At clock side (v.submit (clock session.calls).time d) w c
      c' := by
  obtain ⟨ht, rfl⟩ := h
  exact ⟨ht.submit ho _ d, rfl⟩

theorem At.sendQueued (h : session.At clock side v w c c') (hu : v.isUp = true)
    (ha : ∀ d ∈ v.sendQueue, (clock session.calls).Agrees now d) (hv : v.sendQueued now = v')
    (hc : v.bearings.passCost .first now v.sendQueue = d) :
    (session.run side .sendQueued).At clock side { v' with outbox := [] }
      { w with inbox := w.inbox ++ v'.outbox } (c + d) c' := by
  obtain ⟨ht, rfl⟩ := h
  exact ⟨ht.sendQueued hu ha hv hc, rfl⟩

theorem At.receiveWaiting (h : session.At clock side v w c c') (hu : v.isUp = true)
    (hi : [] ∉ v.inbox) (ha : ∀ d ∈ v.deferred, (clock session.calls).Agrees now d)
    (hv : v.receiveWaiting (clock session.calls) = v')
    (hc : v.intakeCost (clock session.calls) v.inbox = d) :
    (session.run side .receiveWaiting).At clock side { v' with outbox := [] }
      { w with inbox := w.inbox ++ v'.outbox } (c + d) c' := by
  obtain ⟨ht, rfl⟩ := h
  exact ⟨ht.receiveWaiting hu hi ha hv hc, rfl⟩

theorem At.takeReceived (h : session.At clock side v w c c') (ho : v.outbox = [])
    (hq : ∀ d ∈ v.receiveQueue, d.isExpired (clock session.calls).time = false) :
    (session.perform side .takeReceived).1.returned? = v.receiveQueue.head? ∧
      (session.run side .takeReceived).At clock side
        { v with receiveQueue := v.receiveQueue.tail } w c c' := by
  obtain ⟨ht, rfl⟩ := h
  obtain ⟨hr, hnext⟩ := ht.takeReceived ho _ hq
  exact ⟨hr, hnext, rfl⟩

/-- Where nothing waits no clock is wrong. -/
theorem agrees_nil (clock : Clock) : ∀ d ∈ ([] : List Datagram), clock.Agrees 0 d :=
  List.forall_mem_nil _

theorem At.quiet (h : session.At clock side { v with outbox := [] }
    { w with inbox := w.inbox ++ v.outbox } c c') (ho : v.outbox = []) :
    session.At clock side v w c c' := by
  rw [ho, List.append_nil, ← ho] at h
  exact h

/-- A side that has nothing to send sends nothing. -/
theorem At.sendNothing (h : session.At clock side v w c c') (hu : v.isUp = true)
    (hq : v.sendQueue = []) (ho : v.outbox = []) :
    (session.run side .sendQueued).At clock side v w c c' := by
  have hcost : v.bearings.passCost .first 0 v.sendQueue = 0 := by
    rw [hq]
    rfl
  have hs := (h.sendQueued hu (hq ▸ agrees_nil _) (Situation.sendQueued_nil hq 0) hcost).quiet ho
  rwa [add_zero] at hs

/-- A side that is sent nothing reads once. -/
theorem At.receiveNothing (h : session.At clock side v w c c') (hu : v.isUp = true)
    (hd : v.deferred = []) (hi : v.inbox = []) (ho : v.outbox = []) :
    (session.run side .receiveWaiting).At clock side v w (c + readCost) c' := by
  have hcost : v.intakeCost (clock session.calls) v.inbox = readCost := by
    rw [hi]
    rfl
  exact (h.receiveWaiting hu (hi ▸ List.not_mem_nil) (hd ▸ agrees_nil _)
    (Situation.receiveWaiting_nil hi _) hcost).quiet ho

/-- A host that received nothing asks once. -/
theorem At.takeNothing (h : session.At clock side v w c c') (ho : v.outbox = [])
    (hq : v.receiveQueue = []) :
    (session.perform side .takeReceived).1.returned? = none ∧
      (session.run side .takeReceived).At clock side v w c c' := by
  obtain ⟨hr, htaken⟩ := h.takeReceived ho (by simp [hq])
  rw [hq, List.head?_nil] at hr
  rw [hq, List.tail_nil, ← hq] at htaken
  exact ⟨hr, htaken⟩

theorem At.echoNothing (h : session.At clock .far w v c' c) (ho : w.outbox = [])
    (hq : w.receiveQueue = []) (limit : Nat) :
    (session.echoReceived (limit + 1)).At clock .far w v c' c ∧
      (session.echoReceived (limit + 1)).echoed = session.echoed ∧
      (session.echoReceived (limit + 1)).returned = session.returned := by
  obtain ⟨hr, htaken⟩ := h.takeNothing ho hq
  rw [echoReceived_succ, hr]
  exact ⟨htaken, rfl, rfl⟩

theorem At.countNothing (h : session.At clock .near v w c c') (ho : v.outbox = [])
    (hq : v.receiveQueue = []) (limit : Nat) :
    (session.countReturned (limit + 1)).At clock .near v w c c' ∧
      (session.countReturned (limit + 1)).echoed = session.echoed ∧
      (session.countReturned (limit + 1)).returned = session.returned := by
  obtain ⟨hr, htaken⟩ := h.takeNothing ho hq
  rw [countReturned_succ, hr]
  exact ⟨htaken, rfl, rfl⟩

/-- The peer hands in again all that it received. -/
theorem At.echoReceived {limit : Nat} (h : session.At clock .far w v c' c) (ho : w.outbox = [])
    (hb : w.bearings.config = configOf options .far)
    (hd : ∀ d ∈ w.receiveQueue, Posted clock n .near length d) (ht : Timely clock n)
    (hq : w.receiveQueue.length = limit) (hn : (session.echoReceived (limit + 1)).calls ≤ n) :
    ∃ es, es.length = limit ∧ (∀ d ∈ es, Posted clock n .far length d) ∧
      (session.echoReceived (limit + 1)).At clock .far
        { w with receiveQueue := [], sendQueue := w.sendQueue ++ es } v c' c ∧
      (session.echoReceived (limit + 1)).echoed = session.echoed + limit ∧
      (session.echoReceived (limit + 1)).returned = session.returned := by
  subst hq
  generalize hq : w.receiveQueue = queue at hd hn ⊢
  -- The limit is one more than the queue is long, so the loop ends with a call that finds none.
  induction queue generalizing session w with
  | nil =>
    obtain ⟨hat, hechoed, hreturned⟩ := h.echoNothing ho hq 0
    have hsame : { w with receiveQueue := [], sendQueue := w.sendQueue ++ [] } = w := by
      rw [List.append_nil, ← hq]
    refine ⟨[], rfl, by simp, ?_, hechoed, hreturned⟩
    rw [hsame]
    exact hat
  | cons d queue ih =>
    have hcalls := calls_lt_echoReceived session (queue.length + 1)
    obtain ⟨hr, htaken⟩ := h.takeReceived ho (by
      rw [hq]
      exact fun d hm => (hd d hm).lasts _ (Nat.lt_of_lt_of_le hcalls hn) 0 0)
    rw [hq] at hr htaken
    obtain ⟨hone, hd⟩ := List.forall_mem_cons.mp hd
    rw [List.length_cons, echoReceived_succ, hr, List.head?_cons] at hn ⊢
    let next := (session.run .far .takeReceived).run .far (.submit (echo d))
    have hnext : session.calls + 1 < n :=
      Nat.lt_of_lt_of_le (Nat.lt_trans (Nat.lt_succ_self _)
        (calls_lt_echoReceived { next with echoed := next.echoed + 1 } queue.length)) hn
    have hsubmitted := htaken.submit ho (echo d)
    have hback : Posted clock n .far length
        ((echo d).stamp ((clock (session.calls + 1)).time + w.bearings.config.lifetime)) := by
      rw [hb]
      exact hone.letter.echo.posted ht hnext 0 0
    have hagain : { next with echoed := next.echoed + 1 }.At clock .far _ v c' c :=
      ⟨hsubmitted.tallied, hsubmitted.clock⟩
    obtain ⟨es, hlength, hes, hat, hechoed, hreturned⟩ := ih hagain ho hb rfl hd hn
    refine ⟨_ :: es, congrArg (· + 1) hlength, List.forall_mem_cons.mpr ⟨hback, hes⟩, ?_, ?_,
      hreturned⟩
    · simp only [Situation.submit, List.append_assoc, List.singleton_append] at hat
      exact hat
    · refine hechoed.trans ?_
      change session.echoed + 1 + queue.length = session.echoed + (queue.length + 1)
      omega

/-- The host counts all that it received. -/
theorem At.countReturned {limit : Nat} (h : session.At clock .near v w c c') (ho : v.outbox = [])
    (hd : ∀ d ∈ v.receiveQueue, Posted clock n .far length d)
    (hq : v.receiveQueue.length = limit) (hn : (session.countReturned (limit + 1)).calls ≤ n) :
    (session.countReturned (limit + 1)).At clock .near { v with receiveQueue := [] } w c c' ∧
      (session.countReturned (limit + 1)).echoed = session.echoed ∧
      (session.countReturned (limit + 1)).returned = session.returned + limit := by
  subst hq
  generalize hq : v.receiveQueue = queue at hd hn ⊢
  induction queue generalizing session v with
  | nil =>
    have hsame : { v with receiveQueue := [] } = v := by rw [← hq]
    rw [hsame]
    exact h.countNothing ho hq 0
  | cons d queue ih =>
    have hcalls := calls_lt_countReturned session (queue.length + 1)
    obtain ⟨hr, htaken⟩ := h.takeReceived ho (by
      rw [hq]
      exact fun d hm => (hd d hm).lasts _ (Nat.lt_of_lt_of_le hcalls hn) 0 0)
    rw [hq] at hr htaken
    rw [List.length_cons, countReturned_succ, hr, List.head?_cons] at hn ⊢
    let next := session.run .near .takeReceived
    have hagain : { next with returned := next.returned + 1 }.At clock .near _ w c c' :=
      ⟨htaken.tallied, htaken.clock⟩
    obtain ⟨hat, hechoed, hreturned⟩ := ih hagain ho rfl (List.forall_mem_cons.mp hd).2 hn
    refine ⟨hat, hechoed, hreturned.trans ?_⟩
    change session.returned + 1 + queue.length = session.returned + (queue.length + 1)
    omega

/-- A round in which nothing comes to either host. What both sides do on the way in is left open. -/
theorem at_round (h : ((session.run .near .sendQueued).run .far .receiveWaiting).At clock .far
      w v c' c) (hw : w.Rests) (hr' : v'.receiveQueue = []) (ho' : v'.outbox = [])
    (hv : ∀ t : Session, t.calls < session.round.calls → t.At clock .near v w c c' →
      (t.run .near .receiveWaiting).At clock .near v' w' d c') :
    session.round.At clock .near v' w' d c' ∧ session.round.echoed = session.echoed ∧
      session.round.returned = session.returned := by
  let received := (session.run .near .sendQueued).run .far .receiveWaiting
  let echoes := received.echoReceived (received.received .far + 1)
  let back := (echoes.run .far .sendQueued).run .near .receiveWaiting
  have hround : session.round = back.countReturned (back.received .near + 1) := rfl
  obtain ⟨hat, hechoed, hreturned⟩ := h.echoNothing hw.outbox hw.receiveQueue
    (received.received .far)
  have hsent : (echoes.run .far .sendQueued).At clock .far w v c' c :=
    hat.sendNothing hw.isUp hw.sendQueue hw.outbox
  have hcalls : (echoes.run .far .sendQueued).calls < session.round.calls :=
    Nat.lt_trans (Nat.lt_succ_self _) (calls_lt_countReturned back _)
  obtain ⟨hat', hechoed', hreturned'⟩ := (hv _ hcalls hsent.symm).countNothing ho' hr'
    (back.received .near)
  rw [hround]
  exact ⟨hat', hechoed'.trans hechoed, hreturned'.trans hreturned⟩

/-- Both sides read once in a round in which neither has anything to do. -/
theorem At.round_idle (h : session.At clock .near v w c c') (hv : v.Rests) (hw : w.Rests) :
    session.round.At clock .near v w (c + readCost) (c' + readCost) ∧
      session.round.echoed = session.echoed ∧ session.round.returned = session.returned := by
  have hsent := h.sendNothing hv.isUp hv.sendQueue hv.outbox
  have hread := hsent.symm.receiveNothing hw.isUp hw.deferred hw.inbox hw.outbox
  exact at_round hread hw hv.receiveQueue hv.outbox fun t _ ht =>
    ht.receiveNothing hv.isUp hv.deferred hv.inbox hv.outbox

/-- A round in which the host has only datagrams that are too long. -/
theorem At.round_tooLong
    (h : session.At clock .near { Situation.idle (alone options .near) with sendQueue := ds } w
      c c') (hw : w.Rests) (hd : ∀ d ∈ ds, Posted clock n .near length d) (hl : 1480 < length)
    (hn : session.calls < n) :
    session.round.At clock .near { Situation.idle (alone options .near) with dropped := ds.length }
        w (c + ds.length • refuseCost + readCost) (c' + readCost) ∧
      session.round.echoed = session.echoed ∧ session.round.returned = session.returned := by
  have hplan : ∀ d ∈ ds, (alone options .near).plan (clock session.calls).time d =
      .refuse (.badLength d.frameLength) := fun d hm =>
    (hd d hm).letter.plan_of_tooLong hl ((hd d hm).lasts _ hn 0 0) rfl
  have hafter : { Situation.idle (alone options .near) with sendQueue := ds }.sendQueued
      (clock session.calls).time =
        { Situation.idle (alone options .near) with dropped := ds.length } := by
    rw [Situation.sendQueued_tooLong hplan]
    simp [Situation.idle]
  have hsent := (h.sendQueued rfl (fun d hm => (hd d hm).agrees hn 0 0) hafter
    (Bearings.passCost_of_tooLong hplan)).quiet rfl
  have hread := hsent.symm.receiveNothing hw.isUp hw.deferred hw.inbox hw.outbox
  exact at_round hread hw rfl rfl fun t _ ht => ht.receiveNothing rfl rfl rfl rfl

def request : Arp.Message := .whoHas hostMac hostIp peerIp

def reply : Arp.Message := .isAt peerMac peerIp hostMac hostIp

/-- The frame of a letter between two sides that have met. -/
def frameOf (side : Side) (d : Datagram) : Bytes :=
  (d.toFrame (macOf side.other) (macOf side)).bytes

/-- The host has nobody's address yet, so it asks for the peer once for each letter. -/
theorem At.ask
    (h : session.At clock .near { Situation.idle (alone options .near) with sendQueue := ds }
      (.idle (alone options .far)) c c') (hd : ∀ d ∈ ds, Posted clock n .near length d)
    (hl : length ≤ 1480) (hn : session.calls < n) :
    (session.run .near .sendQueued).At clock .near
      { Situation.idle (alone options .near) with deferred := ds }
      { Situation.idle (alone options .far) with
        inbox := List.replicate ds.length request.toFrame.bytes }
      (c + ds.length • askCost) c' := by
  have hs : ∀ d ∈ ds, (alone options .near).Sendable (clock session.calls).time peerIp d :=
    fun d hm => (hd d hm).sendable hl hn 0 0 rfl
  exact h.sendQueued rfl (fun d hm => (hd d hm).agrees hn 0 0)
    (Situation.sendQueued_unbound hs lookup_alone)
    (Bearings.passCost_of_unbound hs lookup_alone)

/-- The peer answers each request. -/
theorem At.answer {k : Nat} (hk : k ≠ 0)
    (h : session.At clock .far { Situation.idle (alone options .far) with
      inbox := List.replicate k request.toFrame.bytes } v c' c) :
    (session.run .far .receiveWaiting).At clock .far (.idle (met options .far))
      { v with inbox := v.inbox ++ List.replicate k reply.toFrame.bytes }
      (c' + (k • requestCost + readCost)) c := by
  have hcost := Situation.intakeCost_messages (v := { Situation.idle (alone options .far) with
    inbox := List.replicate k request.toFrame.bytes }) rfl (clock session.calls) request k
  have hall := Situation.handle_requests (v := .idle (alone options .far))
    (clock session.calls) request k rfl rfl rfl
  have hmet : (·.learn request)^[k] (Situation.idle (alone options .far)).bearings.cache =
      (met options .far).cache := iterate_learn_alone rfl rfl hk
  rw [hmet] at hall
  exact h.receiveWaiting rfl (Cable.nil_not_mem_messages _ request) (agrees_nil _) hall hcost

/-- The first reply lets the host send all its letters. -/
theorem At.release
    (h : session.At clock .near { Situation.idle (alone options .near) with
      deferred := ds, inbox := List.replicate ds.length reply.toFrame.bytes } w c c')
    (hd : ∀ d ∈ ds, Posted clock n .near length d) (hl : length ≤ 1480) (hn : session.calls < n)
    (hne : ds ≠ []) :
    (session.run .near .receiveWaiting).At clock .near (.idle (met options .near))
      { w with inbox := w.inbox ++ ds.map (frameOf .near) }
      (c + (ds.length • replyCost + ds.length • releaseCost length + readCost)) c' := by
  let v : Situation := { Situation.idle (alone options .near) with deferred := ds }
  have hs : ∀ d ∈ ds, (alone options .near).Sendable (clock session.calls).later.time peerIp d := by
    intro d hm
    rw [Clock.time, Clock.reading_later]
    exact (hd d hm).sendable hl hn 0 1 rfl
  have hlearn : (v.bearings.cache.learn reply).lookup reply.senderIp = some reply.senderMac := by
    have hmet : v.bearings.cache.learn reply = (met options .near).cache := learn_alone rfl rfl
    rw [hmet]
    exact lookup_met
  have hcost := Situation.intakeCost_answers (v := v) _ reply hs rfl hlearn
    fun d hm => (hd d hm).letter.ipLength
  have hall := Situation.handle_answers (v := v) _ reply hs rfl hlearn
  have hmet : (·.learn reply)^[v.deferred.length] v.bearings.cache = (met options .near).cache :=
    iterate_learn_alone rfl rfl fun hz => hne (List.length_eq_zero_iff.mp hz)
  rw [hmet] at hall
  exact h.receiveWaiting rfl (Cable.nil_not_mem_messages _ reply)
    (fun d hm => (hd d hm).agrees hn 0 0) hall ((Situation.intakeCost_inbox v _ _ _).trans hcost)

/-- Between sides that have met a letter is sent at once. -/
theorem At.post
    (h : session.At clock side { Situation.idle (met options side) with sendQueue := ds } w c c')
    (hd : ∀ d ∈ ds, Posted clock n side length d) (hl : length ≤ 1480) (hn : session.calls < n) :
    (session.run side .sendQueued).At clock side (.idle (met options side))
      { w with inbox := w.inbox ++ ds.map (frameOf side) }
      (c + ds.length • postCost length) c' := by
  have hs : ∀ d ∈ ds, (met options side).Sendable (clock session.calls).time (ipOf side.other) d :=
    fun d hm => (hd d hm).sendable hl hn 0 0 rfl
  exact h.sendQueued rfl (fun d hm => (hd d hm).agrees hn 0 0)
    (Situation.sendQueued_bound hs lookup_met)
    (Bearings.passCost_of_bound hs lookup_met fun d hm => (hd d hm).letter.ipLength)

/-- Letters of the other side come to the host. -/
theorem At.get
    (h : session.At clock side { Situation.idle (met options side) with
      inbox := ds.map (frameOf side.other) } w c c')
    (hd : ∀ d ∈ ds, Posted clock n side.other length d) (hl : length ≤ 1480) (ht : Timely clock n)
    (hn : session.calls < n) :
    ∃ es, es.length = ds.length ∧ (∀ d ∈ es, Posted clock n side.other length d) ∧
      (session.run side .receiveWaiting).At clock side
        { Situation.idle (met options side) with receiveQueue := es } w
        (c + (ds.length • getCost length + readCost)) c' := by
  let v := Situation.idle (met options side)
  have hframes : ds.map (frameOf side.other) =
      ds.map fun d => (d.toFrame (macOf side) (macOf side.other)).bytes :=
    List.map_congr_left fun d _ => by rw [frameOf, Side.other_other]
  have hwhole : ∀ d ∈ ds, d.Fits ∧ d.Consistent := fun d hm =>
    ⟨(hd d hm).letter.fits hl, (hd d hm).letter.consistent⟩
  have hlength : max Ethernet.minLength (Ethernet.headerLength + (20 + length)) =
      max 60 (34 + length) := by
    rw [Ethernet.minLength, Ethernet.headerLength, ← Nat.add_assoc]
  have hcost := Situation.intakeCost_datagrams (v := v) (clock session.calls) (macOf side.other)
    (macOf_ne_broadcast side) hwhole fun d hm => (hd d hm).letter.ipLength
  have hall := Situation.handle_datagrams (v := v) (clock session.calls) (macOf side.other)
    (macOf_ne_broadcast side) hwhole
  rw [hlength] at hcost
  rw [hframes] at h
  refine ⟨Datagram.arrivedInTurn v.bearings.config.lifetime (clock session.calls) ds,
    Datagram.length_arrivedInTurn _ _ _, ?_, ?_⟩
  · intro e he
    obtain ⟨d, hm, i, rfl⟩ := Datagram.exists_of_mem_arrivedInTurn he
    have harrived : Posted clock n side.other length (d.arrived
        ((clock session.calls).reading i 1 + (configOf options side.other.other).lifetime)) :=
      (hd d hm).arrived ht hn i 1
    rwa [Side.other_other] at harrived
  · exact (h.receiveWaiting rfl (Cable.nil_not_mem_frames ds _ _) (agrees_nil _) hall
      ((Situation.intakeCost_inbox v _ _ _).trans hcost)).quiet rfl

/-- The round in which the sides meet. At its end all letters are on their way. -/
theorem At.round_meeting
    (h : session.At clock .near { Situation.idle (alone options .near) with sendQueue := ds }
      (.idle (alone options .far)) c c') (hd : ∀ d ∈ ds, Posted clock n .near length d)
    (hl : length ≤ 1480) (hn : session.round.calls ≤ n) (hne : ds ≠ []) :
    session.round.At clock .near (.idle (met options .near))
        { Situation.idle (met options .far) with inbox := ds.map (frameOf .near) }
        (c + ds.length • askCost +
          (ds.length • replyCost + ds.length • releaseCost length + readCost))
        (c' + (ds.length • requestCost + readCost)) ∧
      session.round.echoed = session.echoed ∧ session.round.returned = session.returned := by
  have hasked := h.ask hd hl (Nat.lt_of_lt_of_le (calls_lt_round session) hn)
  have hanswered := hasked.symm.answer (fun hz => hne (List.length_eq_zero_iff.mp hz))
  refine at_round hanswered (Situation.rests_idle _) rfl rfl ?_
  -- The replies lie in the host's inbox until the peer has looked for letters and found none.
  intro t hc ht
  exact ht.release hd hl (Nat.lt_of_lt_of_le hc hn) hne

/-- The round in which the peer gets all letters and the host gets all of them back. -/
theorem At.round_echo
    (h : session.At clock .near (.idle (met options .near))
      { Situation.idle (met options .far) with inbox := ds.map (frameOf .near) } c c')
    (hd : ∀ d ∈ ds, Posted clock n .near length d) (hl : length ≤ 1480) (ht : Timely clock n)
    (hn : session.round.calls ≤ n) :
    session.round.At clock .near (.idle (met options .near)) (.idle (met options .far))
        (c + (ds.length • getCost length + readCost))
        (c' + (ds.length • getCost length + readCost) + ds.length • postCost length) ∧
      session.round.echoed = session.echoed + ds.length ∧
      session.round.returned = session.returned + ds.length := by
  let received := (session.run .near .sendQueued).run .far .receiveWaiting
  let echoes := received.echoReceived (received.received .far + 1)
  let back := (echoes.run .far .sendQueued).run .near .receiveWaiting
  have hround : session.round = back.countReturned (back.received .near + 1) := rfl
  have hechoing : received.calls < echoes.calls := calls_lt_echoReceived received _
  have hcounting : back.calls < session.round.calls := calls_lt_countReturned back _
  have hfirst : received.calls = session.calls + 2 := rfl
  have hsecond : back.calls = echoes.calls + 2 := rfl
  -- Out and back the letters are new ones each time; only their number is the same.
  obtain ⟨es, hlength, hes, hgot⟩ := (h.sendNothing rfl rfl rfl).symm.get hd hl ht
    (show session.calls + 1 < n by omega)
  have hfull : received.received .far = es.length := hgot.length_received
  obtain ⟨fs, hlength', hfs, (hat : echoes.At clock .far
      { Situation.idle (met options .far) with sendQueue := fs } (.idle (met options .near)) _ _),
    (hechoed : echoes.echoed = _), (hsame : echoes.returned = _)⟩ :=
      hgot.echoReceived rfl rfl hes ht hfull.symm (show echoes.calls ≤ n by omega)
  obtain ⟨gs, hlength'', hgs, hback⟩ := (hat.post hfs hl (by omega)).symm.get hfs hl ht
    (show echoes.calls + 1 < n by omega)
  have hfull' : back.received .near = gs.length := hback.length_received
  obtain ⟨hat', hechoed', hreturned⟩ := hback.countReturned rfl hgs hfull'.symm
    (show session.round.calls ≤ n from hn)
  have hfs : fs.length = ds.length := hlength'.trans (hfull.trans hlength)
  have hgs : back.received .near = ds.length := hfull'.trans (hlength''.trans hfs)
  rw [hfs] at hat'
  refine ⟨hat', hechoed'.trans (hechoed.trans ?_), hreturned.trans ?_⟩
  · exact congrArg (session.echoed + ·) (hfull.trans hlength)
  · exact congrArg₂ (· + ·) hsame hgs

/-- However many such rounds there are. -/
theorem At.rounds_idle (h : session.At clock .near v w c c') (hv : v.Rests) (hw : w.Rests)
    (k : Nat) :
    (round^[k] session).At clock .near v w (c + k • readCost) (c' + k • readCost) ∧
      (round^[k] session).echoed = session.echoed ∧
      (round^[k] session).returned = session.returned := by
  induction k with
  | zero =>
    rw [zero_nsmul, add_zero, add_zero]
    exact ⟨h, rfl, rfl⟩
  | succ k ih =>
    obtain ⟨hat, hechoed, hreturned⟩ := ih
    obtain ⟨hat, hechoed', hreturned'⟩ := hat.round_idle hv hw
    rw [Function.iterate_succ_apply', succ_nsmul, ← add_assoc, ← add_assoc]
    exact ⟨hat, hechoed'.trans hechoed, hreturned'.trans hreturned⟩

end Session
end Loopback
end LinkLayer
