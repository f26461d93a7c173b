import LinkLayer.Proofs.Plans

/-!
An interface on an adapter that never fails. Main statements: the part of its state that decides
what it does is after a call a function of what it was (`situation_sendQueued`,
`situation_receiveWaiting`, `situation_takeReceived`).
-/
namespace LinkLayer

/-- What decides all that an interface does on an adapter without faults, and what it has lost. -/
structure Situation where
  bearings : Bearings
  isUp : Bool
  sendQueue : List Datagram
  deferred : List Datagram
  receiveQueue : List Datagram
  inbox : List Bytes
  outbox : List Bytes
  dropped : Nat
  expired : Nat
deriving DecidableEq, Repr

namespace Situation

/-- Writes what these datagrams need and loses those that are refused or have expired. -/
def pass (v : Situation) (now : Time) (ds : List Datagram) : Situation :=
  { v with
    outbox := v.outbox ++ v.bearings.frames now ds
    dropped := v.dropped + ds.countP fun d => (v.bearings.plan now d).refuses
    expired := v.expired + ds.countP fun d => (v.bearings.plan now d).expires }

def submit (v : Situation) (now : Time) (d : Datagram) : Situation :=
  { v with sendQueue := v.sendQueue ++ [d.stamp (now + v.bearings.config.lifetime)] }

def sendQueued (v : Situation) (now : Time) : Situation :=
  { v.pass now v.sendQueue with
    sendQueue := []
    deferred := v.deferred ++ v.bearings.waits now v.sendQueue }

/-- A message is learned and answered, then what is deferred is tried again. -/
def hear (v : Situation) (now : Time) (message : Arp.Message) : Situation :=
  let bearings := { v.bearings with cache := v.bearings.cache.learn message }
  let outbox := v.outbox ++ (bearings.reply? message).toList
  { { v with bearings, outbox }.pass now v.deferred with
    deferred := bearings.waits now v.deferred }

def drop (v : Situation) : Situation := { v with dropped := v.dropped + 1 }

def queue (v : Situation) (now : Time) (packet : Ipv4.Packet) : Situation :=
  { v with
    receiveQueue := v.receiveQueue ++
      [(Datagram.ofPacket packet).stamp (now + v.bearings.config.lifetime)] }

/-- A frame that was read is handled. -/
def takeIn (v : Situation) (now : Time) (bytes : Bytes) : Situation :=
  match Ethernet.handledKind bytes with
  | .error _ => v.drop
  | .ok .ipv4 =>
    match Ipv4.Packet.ofFrame ⟨bytes⟩ with
    | .error _ => v.drop
    | .ok packet => v.queue now packet
  | .ok .arp =>
    match Arp.Message.ofFrame ⟨bytes⟩ with
    | .error _ => v.drop
    | .ok message => v.hear now message
  | .ok _ => v

/-- Frames are handled in order, each by the readings after that for its read. -/
def handle (v : Situation) : Clock → List Bytes → Situation
  | _, [] => v
  | clock, bytes :: frames => (v.takeIn clock.later.time bytes).handle clock.nextFrame frames

/-- All frames in the inbox are handled. -/
def receiveWaiting (v : Situation) (clock : Clock) : Situation :=
  { v with inbox := [] }.handle clock v.inbox

/-- What is behind the first datagram that has not expired. -/
def takeReceived (v : Situation) (now : Time) : Situation :=
  { v with
    receiveQueue := (v.receiveQueue.dropWhile (·.isExpired now)).tail
    expired := v.expired + (v.receiveQueue.takeWhile (·.isExpired now)).length }

/-- What is in the inbox does not matter to the frame that is handled. -/
theorem takeIn_inbox (v : Situation) (now : Time) (bytes : Bytes) (inbox : List Bytes) :
    { v with inbox }.takeIn now bytes = { v.takeIn now bytes with inbox } := by
  simp only [takeIn]
  split
  · rfl
  · split <;> rfl
  · split <;> rfl
  · rfl

@[simp] theorem inbox_takeIn (v : Situation) (now : Time) (bytes : Bytes) :
    (v.takeIn now bytes).inbox = v.inbox := by
  have h := congrArg inbox (takeIn_inbox v now bytes v.inbox)
  exact h

/-- What waits when a frame was handled has waited before. -/
theorem deferred_takeIn (v : Situation) (now : Time) (bytes : Bytes) :
    (v.takeIn now bytes).deferred ⊆ v.deferred := by
  simp only [takeIn]
  split
  · exact List.Subset.refl _
  · split <;> exact List.Subset.refl _
  · split
    · exact List.Subset.refl _
    · exact List.filter_subset_self _
  · exact List.Subset.refl _

theorem receiveWaiting_nil {v : Situation} (h : v.inbox = []) (clock : Clock) :
    v.receiveWaiting clock = v := by
  rw [receiveWaiting, h, handle, ← h]

theorem receiveWaiting_cons {v : Situation} {clock : Clock} {bytes : Bytes} {inbox : List Bytes}
    (h : v.inbox = bytes :: inbox) :
    v.receiveWaiting clock =
      ({ v with inbox }.takeIn clock.later.time bytes).receiveWaiting clock.nextFrame := by
  rw [takeIn_inbox, receiveWaiting, h, handle, takeIn_inbox]
  rfl

end Situation

namespace Interface

variable {now : Time} {clock : Clock} {s t : Interface Adapter} {events more : List Event}

def situation (s : Interface Adapter) : Situation where
  bearings := s.bearings
  isUp := s.isUp
  sendQueue := s.sendQueue.toList
  deferred := s.deferred.toList
  receiveQueue := s.receiveQueue.toList
  inbox := s.device.transport.inbox.toList
  outbox := s.device.transport.outbox.toList
  dropped := s.counters.totals.dropped
  expired := s.counters.totals.expired

/-- The adapter has no faults and is attached. -/
structure Works (s : Interface Adapter) : Prop where
  faults : s.device.transport.faults = {}
  attached : s.device.transport.attached = true

theorem Works.offered {frame : Bytes} {value : Except TransportError Unit}
    (hw : s.Works) (h : Offered now frame s { value, state := t, events }) :
    t.Works ∧ Unfailed events := by
  cases h with
  | taken h =>
    simp only [Transport.transmit, Adapter.transmit, hw.faults, hw.attached] at h
    cases h
    exact ⟨⟨rfl, rfl⟩, by simp [Unfailed, Event.isWriteFailure]⟩
  | failed h =>
    simp only [Transport.transmit, Adapter.transmit, hw.faults, hw.attached] at h
    cases h

/-- An adapter that works goes on working and takes every frame. -/
theorem local_works :
    Local fun s t events => s.Works → t.Works ∧ Unfailed events where
  offered h hw := hw.offered h
  quiet hd hn hw := by
    refine ⟨⟨hd ▸ hw.faults, hd ▸ hw.attached⟩, ?_⟩
    intro event hm
    have := hn event hm
    cases event with
    | writeFailed frame error => cases this
    | _ => rfl
  append h h' hw := by
    obtain ⟨hw, hn⟩ := h hw
    obtain ⟨hw, hn'⟩ := h' hw
    exact ⟨hw, unfailed_append.mpr ⟨hn, hn'⟩⟩

theorem situation_passed {pass : Pass} {ds : List Datagram}
    {o : Outcome (Interface Adapter) (List Datagram)} (h : Passed pass clock ds s o)
    (hw : s.Works) (hc : ∀ d ∈ ds, clock.Agrees now d) :
    o.state.situation = s.situation.pass now ds ∧ o.value = s.bearings.waits now ds ∧
      o.state.Works := by
  obtain ⟨hworks, hn⟩ := local_works.passed h hw
  obtain ⟨hp, hwaits, hframes⟩ := planned_passed h hn hc
  have hwrites := local_writes.passed h
  refine ⟨?_, hwaits, hworks⟩
  obtain ⟨_, _, _, hs⟩ := sends_of_passed h
  have hout := hwrites.outbox
  rw [hframes] at hout
  have hin := hwrites.inbox
  have hdropped := hp.dropped
  have hexpired := hp.expired
  rw [hs] at hout hin hdropped hexpired ⊢
  simp only at hout hin hdropped hexpired
  simp only [situation, Situation.pass, bearings, hout, hin, hdropped, hexpired]

theorem situation_sendQueued (hu : s.isUp = true) (hw : s.Works)
    (hc : ∀ d ∈ s.situation.sendQueue, clock.Agrees now d) :
    ((perform clock .sendQueued).run s).state.situation = s.situation.sendQueued now ∧
      ((perform clock .sendQueued).run s).state.Works := by
  have h := passed_settleAll .first clock s.sendQueue.toList s
  simp only [run_sendQueued hu]
  generalize (settleAll .first clock s.sendQueue.toList).run s = o at h ⊢
  obtain ⟨hp, hwaits, hworks⟩ := situation_passed h hw hc
  obtain ⟨_, _, _, hs⟩ := sends_of_passed h
  refine ⟨?_, ⟨hworks.faults, hworks.attached⟩⟩
  have hdeferred : (o.state.deferred.append o.value).toList =
      s.deferred.toList ++ s.bearings.waits now s.sendQueue.toList := by
    rw [hwaits, hs, Fifo.toList_append]
  have hall := congrArg
    (fun v : Situation => { v with
      sendQueue := []
      deferred := s.deferred.toList ++ s.bearings.waits now s.sendQueue.toList }) hp
  simp only [Situation.sendQueued, situation, hdeferred] at hall ⊢
  exact hall

theorem situation_heard {message : Arp.Message}
    (h : Heard clock message s { value := (), state := t, events }) (hw : s.Works)
    (hc : ∀ d ∈ s.situation.deferred, clock.Agrees now d) :
    t.situation = s.situation.hear now message ∧ t.Works := by
  obtain ⟨hworks, hn⟩ := local_works.heard h hw
  obtain ⟨hp, ⟨_, _, _, hs⟩, hframes⟩ := planned_heard h hn hc
  have hwrites := local_writes.heard h
  refine ⟨?_, hworks⟩
  have hout := hwrites.outbox
  rw [hframes, ← List.append_assoc] at hout
  have hin := hwrites.inbox
  have hdropped := hp.dropped
  have hexpired := hp.expired
  rw [hs] at hout hin hdropped hexpired ⊢
  simp only at hout hin hdropped hexpired
  simp only [situation, Situation.hear, Situation.pass, bearings, hout, hin, hdropped, hexpired,
    Fifo.toList_ofList]
  rfl

theorem situation_takenIn {bytes : Bytes}
    (h : TakenIn clock bytes s { value := (), state := t, events }) (hw : s.Works)
    (hc : ∀ d ∈ s.situation.deferred, clock.Agrees now d) :
    t.situation = s.situation.takeIn clock.time bytes ∧ t.Works := by
  refine ⟨?_, (local_works.takenIn h hw).1⟩
  cases h with
  | unknown hk | broadcast hk =>
    simp only [Situation.takeIn, hk]
    rfl
  | queued hk hp =>
    simp only [Situation.takeIn, hk, hp, situation, Queue.toList_enqueue]
    rfl
  | badIp hk hp =>
    simp only [Situation.takeIn, hk, hp]
    rfl
  | heard hk hm ha =>
    have hs := (situation_heard ha ⟨hw.faults, hw.attached⟩ fun d hd => (hc d hd).time).1
    simp only [Situation.takeIn, hk, hm]
    exact hs
  | @badArp reason hk hm =>
    obtain ⟨inputErrors, opcodeErrors, he⟩ := (s.counters.countKind (.ok .arp)).refuseArp_eq reason
    simp only [Situation.takeIn, hk, hm, he]
    rfl

theorem Works.receive (hw : s.Works) :
    Transport.receive s.device.transport = (.ok s.device.transport.inbox.toList.head?,
      { s.device.transport with inbox := s.device.transport.inbox.tail }) := by
  obtain ⟨hf, ha⟩ := hw
  generalize s.device.transport = adapter at hf ha ⊢
  obtain ⟨address, faults, attached, inbox, outbox⟩ := adapter
  subst hf ha
  simp only [Transport.receive, Adapter.receive, Fifo.head?_eq]
  cases hi : inbox.toList with
  | nil =>
    have htail : inbox.tail = inbox := by
      ext1
      simp [hi]
    rw [htail]
    rfl
  | cons bytes rest => rfl

/-- A read that gives a frame takes the first one. -/
theorem situation_frameRead {bytes : Bytes}
    (h : FrameRead now s { value := .ok (some bytes), state := t, events }) (hw : s.Works) :
    ∃ inbox, s.situation.inbox = bytes :: inbox ∧ t.situation = { s.situation with inbox } ∧
      t.Works := by
  cases h with
  | @frame b bytes adapter hr =>
    rw [hw.receive, Prod.mk.injEq, Except.ok.injEq] at hr
    obtain ⟨hhead, rfl⟩ := hr
    obtain ⟨inbox, hinbox⟩ := List.head?_eq_some_iff.mp hhead
    have hrest : s.device.transport.inbox.tail.toList = inbox := by
      rw [Fifo.toList_tail, hinbox, List.tail_cons]
    refine ⟨inbox, hinbox, ?_, ⟨hw.faults, hw.attached⟩⟩
    rw [← hrest]
    rfl

/-- A read that gives none found none, unless there is a frame without bytes. -/
theorem situation_unread {result : Except TransportError (Option Bytes)}
    (h : FrameRead now s { value := result, state := t, events })
    (hn : ∀ bytes, result ≠ .ok (some bytes)) (hw : s.Works) (hi : [] ∉ s.situation.inbox) :
    s.situation.inbox = [] ∧ t.situation = s.situation ∧ t.Works := by
  cases h with
  | frame hr => exact absurd rfl (hn _)
  | failed hr =>
    rw [hw.receive] at hr
    cases hr
  | @nothing bytes adapter hr hb =>
    have hhead := congrArg Prod.fst hr
    rw [hw.receive, Except.ok.injEq] at hhead
    rcases hb with rfl | rfl
    · have hd := eq_of_receive hr (by simp)
      subst hd
      exact ⟨List.head?_eq_none_iff.mp hhead, rfl, ⟨hw.faults, hw.attached⟩⟩
    · exact absurd (List.mem_of_head? hhead) hi

/-- The adapter is emptied, unless there is a frame without bytes. -/
theorem situation_drained (h : Drained clock s events t) (hw : s.Works)
    (hi : [] ∉ s.situation.inbox) (hc : ∀ d ∈ s.situation.deferred, clock.Agrees now d) :
    t.situation = s.situation.receiveWaiting clock ∧ t.Works := by
  induction h with
  | ended h hn =>
    obtain ⟨hnil, hs, hworks⟩ := situation_unread h hn hw hi
    rw [Situation.receiveWaiting_nil hnil]
    exact ⟨hs, hworks⟩
  | @frame clock bytes s t u v events more rest hr ht hd ih =>
    obtain ⟨inbox, hv, hs, hworks⟩ := situation_frameRead hr hw
    obtain ⟨hu, hworks⟩ := situation_takenIn ht hworks (by
      rw [hs]
      exact fun d hd => (hc d hd).later)
    rw [hs] at hu
    have hdeferred := Situation.deferred_takeIn { s.situation with inbox } clock.later.time bytes
    obtain ⟨hlast, hworks⟩ := ih hworks
      (by
        rw [hu, Situation.inbox_takeIn]
        exact fun hm => hi (hv ▸ List.mem_cons_of_mem _ hm))
      (by
        rw [hu]
        exact fun d hd => (hc d (hdeferred hd)).nextFrame)
    rw [hlast, hu, Situation.receiveWaiting_cons hv]
    exact ⟨rfl, hworks⟩

theorem situation_receiveWaiting (hu : s.isUp = true) (hw : s.Works)
    (hi : [] ∉ s.situation.inbox) (hc : ∀ d ∈ s.situation.deferred, clock.Agrees now d) :
    ((perform clock .receiveWaiting).run s).state.situation = s.situation.receiveWaiting clock ∧
      ((perform clock .receiveWaiting).run s).state.Works :=
  situation_drained (drained_perform hu clock) hw hi hc

theorem situation_setUp (hw : s.Works) (clock : Clock) :
    ((perform clock (.setUp true)).run s).state.situation = { s.situation with isUp := true } ∧
      ((perform clock (.setUp true)).run s).state.Works :=
  ⟨rfl, hw.faults, hw.attached⟩

theorem situation_submit (hw : s.Works) (clock : Clock) (d : Datagram) :
    ((perform clock (.submit d)).run s).state.situation = s.situation.submit clock.time d ∧
      ((perform clock (.submit d)).run s).state.Works := by
  refine ⟨?_, hw.faults, hw.attached⟩
  have hq := Queue.toList_enqueue s.sendQueue (d.stamp (clock.time + s.config.lifetime))
  have hv := congrArg (fun sendQueue => { s.situation with sendQueue }) hq
  exact hv

theorem situation_takeReceived (hw : s.Works) (clock : Clock) :
    ((perform clock .takeReceived).run s).state.situation = s.situation.takeReceived clock.time ∧
      ((perform clock .takeReceived).run s).value.returned? =
        (s.situation.receiveQueue.dropWhile (·.isExpired clock.time)).head? ∧
      ((perform clock .takeReceived).run s).state.Works := by
  simp only [perform, run_takeReceived, Action.run_bind, Action.run_pure, Queue.dequeue]
  refine ⟨?_, ?_, hw.faults, hw.attached⟩
  · simp only [situation, Situation.takeReceived, Fifo.toList_tail, Fifo.toList_dropWhile,
      Fifo.takeWhile_eq]
    rfl
  · simp only [Reply.returned?, Fifo.head?_eq, Fifo.toList_dropWhile]
    rfl

end Interface
end LinkLayer
