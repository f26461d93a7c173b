import Mathlib.Algebra.GroupWithZero.Nat
import LinkLayer.Adapter
import LinkLayer.Proofs.Checks
import LinkLayer.Proofs.Clearing
import LinkLayer.Proofs.Draining

/-!
What the counters of the way in say of each other. Main statement: every frame that was read has one
fate and is counted under it, and the bytes received are those of the frames that were not refused
(`way_in_counted`).
-/
namespace LinkLayer

open Interface

/-- The frame that a read gave. -/
def Event.read? : Event → Option Bytes
  | frameRead frame => some frame
  | _ => none

/-- The datagram that was queued for the host. -/
def Event.queued? : Event → Option Datagram
  | queued _ d => some d
  | _ => none

/-- Whether the message is for this address and has this operation. -/
def Arp.Message.isFor (message : Message) (ip : Ipv4.Address) (operation : Operation) : Bool :=
  message.targetIp = ip ∧ message.operation = operation

/-- A message is not both a question and an answer. -/
theorem Arp.Message.isFor_once (message : Message) (ip : Ipv4.Address) :
    (if message.isFor ip .request then 1 else 0) + (if message.isFor ip .reply then 1 else 0) ≤
      1 := by
  cases ho : message.operation <;> by_cases ht : message.targetIp = ip <;> simp [isFor, ho, ht]

namespace Ethernet

/-- What becomes of a frame that is read. The ones that cannot be read as what they claim to be are
bad. -/
inductive Fate where
  | unknown
  | broadcast
  | datagram
  | badDatagram
  | message
  | badMessage
deriving DecidableEq, Repr

/-- Whether the bytes of the frame count as received. -/
def Fate.isTaken : Fate → Bool
  | broadcast | datagram | message => true
  | unknown | badDatagram | badMessage => false

def fate (bytes : Bytes) : Fate :=
  match handledKind bytes with
  | .ok .broadcastIpv4 => .broadcast
  | .ok .ipv4 => if (Ipv4.Packet.ofFrame ⟨bytes⟩).isOk then .datagram else .badDatagram
  | .ok .arp => if (Arp.Message.ofFrame ⟨bytes⟩).isOk then .message else .badMessage
  | _ => .unknown

/-- How many frames have a fate. -/
def tally (fate : Fate) (frames : List Bytes) : Nat := frames.countP (Ethernet.fate · = fate)

/-- The length of all frames whose bytes count. -/
def takenBytes (frames : List Bytes) : Nat :=
  ((frames.filter fun frame => (fate frame).isTaken).map List.length).sum

@[simp] theorem tally_append (fate : Fate) (frames more : List Bytes) :
    tally fate (frames ++ more) = tally fate frames + tally fate more := List.countP_append

@[simp] theorem takenBytes_append (frames more : List Bytes) :
    takenBytes (frames ++ more) = takenBytes frames + takenBytes more := by
  simp only [takenBytes, List.filter_append, List.map_append, List.sum_append]

@[simp] theorem tally_singleton (fate : Fate) (bytes : Bytes) :
    tally fate [bytes] = if Ethernet.fate bytes = fate then 1 else 0 := by
  simp [tally, List.countP_singleton]

@[simp] theorem takenBytes_singleton (bytes : Bytes) :
    takenBytes [bytes] = if (fate bytes).isTaken then bytes.length else 0 := by
  cases h : (fate bytes).isTaken <;> simp [takenBytes, h]

end Ethernet

namespace Counters

open Ethernet (Fate tally takenBytes)

variable {c c' : Counters} {frames : List Bytes} {bytes : Bytes}

/-- What the counters say of the frames that were read. -/
structure Receipts (c : Counters) (frames : List Bytes) : Prop where
  length : c.receive.total = frames.length
  total : c.receive.total = c.receive.good + c.receive.bad
  good : c.receive.good = c.process.broadcastIp + c.process.normalIp + c.process.arp
  bad : c.receive.bad = tally .unknown frames
  normalIp : c.process.normalIp = tally .datagram frames + tally .badDatagram frames
  badIp : c.process.badIp = tally .badDatagram frames
  arp : c.process.arp = tally .message frames + tally .badMessage frames
  badArp : c.process.badArp = tally .badMessage frames
  errors : c.process.badArp = c.arp.inputErrors + c.arp.opcodeErrors
  heard : c.arp.requests + c.arp.answers ≤ tally .message frames
  bytes : c.totals.receivedBytes = takenBytes frames

/-- The counters of which the receipts say something. -/
def inward (c : Counters) : Counters where
  receive := c.receive
  process := c.process
  arp.inputErrors := c.arp.inputErrors
  arp.opcodeErrors := c.arp.opcodeErrors
  arp.requests := c.arp.requests
  arp.answers := c.arp.answers
  totals.receivedBytes := c.totals.receivedBytes

theorem Receipts.congr (h : c.Receipts frames) (he : c'.inward = c.inward) :
    c'.Receipts frames := by
  have hi : c.inward.Receipts frames :=
    ⟨h.length, h.total, h.good, h.bad, h.normalIp, h.badIp, h.arp, h.badArp, h.errors, h.heard,
      h.bytes⟩
  rw [← he] at hi
  exact ⟨hi.length, hi.total, hi.good, hi.bad, hi.normalIp, hi.badIp, hi.arp, hi.badArp, hi.errors,
    hi.heard, hi.bytes⟩

section Frames

/-- A frame of no known kind is read. -/
theorem Receipts.unknown (h : c.Receipts frames) (hf : Ethernet.fate bytes = .unknown)
    (error : FormatError) :
    (c.countKind (.error error)).dropInbound.Receipts (frames ++ [bytes]) := by
  obtain ⟨h₁, h₂, h₃, h₄, h₅, h₆, h₇, h₈, h₉, h₁₀, h₁₁⟩ := h
  constructor <;> simp [countKind, dropInbound, hf, Fate.isTaken] <;> omega

theorem Receipts.broadcast (h : c.Receipts frames) (hf : Ethernet.fate bytes = .broadcast) :
    ((c.countKind (.ok .broadcastIpv4)).receiveBytes bytes.length).Receipts
      (frames ++ [bytes]) := by
  obtain ⟨h₁, h₂, h₃, h₄, h₅, h₆, h₇, h₈, h₉, h₁₀, h₁₁⟩ := h
  constructor <;> simp [countKind, receiveBytes, hf, Fate.isTaken] <;> omega

theorem Receipts.datagram (h : c.Receipts frames) (hf : Ethernet.fate bytes = .datagram) :
    ((c.countKind (.ok .ipv4)).receiveBytes bytes.length).Receipts (frames ++ [bytes]) := by
  obtain ⟨h₁, h₂, h₃, h₄, h₅, h₆, h₇, h₈, h₉, h₁₀, h₁₁⟩ := h
  constructor <;> simp [countKind, receiveBytes, hf, Fate.isTaken] <;> omega

theorem Receipts.badDatagram (h : c.Receipts frames) (hf : Ethernet.fate bytes = .badDatagram) :
    (c.countKind (.ok .ipv4)).refuseIp.dropInbound.Receipts (frames ++ [bytes]) := by
  obtain ⟨h₁, h₂, h₃, h₄, h₅, h₆, h₇, h₈, h₉, h₁₀, h₁₁⟩ := h
  constructor <;> simp [countKind, refuseIp, dropInbound, hf, Fate.isTaken] <;> omega

/-- An ARP message is read. At most one of two counters says whom it was from. -/
theorem Receipts.message (h : c.Receipts frames) (hf : Ethernet.fate bytes = .message)
    {requests answers : Nat} (hone : requests + answers ≤ 1) :
    let c := c.countKind (.ok .arp)
    Receipts { c with
      arp.requests := c.arp.requests + requests
      arp.answers := c.arp.answers + answers
      totals.receivedBytes := c.totals.receivedBytes + bytes.length } (frames ++ [bytes]) := by
  obtain ⟨h₁, h₂, h₃, h₄, h₅, h₆, h₇, h₈, h₉, h₁₀, h₁₁⟩ := h
  constructor <;> simp [countKind, hf, Fate.isTaken] <;> omega

/-- One of two counters says why a packet was refused: addresses of a wrong length are found out
before. -/
theorem refuseArp_of_isChecked (c : Counters) {reason : DropReason}
    (hr : reason.isChecked = true) :
    c.refuseArp reason = { c with arp.opcodeErrors := c.arp.opcodeErrors + 1 } ∨
      c.refuseArp reason = { c with arp.inputErrors := c.arp.inputErrors + 1 } := by
  cases reason with
  | malformed error =>
    cases error with
    | macLength | ipLength => cases hr
    | _ => exact .inr rfl
  | arpOpcode => exact .inl rfl
  | _ => exact .inr rfl

theorem Receipts.badMessage (h : c.Receipts frames) (hf : Ethernet.fate bytes = .badMessage)
    {reason : DropReason} (hr : reason.isChecked = true) :
    ((c.countKind (.ok .arp)).refuseArp reason).refuseArpFrame.dropInbound.Receipts
      (frames ++ [bytes]) := by
  obtain ⟨h₁, h₂, h₃, h₄, h₅, h₆, h₇, h₈, h₉, h₁₀, h₁₁⟩ := h
  rcases (c.countKind (.ok .arp)).refuseArp_of_isChecked hr with he | he
  · rw [he]
    constructor <;> simp [countKind, refuseArpFrame, dropInbound, hf, Fate.isTaken] <;> omega
  · rw [he]
    constructor <;> simp [countKind, refuseArpFrame, dropInbound, hf, Fate.isTaken] <;> omega

end Frames

end Counters

namespace Interface

open Ethernet (tally)

variable {τ : Type} [FiniteTransport τ] {now : Time} {clock : Clock} {s t u : Interface τ}
  {events more : List Event}
  {m n : Nat}

/-- From the first state to the second no frame was read and nothing was queued for the host. -/
structure Idle (s t : Interface τ) (events : List Event) : Prop where
  inward : t.counters.inward = s.counters.inward
  reads : t.counters.read = s.counters.read
  frames : events.filterMap Event.read? = []
  queued : events.filterMap Event.queued? = []
  queue : t.receiveQueue.toList <:+ s.receiveQueue.toList

omit [FiniteTransport τ] in
theorem Idle.append (h : Idle s t events) (h' : Idle t u more) : Idle s u (events ++ more) where
  inward := h'.inward.trans h.inward
  reads := h'.reads.trans h.reads
  frames := by rw [List.filterMap_append, h.frames, h'.frames, List.append_nil]
  queued := by rw [List.filterMap_append, h.queued, h'.queued, List.append_nil]
  queue := h'.queue.trans h.queue

theorem idle_arpSent {message : Arp.Message}
    (h : ArpSent now message s { value := (), state := t, events }) : Idle s t events := by
  cases h with
  | taken ho | failed ho =>
    cases ho
    exact ⟨rfl, rfl, rfl, rfl, List.suffix_rfl⟩

theorem idle_delivered {d : Datagram} {value : Except DropReason Delivery}
    (h : Delivered now d s { value, state := t, events }) : Idle s t events := by
  cases h with
  | @refused reason hr => cases reason <;> exact ⟨rfl, rfl, rfl, rfl, List.suffix_rfl⟩
  | deferred hr ha =>
    have hi := idle_arpSent ha
    exact ⟨hi.inward, hi.reads, hi.frames, hi.queued, hi.queue⟩
  | sent hr ho | failed hr ho =>
    cases ho
    exact ⟨rfl, rfl, rfl, rfl, List.suffix_rfl⟩

theorem idle_settled {pass : Pass} {d : Datagram} {value : Option Datagram}
    (h : Settled pass clock d s { value, state := t, events }) : Idle s t events := by
  cases h with
  | expired he => exact ⟨rfl, rfl, rfl, rfl, List.suffix_rfl⟩
  | sent he hd =>
    have hi := idle_delivered hd
    cases pass <;>
      exact Idle.append ⟨hi.inward, hi.reads, hi.frames, hi.queued, hi.queue⟩
        ⟨rfl, rfl, rfl, rfl, List.suffix_rfl⟩
  | waits he hd =>
    have hi := idle_delivered hd
    cases pass <;> exact ⟨hi.inward, hi.reads, hi.frames, hi.queued, hi.queue⟩
  | dropped he hd =>
    have hi := idle_delivered hd
    cases pass <;>
      exact Idle.append ⟨hi.inward, hi.reads, hi.frames, hi.queued, hi.queue⟩
        ⟨rfl, rfl, rfl, rfl, List.suffix_rfl⟩

theorem idle_passed {pass : Pass} {ds : List Datagram}
    {o : Outcome (Interface τ) (List Datagram)} (h : Passed pass clock ds s o) :
    Idle s o.state o.events := by
  induction h with
  | nil => exact ⟨rfl, rfl, rfl, rfl, List.suffix_rfl⟩
  | gone h hp ih | waits h hp ih => exact (idle_settled h).append ih

theorem idle_move {pass? : Option Pass} (hp : pass? ≠ some .later)
    (h : Move clock pass? s events t) : Idle s t events := by
  cases h with
  | passed hu hp =>
    have hi := idle_passed hp
    exact ⟨hi.inward, hi.reads, hi.frames, hi.queued, hi.queue⟩
  | heard | unheard | received | ended => exact absurd rfl hp
  | taken =>
    refine ⟨rfl, rfl, ?_, ?_, ?_⟩
    · simp [List.filterMap_map, Function.comp_def, Event.read?]
    · simp [List.filterMap_map, Function.comp_def, Event.queued?]
    · rw [← s.receiveQueue.dequeue_append clock.time]
      exact List.suffix_append _ _
  | wentDown => exact ⟨rfl, rfl, rfl, rfl, List.nil_suffix⟩
  | wentUp | addressRead | addressKept | macSet | typeSelected | bindingsCleared | traceCleared =>
    exact ⟨rfl, rfl, rfl, rfl, List.suffix_rfl⟩

theorem idle_chain {pass? : Option Pass} (hp : pass? ≠ some .later)
    (h : Chain pass? clock s events t) : Idle s t events := by
  induction h with
  | nil => exact ⟨rfl, rfl, rfl, rfl, List.suffix_rfl⟩
  | cons h hc ih => exact (idle_move hp h).append ih

/-- Only receiving handles frames, and only while the interface is up. -/
theorem idle_perform {call : Call} (hd : call.isDirect = false)
    (hc : call ≠ .control .clearCounters) (hr : call = .receiveWaiting → s.isUp = false)
    (clock : Clock) :
    Idle s ((perform clock call).run s).state ((perform clock call).run s).events := by
  by_cases hw : call = .receiveWaiting
  · have hu := hr hw
    subst hw
    simp only [perform, receiveWaiting, Action.run_bind, Action.run_get, hu, Action.run_pure]
    exact ⟨rfl, rfl, rfl, rfl, List.suffix_rfl⟩
  · have h := performed_perform clock call s
    generalize (perform clock call).run s = o at h ⊢
    obtain ⟨reply, t, events⟩ := o
    cases h with
    | submitted | addressSet | maskSet => exact ⟨rfl, rfl, rfl, rfl, List.suffix_rfl⟩
    | delivered | queued => cases hd
    | countersCleared => exact absurd rfl hc
    | moved hs h =>
      refine idle_chain ?_ h
      cases call <;> simp_all [Call.pass?, Call.isDirect]

/-- A message for the interface counts as a question or as an answer, and no frame is read. -/
theorem idle_heard {message : Arp.Message}
    (h : Heard clock message s { value := (), state := t, events }) :
    Idle { s with
      counters.arp.requests := s.counters.arp.requests +
        if message.isFor s.config.address .request then 1 else 0
      counters.arp.answers := s.counters.arp.answers +
        if message.isFor s.config.address .reply then 1 else 0 } t events := by
  cases h with
  | intro ha hp =>
    have hi := idle_passed hp
    cases ha with
    | notOurs hm =>
      have hn (operation : Arp.Operation) : message.isFor s.config.address operation = false :=
        decide_eq_false fun h => hm h.1
      rw [hn, hn]
      exact ⟨hi.inward, hi.reads, hi.frames, hi.queued, hi.queue⟩
    | told hm ho =>
      have hquestion : message.isFor s.config.address .request = false :=
        decide_eq_false (by simp [ho])
      have hanswer : message.isFor s.config.address .reply = true := decide_eq_true ⟨hm, ho⟩
      rw [hquestion, hanswer]
      exact ⟨hi.inward, hi.reads, hi.frames, hi.queued, hi.queue⟩
    | asked hm ho ha =>
      have hi := (idle_arpSent ha).append hi
      have hquestion : message.isFor s.config.address .request = true := decide_eq_true ⟨hm, ho⟩
      have hanswer : message.isFor s.config.address .reply = false :=
        decide_eq_false (by simp [ho])
      rw [hquestion, hanswer]
      exact ⟨hi.inward, hi.reads, hi.frames, hi.queued, hi.queue⟩

/-- From the first state to the second frames were read and handled, and so many reads gave none. -/
structure Received (s t : Interface τ) (events : List Event) (ends : Nat) : Prop where
  receipts : ∀ {frames}, s.counters.Receipts frames →
    t.counters.Receipts (frames ++ events.filterMap Event.read?)
  reads : t.counters.read.total =
    s.counters.read.total + (events.filterMap Event.read?).length + ends
  queued : (events.filterMap Event.queued?).length =
    tally .datagram (events.filterMap Event.read?)
  queue : t.receiveQueue.toList = s.receiveQueue.toList ++ events.filterMap Event.queued?

omit [FiniteTransport τ] in
theorem Received.append (h : Received s t events m) (h' : Received t u more n) :
    Received s u (events ++ more) (m + n) := by
  constructor
  · intro frames hc
    have hu := h'.receipts (h.receipts hc)
    rwa [List.filterMap_append, ← List.append_assoc]
  · have hs := h.reads
    have ht := h'.reads
    simp only [List.filterMap_append, List.length_append]
    omega
  · rw [List.filterMap_append, List.filterMap_append, List.length_append, Ethernet.tally_append,
      h.queued, h'.queued]
  · rw [h'.queue, h.queue, List.filterMap_append, List.append_assoc]

/-- A frame was handled: it is counted under its fate, and only a datagram is queued. -/
structure Handled (bytes : Bytes) (s t : Interface τ) (events : List Event) : Prop where
  receipts : ∀ {frames}, s.counters.Receipts frames → t.counters.Receipts (frames ++ [bytes])
  reads : t.counters.read = s.counters.read
  frames : events.filterMap Event.read? = []
  queued : (events.filterMap Event.queued?).length = tally .datagram [bytes]
  queue : t.receiveQueue.toList = s.receiveQueue.toList ++ events.filterMap Event.queued?

theorem handled_takenIn {bytes : Bytes}
    (h : TakenIn clock bytes s { value := (), state := t, events }) : Handled bytes s t events := by
  cases h with
  | @unknown error hk =>
    have hf : Ethernet.fate bytes = .unknown := by simp only [Ethernet.fate, hk]
    refine ⟨fun hc => ?_, rfl, rfl, ?_, (List.append_nil _).symm⟩
    · exact hc.unknown hf error
    · rw [Ethernet.tally_singleton, hf]
      rfl
  | broadcast hk =>
    have hf : Ethernet.fate bytes = .broadcast := by simp only [Ethernet.fate, hk]
    refine ⟨fun hc => ?_, rfl, rfl, ?_, (List.append_nil _).symm⟩
    · exact hc.broadcast hf
    · rw [Ethernet.tally_singleton, hf]
      rfl
  | queued hk hp =>
    have hf : Ethernet.fate bytes = .datagram := by simp only [Ethernet.fate, hk, hp]; rfl
    refine ⟨fun hc => ?_, rfl, rfl, ?_, Queue.toList_enqueue _ _⟩
    · exact hc.datagram hf
    · rw [Ethernet.tally_singleton, hf]
      rfl
  | badIp hk hp =>
    have hf : Ethernet.fate bytes = .badDatagram := by simp only [Ethernet.fate, hk, hp]; rfl
    refine ⟨fun hc => ?_, rfl, rfl, ?_, (List.append_nil _).symm⟩
    · exact hc.badDatagram hf
    · rw [Ethernet.tally_singleton, hf]
      rfl
  | @heard message t events hk hm hh =>
    have hf : Ethernet.fate bytes = .message := by simp only [Ethernet.fate, hk, hm]; rfl
    have hi := idle_heard hh
    have hone := message.isFor_once s.config.address
    have hq := receiveQueue_heard hh
    refine ⟨fun hc => ?_, hi.reads, hi.frames, ?_, ?_⟩
    · exact (hc.message hf hone).congr (congrArg (Counters.receiveBytes · bytes.length) hi.inward)
    · rw [Ethernet.tally_singleton, hf, hi.queued]
      rfl
    · rw [hi.queued, List.append_nil]
      exact congrArg Fifo.toList hq
  | @badArp reason hk hm =>
    have hf : Ethernet.fate bytes = .badMessage := by simp only [Ethernet.fate, hk, hm]; rfl
    have hr : ((s.counters.countKind (.ok .arp)).refuseArp reason).read = s.counters.read := by
      obtain ⟨inputErrors, opcodeErrors, he⟩ :=
        (s.counters.countKind (.ok .arp)).refuseArp_eq reason
      rw [he]
      rfl
    have hchecked : reason.isChecked = true :=
      Arp.Message.isChecked_of_ofFrame (Ethernet.headerLength_le_of_handledKind hk) hm
    refine ⟨fun hc => ?_, hr, rfl, ?_, (List.append_nil _).symm⟩
    · exact hc.badMessage hf hchecked
    · rw [Ethernet.tally_singleton, hf]
      rfl

theorem received_frame {bytes : Bytes}
    (hr : FrameRead now s { value := .ok (some bytes), state := t, events })
    (h : TakenIn clock bytes t { value := (), state := u, events := more }) :
    Received s u (events ++ more) 0 := by
  have hh := handled_takenIn h
  cases hr with
  | @frame b rest transport hr =>
    have hframes : (.frameRead (b :: rest) :: more).filterMap Event.read? = [b :: rest] := by
      simp [Event.read?, hh.frames]
    have hqueued : (.frameRead (b :: rest) :: more).filterMap Event.queued? =
        more.filterMap Event.queued? := List.filterMap_cons_none rfl
    have hreads := congrArg Counters.Transfers.total hh.reads
    rw [List.singleton_append]
    constructor
    · intro frames hc
      rw [hframes]
      exact hh.receipts (hc.congr rfl)
    · rw [hframes]
      exact hreads
    · rw [hframes, hqueued, hh.queued]
    · rw [hqueued]
      exact hh.queue

/-- All frames are handled, and one read more is counted: the last one, which gave none. -/
theorem received_drained (h : Drained clock s events t) : Received s t events 1 := by
  induction h with
  | ended h hn =>
    cases h with
    | frame h => exact absurd rfl (hn _)
    | nothing h hb =>
      refine ⟨fun hc => ?_, rfl, rfl, (List.append_nil _).symm⟩
      rw [List.filterMap_nil, List.append_nil]
      exact hc.congr rfl
    | failed h =>
      refine ⟨fun hc => ?_, rfl, rfl, (List.append_nil _).symm⟩
      rw [List.filterMap_cons_none rfl, List.filterMap_nil, List.append_nil]
      exact hc.congr rfl
  | frame hr ht hd ih => simpa using (received_frame hr ht).append ih

/-- Receiving empties the adapter while the interface is up. -/
theorem received_perform (hu : s.isUp = true) (clock : Clock) :
    Received s ((perform clock .receiveWaiting).run s).state
      ((perform clock .receiveWaiting).run s).events 1 :=
  received_drained (drained_perform hu clock)

/-- A call that is not direct puts what it queues behind what the host has still to take, or it
queues nothing and only takes away from the front. -/
theorem queue_perform {call : Call} (hd : call.isDirect = false) (clock : Clock) (s : Interface τ) :
    let o := (perform clock call).run s
    let queued := o.events.filterMap Event.queued?
    o.state.receiveQueue.toList = s.receiveQueue.toList ++ queued ∨
      queued = [] ∧ o.state.receiveQueue.toList <:+ s.receiveQueue.toList := by
  intro o queued
  by_cases hc : call = .control .clearCounters
  · subst hc
    exact .inr ⟨rfl, List.suffix_rfl⟩
  by_cases hr : call = .receiveWaiting ∧ s.isUp = true
  · obtain ⟨rfl, hu⟩ := hr
    exact .inl (received_perform hu clock).queue
  · have hi := idle_perform hd hc (by simpa using hr) clock
    exact .inr ⟨hi.queued, hi.queue⟩

/-- Whether a call empties the adapter. -/
def Stage.receives (stage : Stage τ) : Bool :=
  stage.found.isUp && stage.made.call = .receiveWaiting

theorem receives_stage (clock : Clock) (call : Call) (s : Interface τ) :
    (stage clock call s).receives = true ↔ call = .receiveWaiting ∧ s.isUp = true := by
  rw [Stage.receives, Bool.and_eq_true, decide_eq_true_eq, found_stage, call_stage, and_comm]

/-- What the counters say of the calls that they count. -/
structure Tallied (c : Counters) (since : List (Stage τ)) : Prop where
  receipts : c.Receipts ((happened (since.map (·.made))).filterMap Event.read?)
  queued : ((happened (since.map (·.made))).filterMap Event.queued?).length =
    tally .datagram ((happened (since.map (·.made))).filterMap Event.read?)
  reads : c.read.total =
    ((happened (since.map (·.made))).filterMap Event.read?).length +
      since.countP Stage.receives

theorem tallied_call {call : Call} {since : List (Stage τ)} (hd : call.isDirect = false)
    (hc : call ≠ .control .clearCounters) (h : Tallied s.counters since) :
    Tallied ((perform clock call).run s).state.counters (since ++ [stage clock call s]) := by
  obtain ⟨hreceipts, hqueued, hreads⟩ := h
  by_cases hr : call = .receiveWaiting ∧ s.isUp = true
  · obtain ⟨rfl, hu⟩ := hr
    have hcall := received_perform hu clock
    have hreads' := hcall.reads
    have hqueued' := hcall.queued
    have hstage := (receives_stage clock .receiveWaiting s).mpr ⟨rfl, hu⟩
    constructor
    · simpa [happened_append] using hcall.receipts hreceipts
    · simp only [List.map_append, List.map_cons, List.map_nil, happened_append, events_stage,
        List.filterMap_append, List.length_append, Ethernet.tally_append]
      omega
    · simp only [List.map_append, List.map_cons, List.map_nil, happened_append, events_stage,
        List.filterMap_append, List.length_append, List.countP_append, List.countP_singleton,
        hstage, if_true]
      omega
  · have hcall := idle_perform hd hc (by simpa using hr) clock
    have hreads' := congrArg Counters.Transfers.total hcall.reads
    have hstage : ¬ (stage clock call s).receives = true := by
      rwa [receives_stage]
    constructor
    · simpa [happened_append, hcall.frames] using hreceipts.congr hcall.inward
    · simpa [happened_append, hcall.frames, hcall.queued] using hqueued
    · simp only [List.map_append, List.map_cons, List.map_nil, happened_append, events_stage,
        List.filterMap_append, hcall.frames, List.append_nil, List.countP_append,
        List.countP_singleton, hstage, Bool.false_eq_true, if_false]
      omega

/-- Every frame that was read is counted under its fate since the counters were cleared, each read
that gave none ended one of the calls that receive, and the bytes received are those of the frames
that were not refused. The host sends and handles nothing on its own here. -/
theorem way_in_counted {config : Config} {transport : τ}
    (hc : ((create config now).run transport).value = .ok s) (steps : List (Step τ))
    (hd : ∀ clock call, .call clock call ∈ steps → call.isDirect = false) :
    let c := (run steps s).state.counters
    let events := happened (sinceCleared (run steps s).history)
    let frames := events.filterMap Event.read?
    c.receive.total = c.receive.good + c.receive.bad ∧
      c.receive.good = c.process.broadcastIp + c.process.normalIp + c.process.arp ∧
      c.process.badArp = c.arp.inputErrors + c.arp.opcodeErrors ∧
      c.process.badArp ≤ c.process.arp ∧
      c.arp.requests + c.arp.answers ≤ c.process.arp - c.process.badArp ∧
      c.process.badIp ≤ c.process.normalIp ∧
      c.process.normalIp - c.process.badIp = (events.filterMap Event.queued?).length ∧
      (∀ clock call, call.isDirect = false →
        let o := (perform clock call).run (run steps s).state
        let queued := o.events.filterMap Event.queued?
        let queue := (run steps s).state.receiveQueue.toList
        o.state.receiveQueue.toList = queue ++ queued ∨
          queued = [] ∧ o.state.receiveQueue.toList <:+ queue) ∧
      c.read.total = c.receive.total + (stagesSinceCleared steps s).countP Stage.receives ∧
      c.receive.total = frames.length ∧
      c.receive.bad = tally .unknown frames ∧
      c.process.badIp = tally .badDatagram frames ∧
      c.process.badArp = tally .badMessage frames ∧
      c.totals.receivedBytes =
        ((frames.filter fun frame => (Ethernet.fate frame).isTaken).map List.length).sum := by
  intro c events frames
  have h : Tallied c (stagesSinceCleared steps s) := by
    apply counted_since_cleared ?_ ?_ (counters_of_create hc)
    · exact ⟨⟨rfl, rfl, rfl, rfl, rfl, rfl, rfl, rfl, rfl, Nat.le_refl _, rfl⟩, rfl, rfl⟩
    · intro clock call u since hm hclear hu
      exact tallied_call (hd clock call hm) hclear hu
  obtain ⟨hb, hq, hr⟩ := h
  rw [map_made_stagesSinceCleared] at hb hq hr
  change c.Receipts frames at hb
  change (events.filterMap Event.queued?).length = tally .datagram frames at hq
  change c.read.total = frames.length + _ at hr
  have hlength := hb.length
  have hnormalIp := hb.normalIp
  have hbadIp := hb.badIp
  have harp := hb.arp
  have hbadArp := hb.badArp
  have hheard := hb.heard
  refine ⟨hb.total, hb.good, hb.errors, ?_, ?_, ?_, ?_, ?_, ?_, hb.length, hb.bad, hb.badIp,
    hb.badArp, hb.bytes⟩
  · omega
  · omega
  · omega
  · omega
  · intro clock call hcall
    exact queue_perform hcall clock _
  · omega

/-- A frame that is too short, a datagram and an answer come in. Four reads are counted, and the
bytes of two frames. -/
theorem way_in_counted_three :
    ∃ s : Interface Adapter,
      ((create { address := ⟨192, 168, 1, 1⟩, mask := ⟨255, 255, 255, 0⟩ } 0).run
        ({ address := {} } : Adapter)).value = .ok s ∧
      let steps : List (Step Adapter) := [.call 0 (.setUp true),
        .adapter (·.inject [7]),
        .adapter (·.inject ((Datagram.make { dest := ⟨192, 168, 1, 1⟩ } [] [7]).toFrame {}
          ⟨2, 0, 0, 0, 0, 2⟩).bytes),
        .adapter (·.inject (Arp.Message.isAt ⟨2, 0, 0, 0, 0, 2⟩ ⟨192, 168, 1, 2⟩ {}
          ⟨192, 168, 1, 1⟩).toFrame.bytes),
        .call 1 .receiveWaiting]
      (∀ clock call, .call clock call ∈ steps → call.isDirect = false) ∧
        (run steps s).state.counters.receive.bad = 1 ∧
        (run steps s).state.counters.arp.answers = 1 ∧
        (run steps s).state.counters.read.total = 4 ∧
        (run steps s).state.counters.totals.receivedBytes = 102 := by
  obtain ⟨s, hc⟩ : ∃ s, ((create { address := ⟨192, 168, 1, 1⟩, mask := ⟨255, 255, 255, 0⟩ } 0).run
      ({ address := {} } : Adapter)).value = .ok s := ⟨_, rfl⟩
  refine ⟨s, hc, ?_⟩
  intro steps
  have hd : ∀ clock call, .call clock call ∈ steps → call.isDirect = false := by
    intro clock call hm
    simp only [steps, List.mem_cons, Step.call.injEq, reduceCtorEq, List.not_mem_nil, or_false,
      false_or] at hm
    rcases hm with ⟨rfl, rfl⟩ | ⟨rfl, rfl⟩
    · rfl
    · rfl
  obtain ⟨-, -, -, -, -, -, -, -, hreads, -, hbad, -, -, hbytes⟩ := way_in_counted hc steps hd
  cases hc
  exact ⟨hd, hbad, rfl, hreads, hbytes⟩

end Interface
end LinkLayer
