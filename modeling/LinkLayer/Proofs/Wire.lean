import LinkLayer.Adapter
import LinkLayer.Proofs.Offers
import LinkLayer.Proofs.Runs

/-!
An interface on a simulated adapter. Main statements: what a call writes goes behind what is already
in the outbox (`outbox_perform`), and what is still to come for the host only moves from the inbox
to the queue, in order, or gets lost (`toCome_perform`).
-/
namespace LinkLayer

/-- What a frame carries of a datagram. -/
def Datagram.parts (d : Datagram) : Ipv4.Header × Bytes × Bytes := (d.header, d.options, d.payload)

/-- What the host gets of a frame, if it gets anything. -/
def Ethernet.arriving? (bytes : Bytes) : Option (Ipv4.Header × Bytes × Bytes) :=
  match handledKind bytes with
  | .ok .ipv4 => (Ipv4.Packet.ofFrame ⟨bytes⟩).toOption.map fun packet =>
    (packet.header, packet.options, packet.payload)
  | _ => none

def Event.written? : Event → Option Bytes
  | frameWritten frame => some frame
  | _ => none

theorem written?_of_offered? {event : Event} (h : event.offered? = none) :
    event.written? = none := by
  cases event with
  | frameWritten frame => cases h
  | _ => rfl

namespace Interface

variable {now : Time} {clock : Clock} {s t u : Interface Adapter} {events more : List Event}

/-- Frames went to the outbox and none was taken from the inbox. -/
structure Writes (s t : Interface Adapter) (events : List Event) : Prop where
  outbox : t.device.transport.outbox.toList =
    s.device.transport.outbox.toList ++ events.filterMap Event.written?
  inbox : t.device.transport.inbox = s.device.transport.inbox

theorem Writes.append (h : Writes s t events) (h' : Writes t u more) :
    Writes s u (events ++ more) := by
  constructor
  · rw [h'.outbox, h.outbox, List.filterMap_append, List.append_assoc]
  · exact h'.inbox.trans h.inbox

theorem writes_offered {frame : Bytes} {value : Except TransportError Unit}
    (h : Offered now frame s { value, state := t, events }) : Writes s t events := by
  cases h with
  | taken h =>
    simp only [Transport.transmit, Adapter.transmit] at h
    split at h
    · cases h
    · split at h
      · cases h
        exact ⟨by simp [Event.written?], rfl⟩
      · cases h
  | failed h =>
    simp only [Transport.transmit, Adapter.transmit] at h
    split at h
    · cases h
      exact ⟨by simp [Event.written?], rfl⟩
    · split at h
      · cases h
      · cases h
        exact ⟨by simp [Event.written?], rfl⟩

theorem local_writes : Local Writes where
  offered := writes_offered
  quiet hd hn := by
    have hnone := List.filterMap_eq_nil_iff.mpr fun event hm =>
      written?_of_offered? (offered?_of_transfer? (hn event hm))
    exact ⟨by rw [hd, hnone, List.append_nil], by rw [hd]⟩
  append := Writes.append

/-- What is still to come for the host: what is queued for it, and what frames will bring. -/
def toCome (s : Interface Adapter) : List (Ipv4.Header × Bytes × Bytes) :=
  s.receiveQueue.toList.map Datagram.parts ++
    s.device.transport.inbox.toList.filterMap Ethernet.arriving?

/-- A frame gives the host what it carries, or nothing. -/
theorem toCome_takenIn {bytes : Bytes}
    (h : TakenIn clock bytes s { value := (), state := t, events }) :
    t.toCome = s.receiveQueue.toList.map Datagram.parts ++
      (bytes :: s.device.transport.inbox.toList).filterMap Ethernet.arriving? := by
  cases h with
  | @heard message t events hk hm ha =>
    have hq := receiveQueue_heard ha
    have hi := (local_writes.heard ha).inbox
    simp only at hq hi
    simp [toCome, hq, hi, Ethernet.arriving?, hk]
  | queued hk hp =>
    simp [toCome, Ethernet.arriving?, hk, hp, Except.toOption, Datagram.parts, Datagram.ofPacket,
      Datagram.stamp]
  | badIp hk hp => simp [toCome, Ethernet.arriving?, hk, hp, Except.toOption]
  | unknown hk | broadcast hk | badArp hk hm => simp [toCome, Ethernet.arriving?, hk]

/-- A frame that is read is the oldest one in the inbox. -/
theorem inbox_of_receive {bytes : Bytes} {adapter : Adapter}
    (h : Transport.receive s.device.transport = (.ok (some bytes), adapter)) :
    s.device.transport.inbox.toList = bytes :: adapter.inbox.toList ∧
      adapter.outbox = s.device.transport.outbox := by
  simp only [Transport.receive, Adapter.receive, Fifo.head?_eq] at h
  split at h
  · cases h
  · split at h
    · rename_i frame hh
      cases h
      obtain ⟨rest, hrest⟩ := List.head?_eq_some_iff.mp hh
      simp [hrest]
    · split at h <;> cases h

theorem eq_of_receive {value : Except TransportError (Option Bytes)} {adapter : Adapter}
    (h : Transport.receive s.device.transport = (value, adapter))
    (hn : ∀ bytes, value ≠ .ok (some bytes)) : adapter = s.device.transport := by
  simp only [Transport.receive, Adapter.receive] at h
  split at h
  · cases h
    rfl
  · split at h
    · cases h
      exact absurd rfl (hn _)
    · split at h <;> cases h <;> rfl

theorem eq_of_readAddress {value : Except TransportError MacAddress} {adapter : Adapter}
    (h : Transport.readAddress s.device.transport = (value, adapter)) :
    adapter = s.device.transport := by
  simp only [Transport.readAddress, Adapter.readAddress] at h
  split at h <;> cases h <;> rfl

theorem arriving?_nil : Ethernet.arriving? [] = none := rfl

theorem toCome_move {pass? : Option Pass} (h : Move clock pass? s events t) :
    t.toCome.Sublist s.toCome := by
  cases h with
  | passed hu hp =>
    have hi := (local_writes.passed hp).inbox
    obtain ⟨_, _, _, rfl⟩ := sends_of_passed hp
    simp only at hi
    simp [toCome, hi]
  | heard h =>
    have he : t.toCome = s.toCome := by
      simp only [toCome, receiveQueue_heard h, (local_writes.heard h).inbox]
    exact he ▸ .refl _
  | received hr h =>
    cases hr with
    | frame hr =>
      obtain ⟨hi, -⟩ := inbox_of_receive hr
      have ht := toCome_takenIn h
      have he : t.toCome = s.toCome := by
        rw [ht, toCome, hi]
      exact he ▸ .refl _
  | ended h hn =>
    cases h with
    | frame hr => exact absurd rfl (hn _)
    | nothing hr hb =>
      rcases hb with rfl | rfl
      · have hd := eq_of_receive hr (by simp)
        simp [toCome, hd]
      · obtain ⟨hi, -⟩ := inbox_of_receive hr
        simp [toCome, hi, List.filterMap_cons, arriving?_nil]
    | failed hr =>
      have hd := eq_of_receive hr (by simp)
      simp [toCome, hd]
  | taken =>
    refine List.Sublist.append_right (List.Sublist.map _ ?_) _
    rw [← Queue.dequeue_append s.receiveQueue clock.time]
    exact List.sublist_append_right _ _
  | addressRead h | addressKept h =>
    have hd := eq_of_readAddress h
    simp [toCome, hd]
  | wentDown => exact List.sublist_append_right _ _
  | unheard | wentUp | macSet | typeSelected | bindingsCleared | traceCleared => exact .refl _

theorem outbox_move {pass? : Option Pass} (h : Move clock pass? s events t) :
    t.device.transport.outbox.toList =
      s.device.transport.outbox.toList ++ events.filterMap Event.written? := by
  cases h with
  | passed hu hp => exact (local_writes.passed hp).outbox
  | heard h => exact (local_writes.heard h).outbox
  | received hr h =>
    cases hr with
    | frame hr =>
      have hw := (local_writes.takenIn h).outbox
      obtain ⟨-, ho⟩ := inbox_of_receive hr
      simpa [ho, List.filterMap_cons, Event.written?] using hw
  | ended h hn =>
    cases h with
    | frame hr => exact absurd rfl (hn _)
    | nothing hr hb =>
      rcases hb with rfl | rfl
      · have hd := eq_of_receive hr (by simp)
        simp [hd]
      · obtain ⟨-, ho⟩ := inbox_of_receive hr
        simp [ho]
    | failed hr =>
      have hd := eq_of_receive hr (by simp)
      simp [hd, Event.written?]
  | addressRead h | addressKept h =>
    have hd := eq_of_readAddress h
    simp [hd, Event.written?]
  | taken => simp [Event.written?]
  | unheard | wentUp | wentDown | macSet | typeSelected | bindingsCleared | traceCleared =>
    simp [Event.written?]

theorem chain_wire {pass? : Option Pass} (h : Chain pass? clock s events t) :
    t.toCome.Sublist s.toCome ∧ t.device.transport.outbox.toList =
      s.device.transport.outbox.toList ++ events.filterMap Event.written? := by
  induction h with
  | nil => exact ⟨.refl _, by simp⟩
  | cons h hc ih =>
    refine ⟨ih.1.trans (toCome_move h), ?_⟩
    rw [ih.2, outbox_move h, List.filterMap_append, List.append_assoc]

/-- What a call writes goes behind what is in the outbox. -/
theorem outbox_perform (clock : Clock) (call : Call) (s : Interface Adapter) :
    ((perform clock call).run s).state.device.transport.outbox.toList =
      s.device.transport.outbox.toList ++
        ((perform clock call).run s).events.filterMap Event.written? := by
  have h := performed_perform clock call s
  generalize (perform clock call).run s = o at h ⊢
  obtain ⟨reply, t, events⟩ := o
  cases h with
  | delivered h => exact (local_writes.delivered h).outbox
  | moved hs h => exact (chain_wire h).2
  | submitted | addressSet | maskSet | queued | countersCleared => simp [Event.written?]

/-- A datagram that the host got. -/
def Reply.returned? : Reply → Option Datagram
  | received d => d
  | _ => none

theorem toCome_performed {call : Call} (hc : ∀ frame, call ≠ .handleIp frame)
    (h : Performed clock s call events t) : t.toCome.Sublist s.toCome := by
  cases h with
  | delivered h =>
    have hi := (local_writes.delivered h).inbox
    obtain ⟨_, _, _, rfl⟩ := sends_of_delivered h
    simp only at hi
    simp [toCome, hi]
  | moved hs h => exact (chain_wire h).1
  | queued => exact absurd rfl (hc _)
  | submitted | addressSet | maskSet | countersCleared => exact .refl _

/-- What the host gets is the next that was to come. All else is still to come or lost. -/
theorem toCome_perform {call : Call} (hc : ∀ frame, call ≠ .handleIp frame) (clock : Clock)
    (s : Interface Adapter) :
    (((perform clock call).run s).value.returned?.toList.map Datagram.parts ++
      ((perform clock call).run s).state.toCome).Sublist s.toCome := by
  have h := toCome_performed hc (performed_perform clock call s)
  cases call with
  | takeReceived =>
    have hq := Queue.dequeue_append s.receiveQueue clock.time
    rw [List.append_assoc] at hq
    simp only [perform, run_takeReceived, Action.run_bind, Action.run_pure, Reply.returned?,
      toCome, ← List.append_assoc, ← List.map_append]
    refine List.Sublist.append_right (List.Sublist.map _ ?_) _
    conv => rhs; rw [← hq]
    exact List.sublist_append_right _ _
  | _ => exact h

end Interface
end LinkLayer
