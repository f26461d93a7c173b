import LinkLayer.Interface.Output

/-!
All that the way out can do with a frame, an ARP message, one datagram and a whole queue, as one
relation for each. The lemmas at the end of each part say that nothing else can happen.
-/
namespace LinkLayer.Interface

variable {τ : Type} [Transport τ]

/-- A frame is offered to the adapter, which takes it or fails. -/
inductive Offered (now : Time) (frame : Bytes) (s : Interface τ) :
    Outcome (Interface τ) (Except TransportError Unit) → Prop
  | taken {transport : τ} (h : Transport.transmit s.device.transport frame = (.ok (), transport)) :
      Offered now frame s
        { value := .ok ()
          state := { s with
            device := ⟨transport, s.device.trace.record now .write .ok frame⟩
            counters.write := Counters.transfer s.counters.write false }
          events := [.frameWritten frame] }
  | failed {error : TransportError} {transport : τ}
      (h : Transport.transmit s.device.transport frame = (.error error, transport)) :
      Offered now frame s
        { value := .error error
          state := { s with
            device := ⟨transport, s.device.trace.record now .write .failed frame⟩
            counters.write := Counters.transfer s.counters.write true }
          events := [.writeFailed frame error] }

theorem offered_write (now : Time) (frame : Bytes) (s : Interface τ) :
    Offered now frame s ((write now frame).run s) := by
  rcases h : Transport.transmit s.device.transport frame with ⟨result, transport⟩
  simp only [write, onDevice, count, Action.run_bind, Action.run_onPart, Action.run_modify,
    Action.run_pure]
  simp only [Action.run, Device.write, h]
  cases result with
  | ok u =>
    exact .taken h
  | error error => exact .failed h

/-- An ARP message is offered as a frame. Whether it is taken shows in the counters only. -/
inductive ArpSent (now : Time) (message : Arp.Message) (s : Interface τ) :
    Outcome (Interface τ) Unit → Prop
  | taken {framer : Framer} {t : Interface τ} {events : List Event}
      (h : Offered now message.toFrame.bytes { s with framer }
        { value := .ok (), state := t, events }) :
      ArpSent now message s
        { value := ()
          state := { t with
            counters.send.arp := t.counters.send.arp + 1
            counters.totals.sentBytes := t.counters.totals.sentBytes + 42 }
          events }
  | failed {framer : Framer} {error : TransportError} {t : Interface τ} {events : List Event}
      (h : Offered now message.toFrame.bytes { s with framer }
        { value := .error error, state := t, events }) :
      ArpSent now message s
        { value := ()
          state := { t with
            counters.send.arp := t.counters.send.arp + 1
            counters.send.arpFailed := t.counters.send.arpFailed + 1 }
          events := events ++ [.arpNotSent] }

theorem arpSent_sendArp (now : Time) (message : Arp.Message) (s : Interface τ) :
    ArpSent now message s ((sendArp now message).run s) := by
  obtain ⟨framer, hm⟩ := s.framer.message_eq message
  have h := offered_write now message.toFrame.bytes { s with framer }
  simp only [sendArp, Action.run_bind, Action.run_get, hm, Action.run_modify]
  generalize (write now message.toFrame.bytes).run { s with framer } = o at h ⊢
  obtain ⟨value, t, events⟩ := o
  cases value with
  | ok u =>
    simp only [count, Action.run_modify, List.append_nil, List.nil_append]
    exact .taken h
  | error error =>
    simp only [count, Action.run_bind, Action.run_modify, Action.run_emit, List.nil_append]
    exact .failed h

/-- One datagram on its way out is refused, asked for, written or not taken by the adapter. -/
inductive Delivered (now : Time) (d : Datagram) (s : Interface τ) :
    Outcome (Interface τ) (Except DropReason Delivery) → Prop
  | refused {reason : DropReason} (h : s.config.route s.cache d = .error reason) :
      Delivered now d s
        { value := .error reason, state := { s with counters := s.counters.refuse reason } }
  | deferred {hop : Ipv4.Address} {t : Interface τ} {events : List Event}
      (h : s.config.route s.cache d = .ok (.unresolved hop))
      (ha : ArpSent now (.whoHas s.macAddress s.config.address hop) s
        { value := (), state := t, events }) :
      Delivered now d s
        { value := .ok .deferred, state := t, events := .deferring hop :: events }
  | sent {hop : Ipv4.Address} {mac : MacAddress} {framer : Framer} {t : Interface τ}
      {events : List Event} (h : s.config.route s.cache d = .ok (.resolved hop mac))
      (ho : Offered now (d.toFrame mac s.macAddress).bytes { s with framer }
        { value := .ok (), state := t, events }) :
      Delivered now d s
        { value := .ok (.sent d.ipLength)
          state := { t with counters.send.ip := t.counters.send.ip + 1 }
          events }
  | failed {hop : Ipv4.Address} {mac : MacAddress} {framer : Framer} {error : TransportError}
      {t : Interface τ} {events : List Event}
      (h : s.config.route s.cache d = .ok (.resolved hop mac))
      (ho : Offered now (d.toFrame mac s.macAddress).bytes { s with framer }
        { value := .error error, state := t, events }) :
      Delivered now d s { value := .error (.transport error), state := t, events }

theorem delivered_output (now : Time) (d : Datagram) (s : Interface τ) :
    Delivered now d s ((output now d).run s) := by
  simp only [output, Action.run_bind, Action.run_get]
  cases hr : s.config.route s.cache d with
  | error reason => exact .refused hr
  | ok route =>
    cases route with
    | unresolved hop =>
      have h := arpSent_sendArp now (.whoHas s.macAddress s.config.address hop) s
      simp only [Action.run_bind, Action.run_emit, Action.run_pure, requestBinding, Action.run_get]
      generalize (sendArp _ _).run s = o at h ⊢
      simpa using Delivered.deferred hr h
    | resolved hop mac =>
      obtain ⟨framer, hm⟩ := s.framer.datagram_eq mac s.macAddress d
      have h := offered_write now (d.toFrame mac s.macAddress).bytes { s with framer }
      simp only [sendDatagram, Action.run_bind, Action.run_get, hm, Action.run_modify]
      generalize (write now _).run { s with framer } = o at h ⊢
      obtain ⟨value, t, events⟩ := o
      cases value with
      | ok u => simpa [count] using Delivered.sent hr h
      | error error => simpa using Delivered.failed hr h

/-- A datagram of a pass is expired, sent, refused or has to wait. Only a datagram that has to wait
is given back. -/
inductive Settled (pass : Pass) (clock : Clock) (d : Datagram) (s : Interface τ) :
    Outcome (Interface τ) (Option Datagram) → Prop
  | expired (h : d.isExpired clock.time = true) :
      Settled pass clock d s
        { value := none
          state := { s with counters.totals.expired := s.counters.totals.expired + 1 }
          events := [.expired clock.time pass.place d] }
  | sent {length : Nat} {t : Interface τ} {events : List Event} (h : d.isExpired clock.time = false)
      (hd : Delivered clock.later.time d { s with counters := pass.countTaken s.counters }
        { value := .ok (.sent length), state := t, events }) :
      Settled pass clock d s
        { value := none
          state := { t with
            counters.totals.sentBytes := t.counters.totals.sentBytes + length }
          events := events ++ [.sent clock.time clock.later.time d] }
  | waits {t : Interface τ} {events : List Event} (h : d.isExpired clock.time = false)
      (hd : Delivered clock.later.time d { s with counters := pass.countTaken s.counters }
        { value := .ok .deferred, state := t, events }) :
      Settled pass clock d s
        { value := some d
          state := { t with counters := pass.countWaiting t.counters }
          events }
  | dropped {reason : DropReason} {t : Interface τ} {events : List Event}
      (h : d.isExpired clock.time = false)
      (hd : Delivered clock.later.time d { s with counters := pass.countTaken s.counters }
        { value := .error reason, state := t, events }) :
      Settled pass clock d s
        { value := none
          state := { t with counters.totals.dropped := t.counters.totals.dropped + 1 }
          events := events ++ [pass.dropped d reason] }

theorem settled_settle (pass : Pass) (clock : Clock) (d : Datagram) (s : Interface τ) :
    Settled pass clock d s ((settle pass clock d).run s) := by
  cases he : d.isExpired clock.time with
  | true => simpa [settle, he, expire, count] using Settled.expired (s := s) he
  | false =>
    have h := delivered_output clock.later.time d
      { s with counters := pass.countTaken s.counters }
    simp only [settle, he, attempt, count, Action.run_bind, Action.run_modify, Bool.false_eq_true,
      if_false]
    generalize (output clock.later.time d).run (_ : Interface τ) = o at h ⊢
    obtain ⟨value, t, events⟩ := o
    cases value with
    | error reason => simpa using Settled.dropped he h
    | ok delivery =>
      cases delivery with
      | sent length => simpa using Settled.sent he h
      | deferred => simpa using Settled.waits he h

/-- The datagrams of a list are settled one after the other, each by the clock that the one before
it left. -/
inductive Passed (pass : Pass) :
    Clock → List Datagram → Interface τ → Outcome (Interface τ) (List Datagram) → Prop
  | nil {clock : Clock} {s : Interface τ} : Passed pass clock [] s { value := [], state := s }
  | gone {clock : Clock} {d : Datagram} {ds waiting : List Datagram} {s t u : Interface τ}
      {events more : List Event} (h : Settled pass clock d s { value := none, state := t, events })
      (hp : Passed pass (clock.after d) ds t
        { value := waiting, state := u, events := more }) :
      Passed pass clock (d :: ds) s { value := waiting, state := u, events := events ++ more }
  | waits {clock : Clock} {d : Datagram} {ds waiting : List Datagram} {s t u : Interface τ}
      {events more : List Event}
      (h : Settled pass clock d s { value := some d, state := t, events })
      (hp : Passed pass (clock.after d) ds t
        { value := waiting, state := u, events := more }) :
      Passed pass clock (d :: ds) s { value := d :: waiting, state := u, events := events ++ more }

theorem settled_value {pass : Pass} {clock : Clock} {d other : Datagram} {s t : Interface τ}
    {events : List Event}
    (h : Settled pass clock d s { value := some other, state := t, events }) : other = d := by
  cases h
  rfl

theorem passed_settleAll (pass : Pass) (clock : Clock) (ds : List Datagram) (s : Interface τ) :
    Passed pass clock ds s ((settleAll pass clock ds).run s) := by
  induction ds generalizing clock s with
  | nil => exact .nil
  | cons d ds ih =>
    have h := settled_settle pass clock d s
    simp only [settleAll, Action.run_bind]
    generalize (settle pass clock d).run s = o at h ⊢
    obtain ⟨value, t, events⟩ := o
    cases value with
    | none => exact .gone h (ih (clock.after d) t)
    | some other =>
      obtain rfl := settled_value h
      dsimp only [Action.run_map]
      exact .waits h (ih (clock.after other) t)

/-- Sending changes the device, the framer and the counters and leaves the rest alone. -/
def Sends (s t : Interface τ) : Prop :=
  ∃ device framer counters, t = { s with device, framer, counters }

section Sends

variable {now : Time} {clock : Clock} {s t u : Interface τ} {events : List Event}

omit [Transport τ] in
theorem Sends.trans (h : s.Sends t) (h' : t.Sends u) : s.Sends u := by
  obtain ⟨_, _, _, rfl⟩ := h
  obtain ⟨device, framer, counters, rfl⟩ := h'
  exact ⟨device, framer, counters, rfl⟩

theorem sends_of_offered {frame : Bytes} {value : Except TransportError Unit}
    (h : Offered now frame s { value, state := t, events }) : s.Sends t := by
  cases h <;> exact ⟨_, _, _, rfl⟩

theorem sends_of_arpSent {message : Arp.Message}
    (h : ArpSent now message s { value := (), state := t, events }) : s.Sends t := by
  cases h with
  | taken h | failed h =>
    obtain ⟨_, _, _, rfl⟩ := sends_of_offered h
    exact ⟨_, _, _, rfl⟩

theorem sends_of_delivered {d : Datagram} {value : Except DropReason Delivery}
    (h : Delivered now d s { value, state := t, events }) : s.Sends t := by
  cases h with
  | refused h => exact ⟨_, _, _, rfl⟩
  | deferred h ha =>
    obtain ⟨_, _, _, rfl⟩ := sends_of_arpSent ha
    exact ⟨_, _, _, rfl⟩
  | sent h ho | failed h ho =>
    obtain ⟨_, _, _, rfl⟩ := sends_of_offered ho
    exact ⟨_, _, _, rfl⟩

theorem sends_of_settled {pass : Pass} {d : Datagram} {value : Option Datagram}
    (h : Settled pass clock d s { value, state := t, events }) : s.Sends t := by
  cases h with
  | expired h => exact ⟨_, _, _, rfl⟩
  | sent h hd | waits h hd | dropped h hd =>
    obtain ⟨_, _, _, rfl⟩ := sends_of_delivered hd
    exact ⟨_, _, _, rfl⟩

theorem sends_of_passed {pass : Pass} {ds : List Datagram}
    {o : Outcome (Interface τ) (List Datagram)} (h : Passed pass clock ds s o) :
    s.Sends o.state := by
  induction h with
  | nil => exact ⟨_, _, _, rfl⟩
  | gone h hp ih | waits h hp ih => exact (sends_of_settled h).trans ih

end Sends

end LinkLayer.Interface
