import LinkLayer.Interface.Input
import LinkLayer.Proofs.WayOut

/-!
All that the way in can do with an ARP message and a frame that was read, as one relation for each,
in the manner of the way out.
-/
namespace LinkLayer

/-- The cache after a message was accepted. The unspecified address is not learned. -/
def Arp.Cache.learn (cache : Cache) (message : Message) : Cache :=
  if message.senderIp = .unspecified then cache else cache.insert message.senderIp message.senderMac

/-- How a frame is handled, if it is handled at all. -/
def Ethernet.handledKind (bytes : Bytes) : Except FormatError Kind :=
  match Frame.ofBytes bytes with
  | .error error => .error error
  | .ok frame =>
    match frame.kind with
    | .ok (.unsupported _) => .error .unsupportedType
    | kind => kind

namespace Counters

/-- A frame that was read, with its kind if it has a known one. -/
def countKind (c : Counters) : Except FormatError Ethernet.Kind → Counters
  | .ok .broadcastIpv4 => { c with
      receive.total := c.receive.total + 1
      receive.good := c.receive.good + 1
      process.broadcastIp := c.process.broadcastIp + 1 }
  | .ok .ipv4 => { c with
      receive.total := c.receive.total + 1
      receive.good := c.receive.good + 1
      process.normalIp := c.process.normalIp + 1 }
  | .ok .arp => { c with
      receive.total := c.receive.total + 1
      receive.good := c.receive.good + 1
      process.arp := c.process.arp + 1 }
  | _ => { c with receive.total := c.receive.total + 1, receive.bad := c.receive.bad + 1 }

def refuseIp (c : Counters) : Counters := { c with process.badIp := c.process.badIp + 1 }

def refuseArpFrame (c : Counters) : Counters := { c with process.badArp := c.process.badArp + 1 }

def dropInbound (c : Counters) : Counters := { c with totals.dropped := c.totals.dropped + 1 }

/-- A refused packet adds to one of two counters at most. -/
theorem refuseArp_eq (c : Counters) (reason : DropReason) :
    ∃ inputErrors opcodeErrors, c.refuseArp reason = { c with
      arp.inputErrors := inputErrors, arp.opcodeErrors := opcodeErrors } := by
  cases reason with
  | malformed error => cases error <;> exact ⟨_, _, rfl⟩
  | _ => exact ⟨_, _, rfl⟩

def receiveBytes (c : Counters) (n : Nat) : Counters :=
  { c with totals.receivedBytes := c.totals.receivedBytes + n }

end Counters

namespace Interface

variable {τ : Type} [Transport τ]

/-- An accepted message is none of ours, tells us something or asks us. Only a question is
answered. -/
inductive Answered (now : Time) (message : Arp.Message) (s : Interface τ) :
    Outcome (Interface τ) Unit → Prop
  | notOurs (h : message.targetIp ≠ s.config.address) :
      Answered now message s { value := (), state := s }
  | told (h : message.targetIp = s.config.address) (ho : message.operation = .reply) :
      Answered now message s
        { value := ()
          state := { s with counters.arp.answers := s.counters.arp.answers + 1 }
          events := [.answered message.senderIp message.senderMac] }
  | asked {t : Interface τ} {events : List Event} (h : message.targetIp = s.config.address)
      (ho : message.operation = .request)
      (ha : ArpSent now
        (.isAt s.macAddress s.config.address message.senderMac message.senderIp)
        { s with counters.arp.requests := s.counters.arp.requests + 1 }
        { value := (), state := t, events }) :
      Answered now message s
        { value := ()
          state := t
          events := .answering message.senderIp message.senderMac :: events }

theorem answered_answer (now : Time) (message : Arp.Message) (s : Interface τ) :
    Answered now message s ((answer now message).run s) := by
  by_cases h : message.targetIp = s.config.address
  · cases ho : message.operation with
    | reply => simpa [answer, count, h, ho] using Answered.told h ho
    | request =>
      have ha := arpSent_sendArp now
        (.isAt s.macAddress s.config.address message.senderMac message.senderIp)
        { s with counters.arp.requests := s.counters.arp.requests + 1 }
      simp only [answer, count, replyBinding, ho, Action.run_bind, Action.run_get,
        Action.run_modify, Action.run_emit, h, if_true]
      generalize (sendArp now _).run (_ : Interface τ) = o at ha ⊢
      simpa using Answered.asked h ho ha
  · simpa [answer, h] using Answered.notOurs h

theorem sends_of_answered {now : Time} {message : Arp.Message} {s t : Interface τ}
    {events : List Event} (h : Answered now message s { value := (), state := t, events }) :
    s.Sends t := by
  cases h with
  | notOurs h => exact ⟨_, _, _, rfl⟩
  | told h ho => exact ⟨_, _, _, rfl⟩
  | asked h ho ha =>
    obtain ⟨_, _, _, rfl⟩ := sends_of_arpSent ha
    exact ⟨_, _, _, rfl⟩

/-- An accepted message is learned and answered, then every deferred datagram is tried again. -/
inductive Heard (clock : Clock) (message : Arp.Message) (s : Interface τ) :
    Outcome (Interface τ) Unit → Prop
  | intro {t u : Interface τ} {waiting : List Datagram} {events more : List Event}
      (ha : Answered clock.time message { s with cache := s.cache.learn message }
        { value := (), state := t, events })
      (hp : Passed .later clock.later t.deferred.toList t
        { value := waiting, state := u, events := more }) :
      Heard clock message s
        { value := ()
          state := { u with deferred := .ofList waiting }
          events := .arpAccepted message :: events ++ more }

omit [Transport τ] in
theorem run_learn (message : Arp.Message) (s : Interface τ) :
    (learn message.senderIp message.senderMac).run s =
      { value := (), state := { s with cache := s.cache.learn message } } := by
  simp only [learn, Action.run_ite, Arp.Cache.learn]
  by_cases h : message.senderIp = .unspecified
  · simp [h]
  · simp [h]

theorem heard_handleArp {frame : Ethernet.Frame} {message : Arp.Message}
    (h : Arp.Message.ofFrame frame = .ok message) (clock : Clock) (s : Interface τ) :
    ((handleArp clock frame).run s).value = .ok () ∧
      Heard clock message s
        { value := ()
          state := ((handleArp clock frame).run s).state
          events := ((handleArp clock frame).run s).events } := by
  have ha := answered_answer clock.time message { s with cache := s.cache.learn message }
  simp only [handleArp, h, Action.run_bind, Action.run_emit, run_learn, retryDeferred,
    Action.run_get, Action.run_modify, Action.run_pure, List.append_nil, List.nil_append,
    List.singleton_append, true_and]
  generalize (answer clock.time message).run (_ : Interface τ) = o at ha ⊢
  exact .intro ha (passed_settleAll .later clock.later _ o.state)

theorem receiveQueue_heard {clock : Clock} {message : Arp.Message} {s t : Interface τ}
    {events : List Event} (h : Heard clock message s { value := (), state := t, events }) :
    t.receiveQueue = s.receiveQueue := by
  cases h with
  | intro ha hp =>
    obtain ⟨_, _, _, rfl⟩ := sends_of_answered ha
    obtain ⟨_, _, _, rfl⟩ := sends_of_passed hp
    rfl

theorem run_handleArp_of_error {frame : Ethernet.Frame} {reason : DropReason}
    (h : Arp.Message.ofFrame frame = .error reason) (clock : Clock) (s : Interface τ) :
    (handleArp clock frame).run s =
      { value := .error reason
        state := { s with counters := s.counters.refuseArp reason } } := by
  simp [handleArp, h, count]

/-- A frame that was read is unknown, a broadcast, a packet or an ARP message. What cannot be read
as what it claims to be is dropped. -/
inductive TakenIn (clock : Clock) (bytes : Bytes) (s : Interface τ) :
    Outcome (Interface τ) Unit → Prop
  | unknown {error : FormatError} (h : Ethernet.handledKind bytes = .error error) :
      TakenIn clock bytes s
        { value := ()
          state := { s with counters := (s.counters.countKind (.error error)).dropInbound }
          events := [.inboundDropped bytes (.malformed error)] }
  | broadcast (h : Ethernet.handledKind bytes = .ok .broadcastIpv4) :
      TakenIn clock bytes s
        { value := ()
          state := { s with
            counters := (s.counters.countKind (.ok .broadcastIpv4)).receiveBytes bytes.length } }
  | queued {packet : Ipv4.Packet} (h : Ethernet.handledKind bytes = .ok .ipv4)
      (hp : Ipv4.Packet.ofFrame ⟨bytes⟩ = .ok packet) :
      TakenIn clock bytes s
        { value := ()
          state := { s with
            receiveQueue := s.receiveQueue.enqueue
              ((Datagram.ofPacket packet).stamp (clock.time + s.config.lifetime))
            counters := (s.counters.countKind (.ok .ipv4)).receiveBytes bytes.length }
          events := [.queued clock.time
            ((Datagram.ofPacket packet).stamp (clock.time + s.config.lifetime))] }
  | badIp {error : FormatError} (h : Ethernet.handledKind bytes = .ok .ipv4)
      (hp : Ipv4.Packet.ofFrame ⟨bytes⟩ = .error error) :
      TakenIn clock bytes s
        { value := ()
          state := { s with
            counters := (s.counters.countKind (.ok .ipv4)).refuseIp.dropInbound }
          events := [.inboundDropped bytes (.malformed error)] }
  | heard {message : Arp.Message} {t : Interface τ} {events : List Event}
      (h : Ethernet.handledKind bytes = .ok .arp)
      (hm : Arp.Message.ofFrame ⟨bytes⟩ = .ok message)
      (ha : Heard clock message { s with counters := s.counters.countKind (.ok .arp) }
        { value := (), state := t, events }) :
      TakenIn clock bytes s
        { value := ()
          state := { t with counters := t.counters.receiveBytes bytes.length }
          events }
  | badArp {reason : DropReason} (h : Ethernet.handledKind bytes = .ok .arp)
      (hm : Arp.Message.ofFrame ⟨bytes⟩ = .error reason) :
      TakenIn clock bytes s
        { value := ()
          state := { s with
            counters :=
              ((s.counters.countKind (.ok .arp)).refuseArp reason).refuseArpFrame.dropInbound }
          events := [.inboundDropped bytes reason] }

theorem takenIn_takeIn (clock : Clock) (bytes : Bytes) (s : Interface τ) :
    TakenIn clock bytes s ((takeIn clock bytes).run s) := by
  cases hb : Ethernet.Frame.ofBytes bytes with
  | error error =>
    simp only [takeIn, dispatch, hb, refuseFrame, count, Action.run_bind, Action.run_modify,
      Action.run_pure, Action.run_emit, List.nil_append]
    exact .unknown (by simp only [Ethernet.handledKind, hb])
  | ok frame =>
    obtain rfl : frame = ⟨bytes⟩ :=
      congrArg Ethernet.Frame.mk (Ethernet.Frame.ofBytes_ok_iff.mp hb).2
    cases hk : Ethernet.Frame.kind ⟨bytes⟩ with
    | error error =>
      simp only [takeIn, dispatch, hb, hk, refuseFrame, count, Action.run_bind, Action.run_modify,
        Action.run_pure, Action.run_emit, List.nil_append]
      exact .unknown (by simp only [Ethernet.handledKind, hb, hk])
    | ok kind =>
      cases kind with
      | unsupported etherType =>
        simp only [takeIn, dispatch, hb, hk, refuseFrame, count, Action.run_bind,
          Action.run_modify, Action.run_pure, Action.run_emit, List.nil_append]
        exact .unknown (by simp only [Ethernet.handledKind, hb, hk])
      | broadcastIpv4 =>
        simp only [takeIn, dispatch, hb, hk, count, Action.run_bind, Action.run_modify,
          Action.run_pure, List.nil_append]
        exact .broadcast (by simp only [Ethernet.handledKind, hb, hk])
      | ipv4 =>
        have h : Ethernet.handledKind bytes = .ok .ipv4 := by
          simp only [Ethernet.handledKind, hb, hk]
        cases hp : Ipv4.Packet.ofFrame ⟨bytes⟩ with
        | error error =>
          simp only [takeIn, dispatch, hb, hk, handleIp, hp, count, Action.run_bind,
            Action.run_modify, Action.run_pure, List.nil_append]
          exact .badIp h hp
        | ok packet =>
          simp only [takeIn, dispatch, hb, hk, handleIp, hp, count, Action.run_bind, Action.run_get,
            Action.run_modify, Action.run_pure, Action.run_emit, List.nil_append, List.append_nil]
          exact .queued h hp
      | arp =>
        have h : Ethernet.handledKind bytes = .ok .arp := by
          simp only [Ethernet.handledKind, hb, hk]
        cases hm : Arp.Message.ofFrame ⟨bytes⟩ with
        | error reason =>
          simp only [takeIn, dispatch, hb, hk, run_handleArp_of_error hm, count, Action.run_bind,
            Action.run_modify, List.nil_append]
          exact .badArp h hm
        | ok message =>
          obtain ⟨hv, ha⟩ := heard_handleArp hm clock
            { s with counters := s.counters.countKind (.ok .arp) }
          simp only [takeIn, dispatch, hb, hk, count, Action.run_bind, Action.run_modify,
            List.nil_append]
          simp only [Counters.countKind] at hv ha
          generalize (handleArp clock ⟨bytes⟩).run (_ : Interface τ) = o at hv ha ⊢
          obtain ⟨value, t, events⟩ := o
          subst hv
          simp only [Except.isOk, Except.toBool, Bool.not_true, Bool.false_eq_true, if_false,
            Action.run_pure, Action.run_modify, List.append_nil]
          exact .heard h hm ha

/-- A read gives a frame, finds none or fails. -/
inductive FrameRead (now : Time) (s : Interface τ) :
    Outcome (Interface τ) (Except TransportError (Option Bytes)) → Prop
  | frame {b : UInt8} {bytes : Bytes} {transport : τ}
      (h : Transport.receive s.device.transport = (.ok (some (b :: bytes)), transport)) :
      FrameRead now s
        { value := .ok (some (b :: bytes))
          state := { s with
            device := ⟨transport, s.device.trace.record now .read .ok (b :: bytes)⟩
            counters.read := Counters.transfer s.counters.read false }
          events := [.frameRead (b :: bytes)] }
  | nothing {bytes : Option Bytes} {transport : τ}
      (h : Transport.receive s.device.transport = (.ok bytes, transport))
      (hb : bytes = none ∨ bytes = some []) :
      FrameRead now s
        { value := .ok none
          state := { s with
            device := ⟨transport, s.device.trace⟩
            counters.read := Counters.transfer s.counters.read false } }
  | failed {error : TransportError} {transport : τ}
      (h : Transport.receive s.device.transport = (.error error, transport)) :
      FrameRead now s
        { value := .error error
          state := { s with
            device := ⟨transport, s.device.trace.record now .read .failed []⟩
            counters.read := Counters.transfer s.counters.read true }
          events := [.readFailed error] }

theorem frameRead_read (now : Time) (s : Interface τ) : FrameRead now s ((read now).run s) := by
  rcases h : Transport.receive s.device.transport with ⟨result, transport⟩
  simp only [read, onDevice, count, Action.run_bind, Action.run_onPart, Action.run_modify,
    Action.run_pure]
  simp only [Action.run, Device.read, h]
  cases result with
  | error error => exact .failed h
  | ok found =>
    rcases found with _ | _ | ⟨b, bytes⟩
    · exact .nothing h (.inl rfl)
    · exact .nothing h (.inr rfl)
    · exact .frame h

end Interface
end LinkLayer
