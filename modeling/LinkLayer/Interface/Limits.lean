import LinkLayer.Interface.Call

/-!
Calls by a clock whose times come to an end. The end of a lifetime that lies behind the last time
cannot be noted, and a call that has to note it breaks off where it stands and gives nothing.
-/
namespace LinkLayer

/-- The frame holds a datagram for the host. -/
def Ethernet.holdsDatagram (bytes : Bytes) : Bool :=
  match Frame.ofBytes bytes with
  | .error _ => false
  | .ok frame =>
    match frame.kind with
    | .ok .ipv4 => (Ipv4.Packet.ofFrame frame).isOk
    | _ => false

namespace Interface

variable {τ : Type}

/-- A lifetime that starts now ends at a time that there is. -/
def CanStamp (last now : Time) (interface : Interface τ) : Prop :=
  now + interface.config.lifetime ≤ last

instance (last now : Time) (interface : Interface τ) : Decidable (interface.CanStamp last now) :=
  inferInstanceAs (Decidable (_ ≤ _))

variable [Transport τ]

/-- Takes a datagram from the host if it can be stamped. -/
def submit? (last now : Time) (d : Datagram) : Action (Interface τ) (Option Unit) := do
  if (← .get).CanStamp last now then some <$> submit now d else pure none

/-- Only the datagram of a frame that is accepted has to be stamped. -/
def handleIp? (last now : Time) (frame : Ethernet.Frame) :
    Action (Interface τ) (Option (Except DropReason Unit)) := do
  if (Ipv4.Packet.ofFrame frame).isOk ∧ ¬ (← .get).CanStamp last now then pure none
  else some <$> handleIp now frame

/-- Handles a frame that was read. Its kind is counted before its datagram has to be stamped. -/
def takeIn? (last : Time) (clock : Clock) (bytes : Bytes) :
    Action (Interface τ) (Option Unit) := do
  if Ethernet.holdsDatagram bytes ∧ ¬ (← .get).CanStamp last clock.time then
    count fun c => { c with
      receive.total := c.receive.total + 1, receive.good := c.receive.good + 1
      process.normalIp := c.process.normalIp + 1 }
    pure none
  else some <$> takeIn clock bytes

def receiveUpTo? (last : Time) : Clock → Nat → Action (Interface τ) (Option Unit)
  | _, 0 => pure (some ())
  | clock, limit + 1 => do
    match ← read clock.time with
    | .ok (some bytes) =>
      match ← takeIn? last clock.later bytes with
      | some () => receiveUpTo? last clock.nextFrame limit
      | none => pure none
    | _ => pure (some ())

def receiveWaiting? {τ : Type} [FiniteTransport τ] (last : Time) (clock : Clock) :
    Action (Interface τ) (Option Unit) := do
  let interface ← .get
  if interface.isUp then
    receiveUpTo? last clock (FiniteTransport.waiting interface.device.transport + 1)
  else pure (some ())

/-- Makes one call by a clock that knows no time behind the last one. -/
def perform? {τ : Type} [FiniteTransport τ] (last : Time) (clock : Clock) :
    Call → Action (Interface τ) (Option Reply)
  | .submit d => do return (← submit? last clock.time d).map fun _ => .nothing
  | .receiveWaiting => do return (← receiveWaiting? last clock).map fun _ => .nothing
  | .handleIp frame => do return (← handleIp? last clock.time frame).map .handled
  | call => some <$> perform clock call

end Interface
end LinkLayer
