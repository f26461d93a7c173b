import LinkLayer.Interface.Control

/-! Everything that a host can ask of an interface, as one type, and what it gets back. -/
namespace LinkLayer.Interface

inductive Call where
  | setUp (up : Bool)
  | setAddress (ip : Ipv4.Address)
  | setMask (mask : Ipv4.Address)
  | submit (d : Datagram)
  | sendQueued
  | receiveWaiting
  | takeReceived
  | output (d : Datagram)
  | handleArp (frame : Ethernet.Frame)
  | handleIp (frame : Ethernet.Frame)
  | control (request : Request)
deriving DecidableEq, Repr

inductive Reply where
  | nothing
  | received (d : Option Datagram)
  | delivery (result : Except DropReason Delivery)
  | handled (result : Except DropReason Unit)
  | answer (answer : Answer)

variable {τ : Type} [FiniteTransport τ]

/-- Makes one call by the clock. -/
def perform (clock : Clock) : Call → Action (Interface τ) Reply
  | .setUp up => do setUp up; pure .nothing
  | .setAddress ip => do setAddress ip; pure .nothing
  | .setMask mask => do setMask mask; pure .nothing
  | .submit d => do submit clock.time d; pure .nothing
  | .sendQueued => do sendQueued clock; pure .nothing
  | .receiveWaiting => do receiveWaiting clock; pure .nothing
  | .takeReceived => do return .received (← takeReceived clock.time)
  | .output d => do return .delivery (← output clock.time d)
  | .handleArp frame => do return .handled (← handleArp clock frame)
  | .handleIp frame => do return .handled (← handleIp clock.time frame)
  | .control request => do return .answer (← control clock.time request)

end LinkLayer.Interface
