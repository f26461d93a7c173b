import LinkLayer.Action
import LinkLayer.Trace
import LinkLayer.Transport

/-! An adapter with the trace that watches it. Every transfer is traced and becomes an event. -/
namespace LinkLayer

structure Device (τ : Type) where
  transport : τ
  trace : Trace

namespace Device

variable {τ : Type} [Transport τ]

/-- Offers a frame to the adapter. The whole frame is traced whether it is taken or not. -/
def write (now : Time) (frame : Bytes) : Action (Device τ) (Except TransportError Unit) :=
  fun device =>
    match Transport.transmit device.transport frame with
    | (.ok (), transport) =>
      { value := .ok ()
        state := { transport, trace := device.trace.record now .write .ok frame }
        events := [.frameWritten frame] }
    | (.error error, transport) =>
      { value := .error error
        state := { transport, trace := device.trace.record now .write .failed frame }
        events := [.writeFailed frame error] }

/-- Takes a frame from the adapter. An empty frame counts as none, and neither leaves a trace. -/
def read (now : Time) : Action (Device τ) (Except TransportError (Option Bytes)) :=
  fun device =>
    match Transport.receive device.transport with
    | (.ok (some (b :: bytes)), transport) =>
      { value := .ok (some (b :: bytes))
        state := { transport, trace := device.trace.record now .read .ok (b :: bytes) }
        events := [.frameRead (b :: bytes)] }
    | (.ok _, transport) => { value := .ok none, state := { device with transport } }
    | (.error error, transport) =>
      { value := .error error
        state := { transport, trace := device.trace.record now .read .failed [] }
        events := [.readFailed error] }

/-- Asks the adapter for its own address. -/
def readAddress (now : Time) : Action (Device τ) (Except TransportError MacAddress) :=
  fun device =>
    match Transport.readAddress device.transport with
    | (.ok mac, transport) =>
      { value := .ok mac
        state := { transport, trace := device.trace.record now .addressRead .ok mac.toBytes }
        events := [.addressRead mac] }
    | (.error error, transport) =>
      { value := .error error
        state := { transport, trace := device.trace.record now .addressRead .failed [] }
        events := [.addressReadFailed error] }

end Device
end LinkLayer
