import LinkLayer.Ethernet.Frame
import LinkLayer.Ipv4.Header

/-!
IPv4 packets taken out of Ethernet frames. A packet is accepted only if its lengths agree with each
other and with the frame; what lies behind its total length is padding and not part of it.
-/
namespace LinkLayer.Ipv4

/-- A frame and the three parts of the packet in it. -/
structure Packet where
  frame : Ethernet.Frame
  header : Header
  options : Bytes
  payload : Bytes
deriving DecidableEq, Repr

namespace Packet

/-- Header length in bytes, options included. -/
def headerLength (packet : Packet) : Nat := Ipv4.headerLength + packet.options.length

def totalLength (packet : Packet) : Nat := packet.headerLength + packet.payload.length

/-- Checks the length of the frame, the version, that the total length fits into the frame, and that
the header length covers the fixed header and stays within the total length. -/
def ofFrame (frame : Ethernet.Frame) : Except FormatError Packet := do
  if frame.length < Ethernet.minLength ∨ Ethernet.maxLength < frame.length then throw .frameLength
  let data ← frame.payload
  let header ← Header.ofBytes data
  if header.version ≠ version then throw .version
  if data.length < header.totalLength.toNat then throw .totalLength
  if header.length < Ipv4.headerLength ∨ header.totalLength.toNat < header.length then
    throw .headerLength
  .ok {
    frame
    header
    options := ← Bytes.read data Ipv4.headerLength (header.length - Ipv4.headerLength)
    payload := ← Bytes.read data header.length (header.totalLength.toNat - header.length) }

end Packet
end LinkLayer.Ipv4
