import LinkLayer.Ethernet.Frame
import LinkLayer.Ipv4.Address

/-!
ARP packets in their Ethernet frames. The packet itself says how long hardware and protocol
addresses are, and so where each address lies. For any two lengths the four addresses follow one
another without a gap behind the eight fixed bytes.
-/
namespace LinkLayer.Arp

inductive Operation where
  | request
  | reply
deriving DecidableEq, Repr

def Operation.code : Operation → UInt16
  | .request => 1
  | .reply => 2

def Operation.ofCode? (code : UInt16) : Option Operation :=
  if code = Operation.request.code then some .request
  else if code = Operation.reply.code then some .reply
  else none

@[simp] theorem Operation.ofCode?_code (operation : Operation) :
    ofCode? operation.code = some operation := by cases operation <;> decide

/-- The fields of a packet in their order on the wire. -/
inductive Field where
  | hardwareType
  | protocolType
  | hardwareLength
  | protocolLength
  | operation
  | senderHardware
  | senderProtocol
  | targetHardware
  | targetProtocol
deriving DecidableEq, Repr

namespace Field

/-- Where a field starts in the payload when hardware addresses have `h` and protocol addresses `p`
bytes. -/
def offset (h p : Nat) : Field → Nat
  | hardwareType => 0
  | protocolType => 2
  | hardwareLength => 4
  | protocolLength => 5
  | operation => 6
  | senderHardware => 8
  | senderProtocol => 8 + h
  | targetHardware => 8 + h + p
  | targetProtocol => 8 + 2 * h + p

/-- How many bytes a field has when hardware addresses have `h` and protocol addresses `p`. -/
def width (h p : Nat) : Field → Nat
  | hardwareType | protocolType | operation => 2
  | hardwareLength | protocolLength => 1
  | senderHardware | targetHardware => h
  | senderProtocol | targetProtocol => p

end Field

/-- Bytes of a payload whose hardware addresses have `h` and protocol addresses `p` bytes. -/
def payloadLength (h p : Nat) : Nat := 8 + 2 * h + 2 * p

theorem Field.offset_add_width_le (h p : Nat) (field : Field) :
    field.offset h p + field.width h p ≤ payloadLength h p := by
  cases field <;> simp [offset, width, payloadLength] <;> omega

/-- Hardware type of Ethernet. -/
def ethernetHardware : UInt16 := 1

structure Packet where
  frame : Ethernet.Frame
deriving DecidableEq, Repr

namespace Packet

variable {packet : Packet}

/-- A packet with zeroed types, operation and addresses of these lengths. -/
def blank (h p : UInt8) : Packet where
  frame := (⟨List.replicate 12 0 ++ Bytes.ofWord Ethernet.arpType⟩ : Ethernet.Frame).setPayload
    ([0, 0, 0, 0, h, p, 0, 0] ++ List.replicate (2 * h.toNat + 2 * p.toNat) 0)

/-- A packet for Ethernet and IPv4 whose operation and addresses are still zero. -/
def ethernetIpv4 : Packet where
  frame := (⟨List.replicate 12 0 ++ Bytes.ofWord Ethernet.arpType⟩ : Ethernet.Frame).setPayload
    (Bytes.ofWord ethernetHardware ++ Bytes.ofWord Ethernet.ipv4Type ++ [6, 4, 0, 0] ++
      List.replicate 20 0)

def hardwareLength (packet : Packet) : Except FormatError UInt8 :=
  Bytes.readByte packet.frame.bytes (Ethernet.headerLength + 4)

def protocolLength (packet : Packet) : Except FormatError UInt8 :=
  Bytes.readByte packet.frame.bytes (Ethernet.headerLength + 5)

/-- Accepts a frame of the ARP ether type whose payload holds the addresses it announces. Padding
may follow them. -/
def ofFrame (frame : Ethernet.Frame) : Except FormatError Packet := do
  if (← frame.etherType) ≠ Ethernet.arpType then throw .notArp
  let payload ← frame.payload
  if payload.length < 8 then throw .arpTooShort
  let packet : Packet := ⟨frame⟩
  let h ← packet.hardwareLength
  let p ← packet.protocolLength
  if payload.length < payloadLength h.toNat p.toNat then throw .arpTruncated
  .ok packet

/-- The bytes of a field, where the packet's own lengths put it. -/
def get (packet : Packet) (field : Field) : Except FormatError Bytes := do
  let h ← packet.hardwareLength
  let p ← packet.protocolLength
  Bytes.read packet.frame.bytes (Ethernet.headerLength + field.offset h.toNat p.toNat)
    (field.width h.toNat p.toNat)

/-- Replaces a field by as many bytes as it has. -/
def set (packet : Packet) (field : Field) (new : Bytes) : Except FormatError Packet := do
  let h ← packet.hardwareLength
  let p ← packet.protocolLength
  if new.length ≠ field.width h.toNat p.toNat then throw .outOfRange
  .ok ⟨← packet.frame.write (Ethernet.headerLength + field.offset h.toNat p.toNat) new⟩

def hardwareType (packet : Packet) : Except FormatError UInt16 :=
  Bytes.readWord packet.frame.bytes Ethernet.headerLength

def protocolType (packet : Packet) : Except FormatError UInt16 :=
  Bytes.readWord packet.frame.bytes (Ethernet.headerLength + 2)

def operationCode (packet : Packet) : Except FormatError UInt16 :=
  Bytes.readWord packet.frame.bytes (Ethernet.headerLength + 6)

/-- Both address spaces and both lengths are those of Ethernet and IPv4. -/
def isEthernetIpv4 (packet : Packet) : Except FormatError Bool := do
  .ok ((← packet.hardwareType) == ethernetHardware && (← packet.hardwareLength) == 6 &&
    (← packet.protocolType) == Ethernet.ipv4Type && (← packet.protocolLength) == 4)

def senderMac (packet : Packet) : Except FormatError MacAddress := do
  MacAddress.ofBytes (← packet.get .senderHardware)

def targetMac (packet : Packet) : Except FormatError MacAddress := do
  MacAddress.ofBytes (← packet.get .targetHardware)

def senderIp (packet : Packet) : Except FormatError Ipv4.Address := do
  Ipv4.Address.ofBytes (← packet.get .senderProtocol)

def targetIp (packet : Packet) : Except FormatError Ipv4.Address := do
  Ipv4.Address.ofBytes (← packet.get .targetProtocol)

def setOperation (packet : Packet) (operation : Operation) : Except FormatError Packet :=
  packet.set .operation (Bytes.ofWord operation.code)

def setDest (packet : Packet) (mac : MacAddress) : Except FormatError Packet := do
  .ok ⟨← packet.frame.setDest mac⟩

def setSource (packet : Packet) (mac : MacAddress) : Except FormatError Packet := do
  .ok ⟨← packet.frame.setSource mac⟩

end Packet
end LinkLayer.Arp
