import LinkLayer.Arp.Packet
import LinkLayer.Error

/-! What an ARP packet for Ethernet and IPv4 says: who asks or answers, and about whom. -/
namespace LinkLayer.Arp

structure Message where
  operation : Operation
  senderMac : MacAddress
  senderIp : Ipv4.Address
  targetMac : MacAddress
  targetIp : Ipv4.Address
deriving DecidableEq, Repr

namespace Message

/-- Asks everybody on the network who has `targetIp`. -/
def whoHas (senderMac : MacAddress) (senderIp targetIp : Ipv4.Address) : Message :=
  ⟨.request, senderMac, senderIp, MacAddress.broadcast, targetIp⟩

/-- Tells one neighbour that `senderIp` is at `senderMac`. -/
def isAt (senderMac : MacAddress) (senderIp : Ipv4.Address) (targetMac : MacAddress)
    (targetIp : Ipv4.Address) : Message :=
  ⟨.reply, senderMac, senderIp, targetMac, targetIp⟩

/-- Reads the addresses of a packet for Ethernet and IPv4. The hardware address of the target
decides nothing, and no packet is refused for it. -/
def ofPacket (packet : Packet) (operation : Operation) : Except FormatError Message := do
  .ok {
    operation
    senderMac := ← packet.senderMac
    senderIp := ← packet.senderIp
    targetMac := packet.targetMac.toOption.getD {}
    targetIp := ← packet.targetIp }

/-- Reads a frame. The form of the packet is judged first, then its address spaces, then its
operation. -/
def ofFrame (frame : Ethernet.Frame) : Except DropReason Message :=
  match Packet.ofFrame frame with
  | .error error => .error (.malformed error)
  | .ok packet =>
    match packet.isEthernetIpv4, packet.operationCode with
    | .error error, _ | _, .error error => .error (.malformed error)
    | .ok false, _ => .error .arpHardware
    | .ok true, .ok code =>
      match Operation.ofCode? code with
      | none => .error (.arpOpcode code)
      | some operation => (ofPacket packet operation).mapError .malformed

/-- The frame that says it, from the sender's hardware address to the target's. -/
def toFrame (message : Message) : Ethernet.Frame where
  bytes := message.targetMac.toBytes ++ message.senderMac.toBytes ++
    Bytes.ofWord Ethernet.arpType ++ Bytes.ofWord ethernetHardware ++
    Bytes.ofWord Ethernet.ipv4Type ++ [6, 4] ++ Bytes.ofWord message.operation.code ++
    message.senderMac.toBytes ++ message.senderIp.toBytes ++
    message.targetMac.toBytes ++ message.targetIp.toBytes

@[simp] theorem length_toFrame (message : Message) : message.toFrame.length = 42 := rfl

@[simp] theorem mapError_ok {ε ε' α : Type} (f : ε → ε') (a : α) :
    (Except.ok a : Except ε α).mapError f = .ok a := rfl

/-- Reading takes back what was said, and padding does not disturb it. -/
theorem ofFrame_toFrame_append (message : Message) (padding : Bytes) :
    ofFrame (message.toFrame.extendPayload padding) = .ok message := by
  simp +arith [ofFrame, toFrame, ofPacket, Ethernet.Frame.extendPayload, Packet.ofFrame,
    Packet.isEthernetIpv4, Packet.operationCode, Packet.hardwareType, Packet.protocolType,
    Packet.hardwareLength, Packet.protocolLength,
    Packet.senderMac, Packet.senderIp, Packet.targetMac, Packet.targetIp, Packet.get,
    Ethernet.Frame.etherType, Ethernet.Frame.payload, Ethernet.Frame.length, Ethernet.headerLength,
    Bytes.readWord, Bytes.readByte, Bytes.read, Bytes.ofWord, MacAddress.toBytes,
    MacAddress.ofBytes, Ipv4.Address.toBytes, Ipv4.Address.ofBytes, Field.offset, Field.width,
    payloadLength, mapError_ok, bind, Except.bind, Except.toOption]

@[simp] theorem ofFrame_toFrame (message : Message) : ofFrame message.toFrame = .ok message := by
  simpa [Ethernet.Frame.extendPayload] using ofFrame_toFrame_append message []

end Message
end LinkLayer.Arp
