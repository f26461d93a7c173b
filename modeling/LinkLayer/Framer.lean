import LinkLayer.Arp.Message
import LinkLayer.Datagram

/-!
The two frames that an interface fills in again and again, one for datagrams and one for ARP. Each
build overwrites what the last one left. Main statement: a build gives the frame of its own
arguments whatever was built before (`datagram_eq`, `message_eq`).
-/
namespace LinkLayer

/-- Fills in a frame whose ether type is already in place. -/
def Datagram.fill (d : Datagram) (dest source : MacAddress) (frame : Ethernet.Frame) :
    Except FormatError Ethernet.Frame := do
  let frame ← frame.setDest dest
  let frame ← frame.setSource source
  let frame := frame.setPayload d.header.toBytes
  .ok ((frame.extendPayload d.options).extendPayload d.payload).pad

/-- Fills in a packet whose types and lengths are already in place. -/
def Arp.Message.fill (message : Message) (packet : Packet) : Except FormatError Packet := do
  let packet ← packet.setDest message.targetMac
  let packet ← packet.setSource message.senderMac
  let packet ← packet.setOperation message.operation
  let packet ← packet.set .senderHardware message.senderMac.toBytes
  let packet ← packet.set .senderProtocol message.senderIp.toBytes
  let packet ← packet.set .targetHardware message.targetMac.toBytes
  packet.set .targetProtocol message.targetIp.toBytes

/-- The frame for datagrams has its ether type. The packet has its types and lengths, and just room
for the addresses. -/
structure Framer where
  ip : Ethernet.Frame
  arp : Arp.Packet
  ip_fixed : Bytes.read ip.bytes 12 2 = .ok [8, 0]
  arp_fixed : Bytes.read arp.frame.bytes 12 8 = .ok [8, 6, 0, 1, 8, 0, 6, 4]
  arp_length : arp.frame.length = 42

theorem ofWord_ipv4Type : Bytes.ofWord Ethernet.ipv4Type = [8, 0] := rfl

theorem ofWord_arpType : Bytes.ofWord Ethernet.arpType = [8, 6] := rfl

theorem ofWord_ethernetHardware : Bytes.ofWord Arp.ethernetHardware = [0, 1] := rfl

theorem Datagram.fill_eq {frame : Ethernet.Frame} (d : Datagram) (dest source : MacAddress)
    (h : Bytes.read frame.bytes 12 2 = .ok [8, 0]) :
    d.fill dest source frame = .ok (d.toFrame dest source) := by
  obtain ⟨before, after, hb, hl, -⟩ := Bytes.read_eq_ok_iff.mp h
  obtain ⟨bytes⟩ := frame
  simp only at hb
  subst hb
  iterate 12
    rcases before with _ | ⟨_, before⟩
    · simp at hl
  obtain rfl : before = [] := by simpa using hl
  simp [fill, toFrame, Ethernet.Frame.setDest, Ethernet.Frame.setSource,
    Ethernet.Frame.setPayload, Ethernet.Frame.extendPayload, Ethernet.Frame.truncate,
    Ethernet.Frame.write, Bytes.write, MacAddress.toBytes, Ethernet.headerLength,
    ofWord_ipv4Type, bind, Except.bind]

theorem Arp.Message.fill_eq {packet : Packet} (message : Message)
    (h : Bytes.read packet.frame.bytes 12 8 = .ok [8, 6, 0, 1, 8, 0, 6, 4])
    (hl : packet.frame.length = 42) : message.fill packet = .ok ⟨message.toFrame⟩ := by
  obtain ⟨before, after, hb, hlb, -⟩ := Bytes.read_eq_ok_iff.mp h
  obtain ⟨⟨bytes⟩⟩ := packet
  simp only at hb
  subst hb
  have hla : after.length = 22 := by
    simp [Ethernet.Frame.length] at hl
    omega
  clear h hl
  iterate 12
    rcases before with _ | ⟨_, before⟩
    · simp at hlb
  obtain rfl : before = [] := by simpa using hlb
  iterate 22
    rcases after with _ | ⟨_, after⟩
    · simp at hla
  obtain rfl : after = [] := by simpa using hla
  obtain ⟨hi, lo, hw⟩ : ∃ hi lo, Bytes.ofWord message.operation.code = [hi, lo] := ⟨_, _, rfl⟩
  simp [fill, toFrame, hw, Packet.setDest, Packet.setSource, Packet.setOperation, Packet.set,
    Packet.hardwareLength, Packet.protocolLength, Field.offset, Field.width,
    Ethernet.Frame.setDest, Ethernet.Frame.setSource, Ethernet.Frame.write, Ethernet.headerLength,
    Bytes.write, Bytes.readByte, MacAddress.toBytes, Ipv4.Address.toBytes,
    ofWord_ipv4Type, ofWord_arpType, ofWord_ethernetHardware, bind, Except.bind]

namespace Framer

def init : Framer where
  ip := ⟨List.replicate 12 0 ++ Bytes.ofWord Ethernet.ipv4Type⟩
  arp := .ethernetIpv4
  ip_fixed := rfl
  arp_fixed := rfl
  arp_length := rfl

/-- Builds the frame that carries a datagram, in the place of the last one. -/
def datagram (framer : Framer) (dest source : MacAddress) (d : Datagram) :
    Except FormatError (Bytes × Framer) :=
  match h : d.fill dest source framer.ip with
  | .error error => .error error
  | .ok frame => .ok (frame.bytes, { framer with
      ip := frame
      ip_fixed := by
        obtain rfl : d.toFrame dest source = frame := by
          rw [d.fill_eq dest source framer.ip_fixed] at h
          exact Except.ok.inj h
        simp [Datagram.toFrame, Ethernet.Frame.pad, Ethernet.Frame.extendPayload, Bytes.read,
          ofWord_ipv4Type, MacAddress.toBytes] })

/-- Builds the frame that carries an ARP message, in the place of the last one. -/
def message (framer : Framer) (message : Arp.Message) : Except FormatError (Bytes × Framer) :=
  match h : message.fill framer.arp with
  | .error error => .error error
  | .ok packet => .ok (packet.frame.bytes, { framer with
      arp := packet
      arp_fixed := by
        obtain rfl : ⟨message.toFrame⟩ = packet := by
          rw [message.fill_eq framer.arp_fixed framer.arp_length] at h
          exact Except.ok.inj h
        rfl
      arp_length := by
        obtain rfl : ⟨message.toFrame⟩ = packet := by
          rw [message.fill_eq framer.arp_fixed framer.arp_length] at h
          exact Except.ok.inj h
        rfl })

theorem datagram_eq (framer : Framer) (dest source : MacAddress) (d : Datagram) :
    ∃ next, framer.datagram dest source d = .ok ((d.toFrame dest source).bytes, next) := by
  unfold datagram
  split <;> rename_i h <;> rw [d.fill_eq dest source framer.ip_fixed] at h <;> cases h
  exact ⟨_, rfl⟩

theorem message_eq (framer : Framer) (message : Arp.Message) :
    ∃ next, framer.message message = .ok (message.toFrame.bytes, next) := by
  unfold Framer.message
  split <;> rename_i h <;> rw [message.fill_eq framer.arp_fixed framer.arp_length] at h <;> cases h
  exact ⟨_, rfl⟩

end Framer
end LinkLayer
