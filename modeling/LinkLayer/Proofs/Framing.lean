import LinkLayer.Proofs.Acceptance

/-!
Frames that are built one after another in the same two buffers. Main statement: each of them is the
frame that new buffers would give; a question or an answer reads back as what it says, and a
datagram stands behind its frame header with only zeros behind it (`builds_alone`).
-/
namespace LinkLayer

namespace Arp

/-- A frame that is accepted as ARP for Ethernet and IPv4, from the sender of the message to its
target, and with the fields of the message. -/
structure Message.ReadFrom (message : Message) (frame : Ethernet.Frame) : Prop where
  accepted : Packet.ofFrame frame = .ok ⟨frame⟩
  ethernetIpv4 : Packet.isEthernetIpv4 ⟨frame⟩ = .ok true
  operation : Packet.operationCode ⟨frame⟩ = .ok message.operation.code
  dest : frame.dest = .ok message.targetMac
  source : frame.source = .ok message.senderMac
  senderMac : Packet.senderMac ⟨frame⟩ = .ok message.senderMac
  senderIp : Packet.senderIp ⟨frame⟩ = .ok message.senderIp
  targetMac : Packet.targetMac ⟨frame⟩ = .ok message.targetMac
  targetIp : Packet.targetIp ⟨frame⟩ = .ok message.targetIp

/-- The bytes of a frame that says it, and still does after padding. -/
def Message.WrittenAs (message : Message) (bytes : Bytes) : Prop :=
  bytes.length = 42 ∧ message.ReadFrom ⟨bytes⟩ ∧ message.ReadFrom (Ethernet.Frame.pad ⟨bytes⟩)

namespace Message

variable {message : Message} {frame : Ethernet.Frame}

/-- The fields of a frame that says something are those of what it says. -/
theorem readFrom_of_ofFrame (h : ofFrame frame = .ok message)
    (hdest : frame.dest = .ok message.targetMac) (hsource : frame.source = .ok message.senderMac) :
    message.ReadFrom frame := by
  obtain ⟨ht, hw, hhardware, hprotocol, hcode, hm⟩ := ofFrame_eq_ok_iff_fields.mp h
  obtain ⟨⟨a, ha⟩, ⟨b, hb⟩, ⟨c, hc⟩, ⟨e, he⟩⟩ := hw.addresses
  obtain ⟨operation, senderMac, senderIp, targetMac, targetIp⟩ := message
  simp only [ofPacket, ha, hb, hc, he, bind, Except.bind, Except.ok.injEq, mk.injEq, true_and] at hm
  obtain ⟨rfl, rfl, rfl, rfl⟩ := hm
  exact ⟨Packet.ofFrame_eq_ok_iff.mpr ⟨rfl, ht, 6, 4, hw⟩,
    (Packet.isEthernetIpv4_eq_true_iff hw).mpr ⟨hhardware, hprotocol, rfl, rfl⟩, hcode, hdest,
    hsource, ha, hb, hc, he⟩

theorem dest_toFrame_append (message : Message) (padding : Bytes) :
    (message.toFrame.extendPayload padding).dest = .ok message.targetMac := by
  simp [Ethernet.Frame.dest, toFrame, Ethernet.Frame.extendPayload, Bytes.read,
    MacAddress.toBytes, MacAddress.ofBytes, bind, Except.bind]

theorem source_toFrame_append (message : Message) (padding : Bytes) :
    (message.toFrame.extendPayload padding).source = .ok message.senderMac := by
  simp [Ethernet.Frame.source, toFrame, Ethernet.Frame.extendPayload, Bytes.read,
    MacAddress.toBytes, MacAddress.ofBytes, bind, Except.bind]

/-- What stands behind a message does not disturb its reader. -/
theorem readFrom_toFrame_append (message : Message) (padding : Bytes) :
    message.ReadFrom (message.toFrame.extendPayload padding) :=
  readFrom_of_ofFrame (ofFrame_toFrame_append message padding) (dest_toFrame_append message padding)
    (source_toFrame_append message padding)

theorem readFrom_toFrame (message : Message) : message.ReadFrom message.toFrame := by
  simpa [Ethernet.Frame.extendPayload] using readFrom_toFrame_append message []

theorem writtenAs_toFrame (message : Message) : message.WrittenAs message.toFrame.bytes :=
  ⟨message.length_toFrame, message.readFrom_toFrame, message.readFrom_toFrame_append _⟩

end Message
end Arp

namespace Framer

/-- What a framer is asked to build. -/
inductive Build where
  | datagram (dest source : MacAddress) (d : Datagram)
  /-- Asks who has `targetIp`. -/
  | request (source : MacAddress) (sourceIp targetIp : Ipv4.Address)
  /-- Tells `dest` that `sourceIp` is at `source`. -/
  | reply (source : MacAddress) (sourceIp : Ipv4.Address) (dest : MacAddress)
      (destIp : Ipv4.Address)

def build (framer : Framer) : Build → Except FormatError (Bytes × Framer)
  | .datagram dest source d => framer.datagram dest source d
  | .request source sourceIp targetIp => framer.message (.whoHas source sourceIp targetIp)
  | .reply source sourceIp dest destIp => framer.message (.isAt source sourceIp dest destIp)

/-- Builds one frame after another, each in the place of what was built before. -/
def buildAll (framer : Framer) : List Build → Except FormatError (List Bytes × Framer)
  | [] => .ok ([], framer)
  | first :: rest => do
    let (frame, next) ← framer.build first
    let (frames, last) ← next.buildAll rest
    .ok (frame :: frames, last)

/-- What the bytes of a build have to be. -/
def Build.Gives : Build → Bytes → Prop
  | .datagram dest source d, bytes =>
    bytes = dest.toBytes ++ source.toBytes ++ [0x08, 0x00] ++ d.header.toBytes ++ d.options ++
      d.payload ++ List.replicate (60 - (34 + d.options.length + d.payload.length)) 0
  | .request source sourceIp targetIp, bytes =>
    Arp.Message.WrittenAs ⟨.request, source, sourceIp, .broadcast, targetIp⟩ bytes
  | .reply source sourceIp dest destIp, bytes =>
    Arp.Message.WrittenAs ⟨.reply, source, sourceIp, dest, destIp⟩ bytes

/-- The frame of a build, by its arguments alone. -/
def Build.frame : Build → Ethernet.Frame
  | .datagram dest source d => d.toFrame dest source
  | .request source sourceIp targetIp => (Arp.Message.whoHas source sourceIp targetIp).toFrame
  | .reply source sourceIp dest destIp => (Arp.Message.isAt source sourceIp dest destIp).toFrame

/-- One build gives the frame of its own arguments, whatever is in the buffers. -/
theorem build_eq (framer : Framer) (build : Build) :
    ∃ next, framer.build build = .ok (build.frame.bytes, next) := by
  cases build with
  | datagram dest source d => exact framer.datagram_eq dest source d
  | request source sourceIp targetIp => exact framer.message_eq _
  | reply source sourceIp dest destIp => exact framer.message_eq _

/-- So do many, one after the other: each starts from the buffers that the last one left. -/
theorem buildAll_eq (framer : Framer) (builds : List Build) :
    ∃ last, framer.buildAll builds = .ok (builds.map (·.frame.bytes), last) := by
  induction builds generalizing framer with
  | nil => exact ⟨framer, rfl⟩
  | cons first rest ih =>
    obtain ⟨next, hfirst⟩ := framer.build_eq first
    obtain ⟨last, hrest⟩ := ih next
    exact ⟨last, by simp only [buildAll, hfirst, hrest, bind, Except.bind, List.map_cons]⟩

theorem gives_frame (build : Build) : build.Gives build.frame.bytes := by
  cases build with
  | datagram dest source d =>
    have hl : Ethernet.Frame.length ⟨dest.toBytes ++ source.toBytes ++
        Bytes.ofWord Ethernet.ipv4Type ++ d.header.toBytes ++ d.options ++ d.payload⟩ =
          34 + d.options.length + d.payload.length := by
      simp only [Ethernet.Frame.length, List.length_append, MacAddress.length_toBytes,
        Bytes.length_ofWord, Ipv4.Header.length_toBytes, Ipv4.headerLength]
    change _ ++ List.replicate (60 - Ethernet.Frame.length _) 0 = _
    rw [hl]
    rfl
  | request source sourceIp targetIp => exact Arp.Message.writtenAs_toFrame _
  | reply source sourceIp dest destIp => exact Arp.Message.writtenAs_toFrame _

/-- Builds never fail. Each gives what it has to give, and what it would give in new buffers. -/
theorem builds_alone (framer : Framer) (builds : List Build) :
    ∃ frames last, framer.buildAll builds = .ok (frames, last) ∧
      List.Forall₂ (fun build bytes =>
        (∃ next, Framer.init.build build = .ok (bytes, next)) ∧ build.Gives bytes)
        builds frames := by
  obtain ⟨last, hall⟩ := framer.buildAll_eq builds
  refine ⟨_, last, hall, ?_⟩
  rw [List.forall₂_map_right_iff, List.forall₂_same]
  exact fun build _ => ⟨Framer.init.build_eq build, gives_frame build⟩

end Framer
end LinkLayer
