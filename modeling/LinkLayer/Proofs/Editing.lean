import LinkLayer.Proofs.Acceptance

/-!
Reading and setting the fields of an ARP packet in its frame. Main statement: in a packet that is
accepted the four addresses stand one behind the other, whatever lengths it states; and in one for
Ethernet and IPv4 every field reads as it was set last, however many are set, while all else in the
frame stays as it is (`edits_exact`).
-/
namespace LinkLayer

theorem MacAddress.ofBytes_ne_outOfRange (bytes : Bytes) : ofBytes bytes ≠ .error .outOfRange := by
  unfold ofBytes
  split <;> simp

theorem Ipv4.Address.ofBytes_ne_outOfRange (bytes : Bytes) :
    ofBytes bytes ≠ .error .outOfRange := by
  unfold ofBytes
  split <;> simp

namespace Arp

/-- What can be set in a packet for Ethernet and IPv4 and its frame. -/
structure Fields where
  dest : MacAddress
  source : MacAddress
  hardwareType : UInt16
  protocolType : UInt16
  operation : UInt16
  senderMac : MacAddress
  senderIp : Ipv4.Address
  targetMac : MacAddress
  targetIp : Ipv4.Address
deriving DecidableEq, Repr

/-- A field with the value that is set. -/
inductive Edit where
  | dest (mac : MacAddress)
  | source (mac : MacAddress)
  | hardwareType (type : UInt16)
  | protocolType (type : UInt16)
  | operation (operation : Operation)
  | senderMac (mac : MacAddress)
  | senderIp (ip : Ipv4.Address)
  | targetMac (mac : MacAddress)
  | targetIp (ip : Ipv4.Address)
deriving DecidableEq, Repr

namespace Fields

/-- One field has the new value and the others keep theirs. -/
def update (fields : Fields) : Edit → Fields
  | .dest mac => { fields with dest := mac }
  | .source mac => { fields with source := mac }
  | .hardwareType type => { fields with hardwareType := type }
  | .protocolType type => { fields with protocolType := type }
  | .operation operation => { fields with operation := operation.code }
  | .senderMac mac => { fields with senderMac := mac }
  | .senderIp ip => { fields with senderIp := ip }
  | .targetMac mac => { fields with targetMac := mac }
  | .targetIp ip => { fields with targetIp := ip }

/-- The frame with these fields, and what follows them. -/
def toPacket (fields : Fields) (rest : Bytes) : Packet where
  frame := ⟨fields.dest.toBytes ++ fields.source.toBytes ++ Bytes.ofWord Ethernet.arpType ++
    Bytes.ofWord fields.hardwareType ++ Bytes.ofWord fields.protocolType ++ [6, 4] ++
    Bytes.ofWord fields.operation ++ fields.senderMac.toBytes ++ fields.senderIp.toBytes ++
    fields.targetMac.toBytes ++ fields.targetIp.toBytes ++ rest⟩

end Fields

namespace Packet

/-- Sets one field. -/
def edit (packet : Packet) : Edit → Except FormatError Packet
  | .dest mac => packet.setDest mac
  | .source mac => packet.setSource mac
  | .hardwareType type => packet.set .hardwareType (Bytes.ofWord type)
  | .protocolType type => packet.set .protocolType (Bytes.ofWord type)
  | .operation operation => packet.setOperation operation
  | .senderMac mac => packet.set .senderHardware mac.toBytes
  | .senderIp ip => packet.set .senderProtocol ip.toBytes
  | .targetMac mac => packet.set .targetHardware mac.toBytes
  | .targetIp ip => packet.set .targetProtocol ip.toBytes

/-- Sets one field after the other. -/
def editAll (packet : Packet) : List Edit → Except FormatError Packet
  | [] => .ok packet
  | first :: rest => do (← packet.edit first).editAll rest

/-- No access to a field goes past the end of the frame. An address may still have the wrong number
of bytes for what it is read as. -/
structure Readable (packet : Packet) : Prop where
  hardwareType : ∃ type, packet.hardwareType = .ok type
  protocolType : ∃ type, packet.protocolType = .ok type
  hardwareLength : ∃ h, packet.hardwareLength = .ok h
  protocolLength : ∃ p, packet.protocolLength = .ok p
  operation : ∃ code, packet.operationCode = .ok code
  ethernetIpv4 : ∃ b, packet.isEthernetIpv4 = .ok b
  fields : ∀ field, ∃ bytes, packet.get field = .ok bytes
  senderMac : packet.senderMac ≠ .error .outOfRange
  senderIp : packet.senderIp ≠ .error .outOfRange
  targetMac : packet.targetMac ≠ .error .outOfRange
  targetIp : packet.targetIp ≠ .error .outOfRange

/-- A packet for addresses of six and of four bytes in an ARP frame, with these fields. -/
structure Reads (packet : Packet) (fields : Fields) : Prop where
  dest : packet.frame.dest = .ok fields.dest
  source : packet.frame.source = .ok fields.source
  etherType : packet.frame.etherType = .ok Ethernet.arpType
  hardwareType : packet.hardwareType = .ok fields.hardwareType
  protocolType : packet.protocolType = .ok fields.protocolType
  hardwareLength : packet.hardwareLength = .ok 6
  protocolLength : packet.protocolLength = .ok 4
  operation : packet.operationCode = .ok fields.operation
  senderMac : packet.senderMac = .ok fields.senderMac
  senderIp : packet.senderIp = .ok fields.senderIp
  targetMac : packet.targetMac = .ok fields.targetMac
  targetIp : packet.targetIp = .ok fields.targetIp

variable {packet : Packet} {fields : Fields} {rest : Bytes} {h p : UInt8}

theorem reads_toPacket (fields : Fields) (rest : Bytes) : (fields.toPacket rest).Reads fields := by
  constructor <;>
  simp +arith [Fields.toPacket, Ethernet.Frame.dest, Ethernet.Frame.source,
    Ethernet.Frame.etherType, hardwareType, protocolType, hardwareLength, protocolLength,
    operationCode, senderMac, senderIp, targetMac, targetIp, get, Ethernet.headerLength,
    Bytes.readWord, Bytes.readByte, Bytes.read, Bytes.ofWord, MacAddress.toBytes,
    MacAddress.ofBytes, Ipv4.Address.toBytes, Ipv4.Address.ofBytes, Field.offset, Field.width,
    bind, Except.bind]

theorem length_toPacket (fields : Fields) (rest : Bytes) :
    (fields.toPacket rest).frame.length = 42 + rest.length := by
  simp [Fields.toPacket, Ethernet.Frame.length]
  omega

theorem drop_toPacket (fields : Fields) (rest : Bytes) :
    (fields.toPacket rest).frame.bytes.drop 42 = rest := rfl

theorem pad_toPacket (fields : Fields) (rest : Bytes) :
    ∃ more, (fields.toPacket rest).frame.pad = (fields.toPacket more).frame :=
  ⟨_, congrArg Ethernet.Frame.mk (List.append_assoc ..)⟩

theorem whole_toPacket (fields : Fields) (rest : Bytes) : (fields.toPacket rest).Whole 6 4 where
  hardware := (reads_toPacket fields rest).hardwareLength
  protocol := (reads_toPacket fields rest).protocolLength
  length_le := by
    rw [length_toPacket]
    exact Nat.le_add_right 42 rest.length

theorem ofFrame_toPacket (fields : Fields) (rest : Bytes) :
    ofFrame (fields.toPacket rest).frame = .ok (fields.toPacket rest) :=
  ofFrame_eq_ok_iff.mpr
    ⟨rfl, (reads_toPacket fields rest).etherType, 6, 4, whole_toPacket fields rest⟩

/-- Every field has a place of its own, so that setting it replaces one part and leaves the others
and both lengths. -/
theorem edit_toPacket (fields : Fields) (rest : Bytes) (edit : Edit) :
    (fields.toPacket rest).edit edit = .ok ((fields.update edit).toPacket rest) := by
  have hh := (reads_toPacket fields rest).hardwareLength
  have hp := (reads_toPacket fields rest).protocolLength
  cases edit <;>
  simp only [Packet.edit, setDest, setSource, setOperation, set, hh, hp, bind, Except.bind] <;>
  simp [Field.offset, Field.width, Ethernet.Frame.setDest, Ethernet.Frame.setSource,
    Ethernet.Frame.write, Ethernet.headerLength, Bytes.write, Bytes.ofWord, MacAddress.toBytes,
    Ipv4.Address.toBytes, Fields.update, Fields.toPacket, bind, Except.bind]

theorem editAll_toPacket (fields : Fields) (rest : Bytes) (edits : List Edit) :
    (fields.toPacket rest).editAll edits =
      .ok ((edits.foldl Fields.update fields).toPacket rest) := by
  induction edits generalizing fields with
  | nil => rfl
  | cons first edits ih =>
    simp only [editAll, edit_toPacket, bind, Except.bind, List.foldl_cons]
    exact ih (fields.update first)

/-- An ARP frame with room for addresses of six and of four bytes is one with such fields. -/
theorem exists_toPacket {bytes : Bytes}
    (ht : Ethernet.Frame.etherType ⟨bytes⟩ = .ok Ethernet.arpType) (hw : Whole ⟨⟨bytes⟩⟩ 6 4) :
    ∃ fields : Fields, ⟨⟨bytes⟩⟩ = fields.toPacket (bytes.drop 42) := by
  have hl : 42 ≤ bytes.length := hw.length_le
  have hmac (start : Nat) (hs : start + 6 ≤ 42) :
      ∃ mac : MacAddress, (bytes.drop start).take 6 = mac.toBytes := by
    obtain ⟨mac, hm⟩ : ∃ mac, MacAddress.ofBytes ((bytes.drop start).take 6) = .ok mac :=
      MacAddress.ofBytes_ok_iff.mpr (by simp; omega)
    exact ⟨mac, MacAddress.ofBytes_eq_ok_iff.mp hm⟩
  have hip (start : Nat) (hs : start + 4 ≤ 42) :
      ∃ ip : Ipv4.Address, (bytes.drop start).take 4 = ip.toBytes := by
    obtain ⟨ip, hi⟩ : ∃ ip, Ipv4.Address.ofBytes ((bytes.drop start).take 4) = .ok ip :=
      Ipv4.Address.ofBytes_ok_iff.mpr (by simp; omega)
    exact ⟨ip, Ipv4.Address.ofBytes_eq_ok_iff.mp hi⟩
  have hword (start : Nat) (hs : start + 2 ≤ 42) :
      ∃ w, (bytes.drop start).take 2 = Bytes.ofWord w := by
    obtain ⟨w, hw⟩ : ∃ w, Bytes.readWord bytes start = .ok w := Bytes.readWord_ok (by omega)
    exact ⟨w, Bytes.readWord_eq_ok_iff.mp hw⟩
  have htype : (bytes.drop 12).take 2 = Bytes.ofWord Ethernet.arpType :=
    Bytes.readWord_eq_ok_iff.mp ht
  have hlengths : (bytes.drop 18).take 2 = [6, 4] :=
    Bytes.take_two_eq_iff.mpr ⟨Bytes.readByte_eq_ok_iff.mp hw.hardware,
      Bytes.readByte_eq_ok_iff.mp hw.protocol⟩
  obtain ⟨dest, hdest⟩ := hmac 0 (by omega)
  obtain ⟨source, hsource⟩ := hmac 6 (by omega)
  obtain ⟨hardwareType, hhardware⟩ := hword 14 (by omega)
  obtain ⟨protocolType, hprotocol⟩ := hword 16 (by omega)
  obtain ⟨operation, hoperation⟩ := hword 20 (by omega)
  obtain ⟨senderMac, hsenderMac⟩ := hmac 22 (by omega)
  obtain ⟨senderIp, hsenderIp⟩ := hip 28 (by omega)
  obtain ⟨targetMac, htargetMac⟩ := hmac 32 (by omega)
  obtain ⟨targetIp, htargetIp⟩ := hip 38 (by omega)
  refine ⟨⟨dest, source, hardwareType, protocolType, operation, senderMac, senderIp, targetMac,
    targetIp⟩, ?_⟩
  have hcut (start len : Nat) : bytes.drop start =
      (bytes.drop start).take len ++ bytes.drop (start + len) := by
    rw [← List.drop_drop, List.take_append_drop]
  have hall : bytes = bytes.drop 0 := rfl
  rw [hcut 0 6, hdest, hcut 6 6, hsource, hcut 12 2, htype, hcut 14 2, hhardware, hcut 16 2,
    hprotocol, hcut 18 2, hlengths, hcut 20 2, hoperation, hcut 22 6, hsenderMac, hcut 28 4,
    hsenderIp, hcut 32 6, htargetMac, hcut 38 4, htargetIp] at hall
  simp only [← List.append_assoc] at hall
  exact congrArg (fun bytes => Packet.mk ⟨bytes⟩) hall

theorem Whole.readable (hw : packet.Whole h p) : packet.Readable where
  hardwareType := hw.word 0 (by omega)
  protocolType := hw.word 2 (by omega)
  hardwareLength := ⟨h, hw.hardware⟩
  protocolLength := ⟨p, hw.protocol⟩
  operation := hw.word 6 (by omega)
  ethernetIpv4 := by
    obtain ⟨b, hb, -⟩ := hw.isEthernetIpv4
    exact ⟨b, hb⟩
  fields := fun field => ⟨_, hw.get_eq field⟩
  senderMac := by
    rw [senderMac, hw.get_eq]
    exact MacAddress.ofBytes_ne_outOfRange _
  senderIp := by
    rw [senderIp, hw.get_eq]
    exact Ipv4.Address.ofBytes_ne_outOfRange _
  targetMac := by
    rw [targetMac, hw.get_eq]
    exact MacAddress.ofBytes_ne_outOfRange _
  targetIp := by
    rw [targetIp, hw.get_eq]
    exact Ipv4.Address.ofBytes_ne_outOfRange _

/-- The four addresses stand one behind the other. -/
theorem Whole.addresses_append (hw : packet.Whole h p) : ∃ senderHardware senderProtocol
    targetHardware targetProtocol, packet.get .senderHardware = .ok senderHardware ∧
      packet.get .senderProtocol = .ok senderProtocol ∧
      packet.get .targetHardware = .ok targetHardware ∧
      packet.get .targetProtocol = .ok targetProtocol ∧
      senderHardware ++ senderProtocol ++ targetHardware ++ targetProtocol =
        (packet.frame.bytes.drop 22).take (2 * h.toNat + 2 * p.toNat) := by
  refine ⟨_, _, _, _, hw.get_eq _, hw.get_eq _, hw.get_eq _, hw.get_eq _, ?_⟩
  generalize packet.frame.bytes = bytes
  generalize h.toNat = h
  generalize p.toNat = p
  have hjoin (start len more : Nat) : (bytes.drop start).take len ++
      (bytes.drop (start + len)).take more = (bytes.drop start).take (len + more) := by
    rw [List.take_add, List.drop_drop]
  simp only [Field.offset, Field.width, Ethernet.headerLength]
  rw [show 14 + (8 + h) = 22 + h by omega, show 14 + (8 + h + p) = 22 + (h + p) by omega,
    show 14 + (8 + 2 * h + p) = 22 + (h + p + h) by omega,
    show 2 * h + 2 * p = h + p + h + p by omega, hjoin, hjoin, hjoin]

/-- No field of a packet that is accepted goes past the end of its frame, and the four addresses
stand one behind the other, whatever lengths it states for them. If it is for addresses of six and
of four bytes, its fields can be set any number of times and in any order. None of that goes past
the end either; each field reads as it was set last, or as it was if it was not set at all; the
length of the frame and what follows the packet stay as they are; and padded or not the frame is
accepted again with the same fields. -/
theorem edits_exact {bytes : Bytes} {frame : Ethernet.Frame}
    (hb : Ethernet.Frame.ofBytes bytes = .ok frame) (ha : ofFrame frame = .ok packet) :
    (∃ (h p : UInt8) (payload : Bytes), packet.hardwareLength = .ok h ∧
      packet.protocolLength = .ok p ∧ frame.payload = .ok payload ∧
      8 + 2 * h.toNat + 2 * p.toNat ≤ payload.length ∧ packet.Readable ∧
      ∃ senderHardware senderProtocol targetHardware targetProtocol,
        packet.get .senderHardware = .ok senderHardware ∧
        packet.get .senderProtocol = .ok senderProtocol ∧
        packet.get .targetHardware = .ok targetHardware ∧
        packet.get .targetProtocol = .ok targetProtocol ∧
        senderHardware ++ senderProtocol ++ targetHardware ++ targetProtocol =
          (payload.drop 8).take (2 * h.toNat + 2 * p.toNat)) ∧
    (packet.hardwareLength = .ok 6 → packet.protocolLength = .ok 4 →
      ∃ fields, packet.Reads fields ∧ ∀ edits, ∃ result,
        packet.editAll edits = .ok result ∧
        result.Reads (edits.foldl Fields.update fields) ∧
        result.frame.length = bytes.length ∧
        result.frame.bytes.drop 42 = bytes.drop 42 ∧
        ofFrame result.frame = .ok result ∧
        ∃ padded, ofFrame result.frame.pad = .ok padded ∧
          padded.Reads (edits.foldl Fields.update fields)) := by
  obtain ⟨hlength, rfl⟩ := Ethernet.Frame.ofBytes_ok_iff.mp hb
  obtain ⟨rfl, htype, h, p, hw⟩ := ofFrame_eq_ok_iff.mp ha
  constructor
  · have hle := hw.length_le
    have hpayload : frame.payload = .ok (frame.bytes.drop 14) := if_neg (Nat.not_lt.mpr hlength)
    refine ⟨h, p, _, hw.hardware, hw.protocol, hpayload, ?_, hw.readable, ?_⟩
    · simp only [Ethernet.headerLength, payloadLength, Ethernet.Frame.length] at hle
      rw [List.length_drop]
      omega
    · rw [List.drop_drop]
      exact hw.addresses_append
  · intro hh hp
    obtain rfl : 6 = h := Except.ok.inj (hh.symm.trans hw.hardware)
    obtain rfl : 4 = p := Except.ok.inj (hp.symm.trans hw.protocol)
    obtain ⟨fields, hfields⟩ := exists_toPacket htype hw
    rw [hfields]
    refine ⟨fields, reads_toPacket fields _, ?_⟩
    intro edits
    have hsame := congrArg (fun packet => packet.frame.length) hfields
    obtain ⟨more, hpad⟩ := pad_toPacket (edits.foldl Fields.update fields) (frame.bytes.drop 42)
    refine ⟨_, editAll_toPacket fields _ edits, reads_toPacket _ _, ?_, drop_toPacket _ _,
      ofFrame_toPacket _ _, _, ?_, reads_toPacket _ more⟩
    · rw [length_toPacket, ← length_toPacket fields]
      exact hsame.symm
    · rw [hpad]
      exact ofFrame_toPacket _ more

/-- A question of 43 bytes becomes an answer and a question again, from another sender. -/
theorem edits_exact_again :
    let asks := Message.whoHas ⟨2, 0, 0, 0, 0, 1⟩ ⟨192, 168, 1, 1⟩ ⟨192, 168, 1, 2⟩
    let frame := asks.toFrame.extendPayload [7]
    let packet : Packet := ⟨frame⟩
    let edits := [Edit.operation .reply, .senderMac ⟨2, 0, 0, 0, 0, 3⟩, .operation .request]
    Ethernet.Frame.ofBytes frame.bytes = .ok frame ∧ ofFrame frame = .ok packet ∧
      packet.hardwareLength = .ok 6 ∧ packet.protocolLength = .ok 4 ∧
      ∃ result, packet.editAll edits = .ok result ∧ result.operationCode = .ok 1 ∧
        result.senderMac = .ok ⟨2, 0, 0, 0, 0, 3⟩ ∧ result.senderIp = packet.senderIp ∧
        result.frame.length = 43 ∧ result.frame.bytes.drop 42 = [7] := by
  intro asks frame packet edits
  have hb : Ethernet.Frame.ofBytes frame.bytes = .ok frame := by decide
  have ha : ofFrame frame = .ok packet := by decide +kernel
  have hh : packet.hardwareLength = .ok 6 := by decide +kernel
  have hp : packet.protocolLength = .ok 4 := by decide +kernel
  obtain ⟨-, hedits⟩ := edits_exact hb ha
  obtain ⟨fields, hreads, hall⟩ := hedits hh hp
  obtain ⟨result, hresult, hlast, hlength, hrest, -⟩ := hall edits
  exact ⟨hb, ha, hh, hp, result, hresult, hlast.operation, hlast.senderMac,
    hlast.senderIp.trans hreads.senderIp.symm, hlength.trans (by decide +kernel),
    hrest.trans (by decide +kernel)⟩

end Packet
end Arp
end LinkLayer
