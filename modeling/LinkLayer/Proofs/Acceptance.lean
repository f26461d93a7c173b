import LinkLayer.Proofs.Bounds

/-!
Which frames are ARP messages. Main statement: a frame is one just if its bytes are those of a
packet for Ethernet and IPv4 with a known operation, and then it says what stands at the places of
the fields (`Arp.Message.ofFrame_eq_ok_iff`).
-/
namespace LinkLayer

namespace Bytes

variable {bytes : Bytes} {start : Nat}

theorem readWord_eq_ok_iff {w : UInt16} :
    readWord bytes start = .ok w ↔ (bytes.drop start).take 2 = ofWord w := by
  rw [readWord]
  rcases bytes.drop start with _ | ⟨hi, _ | ⟨lo, rest⟩⟩
  · simp [ofWord]
  · simp [ofWord]
  · constructor
    · rintro ⟨⟩
      exact (ofWord_word hi lo).symm
    · intro h
      have hw : [hi, lo] = ofWord w := h
      rw [ofWord, List.cons.injEq, List.cons.injEq] at hw
      obtain ⟨rfl, rfl, -⟩ := hw
      exact congrArg Except.ok (word_ofWord w)

theorem readByte_eq_ok_iff {b : UInt8} :
    readByte bytes start = .ok b ↔ (bytes.drop start).take 1 = [b] := by
  rw [readByte]
  cases bytes.drop start with
  | nil => simp
  | cons first rest => simp

/-- Two bytes in a row. -/
theorem take_two_eq_iff {a b : UInt8} :
    (bytes.drop start).take 2 = [a, b] ↔
      (bytes.drop start).take 1 = [a] ∧ (bytes.drop (start + 1)).take 1 = [b] := by
  rw [← List.drop_drop]
  rcases bytes.drop start with _ | ⟨first, _ | ⟨second, rest⟩⟩ <;> simp

end Bytes

theorem MacAddress.ofBytes_eq_ok_iff {bytes : Bytes} {mac : MacAddress} :
    ofBytes bytes = .ok mac ↔ bytes = mac.toBytes :=
  ⟨fun h => (toBytes_of_ofBytes h).symm, fun h => h ▸ ofBytes_toBytes mac⟩

theorem Ipv4.Address.ofBytes_eq_ok_iff {bytes : Bytes} {ip : Address} :
    ofBytes bytes = .ok ip ↔ bytes = ip.toBytes :=
  ⟨fun h => (toBytes_of_ofBytes h).symm, fun h => h ▸ ofBytes_toBytes ip⟩

namespace Arp

theorem Operation.ofCode?_eq_some_iff {code : UInt16} {operation : Operation} :
    ofCode? code = some operation ↔ code = operation.code := by
  constructor
  · intro h
    unfold ofCode? at h
    split at h
    · cases h
      assumption
    · split at h
      · cases h
        assumption
      · cases h
  · rintro rfl
    exact ofCode?_code operation

theorem Operation.ofWord_code (operation : Operation) :
    Bytes.ofWord operation.code = match operation with
      | .request => [0, 1]
      | .reply => [0, 2] := by cases operation <;> rfl

/-- The bytes of a frame that is accepted. The payload starts behind fourteen bytes; its fifth and
sixth byte say how long hardware and protocol addresses are. -/
structure Acceptable (bytes : Bytes) : Prop where
  etherType : (bytes.drop 12).take 2 = [0x08, 0x06]
  room : ∃ h p : UInt8, (bytes.drop 18).take 2 = [h, p] ∧
    8 + 2 * h.toNat + 2 * p.toNat ≤ (bytes.drop 14).length
  hardwareType : (bytes.drop 14).take 2 = [0, 1]
  protocolType : (bytes.drop 16).take 2 = [0x08, 0x00]
  lengths : (bytes.drop 18).take 2 = [6, 4]
  operation : (bytes.drop 20).take 2 = [0, 1] ∨ (bytes.drop 20).take 2 = [0, 2]

/-- The bytes of a frame that says this. -/
structure Message.SaidBy (message : Message) (bytes : Bytes) : Prop where
  operation : (bytes.drop 20).take 2 = match message.operation with
    | .request => [0, 1]
    | .reply => [0, 2]
  senderMac : (bytes.drop 22).take 6 = message.senderMac.toBytes
  senderIp : (bytes.drop 28).take 4 = message.senderIp.toBytes
  targetMac : (bytes.drop 32).take 6 = message.targetMac.toBytes
  targetIp : (bytes.drop 38).take 4 = message.targetIp.toBytes

namespace Packet

variable {frame : Ethernet.Frame} {packet : Packet} {h p : UInt8}

theorem ofFrame_eq_ok_iff :
    ofFrame frame = .ok packet ↔
      packet = ⟨frame⟩ ∧ frame.etherType = .ok Ethernet.arpType ∧ ∃ h p, packet.Whole h p := by
  constructor
  · intro hf
    have hw := whole_of_ofFrame hf
    cases ht : frame.etherType with
    | error error => simp [ofFrame, ht, bind, Except.bind] at hf
    | ok etherType =>
      by_cases ha : etherType = Ethernet.arpType
      · refine ⟨?_, congrArg Except.ok ha, hw⟩
        simp only [ofFrame, bind, Except.bind, throw, throwThe, MonadExceptOf.throw] at hf
        repeat' split at hf
        all_goals cases hf
        rfl
      · simp [ofFrame, ht, ha, bind, Except.bind, throw, throwThe, MonadExceptOf.throw] at hf
  · rintro ⟨rfl, ht, h, p, hw⟩
    have hle : Ethernet.headerLength + payloadLength h.toNat p.toNat ≤ frame.length := hw.length_le
    have hpayload : frame.payload = .ok (frame.bytes.drop Ethernet.headerLength) :=
      if_neg (by omega)
    simp only [payloadLength, Ethernet.Frame.length] at hle
    simp only [ofFrame, ht, hpayload, hw.hardware, hw.protocol, payloadLength, bind, Except.bind,
      List.length_drop, ne_eq, not_true, if_false]
    rw [if_neg (by omega), if_neg (by omega)]

theorem isEthernetIpv4_eq_true_iff (hw : packet.Whole h p) :
    packet.isEthernetIpv4 = .ok true ↔ packet.hardwareType = .ok 1 ∧
      packet.protocolType = .ok 0x0800 ∧ h = 6 ∧ p = 4 := by
  obtain ⟨hardware, hh⟩ : ∃ w, packet.hardwareType = .ok w := hw.word 0 (by omega)
  obtain ⟨protocol, hp⟩ : ∃ w, packet.protocolType = .ok w := hw.word 2 (by omega)
  simp [isEthernetIpv4, hh, hp, hw.hardware, hw.protocol, bind, Except.bind, ethernetHardware,
    Ethernet.ipv4Type]
  tauto

theorem Whole.get_eq (hw : packet.Whole h p) (field : Field) :
    packet.get field = .ok ((packet.frame.bytes.drop
      (Ethernet.headerLength + field.offset h.toNat p.toNat)).take
        (field.width h.toNat p.toNat)) := by
  have hin := field.offset_add_width_le h.toNat p.toNat
  have hle := hw.length_le
  simp only [Ethernet.Frame.length] at hle
  simp only [Packet.get, hw.hardware, hw.protocol, bind, Except.bind]
  exact Bytes.read_of_le (by omega)

end Packet

theorem Acceptable.whole {bytes : Bytes} (ha : Acceptable bytes) : Packet.Whole ⟨⟨bytes⟩⟩ 6 4 := by
  obtain ⟨hhardware, hprotocol⟩ := Bytes.take_two_eq_iff.mp ha.lengths
  obtain ⟨h, p, hl, hroom⟩ := ha.room
  obtain ⟨rfl, rfl⟩ : 6 = h ∧ 4 = p := by simpa using ha.lengths.symm.trans hl
  refine ⟨Bytes.readByte_eq_ok_iff.mpr hhardware, Bytes.readByte_eq_ok_iff.mpr hprotocol, ?_⟩
  rw [List.length_drop] at hroom
  change 28 ≤ _ at hroom
  change 14 + 28 ≤ bytes.length
  omega

namespace Message

variable {bytes : Bytes} {message : Message} {packet : Packet} {operation : Operation}

theorem ofPacket_eq_ok_iff (hw : packet.Whole 6 4) :
    ofPacket packet operation = .ok message ↔ message.operation = operation ∧
      (packet.frame.bytes.drop 22).take 6 = message.senderMac.toBytes ∧
      (packet.frame.bytes.drop 28).take 4 = message.senderIp.toBytes ∧
      (packet.frame.bytes.drop 32).take 6 = message.targetMac.toBytes ∧
      (packet.frame.bytes.drop 38).take 4 = message.targetIp.toBytes := by
  have hsm (mac) : packet.senderMac = .ok mac ↔
      (packet.frame.bytes.drop 22).take 6 = mac.toBytes := by
    rw [Packet.senderMac, hw.get_eq]
    exact MacAddress.ofBytes_eq_ok_iff
  have hsi (ip) : packet.senderIp = .ok ip ↔
      (packet.frame.bytes.drop 28).take 4 = ip.toBytes := by
    rw [Packet.senderIp, hw.get_eq]
    exact Ipv4.Address.ofBytes_eq_ok_iff
  have htm (mac) : packet.targetMac = .ok mac ↔
      (packet.frame.bytes.drop 32).take 6 = mac.toBytes := by
    rw [Packet.targetMac, hw.get_eq]
    exact MacAddress.ofBytes_eq_ok_iff
  have hti (ip) : packet.targetIp = .ok ip ↔
      (packet.frame.bytes.drop 38).take 4 = ip.toBytes := by
    rw [Packet.targetIp, hw.get_eq]
    exact Ipv4.Address.ofBytes_eq_ok_iff
  obtain ⟨⟨a, ha⟩, ⟨b, hb⟩, ⟨c, hc⟩, ⟨e, he⟩⟩ := hw.addresses
  constructor
  · intro h
    simp only [ofPacket, ha, hb, hc, he, bind, Except.bind] at h
    cases h
    exact ⟨rfl, (hsm a).mp ha, (hsi b).mp hb, (htm c).mp hc, (hti e).mp he⟩
  · rintro ⟨rfl, h₁, h₂, h₃, h₄⟩
    simp only [ofPacket, (hsm _).mpr h₁, (hsi _).mpr h₂, (htm _).mpr h₃, (hti _).mpr h₄, bind,
      Except.bind, Except.toOption, Option.getD_some]

/-- What a frame has to be, field by field, to say something. -/
theorem ofFrame_eq_ok_iff_fields {frame : Ethernet.Frame} :
    ofFrame frame = .ok message ↔ frame.etherType = .ok Ethernet.arpType ∧
      Packet.Whole ⟨frame⟩ 6 4 ∧ Packet.hardwareType ⟨frame⟩ = .ok 1 ∧
      Packet.protocolType ⟨frame⟩ = .ok 0x0800 ∧
      Packet.operationCode ⟨frame⟩ = .ok message.operation.code ∧
      ofPacket ⟨frame⟩ message.operation = .ok message := by
  constructor
  · intro h
    rw [ofFrame] at h
    cases hp : Packet.ofFrame frame with
    | error error => simp [hp] at h
    | ok packet =>
      obtain ⟨rfl, ht, hl, pl, hw⟩ := Packet.ofFrame_eq_ok_iff.mp hp
      obtain ⟨b, hb, -⟩ := hw.isEthernetIpv4
      obtain ⟨code, hcode⟩ : ∃ code, Packet.operationCode ⟨frame⟩ = .ok code :=
        hw.word 6 (by omega)
      simp only [hp, hb, hcode] at h
      cases b with
      | false => cases h
      | true =>
        obtain ⟨hhardware, hprotocol, rfl, rfl⟩ := (Packet.isEthernetIpv4_eq_true_iff hw).mp hb
        cases ho : Operation.ofCode? code with
        | none => simp [ho] at h
        | some operation =>
          cases hm : ofPacket ⟨frame⟩ operation with
          | error error => simp [ho, hm, Except.mapError] at h
          | ok other =>
            obtain rfl : other = message := by simpa [ho, hm, Except.mapError] using h
            obtain ⟨rfl, -⟩ := (ofPacket_eq_ok_iff hw).mp hm
            obtain rfl := Operation.ofCode?_eq_some_iff.mp ho
            exact ⟨ht, hw, hhardware, hprotocol, hcode, hm⟩
  · rintro ⟨ht, hw, hhardware, hprotocol, hcode, hm⟩
    have hp : Packet.ofFrame frame = .ok ⟨frame⟩ :=
      Packet.ofFrame_eq_ok_iff.mpr ⟨rfl, ht, 6, 4, hw⟩
    have hb : Packet.isEthernetIpv4 ⟨frame⟩ = .ok true :=
      (Packet.isEthernetIpv4_eq_true_iff hw).mpr ⟨hhardware, hprotocol, rfl, rfl⟩
    simp only [ofFrame, hp, hb, hcode, Operation.ofCode?_code, hm, mapError_ok]

/-- A frame says something just if its bytes are of this form, and then what they say. -/
theorem ofFrame_eq_ok_iff :
    ofFrame ⟨bytes⟩ = .ok message ↔ Acceptable bytes ∧ message.SaidBy bytes := by
  rw [ofFrame_eq_ok_iff_fields]
  constructor
  · rintro ⟨ht, hw, hhardware, hprotocol, hcode, hm⟩
    obtain ⟨-, h₁, h₂, h₃, h₄⟩ := (ofPacket_eq_ok_iff hw).mp hm
    have hlengths : (bytes.drop 18).take 2 = [6, 4] :=
      Bytes.take_two_eq_iff.mpr ⟨Bytes.readByte_eq_ok_iff.mp hw.hardware,
        Bytes.readByte_eq_ok_iff.mp hw.protocol⟩
    have hroom : 14 + 28 ≤ bytes.length := hw.length_le
    have hoperation : (bytes.drop 20).take 2 = _ :=
      (Bytes.readWord_eq_ok_iff.mp hcode).trans (Operation.ofWord_code _)
    refine ⟨⟨Bytes.readWord_eq_ok_iff.mp ht, ⟨6, 4, hlengths, ?_⟩,
      Bytes.readWord_eq_ok_iff.mp hhardware, Bytes.readWord_eq_ok_iff.mp hprotocol, hlengths, ?_⟩,
      ⟨hoperation, h₁, h₂, h₃, h₄⟩⟩
    · rw [List.length_drop]
      change 28 ≤ _
      omega
    · cases ho : message.operation with
      | request => exact .inl (by simpa only [ho] using hoperation)
      | reply => exact .inr (by simpa only [ho] using hoperation)
  · rintro ⟨ha, hs⟩
    have hw := ha.whole
    exact ⟨Bytes.readWord_eq_ok_iff.mpr ha.etherType, hw,
      Bytes.readWord_eq_ok_iff.mpr ha.hardwareType, Bytes.readWord_eq_ok_iff.mpr ha.protocolType,
      Bytes.readWord_eq_ok_iff.mpr (hs.operation.trans (Operation.ofWord_code _).symm),
      (ofPacket_eq_ok_iff hw).mpr ⟨rfl, hs.senderMac, hs.senderIp, hs.targetMac, hs.targetIp⟩⟩

/-- The addresses may be any. -/
theorem exists_ofFrame_iff :
    (∃ message, ofFrame ⟨bytes⟩ = .ok message) ↔ Acceptable bytes := by
  constructor
  · rintro ⟨message, h⟩
    exact (ofFrame_eq_ok_iff.mp h).1
  · intro ha
    obtain ⟨⟨a, h₁⟩, ⟨b, h₂⟩, ⟨c, h₃⟩, ⟨d, h₄⟩⟩ := ha.whole.addresses
    obtain ⟨operation, ho⟩ : ∃ operation : Operation,
        (bytes.drop 20).take 2 = Bytes.ofWord operation.code := by
      rcases ha.operation with ho | ho
      · exact ⟨.request, ho⟩
      · exact ⟨.reply, ho⟩
    refine ⟨⟨operation, a, b, c, d⟩, ofFrame_eq_ok_iff_fields.mpr
      ⟨Bytes.readWord_eq_ok_iff.mpr ha.etherType, ha.whole,
        Bytes.readWord_eq_ok_iff.mpr ha.hardwareType, Bytes.readWord_eq_ok_iff.mpr ha.protocolType,
        Bytes.readWord_eq_ok_iff.mpr ho, ?_⟩⟩
    simp only [ofPacket, h₁, h₂, h₃, h₄, bind, Except.bind, Except.toOption, Option.getD_some]

end Message
end Arp
end LinkLayer
