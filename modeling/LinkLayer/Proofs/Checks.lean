import LinkLayer.Proofs.RoundTrip
import LinkLayer.Proofs.WayIn

/-!
Checks that come before every access. A range that is not there and an address of the wrong length
are errors of their own, and no check gives them. Main statements: a frame and a datagram are
refused for what a check found, and for nothing else (`Arp.Message.isChecked_of_ofFrame`,
`Ipv4.Packet.isChecked_of_ofFrame`, `Config.isChecked_of_route`).
-/
namespace LinkLayer

/-- What a check finds wrong with bytes. The other errors are accesses that fail. -/
def FormatError.isChecked : FormatError → Bool
  | frameTooShort | notArp | arpTooShort | arpTruncated | frameLength | version | totalLength
  | headerLength | unsupportedType => true
  | macLength | ipLength | headerTooShort | outOfRange | other _ => false

/-- A reason that does not come from an access that fails. There is always memory. -/
def DropReason.isChecked : DropReason → Bool
  | malformed error => error.isChecked
  | allocation => false
  | badLength _ | badOptions _ | badHost | badNetwork | arpHardware | arpOpcode _ | transport _ =>
    true

namespace Bytes

variable {bytes : Bytes} {start : Nat}

theorem readByte_ok (h : start < bytes.length) : ∃ b, readByte bytes start = .ok b := by
  rw [readByte, List.drop_eq_getElem_cons h]
  exact ⟨_, rfl⟩

theorem readWord_ok (h : start + 1 < bytes.length) : ∃ w, readWord bytes start = .ok w := by
  rw [readWord, List.drop_eq_getElem_cons (by omega), List.drop_eq_getElem_cons h]
  exact ⟨_, rfl⟩

end Bytes

namespace Ethernet

variable {frame : Frame} {bytes : Bytes}

/-- All fields of a header are there. -/
theorem Frame.kind_ok (h : headerLength ≤ frame.length) : ∃ kind, frame.kind = .ok kind := by
  simp only [headerLength, Frame.length] at h
  obtain ⟨etherType, ht⟩ : ∃ etherType, frame.etherType = .ok etherType :=
    Bytes.readWord_ok (by omega)
  obtain ⟨mac, hm⟩ : ∃ mac, frame.dest = .ok mac := by
    rw [Frame.dest, Bytes.read_of_le (by omega)]
    exact MacAddress.ofBytes_ok_iff.mpr (by simp; omega)
  simp only [Frame.kind, ht, hm, bind, Except.bind]
  split
  · split <;> exact ⟨_, rfl⟩
  · split <;> exact ⟨_, rfl⟩

theorem headerLength_le_of_handledKind {kind : Kind} (h : handledKind bytes = .ok kind) :
    headerLength ≤ bytes.length := by
  unfold handledKind at h
  cases hb : Frame.ofBytes bytes with
  | error error => simp [hb] at h
  | ok frame => exact (Frame.ofBytes_ok_iff.mp hb).1

theorem isChecked_of_handledKind {error : FormatError} (h : handledKind bytes = .error error) :
    error.isChecked = true := by
  by_cases hl : bytes.length < headerLength
  · simp only [handledKind, Frame.ofBytes, hl, if_true] at h
    cases h
    rfl
  · have hb : Frame.ofBytes bytes = .ok ⟨bytes⟩ := if_neg hl
    obtain ⟨kind, hk⟩ : ∃ kind, Frame.kind ⟨bytes⟩ = .ok kind := Frame.kind_ok (Nat.not_lt.mp hl)
    simp only [handledKind, hb, hk] at h
    cases kind <;> cases h
    rfl

end Ethernet

namespace Arp.Packet

variable {packet : Packet} {frame : Ethernet.Frame} {h p : UInt8}

/-- The addresses have so many bytes, and the payload holds all four of them. -/
structure Whole (packet : Packet) (h p : UInt8) : Prop where
  hardware : packet.hardwareLength = .ok h
  protocol : packet.protocolLength = .ok p
  length_le : Ethernet.headerLength + payloadLength h.toNat p.toNat ≤ packet.frame.length

/-- A frame is refused for what a check found, or it is such a packet. -/
theorem ofFrame_cases (hl : Ethernet.headerLength ≤ frame.length) :
    (∃ error, ofFrame frame = .error error ∧ error.isChecked = true) ∨
      ∃ packet h p, ofFrame frame = .ok packet ∧ packet.Whole h p := by
  have hpayload : frame.payload = .ok (frame.bytes.drop Ethernet.headerLength) :=
    if_neg (Nat.not_lt.mpr hl)
  simp only [Ethernet.headerLength, Ethernet.Frame.length] at hl
  obtain ⟨etherType, ht⟩ : ∃ etherType, frame.etherType = .ok etherType :=
    Bytes.readWord_ok (by omega)
  simp only [ofFrame, ht, hpayload, bind, Except.bind, throw, throwThe, MonadExceptOf.throw]
  split
  · exact .inl ⟨_, rfl, rfl⟩
  split
  · exact .inl ⟨_, rfl, rfl⟩
  rename_i hlong
  simp only [List.length_drop, Ethernet.headerLength, Nat.not_lt] at hlong
  have hlong : 14 + 5 < frame.bytes.length := by omega
  obtain ⟨h, hh⟩ : ∃ h, Packet.hardwareLength ⟨frame⟩ = .ok h :=
    Bytes.readByte_ok (Nat.lt_of_succ_lt hlong)
  obtain ⟨p, hp⟩ : ∃ p, Packet.protocolLength ⟨frame⟩ = .ok p := Bytes.readByte_ok hlong
  simp only [hh, hp]
  split
  · exact .inl ⟨_, rfl, rfl⟩
  · rename_i hroom
    simp only [List.length_drop, Ethernet.headerLength, Nat.not_lt] at hroom
    refine .inr ⟨_, h, p, rfl, hh, hp, ?_⟩
    simp only [Ethernet.headerLength, Ethernet.Frame.length]
    omega

theorem headerLength_le_of_ofFrame (h : ofFrame frame = .ok packet) :
    Ethernet.headerLength ≤ frame.length := by
  refine Nat.le_of_not_lt fun hn => ?_
  simp only [ofFrame, bind, Except.bind, throw, throwThe, MonadExceptOf.throw,
    Ethernet.Frame.payload, hn, if_true] at h
  split at h
  · cases h
  · split at h <;> cases h

theorem whole_of_ofFrame (hf : ofFrame frame = .ok packet) : ∃ h p, packet.Whole h p := by
  rcases ofFrame_cases (headerLength_le_of_ofFrame hf) with ⟨error, he, -⟩ | ⟨_, h, p, ho, hw⟩
  · rw [hf] at he
    cases he
  · rw [hf] at ho
    cases ho
    exact ⟨h, p, hw⟩

/-- Every field of such a packet is there, and has as many bytes as the packet says. -/
theorem Whole.get (hw : packet.Whole h p) (field : Field) :
    ∃ bytes, packet.get field = .ok bytes ∧ bytes.length = field.width h.toNat p.toNat := by
  have hin := field.offset_add_width_le h.toNat p.toNat
  have hle := hw.length_le
  simp only [Ethernet.Frame.length] at hle
  simp only [Packet.get, hw.hardware, hw.protocol, bind, Except.bind]
  have hread : Bytes.read packet.frame.bytes
      (Ethernet.headerLength + field.offset h.toNat p.toNat) (field.width h.toNat p.toNat) =
        .ok _ := Bytes.read_of_le (by omega)
  exact ⟨_, hread, Bytes.length_of_read hread⟩

theorem Whole.word (hw : packet.Whole h p) (start : Nat) (hs : start + 1 < 8) :
    ∃ w, Bytes.readWord packet.frame.bytes (Ethernet.headerLength + start) = .ok w := by
  have hle := hw.length_le
  simp only [payloadLength, Ethernet.Frame.length] at hle
  exact Bytes.readWord_ok (by omega)

/-- The check for Ethernet and IPv4 itself always gives an answer. -/
theorem Whole.isEthernetIpv4 (hw : packet.Whole h p) :
    ∃ b, packet.isEthernetIpv4 = .ok b ∧ (b = true → h = 6 ∧ p = 4) := by
  obtain ⟨hardware, hh⟩ : ∃ w, packet.hardwareType = .ok w := hw.word 0 (by omega)
  obtain ⟨protocol, hp⟩ : ∃ w, packet.protocolType = .ok w := hw.word 2 (by omega)
  simp only [Packet.isEthernetIpv4, hh, hp, hw.hardware, hw.protocol, bind, Except.bind]
  refine ⟨_, rfl, ?_⟩
  intro hb
  simp only [Bool.and_eq_true, beq_iff_eq] at hb
  exact ⟨hb.1.1.2, hb.2⟩

theorem Whole.macAddress (hw : packet.Whole 6 p) {field : Field}
    (hf : field.width 6 p.toNat = 6) :
    ∃ mac, (packet.get field).bind MacAddress.ofBytes = .ok mac := by
  obtain ⟨bytes, hg, hl⟩ := hw.get field
  rw [hg]
  exact MacAddress.ofBytes_ok_iff.mpr (hl.trans hf)

theorem Whole.ipAddress (hw : packet.Whole h 4) {field : Field}
    (hf : field.width h.toNat 4 = 4) :
    ∃ ip, (packet.get field).bind Ipv4.Address.ofBytes = .ok ip := by
  obtain ⟨bytes, hg, hl⟩ := hw.get field
  rw [hg]
  exact Ipv4.Address.ofBytes_ok_iff.mpr (hl.trans hf)

/-- All four addresses of a packet for Ethernet and IPv4 have the length of their field. -/
theorem Whole.addresses (hw : packet.Whole 6 4) :
    (∃ mac, packet.senderMac = .ok mac) ∧ (∃ ip, packet.senderIp = .ok ip) ∧
      (∃ mac, packet.targetMac = .ok mac) ∧ ∃ ip, packet.targetIp = .ok ip :=
  ⟨hw.macAddress rfl, hw.ipAddress rfl, hw.macAddress rfl, hw.ipAddress rfl⟩

end Arp.Packet

namespace Arp.Message

/-- A frame is refused for what a check found, never for an address that could not be read. -/
theorem isChecked_of_ofFrame {frame : Ethernet.Frame} {reason : DropReason}
    (hl : Ethernet.headerLength ≤ frame.length) (h : ofFrame frame = .error reason) :
    reason.isChecked = true := by
  rw [ofFrame] at h
  rcases Packet.ofFrame_cases hl with ⟨error, he, hc⟩ | ⟨packet, hardware, protocol, ho, hw⟩
  · rw [he] at h
    cases h
    exact hc
  · obtain ⟨b, hb, hlengths⟩ := hw.isEthernetIpv4
    obtain ⟨code, hcode⟩ : ∃ code, packet.operationCode = .ok code :=
      hw.word 6 (by omega)
    simp only [ho, hb, hcode] at h
    cases b with
    | false =>
      cases h
      rfl
    | true =>
      obtain ⟨rfl, rfl⟩ := hlengths rfl
      obtain ⟨⟨senderMac, h1⟩, ⟨senderIp, h2⟩, ⟨targetMac, h3⟩, ⟨targetIp, h4⟩⟩ := hw.addresses
      cases hop : Operation.ofCode? code with
      | none =>
        simp only [hop] at h
        cases h
        rfl
      | some operation =>
        simp only [hop, ofPacket, h1, h2, h3, h4, bind, Except.bind] at h
        cases h

end Arp.Message

/-- A packet is refused for what a check found, never for a part that could not be read. -/
theorem Ipv4.Packet.isChecked_of_ofFrame {frame : Ethernet.Frame} {error : FormatError}
    (h : ofFrame frame = .error error) : error.isChecked = true := by
  simp only [ofFrame, bind, Except.bind, throw, throwThe, MonadExceptOf.throw] at h
  split at h
  · cases h
    rfl
  rename_i hl
  simp only [not_or, Nat.not_lt, Ethernet.minLength] at hl
  rw [payload_eq_ok hl.1] at h
  obtain ⟨header, hh⟩ :
      ∃ header, Header.ofBytes (frame.bytes.drop Ethernet.headerLength) = .ok header := by
    rw [Header.ofBytes_ok_iff, List.length_drop, Ethernet.headerLength, Ipv4.headerLength]
    simp only [Ethernet.Frame.length] at hl
    omega
  simp only [hh] at h
  split at h
  · cases h
    rfl
  split at h
  · cases h
    rfl
  split at h
  · cases h
    rfl
  · rename_i ht hr
    simp only [not_or, Nat.not_lt] at ht hr
    rw [Bytes.read_of_le (by omega), Bytes.read_of_le (by omega)] at h
    cases h

/-- A datagram is refused for its lengths or its destination. -/
theorem Config.isChecked_of_route {config : Config} {cache : Arp.Cache} {d : Datagram}
    {reason : DropReason} (h : config.route cache d = .error reason) :
    reason.isChecked = true := by
  rw [Config.route] at h
  split at h
  · cases h
    rfl
  split at h
  · cases h
    rfl
  split at h
  · cases h
    rfl
  split at h
  · cases h
    rfl
  · split at h <;> cases h

end LinkLayer
