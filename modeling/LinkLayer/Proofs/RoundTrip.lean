import LinkLayer.Proofs.WayOut

/-!
Datagrams that survive the way through a frame, and frames that survive the way through a datagram.
Main statements: a datagram comes back out of its frame exactly when its options are whole words, at
most ten of them, and the packet has at most 1500 bytes (`datagram_back_iff_fits`); and a frame that
is taken apart and put together again is the old one up to its padding, which is then zero
(`frame_again`).
-/
namespace LinkLayer

namespace Ipv4.Packet

variable {frame : Ethernet.Frame} {packet : Packet}

/-- How the parts of a packet lie in its frame, and what the header says of their lengths. -/
structure LaidOut (packet : Packet) : Prop where
  min_le : Ethernet.minLength ≤ packet.frame.length
  le_max : packet.frame.length ≤ Ethernet.maxLength
  version : packet.header.version = 4
  header_length : packet.header.length = packet.headerLength
  total_length : packet.header.totalLength.toNat = packet.totalLength
  bytes : ∃ padding, packet.frame.bytes.drop Ethernet.headerLength =
    packet.header.toBytes ++ packet.options ++ packet.payload ++ padding

theorem payload_eq_ok (h : Ethernet.minLength ≤ frame.length) :
    frame.payload = .ok (frame.bytes.drop Ethernet.headerLength) := by
  have : ¬ frame.length < Ethernet.headerLength := by
    simp only [Ethernet.minLength, Ethernet.headerLength] at h ⊢
    omega
  simp [Ethernet.Frame.payload, this]

theorem laidOut_of_ofFrame (h : ofFrame frame = .ok packet) :
    packet.frame = frame ∧ packet.LaidOut := by
  simp only [ofFrame, bind, Except.bind, throw, throwThe, MonadExceptOf.throw] at h
  split at h
  · contradiction
  rename_i hl
  rw [payload_eq_ok (by omega)] at h
  generalize hd : frame.bytes.drop Ethernet.headerLength = data at h
  cases hh : Header.ofBytes data with
  | error error => simp [hh] at h
  | ok header =>
    simp only [hh] at h
    split at h
    · contradiction
    rename_i hv
    split at h
    · contradiction
    rename_i ht
    split at h
    · contradiction
    rename_i hr
    simp only [not_or, Nat.not_lt] at hl ht hr
    rw [Bytes.read_of_le (by omega), Bytes.read_of_le (by omega)] at h
    cases h
    have hheader := Header.toBytes_of_ofBytes hh
    refine ⟨rfl, hl.1, hl.2, Decidable.not_not.mp hv, ?_, ?_,
      data.drop header.totalLength.toNat, ?_⟩
    · simp only [headerLength, List.length_take, List.length_drop]
      omega
    · simp only [totalLength, headerLength, List.length_take, List.length_drop]
      omega
    · -- Header, options and payload are cut off the data one after the other.
      have hcut : ∀ a b : Nat, a ≤ b → (data.drop a).take (b - a) ++ data.drop b = data.drop a := by
        intro a b hab
        rw [← Nat.add_sub_cancel' hab, ← List.drop_drop, Nat.add_sub_cancel_left,
          List.take_append_drop]
      simp only [hd, List.append_assoc, hcut _ _ hr.2, hcut _ _ hr.1]
      rw [← hheader, List.take_append_drop]

/-- A frame holds a packet exactly when the parts lie in it as the header says. -/
theorem ofFrame_eq_ok_iff :
    ofFrame frame = .ok packet ↔ packet.frame = frame ∧ packet.LaidOut := by
  refine ⟨laidOut_of_ofFrame, ?_⟩
  rintro ⟨rfl, hmin, hmax, hversion, hheader, htotal, padding, hbytes⟩
  obtain ⟨frame, header, options, payload⟩ := packet
  simp only [headerLength, totalLength] at *
  have hread : Header.ofBytes (frame.bytes.drop Ethernet.headerLength) = .ok header := by
    rw [hbytes, List.append_assoc, List.append_assoc, Header.ofBytes_toBytes]
  have hlength := congrArg List.length hbytes
  simp only [List.length_append, Header.length_toBytes] at hlength
  simp only [ofFrame, bind, Except.bind, throw, throwThe, MonadExceptOf.throw]
  rw [if_neg (by omega), payload_eq_ok hmin]
  simp only [hread]
  rw [if_neg (by simp [hversion, version]), if_neg (by omega), if_neg (by omega)]
  rw [Bytes.read_of_le (by omega), Bytes.read_of_le (by omega), hbytes, hheader, htotal]
  simp only [Nat.add_sub_cancel_left, List.append_assoc]
  rw [← header.length_toBytes, ← List.drop_drop, List.drop_left, List.take_left, List.drop_left,
    List.take_left]

/-- Reads the packet in the bytes of a frame. -/
def ofBytes (bytes : Bytes) : Except FormatError Packet := do
  ofFrame (← Ethernet.Frame.ofBytes bytes)

theorem ofBytes_bytes (frame : Ethernet.Frame) (h : Ethernet.headerLength ≤ frame.length) :
    ofBytes frame.bytes = ofFrame frame := by
  have hb : Ethernet.Frame.ofBytes frame.bytes = .ok frame :=
    Ethernet.Frame.ofBytes_ok_iff.mpr ⟨h, rfl⟩
  simp [ofBytes, hb, bind, Except.bind]

end Ipv4.Packet

namespace Datagram

variable {d : Datagram} {header : Ipv4.Header}

/-- Options of whole words, at most ten of them, in a packet of at most 1500 bytes. -/
def Fits (d : Datagram) : Prop :=
  d.options.length ≤ Ipv4.maxOptionsLength ∧ d.options.length % 4 = 0 ∧ d.ipLength ≤ 1500

instance : Decidable d.Fits := inferInstanceAs (Decidable (_ ∧ _))

/-- The header states version and lengths of the datagram itself, as `make` leaves it. -/
structure Consistent (d : Datagram) : Prop where
  version : d.header.version = 4
  ihl : d.header.ihl = Fin.ofNat 16 ((Ipv4.headerLength + d.options.length) / 4)
  total_length : d.header.totalLength = UInt16.ofNat d.ipLength
  checksum : d.header.checksumValid d.options = true

theorem consistent_make (hv : header.version = 4) (options payload : Bytes) :
    (make header options payload).Consistent where
  version := hv
  ihl := rfl
  total_length := rfl
  checksum := Ipv4.Header.checksumValid_setChecksum _ _

@[simp] theorem options_make (options payload : Bytes) :
    (make header options payload).options = options := rfl

@[simp] theorem payload_make (options payload : Bytes) :
    (make header options payload).payload = payload := rfl

theorem frameLength_le_iff : d.frameLength ≤ Ethernet.maxLength ↔ d.ipLength ≤ 1500 := by
  simp only [frameLength, Ethernet.headerLength, Ethernet.maxLength]
  omega

/-- Within the limits no length field of the header wraps around. -/
theorem Fits.length_fields (hf : d.Fits) (hc : d.Consistent) :
    d.header.length = Ipv4.headerLength + d.options.length ∧
      d.header.totalLength.toNat = d.ipLength := by
  obtain ⟨ho, hw, hl⟩ := hf
  rw [Ipv4.Header.length, hc.ihl, hc.total_length]
  simp only [Ipv4.maxOptionsLength, Ipv4.headerLength, Fin.val_ofNat, UInt16.toNat_ofNat'] at *
  omega

theorem drop_toFrame (d : Datagram) (dest source : MacAddress) :
    (d.toFrame dest source).bytes.drop Ethernet.headerLength =
      d.header.toBytes ++ d.options ++ d.payload ++
        List.replicate (Ethernet.minLength - d.frameLength) 0 := by
  have hl : (⟨dest.toBytes ++ source.toBytes ++ Bytes.ofWord Ethernet.ipv4Type ++
      d.header.toBytes ++ d.options ++ d.payload⟩ : Ethernet.Frame).length = d.frameLength := by
    simp [Ethernet.Frame.length, frameLength, ipLength, Ethernet.headerLength]
    omega
  rw [toFrame, Ethernet.Frame.pad, hl]
  simp [Ethernet.Frame.extendPayload, MacAddress.toBytes, Bytes.ofWord, Ethernet.headerLength]

theorem source_toFrame (d : Datagram) (dest source : MacAddress) :
    (d.toFrame dest source).source = .ok source := by
  simp [Ethernet.Frame.source, toFrame, Ethernet.Frame.pad, Ethernet.Frame.extendPayload,
    Bytes.read, MacAddress.toBytes, MacAddress.ofBytes, bind, Except.bind]

theorem dest_toFrame (d : Datagram) (dest source : MacAddress) :
    (d.toFrame dest source).dest = .ok dest := by
  simp [Ethernet.Frame.dest, toFrame, Ethernet.Frame.pad, Ethernet.Frame.extendPayload,
    Bytes.read, MacAddress.toBytes, MacAddress.ofBytes, bind, Except.bind]

theorem etherType_toFrame (d : Datagram) (dest source : MacAddress) :
    (d.toFrame dest source).etherType = .ok Ethernet.ipv4Type := by
  simp [Ethernet.Frame.etherType, toFrame, Ethernet.Frame.pad, Ethernet.Frame.extendPayload,
    Bytes.readWord, MacAddress.toBytes, Bytes.ofWord]

/-- What a frame gives back of the datagram in it, if it gives back anything. -/
theorem ofFrame_toFrame (hf : d.Fits) (hc : d.Consistent) (dest source : MacAddress) :
    Ipv4.Packet.ofFrame (d.toFrame dest source) =
      .ok ⟨d.toFrame dest source, d.header, d.options, d.payload⟩ := by
  obtain ⟨hheader, htotal⟩ := hf.length_fields hc
  have hlength := d.length_toFrame dest source
  have hmax := frameLength_le_iff.mpr hf.2.2
  refine Ipv4.Packet.ofFrame_eq_ok_iff.mpr ⟨rfl, ?_, ?_, hc.version, hheader, htotal, _,
    d.drop_toFrame dest source⟩
  · simp only [hlength]
    omega
  · simp only [hlength, Ethernet.minLength, Ethernet.maxLength] at hmax ⊢
    omega

/-- A packet with the parts of a datagram is found only in a frame that is large enough. -/
theorem fits_of_ofFrame {frame : Ethernet.Frame} {packet : Ipv4.Packet}
    (h : Ipv4.Packet.ofFrame frame = .ok packet) (ho : packet.options = d.options)
    (hp : packet.payload = d.payload) : d.Fits := by
  obtain ⟨rfl, hl⟩ := Ipv4.Packet.ofFrame_eq_ok_iff.mp h
  have hheader := hl.header_length
  have hihl := packet.header.ihl.isLt
  obtain ⟨padding, hbytes⟩ := hl.bytes
  have hdrop := congrArg List.length hbytes
  have hmax := hl.le_max
  simp only [Ipv4.Header.length, Ipv4.Packet.headerLength, ho, hp, List.length_append,
    Ipv4.Header.length_toBytes, List.length_drop, Ethernet.Frame.length, Ipv4.headerLength,
    Ethernet.headerLength, Ethernet.maxLength] at hheader hdrop hmax
  refine ⟨?_, ?_, ?_⟩
  · simp only [Ipv4.maxOptionsLength]
    omega
  · omega
  · simp only [ipLength, Ipv4.headerLength]
    omega

end Datagram

/-- What was routed is small enough for a frame. -/
theorem Config.fits_of_route {config : Config} {cache : Arp.Cache} {d : Datagram} {route : Route}
    (h : config.route cache d = .ok route) : d.Fits := by
  rw [Config.route] at h
  split at h
  · contradiction
  rename_i hl
  split at h
  · contradiction
  rename_i ho
  simp only [not_or, Nat.not_lt, ne_eq, Decidable.not_not] at hl ho
  exact ⟨ho.1, ho.2, Datagram.frameLength_le_iff.mp hl.1⟩

theorem Config.route_limits_iff {config : Config} (hm : config.mtu = 1500) (cache : Arp.Cache)
    (d : Datagram) :
    (∀ n, config.route cache d ≠ .error (.badLength n)) ∧
      (∀ n, config.route cache d ≠ .error (.badOptions n)) ↔ d.Fits := by
  simp only [Config.route]
  have hmtu : config.mtu.toNat = 1500 := by rw [hm]; rfl
  have hl := d.frameLength_le_iff
  constructor
  · rintro ⟨hlength, hoptions⟩
    split at hlength
    · exact absurd rfl (hlength _)
    rename_i h₁
    rw [if_neg h₁] at hoptions
    split at hoptions
    · exact absurd rfl (hoptions _)
    rename_i h₂
    simp only [not_or, Nat.not_lt, ne_eq, Decidable.not_not] at h₁ h₂
    exact ⟨h₂.1, h₂.2, hl.mp h₁.1⟩
  · rintro ⟨ho, hw, hi⟩
    rw [if_neg (by omega), if_neg (by omega)]
    constructor
    all_goals
      intro n
      split
      · simp
      · split
        · simp
        · split <;> simp

namespace Interface

variable {τ : Type} [Transport τ]

/-- Refusals other than those of the adapter are decided by the route alone. -/
theorem output_error_iff (now : Time) (d : Datagram) (s : Interface τ) (reason : DropReason)
    (hr : ∀ error, reason ≠ .transport error) :
    ((output now d).run s).value = .error reason ↔ s.config.route s.cache d = .error reason := by
  have h := delivered_output now d s
  generalize (output now d).run s = o at h ⊢
  cases h with
  | refused h => simp [h]
  | deferred h => simp [h]
  | sent h => simp [h]
  | failed h => simp [h, eq_comm, hr]

end Interface

/-- A frame gives its datagram back exactly if the datagram is within the limits, and these are the
limits of the way out at the largest MTU. -/
theorem datagram_back_iff_fits (framer : Framer) (dest source : MacAddress)
    {header : Ipv4.Header} (hv : header.version = 4) (options payload : Bytes) :
    ∃ bytes next,
      framer.datagram dest source (.make header options payload) = .ok (bytes, next) ∧
      ((∃ packet, Ipv4.Packet.ofBytes bytes = .ok packet ∧
          packet.header = (Datagram.make header options payload).header ∧
          packet.options = options ∧ packet.payload = payload) ↔
        (Datagram.make header options payload).Fits) ∧
      (∀ {τ : Type} [Transport τ] (s : Interface τ) (now : Time), s.config.mtu = 1500 →
        ((∀ n, ((Interface.output now (.make header options payload)).run s).value ≠
              .error (.badLength n)) ∧
            (∀ n, ((Interface.output now (.make header options payload)).run s).value ≠
              .error (.badOptions n)) ↔
          (Datagram.make header options payload).Fits)) ∧
      ((Datagram.make header options payload).Fits →
        bytes.length = max Ethernet.minLength
          (Ethernet.headerLength + (Datagram.make header options payload).ipLength) ∧
        ∃ packet, Ipv4.Packet.ofBytes bytes = .ok packet ∧
          packet.frame.dest = .ok dest ∧ packet.frame.source = .ok source ∧
          packet.frame.etherType = .ok Ethernet.ipv4Type ∧
          packet.header.length = Ipv4.headerLength + options.length ∧
          packet.headerLength = Ipv4.headerLength + options.length ∧
          packet.header.totalLength.toNat = (Datagram.make header options payload).ipLength ∧
          packet.totalLength = (Datagram.make header options payload).ipLength ∧
          packet.header.checksumValid options = true) := by
  have hc := Datagram.consistent_make hv options payload
  generalize hd : Datagram.make header options payload = d at hc ⊢
  have ho : d.options = options := by simp [← hd]
  have hp : d.payload = payload := by simp [← hd]
  obtain ⟨next, hframe⟩ := framer.datagram_eq dest source d
  have hlength := d.length_toFrame dest source
  have hbytes := Ipv4.Packet.ofBytes_bytes (d.toFrame dest source) (by
    simp only [hlength, Ethernet.minLength, Ethernet.headerLength]
    omega)
  refine ⟨_, next, hframe, ⟨?_, ?_⟩, ?_, ?_⟩
  · rintro ⟨packet, hpacket, -, hoptions, hpayload⟩
    rw [hbytes] at hpacket
    exact Datagram.fits_of_ofFrame hpacket (hoptions.trans ho.symm) (hpayload.trans hp.symm)
  · intro hf
    exact ⟨_, hbytes.trans (Datagram.ofFrame_toFrame hf hc dest source), rfl, ho, hp⟩
  · intro τ _ s now hm
    have hlengths n := Interface.output_error_iff now d s (.badLength n) (by simp)
    have hwords n := Interface.output_error_iff now d s (.badOptions n) (by simp)
    simpa only [ne_eq, hlengths, hwords] using Config.route_limits_iff hm s.cache d
  · intro hf
    obtain ⟨hheader, htotal⟩ := hf.length_fields hc
    refine ⟨hlength, _, hbytes.trans (Datagram.ofFrame_toFrame hf hc dest source),
      d.dest_toFrame dest source, d.source_toFrame dest source, d.etherType_toFrame dest source,
      ?_, ?_, htotal, rfl, ?_⟩
    · rw [hheader, ho]
    · simp only [Ipv4.Packet.headerLength, ho]
    · rw [← ho]
      exact hc.checksum

/-- One word of options in a packet of the largest length. -/
theorem datagram_back_at_limit :
    ({ dest := ⟨192, 168, 1, 50⟩ } : Ipv4.Header).version = 4 ∧
      (Datagram.make { dest := ⟨192, 168, 1, 50⟩ } [0x94, 4, 0, 0] (.replicate 1476 7)).Fits ∧
      ∃ bytes next,
        Framer.init.datagram .broadcast {}
          (.make { dest := ⟨192, 168, 1, 50⟩ } [0x94, 4, 0, 0] (.replicate 1476 7)) =
            .ok (bytes, next) ∧
        bytes.length = 1514 ∧
        ∃ packet, Ipv4.Packet.ofBytes bytes = .ok packet ∧ packet.options = [0x94, 4, 0, 0] ∧
          packet.payload = .replicate 1476 7 := by
  have hl : (Datagram.make { dest := ⟨192, 168, 1, 50⟩ } [0x94, 4, 0, 0]
      (.replicate 1476 7)).ipLength = 1500 := by
    rw [Datagram.ipLength, Datagram.payload_make, List.length_replicate]
    rfl
  have hf := And.intro (by decide : 4 ≤ 40) (And.intro (by decide : 4 % 4 = 0) (Nat.le_of_eq hl))
  have hv : ({ dest := ⟨192, 168, 1, 50⟩ } : Ipv4.Header).version = 4 := rfl
  obtain ⟨bytes, next, hframe, hback, -, hlength⟩ :=
    datagram_back_iff_fits .init .broadcast {} hv [0x94, 4, 0, 0] (.replicate 1476 7)
  obtain ⟨packet, hpacket, -, hoptions, hpayload⟩ := hback.mpr hf
  refine ⟨hv, hf, bytes, next, hframe, ?_, packet, hpacket, hoptions, hpayload⟩
  rw [(hlength hf).1, hl]
  rfl

/-- A frame starts with the two addresses and the ether type that are read from it. -/
theorem Ethernet.Frame.take_headerLength {frame : Frame} (h : headerLength ≤ frame.length) :
    ∃ dest source etherType, frame.dest = .ok dest ∧ frame.source = .ok source ∧
      frame.etherType = .ok etherType ∧
      frame.bytes.take headerLength =
        dest.toBytes ++ source.toBytes ++ Bytes.ofWord etherType := by
  obtain ⟨bytes⟩ := frame
  iterate 14
    rcases bytes with _ | ⟨_, bytes⟩
    · simp [length, headerLength] at h
  refine ⟨_, _, _, rfl, rfl, rfl, ?_⟩
  simp [MacAddress.toBytes, headerLength]

namespace Ipv4.Packet

variable {frame : Ethernet.Frame} {packet : Packet}

/-- Length of the header of the frame and of the packet behind it. What follows is padding. -/
def paddedFrom (packet : Packet) : Nat := Ethernet.headerLength + packet.totalLength

theorem frameLength_ofPacket (packet : Packet) :
    (Datagram.ofPacket packet).frameLength = packet.paddedFrom := by
  simp only [Datagram.frameLength, Datagram.ipLength, Datagram.ofPacket, paddedFrom, totalLength,
    headerLength]

/-- The frame has room for the packet. -/
theorem LaidOut.paddedFrom_le (h : packet.LaidOut) : packet.paddedFrom ≤ packet.frame.length := by
  obtain ⟨padding, hbytes⟩ := h.bytes
  have hlength := congrArg List.length hbytes
  have hmin := h.min_le
  simp only [List.length_append, List.length_drop, Header.length_toBytes, Ethernet.minLength,
    Ethernet.headerLength, Ethernet.Frame.length] at hlength hmin
  simp only [paddedFrom, totalLength, headerLength, Ethernet.headerLength, Ethernet.Frame.length]
  omega

/-- What a frame with ether type IPv4 says up to its padding, the packet says. -/
theorem LaidOut.take_paddedFrom (h : packet.LaidOut) {dest source : MacAddress}
    (hhead : packet.frame.bytes.take Ethernet.headerLength =
      dest.toBytes ++ source.toBytes ++ Bytes.ofWord Ethernet.ipv4Type) :
    packet.frame.bytes.take packet.paddedFrom = dest.toBytes ++ source.toBytes ++
      Bytes.ofWord Ethernet.ipv4Type ++ packet.header.toBytes ++ packet.options ++
        packet.payload := by
  obtain ⟨padding, hbytes⟩ := h.bytes
  have hparts : (packet.header.toBytes ++ packet.options ++ packet.payload).length =
      packet.totalLength := by
    simp only [List.length_append, Header.length_toBytes, totalLength, headerLength]
  rw [paddedFrom, List.take_add, hhead, hbytes, List.take_append_of_le_length (by omega),
    ← hparts, List.take_length]
  simp only [List.append_assoc]

/-- A frame is put together again from the parts of its packet. -/
theorem LaidOut.bytes_toFrame (h : packet.LaidOut) {dest source : MacAddress}
    (hhead : packet.frame.bytes.take Ethernet.headerLength =
      dest.toBytes ++ source.toBytes ++ Bytes.ofWord Ethernet.ipv4Type) :
    ((Datagram.ofPacket packet).toFrame dest source).bytes =
      packet.frame.bytes.take packet.paddedFrom ++
        List.replicate (Ethernet.minLength - packet.paddedFrom) 0 := by
  have hlength : (packet.frame.bytes.take packet.paddedFrom).length = packet.paddedFrom :=
    List.length_take_of_le h.paddedFrom_le
  rw [h.take_paddedFrom hhead] at hlength ⊢
  simp only [Datagram.toFrame, Datagram.ofPacket, Ethernet.Frame.pad, Ethernet.Frame.extendPayload,
    Ethernet.Frame.length, hlength]

/-- The packet in the frame that was put together again has the old parts. -/
theorem LaidOut.again (h : packet.LaidOut) (dest source : MacAddress) :
    ofFrame ((Datagram.ofPacket packet).toFrame dest source) =
      .ok { packet with frame := (Datagram.ofPacket packet).toFrame dest source } := by
  have hlength := (Datagram.ofPacket packet).length_toFrame dest source
  have hroom := h.paddedFrom_le
  have hmin := h.min_le
  have hmax := h.le_max
  rw [frameLength_ofPacket] at hlength
  refine ofFrame_eq_ok_iff.mpr ⟨rfl, ?_, ?_, h.version, h.header_length, h.total_length, _,
    (Datagram.ofPacket packet).drop_toFrame dest source⟩
  · simp only [hlength]
    omega
  · simp only [hlength]
    omega

end Ipv4.Packet

/-- A frame that is taken apart and put together again has its old bytes up to the padding, and
zeros for its padding. Its packet is the old one, and once more through both changes nothing. -/
theorem frame_again (framer : Framer) {frame : Ethernet.Frame} {packet : Ipv4.Packet}
    (ht : frame.etherType = .ok Ethernet.ipv4Type) (hp : Ipv4.Packet.ofFrame frame = .ok packet) :
    ∃ dest source bytes next,
      frame.dest = .ok dest ∧ frame.source = .ok source ∧
      framer.datagram dest source (.ofPacket packet) = .ok (bytes, next) ∧
      bytes.length = max Ethernet.minLength (Ethernet.headerLength + packet.totalLength) ∧
      bytes.length ≤ frame.length ∧
      bytes.take (Ethernet.headerLength + packet.totalLength) =
        frame.bytes.take (Ethernet.headerLength + packet.totalLength) ∧
      (∀ b ∈ bytes.drop (Ethernet.headerLength + packet.totalLength), b = 0) ∧
      ∃ again, Ipv4.Packet.ofBytes bytes = .ok again ∧
        again.frame.bytes = bytes ∧ again.frame.dest = frame.dest ∧
        again.frame.source = frame.source ∧ again.frame.etherType = frame.etherType ∧
        again.header = packet.header ∧ again.options = packet.options ∧
        again.payload = packet.payload ∧ again.headerLength = packet.headerLength ∧
        again.totalLength = packet.totalLength ∧
        ∀ framer : Framer, ∃ next,
          framer.datagram dest source (.ofPacket again) = .ok (bytes, next) := by
  obtain ⟨rfl, hl⟩ := Ipv4.Packet.laidOut_of_ofFrame hp
  have hmin := hl.min_le
  obtain ⟨dest, source, etherType, hdest, hsource, hetherType, hhead⟩ :=
    packet.frame.take_headerLength (Nat.le_trans (by decide) hmin)
  obtain rfl : etherType = Ethernet.ipv4Type := Except.ok.inj (hetherType.symm.trans ht)
  obtain ⟨next, hframe⟩ := framer.datagram_eq dest source (.ofPacket packet)
  have hbytes := hl.bytes_toFrame hhead
  have hlength := (Datagram.ofPacket packet).length_toFrame dest source
  rw [packet.frameLength_ofPacket] at hlength
  have htake : (packet.frame.bytes.take packet.paddedFrom).length = packet.paddedFrom :=
    List.length_take_of_le hl.paddedFrom_le
  have hroom := hl.paddedFrom_le
  refine ⟨dest, source, _, next, hdest, hsource, hframe, hlength, ?_, ?_, ?_, ?_⟩
  · have : ((Datagram.ofPacket packet).toFrame dest source).bytes.length =
      max Ethernet.minLength packet.paddedFrom := hlength
    omega
  · change List.take packet.paddedFrom _ = List.take packet.paddedFrom _
    rw [hbytes, List.take_append_of_le_length (by omega), List.take_take, Nat.min_self]
  · change ∀ b ∈ List.drop packet.paddedFrom _, b = 0
    rw [hbytes, List.drop_append_of_le_length (by omega), List.drop_of_length_le (by omega)]
    simp
  · have hagain := Ipv4.Packet.ofBytes_bytes ((Datagram.ofPacket packet).toFrame dest source) (by
      simp only [hlength, Ethernet.minLength, Ethernet.headerLength]
      omega)
    refine ⟨_, hagain.trans (hl.again dest source), rfl, ?_, ?_, ?_, rfl, rfl, rfl, rfl, rfl, ?_⟩
    · exact (Datagram.dest_toFrame _ dest source).trans hdest.symm
    · exact (Datagram.source_toFrame _ dest source).trans hsource.symm
    · exact (Datagram.etherType_toFrame _ dest source).trans ht.symm
    · intro framer
      exact framer.datagram_eq dest source (.ofPacket packet)

/-- A packet of 25 bytes with options and a wrong checksum, in a frame of 64 bytes. The 25 bytes
after the packet are not zero, and only they do not come back. -/
theorem frame_again_padded :
    let frame : Ethernet.Frame := ⟨MacAddress.broadcast.toBytes ++ [2, 0, 0, 0, 0, 1] ++ [8, 0] ++
      [0x46, 0, 0, 25, 0, 1, 0x40, 0, 64, 17, 0xde, 0xad, 192, 168, 1, 2, 192, 168, 1, 1] ++
      [1, 1, 1, 0] ++ [7] ++ List.replicate 25 9⟩
    frame.etherType = .ok Ethernet.ipv4Type ∧
      ∃ packet, Ipv4.Packet.ofFrame frame = .ok packet ∧
        packet.options = [1, 1, 1, 0] ∧ packet.payload = [7] ∧
        packet.header.checksumValid packet.options = false ∧
        ∃ dest source bytes next,
          Framer.init.datagram dest source (.ofPacket packet) = .ok (bytes, next) ∧
          bytes.length = 60 ∧ frame.bytes.length = 64 ∧
          bytes.take 39 = frame.bytes.take 39 ∧ frame.bytes.getLast? = some 9 ∧
          (∀ b ∈ bytes.drop 39, b = 0) ∧
          ∃ again, Ipv4.Packet.ofBytes bytes = .ok again ∧ again.payload = [7] := by
  intro frame
  have ht : frame.etherType = .ok Ethernet.ipv4Type := rfl
  refine ⟨ht, ?_⟩
  obtain ⟨packet, hp⟩ : ∃ packet, Ipv4.Packet.ofFrame frame = .ok packet := ⟨_, rfl⟩
  obtain ⟨dest, source, bytes, next, -, -, hframe, hlength, -, htake, hzero, again, hagain,
    -, -, -, -, -, -, hpayload, -⟩ := frame_again .init ht hp
  cases hp
  refine ⟨_, rfl, by decide, by decide, by decide +kernel, dest, source, bytes, next, hframe,
    hlength, by decide, htake, by decide, hzero, again, hagain, hpayload⟩

end LinkLayer
