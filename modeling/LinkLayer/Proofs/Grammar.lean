import LinkLayer.Adapter
import LinkLayer.Proofs.Limits
import LinkLayer.Proofs.RoundTrip

/-!
Which frames hold an IPv4 packet. Main statement: the bytes behind the frame header split into
header, options, payload and padding in at most one way that agrees with the lengths in the header,
a frame of an allowed length is accepted exactly if there is such a split, and only its datagram
reaches the interface, if it can be stamped (`handleIp_decided`).
-/
namespace LinkLayer

namespace Ipv4

/-- The version that a header states, in its first four bits. -/
def statedVersion (header : Bytes) : Nat := (header.getD 0 0).toNat / 16

/-- The words that a header counts itself, in the four bits behind the version. -/
def statedWords (header : Bytes) : Nat := (header.getD 0 0).toNat % 16

/-- The length that a header gives the packet, in its third and fourth byte. -/
def statedLength (header : Bytes) : Nat :=
  (header.getD 2 0).toNat * 256 + (header.getD 3 0).toNat

/-- Data that splits into the parts of a packet and padding, each as long as the header says. -/
structure Split (data header options payload padding : Bytes) : Prop where
  append : data = header ++ options ++ payload ++ padding
  header_length : header.length = 20
  version : statedVersion header = 4
  options_length : 20 + options.length = 4 * statedWords header
  payload_length : 20 + options.length + payload.length = statedLength header

/-- The bytes of a frame with a packet: of an allowed length, and with a split behind the frame
header. -/
def Holds (bytes : Bytes) : Prop :=
  60 ≤ bytes.length ∧ bytes.length ≤ 1514 ∧
    ∃ header options payload padding, Split (bytes.drop 14) header options payload padding

namespace Header

variable {header : Header} {bytes : Bytes}

@[simp] theorem statedVersion_toBytes (header : Header) :
    statedVersion header.toBytes = header.version.val := by
  have := header.toNat_versionByte
  have := header.ihl.isLt
  change header.versionByte.toNat / 16 = _
  omega

@[simp] theorem statedWords_toBytes (header : Header) :
    statedWords header.toBytes = header.ihl.val := by
  have := header.toNat_versionByte
  have := header.ihl.isLt
  change header.versionByte.toNat % 16 = _
  omega

@[simp] theorem statedLength_toBytes (header : Header) :
    statedLength header.toBytes = header.totalLength.toNat := by
  rw [← Bytes.word_ofWord header.totalLength, Bytes.toNat_word]
  rfl

/-- Twenty bytes are the bytes of a header. -/
theorem exists_toBytes (h : bytes.length = headerLength) :
    ∃ header : Header, header.toBytes = bytes := by
  obtain ⟨header, hheader⟩ := ofBytes_ok_iff.mpr (Nat.le_of_eq h.symm)
  exact ⟨header, by rw [← toBytes_of_ofBytes hheader, ← h, List.take_length]⟩

end Header

namespace Split

variable {data header options payload padding header' options' payload' padding' : Bytes}

/-- The header is as long as in any other split, so it is the same one, and then the lengths that it
states cut off the same options and the same payload. -/
theorem unique (h : Split data header options payload padding)
    (h' : Split data header' options' payload' padding') :
    header' = header ∧ options' = options ∧ payload' = payload ∧ padding' = padding := by
  have hall := h'.append.symm.trans h.append
  simp only [List.append_assoc] at hall
  obtain ⟨rfl, hbehind⟩ := List.append_inj hall (h'.header_length.trans h.header_length.symm)
  have ho : 20 + options'.length = 20 + options.length :=
    h'.options_length.trans h.options_length.symm
  have hp : 20 + options'.length + payload'.length = 20 + options.length + payload.length :=
    h'.payload_length.trans h.payload_length.symm
  obtain ⟨rfl, hrest⟩ := List.append_inj hbehind (by omega)
  obtain ⟨rfl, rfl⟩ := List.append_inj hrest (by omega)
  exact ⟨rfl, rfl, rfl, rfl⟩

end Split

namespace Packet

variable {frame : Ethernet.Frame} {packet : Packet} {header options payload padding : Bytes}

/-- The parts of a packet lie in its frame as the parts of a split. -/
theorem LaidOut.split (h : packet.LaidOut) : ∃ padding,
    Split (packet.frame.bytes.drop 14) packet.header.toBytes packet.options packet.payload
      padding := by
  obtain ⟨padding, hbytes⟩ := h.bytes
  refine ⟨padding, hbytes, packet.header.length_toBytes, ?_, ?_, ?_⟩
  · rw [Header.statedVersion_toBytes, h.version]
    rfl
  · rw [Header.statedWords_toBytes]
    exact h.header_length.symm
  · rw [Header.statedLength_toBytes]
    exact h.total_length.symm

/-- A split names the packet that is accepted. -/
theorem ofFrame_of_split (hmin : 60 ≤ frame.length) (hmax : frame.length ≤ 1514)
    (h : Split (frame.bytes.drop 14) header options payload padding) :
    ∃ fields : Header, fields.toBytes = header ∧
      ofFrame frame = .ok ⟨frame, fields, options, payload⟩ := by
  obtain ⟨fields, rfl⟩ := Header.exists_toBytes h.header_length
  have hversion := h.version
  have hwords := h.options_length
  have hlength := h.payload_length
  rw [Header.statedVersion_toBytes] at hversion
  rw [Header.statedWords_toBytes] at hwords
  rw [Header.statedLength_toBytes] at hlength
  exact ⟨fields, rfl, ofFrame_eq_ok_iff.mpr ⟨rfl, hmin, hmax, Fin.ext hversion, hwords.symm,
    hlength.symm, padding, h.append⟩⟩

theorem exists_ofFrame_iff : (∃ packet, ofFrame frame = .ok packet) ↔ Holds frame.bytes := by
  constructor
  · rintro ⟨packet, h⟩
    obtain ⟨rfl, hl⟩ := ofFrame_eq_ok_iff.mp h
    exact ⟨hl.min_le, hl.le_max, _, _, _, hl.split⟩
  · rintro ⟨hmin, hmax, header, options, payload, padding, h⟩
    obtain ⟨fields, -, hframe⟩ := ofFrame_of_split hmin hmax h
    exact ⟨_, hframe⟩

instance : DecidablePred Holds := fun bytes =>
  match h : ofFrame ⟨bytes⟩ with
  | .ok packet => isTrue (exists_ofFrame_iff.mp ⟨packet, h⟩)
  | .error _ => isFalse fun hholds => by
    obtain ⟨packet, hpacket⟩ := exists_ofFrame_iff.mpr hholds
    cases h.symm.trans hpacket

/-- What is read from an accepted frame are the parts of its split. -/
theorem parts_of_split (hp : ofFrame frame = .ok packet)
    (h : Split (frame.bytes.drop 14) header options payload padding) :
    packet.header.toBytes = header ∧ packet.options = options ∧ packet.payload = payload ∧
      packet.headerLength = 20 + options.length ∧
      packet.totalLength = 20 + options.length + payload.length := by
  obtain ⟨rfl, hl⟩ := ofFrame_eq_ok_iff.mp hp
  obtain ⟨_, hsplit⟩ := hl.split
  obtain ⟨hheader, rfl, rfl, -⟩ := h.unique hsplit
  exact ⟨hheader, rfl, rfl, rfl, rfl⟩

end Packet
end Ipv4

namespace Interface

variable {τ : Type} {frame : Ethernet.Frame}

/-- The datagram of a packet waits for the host. -/
theorem run_handleIp_of_ok {packet : Ipv4.Packet} (h : Ipv4.Packet.ofFrame frame = .ok packet)
    (s : Interface τ) (now : Time) :
    let d : Datagram := {
      header := packet.header, options := packet.options, payload := packet.payload
      gateway := none, expiry := some (now + s.config.lifetime) }
    (handleIp now frame).run s =
      { value := .ok ()
        state := { s with receiveQueue := s.receiveQueue.enqueue d }
        events := [.queued now d] } := by
  simp only [handleIp, h]
  rfl

theorem run_handleIp_of_error {error : FormatError} (h : Ipv4.Packet.ofFrame frame = .error error)
    (s : Interface τ) (now : Time) :
    (handleIp now frame).run s = { value := .error (.malformed error), state := s } := by
  simp only [handleIp, h]
  rfl

/-- A datagram that cannot be stamped is not queued. -/
theorem run_handleIp?_of_unstamped {last now : Time} {s : Interface τ} {packet : Ipv4.Packet}
    (h : Ipv4.Packet.ofFrame frame = .ok packet) (hs : ¬ s.CanStamp last now) :
    (handleIp? last now frame).run s = { value := none, state := s } := by
  simp [handleIp?, h, hs, Except.isOk, Except.toBool]

theorem run_handleIp?_of_stamped {last now : Time} {s : Interface τ} (hs : s.CanStamp last now) :
    (handleIp? last now frame).run s = (some <$> handleIp now frame).run s := by
  simp [handleIp?, hs]

theorem run_handleIp?_of_error {last now : Time} {s : Interface τ} {error : FormatError}
    (h : Ipv4.Packet.ofFrame frame = .error error) :
    (handleIp? last now frame).run s = (some <$> handleIp now frame).run s := by
  simp [handleIp?, h, Except.isOk, Except.toBool]

/-- A frame is accepted exactly if it holds a packet, and its split gives the parts of the packet.
If their datagram can be stamped, the interface queues it and changes nothing else; if not, it
breaks off and has changed nothing. Of any other frame it only says that it is malformed. -/
theorem handleIp_decided {bytes : Bytes} (hb : Ethernet.Frame.ofBytes bytes = .ok frame) :
    ((∃ packet, Ipv4.Packet.ofFrame frame = .ok packet) ↔ Ipv4.Holds bytes) ∧
      (∀ h o p pad h' o' p' pad', Ipv4.Split (bytes.drop 14) h o p pad →
        Ipv4.Split (bytes.drop 14) h' o' p' pad' → h' = h ∧ o' = o ∧ p' = p ∧ pad' = pad) ∧
      (∀ packet h o p pad, Ipv4.Packet.ofFrame frame = .ok packet →
        Ipv4.Split (bytes.drop 14) h o p pad →
        packet.header.toBytes = h ∧ packet.options = o ∧ packet.payload = p ∧
          packet.headerLength = 20 + o.length ∧ packet.totalLength = 20 + o.length + p.length) ∧
      ∀ (s : Interface τ) (last now : Time),
        let outcome := (handleIp? last now frame).run s
        (outcome.value = some (.ok ()) ↔ Ipv4.Holds bytes ∧ s.CanStamp last now) ∧
          (Ipv4.Holds bytes → s.CanStamp last now →
            ∀ h o p pad, Ipv4.Split (bytes.drop 14) h o p pad →
            ∃ header : Ipv4.Header, header.toBytes = h ∧
              let d : Datagram := {
                header, options := o, payload := p
                gateway := none, expiry := some (now + s.config.lifetime) }
              outcome = { value := some (.ok ())
                          state := { s with receiveQueue := s.receiveQueue.enqueue d }
                          events := [.queued now d] }) ∧
          (Ipv4.Holds bytes → ¬ s.CanStamp last now →
            outcome = { value := none, state := s, events := [] }) ∧
          (¬ Ipv4.Holds bytes → ∃ error,
            outcome = { value := some (.error (.malformed error)), state := s, events := [] }) := by
  obtain ⟨-, rfl⟩ := Ethernet.Frame.ofBytes_ok_iff.mp hb
  refine ⟨Ipv4.Packet.exists_ofFrame_iff, fun _ _ _ _ _ _ _ _ h h' => h.unique h',
    fun _ _ _ _ _ hp h => Ipv4.Packet.parts_of_split hp h, fun s last now => ?_⟩
  rw [← Ipv4.Packet.exists_ofFrame_iff]
  cases hp : Ipv4.Packet.ofFrame frame with
  | ok packet =>
    have hpacket : ∃ other, (.ok packet : Except FormatError Ipv4.Packet) = .ok other :=
      ⟨packet, rfl⟩
    by_cases hs : s.CanStamp last now
    · have hrun := run_handleIp_of_ok hp s now
      rw [run_handleIp?_of_stamped hs, Action.run_map, hrun]
      refine ⟨iff_of_true rfl ⟨hpacket, hs⟩, fun _ _ h o p pad hsplit => ?_,
        fun _ hn => absurd hs hn, fun hn => absurd hpacket hn⟩
      obtain ⟨hheader, rfl, rfl, -⟩ := Ipv4.Packet.parts_of_split hp hsplit
      exact ⟨packet.header, hheader, rfl⟩
    · rw [run_handleIp?_of_unstamped hp hs]
      exact ⟨iff_of_false (by simp) fun h => hs h.2, fun _ h => absurd h hs, fun _ _ => rfl,
        fun hn => absurd hpacket hn⟩
  | error error =>
    have hrun := run_handleIp_of_error hp s now
    have hnone : ¬ ∃ packet, (.error error : Except FormatError Ipv4.Packet) = .ok packet := by
      simp
    rw [run_handleIp?_of_error hp, Action.run_map, hrun]
    exact ⟨iff_of_false (by simp) fun h => hnone h.1, fun h => absurd h hnone,
      fun h => absurd h hnone, fun _ => ⟨error, rfl⟩⟩

/-- The longest header in the shortest frame that has room for it, with nothing behind it, and the
same frame with a total length that is one too large. When the clock is near its end, only the first
one makes a difference. -/
theorem handleIp_decided_longest :
    ∃ s : Interface Adapter,
      ((create { address := ⟨192, 168, 1, 1⟩, mask := ⟨255, 255, 255, 0⟩ } 0).run
        ({ address := {} } : Adapter)).value = .ok s ∧
      let header (total : UInt8) : Bytes := [0x4f, 0, 0, total, 0, 1, 0, 0, 64, 17, 0, 0,
        192, 168, 1, 2, 192, 168, 1, 1]
      let bytes (total : UInt8) : Bytes :=
        MacAddress.broadcast.toBytes ++ [2, 0, 0, 0, 0, 2, 8, 0] ++ header total ++
          List.replicate 40 1
      Ethernet.Frame.ofBytes (bytes 60) = .ok ⟨bytes 60⟩ ∧
        Ipv4.Split ((bytes 60).drop 14) (header 60) (List.replicate 40 1) [] [] ∧
        ((handleIp? 30005 5 ⟨bytes 60⟩).run s).state.receiveQueue.toList.map
            (fun d => (d.header.toBytes, d.options, d.payload, d.expiry)) =
          [(header 60, List.replicate 40 1, [], some 30005)] ∧
        (handleIp? 30005 6 ⟨bytes 60⟩).run s = { value := none, state := s, events := [] } ∧
        Ethernet.Frame.ofBytes (bytes 61) = .ok ⟨bytes 61⟩ ∧ ¬ Ipv4.Holds (bytes 61) ∧
        ((handleIp? 30005 6 ⟨bytes 61⟩).run s).state = s := by
  obtain ⟨s, hc⟩ : ∃ s, ((create { address := ⟨192, 168, 1, 1⟩, mask := ⟨255, 255, 255, 0⟩ } 0).run
      ({ address := {} } : Adapter)).value = .ok s := ⟨_, rfl⟩
  refine ⟨s, hc, ?_⟩
  intro header bytes
  have hlong : Ethernet.Frame.ofBytes (bytes 60) = .ok ⟨bytes 60⟩ := rfl
  have hlonger : Ethernet.Frame.ofBytes (bytes 61) = .ok ⟨bytes 61⟩ := rfl
  have hsplit : Ipv4.Split ((bytes 60).drop 14) (header 60) (List.replicate 40 1) [] [] :=
    ⟨rfl, rfl, by decide, by decide +kernel, by decide +kernel⟩
  have hholds : Ipv4.Holds (bytes 60) := by decide +kernel
  have hnot : ¬ Ipv4.Holds (bytes 61) := by decide +kernel
  have hlifetime : s.config.lifetime = 30000 := by
    cases hc
    rfl
  have hfits : s.CanStamp 30005 5 := by simp [CanStamp, hlifetime]
  have hends : ¬ s.CanStamp 30005 6 := by simp [CanStamp, hlifetime]
  obtain ⟨-, -, -, hall⟩ := handleIp_decided (τ := Adapter) hlong
  obtain ⟨-, haccepted, -⟩ := hall s 30005 5
  obtain ⟨fields, hfields, hrun⟩ := haccepted hholds hfits _ _ _ _ hsplit
  obtain ⟨-, -, hunstamped, -⟩ := hall s 30005 6
  obtain ⟨-, -, -, hall'⟩ := handleIp_decided (τ := Adapter) hlonger
  obtain ⟨-, -, -, hrefused⟩ := hall' s 30005 6
  obtain ⟨error, hrun'⟩ := hrefused hnot
  refine ⟨hlong, hsplit, ?_, hunstamped hholds hends, hlonger, hnot, congrArg (·.state) hrun'⟩
  rw [hrun, ← hfields]
  cases hc
  rfl

/-- With the longest lifetime that can be set, a well-formed frame is not accepted at all by a clock
that counts its seconds in 63 bits. -/
theorem handleIp_unstamped :
    ∃ s : Interface Adapter,
      ((create { address := ⟨192, 168, 1, 1⟩, mask := ⟨255, 255, 255, 0⟩
                 lifetime := Config.longestLifetime } 0).run
        ({ address := {} } : Adapter)).value = .ok s ∧
      let bytes := ((Datagram.make { dest := ⟨192, 168, 1, 1⟩ } [] [7]).toFrame {} {}).bytes
      Ethernet.Frame.ofBytes bytes = .ok ⟨bytes⟩ ∧ Ipv4.Holds bytes ∧
        ((handleIp? Clock.lastTime 0 ⟨bytes⟩).run s).value = none ∧
        ((handleIp? Clock.lastTime 0 ⟨bytes⟩).run s).state.receiveQueue = .empty := by
  obtain ⟨s, hc⟩ : ∃ s, ((create { address := ⟨192, 168, 1, 1⟩, mask := ⟨255, 255, 255, 0⟩
                                   lifetime := Config.longestLifetime } 0).run
      ({ address := {} } : Adapter)).value = .ok s := ⟨_, rfl⟩
  refine ⟨s, hc, ?_⟩
  intro bytes
  have hframe : Ethernet.Frame.ofBytes bytes = .ok ⟨bytes⟩ := rfl
  cases hc
  refine ⟨hframe, ?_, ?_, ?_⟩
  · decide +kernel
  · decide +kernel
  · decide +kernel

end Interface
end LinkLayer
