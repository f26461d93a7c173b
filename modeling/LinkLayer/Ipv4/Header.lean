import LinkLayer.Ipv4.Address

/-!
The fixed twenty bytes of an IPv4 header, field by field. Options travel beside the header. Main
statement: twenty bytes and a header determine each other (`ofBytes_toBytes`, `toBytes_of_ofBytes`).
-/
namespace LinkLayer.Ipv4

/-- The version that packets are of. -/
def version : Fin 16 := 4

/-- Words in a header without options. -/
def headerWords : Fin 16 := 5

/-- Length of a header without options. -/
def headerLength : Nat := 20

/-- Most bytes of options, since a header counts at most fifteen words of four bytes. -/
def maxOptionsLength : Nat := 40

/-- A header as it is written: `ihl` counts words of four bytes, options included. `tos` holds the
service code and congestion bits, `fragment` the flags and the offset of a fragment. -/
structure Header where
  version : Fin 16 := Ipv4.version
  ihl : Fin 16 := headerWords
  tos : UInt8 := 0
  totalLength : UInt16 := 20
  identification : UInt16 := 0
  fragment : UInt16 := 0
  ttl : UInt8 := 64
  protocol : UInt8 := 0
  checksum : UInt16 := 0
  src : Address := {}
  dest : Address := {}
deriving DecidableEq, Repr, Inhabited

namespace Header

variable {header : Header} {bytes : Bytes}

def versionByte (header : Header) : UInt8 := UInt8.ofNat (header.version.val * 16 + header.ihl.val)

def toBytes (header : Header) : Bytes :=
  [header.versionByte, header.tos] ++ Bytes.ofWord header.totalLength ++
    Bytes.ofWord header.identification ++ Bytes.ofWord header.fragment ++
    [header.ttl, header.protocol] ++ Bytes.ofWord header.checksum ++ header.src.toBytes ++
    header.dest.toBytes

/-- Reads the first twenty bytes; what follows them does not matter. -/
def ofBytes : Bytes → Except FormatError Header
  | v :: tos :: l₁ :: l₀ :: i₁ :: i₀ :: f₁ :: f₀ :: ttl :: protocol :: c₁ :: c₀ ::
      sa :: sb :: sc :: sd :: da :: db :: dc :: dd :: _ =>
    .ok {
      version := Fin.ofNat 16 (v.toNat / 16)
      ihl := Fin.ofNat 16 v.toNat
      tos
      totalLength := Bytes.word l₁ l₀
      identification := Bytes.word i₁ i₀
      fragment := Bytes.word f₁ f₀
      ttl
      protocol
      checksum := Bytes.word c₁ c₀
      src := ⟨sa, sb, sc, sd⟩
      dest := ⟨da, db, dc, dd⟩ }
  | _ => .error .headerTooShort

@[simp] theorem length_toBytes (header : Header) : header.toBytes.length = headerLength := rfl

theorem toNat_versionByte (header : Header) :
    header.versionByte.toNat = header.version.val * 16 + header.ihl.val := by
  have := header.version.isLt
  have := header.ihl.isLt
  simp [versionByte]
  omega

@[simp] theorem ofBytes_toBytes (header : Header) (rest : Bytes) :
    ofBytes (header.toBytes ++ rest) = .ok header := by
  have hv := header.toNat_versionByte
  have := header.version.isLt
  have := header.ihl.isLt
  obtain ⟨version, ihl, tos, total, id, fragment, ttl, protocol, checksum, src, dest⟩ := header
  simp only [toBytes, Bytes.ofWord, Address.toBytes, List.cons_append, List.nil_append, ofBytes,
    Bytes.word_ofWord, Except.ok.injEq, mk.injEq, and_true]
  simp only at *
  constructor
  · apply Fin.ext
    change _ / 16 % 16 = _
    omega
  · apply Fin.ext
    change _ % 16 = _
    omega

theorem toBytes_of_ofBytes (h : ofBytes bytes = .ok header) :
    bytes.take headerLength = header.toBytes := by
  unfold ofBytes at h
  split at h <;> cases h
  rename_i v _ _ _ _ _ _ _ _ _ _ _ _ _ _ _ _ _ _ _ _
  have := v.toNat_lt
  have hv :
      UInt8.ofNat ((Fin.ofNat 16 (v.toNat / 16)).val * 16 + (Fin.ofNat 16 v.toNat).val) = v := by
    change UInt8.ofNat (v.toNat / 16 % 16 * 16 + v.toNat % 16) = v
    apply UInt8.toNat_inj.mp
    simp
    omega
  simp only [toBytes, versionByte, hv, Bytes.ofWord_word, Address.toBytes]
  rfl

theorem ofBytes_ok_iff : (∃ header, ofBytes bytes = .ok header) ↔ headerLength ≤ bytes.length := by
  constructor
  · intro ⟨header, h⟩
    have := congrArg List.length (toBytes_of_ofBytes h)
    simp at this
    omega
  · intro h
    iterate 20
      rcases bytes with _ | ⟨_, bytes⟩
      · simp [headerLength] at h
    exact ⟨_, rfl⟩

/-- Service class of the packet. -/
def dscp (header : Header) : Nat := header.tos.toNat / 4

/-- Congestion marks of the packet. -/
def ecn (header : Header) : Nat := header.tos.toNat % 4

def dontFragment (header : Header) : Bool := header.fragment.toNat.testBit 14

def moreFragments (header : Header) : Bool := header.fragment.toNat.testBit 13

/-- Place of a fragment in its packet, in units of eight bytes. -/
def fragmentOffset (header : Header) : Nat := header.fragment.toNat % 0x2000

/-- Header length in bytes, options included, as the header states it. -/
def length (header : Header) : Nat := 4 * header.ihl.val

/-- States a header length in bytes. Only whole words count, and only up to fifteen of them. -/
def setLength (header : Header) (length : Nat) : Header :=
  { header with ihl := Fin.ofNat 16 (length / 4) }

end Header
end LinkLayer.Ipv4
