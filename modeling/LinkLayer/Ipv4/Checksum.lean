import LinkLayer.Ipv4.Header

/-!
The checksum of a header and its options: the complement of the sum of their 16-bit words with
carries added back at the low end. The checksum field itself is not part of the sum.
-/
namespace LinkLayer.Ipv4

/-- The 16-bit words of bytes, the high byte first. An odd last byte is the high byte of a word. -/
def words : Bytes → List Nat
  | hi :: lo :: rest => (Bytes.word hi lo).toNat :: words rest
  | [hi] => [(Bytes.word hi 0).toNat]
  | [] => []

/-- Adds what exceeds sixteen bits at the low end until nothing does. -/
def foldCarries (sum : Nat) : Nat :=
  if sum ≤ 0xffff then sum else foldCarries (sum % 0x10000 + sum / 0x10000)
termination_by sum
decreasing_by omega

theorem foldCarries_le (sum : Nat) : foldCarries sum ≤ 0xffff := by
  fun_induction foldCarries sum <;> assumption

/-- Folding keeps the sum modulo 65535. -/
theorem foldCarries_mod (sum : Nat) : foldCarries sum % 0xffff = sum % 0xffff := by
  fun_induction foldCarries sum
  · rfl
  · rename_i ih
    rw [ih]
    omega

theorem foldCarries_eq_zero {sum : Nat} : foldCarries sum = 0 ↔ sum = 0 := by
  fun_induction foldCarries sum
  · rfl
  · rename_i ih
    rw [ih]
    omega

namespace Header

/-- The sum of the header words other than the checksum, and of the words of the options. -/
def wordSum (header : Header) (options : Bytes) : Nat :=
  (words { header with checksum := 0 }.toBytes ++ words options).foldl (· + ·) 0

/-- The checksum that belongs to the header and these options. -/
def computeChecksum (header : Header) (options : Bytes) : UInt16 :=
  UInt16.ofNat (0xffff - foldCarries (header.wordSum options))

def setChecksum (header : Header) (options : Bytes) : Header :=
  { header with checksum := header.computeChecksum options }

/-- The checksum field holds what it should. -/
def checksumValid (header : Header) (options : Bytes) : Bool :=
  header.checksum == header.computeChecksum options

@[simp] theorem wordSum_checksum (header : Header) (checksum : UInt16) (options : Bytes) :
    { header with checksum }.wordSum options = header.wordSum options := rfl

@[simp] theorem checksumValid_setChecksum (header : Header) (options : Bytes) :
    (header.setChecksum options).checksumValid options = true := by
  simp [checksumValid, setChecksum, computeChecksum]

end Header
end LinkLayer.Ipv4
