import LinkLayer.FormatError

/-!
Byte strings, checked access to a range of them, and big-endian 16-bit words. A range is written in
place or not at all.
-/
namespace LinkLayer

abbrev Bytes := List UInt8

namespace Bytes

variable {bytes new result : Bytes} {start len : Nat}

/-- The most bytes that one allocation can have. Asking for more ends the program. -/
def maxAllocation : Nat := UInt64.size / 2 - 1

/-- The `len` bytes from `start` on, if there are that many. -/
def read (bytes : Bytes) (start len : Nat) : Except FormatError Bytes :=
  if start + len ≤ bytes.length then .ok ((bytes.drop start).take len) else .error .outOfRange

/-- Puts `new` over the bytes from `start` on, if it fits. -/
def write (bytes : Bytes) (start : Nat) (new : Bytes) : Except FormatError Bytes :=
  if start + new.length ≤ bytes.length then
    .ok (bytes.take start ++ new ++ bytes.drop (start + new.length))
  else .error .outOfRange

theorem read_of_le (h : start + len ≤ bytes.length) :
    read bytes start len = .ok ((bytes.drop start).take len) := if_pos h

/-- What is read stands in the bytes at that place. -/
theorem read_eq_ok_iff : read bytes start len = .ok result ↔
    ∃ before after, bytes = before ++ result ++ after ∧
      before.length = start ∧ result.length = len := by
  unfold read
  constructor
  · split
    · rintro ⟨⟩
      refine ⟨bytes.take start, bytes.drop (start + len), ?_, ?_, ?_⟩
      · rw [← List.drop_drop, List.append_assoc, List.take_append_drop, List.take_append_drop]
      · simp
        omega
      · simp
        omega
    · simp
  · rintro ⟨before, after, rfl, rfl, rfl⟩
    simp

theorem length_of_read (h : read bytes start len = .ok result) : result.length = len := by
  unfold read at h
  split at h <;> simp_all
  subst h
  simp
  omega

theorem length_write (h : write bytes start new = .ok result) : result.length = bytes.length := by
  unfold write at h
  split at h <;> simp_all
  subst h
  simp
  omega

/-- Two bytes as a number, the high byte first. -/
def word (hi lo : UInt8) : UInt16 := UInt16.ofNat (hi.toNat * 256 + lo.toNat)

/-- The two bytes of a number, the high byte first. -/
def ofWord (w : UInt16) : Bytes := [UInt8.ofNat (w.toNat / 256), w.toUInt8]

@[simp] theorem length_ofWord (w : UInt16) : (ofWord w).length = 2 := rfl

@[simp] theorem toNat_word (hi lo : UInt8) : (word hi lo).toNat = hi.toNat * 256 + lo.toNat := by
  have := hi.toNat_lt
  have := lo.toNat_lt
  simp [word]
  omega

@[simp] theorem word_ofWord (w : UInt16) :
    word (UInt8.ofNat (w.toNat / 256)) w.toUInt8 = w := by
  apply UInt16.toNat_inj.mp
  have := w.toNat_lt
  simp
  omega

@[simp] theorem ofWord_word (hi lo : UInt8) : ofWord (word hi lo) = [hi, lo] := by
  have := hi.toNat_lt
  have := lo.toNat_lt
  simp only [ofWord, toNat_word, List.cons.injEq, and_true]
  constructor
  · apply UInt8.toNat_inj.mp
    simp
    omega
  · apply UInt8.toNat_inj.mp
    simp

/-- The word at `start`. -/
def readWord (bytes : Bytes) (start : Nat) : Except FormatError UInt16 :=
  match bytes.drop start with
  | hi :: lo :: _ => .ok (word hi lo)
  | _ => .error .outOfRange

/-- The byte at `start`. -/
def readByte (bytes : Bytes) (start : Nat) : Except FormatError UInt8 :=
  match bytes.drop start with
  | b :: _ => .ok b
  | [] => .error .outOfRange

end Bytes

/-- Two lowercase hexadecimal digits. -/
def hexByte (b : UInt8) : String :=
  String.ofList [Nat.digitChar (b.toNat / 16), Nat.digitChar (b.toNat % 16)]

end LinkLayer
