import Mathlib.Algebra.Group.Action.Defs
import Mathlib.Algebra.Order.BigOperators.Group.List
import Mathlib.Algebra.Order.Ring.Nat
import Mathlib.Logic.Function.Iterate
import LinkLayer.Ipv4.Checksum

/-!
The checksum as a number. Main statement: the sum of the words fits into 32 bits and is folded in at
most two rounds; the checksum is what is missing to a multiple of 65535; and a header is valid just
if the sum of all its words is such a multiple, but for a field of all ones where zero is meant
(`checksum_exact`).
-/
namespace LinkLayer.Ipv4

variable {bytes more : Bytes} {sum w : Nat}

theorem words_append (h : bytes.length % 2 = 0) :
    words (bytes ++ more) = words bytes ++ words more := by
  fun_induction words bytes with
  | case1 hi lo rest ih =>
    simp only [List.length_cons] at h
    simp only [List.cons_append, words, ih (by omega)]
  | case2 hi => simp at h
  | case3 => rfl

theorem length_words (bytes : Bytes) : (words bytes).length = (bytes.length + 1) / 2 := by
  fun_induction words bytes with
  | case1 hi lo rest ih =>
    simp only [List.length_cons, ih]
    omega
  | case2 hi => simp
  | case3 => rfl

theorem le_of_mem_words (h : w ∈ words bytes) : w ≤ 0xffff := by
  fun_induction words bytes with
  | case1 hi lo rest ih =>
    rcases List.mem_cons.mp h with rfl | h
    · exact Nat.le_of_lt_succ (UInt16.toNat_lt _)
    · exact ih h
  | case2 hi =>
    obtain rfl := List.mem_singleton.mp h
    exact Nat.le_of_lt_succ (UInt16.toNat_lt _)
  | case3 => cases h

theorem sum_words_le (bytes : Bytes) : (words bytes).sum ≤ (bytes.length + 1) / 2 * 0xffff := by
  have h := List.sum_le_card_nsmul (words bytes) 0xffff fun w hw => le_of_mem_words hw
  rwa [length_words, smul_eq_mul] at h

/-- No value of the accumulator exceeds the last one. -/
theorem le_of_mem_scanl {ws : List Nat} {start acc : Nat} (h : acc ∈ ws.scanl (· + ·) start) :
    acc ≤ start + ws.sum := by
  induction ws generalizing start with
  | nil =>
    obtain rfl : acc = start := by simpa using h
    simp
  | cons w ws ih =>
    rw [List.sum_cons, ← Nat.add_assoc]
    rw [List.scanl_cons, List.mem_cons] at h
    rcases h with rfl | h
    · omega
    · exact ih h

/-- An accumulator of 32 bits holds the sum modulo 2 ^ 32. -/
theorem foldl_ofNat (ws : List Nat) (start : Nat) :
    ws.foldl (fun acc w => acc + UInt32.ofNat w) (UInt32.ofNat start) =
      UInt32.ofNat (start + ws.sum) := by
  induction ws generalizing start with
  | nil => rfl
  | cons w ws ih => rw [List.foldl_cons, ← UInt32.ofNat_add, ih, List.sum_cons, Nat.add_assoc]

/-- One round of the folding. -/
def carry (sum : Nat) : Nat := sum % 0x10000 + sum / 0x10000

/-- Folding goes on for as many rounds as there is something to carry. -/
theorem foldCarries_eq_iterate (sum : Nat) : ∃ rounds, foldCarries sum = carry^[rounds] sum ∧
    ∀ r < rounds, 0xffff < carry^[r] sum := by
  fun_induction foldCarries sum with
  | case1 sum h => exact ⟨0, rfl, by simp⟩
  | case2 sum h ih =>
    obtain ⟨rounds, hr, hlarge⟩ := ih
    refine ⟨rounds + 1, hr, ?_⟩
    intro r hlt
    cases r with
    | zero => exact Nat.lt_of_not_le h
    | succ r => exact hlarge r (Nat.lt_of_succ_lt_succ hlt)

/-- A sum of 32 bits is folded in two rounds at most. -/
theorem carry_carry_le (h : sum < 2 ^ 32) : carry (carry sum) ≤ 0xffff := by
  simp only [carry]
  omega

/-- Folding gives the remainder modulo 65535, with 65535 for the zero of a sum that is none. -/
theorem foldCarries_eq (sum : Nat) :
    foldCarries sum = if sum = 0 then 0 else (sum - 1) % 0xffff + 1 := by
  have hle := foldCarries_le sum
  have hmod := foldCarries_mod sum
  have hzero : foldCarries sum = 0 ↔ sum = 0 := foldCarries_eq_zero
  split
  · omega
  · omega

theorem foldCarries_eq_ones_iff : foldCarries sum = 0xffff ↔ 0 < sum ∧ 0xffff ∣ sum := by
  rw [foldCarries_eq]
  split
  · omega
  · omega

namespace Header

/-- The words that are added up: those of the header but for the checksum, and those of the
options. -/
def summands (header : Header) (options : Bytes) : List Nat :=
  words (header.toBytes.take 10) ++ words (header.toBytes.drop 12) ++ words options

theorem toBytes_checksum (header : Header) (checksum : UInt16) :
    { header with checksum }.toBytes =
      header.toBytes.take 10 ++ Bytes.ofWord checksum ++ header.toBytes.drop 12 := rfl

theorem words_ofWord (word : UInt16) : words (Bytes.ofWord word) = [word.toNat] := by
  simp only [Bytes.ofWord, words, Bytes.word_ofWord]

theorem words_toBytes (header : Header) :
    words header.toBytes = words (header.toBytes.take 10) ++ [header.checksum.toNat] ++
      words (header.toBytes.drop 12) := by
  have h : header.toBytes = header.toBytes.take 10 ++ Bytes.ofWord header.checksum ++
      header.toBytes.drop 12 := rfl
  have hfirst : (header.toBytes.take 10).length % 2 = 0 := by simp [headerLength]
  have hfield : (header.toBytes.take 10 ++ Bytes.ofWord header.checksum).length % 2 = 0 := by
    simp [headerLength]
  conv_lhs => rw [h, words_append hfield, words_append hfirst, words_ofWord]

theorem wordSum_eq (header : Header) (options : Bytes) :
    header.wordSum options = (header.summands options).sum := by
  rw [wordSum, ← List.sum_eq_foldl, words_toBytes, summands]
  simp only [List.sum_append, List.sum_singleton, UInt16.toNat_zero, Nat.add_zero]
  rfl

/-- The sum of all words, with the checksum. -/
theorem sum_words (header : Header) (options : Bytes) :
    (words header.toBytes ++ words options).sum =
      header.wordSum options + header.checksum.toNat := by
  rw [wordSum_eq, words_toBytes, summands]
  simp only [List.sum_append, List.sum_singleton]
  omega

/-- Nine words of the header and those of the options. -/
theorem wordSum_le (header : Header) (options : Bytes) :
    header.wordSum options ≤ (9 + (options.length + 1) / 2) * 0xffff := by
  have hfirst := sum_words_le (header.toBytes.take 10)
  have hlast := sum_words_le (header.toBytes.drop 12)
  rw [List.length_take, length_toBytes] at hfirst
  rw [List.length_drop, length_toBytes] at hlast
  simp only [headerLength] at hfirst hlast
  have hoptions := sum_words_le options
  rw [wordSum_eq, summands, List.sum_append, List.sum_append]
  omega

theorem toNat_computeChecksum (header : Header) (options : Bytes) :
    (header.computeChecksum options).toNat = 0xffff - foldCarries (header.wordSum options) := by
  rw [computeChecksum, UInt16.toNat_ofNat']
  omega

theorem checksumValid_iff {header : Header} {options : Bytes} :
    header.checksumValid options = true ↔
      header.checksum.toNat = 0xffff - foldCarries (header.wordSum options) := by
  rw [checksumValid, beq_iff_eq, ← UInt16.toNat_inj, toNat_computeChecksum]

/-- What is valid passes the test of a receiver. The converse fails only for a field of all ones,
which is zero as well but not what is written. -/
theorem checksumValid_iff_ones {header : Header} {options : Bytes} :
    header.checksumValid options = true ↔
      foldCarries (words header.toBytes ++ words options).sum = 0xffff ∧
        ¬ (header.checksum = 0xffff ∧ 0 < header.wordSum options) := by
  have hlt := header.checksum.toNat_lt
  have hones : header.checksum = 0xffff ↔ header.checksum.toNat = 0xffff := by
    rw [← UInt16.toNat_inj]
    rfl
  rw [checksumValid_iff, hones, foldCarries_eq_ones_iff, sum_words, foldCarries_eq]
  split
  · omega
  · omega

@[simp] theorem setChecksum_setChecksum (header : Header) (options : Bytes) :
    (header.setChecksum options).setChecksum options = header.setChecksum options := rfl

/-- Added up in 32 bits, the words of a header with so many bytes of options are never more than 32
bits can hold, and two rounds fold their sum into sixteen. The checksum is the complement of what
they leave modulo 65535, where no sum but zero leaves zero. To set it changes the two bytes of its
field alone, it may be set again, and then it is valid. A receiver adds it to the sum and expects
all ones, that is a multiple of 65535 that is not zero. A header passes here just if it passes
there, but for one with all ones in the field and any other word that is not zero. -/
theorem checksum_exact (header : Header) (options : Bytes) (hl : options.length ≤ 131056) :
    let ws := header.summands options
    let c := header.checksum.toNat
    (∀ acc ∈ ws.scanl (· + ·) 0, acc ≤ 2 ^ 32 - 1) ∧
    (ws.foldl (fun acc w => acc + UInt32.ofNat w) (0 : UInt32)).toNat = ws.sum ∧
    (∃ rounds ≤ 2, foldCarries ws.sum = carry^[rounds] ws.sum ∧ carry^[rounds] ws.sum ≤ 0xffff ∧
      ∀ r < rounds, 0xffff < carry^[r] ws.sum) ∧
    (header.computeChecksum options).toNat =
      65535 - (if ws.sum = 0 then 0 else (ws.sum - 1) % 65535 + 1) ∧
    (header.setChecksum options).toBytes = header.toBytes.take 10 ++
      Bytes.ofWord (header.computeChecksum options) ++ header.toBytes.drop 12 ∧
    (header.setChecksum options).setChecksum options = header.setChecksum options ∧
    (header.setChecksum options).checksumValid options = true ∧
    (foldCarries (words header.toBytes ++ words options).sum = 0xffff ↔
      0 < ws.sum + c ∧ 65535 ∣ ws.sum + c) ∧
    (header.checksumValid options = true ↔
      (0 < ws.sum + c ∧ 65535 ∣ ws.sum + c) ∧ ¬ (c = 0xffff ∧ 0 < ws.sum)) := by
  intro ws c
  have hsum : header.wordSum options = ws.sum := header.wordSum_eq options
  have hle := header.wordSum_le options
  have hfits : ws.sum ≤ 2 ^ 32 - 1 := by omega
  refine ⟨?_, ?_, ?_, ?_, ?_, ?_, ?_, ?_, ?_⟩
  · intro acc hacc
    have hacc := le_of_mem_scanl hacc
    omega
  · have hmod := congrArg UInt32.toNat (foldl_ofNat ws 0)
    rw [Nat.zero_add, UInt32.toNat_ofNat'] at hmod
    exact hmod.trans (Nat.mod_eq_of_lt (by omega))
  · obtain ⟨rounds, hfold, hlarge⟩ := foldCarries_eq_iterate ws.sum
    refine ⟨rounds, ?_, hfold, hfold ▸ foldCarries_le ws.sum, hlarge⟩
    by_contra hmany
    have hthird := hlarge 2 (Nat.lt_of_not_le hmany)
    have htwo : carry (carry ws.sum) ≤ 0xffff := carry_carry_le (by omega)
    exact absurd htwo (Nat.not_le_of_lt hthird)
  · rw [toNat_computeChecksum, foldCarries_eq, hsum]
  · exact header.toBytes_checksum _
  · exact setChecksum_setChecksum header options
  · exact checksumValid_setChecksum header options
  · rw [foldCarries_eq_ones_iff, sum_words, hsum]
  · rw [checksumValid_iff_ones, foldCarries_eq_ones_iff, sum_words, hsum]
    rw [← UInt16.toNat_inj]
    rfl

theorem words_replicate (n : Nat) :
    words (List.replicate (2 * n) 255) = List.replicate n 0xffff := by
  induction n with
  | zero => rfl
  | succ n ih =>
    rw [Nat.mul_succ, List.replicate_succ, List.replicate_succ, words, ih, List.replicate_succ]
    rfl

/-- All words are ones, and so is the field where zero belongs: the sum is the largest that 32 bits
hold, and a receiver would not object. -/
theorem checksum_exact_all_ones :
    let header : Header := {
      version := 15, ihl := 15, tos := 255, totalLength := 0xffff, identification := 0xffff
      fragment := 0xffff, ttl := 255, protocol := 255, checksum := 0xffff
      src := .broadcast, dest := .broadcast }
    let options : Bytes := List.replicate 131056 255
    options.length ≤ 131056 ∧ (header.summands options).sum = 2 ^ 32 - 1 ∧
      (header.computeChecksum options).toNat = 0 ∧
      foldCarries (words header.toBytes ++ words options).sum = 0xffff ∧
      header.checksumValid options = false := by
  intro header options
  have hl : options.length ≤ 131056 := Nat.le_of_eq List.length_replicate
  have hoptions : words options = List.replicate 65528 0xffff := words_replicate 65528
  have hsum : (header.summands options).sum = 2 ^ 32 - 1 := by
    have hfirst : words (header.toBytes.take 10) = [0xffff, 0xffff, 0xffff, 0xffff, 0xffff] := by
      decide
    have hlast : words (header.toBytes.drop 12) = [0xffff, 0xffff, 0xffff, 0xffff] := by decide
    rw [summands, hfirst, hlast, hoptions, List.sum_append_nat, List.sum_replicate_nat]
    rfl
  obtain ⟨-, -, -, hcompute, -, -, -, hones, hvalid⟩ := checksum_exact header options hl
  rw [hsum] at hcompute hones hvalid
  refine ⟨hl, hsum, hcompute, hones.mpr ⟨by decide, by decide⟩, ?_⟩
  rw [← Bool.not_eq_true, hvalid]
  decide

end Header
end LinkLayer.Ipv4
