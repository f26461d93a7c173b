import LinkLayer.Proofs.EndAroundCarry
import LinkLayer.Proofs.Grammar

/-!
What the checksum notices. Main statement: a header that is valid with its options is not valid any
more once any one bit of them is flipped, and stays valid when whole words outside the checksum
change places (`damage_noticed`).
-/
namespace LinkLayer

namespace Bytes

variable {bytes : Bytes} {i j n : Nat} {bit : Fin 8}

/-- One bit of the byte at `i` is flipped. -/
def flipBit (bytes : Bytes) (i : Nat) (bit : Fin 8) : Bytes :=
  bytes.modify i (· ^^^ (1 <<< UInt8.ofNat bit))

/-- The 16-bit words at `i` and `j` change places. -/
def swapWords (bytes : Bytes) (i j : Nat) : Bytes :=
  bytes.mapIdx fun n b =>
    if n / 2 = i then bytes.getD (2 * j + n % 2) b
    else if n / 2 = j then bytes.getD (2 * i + n % 2) b
    else b

@[simp] theorem length_flipBit (bytes : Bytes) (i : Nat) (bit : Fin 8) :
    (bytes.flipBit i bit).length = bytes.length := List.length_modify ..

@[simp] theorem length_swapWords (bytes : Bytes) (i j : Nat) :
    (bytes.swapWords i j).length = bytes.length := List.length_mapIdx

/-- A flipped bit makes a byte larger or smaller by the value of that bit. -/
theorem toNat_flip (b : UInt8) (bit : Fin 8) :
    (b ^^^ (1 <<< UInt8.ofNat bit)).toNat = b.toNat + 2 ^ bit.val ∨
      b.toNat = (b ^^^ (1 <<< UInt8.ofNat bit)).toNat + 2 ^ bit.val := by
  have hall : ∀ n < 256, ∀ bit : Fin 8,
      (UInt8.ofNat n ^^^ (1 <<< UInt8.ofNat bit)).toNat = n + 2 ^ bit.val ∨
        n = (UInt8.ofNat n ^^^ (1 <<< UInt8.ofNat bit)).toNat + 2 ^ bit.val := by
    decide +kernel
  have hb := hall b.toNat b.toNat_lt bit
  rwa [UInt8.ofNat_toNat] at hb

theorem getD_swapWords (hi : 2 * i + 1 < bytes.length) (hj : 2 * j + 1 < bytes.length) (n : Nat) :
    (bytes.swapWords i j).getD n 0 =
      if n / 2 = i then bytes.getD (2 * j + n % 2) 0
      else if n / 2 = j then bytes.getD (2 * i + n % 2) 0
      else bytes.getD n 0 := by
  by_cases hn : n < bytes.length
  · have hi' : 2 * i + n % 2 < bytes.length := by omega
    have hj' : 2 * j + n % 2 < bytes.length := by omega
    simp only [swapWords, List.getD_eq_getElem?_getD, List.getElem?_mapIdx,
      List.getElem?_eq_getElem hn, List.getElem?_eq_getElem hi', List.getElem?_eq_getElem hj',
      Option.map_some, Option.getD_some]
  · have hlength := length_swapWords bytes i j
    rw [if_neg (by omega), if_neg (by omega), List.getD_eq_getElem?_getD,
      List.getD_eq_getElem?_getD, List.getElem?_eq_none (by omega),
      List.getElem?_eq_none (by omega)]

end Bytes

namespace Ipv4

variable {bytes : Bytes} {i j n : Nat} {bit : Fin 8}

theorem getElem_words (h : n < (words bytes).length) :
    (words bytes)[n] =
      (bytes.getD (2 * n) 0).toNat * 256 + (bytes.getD (2 * n + 1) 0).toNat := by
  fun_induction words bytes generalizing n with
  | case1 hi lo rest ih =>
    cases n with
    | zero => exact Bytes.toNat_word hi lo
    | succ n => exact ih (Nat.lt_of_succ_lt_succ h)
  | case2 hi =>
    obtain rfl : n = 0 := by simpa using h
    exact Bytes.toNat_word hi 0
  | case3 => cases h

/-- A flipped bit makes the sum of the words larger or smaller by a power of two that fits into a
word. In an even place it counts 256 times what it counts in an odd one. -/
theorem sum_words_flipBit (h : i < bytes.length) (bit : Fin 8) : ∃ e < 16,
    (words (bytes.flipBit i bit)).sum = (words bytes).sum + 2 ^ e ∨
      (words bytes).sum = (words (bytes.flipBit i bit)).sum + 2 ^ e := by
  have hhigh : 2 ^ (bit.val + 8) = 2 ^ bit.val * 256 := Nat.pow_add ..
  fun_induction words bytes generalizing i with
  | case1 hi lo rest ih =>
    rcases i with _ | _ | i
    · have hflip := Bytes.toNat_flip hi bit
      refine ⟨bit.val + 8, by omega, ?_⟩
      simp only [Bytes.flipBit, List.modify_zero_cons, words, List.sum_cons, Bytes.toNat_word]
      omega
    · have hflip := Bytes.toNat_flip lo bit
      refine ⟨bit.val, by omega, ?_⟩
      simp only [Bytes.flipBit, List.modify_succ_cons, List.modify_zero_cons, words, List.sum_cons,
        Bytes.toNat_word]
      omega
    · obtain ⟨e, he, hsum⟩ := ih (i := i) (by simp only [List.length_cons] at h; omega)
      refine ⟨e, he, ?_⟩
      simp only [Bytes.flipBit, List.modify_succ_cons, words, List.sum_cons] at hsum ⊢
      omega
  | case2 hi =>
    obtain rfl : i = 0 := by simpa using h
    have hflip := Bytes.toNat_flip hi bit
    refine ⟨bit.val + 8, by omega, ?_⟩
    simp only [Bytes.flipBit, List.modify_zero_cons, words, List.sum_cons, Bytes.toNat_word]
    omega
  | case3 => cases h

/-- A multiple of 65535 is none any more when a power of two below is added. -/
theorem not_dvd_add_two_pow {e sum : Nat} (he : e < 16) (h : 0xffff ∣ sum) :
    ¬ 0xffff ∣ sum + 2 ^ e := by
  intro hadd
  have hpow : 0xffff ∣ 2 ^ e := (Nat.dvd_add_right h).mp hadd
  have hall : ∀ e < 16, ¬ 0xffff ∣ 2 ^ e := by decide
  exact hall e he hpow

theorem not_dvd_flipBit (h : i < bytes.length) (hd : 0xffff ∣ (words bytes).sum) :
    ¬ 0xffff ∣ (words (bytes.flipBit i bit)).sum := by
  obtain ⟨e, he, hmore | hless⟩ := sum_words_flipBit h bit
  · rw [hmore]
    exact not_dvd_add_two_pow he hd
  · intro hflip
    rw [hless] at hd
    exact not_dvd_add_two_pow he hflip hd

theorem lt_length_words (h : 2 * i + 1 < bytes.length) : i < (words bytes).length := by
  rw [length_words]
  omega

/-- Words that change places in the bytes change places in the list of words. -/
theorem words_swapWords (hi : 2 * i + 1 < bytes.length) (hj : 2 * j + 1 < bytes.length)
    (hiw : i < (words bytes).length) (hjw : j < (words bytes).length) :
    words (bytes.swapWords i j) =
      ((words bytes).set i (words bytes)[j]).set j (words bytes)[i] := by
  apply List.ext_getElem
  · simp [length_words]
  · intro n hn _
    have heven : 2 * n / 2 = n ∧ 2 * n % 2 = 0 := by omega
    have hodd : (2 * n + 1) / 2 = n ∧ (2 * n + 1) % 2 = 1 := by omega
    rw [getElem_words, Bytes.getD_swapWords hi hj, Bytes.getD_swapWords hi hj, heven.1, heven.2,
      hodd.1, hodd.2, List.getElem_set, List.getElem_set]
    by_cases hnj : n = j
    · subst hnj
      by_cases hni : n = i
      · subst hni
        simp [getElem_words]
      · simp [getElem_words, hni]
    · by_cases hni : n = i
      · subst hni
        simp [getElem_words, Ne.symm hnj]
      · simp [getElem_words, hni, hnj, Ne.symm hni, Ne.symm hnj]

theorem sum_words_swapWords (hi : 2 * i + 1 < bytes.length) (hj : 2 * j + 1 < bytes.length) :
    (words (bytes.swapWords i j)).sum = (words bytes).sum := by
  have hiw := lt_length_words hi
  have hjw := lt_length_words hj
  rw [words_swapWords hi hj hiw hjw]
  exact (List.set_set_perm hiw hjw).sum_nat

/-- Every other word stays where it is. -/
theorem getElem?_words_swapWords (hi : 2 * i + 1 < bytes.length) (hj : 2 * j + 1 < bytes.length)
    (hni : n ≠ i) (hnj : n ≠ j) : (words (bytes.swapWords i j))[n]? = (words bytes)[n]? := by
  rw [words_swapWords hi hj (lt_length_words hi) (lt_length_words hj),
    List.getElem?_set_ne hnj.symm, List.getElem?_set_ne hni.symm]

namespace Header

variable {header other : Header} {options rest : Bytes}

/-- What is long enough is a header and what follows it. -/
theorem exists_toBytes_append (h : headerLength ≤ bytes.length) :
    ∃ (header : Header) (rest : Bytes), bytes = header.toBytes ++ rest := by
  have htake : (bytes.take headerLength).length = headerLength := by
    rw [List.length_take]
    omega
  obtain ⟨header, hheader⟩ := exists_toBytes htake
  exact ⟨header, bytes.drop headerLength, by rw [hheader, List.take_append_drop]⟩

theorem words_toBytes_append (header : Header) (rest : Bytes) :
    words (header.toBytes ++ rest) = words header.toBytes ++ words rest :=
  words_append (by rw [length_toBytes]; rfl)

/-- The checksum is the sixth word. -/
theorem getElem?_words_toBytes (header : Header) (rest : Bytes) :
    (words (header.toBytes ++ rest))[5]? = some header.checksum.toNat := by
  have hfirst : (words (header.toBytes.take 10)).length = 5 := by
    rw [length_words, List.length_take, length_toBytes]
    rfl
  rw [words_toBytes_append, words_toBytes, List.append_assoc, List.append_assoc,
    List.getElem?_append_right (Nat.le_of_eq hfirst), hfirst]
  rfl

theorem dvd_of_checksumValid (h : header.checksumValid options = true) :
    0xffff ∣ (words (header.toBytes ++ options)).sum := by
  rw [words_toBytes_append]
  exact (foldCarries_eq_ones_iff.mp (checksumValid_iff_ones.mp h).1).2

/-- Only the checksum and the sum of all words count. -/
theorem checksumValid_congr (hchecksum : other.checksum = header.checksum)
    (hsum : (words (other.toBytes ++ rest)).sum = (words (header.toBytes ++ options)).sum) :
    other.checksumValid rest = header.checksumValid options := by
  have hword : other.wordSum rest = header.wordSum options := by
    rw [words_toBytes_append, words_toBytes_append, sum_words, sum_words, hchecksum] at hsum
    exact Nat.add_right_cancel hsum
  rw [checksumValid, checksumValid, computeChecksum, computeChecksum, hword, hchecksum]

/-- A header that is valid with its options is not valid any more when one bit is flipped, wherever
in the twenty bytes of the header or in the options that is. It stays valid when two whole words
change places, both of them outside the checksum. -/
theorem damage_noticed (h : header.checksumValid options = true) :
    let head : Bytes := header.toBytes ++ options
    (∀ i < head.length, ∀ bit, ∃ (other : Header) (rest : Bytes),
      head.flipBit i bit = other.toBytes ++ rest ∧ other.checksumValid rest = false) ∧
    (∀ i j, i ≠ 5 → j ≠ 5 → 2 * i + 1 < head.length → 2 * j + 1 < head.length →
      ∃ (other : Header) (rest : Bytes),
        head.swapWords i j = other.toBytes ++ rest ∧ other.checksumValid rest = true) := by
  intro head
  have hlength : headerLength ≤ head.length := by
    rw [List.length_append, length_toBytes]
    omega
  constructor
  · intro i hi bit
    have hflip : headerLength ≤ (head.flipBit i bit).length := by rwa [Bytes.length_flipBit]
    obtain ⟨other, rest, heq⟩ := exists_toBytes_append hflip
    refine ⟨other, rest, heq, ?_⟩
    rw [← Bool.not_eq_true]
    intro hvalid
    have hd := dvd_of_checksumValid hvalid
    rw [← heq] at hd
    exact not_dvd_flipBit hi (dvd_of_checksumValid h) hd
  · intro i j hi5 hj5 hi hj
    have hswap : headerLength ≤ (head.swapWords i j).length := by rwa [Bytes.length_swapWords]
    obtain ⟨other, rest, heq⟩ := exists_toBytes_append hswap
    refine ⟨other, rest, heq, ?_⟩
    have hchecksum : other.checksum = header.checksum := by
      have hfield := getElem?_words_swapWords hi hj hi5.symm hj5.symm
      rw [heq, getElem?_words_toBytes, getElem?_words_toBytes, Option.some.injEq] at hfield
      exact UInt16.toNat_inj.mp hfield
    have hsum : (words (other.toBytes ++ rest)).sum = (words head).sum := by
      rw [← heq]
      exact sum_words_swapWords hi hj
    rw [checksumValid_congr hchecksum hsum]
    exact h

/-- Three bytes of options, the last of them half a word: a bit of it counts, and so does one of the
checksum. The first words of the header and of the options change places unnoticed. -/
theorem damage_noticed_odd :
    let header : Header := {
      totalLength := 23, fragment := 0x4000, protocol := 17, checksum := 0xb4bb
      src := ⟨192, 168, 0, 1⟩, dest := ⟨192, 168, 0, 199⟩ }
    let head : Bytes := header.toBytes ++ [1, 2, 3]
    header.checksumValid [1, 2, 3] = true ∧
      (∃ (other : Header) (rest : Bytes),
        head.flipBit 22 7 = other.toBytes ++ rest ∧ other.checksumValid rest = false) ∧
      (∃ (other : Header) (rest : Bytes),
        head.flipBit 11 0 = other.toBytes ++ rest ∧ other.checksumValid rest = false) ∧
      ∃ (other : Header) (rest : Bytes),
        head.swapWords 0 10 = other.toBytes ++ rest ∧ other.checksumValid rest = true := by
  intro header head
  have hvalid : header.checksumValid [1, 2, 3] = true := by
    rw [checksumValid_iff, foldCarries_eq]
    decide
  obtain ⟨hflip, hswap⟩ := damage_noticed hvalid
  exact ⟨hvalid, hflip 22 (by decide) 7, hflip 11 (by decide) 0,
    hswap 0 10 (by decide) (by decide) (by decide) (by decide)⟩

end Header
end Ipv4
end LinkLayer
