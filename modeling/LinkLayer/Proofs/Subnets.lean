import LinkLayer.Config

/-!
Addresses and masks as 32 bits. Main statements: an address names no host just if its bits outside
the mask are all zero or all one (`namesHost_eq_false_iff`), and two addresses are on one network
just if they agree in every bit of the mask (`sameNetwork_iff`). The ones of a mask may be anywhere.
-/
namespace LinkLayer.Ipv4.Address

variable {ip other mask : Address}

/-- The bits of an address. Those of the first octet are the highest. -/
def bits (ip : Address) : BitVec 32 :=
  ip.a.toBitVec ++ ip.b.toBitVec ++ ip.c.toBitVec ++ ip.d.toBitVec

/-- Every bit outside the mask is `b`. -/
def AllOutside (ip mask : Address) (b : Bool) : Prop :=
  ∀ i < 32, mask.bits.getLsbD i = false → ip.bits.getLsbD i = b

/-- The addresses have the same bits under the mask. -/
def AgreesUnder (ip other mask : Address) : Prop :=
  ∀ i < 32, mask.bits.getLsbD i = true → ip.bits.getLsbD i = other.bits.getLsbD i

instance {b : Bool} : Decidable (ip.AllOutside mask b) :=
  inferInstanceAs (Decidable (∀ i < 32, mask.bits.getLsbD i = false → ip.bits.getLsbD i = b))

instance : Decidable (ip.AgreesUnder other mask) :=
  inferInstanceAs (Decidable (∀ i < 32, mask.bits.getLsbD i = true →
    ip.bits.getLsbD i = other.bits.getLsbD i))

theorem append_octet_inj {n : Nat} {x y : BitVec n} {v w : UInt8} :
    x ++ v.toBitVec = y ++ w.toBitVec ↔ x = y ∧ v = w := by
  constructor
  · intro h
    have hlow := congrArg (BitVec.setWidth 8) h
    have hhigh := congrArg (BitVec.extractLsb' 8 n) h
    rw [BitVec.setWidth_append_eq_right, BitVec.setWidth_append_eq_right] at hlow
    rw [BitVec.extractLsb'_append_eq_left, BitVec.extractLsb'_append_eq_left] at hhigh
    exact ⟨hhigh, UInt8.toBitVec_inj.mp hlow⟩
  · rintro ⟨rfl, rfl⟩
    rfl

theorem bits_inj : ip.bits = other.bits ↔ ip = other := by
  obtain ⟨a, b, c, d⟩ := ip
  obtain ⟨a', b', c', d'⟩ := other
  constructor
  · intro h
    obtain ⟨h, rfl⟩ := append_octet_inj.mp h
    obtain ⟨h, rfl⟩ := append_octet_inj.mp h
    obtain ⟨h, rfl⟩ := append_octet_inj.mp h
    obtain rfl := UInt8.toBitVec_inj.mp h
    rfl
  · intro h
    rw [h]

theorem bits_network : (ip.network mask).bits = ip.bits &&& mask.bits := by
  simp only [bits, network, UInt8.toBitVec_and, ← BitVec.and_append]

theorem bits_allHosts : (allHosts mask).bits = ~~~mask.bits := by
  simp only [bits, allHosts, UInt8.toBitVec_not, ← BitVec.not_append]

theorem host_eq_network (ip mask : Address) : ip.host mask = ip.network (allHosts mask) := rfl

theorem bits_host : (ip.host mask).bits = ip.bits &&& ~~~mask.bits := by
  rw [host_eq_network, bits_network, bits_allHosts]

theorem bits_unspecified : unspecified.bits = 0#32 := rfl

theorem host_eq_unspecified_iff : ip.host mask = unspecified ↔ ip.AllOutside mask false := by
  rw [← bits_inj, bits_host, bits_unspecified, BitVec.eq_of_getLsbD_eq_iff]
  refine forall₂_congr fun i hi => ?_
  simp only [BitVec.getLsbD_and, BitVec.getLsbD_not, hi, BitVec.getLsbD_zero, decide_true]
  cases mask.bits.getLsbD i <;> simp

theorem host_eq_allHosts_iff : ip.host mask = allHosts mask ↔ ip.AllOutside mask true := by
  rw [← bits_inj, bits_host, bits_allHosts, BitVec.eq_of_getLsbD_eq_iff]
  refine forall₂_congr fun i hi => ?_
  simp only [BitVec.getLsbD_and, BitVec.getLsbD_not, hi, decide_true]
  cases mask.bits.getLsbD i <;> simp

theorem namesHost_eq_false_iff :
    ip.namesHost mask = false ↔ ip.AllOutside mask false ∨ ip.AllOutside mask true := by
  rw [← host_eq_unspecified_iff, ← host_eq_allHosts_iff, namesHost, Bool.and_eq_false_iff,
    bne_eq_false_iff_eq, bne_eq_false_iff_eq]

/-- A mask with one host bit leaves no hosts. -/
example : (⟨10, 0, 0, 1⟩ : Address).namesHost ⟨255, 255, 255, 254⟩ = false := by decide

theorem sameNetwork_iff : ip.sameNetwork other mask = true ↔ ip.AgreesUnder other mask := by
  rw [sameNetwork, beq_iff_eq, ← bits_inj, bits_network, bits_network,
    BitVec.eq_of_getLsbD_eq_iff]
  refine forall₂_congr fun i _ => ?_
  simp only [BitVec.getLsbD_and]
  cases mask.bits.getLsbD i <;> simp

end LinkLayer.Ipv4.Address
