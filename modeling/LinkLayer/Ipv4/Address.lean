import LinkLayer.Bytes

/-!
IPv4 addresses and what a subnet mask says about them. A mask may be any four octets: its one bits
are the network part of an address and its zero bits the host part.
-/
namespace LinkLayer.Ipv4

structure Address where
  a : UInt8 := 0
  b : UInt8 := 0
  c : UInt8 := 0
  d : UInt8 := 0
deriving DecidableEq, Repr, Inhabited

namespace Address

variable {ip : Address} {bytes : Bytes}

/-- The address 0.0.0.0, which stands for no address. -/
def unspecified : Address := ⟨0, 0, 0, 0⟩

def broadcast : Address := ⟨255, 255, 255, 255⟩

def toBytes (ip : Address) : Bytes := [ip.a, ip.b, ip.c, ip.d]

/-- Exactly four bytes are an address. -/
def ofBytes : Bytes → Except FormatError Address
  | [a, b, c, d] => .ok ⟨a, b, c, d⟩
  | _ => .error .ipLength

@[simp] theorem length_toBytes (ip : Address) : ip.toBytes.length = 4 := rfl

@[simp] theorem ofBytes_toBytes (ip : Address) : ofBytes ip.toBytes = .ok ip := rfl

theorem toBytes_of_ofBytes (h : ofBytes bytes = .ok ip) : ip.toBytes = bytes := by
  unfold ofBytes at h
  split at h <;> simp_all
  subst h
  rfl

theorem ofBytes_ok_iff : (∃ ip, ofBytes bytes = .ok ip) ↔ bytes.length = 4 := by
  constructor
  · intro ⟨ip, h⟩
    simp [← toBytes_of_ofBytes h]
  · intro h
    match bytes, h with
    | [a, b, c, d], _ => exact ⟨_, rfl⟩

/-- The bits of the address under the mask. -/
def network (ip mask : Address) : Address :=
  ⟨ip.a &&& mask.a, ip.b &&& mask.b, ip.c &&& mask.c, ip.d &&& mask.d⟩

/-- The bits of the address outside the mask. -/
def host (ip mask : Address) : Address :=
  ⟨ip.a &&& ~~~mask.a, ip.b &&& ~~~mask.b, ip.c &&& ~~~mask.c, ip.d &&& ~~~mask.d⟩

/-- The host part that broadcasts on a network: every bit outside the mask is one. -/
def allHosts (mask : Address) : Address := ⟨~~~mask.a, ~~~mask.b, ~~~mask.c, ~~~mask.d⟩

/-- A host part of zeros names the network and one of ones its broadcast address. Neither names a
host, so under a mask without host bits no address does. -/
def namesHost (ip mask : Address) : Bool :=
  ip.host mask != unspecified && ip.host mask != allHosts mask

/-- Two addresses are on one network if they agree under the mask. -/
def sameNetwork (ip other mask : Address) : Bool := ip.network mask == other.network mask

@[simp] theorem sameNetwork_self (ip mask : Address) : ip.sameNetwork ip mask = true := by
  simp [sameNetwork]

/-- Dotted decimal. -/
def text (ip : Address) : String :=
  ".".intercalate (ip.toBytes.map fun octet => toString octet.toNat)

end Address
end LinkLayer.Ipv4
