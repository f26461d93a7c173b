import LinkLayer.Bytes

/-! Hardware addresses: six octets, the first one first on the wire. -/
namespace LinkLayer

structure MacAddress where
  a : UInt8 := 0
  b : UInt8 := 0
  c : UInt8 := 0
  d : UInt8 := 0
  e : UInt8 := 0
  f : UInt8 := 0
deriving DecidableEq, Repr, Inhabited

namespace MacAddress

variable {mac : MacAddress} {bytes : Bytes}

def broadcast : MacAddress := ⟨0xff, 0xff, 0xff, 0xff, 0xff, 0xff⟩

def isBroadcast (mac : MacAddress) : Bool := mac == broadcast

def toBytes (mac : MacAddress) : Bytes := [mac.a, mac.b, mac.c, mac.d, mac.e, mac.f]

/-- Exactly six bytes are an address. -/
def ofBytes : Bytes → Except FormatError MacAddress
  | [a, b, c, d, e, f] => .ok ⟨a, b, c, d, e, f⟩
  | _ => .error .macLength

@[simp] theorem length_toBytes (mac : MacAddress) : mac.toBytes.length = 6 := rfl

@[simp] theorem ofBytes_toBytes (mac : MacAddress) : ofBytes mac.toBytes = .ok mac := rfl

theorem toBytes_of_ofBytes (h : ofBytes bytes = .ok mac) : mac.toBytes = bytes := by
  unfold ofBytes at h
  split at h <;> simp_all
  subst h
  rfl

theorem ofBytes_ok_iff : (∃ mac, ofBytes bytes = .ok mac) ↔ bytes.length = 6 := by
  constructor
  · intro ⟨mac, h⟩
    simp [← toBytes_of_ofBytes h]
  · intro h
    match bytes, h with
    | [a, b, c, d, e, f], _ => exact ⟨_, rfl⟩

/-- Six pairs of lowercase hexadecimal digits, joined by colons. -/
def text (mac : MacAddress) : String := ":".intercalate (mac.toBytes.map hexByte)

end MacAddress
end LinkLayer
