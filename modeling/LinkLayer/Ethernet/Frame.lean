import LinkLayer.MacAddress

/-!
Ethernet II frames as they pass between an interface and its adapter: six bytes of destination, six
of source, the ether type, then the payload. A frame is read from at least a whole header. A shorter
one only arises by truncating, and then the fields it lost are out of range.
-/
namespace LinkLayer.Ethernet

/-- Ether type of an IPv4 packet. -/
def ipv4Type : UInt16 := 0x0800

/-- Ether type of an ARP packet. -/
def arpType : UInt16 := 0x0806

def headerLength : Nat := 14

/-- Shortest frame on the wire, header included and check sequence excluded. -/
def minLength : Nat := 60

/-- Longest frame that is accepted or sent, header included and check sequence excluded. -/
def maxLength : Nat := 1514

structure Frame where
  bytes : Bytes
deriving DecidableEq, Repr

namespace Frame

variable {frame result : Frame} {bytes : Bytes}

def ofBytes (bytes : Bytes) : Except FormatError Frame :=
  if bytes.length < headerLength then .error .frameTooShort else .ok ⟨bytes⟩

theorem ofBytes_ok_iff :
    ofBytes bytes = .ok frame ↔ headerLength ≤ bytes.length ∧ frame.bytes = bytes := by
  obtain ⟨old⟩ := frame
  unfold ofBytes
  split <;> rename_i h
  · simp
    omega
  · simp [Nat.le_of_not_lt h, eq_comm]

/-- A zeroed header and nothing behind it. -/
def empty : Frame := ⟨List.replicate headerLength 0⟩

def length (frame : Frame) : Nat := frame.bytes.length

def hasEmptyPayload (frame : Frame) : Bool := frame.length == headerLength

def dest (frame : Frame) : Except FormatError MacAddress := do
  MacAddress.ofBytes (← Bytes.read frame.bytes 0 6)

def source (frame : Frame) : Except FormatError MacAddress := do
  MacAddress.ofBytes (← Bytes.read frame.bytes 6 6)

def etherType (frame : Frame) : Except FormatError UInt16 := Bytes.readWord frame.bytes 12

def payload (frame : Frame) : Except FormatError Bytes :=
  if frame.length < headerLength then .error .outOfRange else .ok (frame.bytes.drop headerLength)

/-- Puts `new` over the bytes from `start` on, if it fits. -/
def write (frame : Frame) (start : Nat) (new : Bytes) : Except FormatError Frame := do
  .ok ⟨← Bytes.write frame.bytes start new⟩

def setDest (frame : Frame) (mac : MacAddress) : Except FormatError Frame :=
  frame.write 0 mac.toBytes

def setSource (frame : Frame) (mac : MacAddress) : Except FormatError Frame :=
  frame.write 6 mac.toBytes

def setEtherType (frame : Frame) (etherType : UInt16) : Except FormatError Frame :=
  frame.write 12 (Bytes.ofWord etherType)

/-- Keeps at most `len` bytes. -/
def truncate (frame : Frame) (len : Nat) : Frame := ⟨frame.bytes.take len⟩

/-- Adds to the payload and leaves alone what is there. -/
def extendPayload (frame : Frame) (more : Bytes) : Frame := ⟨frame.bytes ++ more⟩

/-- Puts `payload` in the place of the old one. -/
def setPayload (frame : Frame) (payload : Bytes) : Frame :=
  (frame.truncate headerLength).extendPayload payload

/-- Fills up with zeros to the shortest length on the wire. A longer frame stays as it is. -/
def pad (frame : Frame) : Frame :=
  frame.extendPayload (List.replicate (minLength - frame.length) 0)

theorem length_write {start : Nat} (h : frame.write start bytes = .ok result) :
    result.length = frame.length := by
  unfold write at h
  cases hw : Bytes.write frame.bytes start bytes <;> rw [hw] at h
  · simp [bind, Except.bind] at h
  · simp only [bind, Except.bind, Except.ok.injEq] at h
    subst h
    exact Bytes.length_write hw

theorem length_pad (frame : Frame) : frame.pad.length = max minLength frame.length := by
  simp [pad, extendPayload, length]
  omega

theorem pad_of_le (h : minLength ≤ frame.length) : frame.pad = frame := by
  simp [pad, extendPayload, show minLength - frame.length = 0 by omega]

@[simp] theorem pad_pad (frame : Frame) : frame.pad.pad = frame.pad :=
  pad_of_le (by rw [length_pad]; omega)

end Frame

/-- How an inbound frame is handled. -/
inductive Kind where
  /-- IPv4 to the broadcast hardware address -/
  | broadcastIpv4
  | ipv4
  | arp
  | unsupported (etherType : UInt16)
deriving DecidableEq, Repr

/-- The kind of a frame depends on its ether type and, for IPv4, on its destination. -/
def Frame.kind (frame : Frame) : Except FormatError Kind := do
  let etherType ← frame.etherType
  if etherType = ipv4Type then
    if (← frame.dest).isBroadcast then .ok .broadcastIpv4 else .ok .ipv4
  else if etherType = arpType then .ok .arp
  else .ok (.unsupported etherType)

end LinkLayer.Ethernet
