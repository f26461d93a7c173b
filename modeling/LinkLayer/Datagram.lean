import LinkLayer.Clock
import LinkLayer.Ipv4.Checksum
import LinkLayer.Ipv4.Packet

/-! IPv4 datagrams as the host hands them over and gets them back, and the time they may wait. -/
namespace LinkLayer

/-- Header, options and payload, with what an interface notes while the datagram waits. -/
structure Datagram where
  header : Ipv4.Header
  options : Bytes
  payload : Bytes
  /-- The next hop that the host chose for a destination outside the local network. -/
  gateway : Option Ipv4.Address := none
  /-- The first moment at which the datagram is too old. Without one it never is. -/
  expiry : Option Time := none
deriving DecidableEq, Repr

namespace Datagram

/-- A datagram whose header length, total length and checksum agree with its parts. The two lengths
are reduced to the width of their fields. -/
def make (header : Ipv4.Header) (options payload : Bytes) : Datagram :=
  let length := Ipv4.headerLength + options.length
  let header := { header.setLength length with
    totalLength := UInt16.ofNat (length + payload.length) }
  { header := header.setChecksum options, options, payload }

/-- The datagram in a received packet, its header exactly as it came. -/
def ofPacket (packet : Ipv4.Packet) : Datagram :=
  { header := packet.header, options := packet.options, payload := packet.payload }

def destination (d : Datagram) : Ipv4.Address := d.header.dest

/-- Length of the IPv4 packet. -/
def ipLength (d : Datagram) : Nat := Ipv4.headerLength + d.options.length + d.payload.length

/-- Length of the Ethernet frame before padding. -/
def frameLength (d : Datagram) : Nat := Ethernet.headerLength + d.ipLength

/-- The frame that carries the datagram, padded to the shortest length on the wire. -/
def toFrame (d : Datagram) (dest source : MacAddress) : Ethernet.Frame :=
  Ethernet.Frame.pad ⟨dest.toBytes ++ source.toBytes ++ Bytes.ofWord Ethernet.ipv4Type ++
    d.header.toBytes ++ d.options ++ d.payload⟩

theorem length_toFrame (d : Datagram) (dest source : MacAddress) :
    (d.toFrame dest source).length = max Ethernet.minLength d.frameLength := by
  rw [toFrame, Ethernet.Frame.length_pad]
  simp [Ethernet.Frame.length, frameLength, ipLength, Ethernet.headerLength]
  omega

def isExpired (d : Datagram) (now : Time) : Bool := d.expiry.any (· ≤ now)

/-- The same datagram with a lifetime that ends at `expiry`. -/
def stamp (d : Datagram) (expiry : Time) : Datagram := { d with expiry := some expiry }

@[simp] theorem isExpired_stamp (d : Datagram) (expiry now : Time) :
    (d.stamp expiry).isExpired now = decide (expiry ≤ now) := rfl

end Datagram

namespace Clock

variable {clock : Clock} {now : Time} {d : Datagram}

/-- The clock once a datagram of a queue was settled. One that has expired is found out with the
reading by which the one behind it is judged. Any other one takes two readings: it is judged by the
first and written at the second. -/
def after (clock : Clock) (d : Datagram) : Clock :=
  if d.isExpired clock.time then clock else clock.later.later

theorem after_of_expired (h : d.isExpired clock.time = true) : clock.after d = clock := if_pos h

theorem after_of_live (h : d.isExpired clock.time = false) :
    clock.after d = clock.later.later := if_neg (by simp [h])

@[simp] theorem after_still : (still now).after d = still now := by
  unfold after
  split <;> rfl

end Clock
end LinkLayer
