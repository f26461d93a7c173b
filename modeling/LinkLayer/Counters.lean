import LinkLayer.Error

/-! What an interface counts. Counters only grow; clearing all of them is the one way back. They are
taken not to overflow: nobody counts to the end of 64 bits. -/
namespace LinkLayer
namespace Counters

/-- Transfers of one direction. -/
structure Transfers where
  total : Nat := 0
  failed : Nat := 0
deriving DecidableEq, Repr

/-- Frames read, and how many of them had a known kind. -/
structure Receive where
  total : Nat := 0
  good : Nat := 0
  bad : Nat := 0
deriving DecidableEq, Repr

/-- Inbound frames by kind, and those refused after that. -/
structure Process where
  broadcastIp : Nat := 0
  normalIp : Nat := 0
  arp : Nat := 0
  badIp : Nat := 0
  badArp : Nat := 0
deriving DecidableEq, Repr

/-- Datagrams taken off the send queue, refusals by reason, and frames offered. -/
structure Send where
  dequeued : Nat := 0
  badLength : Nat := 0
  badOptions : Nat := 0
  badHost : Nat := 0
  badNetwork : Nat := 0
  ip : Nat := 0
  arp : Nat := 0
  arpFailed : Nat := 0
deriving DecidableEq, Repr

/-- ARP packets received, and datagrams that waited for a resolution. -/
structure Resolution where
  inputErrors : Nat := 0
  opcodeErrors : Nat := 0
  requests : Nat := 0
  answers : Nat := 0
  queued : Nat := 0
  dequeued : Nat := 0
  requeued : Nat := 0
deriving DecidableEq, Repr

/-- Bytes and losses as the host sees them. -/
structure Totals where
  sentBytes : Nat := 0
  receivedBytes : Nat := 0
  dropped : Nat := 0
  expired : Nat := 0
deriving DecidableEq, Repr

end Counters

structure Counters where
  read : Counters.Transfers := {}
  write : Counters.Transfers := {}
  receive : Counters.Receive := {}
  process : Counters.Process := {}
  send : Counters.Send := {}
  arp : Counters.Resolution := {}
  totals : Counters.Totals := {}
deriving DecidableEq, Repr

namespace Counters

/-- Datagrams that wait for a resolution, as far as the counters tell: those that expired or were
released while waiting are not taken off. -/
def awaitingResolution (c : Counters) : Nat := c.arp.queued + c.arp.requeued - c.arp.dequeued

def transfer (t : Transfers) (failed : Bool) : Transfers :=
  ⟨t.total + 1, if failed then t.failed + 1 else t.failed⟩

/-- Counts a datagram refused before any transfer. The other reasons have their own counters. -/
def refuse (c : Counters) : DropReason → Counters
  | .badLength _ => { c with send.badLength := c.send.badLength + 1 }
  | .badOptions _ => { c with send.badOptions := c.send.badOptions + 1 }
  | .badHost => { c with send.badHost := c.send.badHost + 1 }
  | .badNetwork => { c with send.badNetwork := c.send.badNetwork + 1 }
  | _ => c

/-- Counts an ARP packet refused. An address of a wrong length would show too late to be counted. -/
def refuseArp (c : Counters) : DropReason → Counters
  | .arpOpcode _ => { c with arp.opcodeErrors := c.arp.opcodeErrors + 1 }
  | .malformed .macLength | .malformed .ipLength => c
  | _ => { c with arp.inputErrors := c.arp.inputErrors + 1 }

end Counters
end LinkLayer
