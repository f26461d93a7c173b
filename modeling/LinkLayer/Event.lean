import LinkLayer.Arp.Message
import LinkLayer.Datagram

/-!
What happens in an interface and its device, in order. Most events are shown in the log as one line;
the others only complete the record.
-/
namespace LinkLayer

namespace Log

inductive Level where
  | trace
  | debug
  | info
  | warn
deriving DecidableEq, Repr

namespace Level

def name : Level → String
  | trace => "TRACE"
  | debug => "DEBUG"
  | info => "INFO"
  | warn => "WARN"

def rank : Level → Nat
  | trace => 0
  | debug => 1
  | info => 2
  | warn => 3

end Level

/-- A line of the log: its fields follow the message in order. -/
structure Line where
  level : Level
  message : String
  fields : List (String × String) := []
deriving DecidableEq, Repr

namespace Line

/-- The message, then each field as a name and a bare value. -/
def body (line : Line) : String :=
  line.message ++ String.join (line.fields.map fun (name, value) => " " ++ name ++ "=" ++ value)

def text (line : Line) : String := line.level.name ++ " " ++ line.body

/-- The text with level names flush right in a column of five. -/
def alignedText (line : Line) : String :=
  String.ofList (List.replicate (5 - line.level.name.length) ' ') ++ line.text

def isAtLeast (line : Line) (level : Level) : Bool := level.rank ≤ line.level.rank

end Line
end Log

/-- The queues in which datagrams wait. -/
inductive Place where
  | send
  | deferred
  | receive
deriving DecidableEq, Repr

inductive Event where
  | frameWritten (frame : Bytes)
  | writeFailed (frame : Bytes) (error : TransportError)
  | frameRead (frame : Bytes)
  | readFailed (error : TransportError)
  | addressRead (mac : MacAddress)
  | addressReadFailed (error : TransportError)
  | created (mac : MacAddress)
  | wentUp
  /-- What was released from the queues in which it waited. -/
  | wentDown (send receive deferred : List Datagram)
  | addressSet (ip : Ipv4.Address)
  | maskSet (mask : Ipv4.Address)
  | macSet (mac : MacAddress)
  | addressKept (error : TransportError)
  | cacheCleared
  /-- A datagram was too old when its queue was looked through. -/
  | expired (now : Time) (place : Place) (d : Datagram)
  /-- A datagram was taken off its queue at one moment and written at another one. -/
  | sent (taken written : Time) (d : Datagram)
  | deferring (nextHop : Ipv4.Address)
  | arpNotSent
  | outboundDropped (d : Datagram) (reason : DropReason)
  | deferredDropped (d : Datagram) (reason : DropReason)
  | inboundDropped (frame : Bytes) (reason : DropReason)
  /-- A datagram was accepted for the host. -/
  | queued (now : Time) (d : Datagram)
  | arpAccepted (message : Arp.Message)
  | answering (ip : Ipv4.Address) (mac : MacAddress)
  | answered (ip : Ipv4.Address) (mac : MacAddress)
deriving DecidableEq, Repr

/-- The log line of an event at the interface called `name`, if it has one. -/
def Event.line? (name : String) : Event → Option Log.Line
  | frameWritten frame => some ⟨.trace, "frame written", [("length", toString frame.length)]⟩
  | writeFailed frame error =>
    some ⟨.warn, "write failed", [("error", error.message), ("length", toString frame.length)]⟩
  | frameRead frame => some ⟨.trace, "frame read", [("length", toString frame.length)]⟩
  | readFailed error => some ⟨.warn, "read failed", [("error", error.message)]⟩
  | addressRead _ => none
  | addressReadFailed error =>
    some ⟨.warn, "hardware address read failed", [("error", error.message)]⟩
  | created mac => some ⟨.info, "port created", [("port", name), ("mac", mac.text)]⟩
  | wentUp => some ⟨.info, "port up", [("port", name)]⟩
  | wentDown send receive deferred =>
    some ⟨.info, "port down",
      [("port", name), ("released", toString (send.length + receive.length + deferred.length))]⟩
  | addressSet ip => some ⟨.info, "ip address set", [("port", name), ("ip_address", ip.text)]⟩
  | maskSet mask => some ⟨.info, "subnet mask set", [("port", name), ("subnet_mask", mask.text)]⟩
  | macSet mac => some ⟨.info, "mac address set", [("port", name), ("mac", mac.text)]⟩
  | addressKept error =>
    some ⟨.warn, "keeping last known hardware address", [("port", name), ("error", error.message)]⟩
  | cacheCleared => some ⟨.info, "ARP cache cleared", [("port", name)]⟩
  | expired _ _ _ | sent _ _ _ | queued _ _ | arpAccepted _ => none
  | deferring hop =>
    some ⟨.debug, "next hop unresolved, deferring", [("port", name), ("next_hop", hop.text)]⟩
  | arpNotSent => some ⟨.warn, "ARP frame not sent", [("port", name)]⟩
  | outboundDropped d reason =>
    some ⟨.debug, "outbound datagram dropped",
      [("port", name), ("reason", reason.message), ("dest", d.destination.text)]⟩
  | deferredDropped d reason =>
    some ⟨.debug, "deferred datagram dropped",
      [("port", name), ("reason", reason.message), ("dest", d.destination.text)]⟩
  | inboundDropped frame reason =>
    some ⟨.debug, "inbound frame dropped",
      [("port", name), ("reason", reason.message), ("length", toString frame.length)]⟩
  | answering ip mac =>
    some ⟨.debug, "answering ARP request",
      [("port", name), ("sender_ip", ip.text), ("sender_mac", mac.text)]⟩
  | answered ip mac =>
    some ⟨.debug, "ARP reply received",
      [("port", name), ("sender_ip", ip.text), ("sender_mac", mac.text)]⟩

end LinkLayer
