import LinkLayer.Datagram
import LinkLayer.Error

/-! The settings of an interface, and which addresses its network makes reachable. -/
namespace LinkLayer

/-- Without an address and a mask of its own an interface is 255.255.255.255 on a network of one,
and nothing is reachable. -/
structure Config where
  name : String := "USB0"
  address : Ipv4.Address := .broadcast
  mask : Ipv4.Address := .broadcast
  /-- Longest IPv4 packet to be sent. -/
  mtu : UInt16 := 1500
  cacheCapacity : Nat := 32
  traceCapacity : Nat := 0
  /-- How long a datagram may wait in a queue. -/
  lifetime : Time := 30000
deriving DecidableEq, Repr

namespace Config

/-- The first fault counts: no room for a binding, an MTU outside 1 to 1500, no name. -/
def validate (config : Config) : Except ConfigError Unit :=
  if config.cacheCapacity = 0 then .error .cacheCapacity
  else if config.mtu = 0 ∨ 1500 < config.mtu then .error .mtu
  else if config.name.isEmpty then .error .emptyName
  else .ok ()

/-- Whether an address is on the network of the interface. -/
def isLocal (config : Config) (ip : Ipv4.Address) : Bool :=
  ip.sameNetwork config.address config.mask

/-- The destination if it is on the local network, else the gateway if that is. There is no default
gateway. -/
def nextHop? (config : Config) (d : Datagram) : Option Ipv4.Address :=
  if config.isLocal d.destination then some d.destination else d.gateway.filter config.isLocal

end Config
end LinkLayer
