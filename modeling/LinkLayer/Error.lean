import LinkLayer.FormatError

/-! Failures of the adapter, of creating an interface, and of one datagram or frame, each with its
text. -/
namespace LinkLayer

/-- Failure of one transfer. No transfer is tried twice. -/
inductive TransportError where
  | detached
  | io (detail : String)
deriving DecidableEq, Repr

def TransportError.message : TransportError → String
  | .detached => "device is not attached"
  | .io detail => s!"transfer failed: {detail}"

/-- What is wrong with the settings of an interface. -/
inductive ConfigError where
  | cacheCapacity
  | mtu
  | emptyName
  | other (text : String)
deriving DecidableEq, Repr

def ConfigError.reason : ConfigError → String
  | .cacheCapacity => "arp_cache_capacity must be at least 1"
  | .mtu => "mtu must be between 1 and 1500"
  | .emptyName => "port name must not be empty"
  | .other text => text

/-- Why no interface was created. -/
inductive CreationError where
  | config (error : ConfigError)
  | transport (error : TransportError)
  /-- The trace or the cache would not fit any allocation. Whoever wanted the interface is ended. -/
  | capacity
deriving DecidableEq, Repr

def CreationError.message : CreationError → String
  | .config error => "invalid configuration: " ++ error.reason
  | .transport error => error.message
  | .capacity => "capacity overflow"

/-- Why a datagram was not sent or a frame not taken. The interface stays usable. -/
inductive DropReason where
  | malformed (error : FormatError)
  | badLength (frameLength : Nat)
  | badOptions (optionsLength : Nat)
  /-- The destination names a network or its broadcast address. -/
  | badHost
  /-- Neither the destination nor the gateway is on the local network. -/
  | badNetwork
  | arpHardware
  | arpOpcode (code : UInt16)
  | allocation
  | transport (error : TransportError)
deriving DecidableEq, Repr

def DropReason.message : DropReason → String
  | .malformed error => "malformed frame: " ++ error.message
  | .badLength length => s!"frame of {length} bytes exceeds the Ethernet frame or port MTU"
  | .badOptions length => s!"IPv4 options of {length} bytes are not whole words up to 40 bytes"
  | .badHost => "destination is a network or broadcast address"
  | .badNetwork => "no next hop on the local network"
  | .arpHardware => "ARP packet is not Ethernet/IPv4"
  | .arpOpcode code => s!"unsupported ARP opcode {code}"
  | .allocation => "out of memory for datagram"
  | .transport error => error.message

end LinkLayer
