/-! The ways in which bytes fail to be a frame, a packet or an address, and the text of each. -/
namespace LinkLayer

/-- Why bytes were refused. Every cause has one fixed text; `other` carries its own. -/
inductive FormatError where
  | macLength
  | ipLength
  | frameTooShort
  | notArp
  | arpTooShort
  | arpTruncated
  | headerTooShort
  | frameLength
  | version
  | totalLength
  | headerLength
  | unsupportedType
  /-- A range past the end of the bytes, or a value of another length than its field. -/
  | outOfRange
  | other (text : String)
deriving DecidableEq, Repr

def FormatError.message : FormatError → String
  | .macLength => "Hardware address must be 6 bytes"
  | .ipLength => "Protocol address is not 4 bytes"
  | .frameTooShort => "Frame is less than the minimum of 14 bytes"
  | .notArp => "Frame does not have ARP ether type."
  | .arpTooShort => "Frame payload is too small"
  | .arpTruncated => "Frame payload doesn't match address length fields"
  | .headerTooShort => "Data is too short to be an IPv4 header"
  | .frameLength => "Frame length is outside Ethernet limits"
  | .version => "Packet has incorrect version, is not Ipv4Packet"
  | .totalLength => "Packet has invalid total length field"
  | .headerLength => "Packet has invalid header length field"
  | .unsupportedType => "Frame carries an unsupported ether type"
  | .outOfRange => "Access outside the frame"
  | .other text => text

end LinkLayer
