import LinkLayer.Cable
import LinkLayer.Loopback.Options

/-!
The loopback run: a host sends datagrams to a peer over a cable, the peer sends each one back, and
the log shows what happened.
-/
namespace LinkLayer.Loopback

/-- The state of a run: both interfaces, what came to the peer and back, and the log so far. Each
call has a clock of its own, and lines below the level are not logged. -/
structure Session where
  cable : Cable
  clock : Nat → Clock
  level : Log.Level
  calls : Nat := 0
  echoed : Nat := 0
  returned : Nat := 0
  log : Array Log.Line := #[]

def hostMac : MacAddress := ⟨0x02, 0, 0, 0, 0, 0x01⟩

def peerMac : MacAddress := ⟨0x02, 0, 0, 0, 0, 0x02⟩

def hostIp : Ipv4.Address := ⟨192, 168, 7, 1⟩

def peerIp : Ipv4.Address := ⟨192, 168, 7, 2⟩

def hostConfig (options : Options) : Config where
  name := "USB0"
  address := hostIp
  mask := ⟨255, 255, 255, 0⟩
  traceCapacity := options.trace

def peerConfig (options : Options) : Config :=
  { hostConfig options with name := "USB1", address := peerIp }

/-- The payload bytes count up from zero and wrap. Whether there is room for them is for `overflows`
to say. -/
def payload (length : Nat) : Bytes := List.ofFn fun i : Fin length => UInt8.ofNat i

/-- A UDP datagram from the host to the peer. -/
def datagram (payload : Bytes) (id : Nat) : Datagram :=
  .make { identification := UInt16.ofNat id, protocol := 17, src := hostIp, dest := peerIp } []
    payload

/-- Whether the first datagram asks for a payload that no allocation has room for. -/
def overflows (options : Options) : Bool :=
  0 < options.count && Bytes.maxAllocation < options.payload

/-- What the host sends. All datagrams share one payload, which is built only if there is one. -/
def datagrams (options : Options) : List Datagram :=
  match options.count with
  | 0 => []
  | n + 1 =>
    let payload := payload options.payload
    (List.range (n + 1)).map (datagram payload)

/-- The same content on its way back. -/
def echo (d : Datagram) : Datagram :=
  .make { d.header with src := d.header.dest, dest := d.header.src } d.options d.payload

def logLevel (options : Options) : Log.Level := if options.verbose then .trace else .info

def linesOf (level : Log.Level) (interface : Interface Adapter) (events : List Event) :
    List Log.Line :=
  (events.filterMap (Event.line? interface.config.name)).filter (·.isAtLeast level)

namespace Session

/-- Makes one call at a side and logs what happens. -/
def perform (session : Session) (side : Side) (call : Interface.Call) : Interface.Reply × Session :=
  let outcome := (Cable.perform side (session.clock session.calls) call).run session.cable
  (outcome.value, { session with
    cable := outcome.state
    calls := session.calls + 1
    log := session.log ++ linesOf session.level (outcome.state.interface side) outcome.events })

def run (session : Session) (side : Side) (call : Interface.Call) : Session :=
  (session.perform side call).2

/-- The peer takes what it received, at most `limit` datagrams, and submits each one again. -/
def echoReceived (session : Session) : Nat → Session
  | 0 => session
  | limit + 1 =>
    match session.perform .far .takeReceived with
    | (.received (some d), session) =>
      echoReceived { session.run .far (.submit (echo d)) with echoed := session.echoed + 1 } limit
    | (_, session) => session

/-- The host takes what it received, at most `limit` datagrams. -/
def countReturned (session : Session) : Nat → Session
  | 0 => session
  | limit + 1 =>
    match session.perform .near .takeReceived with
    | (.received (some _), session) =>
      countReturned { session with returned := session.returned + 1 } limit
    | (_, session) => session

def received (session : Session) (side : Side) : Nat :=
  (session.cable.interface side).receiveQueue.length

/-- Both sides send and receive once. -/
def round (session : Session) : Session :=
  let session := (session.run .near .sendQueued).run .far .receiveWaiting
  let session := session.echoReceived (session.received .far + 1)
  let session := (session.run .far .sendQueued).run .near .receiveWaiting
  session.countReturned (session.received .near + 1)

/-- Brings both sides up. -/
def bringUp (session : Session) : Session :=
  (session.run .near (.setUp true)).run .far (.setUp true)

/-- Submits all datagrams and runs four rounds. They are enough to resolve both addresses and to
bring every datagram back. -/
def drive (session : Session) (options : Options) : Session :=
  let session := (datagrams options).foldl
    (fun session d => session.run .near (.submit d)) session
  session.round.round.round.round

end Session

/-- Why a run ends before its time. -/
inductive Failure where
  | creation (error : CreationError)
  /-- A payload overflows. Both sides are up by then, and this was logged. -/
  | payload (log : Array Log.Line)

/-- Creates both interfaces in the first two calls, brings them up and drives them. -/
def session (clock : Nat → Clock) (options : Options) : Except Failure Session := do
  let near := (Interface.create (hostConfig options) (clock 0).time).run
    { address := hostMac : Adapter }
  let far := (Interface.create (peerConfig options) (clock 1).time).run
    { address := peerMac : Adapter }
  let host ← near.value.mapError .creation
  let peer ← far.value.mapError .creation
  let level := logLevel options
  let created : Session := {
    cable := ⟨host, peer⟩
    clock
    level
    calls := 2
    log := (linesOf level host near.events ++ linesOf level peer far.events).toArray }
  let up := created.bringUp
  if overflows options then .error (.payload up.log) else .ok (up.drive options)

end LinkLayer.Loopback
