import LinkLayer.Loopback.Session

/-! What the loopback run prints: its log, then the counters, bindings and trace of each
interface. -/
namespace LinkLayer.Loopback

/-- Text filled up with blanks on the right. -/
def padRight (width : Nat) (text : String) : String :=
  text ++ String.ofList (List.replicate (width - text.length) ' ')

def counterLines (c : Counters) : List String :=
  [s!"  read {c.read.failed}/{c.read.total} failed, write {c.write.failed}/{c.write.total} failed",
   s!"  receive {c.receive.good} good {c.receive.bad} bad, ip {c.process.normalIp} " ++
     s!"broadcast {c.process.broadcastIp} arp {c.process.arp}",
   s!"  send ip {c.send.ip} arp {c.send.arp}, rejected length {c.send.badLength} " ++
     s!"options {c.send.badOptions} host {c.send.badHost} network {c.send.badNetwork}",
   s!"  arp requests {c.arp.requests} answers {c.arp.answers}, " ++
     s!"awaiting resolution {c.awaitingResolution}",
   s!"  bytes out {c.totals.sentBytes} in {c.totals.receivedBytes}, " ++
     s!"dropped {c.totals.dropped} expired {c.totals.expired}"]

def bindingLine (entry : Arp.Entry) : String :=
  "  arp " ++ padRight 15 entry.ip.text ++ " " ++ entry.mac.text

def traceLine (entry : Trace.Entry) : String :=
  s!"  trace {entry.kind.name} {entry.verdict.name} {entry.length} bytes"

def interfaceLines (interface : Interface Adapter) : List String :=
  [interface.config.name ++ " (" ++ interface.macAddress.text ++ " at " ++
    interface.config.address.text ++ ")"] ++
  counterLines interface.counters ++ interface.bindings.map bindingLine ++
  interface.device.trace.entries.toList.map traceLine

/-- The last line of the log. -/
def finishedLine (options : Options) (session : Session) : Log.Line :=
  ⟨.info, "loopback finished",
    [("sent", toString options.count), ("echoed", toString session.echoed),
     ("returned", toString session.returned)]⟩

/-- What a program leaves: its exit code and the lines it printed. -/
structure Transcript where
  code : UInt8
  lines : List String := []
deriving DecidableEq, Repr

def logLines (log : Array Log.Line) : List String := log.toList.map Log.Line.alignedText

def sessionLines (options : Options) (session : Session) : List String :=
  logLines session.log ++ [(finishedLine options session).alignedText] ++
    interfaceLines session.cable.near ++ interfaceLines session.cable.far

/-- The exit code of a program that has asked for more memory than there can be. -/
def overflowCode : UInt8 := 101

/-- What a run leaves that may have ended before its time. -/
def Transcript.ofRun (options : Options) : Except Failure Session → Transcript
  | .error (.creation .capacity) => { code := overflowCode }
  | .error (.creation _) => { code := 1 }
  | .error (.payload log) => { code := overflowCode, lines := logLines log }
  | .ok session => { code := 0, lines := sessionLines options session }

/-- The whole program on its arguments, with a clock for each call. -/
def Transcript.ofArgs (clock : Nat → Clock) (args : List String) : Transcript :=
  match Options.parse args with
  | .error .version => { code := 0, lines := ["Loopback Port 0.1"] }
  | .error .usage => { code := 1 }
  | .ok options => .ofRun options (session clock options)

end LinkLayer.Loopback
