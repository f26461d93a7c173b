import LinkLayer.Interface.Output

/-!
The way in: frames are read until the adapter has no more, and each is handled by its kind. ARP
packets teach the cache who their sender is, whoever they were meant for.
-/
namespace LinkLayer.Interface

variable {τ : Type} [Transport τ]

/-- Binds a sender's address. The unspecified address is nobody's. -/
def learn (ip : Ipv4.Address) (mac : MacAddress) : Action (Interface τ) Unit := do
  if ip ≠ Ipv4.Address.unspecified then
    .modify fun interface => { interface with cache := interface.cache.insert ip mac }

/-- Takes note of a message about this interface's own address, and answers it if it asks. -/
def answer (now : Time) (message : Arp.Message) : Action (Interface τ) Unit := do
  if message.targetIp = (← .get).config.address then
    match message.operation with
    | .request =>
      count fun c => { c with arp.requests := c.arp.requests + 1 }
      .emit (.answering message.senderIp message.senderMac)
      replyBinding now message.senderMac message.senderIp
    | .reply =>
      count fun c => { c with arp.answers := c.arp.answers + 1 }
      .emit (.answered message.senderIp message.senderMac)

/-- Handles an ARP frame. What it taught may resolve deferred datagrams, so all of them are tried
again, by the readings after that for an answer. -/
def handleArp (clock : Clock) (frame : Ethernet.Frame) :
    Action (Interface τ) (Except DropReason Unit) := do
  match Arp.Message.ofFrame frame with
  | .error reason =>
    count (·.refuseArp reason)
    pure (.error reason)
  | .ok message =>
    .emit (.arpAccepted message)
    learn message.senderIp message.senderMac
    answer clock.time message
    retryDeferred clock.later
    pure (.ok ())

/-- Queues the datagram of an IPv4 frame for the host. Its lifetime starts now and ends at the exact
sum. Whether there is such a time is for `handleIp?` to ask. -/
def handleIp (now : Time) (frame : Ethernet.Frame) :
    Action (Interface τ) (Except DropReason Unit) := do
  match Ipv4.Packet.ofFrame frame with
  | .error error => pure (.error (.malformed error))
  | .ok packet =>
    let d := (Datagram.ofPacket packet).stamp (now + (← .get).config.lifetime)
    .modify fun interface => { interface with receiveQueue := interface.receiveQueue.enqueue d }
    .emit (.queued now d)
    pure (.ok ())

/-- Counts a frame that is of no known kind. -/
def refuseFrame (error : FormatError) : Action (Interface τ) (Except DropReason Unit) := do
  count fun c => { c with receive.bad := c.receive.bad + 1 }
  pure (.error (.malformed error))

/-- Handles an inbound frame by its kind. IPv4 broadcasts are counted and go no further. -/
def dispatch (clock : Clock) (bytes : Bytes) : Action (Interface τ) (Except DropReason Unit) := do
  match Ethernet.Frame.ofBytes bytes with
  | .error error => refuseFrame error
  | .ok frame =>
    match frame.kind with
    | .error error => refuseFrame error
    | .ok (.unsupported _) => refuseFrame .unsupportedType
    | .ok .broadcastIpv4 =>
      count fun c => { c with
        receive.good := c.receive.good + 1, process.broadcastIp := c.process.broadcastIp + 1 }
      pure (.ok ())
    | .ok .ipv4 =>
      count fun c => { c with
        receive.good := c.receive.good + 1, process.normalIp := c.process.normalIp + 1 }
      let result ← handleIp clock.time frame
      if !result.isOk then count fun c => { c with process.badIp := c.process.badIp + 1 }
      pure result
    | .ok .arp =>
      count fun c => { c with
        receive.good := c.receive.good + 1, process.arp := c.process.arp + 1 }
      let result ← handleArp clock frame
      if !result.isOk then count fun c => { c with process.badArp := c.process.badArp + 1 }
      pure result

/-- Handles a frame that was read, and counts its bytes or its loss. -/
def takeIn (clock : Clock) (bytes : Bytes) : Action (Interface τ) Unit := do
  count fun c => { c with receive.total := c.receive.total + 1 }
  match ← dispatch clock bytes with
  | .ok () =>
    count fun c => { c with totals.receivedBytes := c.totals.receivedBytes + bytes.length }
  | .error reason =>
    count fun c => { c with totals.dropped := c.totals.dropped + 1 }
    .emit (.inboundDropped bytes reason)

/-- Reads and handles frames until a read gives none or fails, at most `limit` of them. Each frame
is handled by the readings after that for its read. -/
def receiveUpTo : Clock → Nat → Action (Interface τ) Unit
  | _, 0 => pure ()
  | clock, limit + 1 => do
    match ← read clock.time with
    | .ok (some bytes) =>
      takeIn clock.later bytes
      receiveUpTo clock.nextFrame limit
    | _ => pure ()

/-- Empties the adapter. The limit is one more than the frames that can still come, so that the last
read gives none or fails. -/
def receiveWaiting {τ : Type} [FiniteTransport τ] (clock : Clock) : Action (Interface τ) Unit := do
  let interface ← .get
  if interface.isUp then
    receiveUpTo clock (FiniteTransport.waiting interface.device.transport + 1)

end LinkLayer.Interface
