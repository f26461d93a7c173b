import LinkLayer.Interface.Basic

/-!
The way out: a datagram is checked, routed and, if the hardware address of its next hop is known,
written. Otherwise the next hop is asked for it and the datagram waits.
-/
namespace LinkLayer

/-- Where a datagram goes next. -/
inductive Route where
  | resolved (hop : Ipv4.Address) (mac : MacAddress)
  | unresolved (hop : Ipv4.Address)
deriving DecidableEq, Repr

/-- Checks lengths, options and destination in this order, then looks for the next hop and its
binding. -/
def Config.route (config : Config) (cache : Arp.Cache) (d : Datagram) : Except DropReason Route :=
  if Ethernet.maxLength < d.frameLength ∨ config.mtu.toNat < d.ipLength then
    .error (.badLength d.frameLength)
  else if Ipv4.maxOptionsLength < d.options.length ∨ d.options.length % 4 ≠ 0 then
    .error (.badOptions d.options.length)
  else if !d.destination.namesHost config.mask then .error .badHost
  else match config.nextHop? d with
    | none => .error .badNetwork
    | some hop =>
      match cache.lookup hop with
      | none => .ok (.unresolved hop)
      | some mac => .ok (.resolved hop mac)

/-- What became of a datagram that was not refused. -/
inductive Delivery where
  | sent (ipLength : Nat)
  | deferred
deriving DecidableEq, Repr

namespace Interface

variable {τ : Type} [Transport τ]

/-- Sends an ARP message. If the write fails, that is counted and logged and nothing comes of it. -/
def sendArp (now : Time) (message : Arp.Message) : Action (Interface τ) Unit := do
  match (← .get).framer.message message with
  | .error _ => pure ()
  | .ok (frame, framer) =>
    .modify ({ · with framer })
    match ← write now frame with
    | .ok () =>
      count fun c => { c with
        send.arp := c.send.arp + 1, totals.sentBytes := c.totals.sentBytes + frame.length }
    | .error _ =>
      count fun c => { c with send.arp := c.send.arp + 1, send.arpFailed := c.send.arpFailed + 1 }
      .emit .arpNotSent

/-- Asks everybody for the hardware address of `target`. -/
def requestBinding (now : Time) (target : Ipv4.Address) : Action (Interface τ) Unit := do
  let interface ← .get
  sendArp now (.whoHas interface.macAddress interface.config.address target)

/-- Tells one neighbour the hardware address of this interface. -/
def replyBinding (now : Time) (mac : MacAddress) (ip : Ipv4.Address) :
    Action (Interface τ) Unit := do
  let interface ← .get
  sendArp now (.isAt interface.macAddress interface.config.address mac ip)

/-- Writes the frame of a datagram to a neighbour. -/
def sendDatagram (now : Time) (mac : MacAddress) (d : Datagram) :
    Action (Interface τ) (Except DropReason Delivery) := do
  let interface ← .get
  match interface.framer.datagram mac interface.macAddress d with
  | .error error => pure (.error (.malformed error))
  | .ok (frame, framer) =>
    .modify ({ · with framer })
    match ← write now frame with
    | .error error => pure (.error (.transport error))
    | .ok () =>
      count fun c => { c with send.ip := c.send.ip + 1 }
      pure (.ok (.sent d.ipLength))

/-- Runs one datagram through the way out. A datagram that is deferred stays with the caller. -/
def output (now : Time) (d : Datagram) : Action (Interface τ) (Except DropReason Delivery) := do
  let interface ← .get
  match interface.config.route interface.cache d with
  | .error reason =>
    count (·.refuse reason)
    pure (.error reason)
  | .ok (.unresolved hop) =>
    .emit (.deferring hop)
    requestBinding now hop
    pure (.ok .deferred)
  | .ok (.resolved _ mac) => sendDatagram now mac d

/-- A datagram leaves the send queue in its first pass and the deferred queue in a later one. -/
inductive Pass where
  | first
  | later
deriving DecidableEq, Repr

namespace Pass

def place : Pass → Place
  | first => .send
  | later => .deferred

def countTaken (c : Counters) : Pass → Counters
  | first => { c with send.dequeued := c.send.dequeued + 1 }
  | later => { c with arp.dequeued := c.arp.dequeued + 1 }

def countWaiting (c : Counters) : Pass → Counters
  | first => { c with arp.queued := c.arp.queued + 1 }
  | later => { c with arp.requeued := c.arp.requeued + 1 }

def dropped (d : Datagram) (reason : DropReason) : Pass → Event
  | first => .outboundDropped d reason
  | later => .deferredDropped d reason

end Pass

/-- Runs a datagram that was just found not to be expired through the way out, and gives it back if
it has to wait. The clock is asked again for what is written. -/
def attempt (pass : Pass) (clock : Clock) (d : Datagram) :
    Action (Interface τ) (Option Datagram) := do
  count pass.countTaken
  match ← output clock.later.time d with
  | .ok (.sent length) =>
    count fun c => { c with totals.sentBytes := c.totals.sentBytes + length }
    .emit (.sent clock.time clock.later.time d)
    pure none
  | .ok .deferred =>
    count pass.countWaiting
    pure (some d)
  | .error reason =>
    count fun c => { c with totals.dropped := c.totals.dropped + 1 }
    .emit (pass.dropped d reason)
    pure none

/-- Releases a datagram that is expired, and runs any other one through the way out. -/
def settle (pass : Pass) (clock : Clock) (d : Datagram) :
    Action (Interface τ) (Option Datagram) := do
  if d.isExpired clock.time then
    expire clock.time pass.place d
    pure none
  else attempt pass clock d

/-- Settles every datagram of a list once, in order, and gives those that have to wait. -/
def settleAll (pass : Pass) : Clock → List Datagram → Action (Interface τ) (List Datagram)
  | _, [] => pure []
  | clock, d :: ds => do
    match ← settle pass clock d with
    | none => settleAll pass (clock.after d) ds
    | some waiting => (waiting :: ·) <$> settleAll pass (clock.after d) ds

/-- Empties the send queue. Datagrams that have to wait go behind those that already do. -/
def sendQueued (clock : Clock) : Action (Interface τ) Unit := do
  let interface ← .get
  if interface.isUp then
    let waiting ← settleAll .first clock interface.sendQueue.toList
    .modify fun interface =>
      { interface with
        sendQueue := .empty, deferred := interface.deferred.append waiting }

/-- Runs every deferred datagram through the way out once more. -/
def retryDeferred (clock : Clock) : Action (Interface τ) Unit := do
  let interface ← .get
  let waiting ← settleAll .later clock interface.deferred.toList
  .modify ({ · with deferred := .ofList waiting })

end Interface
end LinkLayer
