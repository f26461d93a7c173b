import LinkLayer.Arp.Cache
import LinkLayer.Config
import LinkLayer.Counters
import LinkLayer.Device
import LinkLayer.Framer
import LinkLayer.Queue

/-!
A network interface: its settings and addresses, the bindings it learned, three queues of datagrams,
its counters and the device below it. The host drives it one call at a time and tells it the time.
-/
namespace LinkLayer

structure Interface (τ : Type) where
  config : Config
  device : Device τ
  isUp : Bool := false
  /-- The address that the adapter gave last. -/
  hardwareAddress : MacAddress
  /-- The source address of what is sent. The host may choose another one. -/
  macAddress : MacAddress
  hardwareType : Option UInt8 := none
  cache : Arp.Cache
  framer : Framer := .init
  /-- Datagrams from the host that no pass has seen yet. -/
  sendQueue : Queue := .empty
  /-- Datagrams that wait for the hardware address of their next hop. -/
  deferred : Queue := .empty
  /-- Datagrams for the host. -/
  receiveQueue : Queue := .empty
  counters : Counters := {}

namespace Interface

variable {τ : Type} [Transport τ]

/-- Creates an interface on an adapter, and it is down. The settings are checked and the trace is
laid out before the adapter is asked for its address, and the cache is laid out after it. -/
def create (config : Config) (now : Time) : Action τ (Except CreationError (Interface τ)) :=
  fun transport =>
    match config.validate with
    | .error error => { value := .error (.config error), state := transport }
    | .ok () =>
      if Trace.maxCapacity < config.traceCapacity then
        { value := .error .capacity, state := transport }
      else
        let asked := (Device.readAddress now).run
          { transport, trace := { capacity := config.traceCapacity } }
        match asked.value with
        | .error error =>
          { value := .error (.transport error)
            state := asked.state.transport
            events := asked.events }
        | .ok mac =>
          { value :=
              if Arp.Cache.maxCapacity < config.cacheCapacity then .error .capacity
              else .ok {
                config
                device := asked.state
                hardwareAddress := mac
                macAddress := mac
                cache := .empty config.cacheCapacity }
            state := asked.state.transport
            events := asked.events ++ [.created mac] }

def onDevice {α : Type} (action : Action (Device τ) α) : Action (Interface τ) α :=
  action.onPart (·.device) fun interface device => { interface with device }

def count (f : Counters → Counters) : Action (Interface τ) Unit :=
  .modify fun interface => { interface with counters := f interface.counters }

/-- Offers a frame to the adapter and counts the attempt. -/
def write (now : Time) (frame : Bytes) : Action (Interface τ) (Except TransportError Unit) := do
  let result ← onDevice (Device.write now frame)
  count fun c => { c with write := Counters.transfer c.write !result.isOk }
  pure result

/-- Takes a frame from the adapter and counts the attempt. -/
def read (now : Time) : Action (Interface τ) (Except TransportError (Option Bytes)) := do
  let result ← onDevice (Device.read now)
  count fun c => { c with read := Counters.transfer c.read !result.isOk }
  pure result

/-- Notes that a datagram grew too old where it waited. -/
def expire (now : Time) (place : Place) (d : Datagram) : Action (Interface τ) Unit := do
  count fun c => { c with totals.expired := c.totals.expired + 1 }
  .emit (.expired now place d)

/-- Going down releases what is still in the three queues. -/
def setUp (up : Bool) : Action (Interface τ) Unit := do
  let interface ← .get
  if up then
    .modify ({ · with isUp := true })
    .emit .wentUp
  else
    let (sendReleased, sendQueue) := Queue.drain interface.sendQueue
    let (receiveReleased, receiveQueue) := Queue.drain interface.receiveQueue
    let (deferredReleased, deferred) := Queue.drain interface.deferred
    .modify ({ · with isUp := false, sendQueue, receiveQueue, deferred })
    .emit (.wentDown sendReleased receiveReleased deferredReleased)

def setAddress (ip : Ipv4.Address) : Action (Interface τ) Unit := do
  .emit (.addressSet ip)
  .modify fun interface => { interface with config.address := ip }

def setMask (mask : Ipv4.Address) : Action (Interface τ) Unit := do
  .emit (.maskSet mask)
  .modify fun interface => { interface with config.mask := mask }

/-- Takes a datagram from the host. Its lifetime starts now, also while the interface is down, and
ends at the exact sum. Whether there is such a time is for `submit?` to ask. -/
def submit (now : Time) (d : Datagram) : Action (Interface τ) Unit :=
  .modify fun interface =>
    { interface with
      sendQueue := interface.sendQueue.enqueue (d.stamp (now + interface.config.lifetime)) }

/-- Gives the host the oldest received datagram that is not expired. -/
def takeReceived (now : Time) : Action (Interface τ) (Option Datagram) := do
  let taken := Queue.dequeue (← .get).receiveQueue now
  taken.expired.forM (expire now .receive)
  .modify ({ · with receiveQueue := taken.rest })
  pure taken.datagram

end Interface
end LinkLayer
