import LinkLayer.Interface.Input

/-! Requests of the host beside the data path: addresses, hardware selection, counters, bindings and
the trace. -/
namespace LinkLayer.Interface

/-- The hardware that can be selected. The first entry stands for no selection. -/
def hardwareTypes : List String := ["No selection", "USB Network"]

inductive Request where
  /-- Asks for the source address, and the adapter for its own. -/
  | macAddress
  | setMacAddress (mac : MacAddress)
  | hardwareTypes
  | selectType (selection : UInt8)
  | selectedType
  | status
  | clearCounters
  | bindings
  | clearBindings
  | trace
  | clearTrace
deriving DecidableEq, Repr

/-- The counters with what a status display shows beside them. -/
structure Status where
  counters : Counters
  hardwareAddress : MacAddress
  macAddress : MacAddress
  address : Ipv4.Address
  mask : Ipv4.Address
  bindings : Nat
  /-- How many entries the trace can hold. -/
  traceCapacity : Nat
deriving DecidableEq, Repr

inductive Answer where
  | done
  | macAddress (mac : MacAddress)
  | hardwareTypes (names : List String)
  | selectedType (selection : Option UInt8)
  | status (status : Status)
  | bindings (entries : List Arp.Entry)
  | trace (entries : List Trace.Entry)
deriving DecidableEq, Repr

variable {τ : Type} [Transport τ]

/-- Asks the adapter for its address. If that fails, the last one stays. -/
def refreshAddress (now : Time) : Action (Interface τ) Unit := do
  match ← onDevice (Device.readAddress now) with
  | .ok mac => .modify ({ · with hardwareAddress := mac })
  | .error error => .emit (.addressKept error)

def status (interface : Interface τ) : Status where
  counters := interface.counters
  hardwareAddress := interface.hardwareAddress
  macAddress := interface.macAddress
  address := interface.config.address
  mask := interface.config.mask
  bindings := interface.cache.count
  traceCapacity := interface.device.trace.capacity

/-- All bindings, copied into a buffer of just their number. -/
def bindings (interface : Interface τ) : List Arp.Entry :=
  let copied := interface.cache.snapshot (List.replicate interface.cache.count {})
  copied.2.take copied.1

def control (now : Time) (request : Request) : Action (Interface τ) Answer := do
  let interface ← .get
  match request with
  | .macAddress =>
    refreshAddress now
    pure (.macAddress interface.macAddress)
  | .setMacAddress mac =>
    .emit (.macSet mac)
    .modify ({ · with macAddress := mac })
    pure .done
  | .hardwareTypes => pure (.hardwareTypes hardwareTypes)
  | .selectType selection =>
    .modify ({ · with hardwareType := some (selection &&& 7) })
    pure .done
  | .selectedType => pure (.selectedType interface.hardwareType)
  | .status => pure (.status interface.status)
  | .clearCounters =>
    .modify ({ · with counters := {} })
    pure .done
  | .bindings => pure (.bindings interface.bindings)
  | .clearBindings =>
    .modify ({ · with cache := interface.cache.reset })
    .emit .cacheCleared
    pure .done
  | .trace => pure (.trace interface.device.trace.entries.toList)
  | .clearTrace =>
    .modify ({ · with device.trace := interface.device.trace.clear })
    pure .done

end LinkLayer.Interface
