import LinkLayer.Proofs.Moves
import LinkLayer.Proofs.RoundTrip

/-!
Runs of an interface. The host makes calls in any order, each by a clock of its own, and between
them the adapter may change in any way. A run leaves a state and the history of what each call did.
-/
namespace LinkLayer.Interface

variable {τ : Type} [FiniteTransport τ]

/-- A step of a run. The adapter changes from outside, whatever the reason. -/
inductive Step (τ : Type) where
  | call (clock : Clock) (call : Call)
  | adapter (change : τ → τ)

/-- The call does not make the network of the interface another one. -/
def Call.KeepsNetwork (config : Config) : Call → Prop
  | setAddress ip => ip = config.address
  | setMask mask => mask = config.mask
  | _ => True

/-- Whether a call goes past the queues and the adapter. -/
def Call.isDirect : Call → Bool
  | output _ | handleArp _ | handleIp _ => true
  | _ => false

def Step.KeepsNetwork (config : Config) : Step τ → Prop
  | .call _ made => made.KeepsNetwork config
  | .adapter _ => True

/-- A call that was made, with all that came of it. -/
structure Made where
  call : Call
  reply : Reply
  events : List Event

/-- What is left of a run. -/
structure Left (τ : Type) where
  history : List Made
  state : Interface τ

/-- Takes the steps one after the other. -/
def run : List (Step τ) → Interface τ → Left τ
  | [], s => { history := [], state := s }
  | .call clock call :: steps, s =>
    let outcome := (perform clock call).run s
    let left := run steps outcome.state
    { left with history := ⟨call, outcome.value, outcome.events⟩ :: left.history }
  | .adapter change :: steps, s =>
    run steps { s with device.transport := change s.device.transport }

/-- The settings stay the same as long as nobody makes the network another one. -/
theorem config_of_performed {clock : Clock} {call : Call} {s t : Interface τ} {events : List Event}
    (h : Performed clock s call events t) (hk : call.KeepsNetwork s.config) :
    t.config = s.config := by
  cases h with
  | submitted | queued | countersCleared => rfl
  | addressSet | maskSet =>
    cases hk
    rfl
  | delivered h =>
    obtain ⟨_, _, _, rfl⟩ := sends_of_delivered h
    rfl
  | moved hm h => exact config_of_chain h

/-- The datagram that a call hands in. -/
def Call.submitted? : Call → Option Datagram
  | submit d => some d
  | _ => none

def Made.submitted? (made : Made) : Option Datagram := made.call.submitted?

def Step.submitted? : Step τ → Option Datagram
  | .call _ made => made.submitted?
  | .adapter _ => none

/-- What the host handed in, in order. -/
def submitted (history : List Made) : List Datagram := history.filterMap Made.submitted?

theorem submitted_append (history : List Made) (made : Made) :
    submitted (history ++ [made]) = submitted history ++ made.submitted?.toList := by
  cases h : made.submitted? <;> simp [submitted, h]

theorem submitted_run (steps : List (Step τ)) (s : Interface τ) :
    submitted (run steps s).history = steps.filterMap Step.submitted? := by
  induction steps generalizing s with
  | nil => rfl
  | cons step steps ih =>
    cases step with
    | adapter change => exact ih _
    | call clock call =>
      simp only [run, submitted, List.filterMap_cons, Made.submitted?, Step.submitted?] at ih ⊢
      rw [ih]

/-- All that happened in a history, in order. -/
def happened (history : List Made) : List Event := history.flatMap Made.events

theorem happened_append (history : List Made) (made : Made) :
    happened (history ++ [made]) = happened history ++ made.events := by
  simp [happened]

/-- An IPv4 frame that the adapter took. -/
def ipv4Frame? : Event → Option Bytes
  | .frameWritten frame =>
    if (Ethernet.Frame.mk frame).etherType.toOption = some Ethernet.ipv4Type then some frame
    else none
  | _ => none

/-- The IPv4 frames that were written in passes, in the order of the wire. -/
def passFrames (history : List Made) : List Bytes :=
  history.flatMap fun made =>
    if made.call.pass?.isSome then made.events.filterMap ipv4Frame? else []

theorem eq_of_ipv4Frame? {frame other : Bytes}
    (h : ipv4Frame? (.frameWritten frame) = some other) : other = frame := by
  simp only [ipv4Frame?, Option.ite_none_right_eq_some, Option.some.injEq] at h
  exact h.2.symm

theorem ipv4Frame?_toFrame (d : Datagram) (dest source : MacAddress) :
    ipv4Frame? (.frameWritten (d.toFrame dest source).bytes) =
      some (d.toFrame dest source).bytes := by
  have h := d.etherType_toFrame dest source
  simp [ipv4Frame?, h, Except.toOption]

theorem ipv4Frame?_message (message : Arp.Message) :
    ipv4Frame? (.frameWritten message.toFrame.bytes) = none := by
  have h : message.toFrame.etherType = .ok Ethernet.arpType := rfl
  simp [ipv4Frame?, h, Except.toOption, Ethernet.arpType, Ethernet.ipv4Type]

/-- An interface is created only from settings that pass the check, and with room for the trace and
the cache. -/
theorem created {config : Config} {now : Time} {transport : τ} {s : Interface τ}
    (h : ((create config now).run transport).value = .ok s) :
    config.validate = .ok () ∧ config.traceCapacity ≤ Trace.maxCapacity ∧
      config.cacheCapacity ≤ Arp.Cache.maxCapacity ∧
      ∃ device mac, s = {
        config, device, hardwareAddress := mac, macAddress := mac
        cache := .empty config.cacheCapacity } := by
  simp only [Action.run, create] at h
  split at h
  · cases h
  rename_i hvalid
  split at h
  · cases h
  rename_i htrace
  split at h
  · cases h
  dsimp only at h
  split at h
  · cases h
  rename_i hcache
  cases h
  exact ⟨hvalid, Nat.le_of_not_lt htrace, Nat.le_of_not_lt hcache, _, _, rfl⟩

theorem eq_of_create {config : Config} {now : Time} {transport : τ} {s : Interface τ}
    (h : ((create config now).run transport).value = .ok s) :
    ∃ device mac, s = {
      config, device, hardwareAddress := mac, macAddress := mac
      cache := .empty config.cacheCapacity } := by
  obtain ⟨-, -, -, hs⟩ := created h
  exact hs

theorem counters_of_create {config : Config} {now : Time} {transport : τ} {s : Interface τ}
    (h : ((create config now).run transport).value = .ok s) : s.counters = {} := by
  obtain ⟨_, _, rfl⟩ := eq_of_create h
  rfl

theorem filterMap_ipv4Frame?_chain {clock : Clock} {s t : Interface τ} {events : List Event}
    (h : Chain none clock s events t) : events.filterMap ipv4Frame? = [] := by
  induction h with
  | nil => rfl
  | cons h hc ih =>
    rw [List.filterMap_append, ih, List.append_nil]
    cases h with
    | taken => simp [ipv4Frame?]
    | _ => rfl

/-- A call that makes no pass writes no IPv4 frame, unless the host sends one on its own. -/
theorem filterMap_ipv4Frame?_perform {call : Call} (hp : call.pass? = none)
    (ho : ∀ d, call ≠ .output d) (clock : Clock) (s : Interface τ) :
    ((perform clock call).run s).events.filterMap ipv4Frame? = [] := by
  have h := performed_perform clock call s
  generalize (perform clock call).run s = o at h ⊢
  obtain ⟨reply, t, events⟩ := o
  cases h with
  | delivered h => exact absurd rfl (ho _)
  | moved hs h => exact filterMap_ipv4Frame?_chain (hp ▸ h)
  | submitted | addressSet | maskSet | queued | countersCleared => rfl

theorem passFrames_run {steps : List (Step τ)} (ho : ∀ clock d, .call clock (.output d) ∉ steps)
    (s : Interface τ) :
    passFrames (run steps s).history =
      (happened (run steps s).history).filterMap ipv4Frame? := by
  induction steps generalizing s with
  | nil => rfl
  | cons step steps ih =>
    have ho' : ∀ clock d, .call clock (.output d) ∉ steps := fun clock d hm =>
      ho clock d (List.mem_cons_of_mem _ hm)
    cases step with
    | adapter change => exact ih ho' _
    | call clock call =>
      have hrest := ih ho' ((perform clock call).run s).state
      simp only [run, passFrames, happened, List.flatMap_cons, List.filterMap_append] at hrest ⊢
      rw [hrest]
      cases hp : call.pass? with
      | some pass => rfl
      | none =>
        have hn : ∀ d, call ≠ .output d := by
          rintro d rfl
          exact ho clock d List.mem_cons_self
        rw [filterMap_ipv4Frame?_perform hp hn]
        rfl

end LinkLayer.Interface
