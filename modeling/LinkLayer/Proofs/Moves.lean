import LinkLayer.Interface.Call
import LinkLayer.Proofs.WayIn

/-!
All that a call can do to an interface. Main statement: a call is one of a few that stand for
themselves, or a chain of moves (`performed_perform`). A move settles a whole queue, handles one
inbound frame, or is a call that does its work in one go.
-/
namespace LinkLayer.Interface

variable {τ : Type} [FiniteTransport τ]

/-- The pass in which a call settles datagrams of a queue, if it does that. -/
def Call.pass? : Call → Option Pass
  | sendQueued => some .first
  | receiveWaiting | handleArp _ => some .later
  | _ => none

/-- What a call does in one go. The pass is the one of the call. -/
inductive Move (clock : Clock) : Option Pass → Interface τ → List Event → Interface τ → Prop
  | passed {s t : Interface τ} {waiting : List Datagram} {events : List Event}
      (hu : s.isUp = true)
      (hp : Passed .first clock s.sendQueue.toList s { value := waiting, state := t, events }) :
      Move clock (some .first) s events
        { t with sendQueue := .empty, deferred := t.deferred.append waiting }
  | heard {message : Arp.Message} {s t : Interface τ} {events : List Event}
      (h : Heard clock message s { value := (), state := t, events }) :
      Move clock (some .later) s events t
  | unheard {reason : DropReason} {s : Interface τ} :
      Move clock (some .later) s [] { s with counters := s.counters.refuseArp reason }
  | received {bytes : Bytes} {s t u : Interface τ} {events more : List Event}
      (hr : FrameRead clock.time s { value := .ok (some bytes), state := t, events })
      (h : TakenIn clock.later bytes t { value := (), state := u, events := more }) :
      Move clock (some .later) s (events ++ more) u
  | ended {result : Except TransportError (Option Bytes)} {s t : Interface τ}
      {events : List Event} (h : FrameRead clock.time s { value := result, state := t, events })
      (hn : ∀ bytes, result ≠ .ok (some bytes)) :
      Move clock (some .later) s events t
  | taken {s : Interface τ} :
      Move clock none s ((s.receiveQueue.dequeue clock.time).expired.map
        (.expired clock.time .receive))
        { s with
          receiveQueue := (s.receiveQueue.dequeue clock.time).rest
          counters.totals.expired :=
            s.counters.totals.expired + (s.receiveQueue.dequeue clock.time).expired.length }
  | wentUp {s : Interface τ} : Move clock none s [.wentUp] { s with isUp := true }
  | wentDown {s : Interface τ} :
      Move clock none s
        [.wentDown s.sendQueue.toList s.receiveQueue.toList s.deferred.toList]
        { s with
          isUp := false, sendQueue := .empty, receiveQueue := .empty, deferred := .empty }
  | addressRead {mac : MacAddress} {transport : τ} {s : Interface τ}
      (h : Transport.readAddress s.device.transport = (.ok mac, transport)) :
      Move clock none s [.addressRead mac]
        { s with
          device := ⟨transport, s.device.trace.record clock.time .addressRead .ok mac.toBytes⟩
          hardwareAddress := mac }
  | addressKept {error : TransportError} {transport : τ} {s : Interface τ}
      (h : Transport.readAddress s.device.transport = (.error error, transport)) :
      Move clock none s [.addressReadFailed error, .addressKept error]
        { s with
          device := ⟨transport, s.device.trace.record clock.time .addressRead .failed []⟩ }
  | macSet {mac : MacAddress} {s : Interface τ} :
      Move clock none s [.macSet mac] { s with macAddress := mac }
  | typeSelected {selection : UInt8} {s : Interface τ} :
      Move clock none s [] { s with hardwareType := some (selection &&& 7) }
  | bindingsCleared {s : Interface τ} :
      Move clock none s [.cacheCleared] { s with cache := s.cache.reset }
  | traceCleared {s : Interface τ} :
      Move clock none s [] { s with device.trace := s.device.trace.clear }

/-- Moves of one call, one after the other, each by a row of readings of its own. -/
inductive Chain (pass? : Option Pass) :
    Clock → Interface τ → List Event → Interface τ → Prop
  | nil {clock : Clock} {s : Interface τ} : Chain pass? clock s [] s
  | cons {clock : Clock} {s t u : Interface τ} {events more : List Event}
      (h : Move clock pass? s events t) (hc : Chain pass? clock.nextFrame t more u) :
      Chain pass? clock s (events ++ more) u

theorem Move.chain {clock : Clock} {pass? : Option Pass} {s t : Interface τ} {events : List Event}
    (h : Move clock pass? s events t) : Chain pass? clock s events t := by
  rw [← List.append_nil events]
  exact .cons h .nil

omit [FiniteTransport τ] in
theorem run_expire (now : Time) (place : Place) (ds : List Datagram) (s : Interface τ) :
    (ds.forM (expire now place)).run s =
      { value := ()
        state := { s with
          counters.totals.expired := s.counters.totals.expired + ds.length }
        events := ds.map (.expired now place) } := by
  induction ds generalizing s with
  | nil => rfl
  | cons d ds ih =>
    simp only [List.forM_eq_forM, List.forM_cons, Action.run_bind, expire, count, Action.run_modify,
      Action.run_emit, List.nil_append, List.length_cons, List.map_cons] at ih ⊢
    simp only [ih, List.singleton_append, Nat.add_assoc, Nat.add_comm 1]

omit [FiniteTransport τ] in
theorem run_takeReceived (now : Time) (s : Interface τ) :
    (takeReceived now).run s =
      { value := (s.receiveQueue.dequeue now).datagram
        state := { s with
          receiveQueue := (s.receiveQueue.dequeue now).rest
          counters.totals.expired :=
            s.counters.totals.expired + (s.receiveQueue.dequeue now).expired.length }
        events := (s.receiveQueue.dequeue now).expired.map (.expired now .receive) } := by
  simp only [takeReceived, Action.run_bind, Action.run_get, run_expire, Action.run_modify,
    Action.run_pure, List.nil_append, List.append_nil]

theorem receiveUpTo_chain (clock : Clock) (limit : Nat) (s : Interface τ) :
    Chain (some .later) clock s ((receiveUpTo clock limit).run s).events
      ((receiveUpTo clock limit).run s).state := by
  induction limit generalizing clock s with
  | zero => exact .nil
  | succ limit ih =>
    have h := frameRead_read clock.time s
    simp only [receiveUpTo, Action.run_bind]
    generalize (read clock.time).run s = o at h ⊢
    obtain ⟨result, t, events⟩ := o
    cases result with
    | error error =>
      simpa using (Move.ended h (by simp)).chain
    | ok found =>
      cases found with
      | none =>
        simpa using (Move.ended h (by simp)).chain
      | some bytes =>
        have ht := takenIn_takeIn clock.later bytes t
        simp only [Action.run_bind]
        generalize (takeIn clock.later bytes).run t = o at ht ⊢
        rw [← List.append_assoc]
        exact .cons (.received h ht) (ih clock.nextFrame o.state)

theorem control_chain (clock : Clock) {request : Request} (hr : request ≠ .clearCounters)
    (s : Interface τ) :
    Chain none clock s ((control clock.time request).run s).events
      ((control clock.time request).run s).state := by
  cases request with
  | macAddress =>
    rcases h : Transport.readAddress s.device.transport with ⟨result, transport⟩
    simp only [control, refreshAddress, onDevice, Action.run_bind, Action.run_get,
      Action.run_onPart, Action.run_pure]
    simp only [Action.run, Device.readAddress, h]
    cases result with
    | ok mac => exact (Move.addressRead h).chain
    | error error => exact (Move.addressKept h).chain
  | setMacAddress mac => exact Move.macSet.chain
  | selectType selection => exact Move.typeSelected.chain
  | clearCounters => exact absurd rfl hr
  | clearBindings => exact Move.bindingsCleared.chain
  | clearTrace => exact Move.traceCleared.chain
  | hardwareTypes => exact .nil
  | selectedType => exact .nil
  | status => exact .nil
  | bindings => exact .nil
  | trace => exact .nil

theorem config_of_heard {clock : Clock} {message : Arp.Message} {s t : Interface τ}
    {events : List Event} (h : Heard clock message s { value := (), state := t, events }) :
    t.config = s.config := by
  cases h with
  | intro ha hp =>
    obtain ⟨_, _, _, rfl⟩ := sends_of_answered ha
    obtain ⟨_, _, _, rfl⟩ := sends_of_passed hp
    rfl

theorem config_of_takenIn {clock : Clock} {bytes : Bytes} {s t : Interface τ} {events : List Event}
    (h : TakenIn clock bytes s { value := (), state := t, events }) : t.config = s.config := by
  cases h with
  | heard hk hm ha =>
    have hc := config_of_heard ha
    exact hc
  | unknown | broadcast | queued | badIp | badArp => rfl

/-- The settings are none of what a move changes. -/
theorem config_of_move {clock : Clock} {pass? : Option Pass} {s t : Interface τ}
    {events : List Event} (h : Move clock pass? s events t) : t.config = s.config := by
  cases h with
  | passed hu hp =>
    obtain ⟨_, _, _, rfl⟩ := sends_of_passed hp
    rfl
  | heard h => exact config_of_heard h
  | received hr h =>
    cases hr with
    | frame hr =>
      have hc := config_of_takenIn h
      exact hc
  | ended h hn => cases h <;> rfl
  | _ => rfl

theorem config_of_chain {clock : Clock} {pass? : Option Pass} {s t : Interface τ}
    {events : List Event} (h : Chain pass? clock s events t) : t.config = s.config := by
  induction h with
  | nil => rfl
  | cons h hc ih => exact ih.trans (config_of_move h)

/-- All that a call can do. -/
inductive Performed (clock : Clock) (s : Interface τ) : Call → List Event → Interface τ → Prop
  | submitted {d : Datagram} :
      Performed clock s (.submit d) []
        { s with sendQueue := s.sendQueue.enqueue (d.stamp (clock.time + s.config.lifetime)) }
  | addressSet {ip : Ipv4.Address} :
      Performed clock s (.setAddress ip) [.addressSet ip] { s with config.address := ip }
  | maskSet {mask : Ipv4.Address} :
      Performed clock s (.setMask mask) [.maskSet mask] { s with config.mask := mask }
  | delivered {d : Datagram} {result : Except DropReason Delivery} {events : List Event}
      {t : Interface τ} (h : Delivered clock.time d s { value := result, state := t, events }) :
      Performed clock s (.output d) events t
  | queued {frame : Ethernet.Frame} {packet : Ipv4.Packet}
      (h : Ipv4.Packet.ofFrame frame = .ok packet) :
      Performed clock s (.handleIp frame)
        [.queued clock.time ((Datagram.ofPacket packet).stamp (clock.time + s.config.lifetime))]
        { s with
          receiveQueue := s.receiveQueue.enqueue
            ((Datagram.ofPacket packet).stamp (clock.time + s.config.lifetime)) }
  | countersCleared : Performed clock s (.control .clearCounters) [] { s with counters := {} }
  | moved {call : Call} {events : List Event} {t : Interface τ}
      (hs : ∀ d, call ≠ .submit d) (h : Chain call.pass? clock s events t) :
      Performed clock s call events t

/-- The whole queue is settled, and what has to wait joins what is deferred. -/
theorem run_sendQueued {s : Interface τ} (hu : s.isUp = true) (clock : Clock) :
    (perform clock .sendQueued).run s =
      let o := (settleAll .first clock s.sendQueue.toList).run s
      { value := .nothing
        state := { o.state with
          sendQueue := .empty, deferred := o.state.deferred.append o.value }
        events := o.events } := by
  simp only [perform, sendQueued, Action.run_bind, Action.run_get, hu, if_true, Action.run_modify,
    Action.run_pure, List.append_nil, List.nil_append]

theorem performed_perform (clock : Clock) (call : Call) (s : Interface τ) :
    Performed clock s call ((perform clock call).run s).events
      ((perform clock call).run s).state := by
  cases call with
  | submit d => exact .submitted
  | setAddress ip => exact .addressSet
  | setMask mask => exact .maskSet
  | setUp up =>
    cases up with
    | true => exact .moved (by simp) Move.wentUp.chain
    | false => exact .moved (by simp) Move.wentDown.chain
  | sendQueued =>
    by_cases hu : s.isUp = true
    · have h := passed_settleAll .first clock s.sendQueue.toList s
      rw [run_sendQueued hu]
      exact .moved (by simp) (Move.passed hu h).chain
    · simp only [perform, sendQueued, Action.run_bind, Action.run_get, hu,
        Action.run_pure, List.append_nil]
      exact .moved (by simp) .nil
  | receiveWaiting =>
    by_cases hu : s.isUp = true
    · simp only [perform, receiveWaiting, Action.run_bind, Action.run_get, hu, if_true,
        Action.run_pure, List.append_nil]
      exact .moved (by simp) (receiveUpTo_chain clock _ s)
    · simp only [perform, receiveWaiting, Action.run_bind, Action.run_get, hu,
        Action.run_pure, List.append_nil]
      exact .moved (by simp) .nil
  | takeReceived =>
    simp only [perform, run_takeReceived, Action.run_bind, Action.run_pure, List.append_nil]
    exact .moved (by simp) Move.taken.chain
  | output d =>
    have h := delivered_output clock.time d s
    simp only [perform, Action.run_bind, Action.run_pure, List.append_nil]
    exact .delivered h
  | handleArp frame =>
    simp only [perform, Action.run_bind, Action.run_pure, List.append_nil]
    cases hm : Arp.Message.ofFrame frame with
    | error reason =>
      rw [run_handleArp_of_error hm]
      exact .moved (by simp) Move.unheard.chain
    | ok message => exact .moved (by simp) (Move.heard (heard_handleArp hm clock s).2).chain
  | handleIp frame =>
    simp only [perform, handleIp, Action.run_bind, Action.run_pure, List.append_nil]
    cases hp : Ipv4.Packet.ofFrame frame with
    | error error => exact .moved (by simp) .nil
    | ok packet => exact .queued hp
  | control request =>
    by_cases hr : request = .clearCounters
    · subst hr
      exact .countersCleared
    · simp only [perform, Action.run_bind, Action.run_pure, List.append_nil]
      exact .moved (by simp) (control_chain clock hr s)

/-- A call that makes a pass is a chain of moves of that pass. -/
theorem chain_of_pass {call : Call} {pass : Pass} (hp : call.pass? = some pass) (clock : Clock)
    (s : Interface τ) :
    Chain (some pass) clock s ((perform clock call).run s).events
      ((perform clock call).run s).state := by
  have h := performed_perform clock call s
  generalize (perform clock call).run s = o at h ⊢
  obtain ⟨reply, t, events⟩ := o
  cases h with
  | moved hs h => exact hp ▸ h
  | submitted | addressSet | maskSet | delivered | queued | countersCleared => cases hp

end LinkLayer.Interface
