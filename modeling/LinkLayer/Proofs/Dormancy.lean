import LinkLayer.Proofs.Tracing

/-!
An interface that is down. Main statement: as long as it is not taken up nothing passes between it
and the adapter, nothing is counted and nothing is received, and what the host hands in waits in
order until going down once more releases it (`down_is_dormant`).
-/
namespace LinkLayer.Interface

open Transport (Transfer)

variable {τ : Type} [FiniteTransport τ] {clock : Clock} {s t : Interface τ} {events : List Event}
  {pass : Pass} {call : Call} {steps before during : List (Step τ)}

/-- Down, with no trace of what came or had to wait while it was up. -/
structure Resting (s : Interface τ) : Prop where
  isUp : s.isUp = false
  deferred : s.deferred = .empty
  receiveQueue : s.receiveQueue = .empty

/-- Whether a step takes the interface up. -/
def Step.starts : Step τ → Bool
  | .call _ made => made = .setUp true
  | .adapter _ => false

/-- Whether a step takes the interface down. -/
def Step.stops : Step τ → Bool
  | .call _ made => made = .setUp false
  | .adapter _ => false

def Step.clearsCounters : Step τ → Bool
  | .call _ made => made = .control .clearCounters
  | .adapter _ => false

def Step.isDirect : Step τ → Bool
  | .call _ made => made.isDirect
  | .adapter _ => false

/-- What the host hands in, and when. -/
def Step.submission? : Step τ → Option (Time × Datagram)
  | .call clock made => made.submitted?.map (clock.time, ·)
  | .adapter _ => none

/-- What a step makes of the adapter if no frame passes: it may be asked for its address. -/
def Step.aside : Step τ → τ → τ
  | .adapter change, t => change t
  | .call _ (.control .macAddress), t => (Transport.readAddress t).2
  | .call _ _, t => t

/-- What steps make of the adapter if no frame passes. -/
def adapterAfter (steps : List (Step τ)) (t : τ) : τ :=
  steps.foldl (fun t step => step.aside t) t

/-- What was handed in since the interface was taken down last, as it waits. -/
def handedIn (lifetime : Time) (steps : List (Step τ)) : List Datagram :=
  ((steps.rtakeWhile (!·.stops)).filterMap Step.submission?).map (stamped lifetime)

section Call

/-- All that a call does to an interface that is down and stays so. -/
structure Dozes (clock : Clock) (call : Call) (s : Interface τ) (o : Outcome (Interface τ) Reply) :
    Prop where
  resting : Resting o.state
  adapter : o.state.device.transport = (Step.call clock call).aside s.device.transport
  uses : ∀ transfer ∈ transfers o.events, transfer.isAddressRead = true
  reply : call = .takeReceived → o.value = .received none
  counters : o.state.counters = if call = .control .clearCounters then {} else s.counters
  sendQueue : o.state.sendQueue.toList =
    if call = .setUp false then []
    else s.sendQueue.toList ++
      (call.submitted?.map (·.stamp (clock.time + s.config.lifetime))).toList
  lifetime : o.state.config.lifetime = s.config.lifetime

/-- While the interface is down nothing is sent and nothing is read. -/
theorem run_of_isDown (hs : Resting s) (hc : call = .sendQueued ∨ call = .receiveWaiting)
    (clock : Clock) : (perform clock call).run s = { value := .nothing, state := s } := by
  rcases hc with rfl | rfl
  · simp [perform, sendQueued, hs.isUp]
  · simp [perform, receiveWaiting, hs.isUp]

theorem run_takeReceived_of_resting (hs : Resting s) (clock : Clock) :
    (perform clock .takeReceived).run s = { value := .received none, state := s } := by
  obtain ⟨-, -, hnone⟩ := hs
  cases s
  cases hnone
  rfl

theorem dozes_perform (hs : Resting s) (hd : call.isDirect = false) (hu : call ≠ .setUp true)
    (clock : Clock) : Dozes clock call s ((perform clock call).run s) := by
  have hrest {state : Interface τ} (h₁ : state.isUp = s.isUp) (h₂ : state.deferred = s.deferred)
      (h₃ : state.receiveQueue = s.receiveQueue) : Resting state :=
    ⟨h₁.trans hs.isUp, h₂.trans hs.deferred, h₃.trans hs.receiveQueue⟩
  cases call with
  | setUp up =>
    cases up with
    | true => exact absurd rfl hu
    | false => exact ⟨⟨rfl, rfl, rfl⟩, rfl, List.forall_mem_nil _, nofun, rfl, rfl, rfl⟩
  | setAddress | setMask =>
    exact ⟨hrest rfl rfl rfl, rfl, List.forall_mem_nil _, nofun, rfl, (List.append_nil _).symm, rfl⟩
  | submit d =>
    exact ⟨hrest rfl rfl rfl, rfl, List.forall_mem_nil _, nofun, rfl, Fifo.toList_push .., rfl⟩
  | sendQueued =>
    rw [run_of_isDown hs (.inl rfl)]
    exact ⟨hs, rfl, List.forall_mem_nil _, nofun, rfl, (List.append_nil _).symm, rfl⟩
  | receiveWaiting =>
    rw [run_of_isDown hs (.inr rfl)]
    exact ⟨hs, rfl, List.forall_mem_nil _, nofun, rfl, (List.append_nil _).symm, rfl⟩
  | takeReceived =>
    rw [run_takeReceived_of_resting hs]
    exact ⟨hs, rfl, List.forall_mem_nil _, fun _ => rfl, rfl, (List.append_nil _).symm, rfl⟩
  | output | handleArp | handleIp => cases hd
  | control request =>
    cases request with
    | macAddress =>
      obtain ⟨-, hasked, trace, hardwareAddress, hstate⟩ := traced_macAddress clock s
      generalize (perform clock (.control .macAddress)).run s = o at hasked hstate ⊢
      obtain ⟨reply, t, events⟩ := o
      cases hstate
      have hreads : ∀ transfer ∈ transfers events, transfer.isAddressRead = true := by
        rw [hasked]
        exact List.forall_mem_singleton.mpr rfl
      exact ⟨hrest rfl rfl rfl, rfl, hreads, nofun, rfl, (List.append_nil _).symm, rfl⟩
    | _ =>
      exact ⟨hrest rfl rfl rfl, rfl, List.forall_mem_nil _, nofun, rfl, (List.append_nil _).symm,
        rfl⟩

end Call

section Run

/-- All that a run does to an interface that is down, with nothing on its way out, and stays
down. -/
structure Dormant (s : Interface τ) (steps : List (Step τ)) : Prop where
  resting : Resting (run steps s).state
  adapter : (run steps s).state.device.transport = adapterAfter steps s.device.transport
  uses : ∀ transfer ∈ transfers (happened (run steps s).history),
    transfer.isAddressRead = true
  replies : ∀ made ∈ (run steps s).history, made.call = .takeReceived →
    made.reply = .received none
  counters : (run steps s).state.counters =
    if steps.any Step.clearsCounters then {} else s.counters
  sendQueue : (run steps s).state.sendQueue.toList = handedIn s.config.lifetime steps
  lifetime : (run steps s).state.config.lifetime = s.config.lifetime

omit [FiniteTransport τ] in
theorem handedIn_concat (lifetime : Time) (steps : List (Step τ)) (step : Step τ) :
    handedIn lifetime (steps ++ [step]) =
      if step.stops then []
      else handedIn lifetime steps ++ (step.submission?.map (stamped lifetime)).toList := by
  rw [handedIn, List.rtakeWhile_concat]
  cases hs : step.stops with
  | true => rfl
  | false =>
    cases hp : step.submission? <;> simp [handedIn, hp]

theorem adapterAfter_concat (steps : List (Step τ)) (step : Step τ) (t : τ) :
    adapterAfter (steps ++ [step]) t = step.aside (adapterAfter steps t) := List.foldl_append

/-- One more call in which the interface dozes. -/
theorem Dormant.append_call (h : Dormant s steps)
    (hc : Dozes clock call (run steps s).state ((perform clock call).run (run steps s).state)) :
    Dormant s (steps ++ [.call clock call]) := by
  constructor <;> rw [run_concat_call]
  · exact hc.resting
  · rw [hc.adapter, h.adapter, adapterAfter_concat]
  · rw [happened_append, transfers_append]
    exact List.forall_mem_append.mpr ⟨h.uses, hc.uses⟩
  · refine List.forall_mem_append.mpr ⟨h.replies, List.forall_mem_singleton.mpr ?_⟩
    exact hc.reply
  · rw [List.any_append, hc.counters, h.counters]
    by_cases hclear : call = .control .clearCounters <;>
      simp [Step.clearsCounters, hclear]
  · rw [handedIn_concat, hc.sendQueue, h.sendQueue, h.lifetime]
    by_cases hstop : call = .setUp false
    · simp [Step.stops, hstop]
    · cases hc : call.submitted? <;> simp [Step.stops, Step.submission?, hstop, hc, stamped]
  · exact hc.lifetime.trans h.lifetime

/-- A change from outside, which does not concern the interface itself. -/
theorem Dormant.append_adapter (h : Dormant s steps) (change : τ → τ) :
    Dormant s (steps ++ [.adapter change]) := by
  constructor <;> rw [run_concat_adapter]
  · exact ⟨h.resting.isUp, h.resting.deferred, h.resting.receiveQueue⟩
  · rw [adapterAfter_concat, ← h.adapter]
    rfl
  · exact h.uses
  · exact h.replies
  · rw [List.any_append, h.counters]
    simp [Step.clearsCounters]
  · rw [handedIn_concat, h.sendQueue]
    exact (List.append_nil _).symm
  · exact h.lifetime

theorem dormant_run (hs : Resting s) (hq : s.sendQueue = .empty)
    (hd : ∀ step ∈ steps, step.isDirect = false) (hu : ∀ step ∈ steps, step.starts = false) :
    Dormant s steps := by
  induction steps using List.reverseRecOn with
  | nil =>
    have hqueue : s.sendQueue.toList = [] := by rw [hq, Fifo.toList_empty]
    exact ⟨hs, rfl, List.forall_mem_nil _, List.forall_mem_nil _, rfl, hqueue, rfl⟩
  | append_singleton steps step ih =>
    have h := ih (fun other hm => hd other (List.mem_append_left _ hm))
      (fun other hm => hu other (List.mem_append_left _ hm))
    have hdirect := hd step (List.mem_append_right _ List.mem_cons_self)
    have hstart := hu step (List.mem_append_right _ List.mem_cons_self)
    cases step with
    | adapter change => exact h.append_adapter change
    | call clock call =>
      have hcall : call ≠ .setUp true := by simpa [Step.starts] using hstart
      exact h.append_call (dozes_perform h.resting hdirect hcall clock)

end Run

section Vacancy

theorem isUp_heard {message : Arp.Message}
    (h : Heard clock message s { value := (), state := t, events }) : t.isUp = s.isUp := by
  cases h with
  | intro ha hp =>
    obtain ⟨_, _, _, rfl⟩ := sends_of_answered ha
    obtain ⟨_, _, _, rfl⟩ := sends_of_passed hp
    rfl

theorem isUp_takenIn {bytes : Bytes}
    (h : TakenIn clock bytes s { value := (), state := t, events }) : t.isUp = s.isUp := by
  cases h with
  | heard hk hm ha =>
    have hu := isUp_heard ha
    exact hu
  | unknown | broadcast | queued | badIp | badArp => rfl

theorem isUp_move (h : Move clock (some pass) s events t) : t.isUp = s.isUp := by
  cases h with
  | passed hu hp =>
    obtain ⟨_, _, _, rfl⟩ := sends_of_passed hp
    rfl
  | heard h => exact isUp_heard h
  | unheard => rfl
  | received hr h =>
    cases hr with
    | frame hr =>
      have hu := isUp_takenIn h
      exact hu
  | ended h hn => cases h <;> rfl

theorem isUp_chain (h : Chain (some pass) clock s events t) : t.isUp = s.isUp := by
  induction h with
  | nil => rfl
  | cons h hc ih => exact ih.trans (isUp_move h)

/-- Only the host takes the interface up or down. -/
theorem isUp_perform (hd : call.isDirect = false) (hu : ∀ up, call ≠ .setUp up) (clock : Clock)
    (s : Interface τ) : ((perform clock call).run s).state.isUp = s.isUp := by
  cases call with
  | sendQueued | receiveWaiting => exact isUp_chain (chain_of_pass rfl clock s)
  | setUp up => exact absurd rfl (hu up)
  | setAddress | setMask | submit => rfl
  | takeReceived => simp [perform, run_takeReceived]
  | output | handleArp | handleIp => cases hd
  | control request =>
    cases request with
    | macAddress =>
      obtain ⟨-, -, trace, hardwareAddress, hstate⟩ := traced_macAddress clock s
      rw [hstate]
    | _ => rfl

theorem resting_perform (hs : s.isUp = false → Resting s) (hd : call.isDirect = false)
    (clock : Clock) (hdown : ((perform clock call).run s).state.isUp = false) :
    Resting ((perform clock call).run s).state := by
  by_cases hstart : call = .setUp true
  · subst hstart
    cases hdown
  · by_cases hstop : call = .setUp false
    · subst hstop
      exact ⟨rfl, rfl, rfl⟩
    · have hn : ∀ up, call ≠ .setUp up := fun up => by cases up <;> assumption
      rw [isUp_perform hd hn] at hdown
      exact (dozes_perform (hs hdown) hd hstart clock).resting

/-- Whenever the interface is down it rests. -/
theorem resting_run (hs : s.isUp = false → Resting s)
    (hd : ∀ step ∈ steps, step.isDirect = false) (hdown : (run steps s).state.isUp = false) :
    Resting (run steps s).state := by
  induction steps generalizing s with
  | nil => exact hs hdown
  | cons step steps ih =>
    have hrest := fun other hm => hd other (List.mem_cons_of_mem _ hm)
    cases step with
    | adapter change =>
      refine ih (fun h => ?_) hrest hdown
      have hr := hs h
      exact ⟨hr.isUp, hr.deferred, hr.receiveQueue⟩
    | call clock call =>
      have hdirect : call.isDirect = false := hd _ List.mem_cons_self
      exact ih (resting_perform hs hdirect clock) hrest hdown

end Vacancy

/-- What a run leaves that was down from the start or was just taken down. -/
theorem resting_of_stopped (hs : Resting s) (hq : s.sendQueue = .empty)
    (hb : before = [] ∨ ∃ earlier clock, before = earlier ++ [.call clock (.setUp false)]) :
    Resting (run before s).state ∧ (run before s).state.sendQueue = .empty := by
  rcases hb with rfl | ⟨earlier, clock, rfl⟩
  · exact ⟨hs, hq⟩
  · rw [run_concat_call]
    exact ⟨⟨rfl, rfl, rfl⟩, rfl⟩

/-- What comes to the adapter stays there. -/
theorem prefix_adapterAfter {wire : τ → List Bytes}
    (hread : ∀ t, wire (Transport.readAddress t).2 = wire t)
    (hchange : ∀ change, .adapter change ∈ steps → ∀ t, wire t <+: wire (change t)) (t : τ) :
    wire t <+: wire (adapterAfter steps t) := by
  induction steps generalizing t with
  | nil => exact List.prefix_rfl
  | cons step steps ih =>
    have hfirst : wire t <+: wire (step.aside t) := by
      unfold Step.aside
      split
      · exact hchange _ List.mem_cons_self t
      · exact (hread t).symm ▸ List.prefix_rfl
      · exact List.prefix_rfl
    exact hfirst.trans (ih (fun change hm => hchange change (List.mem_cons_of_mem _ hm)) _)

/-- An interface that is down has nothing deferred and nothing received. From when it was created or
taken down until it is taken up, the adapter is asked for its address at most, so what waits there
stays; the host gets nothing; the counters stand still unless they are cleared; and what the host
hands in waits in order, expired or not, until going down once more releases it. -/
theorem down_is_dormant {config : Config} {first : Time} {transport : τ}
    (hc : ((create config first).run transport).value = .ok s)
    (hd : ∀ step ∈ steps, step.isDirect = false) :
    ((run steps s).state.isUp = false →
      (run steps s).state.deferred = .empty ∧ (run steps s).state.receiveQueue = .empty) ∧
    ∀ before during : List (Step τ), steps = before ++ during →
      (before = [] ∨ ∃ earlier clock, before = earlier ++ [.call clock (.setUp false)]) →
      (∀ step ∈ during, step.starts = false) →
      let v := (run before s).state
      let left := run during v
      let waiting := handedIn config.lifetime during
      left.state.isUp = false ∧
        left.state.device.transport = adapterAfter during v.device.transport ∧
        (∀ transfer ∈ transfers (happened left.history), transfer.isAddressRead = true) ∧
        (∀ wire : τ → List Bytes, (∀ t, wire (Transport.readAddress t).2 = wire t) →
          (∀ change, .adapter change ∈ during → ∀ t, wire t <+: wire (change t)) →
          wire v.device.transport <+: wire left.state.device.transport) ∧
        (∀ made ∈ left.history, made.call = .takeReceived → made.reply = .received none) ∧
        left.state.counters = (if during.any Step.clearsCounters then {} else v.counters) ∧
        left.state.sendQueue.toList = waiting ∧
        ∀ clock,
          ((perform clock (.setUp false)).run left.state).events = [.wentDown waiting [] []] ∧
          ((perform clock (.setUp true)).run left.state).state =
            { left.state with isUp := true } := by
  obtain ⟨device, mac, hs⟩ := eq_of_create hc
  have hrest : Resting s := by
    subst hs
    exact ⟨rfl, rfl, rfl⟩
  have hempty : s.sendQueue = .empty := by rw [hs]
  have hlifetime : s.config.lifetime = config.lifetime := by rw [hs]
  refine ⟨?_, ?_⟩
  · intro hdown
    have h := resting_run (fun _ => hrest) hd hdown
    exact ⟨h.deferred, h.receiveQueue⟩
  · intro before during hsteps hbefore hduring v left waiting
    obtain ⟨hv, hq⟩ := resting_of_stopped hrest hempty hbefore
    have hdirect : ∀ step ∈ during, step.isDirect = false := fun step hm =>
      hd step (hsteps ▸ List.mem_append_right _ hm)
    have h : Dormant v during := dormant_run hv hq hdirect hduring
    have hwaiting : left.state.sendQueue.toList = waiting := by
      rw [h.sendQueue, (line_run before s).2, hlifetime]
    refine ⟨h.resting.isUp, h.adapter, h.uses, ?_, h.replies, h.counters, hwaiting, ?_⟩
    · intro wire hread hchange
      rw [h.adapter]
      exact prefix_adapterAfter hread hchange _
    · intro clock
      refine ⟨?_, rfl⟩
      change [Event.wentDown left.state.sendQueue.toList left.state.receiveQueue.toList
        left.state.deferred.toList] = _
      rw [hwaiting, h.resting.receiveQueue, h.resting.deferred]
      rfl

/-- The interface goes down with a datagram deferred, another received and a frame still to come.
The frame stays in the inbox, and of two datagrams that are handed in both wait, though the first
one grows too old. -/
theorem down_is_dormant_between :
    let config : Config :=
      { address := ⟨192, 168, 1, 1⟩, mask := ⟨255, 255, 255, 0⟩, lifetime := 10 }
    ∃ s, ((create config 0).run ({ address := ⟨2, 0, 0, 0, 0, 1⟩ } : Adapter)).value = .ok s ∧
      let letter (n : UInt8) := Datagram.make { dest := ⟨192, 168, 1, n⟩ } [] [7]
      let inbound := ((letter 1).toFrame ⟨2, 0, 0, 0, 0, 1⟩ ⟨2, 0, 0, 0, 0, 2⟩).bytes
      let inject : Step Adapter := .adapter (Adapter.inject · inbound)
      let earlier : List (Step Adapter) := [.call 0 (.setUp true), .call 0 (.submit (letter 2)),
        .call 0 .sendQueued, inject, .call 0 .receiveWaiting, inject]
      let before := earlier ++ [.call 1 (.setUp false)]
      let during : List (Step Adapter) := [.call 1 (.submit (letter 3)), inject,
        .call 50 .sendQueued, .call 50 .receiveWaiting, .call 50 .takeReceived,
        .call 50 (.control .macAddress), .call 50 (.submit (letter 4))]
      let u := (run earlier s).state
      let left := run during (run before s).state
      u.deferred.toList.length = 1 ∧ u.receiveQueue.toList.length = 1 ∧
        left.state.sendQueue.toList = [(letter 3).stamp 11, (letter 4).stamp 60] ∧
        [inbound] <+: left.state.device.transport.inbox.toList ∧
        left.state.counters = u.counters ∧
        ((perform 60 (.setUp false)).run left.state).events =
          [.wentDown [(letter 3).stamp 11, (letter 4).stamp 60] [] []] := by
  intro config
  obtain ⟨s, hc⟩ : ∃ s, ((create config 0).run
      ({ address := ⟨2, 0, 0, 0, 0, 1⟩ } : Adapter)).value = .ok s := ⟨_, rfl⟩
  refine ⟨s, hc, ?_⟩
  intro letter inbound inject earlier before during u left
  have hd : ∀ step ∈ before ++ during, step.isDirect = false := by
    simp [before, during, earlier, inject, Step.isDirect, Call.isDirect]
  have hup : ∀ step ∈ during, step.starts = false := by
    simp [during, inject, Step.starts]
  obtain ⟨-, hdown⟩ := down_is_dormant hc hd
  obtain ⟨-, -, -, hwire, -, hcounters, hqueue, hstop⟩ :=
    hdown before during rfl (.inr ⟨earlier, 1, rfl⟩) hup
  have hread : ∀ adapter : Adapter,
      (Transport.readAddress adapter).2.inbox.toList = adapter.inbox.toList := by
    intro adapter
    simp only [Transport.readAddress, Adapter.readAddress]
    split <;> rfl
  have hchange : ∀ change, .adapter change ∈ during →
      ∀ adapter : Adapter, adapter.inbox.toList <+: (change adapter).inbox.toList := by
    intro change hm adapter
    obtain rfl : change = (Adapter.inject · inbound) := by simpa [during, inject] using hm
    simp [Adapter.inject]
  have hinbox : (run before s).state.device.transport.inbox.toList = [inbound] := by
    cases hc
    decide +kernel
  have hcame := hwire (·.inbox.toList) hread hchange
  have hwaiting : handedIn config.lifetime during = [(letter 3).stamp 11, (letter 4).stamp 60] := by
    decide +kernel
  refine ⟨?_, ?_, hqueue.trans hwaiting, hinbox ▸ hcame, hcounters.trans ?_, ?_⟩
  · cases hc
    decide +kernel
  · cases hc
    decide +kernel
  · cases hc
    rfl
  · rw [(hstop 60).1, hwaiting]

end LinkLayer.Interface
