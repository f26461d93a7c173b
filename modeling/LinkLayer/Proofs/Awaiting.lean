import LinkLayer.Adapter
import LinkLayer.Proofs.Clearing

/-!
The gauge of the datagrams that wait for a resolution. It is read off three counters that only grow,
and the deferred queue shrinks in ways that none of them counts. Main statement: since the counters
were cleared the gauge is off by what was deferred then, what expired and what was released, and by
nothing else (`gauge_drift`).
-/
namespace LinkLayer

/-- A datagram grew too old in the deferred queue. -/
def Event.isDeferredExpiry : Event → Bool
  | expired _ .deferred _ => true
  | _ => false

/-- The deferred datagrams that were released by going down. -/
def Event.releasedDeferred : Event → List Datagram
  | wentDown _ _ deferred => deferred
  | _ => []

/-- How many datagrams left the deferred queue without being counted as taken off it. -/
def uncounted (events : List Event) : Nat :=
  events.countP Event.isDeferredExpiry + (events.flatMap Event.releasedDeferred).length

theorem uncounted_append (events more : List Event) :
    uncounted (events ++ more) = uncounted events + uncounted more := by
  simp only [uncounted, List.countP_append, List.flatMap_append, List.length_append]
  omega

/-- How many datagrams a pass takes off the deferred queue for each one that it settles. -/
def Interface.Pass.takes : Pass → Nat
  | first => 0
  | later => 1

namespace Interface

variable {τ : Type} [FiniteTransport τ] {now : Time} {clock : Clock} {s t u : Interface τ}
  {events more : List Event}
  {pass : Pass} {pass? : Option Pass} {before between after : Nat}

/-- From the first state to the second the counters followed the deferred queue. It held so many
datagrams before and so many after, whatever the states say in the middle of a pass. -/
def Gauged (s t : Interface τ) (events : List Event) (before after : Nat) : Prop :=
  t.counters.arp.queued + t.counters.arp.requeued + s.counters.arp.dequeued + before =
    s.counters.arp.queued + s.counters.arp.requeued + t.counters.arp.dequeued + after +
      uncounted events

omit [FiniteTransport τ] in
theorem Gauged.append (h : Gauged s t events before between)
    (h' : Gauged t u more between after) : Gauged s u (events ++ more) before after := by
  simp only [Gauged, uncounted_append] at h h' ⊢
  omega

theorem gauged_arpSent {message : Arp.Message}
    (h : ArpSent now message s { value := (), state := t, events }) (n : Nat) :
    Gauged s t events n n := by
  cases h with
  | taken ho | failed ho =>
    cases ho
    rfl

theorem gauged_delivered {d : Datagram} {value : Except DropReason Delivery}
    (h : Delivered now d s { value, state := t, events }) (n : Nat) : Gauged s t events n n := by
  cases h with
  | @refused reason hr => cases reason <;> rfl
  | deferred hr ha =>
    have hg := gauged_arpSent ha n
    exact hg
  | sent hr ho | failed hr ho =>
    cases ho
    rfl

/-- A later pass takes a datagram off the queue, and what has to wait is put on it. -/
theorem gauged_settled {d : Datagram} {value : Option Datagram}
    (h : Settled pass clock d s { value, state := t, events }) (n : Nat) :
    Gauged s t events (n + pass.takes) (n + value.toList.length) := by
  cases h with
  | expired he => cases pass <;> rfl
  | sent he hd =>
    have hg := gauged_delivered hd n
    have he : uncounted [.sent clock.time clock.later.time d] = 0 := rfl
    simp only [Gauged, uncounted_append, he, Option.toList_none, List.length_nil] at hg ⊢
    cases pass <;> simp only [Pass.countTaken, Pass.takes] at hg ⊢ <;> omega
  | waits he hd =>
    have hg := gauged_delivered hd n
    simp only [Gauged, Option.toList_some, List.length_singleton] at hg ⊢
    cases pass <;> simp only [Pass.countTaken, Pass.countWaiting, Pass.takes] at hg ⊢ <;> omega
  | @dropped reason t events he hd =>
    have hg := gauged_delivered hd n
    have he : uncounted [pass.dropped d reason] = 0 := by cases pass <;> rfl
    simp only [Gauged, uncounted_append, he, Option.toList_none, List.length_nil] at hg ⊢
    cases pass <;> simp only [Pass.countTaken, Pass.takes] at hg ⊢ <;> omega

/-- A later pass takes all of its datagrams off the queue, whatever becomes of them. -/
theorem gauged_passed {ds : List Datagram} {o : Outcome (Interface τ) (List Datagram)}
    (h : Passed pass clock ds s o) (n : Nat) :
    Gauged s o.state o.events (n + ds.length * pass.takes) (n + o.value.length) := by
  induction h generalizing n with
  | nil =>
    simp only [List.length_nil, Nat.zero_mul]
    rfl
  | @gone clock d ds waiting s t u events more h hp ih =>
    have hd := gauged_settled h (n + ds.length * pass.takes)
    rw [List.length_cons, Nat.succ_mul, ← Nat.add_assoc]
    exact hd.append (ih n)
  | @waits clock d ds waiting s t u events more h hp ih =>
    have hd := gauged_settled h (n + ds.length * pass.takes)
    have hrest := ih (n + 1)
    simp only [Gauged, uncounted_append, List.length_cons, List.length_nil, Nat.succ_mul,
      Option.toList_some] at hd hrest ⊢
    omega

/-- Every message that is heard sends the whole deferred queue through a pass. -/
theorem gauged_heard {message : Arp.Message}
    (h : Heard clock message s { value := (), state := t, events }) :
    Gauged s t events s.deferred.toList.length t.deferred.toList.length := by
  cases h with
  | @intro t u waiting events more ha hp =>
    have hdeferred : t.deferred = s.deferred := by
      obtain ⟨_, _, _, rfl⟩ := sends_of_answered ha
      rfl
    have hanswer : Gauged s t events s.deferred.toList.length t.deferred.toList.length := by
      rw [hdeferred]
      cases ha with
      | notOurs hm => rfl
      | told hm ho => rfl
      | asked hm ho ha =>
        have hg := gauged_arpSent ha s.deferred.toList.length
        exact hg
    have hpass := gauged_passed hp 0
    simp only [Pass.takes, Nat.mul_one, Nat.zero_add] at hpass
    have hboth := hanswer.append hpass
    rw [Fifo.toList_ofList]
    exact hboth

theorem gauged_takenIn {bytes : Bytes}
    (h : TakenIn clock bytes s { value := (), state := t, events }) :
    Gauged s t events s.deferred.toList.length t.deferred.toList.length := by
  cases h with
  | heard hk hm ha =>
    have hg := gauged_heard ha
    exact hg
  | @badArp reason hk hm =>
    obtain ⟨inputErrors, opcodeErrors, he⟩ :=
      (s.counters.countKind (.ok .arp)).refuseArp_eq reason
    rw [he]
    rfl
  | unknown | broadcast | queued | badIp => rfl

theorem gauged_move (h : Move clock pass? s events t) :
    Gauged s t events s.deferred.toList.length t.deferred.toList.length := by
  cases h with
  | @passed s t waiting events hu hp =>
    have hdeferred : t.deferred = s.deferred := by
      obtain ⟨_, _, _, rfl⟩ := sends_of_passed hp
      rfl
    have hg := gauged_passed hp s.deferred.toList.length
    simp only [Fifo.toList_append, List.length_append, hdeferred]
    exact hg
  | heard h => exact gauged_heard h
  | @unheard reason =>
    obtain ⟨inputErrors, opcodeErrors, he⟩ := s.counters.refuseArp_eq reason
    rw [he]
    rfl
  | received hr h =>
    have hg := gauged_takenIn h
    cases hr with
    | frame hr =>
      refine Gauged.append ?_ hg
      rfl
  | ended h hn => cases h <;> rfl
  | taken =>
    have hu : uncounted ((s.receiveQueue.dequeue clock.time).expired.map
        (.expired clock.time .receive)) = 0 := by
      simp [uncounted, List.countP_map, List.flatMap_map, Function.comp_def,
        Event.isDeferredExpiry, Event.releasedDeferred]
    simp only [Gauged, hu]
    omega
  | wentDown =>
    simp [Gauged, uncounted, Event.isDeferredExpiry, Event.releasedDeferred]
  | wentUp | addressRead | addressKept | macSet | typeSelected | bindingsCleared | traceCleared =>
    rfl

theorem gauged_chain (h : Chain pass? clock s events t) :
    Gauged s t events s.deferred.toList.length t.deferred.toList.length := by
  induction h with
  | nil => rfl
  | cons h hc ih => exact (gauged_move h).append ih

/-- Every call keeps the counters in step with the deferred queue, unless it clears them. -/
theorem gauged_perform {call : Call} (hc : call ≠ .control .clearCounters) (clock : Clock)
    (s : Interface τ) :
    let o := (perform clock call).run s
    Gauged s o.state o.events s.deferred.toList.length o.state.deferred.toList.length := by
  have h := performed_perform clock call s
  generalize (perform clock call).run s = o at h ⊢
  obtain ⟨reply, t, events⟩ := o
  cases h with
  | submitted | addressSet | maskSet | queued => rfl
  | delivered h =>
    have hg := gauged_delivered h s.deferred.toList.length
    obtain ⟨_, _, _, rfl⟩ := sends_of_delivered h
    exact hg
  | countersCleared => exact absurd rfl hc
  | moved hs h => exact gauged_chain h

/-- How many datagrams were deferred when the counters were cleared last. A fresh interface has
none. -/
def deferredWhenCleared (steps : List (Step τ)) (s : Interface τ) : Nat :=
  match ((stages steps s).filter (·.made.clears)).getLast? with
  | none => 0
  | some stage => stage.found.deferred.length

theorem deferredWhenCleared_call (steps : List (Step τ)) (clock : Clock) (call : Call)
    (s : Interface τ) :
    deferredWhenCleared (steps ++ [.call clock call]) s =
      if call = .control .clearCounters then (run steps s).state.deferred.length
      else deferredWhenCleared steps s := by
  simp only [deferredWhenCleared, stages_append, stages, List.filter_append]
  by_cases hc : call = .control .clearCounters
  · simp [Made.clears, hc]
  · simp [Made.clears, hc]

theorem deferredWhenCleared_adapter (steps : List (Step τ)) (change : τ → τ) (s : Interface τ) :
    deferredWhenCleared (steps ++ [.adapter change]) s = deferredWhenCleared steps s := by
  simp [deferredWhenCleared, stages_append, stages]

/-- What the counters say of the deferred queue after a run. -/
theorem gauge_run (hs : s.counters = {}) (hd : s.deferred = .empty) (steps : List (Step τ)) :
    let left := run steps s
    let c := left.state.counters
    c.arp.queued + c.arp.requeued + deferredWhenCleared steps s =
      c.arp.dequeued + left.state.deferred.toList.length +
        uncounted (happened (sinceCleared left.history)) := by
  induction steps using List.reverseRecOn with
  | nil =>
    simp only [run, hs, hd]
    rfl
  | append_singleton steps step ih =>
    simp only [state_run_append, history_run_append] at ih ⊢
    cases step with
    | adapter change =>
      simp only [deferredWhenCleared_adapter, run, List.append_nil]
      exact ih
    | call clock call =>
      simp only [deferredWhenCleared_call, run, sinceCleared_append, Made.clears,
        decide_eq_true_eq]
      by_cases hc : call = .control .clearCounters
      · subst hc
        have hr : ((perform clock (.control .clearCounters)).run (run steps s).state).state =
            { (run steps s).state with counters := {} } := rfl
        rw [hr, if_pos rfl, if_pos rfl, Fifo.length_eq]
        rfl
      · have hg := gauged_perform hc clock (run steps s).state
        simp only [Gauged, if_neg hc, happened_append, uncounted_append] at hg ⊢
        omega

/-- Without a clearing everything counts from the start. -/
theorem since_start {steps : List (Step τ)}
    (h : ∀ made ∈ (run steps s).history, made.clears = false) :
    sinceCleared (run steps s).history = (run steps s).history ∧
      deferredWhenCleared steps s = 0 := by
  constructor
  · generalize (run steps s).history = history at h
    cases history with
    | nil => rfl
    | cons made history =>
      have hany : (made :: history).any Made.clears = false := by
        simpa only [List.any_eq_false, Bool.not_eq_true] using h
      rw [sinceCleared, hany, if_neg Bool.false_ne_true]
  · have hnone : (stages steps s).filter (·.made.clears) = [] := by
      rw [List.filter_eq_nil_iff]
      intro stage hm
      have hmade := h stage.made (map_made_stages steps s ▸ List.mem_map_of_mem hm)
      simp [hmade]
    rw [deferredWhenCleared, hnone]
    rfl

/-- Since the counters were cleared, or since the start, they are ahead of the deferred queue by
what expired there and what going down released from it, and behind by what was deferred at the
clearing. The gauge is that number, or zero if it is negative. So in a run where none of this
happens the gauge is the length of the queue. -/
theorem gauge_drift {config : Config} {transport : τ}
    (hc : ((create config now).run transport).value = .ok s) (steps : List (Step τ)) :
    let left := run steps s
    let c := left.state.counters
    let events := happened (sinceCleared left.history)
    let number : Int := left.state.deferred.length - deferredWhenCleared steps s +
      events.countP Event.isDeferredExpiry + (events.flatMap Event.releasedDeferred).length
    (c.arp.queued + c.arp.requeued - c.arp.dequeued : Int) = number ∧
      (c.awaitingResolution : Int) = max 0 number ∧
      ((∀ made ∈ left.history, made.clears = false) →
        (∀ event ∈ happened left.history,
          event.isDeferredExpiry = false ∧ event.releasedDeferred = []) →
        c.awaitingResolution = left.state.deferred.length) := by
  intro left c events number
  obtain ⟨hcounters, hdeferred⟩ : s.counters = {} ∧ s.deferred = .empty := by
    obtain ⟨_, _, rfl⟩ := eq_of_create hc
    exact ⟨rfl, rfl⟩
  have hnumber : (c.arp.queued + c.arp.requeued - c.arp.dequeued : Int) = number := by
    have hg := gauge_run hcounters hdeferred steps
    simp only [uncounted] at hg
    simp only [c, number, events, left, Fifo.length_eq]
    omega
  have hgauge : (c.awaitingResolution : Int) = max 0 number := by
    rw [← hnumber, Counters.awaitingResolution]
    omega
  refine ⟨hnumber, hgauge, ?_⟩
  intro hclears hlost
  obtain ⟨hsince, hzero⟩ := since_start hclears
  have hevents : events = happened left.history := congrArg happened hsince
  have hexpired : events.countP Event.isDeferredExpiry = 0 := by
    rw [hevents, List.countP_eq_zero]
    intro event hm
    simp [(hlost event hm).1]
  have hreleased : events.flatMap Event.releasedDeferred = [] := by
    rw [hevents, List.flatMap_eq_nil_iff]
    intro event hm
    exact (hlost event hm).2
  simp only [number, hzero, hexpired, hreleased, List.length_nil] at hgauge
  omega

/-- Two datagrams wait for a neighbour, and the counters are cleared after the first one. One
expires and the other is released, so the gauge still shows one when the queue is empty. -/
theorem gauge_drift_released :
    ∃ s : Interface Adapter,
      ((create { address := ⟨192, 168, 1, 1⟩, mask := ⟨255, 255, 255, 0⟩ } 0).run
        ({ address := {} } : Adapter)).value = .ok s ∧
      let first : List (Step Adapter) := [.call 0 (.setUp true),
        .call 0 (.submit (.make { dest := ⟨192, 168, 1, 2⟩ } [] [7])), .call 0 .sendQueued]
      let steps : List (Step Adapter) := first ++ [.call 0 (.control .clearCounters),
        .call 1 (.submit (.make { dest := ⟨192, 168, 1, 2⟩ } [] [8])), .call 1 .sendQueued,
        .call 30000 (.handleArp (Arp.Message.isAt ⟨2, 0, 0, 0, 0, 3⟩ ⟨192, 168, 1, 3⟩ {}
          ⟨192, 168, 1, 1⟩).toFrame),
        .call 30000 (.setUp false)]
      let events := happened (sinceCleared (run steps s).history)
      (run first s).state.counters.awaitingResolution = 1 ∧
        (run first s).state.deferred.length = 1 ∧
        deferredWhenCleared steps s = 1 ∧
        events.countP Event.isDeferredExpiry = 1 ∧
        (events.flatMap Event.releasedDeferred).length = 1 ∧
        (run steps s).state.deferred.length = 0 ∧
        (run steps s).state.counters.awaitingResolution = 1 := by
  obtain ⟨s, hc⟩ : ∃ s, ((create { address := ⟨192, 168, 1, 1⟩, mask := ⟨255, 255, 255, 0⟩ } 0).run
      ({ address := {} } : Adapter)).value = .ok s := ⟨_, rfl⟩
  refine ⟨s, hc, ?_⟩
  intro first steps events
  obtain ⟨-, -, hlength⟩ := gauge_drift hc first
  obtain ⟨-, hgauge, -⟩ := gauge_drift hc steps
  have hplain : (∀ made ∈ (run first s).history, made.clears = false) ∧
      ∀ event ∈ happened (run first s).history,
        event.isDeferredExpiry = false ∧ event.releasedDeferred = [] := by
    cases hc
    decide +kernel
  have hfirst : (run first s).state.deferred.length = 1 := by
    cases hc
    decide +kernel
  obtain ⟨hcleared, hexpired, hreleased, hempty⟩ : deferredWhenCleared steps s = 1 ∧
      events.countP Event.isDeferredExpiry = 1 ∧
      (events.flatMap Event.releasedDeferred).length = 1 ∧
      (run steps s).state.deferred.length = 0 := by
    cases hc
    decide +kernel
  have hwaits := (hlength hplain.1 hplain.2).trans hfirst
  refine ⟨hwaits, hfirst, hcleared, hexpired, hreleased, hempty, ?_⟩
  simp only [events] at hexpired hreleased
  rw [hcleared, hexpired, hreleased, hempty] at hgauge
  omega

end Interface
end LinkLayer
