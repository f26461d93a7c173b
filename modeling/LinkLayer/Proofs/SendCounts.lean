import Mathlib.Algebra.GroupWithZero.Nat
import Mathlib.Data.List.Forall2
import LinkLayer.Adapter
import LinkLayer.Proofs.Clearing

/-!
What the counters of the way out say of each other. Main statement: every frame and every datagram
is counted where it went, and the bytes sent are those of the frames that the adapter took
(`way_out_counted`).
-/
namespace LinkLayer

open Interface

/-- The datagram that was sent in a pass. -/
def Event.sent? : Event → Option Datagram
  | sent _ _ d => some d
  | _ => none

/-- The frame is one that carries the datagram. -/
def Datagram.IsIn (d : Datagram) (frame : Bytes) : Prop :=
  ∃ dest source, frame = (d.toFrame dest source).bytes

namespace Counters

variable {c c' : Counters} {n : Nat}

/-- Datagrams from the host that were refused, or that the adapter did not take. -/
def undelivered (c : Counters) : Nat :=
  c.send.badLength + c.send.badOptions + c.send.badHost + c.send.badNetwork +
    (c.write.failed - c.send.arpFailed)

/-- What the counters say of each other when so many bytes of IPv4 packets were sent. -/
structure Balance (c : Counters) (ipBytes : Nat) : Prop where
  failed_le : c.write.failed ≤ c.write.total
  arpFailed_le : c.send.arpFailed ≤ c.send.arp
  arpFailed_le_failed : c.send.arpFailed ≤ c.write.failed
  written : c.write.total - c.write.failed = c.send.ip + c.send.arp - c.send.arpFailed
  arp : c.send.arp = c.arp.queued + c.arp.requeued + c.arp.requests
  taken : c.send.dequeued + c.arp.dequeued =
    c.send.ip + c.arp.queued + c.arp.requeued + c.undelivered
  dropped : c.totals.dropped =
    c.undelivered + c.receive.bad + c.process.badIp + c.process.badArp
  bytes : c.totals.sentBytes = 42 * (c.send.arp - c.send.arpFailed) + ipBytes

/-- The counters without those of which the balance says nothing. -/
def outward (c : Counters) : Counters where
  write := c.write
  receive.bad := c.receive.bad
  process.badIp := c.process.badIp
  process.badArp := c.process.badArp
  send := c.send
  arp := { c.arp with inputErrors := 0, opcodeErrors := 0, answers := 0 }
  totals := { c.totals with receivedBytes := 0, expired := 0 }

theorem Balance.congr (h : c.Balance n) (he : c'.outward = c.outward) : c'.Balance n := by
  have ho : c.outward.Balance n :=
    ⟨h.failed_le, h.arpFailed_le, h.arpFailed_le_failed, h.written, h.arp, h.taken, h.dropped,
      h.bytes⟩
  rw [← he] at ho
  exact ⟨ho.failed_le, ho.arpFailed_le, ho.arpFailed_le_failed, ho.written, ho.arp, ho.taken,
    ho.dropped, ho.bytes⟩

section Exits

variable (pass : Pass)

/-- A datagram is taken off a queue and its frame is written. -/
theorem Balance.sent (h : c.Balance n) (length : Nat) :
    let c := pass.countTaken c
    Balance { c with
      write := transfer c.write false
      send.ip := c.send.ip + 1
      totals.sentBytes := c.totals.sentBytes + length } (n + length) := by
  obtain ⟨h₁, h₂, h₃, h₄, h₅, h₆, h₇, h₈⟩ := h
  simp only [undelivered] at h₆ h₇
  cases pass <;> constructor <;> simp [Pass.countTaken, transfer, undelivered] <;> omega

/-- A datagram is taken off a queue and refused. -/
theorem Balance.refused (h : c.Balance n) {reason : DropReason}
    (hr : (∃ length, reason = .badLength length) ∨ (∃ length, reason = .badOptions length) ∨
      reason = .badHost ∨ reason = .badNetwork) :
    let c := (pass.countTaken c).refuse reason
    Balance { c with totals.dropped := c.totals.dropped + 1 } n := by
  obtain ⟨h₁, h₂, h₃, h₄, h₅, h₆, h₇, h₈⟩ := h
  simp only [undelivered] at h₆ h₇
  rcases hr with ⟨_, rfl⟩ | ⟨_, rfl⟩ | rfl | rfl
  all_goals cases pass <;> constructor <;> simp [Pass.countTaken, refuse, undelivered] <;> omega

/-- A datagram is taken off a queue and its frame is not written. -/
theorem Balance.notSent (h : c.Balance n) :
    let c := pass.countTaken c
    Balance { c with
      write := transfer c.write true
      totals.dropped := c.totals.dropped + 1 } n := by
  obtain ⟨h₁, h₂, h₃, h₄, h₅, h₆, h₇, h₈⟩ := h
  simp only [undelivered] at h₆ h₇
  cases pass <;> constructor <;> simp [Pass.countTaken, transfer, undelivered] <;> omega

/-- A datagram is taken off a queue and has to wait for an answer. -/
theorem Balance.waits (h : c.Balance n) :
    let c := pass.countTaken c
    Balance (pass.countWaiting { c with
      write := transfer c.write false
      send.arp := c.send.arp + 1
      totals.sentBytes := c.totals.sentBytes + 42 }) n := by
  obtain ⟨h₁, h₂, h₃, h₄, h₅, h₆, h₇, h₈⟩ := h
  simp only [undelivered] at h₆ h₇
  cases pass <;> constructor <;>
    simp [Pass.countTaken, Pass.countWaiting, transfer, undelivered] <;> omega

/-- A datagram is taken off a queue and has to wait, but nobody was asked. -/
theorem Balance.waitsUnasked (h : c.Balance n) :
    let c := pass.countTaken c
    Balance (pass.countWaiting { c with
      write := transfer c.write true
      send.arp := c.send.arp + 1
      send.arpFailed := c.send.arpFailed + 1 }) n := by
  obtain ⟨h₁, h₂, h₃, h₄, h₅, h₆, h₇, h₈⟩ := h
  simp only [undelivered] at h₆ h₇
  cases pass <;> constructor <;>
    simp [Pass.countTaken, Pass.countWaiting, transfer, undelivered] <;> omega

end Exits

theorem Balance.replied (h : c.Balance n) :
    Balance { c with
      write := transfer c.write false
      send.arp := c.send.arp + 1
      arp.requests := c.arp.requests + 1
      totals.sentBytes := c.totals.sentBytes + 42 } n := by
  obtain ⟨h₁, h₂, h₃, h₄, h₅, h₆, h₇, h₈⟩ := h
  simp only [undelivered] at h₆ h₇
  constructor <;> simp [transfer, undelivered] <;> omega

theorem Balance.notReplied (h : c.Balance n) :
    Balance { c with
      write := transfer c.write true
      send.arp := c.send.arp + 1
      send.arpFailed := c.send.arpFailed + 1
      arp.requests := c.arp.requests + 1 } n := by
  obtain ⟨h₁, h₂, h₃, h₄, h₅, h₆, h₇, h₈⟩ := h
  simp only [undelivered] at h₆ h₇
  constructor <;> simp [transfer, undelivered] <;> omega

/-- A frame that came in is refused, for one of three reasons. -/
theorem Balance.dropInbound (h : c.Balance n) (bad badIp badArp : Nat)
    (hone : bad + badIp + badArp = 1) :
    Balance { c with
      receive.bad := c.receive.bad + bad
      process.badIp := c.process.badIp + badIp
      process.badArp := c.process.badArp + badArp
      totals.dropped := c.totals.dropped + 1 } n := by
  refine ⟨h.failed_le, h.arpFailed_le, h.arpFailed_le_failed, h.written, h.arp, h.taken, ?_,
    h.bytes⟩
  have hd := h.dropped
  simp only [undelivered] at hd ⊢
  omega

end Counters

namespace Interface

variable {τ : Type} [FiniteTransport τ] {now : Time} {clock : Clock} {s t u : Interface τ}
  {events more : List Event}

theorem reason_of_route {config : Config} {cache : Arp.Cache} {d : Datagram} {reason : DropReason}
    (h : config.route cache d = .error reason) :
    (∃ length, reason = .badLength length) ∨ (∃ length, reason = .badOptions length) ∨
      reason = .badHost ∨ reason = .badNetwork := by
  simp only [Config.route] at h
  repeat' split at h
  all_goals
    cases h
    try simp

/-- From the first state to the second the datagrams that were sent were counted, and each is in a
frame that was written. -/
structure SendsCounted (s t : Interface τ) (events : List Event) : Prop where
  balance : ∀ {n}, s.counters.Balance n →
    t.counters.Balance (n + ((events.filterMap Event.sent?).map Datagram.ipLength).sum)
  frames : List.Forall₂ Datagram.IsIn (events.filterMap Event.sent?)
    (events.filterMap ipv4Frame?)

omit [FiniteTransport τ] in
theorem SendsCounted.append (h : SendsCounted s t events) (h' : SendsCounted t u more) :
    SendsCounted s u (events ++ more) := by
  constructor
  · intro n hb
    have hu := h'.balance (h.balance hb)
    simpa [List.filterMap_append, Nat.add_assoc] using hu
  · rw [List.filterMap_append, List.filterMap_append]
    exact List.rel_append h.frames h'.frames

omit [FiniteTransport τ] in
/-- Nothing that is counted here happened. -/
theorem sendsCounted_of_eq (hc : t.counters.outward = s.counters.outward)
    (hs : events.filterMap Event.sent? = []) (hf : events.filterMap ipv4Frame? = []) :
    SendsCounted s t events := by
  constructor
  · intro n hb
    rw [hs]
    exact hb.congr hc
  · rw [hs, hf]
    exact .nil

theorem sendsCounted_settled {pass : Pass} {d : Datagram} {value : Option Datagram}
    (h : Settled pass clock d s { value, state := t, events }) : SendsCounted s t events := by
  cases h with
  | expired h => exact sendsCounted_of_eq rfl rfl rfl
  | sent h hd =>
    cases hd with
    | @sent hop mac framer t events hr ho =>
      cases ho with
      | taken ht =>
        have hf := ipv4Frame?_toFrame d mac s.macAddress
        refine ⟨fun hb => hb.sent pass d.ipLength, ?_⟩
        rw [List.singleton_append, List.filterMap_cons_some hf]
        exact .cons ⟨mac, s.macAddress, rfl⟩ .nil
  | waits h hd =>
    cases hd with
    | @deferred hop t events hr ha =>
      have hf := ipv4Frame?_message (.whoHas s.macAddress s.config.address hop)
      cases ha with
      | taken ho =>
        cases ho
        refine ⟨fun hb => hb.waits pass, ?_⟩
        rw [List.filterMap_cons_none rfl, List.filterMap_cons_none rfl,
          List.filterMap_cons_none rfl, List.filterMap_cons_none hf]
        exact .nil
      | failed ho =>
        cases ho
        exact ⟨fun hb => hb.waitsUnasked pass, .nil⟩
  | dropped h hd =>
    cases hd with
    | refused hr =>
      refine ⟨fun hb => ?_, ?_⟩
      · cases pass <;> exact hb.refused _ (reason_of_route hr)
      · cases pass <;> exact .nil
    | failed hr ho =>
      cases ho
      refine ⟨fun hb => ?_, ?_⟩
      · cases pass <;> exact hb.notSent _
      · cases pass <;> exact .nil

theorem sendsCounted_passed {pass : Pass} {ds : List Datagram}
    {o : Outcome (Interface τ) (List Datagram)} (h : Passed pass clock ds s o) :
    SendsCounted s o.state o.events := by
  induction h with
  | nil => exact sendsCounted_of_eq rfl rfl rfl
  | gone h hp ih | waits h hp ih => exact (sendsCounted_settled h).append ih

theorem sendsCounted_answered {message : Arp.Message}
    (h : Answered now message s { value := (), state := t, events }) :
    SendsCounted s t events := by
  cases h with
  | notOurs h => exact sendsCounted_of_eq rfl rfl rfl
  | told h ho => exact sendsCounted_of_eq rfl rfl rfl
  | asked h ho ha =>
    have hf := ipv4Frame?_message
      (.isAt s.macAddress s.config.address message.senderMac message.senderIp)
    cases ha with
    | taken ho =>
      cases ho
      refine ⟨fun hb => hb.replied, ?_⟩
      rw [List.filterMap_cons_none rfl, List.filterMap_cons_none rfl,
          List.filterMap_cons_none rfl, List.filterMap_cons_none hf]
      exact .nil
    | failed ho =>
      cases ho
      exact ⟨fun hb => hb.notReplied, .nil⟩

theorem sendsCounted_heard {message : Arp.Message}
    (h : Heard clock message s { value := (), state := t, events }) :
    SendsCounted s t events := by
  cases h with
  | @intro t u waiting events more ha hp =>
    have hl : SendsCounted s t (.arpAccepted message :: events) := by
      have hc := sendsCounted_answered ha
      exact ⟨hc.balance, hc.frames⟩
    have hr := sendsCounted_passed hp
    exact hl.append ⟨hr.balance, hr.frames⟩

theorem sendsCounted_takenIn {bytes : Bytes}
    (h : TakenIn clock bytes s { value := (), state := t, events }) :
    SendsCounted s t events := by
  cases h with
  | heard hk hm ha =>
    have hh := sendsCounted_heard ha
    exact ⟨fun hb => (hh.balance (hb.congr rfl)).congr rfl, hh.frames⟩
  | broadcast | queued => exact sendsCounted_of_eq rfl rfl rfl
  | unknown => exact ⟨fun hb => (hb.dropInbound 1 0 0 rfl).congr rfl, .nil⟩
  | badIp => exact ⟨fun hb => (hb.dropInbound 0 1 0 rfl).congr rfl, .nil⟩
  | @badArp reason hk hm =>
    obtain ⟨inputErrors, opcodeErrors, he⟩ :=
      (s.counters.countKind (.ok .arp)).refuseArp_eq reason
    rw [he]
    exact ⟨fun hb => (hb.dropInbound 0 0 1 rfl).congr rfl, .nil⟩

theorem sendsCounted_move {pass? : Option Pass} (h : Move clock pass? s events t) :
    SendsCounted s t events := by
  cases h with
  | passed hu hp =>
    have hl := sendsCounted_passed hp
    exact ⟨hl.balance, hl.frames⟩
  | heard h => exact sendsCounted_heard h
  | @unheard reason =>
    obtain ⟨inputErrors, opcodeErrors, he⟩ := s.counters.refuseArp_eq reason
    rw [he]
    exact sendsCounted_of_eq rfl rfl rfl
  | received hr h =>
    cases hr with
    | frame ht =>
      refine SendsCounted.append ?_ (sendsCounted_takenIn h)
      exact sendsCounted_of_eq rfl rfl rfl
  | ended h hn => cases h <;> exact sendsCounted_of_eq rfl rfl rfl
  | taken =>
    refine sendsCounted_of_eq rfl ?_ ?_
    · simp [List.filterMap_map, Function.comp_def, Event.sent?]
    · simp [List.filterMap_map, Function.comp_def, ipv4Frame?]
  | wentUp | wentDown | addressRead | addressKept | macSet | typeSelected
  | bindingsCleared | traceCleared => exact sendsCounted_of_eq rfl rfl rfl

theorem sendsCounted_chain {pass? : Option Pass} (h : Chain pass? clock s events t) :
    SendsCounted s t events := by
  induction h with
  | nil => exact sendsCounted_of_eq rfl rfl rfl
  | cons h hc ih => exact (sendsCounted_move h).append ih

/-- A datagram that the host sends on its own is counted differently. -/
theorem sendsCounted_perform {call : Call} (hc : call ≠ .control .clearCounters)
    (ho : ∀ d, call ≠ .output d) (clock : Clock) (s : Interface τ) :
    SendsCounted s ((perform clock call).run s).state ((perform clock call).run s).events := by
  have h := performed_perform clock call s
  generalize (perform clock call).run s = o at h ⊢
  obtain ⟨reply, t, events⟩ := o
  cases h with
  | submitted | addressSet | maskSet | queued => exact sendsCounted_of_eq rfl rfl rfl
  | delivered h => exact absurd rfl (ho _)
  | countersCleared => exact absurd rfl hc
  | moved hs h => exact sendsCounted_chain h

/-- Every frame that was offered and every datagram that was taken off a queue is counted where it
went, since the counters were cleared, and the bytes sent are those of the ARP frames and of the
IPv4 packets that the adapter took. The host sends nothing on its own here. -/
theorem way_out_counted {config : Config} {transport : τ}
    (hc : ((create config now).run transport).value = .ok s) (steps : List (Step τ))
    (ho : ∀ clock d, .call clock (.output d) ∉ steps) :
    let c := (run steps s).state.counters
    let events := happened (sinceCleared (run steps s).history)
    c.write.failed ≤ c.write.total ∧ c.send.arpFailed ≤ c.send.arp ∧
      c.send.arpFailed ≤ c.write.failed ∧
      c.write.total - c.write.failed = c.send.ip + c.send.arp - c.send.arpFailed ∧
      c.send.arp = c.arp.queued + c.arp.requeued + c.arp.requests ∧
      c.send.dequeued + c.arp.dequeued =
        c.send.ip + c.arp.queued + c.arp.requeued + c.undelivered ∧
      c.totals.dropped = c.undelivered + c.receive.bad + c.process.badIp + c.process.badArp ∧
      c.totals.sentBytes = 42 * (c.send.arp - c.send.arpFailed) +
        ((events.filterMap Event.sent?).map Datagram.ipLength).sum ∧
      List.Forall₂ Datagram.IsIn (events.filterMap Event.sent?) (events.filterMap ipv4Frame?) := by
  intro c events
  have h : c.Balance ((events.filterMap Event.sent?).map Datagram.ipLength).sum ∧
      List.Forall₂ Datagram.IsIn (events.filterMap Event.sent?)
        (events.filterMap ipv4Frame?) := by
    simp only [c, events, ← map_made_stagesSinceCleared]
    refine counted_since_cleared (P := fun c since =>
      c.Balance (((happened (since.map (·.made))).filterMap Event.sent?).map
        Datagram.ipLength).sum ∧
        List.Forall₂ Datagram.IsIn ((happened (since.map (·.made))).filterMap Event.sent?)
          ((happened (since.map (·.made))).filterMap ipv4Frame?)) ?_ ?_
      (counters_of_create hc)
    · exact ⟨⟨by decide, by decide, by decide, rfl, rfl, rfl, rfl, rfl⟩, .nil⟩
    · intro clock call u since hm hclear ⟨hb, hf⟩
      have hcall := sendsCounted_perform hclear (fun d hd => ho clock d (hd ▸ hm)) clock u
      have hnext := hcall.balance hb
      simp only [List.map_append, List.map_cons, List.map_nil, happened_append, events_stage]
      refine ⟨?_, ?_⟩
      · simpa [List.filterMap_append] using hnext
      · simpa only [List.filterMap_append] using List.rel_append hf hcall.frames
  obtain ⟨hb, hf⟩ := h
  exact ⟨hb.failed_le, hb.arpFailed_le, hb.arpFailed_le_failed, hb.written, hb.arp, hb.taken,
    hb.dropped, hb.bytes, hf⟩

/-- The request gets lost, and the datagram is sent when its neighbour is heard of. -/
theorem way_out_counted_unasked :
    ∃ s : Interface Adapter,
      ((create { address := ⟨192, 168, 1, 1⟩, mask := ⟨255, 255, 255, 0⟩ } 0).run
        ({ address := {} } : Adapter)).value = .ok s ∧
      let steps : List (Step Adapter) := [.call 0 (.setUp true),
        .call 0 (.submit (.make { dest := ⟨192, 168, 1, 2⟩ } [] [7])),
        .adapter ({ · with faults := { transmit := true } }),
        .call 0 .sendQueued,
        .adapter ({ · with faults := {} }),
        .adapter (·.inject (Arp.Message.isAt ⟨2, 0, 0, 0, 0, 2⟩ ⟨192, 168, 1, 2⟩ {}
          ⟨192, 168, 1, 9⟩).toFrame.bytes),
        .call 1 .receiveWaiting]
      (∀ clock d, .call clock (.output d) ∉ steps) ∧
        (run steps s).state.counters.send.arp = 1 ∧
        (run steps s).state.counters.send.arpFailed = 1 ∧
        (run steps s).state.counters.totals.sentBytes = 21 ∧
        ((happened (sinceCleared (run steps s).history)).filterMap Event.sent?).map
          Datagram.ipLength = [21] := by
  obtain ⟨s, hc⟩ : ∃ s, ((create { address := ⟨192, 168, 1, 1⟩, mask := ⟨255, 255, 255, 0⟩ } 0).run
      ({ address := {} } : Adapter)).value = .ok s := ⟨_, rfl⟩
  refine ⟨s, hc, ?_⟩
  intro steps
  have ho : ∀ clock d, .call clock (.output d) ∉ steps := by simp [steps]
  obtain ⟨-, -, -, -, -, -, -, hbytes, -⟩ := way_out_counted hc steps ho
  cases hc
  exact ⟨ho, rfl, rfl, hbytes, rfl⟩

end Interface
end LinkLayer
