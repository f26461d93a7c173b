import LinkLayer.Proofs.Clearing

/-!
Counters that stand for events. Each of them belongs to a kind of event that it counts one by one.
Main statements: a call that does not clear the counters adds to each of them what the events of the
call come to (`accounted_perform`), so since they were cleared last they have counted just the
events since then (`accounted_run`).
-/
namespace LinkLayer

/-- Something was dropped, on its way out or in. -/
def Event.isDrop : Event → Bool
  | outboundDropped _ _ | deferredDropped _ _ | inboundDropped _ _ => true
  | _ => false

def Event.isExpiry : Event → Bool
  | expired _ _ _ => true
  | _ => false

/-- The counters that an event can add to. -/
inductive Account where
  | writes
  | writeFailures
  | frames
  | readFailures
  | messages
  | messageFailures
  | questions
  | answers
  | drops
  | expiries
deriving DecidableEq, Repr

namespace Account

def counter (c : Counters) : Account → Nat
  | writes => c.write.total
  | writeFailures => c.write.failed
  | frames => c.receive.total
  | readFailures => c.read.failed
  | messages => c.send.arp
  | messageFailures => c.send.arpFailed
  | questions => c.arp.requests
  | answers => c.arp.answers
  | drops => c.totals.dropped
  | expiries => c.totals.expired

/-- Whether an event belongs to an account. An ARP message is sent because a next hop is not
resolved, or to answer. -/
def covers : Account → Event → Bool
  | writes, .frameWritten _ | writes, .writeFailed _ _ => true
  | writeFailures, .writeFailed _ _ => true
  | frames, .frameRead _ => true
  | readFailures, .readFailed _ => true
  | messages, .deferring _ | messages, .answering _ _ => true
  | messageFailures, .arpNotSent => true
  | questions, .answering _ _ => true
  | answers, .answered _ _ => true
  | drops, event => event.isDrop
  | expiries, event => event.isExpiry
  | _, _ => false

end Account

namespace Counters

variable {c c' c'' : Counters} {events more : List Event}

/-- From the first counters to the second every account has counted its events. -/
def Accounted (c c' : Counters) (events : List Event) : Prop :=
  ∀ account : Account, account.counter c' = account.counter c + events.countP account.covers

theorem Accounted.append (h : Accounted c c' events) (h' : Accounted c' c'' more) :
    Accounted c c'' (events ++ more) := by
  intro account
  rw [h' account, h account, List.countP_append, Nat.add_assoc]

/-- Counters that are no accounts may change at will. -/
theorem Accounted.of_eq (h : ∀ account : Account, account.counter c' = account.counter c) :
    Accounted c c' [] := h

theorem Accounted.cons {event : Event}
    (hf : ∀ account : Account,
      account.counter c' = account.counter c + [event].countP account.covers)
    (h : Accounted c' c'' events) : Accounted c c'' (event :: events) :=
  Accounted.append hf h

end Counters

namespace Interface

open Counters (Accounted)

variable {τ : Type} [FiniteTransport τ] {now : Time} {clock : Clock} {s t u : Interface τ}
  {events more : List Event}

theorem accounted_offered {frame : Bytes} {value : Except TransportError Unit}
    (h : Offered now frame s { value, state := t, events }) :
    Accounted s.counters t.counters events := by
  intro account
  cases h <;> cases account <;> rfl

/-- The message itself is counted before it is offered: what made it necessary is an event
already. -/
theorem accounted_arpSent {message : Arp.Message}
    (h : ArpSent now message s { value := (), state := t, events }) :
    Accounted { s.counters with send.arp := s.counters.send.arp + 1 } t.counters events := by
  intro account
  cases h with
  | taken ho | failed ho =>
    cases ho
    cases account <;> rfl

theorem accounted_delivered {d : Datagram} {value : Except DropReason Delivery}
    (h : Delivered now d s { value, state := t, events }) :
    Accounted s.counters t.counters events := by
  cases h with
  | @refused reason hr =>
    intro account
    cases reason <;> cases account <;> rfl
  | deferred hr ha =>
    refine .cons ?_ (accounted_arpSent ha)
    intro account
    cases account <;> rfl
  | sent hr ho =>
    intro account
    rw [← accounted_offered ho account]
    cases account <;> rfl
  | failed hr ho =>
    have hall := accounted_offered ho
    exact hall

theorem accounted_settled {pass : Pass} {d : Datagram} {value : Option Datagram}
    (h : Settled pass clock d s { value, state := t, events }) :
    Accounted s.counters t.counters events := by
  have htaken : ∀ account : Account,
      account.counter (pass.countTaken s.counters) = account.counter s.counters := by
    intro account
    cases pass <;> cases account <;> rfl
  cases h with
  | expired he =>
    intro account
    cases account <;> rfl
  | sent he hd =>
    refine Accounted.append (.append (.of_eq htaken) (accounted_delivered hd)) ?_
    intro account
    cases account <;> rfl
  | waits he hd =>
    have hall := Accounted.append (.of_eq htaken) (accounted_delivered hd)
    intro account
    rw [← List.nil_append events, ← hall account]
    cases pass <;> cases account <;> rfl
  | dropped he hd =>
    refine Accounted.append (.append (.of_eq htaken) (accounted_delivered hd)) ?_
    intro account
    cases pass <;> cases account <;> rfl

theorem accounted_passed {pass : Pass} {ds : List Datagram}
    {o : Outcome (Interface τ) (List Datagram)} (h : Passed pass clock ds s o) :
    Accounted s.counters o.state.counters o.events := by
  induction h with
  | nil => exact .of_eq fun _ => rfl
  | gone h hp ih | waits h hp ih => exact (accounted_settled h).append ih

theorem accounted_answered {message : Arp.Message}
    (h : Answered now message s { value := (), state := t, events }) :
    Accounted s.counters t.counters events := by
  cases h with
  | notOurs hm => exact .of_eq fun _ => rfl
  | told hm ho =>
    intro account
    cases account <;> rfl
  | asked hm ho ha =>
    refine .cons ?_ (accounted_arpSent ha)
    intro account
    cases account <;> rfl

theorem accounted_heard {message : Arp.Message}
    (h : Heard clock message s { value := (), state := t, events }) :
    Accounted s.counters t.counters events := by
  cases h with
  | intro ha hp =>
    refine .append (.cons ?_ (accounted_answered ha)) (accounted_passed hp)
    intro account
    cases account <;> rfl

/-- A frame that is handled counts as read. -/
theorem accounted_takenIn {bytes : Bytes}
    (h : TakenIn clock bytes s { value := (), state := t, events }) :
    Accounted s.counters t.counters (.frameRead bytes :: events) := by
  cases h with
  | unknown hk | broadcast hk | queued hk hp | badIp hk hp =>
    intro account
    cases account <;> rfl
  | heard hk hm hh =>
    have hall : Accounted s.counters _ (.frameRead bytes :: events) :=
      .cons (by intro account; cases account <;> rfl) (accounted_heard hh)
    intro account
    rw [← hall account]
    cases account <;> rfl
  | @badArp reason hk hm =>
    obtain ⟨inputErrors, opcodeErrors, he⟩ :=
      (s.counters.countKind (.ok .arp)).refuseArp_eq reason
    rw [he]
    intro account
    cases account <;> rfl

theorem accounted_move {pass? : Option Pass} (h : Move clock pass? s events t) :
    Accounted s.counters t.counters events := by
  cases h with
  | passed hu hp => exact accounted_passed hp
  | heard h => exact accounted_heard h
  | @unheard reason =>
    obtain ⟨inputErrors, opcodeErrors, he⟩ := s.counters.refuseArp_eq reason
    rw [he]
    refine .of_eq ?_
    intro account
    cases account <;> rfl
  | received hr h =>
    cases hr with
    | frame hr =>
      have hall := accounted_takenIn h
      intro account
      rw [List.singleton_append, hall account]
      cases account <;> rfl
  | ended h hn =>
    intro account
    cases h <;> cases account <;> first | rfl | exact absurd rfl (hn _)
  | taken =>
    intro account
    cases account <;>
      simp [Account.counter, Account.covers, List.countP_map, Function.comp_def, Event.isDrop,
        Event.isExpiry]
  | wentUp | wentDown | addressRead | addressKept | macSet | typeSelected | bindingsCleared
  | traceCleared =>
    intro account
    cases account <;> rfl

theorem accounted_chain {pass? : Option Pass} (h : Chain pass? clock s events t) :
    Accounted s.counters t.counters events := by
  induction h with
  | nil => exact .of_eq fun _ => rfl
  | cons h hc ih => exact (accounted_move h).append ih

/-- A call adds its events to the accounts, unless it clears the counters. -/
theorem accounted_perform {call : Call} (hc : call ≠ .control .clearCounters) (clock : Clock)
    (s : Interface τ) :
    Accounted s.counters ((perform clock call).run s).state.counters
      ((perform clock call).run s).events := by
  have h := performed_perform clock call s
  generalize (perform clock call).run s = o at h ⊢
  obtain ⟨reply, t, events⟩ := o
  cases h with
  | submitted => exact .of_eq fun _ => rfl
  | addressSet | maskSet | queued =>
    intro account
    cases account <;> rfl
  | delivered h => exact accounted_delivered h
  | countersCleared => exact absurd rfl hc
  | moved hs h => exact accounted_chain h

/-- Every account has counted its events since the counters were cleared, and nothing else. -/
theorem accounted_run (h : s.counters = {}) (steps : List (Step τ)) (account : Account) :
    account.counter (run steps s).state.counters =
      (happened (sinceCleared (run steps s).history)).countP account.covers := by
  rw [← map_made_stagesSinceCleared]
  refine counted_since_cleared (P := fun c since =>
    account.counter c = (happened (since.map (·.made))).countP account.covers) ?_ ?_ h
  · cases account <;> rfl
  · intro clock call u since _ hc hu
    rw [accounted_perform hc clock u account, hu]
    simp only [List.map_append, List.map_cons, List.map_nil, happened_append, List.countP_append,
      events_stage]

/-- From the first state to the second the losses among the events were counted. -/
structure LossesCounted (s t : Interface τ) (events : List Event) : Prop where
  dropped : t.counters.totals.dropped =
    s.counters.totals.dropped + events.countP Event.isDrop
  expired : t.counters.totals.expired =
    s.counters.totals.expired + events.countP Event.isExpiry

/-- A call counts what is lost in it, unless it clears the counters. -/
theorem losses_perform {call : Call} (hc : call ≠ .control .clearCounters) (clock : Clock)
    (s : Interface τ) :
    LossesCounted s ((perform clock call).run s).state ((perform clock call).run s).events :=
  ⟨accounted_perform hc clock s .drops, accounted_perform hc clock s .expiries⟩

/-- The counters of losses have counted each loss since they were cleared, and nothing else. -/
theorem losses_run (h : s.counters = {}) (steps : List (Step τ)) :
    (run steps s).state.counters.totals.dropped =
        (happened (sinceCleared (run steps s).history)).countP Event.isDrop ∧
      (run steps s).state.counters.totals.expired =
        (happened (sinceCleared (run steps s).history)).countP Event.isExpiry :=
  ⟨accounted_run h steps .drops, accounted_run h steps .expiries⟩

end Interface
end LinkLayer
