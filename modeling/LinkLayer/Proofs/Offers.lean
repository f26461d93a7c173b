import Mathlib.Data.List.Basic
import LinkLayer.Proofs.Moves

/-!
Offers of frames to the adapter. On the way out, and when a frame is handled that was read, nothing
else touches the device. So what holds of every offer, of all that leaves the device alone and of
one after the other holds of all of it (`Local`), with the times at which frames were offered, which
are readings of the clock in order (`Timed`).
-/
namespace LinkLayer

/-- One use of the adapter, with what it answered. -/
inductive Transport.Transfer where
  | transmit (frame : Bytes) (result : Except TransportError Unit)
  | receive (result : Except TransportError (Option Bytes))
  | readAddress (result : Except TransportError MacAddress)

/-- The use of the adapter that an event tells of. -/
def Event.transfer? : Event → Option Transport.Transfer
  | frameWritten frame => some (.transmit frame (.ok ()))
  | writeFailed frame error => some (.transmit frame (.error error))
  | frameRead frame => some (.receive (.ok (some frame)))
  | readFailed error => some (.receive (.error error))
  | addressRead mac => some (.readAddress (.ok mac))
  | addressReadFailed error => some (.readAddress (.error error))
  | _ => none

/-- The frame that was offered to the adapter, whether it was taken or not. -/
def Event.offered? : Event → Option Bytes
  | frameWritten frame | writeFailed frame _ => some frame
  | _ => none

theorem offered?_of_transfer? {event : Event} (h : event.transfer? = none) :
    event.offered? = none := by
  cases event with
  | frameWritten | writeFailed => cases h
  | _ => rfl

/-- Readings of one row, in the order in which they were taken. Others may have been taken in
between. -/
inductive Clock.InRow : Clock → List Time → Prop
  | nil {clock : Clock} : InRow clock []
  | told {clock : Clock} {times : List Time} (h : InRow clock.later times) :
      InRow clock (clock.time :: times)
  | skipped {clock : Clock} {times : List Time} (h : InRow clock.later times) : InRow clock times

namespace Clock.InRow

variable {clock : Clock} {times more : List Time}

/-- At most one reading is taken before the others. -/
theorem of_sublist (ht : times.Sublist [clock.time]) (h : clock.later.InRow more) :
    clock.InRow (times ++ more) := by
  rcases List.sublist_singleton.mp ht with rfl | rfl
  · exact .skipped h
  · exact .told h

theorem single (ht : times.Sublist [clock.time]) : clock.InRow times := by
  have h := of_sublist ht .nil
  rwa [List.append_nil] at h

end Clock.InRow

/-- Readings of the rows of a call, row by row. -/
inductive Clock.InRows : Clock → List Time → Prop
  | nil {clock : Clock} : InRows clock []
  | row {clock : Clock} {times more : List Time} (h : clock.InRow times)
      (hm : InRows clock.nextFrame more) : InRows clock (times ++ more)

theorem Clock.InRow.inRows {clock : Clock} {times : List Time} (h : clock.InRow times) :
    clock.InRows times := by
  rw [← List.append_nil times]
  exact .row h .nil

namespace Interface

variable {τ : Type} [Transport τ]

/-- A relation of two states, the times at which frames were offered in between and what happened
that offers decide. -/
structure Timed (R : List Time → Interface τ → Interface τ → List Event → Prop) : Prop where
  offered : ∀ {now frame value s t events},
    Offered now frame s { value, state := t, events } → R [now] s t events
  quiet : ∀ {s t events}, t.device = s.device → (∀ event ∈ events, event.transfer? = none) →
    R [] s t events
  append : ∀ {times later s t u events more}, R times s t events → R later t u more →
    R (times ++ later) s u (events ++ more)

namespace Timed

variable {now : Time} {clock : Clock} {times : List Time}
  {R : List Time → Interface τ → Interface τ → List Event → Prop} {s s' t t' : Interface τ}
  {events : List Event}

/-- What leaves the device alone may come before and after. -/
theorem frame (h : Timed R) (hr : R times s' t' events) (hs : s'.device = s.device)
    (ht : t.device = t'.device) : R times s t events := by
  have hbefore : R [] s s' [] := h.quiet hs (List.forall_mem_nil _)
  have hafter : R [] t' t [] := h.quiet ht (List.forall_mem_nil _)
  have hall := h.append hbefore (h.append hr hafter)
  simpa only [List.append_nil, List.nil_append] using hall

/-- One more event after all else. -/
theorem concat (h : Timed R) {event : Event} (hr : R times s t' events)
    (ht : t.device = t'.device) (he : event.transfer? = none) :
    R times s t (events ++ [event]) := by
  have hlast : R [] t' t [event] := h.quiet ht (List.forall_mem_singleton.mpr he)
  have hall := h.append hr hlast
  rwa [List.append_nil] at hall

/-- One more event before all else. -/
theorem cons (h : Timed R) {event : Event} (hr : R times s' t events)
    (hs : s'.device = s.device) (he : event.transfer? = none) : R times s t (event :: events) := by
  have hfirst : R [] s s' [event] := h.quiet hs (List.forall_mem_singleton.mpr he)
  exact h.append hfirst hr

theorem arpSent (h : Timed R) {message : Arp.Message}
    (ha : ArpSent now message s { value := (), state := t, events }) : R [now] s t events := by
  cases ha with
  | taken ho => exact h.frame (h.offered ho) rfl rfl
  | failed ho => exact h.concat (h.frame (h.offered ho) rfl rfl) rfl rfl

theorem delivered (h : Timed R) {d : Datagram} {value : Except DropReason Delivery}
    (hd : Delivered now d s { value, state := t, events }) :
    ∃ times, times.Sublist [now] ∧ R times s t events := by
  cases hd with
  | refused hr => exact ⟨[], List.nil_sublist _, h.quiet rfl (List.forall_mem_nil _)⟩
  | deferred hr ha => exact ⟨[now], .refl _, h.cons (h.arpSent ha) rfl rfl⟩
  | sent hr ho | failed hr ho => exact ⟨[now], .refl _, h.frame (h.offered ho) rfl rfl⟩

/-- The readings for what comes next go behind the one for the datagram, if there is one. -/
theorem settled (h : Timed R) {pass : Pass} {d : Datagram} {value : Option Datagram}
    (hd : Settled pass clock d s { value, state := t, events }) :
    ∃ times, R times s t events ∧
      ∀ more, (clock.after d).InRow more → clock.InRow (times ++ more) := by
  cases hd with
  | expired he =>
    refine ⟨[], h.quiet rfl (List.forall_mem_singleton.mpr rfl), ?_⟩
    intro more hm
    rwa [Clock.after_of_expired he] at hm
  | sent he hd =>
    obtain ⟨times, ht, hr⟩ := h.delivered hd
    refine ⟨times, h.concat (h.frame hr rfl rfl) rfl rfl, ?_⟩
    intro more hm
    rw [Clock.after_of_live he] at hm
    exact .skipped (.of_sublist ht hm)
  | waits he hd =>
    obtain ⟨times, ht, hr⟩ := h.delivered hd
    refine ⟨times, h.frame hr rfl rfl, ?_⟩
    intro more hm
    rw [Clock.after_of_live he] at hm
    exact .skipped (.of_sublist ht hm)
  | dropped he hd =>
    obtain ⟨times, ht, hr⟩ := h.delivered hd
    refine ⟨times, h.concat (h.frame hr rfl rfl) rfl (by cases pass <;> rfl), ?_⟩
    intro more hm
    rw [Clock.after_of_live he] at hm
    exact .skipped (.of_sublist ht hm)

theorem passed (h : Timed R) {pass : Pass} {ds : List Datagram}
    {o : Outcome (Interface τ) (List Datagram)} (hp : Passed pass clock ds s o) :
    ∃ times, clock.InRow times ∧ R times s o.state o.events := by
  induction hp with
  | nil => exact ⟨[], .nil, h.quiet rfl (List.forall_mem_nil _)⟩
  | gone hd hp ih | waits hd hp ih =>
    obtain ⟨times, hr, hrow⟩ := h.settled hd
    obtain ⟨more, hmore, hrest⟩ := ih
    exact ⟨times ++ more, hrow more hmore, h.append hr hrest⟩

theorem answered (h : Timed R) {message : Arp.Message}
    (ha : Answered now message s { value := (), state := t, events }) :
    ∃ times, times.Sublist [now] ∧ R times s t events := by
  cases ha with
  | notOurs hm => exact ⟨[], List.nil_sublist _, h.quiet rfl (List.forall_mem_nil _)⟩
  | told hm ho => exact ⟨[], List.nil_sublist _, h.quiet rfl (List.forall_mem_singleton.mpr rfl)⟩
  | asked hm ho ha => exact ⟨[now], .refl _, h.cons (h.arpSent ha) rfl rfl⟩

theorem heard (h : Timed R) {message : Arp.Message}
    (hh : Heard clock message s { value := (), state := t, events }) :
    ∃ times, clock.InRow times ∧ R times s t events := by
  cases hh with
  | intro ha hp =>
    obtain ⟨times, ht, hr⟩ := h.answered ha
    obtain ⟨more, hmore, hrest⟩ := h.passed hp
    have hboth := h.append hr hrest
    exact ⟨times ++ more, .of_sublist ht hmore, h.cons (h.frame hboth rfl rfl) rfl rfl⟩

theorem takenIn (h : Timed R) {bytes : Bytes}
    (ht : TakenIn clock bytes s { value := (), state := t, events }) :
    ∃ times, clock.InRow times ∧ R times s t events := by
  cases ht with
  | heard hk hm hh =>
    obtain ⟨times, hrow, hr⟩ := h.heard hh
    exact ⟨times, hrow, h.frame hr rfl rfl⟩
  | broadcast hk => exact ⟨[], .nil, h.quiet rfl (List.forall_mem_nil _)⟩
  | unknown | queued | badIp | badArp =>
    exact ⟨[], .nil, h.quiet rfl (List.forall_mem_singleton.mpr rfl)⟩

end Timed

/-- A relation of two states and what happened between them that offers decide, whenever they are
made. -/
abbrev Local (R : Interface τ → Interface τ → List Event → Prop) : Prop := Timed fun _ => R

namespace Local

variable {now : Time} {clock : Clock} {R : Interface τ → Interface τ → List Event → Prop}
  {s t : Interface τ} {events : List Event}

theorem delivered (h : Local R) {d : Datagram} {value : Except DropReason Delivery}
    (hd : Delivered now d s { value, state := t, events }) : R s t events := by
  obtain ⟨_, -, hr⟩ := Timed.delivered h hd
  exact hr

theorem settled (h : Local R) {pass : Pass} {d : Datagram} {value : Option Datagram}
    (hd : Settled pass clock d s { value, state := t, events }) : R s t events := by
  obtain ⟨_, hr, -⟩ := Timed.settled h hd
  exact hr

theorem passed (h : Local R) {pass : Pass} {ds : List Datagram}
    {o : Outcome (Interface τ) (List Datagram)} (hp : Passed pass clock ds s o) :
    R s o.state o.events := by
  obtain ⟨_, -, hr⟩ := Timed.passed h hp
  exact hr

theorem answered (h : Local R) {message : Arp.Message}
    (ha : Answered now message s { value := (), state := t, events }) : R s t events := by
  obtain ⟨_, -, hr⟩ := Timed.answered h ha
  exact hr

theorem heard (h : Local R) {message : Arp.Message}
    (hh : Heard clock message s { value := (), state := t, events }) : R s t events := by
  obtain ⟨_, -, hr⟩ := Timed.heard h hh
  exact hr

theorem takenIn (h : Local R) {bytes : Bytes}
    (ht : TakenIn clock bytes s { value := (), state := t, events }) : R s t events := by
  obtain ⟨_, -, hr⟩ := Timed.takenIn h ht
  exact hr

end Local
end Interface
end LinkLayer
