import LinkLayer.Proofs.Acceptance
import LinkLayer.Proofs.Fates

/-!
What an ARP frame does to an interface. Main statement: one that is no message is counted and
changes nothing else; one that is accepted is learned, then answered if it asks for the interface,
and then what was deferred is settled with what was learned (`handleArp_decided`).
-/
namespace LinkLayer

namespace Interface

variable {τ : Type} [FiniteTransport τ] {now : Time} {s t : Interface τ} {events : List Event}
  {message : Arp.Message} {ds : List Datagram}

/-- The interface when it settles what was deferred: the message is learned and its sender has the
answer. -/
def heard (s : Interface τ) (message : Arp.Message) : Interface τ :=
  let reply := (s.bearings.reply? message).toList
  { s with
    cache := s.cache.learn message
    device.transport := Transport.after s.device.transport reply }

theorem offered_answered (h : Answered now message s { value := (), state := t, events }) :
    events.filterMap Event.offered? = (s.bearings.reply? message).toList := by
  cases h with
  | notOurs ht =>
    have hr : s.bearings.reply? message = none := if_neg fun h => ht h.1
    rw [hr]
    rfl
  | told ht ho =>
    have hr : s.bearings.reply? message = none := if_neg (by simp [ho])
    rw [hr]
    rfl
  | asked ht ho ha =>
    have hr : s.bearings.reply? message = some _ := if_pos ⟨ht, ho⟩
    rw [hr]
    cases ha with
    | taken ho | failed ho =>
      cases ho
      rfl

/-- An answer counts neither as a try nor as a loss. -/
theorem losses_answered (h : Answered now message s { value := (), state := t, events }) :
    t.counters.arp.dequeued = s.counters.arp.dequeued ∧
      t.counters.totals.expired = s.counters.totals.expired ∧
      t.counters.totals.dropped = s.counters.totals.dropped := by
  cases h with
  | notOurs ht => exact ⟨rfl, rfl, rfl⟩
  | told ht ho => exact ⟨rfl, rfl, rfl⟩
  | asked ht ho ha =>
    cases ha with
    | taken ho | failed ho =>
      cases ho
      exact ⟨rfl, rfl, rfl⟩

/-- What is offered in a pass is never a reply. -/
theorem request_of_mem_frames {b : Bearings} {frame : Bytes} (hf : frame ∈ b.frames now ds)
    (hm : Arp.Message.ofFrame ⟨frame⟩ = .ok message) : message.operation = .request := by
  obtain ⟨d, -, hd⟩ := List.mem_filterMap.mp hf
  cases hp : b.plan now d with
  | expire | refuse reason => simp [hp, Plan.frame?] at hd
  | send hop mac =>
    simp only [hp, Plan.frame?, Option.some.injEq] at hd
    subst hd
    have harp := (Arp.Message.ofFrame_eq_ok_iff_fields.mp hm).1
    have hip : Ethernet.Frame.etherType ⟨(d.toFrame mac b.mac).bytes⟩ = .ok Ethernet.ipv4Type :=
      d.etherType_toFrame mac b.mac
    rw [hip] at harp
    cases harp
  | ask hop =>
    simp only [hp, Plan.frame?, Option.some.injEq] at hd
    subst hd
    have hsame := (Arp.Message.ofFrame_toFrame _).symm.trans hm
    cases hsame
    rfl

/-- An accepted message is learned and its sender answered, then every datagram that was deferred
meets its lot. -/
theorem heard_settles (h : Heard now message s { value := (), state := t, events }) :
    let found := s.heard message
    let ds := s.deferred.toList
    let all := lots .later now ds found
    (∃ device framer counters, t = { s with
      cache := s.cache.learn message
      deferred := .ofList (having .waits all)
      device, framer, counters }) ∧
    (∃ answers, events = .arpAccepted message :: answers ++ all.flatMap Lot.events ∧
      answers.filterMap Event.offered? = (s.bearings.reply? message).toList) ∧
    t.device.transport = (found.after now ds).device.transport ∧
    t.counters.arp.dequeued =
      s.counters.arp.dequeued + all.countP (fun lot => lot.fate ≠ .expired) ∧
    t.counters.totals.expired =
      s.counters.totals.expired + all.countP (fun lot => lot.fate = .expired) ∧
    t.counters.totals.dropped =
      s.counters.totals.dropped + all.countP (fun lot => lot.fate.isDropped) := by
  intro found ds all
  cases h with
  | @intro t u waiting events more ha hp =>
    have hanswers := offered_answered ha
    obtain ⟨htried, hexpired, hdropped⟩ := losses_answered ha
    have hreply := local_after.answered ha
    rw [hanswers] at hreply
    have hlots := allotted_passed hp
    obtain ⟨-, hadapter⟩ := wired_passed hp
    obtain ⟨device, framer, counters, hlast⟩ := sends_of_passed hp
    obtain ⟨_, _, _, rfl⟩ := sends_of_answered ha
    have hsame : lots .later now ds _ = all := lots_congr .later ⟨_, _, _, rfl⟩ hreply
    rw [hsame] at hlots
    refine ⟨⟨device, framer, counters, ?_⟩, ⟨events, ?_, hanswers⟩, hadapter.trans ?_, ?_, ?_, ?_⟩
    · have hwaiting : waiting = having .waits all := hlots.waiting
      rw [hwaiting]
      exact congrArg ({ · with deferred := .ofList (having .waits all) }) hlast
    · exact congrArg (.arpAccepted message :: events ++ ·) hlots.events
    · exact congrArg (Transport.after · (found.bearings.frames now ds)) hreply
    · exact hlots.tried.trans (congrArg (· + _) htried)
    · exact hlots.expired.trans (congrArg (· + _) hexpired)
    · exact hlots.dropped.trans (congrArg (· + _) hdropped)

theorem value_handleArp {bytes : Bytes} (now : Time) (s : Interface τ) :
    ((handleArp now ⟨bytes⟩).run s).value = .ok () ↔
      ∃ message, Arp.Message.ofFrame ⟨bytes⟩ = .ok message := by
  cases hm : Arp.Message.ofFrame ⟨bytes⟩ with
  | error reason =>
    rw [run_handleArp_of_error hm]
    simp
  | ok message => simp [(heard_handleArp hm now s).1]

/-- A frame is accepted just if its bytes are those of a packet for Ethernet and IPv4 with a known
operation. If it is refused, the counter for it is all that changes. If it is accepted, the sender
is bound unless it is nobody, a request for the interface is answered with the one reply that is
offered, and before anything else is, and then each datagram that was deferred meets the lot that
the way out has for it now that the message is heard. Those that still wait stay deferred. -/
theorem handleArp_decided {bytes : Bytes} {frame : Ethernet.Frame}
    (hb : Ethernet.Frame.ofBytes bytes = .ok frame) (now : Time) (s : Interface τ) :
    let o := (handleArp now frame).run s
    (o.value = .ok () ↔ Arp.Acceptable bytes) ∧
    (∀ reason, o.value = .error reason → o.events = [] ∧ o.state = { s with
      counters.arp := match reason with
        | .arpOpcode _ => { s.counters.arp with
            opcodeErrors := s.counters.arp.opcodeErrors + 1 }
        | _ => { s.counters.arp with inputErrors := s.counters.arp.inputErrors + 1 } }) ∧
    (o.value = .ok () → ∃ message : Arp.Message, message.SaidBy bytes ∧
      let found := s.heard message
      let ds := s.deferred.toList
      let all := lots .later now ds found
      let reply := if message.targetIp = s.config.address ∧ message.operation = .request then
        [(Arp.Message.isAt s.macAddress s.config.address message.senderMac
          message.senderIp).toFrame.bytes] else []
      let frames := found.bearings.frames now ds
      (∃ device framer counters, o.state = { s with
        cache := if message.senderIp = .unspecified then s.cache
          else s.cache.insert message.senderIp message.senderMac
        deferred := .ofList (having .waits all)
        device, framer, counters }) ∧
      (∃ answers, o.events = .arpAccepted message :: answers ++ all.flatMap Lot.events ∧
        answers.filterMap Event.offered? = reply) ∧
      o.events.filterMap Event.offered? = reply ++ frames ∧
      (∀ other ∈ frames, ∀ said, Arp.Message.ofFrame ⟨other⟩ = .ok said →
        said.operation = .request) ∧
      o.state.device.transport = (found.after now ds).device.transport ∧
      o.state.counters.arp.dequeued =
        s.counters.arp.dequeued + all.countP (fun lot => lot.fate ≠ .expired) ∧
      o.state.counters.totals.expired =
        s.counters.totals.expired + all.countP (fun lot => lot.fate = .expired) ∧
      o.state.counters.totals.dropped =
        s.counters.totals.dropped + all.countP (fun lot => lot.fate.isDropped) ∧
      ∀ before d rest, ds = before ++ d :: rest → Apart .later now found before d rest) := by
  obtain rfl : frame = ⟨bytes⟩ :=
    congrArg Ethernet.Frame.mk (Ethernet.Frame.ofBytes_ok_iff.mp hb).2
  intro o
  refine ⟨(value_handleArp now s).trans Arp.Message.exists_ofFrame_iff, ?_, ?_⟩
  · intro reason hrefused
    cases hm : Arp.Message.ofFrame ⟨bytes⟩ with
    | error other =>
      have ho : o = _ := run_handleArp_of_error hm now s
      have hchecked := Arp.Message.isChecked_of_ofFrame
        (Ethernet.Frame.ofBytes_ok_iff.mp hb).1 hm
      rw [ho] at hrefused ⊢
      cases hrefused
      refine ⟨rfl, ?_⟩
      cases reason with
      | malformed error =>
        cases error with
        | macLength | ipLength => cases hchecked
        | _ => rfl
      | _ => rfl
    | ok message =>
      have hv : o.value = .ok () := (heard_handleArp hm now s).1
      rw [hv] at hrefused
      cases hrefused
  · intro haccepted
    obtain ⟨message, hm⟩ := (value_handleArp now s).mp haccepted
    obtain ⟨hstate, ⟨answers, hevents, hanswers⟩, hadapter, htried, hexpired, hdropped⟩ :=
      heard_settles (heard_handleArp hm now s).2
    refine ⟨message, (Arp.Message.ofFrame_eq_ok_iff.mp hm).2, ?_⟩
    intro found ds all reply frames
    have hreply : (s.bearings.reply? message).toList = reply := by
      rw [Bearings.reply?, apply_ite Option.toList]
      rfl
    rw [hreply] at hanswers
    have hoffered : o.events.filterMap Event.offered? = reply ++ frames := by
      have hpass := offered_lots .later now ds found
      rw [show o.events = _ from hevents, List.cons_append, List.filterMap_cons_none rfl,
        List.filterMap_append, hanswers, hpass]
    refine ⟨hstate, ⟨answers, hevents, hanswers⟩, hoffered, ?_, hadapter, htried, hexpired,
      hdropped, ?_⟩
    · intro other hf said hs
      exact request_of_mem_frames hf hs
    · intro before d rest _
      exact apart .later now found before d rest

/-- Two neighbours are waited for when one of them asks: it has its answer, then its datagram, and
the other is asked for again. A packet with operation 3 is only counted. -/
theorem handleArp_decided_both :
    ∃ s : Interface Adapter,
      ((create { address := ⟨192, 168, 1, 1⟩, mask := ⟨255, 255, 255, 0⟩ } 0).run
        ({ address := {} } : Adapter)).value = .ok s ∧
      let letter (n : UInt8) := Datagram.make { dest := ⟨192, 168, 1, n⟩ } [] [7]
      let steps : List (Step Adapter) := [.call 0 (.setUp true), .call 0 (.submit (letter 2)),
        .call 0 (.submit (letter 3)), .call 0 .sendQueued]
      let u := (run steps s).state
      let mac : MacAddress := ⟨2, 0, 0, 0, 0, 2⟩
      let asks := Arp.Message.whoHas mac ⟨192, 168, 1, 2⟩ ⟨192, 168, 1, 1⟩
      let unknown := asks.toFrame.bytes.set 21 3
      let o := (handleArp 1 asks.toFrame).run u
      let o' := (handleArp 1 ⟨unknown⟩).run u
      Ethernet.Frame.ofBytes asks.toFrame.bytes = .ok asks.toFrame ∧
        o.value = .ok () ∧
        o.events.filterMap Event.offered? =
          [(Arp.Message.isAt {} ⟨192, 168, 1, 1⟩ mac ⟨192, 168, 1, 2⟩).toFrame.bytes,
            ((letter 2).toFrame mac {}).bytes,
            (Arp.Message.whoHas {} ⟨192, 168, 1, 1⟩ ⟨192, 168, 1, 3⟩).toFrame.bytes] ∧
        o.state.deferred.toList = [(letter 3).stamp 30000] ∧
        Ethernet.Frame.ofBytes unknown = .ok ⟨unknown⟩ ∧
        ¬ Arp.Acceptable unknown ∧ o'.state.deferred = u.deferred ∧
        o'.state.counters.arp.opcodeErrors = 1 := by
  obtain ⟨s, hc⟩ : ∃ s, ((create { address := ⟨192, 168, 1, 1⟩, mask := ⟨255, 255, 255, 0⟩ } 0).run
      ({ address := {} } : Adapter)).value = .ok s := ⟨_, rfl⟩
  refine ⟨s, hc, ?_⟩
  intro letter steps u mac asks unknown o o'
  have hasks : Ethernet.Frame.ofBytes asks.toFrame.bytes = .ok asks.toFrame := by decide +kernel
  have hunknown : Ethernet.Frame.ofBytes unknown = .ok ⟨unknown⟩ := by decide +kernel
  have hvalue : o.value = .ok () := by
    cases hc
    decide +kernel
  have hvalue' : o'.value = .error (.arpOpcode 3) := by
    cases hc
    decide +kernel
  obtain ⟨hasked, -, haccepted⟩ := handleArp_decided hasks 1 u
  obtain ⟨hiff, hrefused, -⟩ := handleArp_decided hunknown 1 u
  obtain ⟨message, hsaid, ⟨device, framer, counters, hstate⟩, -, hoffered, -⟩ := haccepted hvalue
  obtain ⟨-, hstate'⟩ := hrefused _ hvalue'
  obtain rfl : asks = message := by
    have hm := Arp.Message.ofFrame_eq_ok_iff.mpr ⟨hasked.mp hvalue, hsaid⟩
    exact Except.ok.inj ((Arp.Message.ofFrame_toFrame asks).symm.trans hm)
  have ho : o.state = _ := hstate
  have ho' : o'.state = _ := hstate'
  have hdeferred : o.state.deferred.toList =
      having .waits (lots .later 1 u.deferred.toList (u.heard asks)) :=
    (congrArg (·.deferred.toList) ho).trans (Fifo.toList_ofList _)
  have hrest : o'.state.deferred = u.deferred := by rw [ho']
  have hcount : o'.state.counters.arp.opcodeErrors = u.counters.arp.opcodeErrors + 1 := by rw [ho']
  refine ⟨hasks, hvalue, ?_, ?_, hunknown, ?_, hrest, ?_⟩
  · refine Eq.trans hoffered ?_
    cases hc
    decide +kernel
  · rw [hdeferred]
    cases hc
    decide +kernel
  · intro ha
    have hv : o'.value = .ok () := hiff.mpr ha
    rw [hvalue'] at hv
    cases hv
  · rw [hcount]
    cases hc
    decide +kernel

end Interface
end LinkLayer
