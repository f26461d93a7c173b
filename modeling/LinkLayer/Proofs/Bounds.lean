import LinkLayer.Proofs.Learning

/-!
No access goes past the end of what it reads or writes. An access that fails would show as an error
that no check gives. Main statement: none ever comes up, whatever frames arrive and whatever
datagrams the host hands in (`within_bounds`).
-/
namespace LinkLayer

theorem Arp.Cache.slotFor?_lt {cache : Cache} {ip : Ipv4.Address} {slot : Nat}
    (h : cache.slotFor? ip = some slot) : slot < cache.capacity := by
  rcases Option.or_eq_some_iff.mp h with h | ⟨-, h⟩
  · exact (List.findIdx?_eq_some_iff_getElem.mp h).1
  · exact (List.findIdx?_eq_some_iff_getElem.mp h).1

/-- Whatever happens, the next victim stays in the table. -/
theorem Bearings.ages_follow {capacity : Nat} {b : Bearings}
    (h : ∃ ages, b.cache.Ages capacity ages) (event : Event) :
    ∃ ages, (b.follow event).cache.Ages capacity ages := by
  obtain ⟨ages, ha⟩ := h
  cases event with
  | arpAccepted message =>
    by_cases hm : message.senderIp = .unspecified
    · exact ⟨ages, by simpa only [follow, Arp.Cache.learn, if_pos hm] using ha⟩
    · have hinsert := Arp.Cache.ages_insert ha message.senderIp message.senderMac
      exact ⟨_, by simpa only [follow, Arp.Cache.learn, if_neg hm] using hinsert⟩
  | cacheCleared => exact ⟨[], Arp.Cache.ages_reset ha⟩
  | _ => exact ⟨ages, ha⟩

theorem Bearings.ages_foldl {capacity : Nat} {b : Bearings}
    (h : ∃ ages, b.cache.Ages capacity ages) (events : List Event) :
    ∃ ages, (events.foldl follow b).cache.Ages capacity ages := by
  induction events generalizing b with
  | nil => exact h
  | cons event events ih => exact ih (ages_follow h event)

/-- Why a frame or a datagram was dropped. -/
def Event.verdict? : Event → Option DropReason
  | inboundDropped _ reason | outboundDropped _ reason | deferredDropped _ reason => some reason
  | _ => none

/-- Nothing was dropped for an access that failed. -/
def Event.isSound (event : Event) : Bool := event.verdict?.all DropReason.isChecked

namespace Interface

/-- Why a frame or a datagram was refused. -/
def Reply.verdict? : Reply → Option DropReason
  | .delivery (.error reason) | .handled (.error reason) => some reason
  | _ => none

/-- All verdicts that a call gave. -/
def Made.verdicts (made : Made) : List DropReason :=
  made.reply.verdict?.toList ++ made.events.filterMap Event.verdict?

/-- A frame that the host hands in was built from bytes, and so has a header. -/
def Call.IsBuilt : Call → Prop
  | handleArp frame | handleIp frame => Ethernet.Frame.ofBytes frame.bytes = .ok frame
  | _ => True

def Step.IsBuilt {τ : Type} : Step τ → Prop
  | .call _ made => made.IsBuilt
  | .adapter _ => True

variable {τ : Type} [FiniteTransport τ] {now : Time} {clock : Clock} {s t : Interface τ}
  {events : List Event} {call : Call} {pass? : Option Pass}

theorem sound_arpSent {message : Arp.Message}
    (h : ArpSent now message s { value := (), state := t, events }) :
    events.all Event.isSound = true := by
  cases h with
  | taken ho | failed ho =>
    cases ho
    rfl

theorem sound_delivered {d : Datagram} {value : Except DropReason Delivery}
    (h : Delivered now d s { value, state := t, events }) :
    events.all Event.isSound = true ∧
      ∀ reason, value = .error reason → reason.isChecked = true := by
  cases h with
  | refused hr =>
    refine ⟨rfl, ?_⟩
    rintro reason ⟨⟩
    exact Config.isChecked_of_route hr
  | deferred hr ha =>
    have hevents := sound_arpSent ha
    exact ⟨hevents, by simp⟩
  | sent hr ho =>
    cases ho
    exact ⟨rfl, by simp⟩
  | failed hr ho =>
    cases ho
    refine ⟨rfl, ?_⟩
    rintro reason ⟨⟩
    rfl

theorem sound_settled {pass : Pass} {d : Datagram} {value : Option Datagram}
    (h : Settled pass clock d s { value, state := t, events }) :
    events.all Event.isSound = true := by
  cases h with
  | expired he => rfl
  | sent he hd =>
    rw [List.all_append, (sound_delivered hd).1]
    rfl
  | waits he hd => exact (sound_delivered hd).1
  | @dropped reason t events he hd =>
    obtain ⟨hevents, hreason⟩ := sound_delivered hd
    have hdropped : (pass.dropped d reason).isSound = true := by
      cases pass <;> exact hreason reason rfl
    simp [List.all_append, hevents, hdropped]

theorem sound_passed {pass : Pass} {ds : List Datagram}
    {o : Outcome (Interface τ) (List Datagram)} (h : Passed pass clock ds s o) :
    o.events.all Event.isSound = true := by
  induction h with
  | nil => rfl
  | gone h hp ih | waits h hp ih => rw [List.all_append, sound_settled h, ih, Bool.and_self]

theorem sound_heard {message : Arp.Message}
    (h : Heard clock message s { value := (), state := t, events }) :
    events.all Event.isSound = true := by
  cases h with
  | @intro t u waiting events more ha hp =>
    have hanswer : events.all Event.isSound = true := by
      cases ha with
      | notOurs | told => rfl
      | asked hm ho ha =>
        have hevents := sound_arpSent ha
        exact hevents
    have hpass := sound_passed hp
    rw [List.cons_append, List.all_cons, List.all_append, hanswer, hpass]
    rfl

theorem sound_inboundDropped {bytes : Bytes} {reason : DropReason}
    (h : reason.isChecked = true) : [Event.inboundDropped bytes reason].all Event.isSound = true :=
  (Bool.and_true _).trans h

theorem sound_takenIn {bytes : Bytes}
    (h : TakenIn clock bytes s { value := (), state := t, events }) :
    events.all Event.isSound = true := by
  cases h with
  | broadcast | queued => rfl
  | heard hk hm hh => exact sound_heard hh
  | unknown hk => exact sound_inboundDropped (Ethernet.isChecked_of_handledKind hk)
  | badIp hk hp => exact sound_inboundDropped (Ipv4.Packet.isChecked_of_ofFrame hp)
  | badArp hk hm =>
    have hl := Ethernet.headerLength_le_of_handledKind hk
    exact sound_inboundDropped (Arp.Message.isChecked_of_ofFrame hl hm)

theorem sound_move (h : Move clock pass? s events t) : events.all Event.isSound = true := by
  cases h with
  | passed hu hp => exact sound_passed hp
  | heard h => exact sound_heard h
  | received hr h =>
    have hevents := sound_takenIn h
    cases hr with
    | frame hr => exact hevents
  | ended h hn => cases h <;> rfl
  | taken => simp [Event.isSound, Event.verdict?]
  | _ => rfl

theorem sound_chain (h : Chain pass? clock s events t) : events.all Event.isSound = true := by
  induction h with
  | nil => rfl
  | cons h hc ih => rw [List.all_append, sound_move h, ih, Bool.and_self]

theorem sound_perform (clock : Clock) (call : Call) (s : Interface τ) :
    ((perform clock call).run s).events.all Event.isSound = true := by
  have h := performed_perform clock call s
  generalize (perform clock call).run s = o at h ⊢
  obtain ⟨reply, t, events⟩ := o
  cases h with
  | delivered h => exact (sound_delivered h).1
  | moved hs h => exact sound_chain h
  | submitted | addressSet | maskSet | queued | countersCleared => rfl

/-- What the host is told is never an access that failed. -/
theorem verdict_perform (hb : call.IsBuilt) (clock : Clock) (s : Interface τ) {reason : DropReason}
    (h : ((perform clock call).run s).value.verdict? = some reason) : reason.isChecked = true := by
  cases call with
  | output d =>
    have hd := delivered_output clock.time d s
    simp only [perform, Action.run_bind, Action.run_pure] at h
    generalize (output clock.time d).run s = o at h hd
    obtain ⟨value, t, events⟩ := o
    cases value with
    | ok delivery => cases h
    | error other =>
      cases h
      exact (sound_delivered hd).2 reason rfl
  | handleArp frame =>
    have hl := (Ethernet.Frame.ofBytes_ok_iff.mp hb).1
    cases hm : Arp.Message.ofFrame frame with
    | error other =>
      simp only [perform, Action.run_bind, run_handleArp_of_error hm] at h
      cases h
      exact Arp.Message.isChecked_of_ofFrame hl hm
    | ok message =>
      have hv := (heard_handleArp hm clock s).1
      simp only [perform, Action.run_bind, Action.run_pure, hv] at h
      cases h
  | handleIp frame =>
    cases hp : Ipv4.Packet.ofFrame frame with
    | error error =>
      simp only [perform, handleIp, hp, Action.run_bind] at h
      cases h
      exact Ipv4.Packet.isChecked_of_ofFrame hp
    | ok packet =>
      simp only [perform, handleIp, hp, Action.run_bind] at h
      cases h
  | _ => cases h

theorem sound_made (hb : call.IsBuilt) (clock : Clock) (s : Interface τ) :
    ∀ reason ∈ (stage clock call s).made.verdicts, reason.isChecked = true := by
  intro reason hm
  rcases List.mem_append.mp hm with hreply | hevents
  · exact verdict_perform hb clock s (Option.mem_toList.mp hreply)
  · obtain ⟨event, he, hv⟩ := List.mem_filterMap.mp hevents
    have hsound := List.all_eq_true.mp (sound_perform clock call s) event he
    rw [Event.isSound, hv] at hsound
    exact hsound

theorem sound_run {steps : List (Step τ)} (hb : ∀ step ∈ steps, step.IsBuilt)
    (s : Interface τ) :
    ∀ made ∈ (run steps s).history, ∀ reason ∈ made.verdicts, reason.isChecked = true := by
  induction steps generalizing s with
  | nil => simp [run]
  | cons step steps ih =>
    rw [List.forall_mem_cons] at hb
    cases step with
    | adapter change => exact ih hb.2 _
    | call clock call => exact List.forall_mem_cons.mpr ⟨sound_made hb.1 clock s, ih hb.2 _⟩

/-- In any run where the frames that the host hands in were built from bytes: no verdict comes from
an access that failed. At every moment of a call the table of bindings is used within its slots, and
emptying the adapter ends with a read that gives none or fails. Every frame can be filled in,
whatever it carried before. A packet that was accepted has all its fields, those of an accepted
IPv4 packet lie in its frame, and the addresses of one for Ethernet and IPv4 have the right
lengths. -/
theorem within_bounds {config : Config} {time : Time} {transport : τ}
    (hc : ((create config time).run transport).value = .ok s) {steps : List (Step τ)}
    (hb : ∀ step ∈ steps, step.IsBuilt) :
    let left := run steps s
    (∀ made ∈ left.history, ∀ reason ∈ made.verdicts, reason.isChecked = true) ∧
    (∀ clock call before, before <+: ((perform clock call).run left.state).events →
      let cache := (before.foldl Bearings.follow left.state.bearings).cache
      cache.nextVictim < cache.capacity ∧
        ∀ ip slot, cache.slotFor? ip = some slot → slot < cache.capacity) ∧
    (∀ clock, left.state.isUp = true →
      let o := (perform clock .receiveWaiting).run left.state
      Drained clock left.state o.events o.state) ∧
    (∀ (framer : Framer) dest source d, ∃ next,
      framer.datagram dest source d = .ok ((d.toFrame dest source).bytes, next)) ∧
    (∀ (framer : Framer) message, ∃ next,
      framer.message message = .ok (message.toFrame.bytes, next)) ∧
    (∀ frame packet, Ipv4.Packet.ofFrame frame = .ok packet →
      packet.frame = frame ∧ packet.LaidOut) ∧
    ∀ frame packet, Arp.Packet.ofFrame frame = .ok packet →
      (∀ field, ∃ bytes, packet.get field = .ok bytes) ∧
      (∃ code, packet.operationCode = .ok code) ∧
      (∃ answer, packet.isEthernetIpv4 = .ok answer) ∧
      (packet.isEthernetIpv4 = .ok true →
        (∃ mac, packet.senderMac = .ok mac) ∧ (∃ ip, packet.senderIp = .ok ip) ∧
          (∃ mac, packet.targetMac = .ok mac) ∧ ∃ ip, packet.targetIp = .ok ip) := by
  intro left
  refine ⟨sound_run hb s, ?_, ?_, ?_, ?_, ?_, ?_⟩
  · intro clock call before hbefore cache
    have hages : ∃ ages, left.state.bearings.cache.Ages config.cacheCapacity ages := by
      have hcapacity := (Config.limits_of_validate (created hc).1).1
      have hempty : s.cache = .empty config.cacheCapacity := by
        obtain ⟨_, _, rfl⟩ := eq_of_create hc
        rfl
      obtain ⟨ages, h⟩ := Arp.recalls_learn hcapacity (heardSinceCleared left.history)
      rw [← cache_run hempty steps] at h
      exact ⟨ages, h.held⟩
    obtain ⟨ages, h⟩ := Bearings.ages_foldl hages before
    refine ⟨?_, fun ip slot hs => Arp.Cache.slotFor?_lt hs⟩
    rw [h.capacity_eq]
    exact h.nextVictim_lt
  · intro clock hu
    exact drained_perform hu clock
  · exact Framer.datagram_eq
  · exact Framer.message_eq
  · intro frame packet h
    exact Ipv4.Packet.laidOut_of_ofFrame h
  · intro frame packet h
    obtain ⟨hardware, protocol, hw⟩ := Arp.Packet.whole_of_ofFrame h
    obtain ⟨answer, ha, hlengths⟩ := hw.isEthernetIpv4
    refine ⟨?_, hw.word 6 (by omega), ⟨answer, ha⟩, ?_⟩
    · intro field
      obtain ⟨bytes, hg, -⟩ := hw.get field
      exact ⟨bytes, hg⟩
    · intro htrue
      rw [ha] at htrue
      cases htrue
      obtain ⟨rfl, rfl⟩ := hlengths rfl
      exact hw.addresses

/-- Four frames do not have the lengths that they state: one is no frame at all, one announces ARP
addresses that are too long for it, one has an IPv4 header that is longer than its packet, and one
has no ARP addresses. Each is dropped for just that. -/
theorem within_bounds_lengths :
    ∃ s : Interface Adapter,
      ((create { address := ⟨192, 168, 1, 1⟩ } 0).run ({ address := {} } : Adapter)).value = .ok s ∧
      let frame (etherType : UInt16) (head : Bytes) : Bytes :=
        List.replicate 12 0 ++ Bytes.ofWord etherType ++ head ++ List.replicate 60 0
      let noAddresses : Ethernet.Frame := ⟨frame Ethernet.arpType [0, 1, 8, 0, 0, 0, 0, 1]⟩
      let steps : List (Step Adapter) := [.call 0 (.setUp true), .adapter (·.inject [1, 2, 3]),
        .adapter (·.inject (frame Ethernet.arpType [0, 1, 8, 0, 255, 255, 0, 1])),
        .adapter (·.inject (frame Ethernet.ipv4Type [0x4f, 0, 0, 20])),
        .call 1 .receiveWaiting, .call 2 (.handleArp noAddresses)]
      (∀ step ∈ steps, step.IsBuilt) ∧
        (run steps s).history.flatMap Made.verdicts = [.malformed .frameTooShort,
          .malformed .arpTruncated, .malformed .headerLength, .arpHardware] ∧
        ∀ made ∈ (run steps s).history, ∀ reason ∈ made.verdicts, reason.isChecked = true := by
  obtain ⟨s, hc⟩ : ∃ s, ((create { address := ⟨192, 168, 1, 1⟩ } 0).run
      ({ address := {} } : Adapter)).value = .ok s := ⟨_, rfl⟩
  refine ⟨s, hc, ?_⟩
  intro frame noAddresses steps
  have hb : ∀ step ∈ steps, step.IsBuilt := by
    simp [steps, Step.IsBuilt, Call.IsBuilt, noAddresses, frame, Ethernet.Frame.ofBytes,
      Ethernet.headerLength]
  refine ⟨hb, ?_, (within_bounds hc hb).1⟩
  cases hc
  decide +kernel

end Interface
end LinkLayer
