import LinkLayer.Proofs.Emission
import LinkLayer.Proofs.Subnets

/-!
What the way out decides about one datagram, and what it changes by that. Main statement: the checks
of length, options, host and network count in this order; what fails one of them adds one to its
counter and offers nothing; all else offers the adapter one frame, which asks for the next hop or
carries the datagram to it (`output_decided`).
-/
namespace LinkLayer

/-- Options that no header can count: more than forty bytes, or no whole words. -/
def Datagram.Ragged (d : Datagram) : Prop := 40 < d.options.length ∨ d.options.length % 4 ≠ 0

namespace Config

variable {config : Config} {cache : Arp.Cache} {d : Datagram} {hop : Ipv4.Address}

/-- The packet is longer than the MTU, or its frame longer than any frame. -/
def TooLong (config : Config) (d : Datagram) : Prop :=
  config.mtu.toNat < d.ipLength ∨ 1514 < d.frameLength

/-- The bits of the address outside the mask are all zero or all one. -/
def Hostless (config : Config) (ip : Ipv4.Address) : Prop :=
  ip.AllOutside config.mask false ∨ ip.AllOutside config.mask true

/-- The address is on the network of the interface. -/
def Near (config : Config) (ip : Ipv4.Address) : Prop :=
  ip.AgreesUnder config.address config.mask

instance : Decidable d.Ragged := inferInstanceAs (Decidable (_ ∨ _))

instance : Decidable (config.TooLong d) := inferInstanceAs (Decidable (_ ∨ _))

instance : Decidable (config.Hostless hop) := inferInstanceAs (Decidable (_ ∨ _))

instance : Decidable (config.Near hop) :=
  inferInstanceAs (Decidable (hop.AgreesUnder config.address config.mask))

/-- The next hop is the destination if that is on the network, and otherwise the gateway if that
is. -/
def HasHop (config : Config) (d : Datagram) (hop : Ipv4.Address) : Prop :=
  if config.Near d.destination then hop = d.destination
  else d.gateway = some hop ∧ config.Near hop

/-- The checks of the datagram alone find nothing. -/
structure Admits (config : Config) (d : Datagram) : Prop where
  short : ¬ config.TooLong d
  whole : ¬ d.Ragged
  host : ¬ config.Hostless d.destination

theorem isLocal_iff : config.isLocal hop = true ↔ config.Near hop := Ipv4.Address.sameNetwork_iff

theorem nextHop?_eq_some_iff : config.nextHop? d = some hop ↔ config.HasHop d hop := by
  rw [nextHop?, HasHop]
  by_cases hn : config.Near d.destination
  · rw [if_pos (isLocal_iff.mpr hn), if_pos hn, Option.some.injEq, eq_comm]
  · rw [if_neg fun h => hn (isLocal_iff.mp h), if_neg hn, Option.filter_eq_some_iff, isLocal_iff]

theorem route_of_tooLong (h : config.TooLong d) :
    config.route cache d = .error (.badLength d.frameLength) := if_pos h.symm

theorem route_of_short (h : ¬ config.TooLong d) :
    config.route cache d =
      if d.Ragged then .error (.badOptions d.options.length)
      else if !d.destination.namesHost config.mask then .error .badHost
      else match config.nextHop? d with
        | none => .error .badNetwork
        | some hop => match cache.lookup hop with
          | none => .ok (.unresolved hop)
          | some mac => .ok (.resolved hop mac) := if_neg fun hn => h hn.symm

theorem route_of_ragged (hl : ¬ config.TooLong d) (h : d.Ragged) :
    config.route cache d = .error (.badOptions d.options.length) := by
  rw [route_of_short hl, if_pos h]

theorem route_of_hostless (hl : ¬ config.TooLong d) (hr : ¬ d.Ragged)
    (h : config.Hostless d.destination) : config.route cache d = .error .badHost := by
  have hn : d.destination.namesHost config.mask = false :=
    Ipv4.Address.namesHost_eq_false_iff.mpr h
  rw [route_of_short hl, if_neg hr, hn]
  rfl

/-- Past the checks of the datagram alone the next hop and its binding decide. -/
theorem route_of_admits (h : config.Admits d) :
    config.route cache d = match config.nextHop? d with
      | none => .error .badNetwork
      | some hop => match cache.lookup hop with
        | none => .ok (.unresolved hop)
        | some mac => .ok (.resolved hop mac) := by
  have hn : d.destination.namesHost config.mask = true := by
    rw [← Bool.not_eq_false, Ipv4.Address.namesHost_eq_false_iff]
    exact h.host
  rw [route_of_short h.short, if_neg h.whole, hn]
  rfl

theorem route_of_no_hop (h : config.Admits d) (hn : ∀ hop, ¬ config.HasHop d hop) :
    config.route cache d = .error .badNetwork := by
  have hnone : config.nextHop? d = none :=
    Option.eq_none_iff_forall_ne_some.mpr fun hop hs => hn hop (nextHop?_eq_some_iff.mp hs)
  rw [route_of_admits h, hnone]

theorem route_of_unbound (h : config.Admits d) (hh : config.HasHop d hop)
    (hc : cache.lookup hop = none) : config.route cache d = .ok (.unresolved hop) := by
  simp only [route_of_admits h, nextHop?_eq_some_iff.mpr hh, hc]

theorem route_of_bound {mac : MacAddress} (h : config.Admits d) (hh : config.HasHop d hop)
    (hc : cache.lookup hop = some mac) : config.route cache d = .ok (.resolved hop mac) := by
  simp only [route_of_admits h, nextHop?_eq_some_iff.mpr hh, hc]

end Config

namespace Counters

/-- Counts an ARP frame, and its bytes if the adapter took it. -/
def countArp (c : Counters) (taken : Bool) : Counters :=
  { c with
    send.arp := c.send.arp + 1
    send.arpFailed := c.send.arpFailed + if taken then 0 else 1
    totals.sentBytes := c.totals.sentBytes + if taken then 42 else 0 }

/-- Counts an IP frame if the adapter took it. -/
def countIp (c : Counters) (taken : Bool) : Counters :=
  { c with send.ip := c.send.ip + if taken then 1 else 0 }

end Counters

namespace Interface

variable {τ : Type} [FiniteTransport τ] {now : Time} {clock : Clock} {s t : Interface τ}
  {events : List Event}
  {d : Datagram} {hop : Ipv4.Address} {mac : MacAddress}

/-- The interface once a frame was offered to its adapter. -/
def offering (s : Interface τ) (now : Time) (frame : Bytes) : Interface τ :=
  let answer := Transport.transmit s.device.transport frame
  { s with
    device := ⟨answer.2,
      s.device.trace.record now .write (if answer.1.isOk then .ok else .failed) frame⟩
    counters.write := Counters.transfer s.counters.write !answer.1.isOk }

/-- What is asked or told in an ARP frame is offered once, and what the adapter says to it only
shows in the counters. -/
theorem offering_of_arpSent {message : Arp.Message}
    (h : ArpSent now message s { value := (), state := t, events }) :
    let frame := message.toFrame.bytes
    let taken := (Transport.transmit s.device.transport frame).1.isOk
    events.filterMap Event.offered? = [frame] ∧
      ∃ framer, t = { s.offering now frame with
        framer, counters := (s.offering now frame).counters.countArp taken } := by
  intro frame taken
  cases h with
  | @taken framer t events ho =>
    cases ho with
    | taken ht =>
      have ht : Transport.transmit s.device.transport frame = _ := ht
      refine ⟨rfl, framer, ?_⟩
      simp only [taken, offering, ht]
      rfl
  | @failed framer error t events ho =>
    cases ho with
    | failed ht =>
      have ht : Transport.transmit s.device.transport frame = _ := ht
      refine ⟨rfl, framer, ?_⟩
      simp only [taken, offering, ht]
      rfl

/-- What is refused only shows in the counters. -/
theorem run_output_of_refused {reason : DropReason}
    (h : s.config.route s.cache d = .error reason) (now : Time) :
    (output now d).run s =
      { value := .error reason, state := { s with counters := s.counters.refuse reason } } := by
  simp [output, h, count]

/-- A next hop that is not bound is asked for, and the datagram has to wait. -/
theorem offering_of_unresolved {o : Outcome (Interface τ) (Except DropReason Delivery)}
    (h : Delivered now d s o) (hr : s.config.route s.cache d = .ok (.unresolved hop)) :
    let frame := (Arp.Message.whoHas s.macAddress s.config.address hop).toFrame.bytes
    let taken := (Transport.transmit s.device.transport frame).1.isOk
    o.value = .ok .deferred ∧ o.events.filterMap Event.offered? = [frame] ∧
      ∃ framer, o.state = { s.offering now frame with
        framer, counters := (s.offering now frame).counters.countArp taken } := by
  cases h with
  | deferred h hm =>
    cases hr.symm.trans h
    obtain ⟨hoffered, hstate⟩ := offering_of_arpSent hm
    exact ⟨rfl, hoffered, hstate⟩
  | refused h | sent h | failed h => cases hr.symm.trans h

/-- What goes to a next hop that is bound is offered once, and the adapter decides. -/
theorem offering_of_resolved {o : Outcome (Interface τ) (Except DropReason Delivery)}
    (h : Delivered now d s o) (hr : s.config.route s.cache d = .ok (.resolved hop mac)) :
    let frame := (d.toFrame mac s.macAddress).bytes
    let answer := (Transport.transmit s.device.transport frame).1
    o.value = (match answer with
      | .ok () => .ok (.sent d.ipLength)
      | .error error => .error (.transport error)) ∧
    o.events.filterMap Event.offered? = [frame] ∧
      ∃ framer, o.state = { s.offering now frame with
        framer, counters := (s.offering now frame).counters.countIp answer.isOk } := by
  intro frame answer
  cases h with
  | @sent hop' mac' framer t events h ho =>
    cases hr.symm.trans h
    cases ho with
    | taken ht =>
      have ht : Transport.transmit s.device.transport frame = _ := ht
      refine ⟨?_, rfl, framer, ?_⟩
      · simp only [answer, ht]
      · simp only [answer, offering, ht]
        rfl
  | @failed hop' mac' framer error t events h ho =>
    cases hr.symm.trans h
    cases ho with
    | failed ht =>
      have ht : Transport.transmit s.device.transport frame = _ := ht
      refine ⟨?_, rfl, framer, ?_⟩
      · simp only [answer, ht]
      · simp only [answer, offering, ht]
        rfl
  | refused h | deferred h => cases hr.symm.trans h

/-- The way out only counts what it refuses, asks for and writes. -/
theorem totals_of_delivered {o : Outcome (Interface τ) (Except DropReason Delivery)}
    (h : Delivered now d s o) : ∃ device framer counters,
      o.state = { s with device, framer, counters } ∧
      counters.totals.dropped = s.counters.totals.dropped ∧
      counters.totals.expired = s.counters.totals.expired ∧
      counters.totals.receivedBytes = s.counters.totals.receivedBytes := by
  cases h with
  | @refused reason h => cases reason <;> exact ⟨_, _, _, rfl, rfl, rfl, rfl⟩
  | deferred h hm =>
    cases hm with
    | taken ho | failed ho =>
      cases ho
      exact ⟨_, _, _, rfl, rfl, rfl, rfl⟩
  | sent h ho | failed h ho =>
    cases ho
    exact ⟨_, _, _, rfl, rfl, rfl, rfl⟩

/-- The checks of a datagram count in this order: its length, its options, the host part of its
destination, and whether there is a next hop on the network. What fails one is refused for it, adds
one to the counter of that refusal and changes nothing else. What passes them is offered in a frame
to the next hop, or the next hop is asked for and the datagram has to wait, whether the adapter
takes the question or not. Nothing but the device, the framer and the counters ever changes, and the
counter of dropped datagrams does not. -/
theorem output_decided (now : Time) (d : Datagram) (s : Interface τ) :
    let o := (output now d).run s
    (s.config.TooLong d → o =
      { value := .error (.badLength d.frameLength)
        state := { s with counters.send.badLength := s.counters.send.badLength + 1 } }) ∧
    (¬ s.config.TooLong d → d.Ragged → o =
      { value := .error (.badOptions d.options.length)
        state := { s with counters.send.badOptions := s.counters.send.badOptions + 1 } }) ∧
    (¬ s.config.TooLong d → ¬ d.Ragged → s.config.Hostless d.destination → o =
      { value := .error .badHost
        state := { s with counters.send.badHost := s.counters.send.badHost + 1 } }) ∧
    (s.config.Admits d → (∀ hop, ¬ s.config.HasHop d hop) → o =
      { value := .error .badNetwork
        state := { s with counters.send.badNetwork := s.counters.send.badNetwork + 1 } }) ∧
    (s.config.Admits d → ∀ hop, s.config.HasHop d hop → s.cache.lookup hop = none →
      let frame := (Arp.Message.whoHas s.macAddress s.config.address hop).toFrame.bytes
      let taken := (Transport.transmit s.device.transport frame).1.isOk
      o.value = .ok .deferred ∧ s.bearings.Asks frame hop ∧
        o.events.filterMap Event.offered? = [frame] ∧
        ∃ framer, o.state = { s.offering now frame with
          framer, counters := (s.offering now frame).counters.countArp taken }) ∧
    (s.config.Admits d → ∀ hop mac, s.config.HasHop d hop → s.cache.lookup hop = some mac →
      let frame := (d.toFrame mac s.macAddress).bytes
      let answer := (Transport.transmit s.device.transport frame).1
      o.value = (match answer with
        | .ok () => .ok (.sent d.ipLength)
        | .error error => .error (.transport error)) ∧
        s.bearings.Carries frame d ∧ Ethernet.Frame.dest ⟨frame⟩ = .ok mac ∧
        o.events.filterMap Event.offered? = [frame] ∧
        ∃ framer, o.state = { s.offering now frame with
          framer, counters := (s.offering now frame).counters.countIp answer.isOk }) ∧
    ∃ device framer counters, o.state = { s with device, framer, counters } ∧
      counters.totals.dropped = s.counters.totals.dropped ∧
      counters.totals.expired = s.counters.totals.expired ∧
      counters.totals.receivedBytes = s.counters.totals.receivedBytes := by
  intro o
  have hd : Delivered now d s o := delivered_output now d s
  refine ⟨?_, ?_, ?_, ?_, ?_, ?_, totals_of_delivered hd⟩
  · intro h
    exact run_output_of_refused (Config.route_of_tooLong h) now
  · intro hl h
    exact run_output_of_refused (Config.route_of_ragged hl h) now
  · intro hl hr h
    exact run_output_of_refused (Config.route_of_hostless hl hr h) now
  · intro ha hn
    exact run_output_of_refused (Config.route_of_no_hop ha hn) now
  · intro ha hop hh hc
    have hroute := Config.route_of_unbound ha hh hc
    obtain ⟨hvalue, hoffered, hstate⟩ := offering_of_unresolved hd hroute
    exact ⟨hvalue, Bearings.asks_of_route hroute, hoffered, hstate⟩
  · intro ha hop mac hh hc
    have hroute := Config.route_of_bound ha hh hc
    obtain ⟨hvalue, hoffered, hstate⟩ := offering_of_resolved hd hroute
    exact ⟨hvalue, Bearings.carries_of_route hroute, d.dest_toFrame mac s.macAddress, hoffered,
      hstate⟩

end Interface
end LinkLayer
