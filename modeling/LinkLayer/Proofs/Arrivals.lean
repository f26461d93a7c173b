import LinkLayer.Proofs.Ledger
import LinkLayer.Proofs.Lifetimes
import LinkLayer.Proofs.Records

/-!
What comes in and what the host gets. Main statement: what is received is what the frames that were
read bring, one datagram for each frame that brings one, in the order of the frames, and each of
these datagrams is still queued or left the queue in one of three ways, in the same order
(`arrivals_exact`).
-/
namespace LinkLayer

theorem Bytes.readWord_eq_error {bytes : Bytes} {start : Nat} (h : bytes.length < start + 2) :
    readWord bytes start = .error .outOfRange := by
  rw [readWord]
  split
  · rename_i hd
    have hlength := congrArg List.length hd
    simp only [List.length_drop, List.length_cons] at hlength
    omega
  · rfl

namespace Ethernet

variable {bytes : Bytes} {d : Datagram}

/-- The datagram in a frame of IPv4 that is not a broadcast and holds a well-formed packet. -/
def brings? (bytes : Bytes) : Option Datagram :=
  if (Frame.mk bytes).etherType.toOption = some ipv4Type ∧
      (Frame.mk bytes).dest.toOption ≠ some .broadcast then
    (Ipv4.Packet.ofFrame ⟨bytes⟩).toOption.map Datagram.ofPacket
  else none

theorem handledKind_eq_ipv4_iff :
    handledKind bytes = .ok .ipv4 ↔ (Frame.mk bytes).etherType.toOption = some ipv4Type ∧
      (Frame.mk bytes).dest.toOption ≠ some .broadcast := by
  by_cases hl : headerLength ≤ bytes.length
  · obtain ⟨dest, -, etherType, hdest, -, htype, -⟩ :=
      Frame.take_headerLength (show headerLength ≤ (Frame.mk bytes).length from hl)
    have hb : Frame.ofBytes bytes = .ok ⟨bytes⟩ := Frame.ofBytes_ok_iff.mpr ⟨hl, rfl⟩
    simp only [handledKind, hb, Frame.kind, htype, hdest, bind, Except.bind, Except.toOption,
      MacAddress.isBroadcast, beq_iff_eq, Option.some.injEq, ne_eq]
    by_cases ht : etherType = ipv4Type
    · by_cases hd : dest = .broadcast
      · simp [ht, hd]
      · simp [ht, hd]
    · by_cases ha : etherType = arpType
      · simp [ha, arpType, ipv4Type]
      · simp [ht, ha]
  · have hb : Frame.ofBytes bytes = .error .frameTooShort := if_pos (Nat.lt_of_not_le hl)
    have htype : (Frame.mk bytes).etherType = .error .outOfRange := by
      simp only [headerLength] at hl
      exact Bytes.readWord_eq_error (show bytes.length < 12 + 2 by omega)
    simp [handledKind, hb, htype, Except.toOption]

theorem brings?_of_ipv4 (h : handledKind bytes = .ok .ipv4) :
    brings? bytes = (Ipv4.Packet.ofFrame ⟨bytes⟩).toOption.map Datagram.ofPacket :=
  if_pos (handledKind_eq_ipv4_iff.mp h)

theorem brings?_of_not_ipv4 (h : handledKind bytes ≠ .ok .ipv4) : brings? bytes = none :=
  if_neg (mt handledKind_eq_ipv4_iff.mpr h)

/-- What a frame brings lies in it without a gap behind its header, and the rest is padding. -/
theorem parts_of_brings? (h : brings? bytes = some d) :
    (∃ padding, bytes.drop headerLength =
      d.header.toBytes ++ d.options ++ d.payload ++ padding) ∧
      d.header.totalLength.toNat = d.ipLength ∧ d.gateway = none ∧ d.expiry = none := by
  rw [brings?, Option.ite_none_right_eq_some] at h
  obtain ⟨-, hd⟩ := h
  cases hp : Ipv4.Packet.ofFrame ⟨bytes⟩ with
  | error error => simp [hp, Except.toOption] at hd
  | ok packet =>
    obtain rfl : Datagram.ofPacket packet = d := by simpa [hp, Except.toOption] using hd
    obtain ⟨hframe, hl⟩ := Ipv4.Packet.laidOut_of_ofFrame hp
    obtain ⟨padding, hbytes⟩ := hl.bytes
    rw [hframe] at hbytes
    exact ⟨⟨padding, hbytes⟩, hl.total_length, rfl, rfl⟩

end Ethernet

/-- The datagram that expired in the receive queue. -/
def Event.expiredReceived? : Event → Option Datagram
  | expired _ .receive d => some d
  | _ => none

/-- The datagrams that were released from the receive queue. -/
def Event.releasedReceived : Event → List Datagram
  | wentDown _ receive _ => receive
  | _ => []

namespace Interface

open Ethernet (brings?)

variable {τ : Type} [FiniteTransport τ] {now : Time} {clock : Clock} {s t u : Interface τ}
  {events more : List Event}

/-- How a datagram can leave the receive queue. -/
inductive Exit where
  | returned
  | expired
  | released
deriving DecidableEq, Repr

/-- What a call received for the host. -/
def Made.arrived (made : Made) : List Datagram :=
  if made.call = .receiveWaiting then made.events.filterMap Event.queued? else []

/-- What left the receive queue in a call, oldest first. Before the host gets a datagram, those in
front of it expire. -/
def Made.exits (made : Made) : List (Datagram × Exit) :=
  match made.call with
  | .takeReceived =>
    (made.events.filterMap Event.expiredReceived?).map (·, .expired) ++
      made.reply.returned?.toList.map (·, .returned)
  | .setUp false => (made.events.flatMap Event.releasedReceived).map (·, .released)
  | _ => []

/-- A frame that is handled gives the host what it brings. -/
theorem queued_takenIn {bytes : Bytes}
    (h : TakenIn clock bytes s { value := (), state := t, events }) :
    (events.filterMap Event.queued?).map Datagram.content = (brings? bytes).toList := by
  cases h with
  | queued hk hp =>
    simp [Ethernet.brings?_of_ipv4 hk, hp, Except.toOption, Event.queued?, Datagram.content,
      Datagram.stamp, Datagram.ofPacket]
  | badIp hk hp =>
    simp [Ethernet.brings?_of_ipv4 hk, hp, Except.toOption, Event.queued?]
  | heard hk hm hh =>
    rw [(idle_heard hh).queued, Ethernet.brings?_of_not_ipv4 (by simp [hk])]
    rfl
  | unknown hk | broadcast hk | badArp hk hm =>
    rw [Ethernet.brings?_of_not_ipv4 (by simp [hk])]
    rfl

/-- What is queued while the adapter is emptied is what the frames bring. -/
theorem queued_drained (h : Drained clock s events t) :
    (events.filterMap Event.queued?).map Datagram.content =
      (events.filterMap Event.read?).filterMap brings? := by
  induction h with
  | ended h hn =>
    cases h with
    | frame h => exact absurd rfl (hn _)
    | nothing | failed => rfl
  | @frame clock bytes s t u v events more rest hr ht hd ih =>
    have hmore := queued_takenIn ht
    have hframes := (handled_takenIn ht).frames
    cases hr with
    | @frame b rest transport hr =>
      have hread : [Event.frameRead (b :: rest)].filterMap Event.read? = [b :: rest] := rfl
      have hnone : [Event.frameRead (b :: rest)].filterMap Event.queued? = [] := rfl
      simp only [List.filterMap_append, List.map_append, hread, hnone, hmore, hframes, ih]
      cases hb : brings? (b :: rest) with
      | none => simp [hb]
      | some d => simp [hb]

/-- Only receiving reads frames, and only while the interface is up. -/
theorem unread_perform {call : Call} (hr : call = .receiveWaiting → s.isUp = false)
    (clock : Clock) :
    ((perform clock call).run s).events.filterMap Event.read? = [] := by
  cases call with
  | output d =>
    have h := delivered_output clock.time d s
    simp only [perform, Action.run_bind, Action.run_pure, List.append_nil]
    exact (idle_delivered h).frames
  | handleArp frame =>
    simp only [perform, Action.run_bind, Action.run_pure, List.append_nil]
    cases hm : Arp.Message.ofFrame frame with
    | error reason =>
      rw [run_handleArp_of_error hm]
      rfl
    | ok message => exact (idle_heard (heard_handleArp hm clock s).2).frames
  | handleIp frame =>
    simp only [perform, handleIp, Action.run_bind, Action.run_pure, List.append_nil]
    cases hp : Ipv4.Packet.ofFrame frame with
    | error error => rfl
    | ok packet => rfl
  | control request =>
    by_cases hc : request = .clearCounters
    · subst hc
      rfl
    · exact (idle_perform rfl (by simpa using hc) hr clock).frames
  | _ => exact (idle_perform rfl (by simp) hr clock).frames

/-- A call receives what the frames that it reads bring. -/
theorem arrived_perform (clock : Clock) (call : Call) (s : Interface τ) :
    (stage clock call s).made.arrived.map Datagram.content =
      ((stage clock call s).made.events.filterMap Event.read?).filterMap brings? := by
  by_cases hr : call = .receiveWaiting
  · subst hr
    by_cases hu : s.isUp = true
    · exact queued_drained (drained_perform hu clock)
    · have hnone : ((perform clock .receiveWaiting).run s).events = [] := by
        simp [perform, receiveWaiting, hu]
      simp [Made.arrived, hnone]
  · rw [events_stage, unread_perform fun h => absurd h hr, Made.arrived, call_stage, if_neg hr]
    rfl

/-- Most calls leave alone what waits for the host. -/
theorem receiveQueue_perform {call : Call} (hd : call ≠ .setUp false) (hr : call ≠ .receiveWaiting)
    (ht : call ≠ .takeReceived) (hi : ∀ frame, call ≠ .handleIp frame) (clock : Clock)
    (s : Interface τ) :
    ((perform clock call).run s).state.receiveQueue = s.receiveQueue := by
  cases call with
  | setUp up =>
    cases up with
    | true => rfl
    | false => exact absurd rfl hd
  | submit | setAddress | setMask => rfl
  | sendQueued =>
    by_cases hu : s.isUp = true
    · obtain ⟨_, _, _, hs⟩ := sends_of_passed (passed_settleAll .first clock s.sendQueue.toList s)
      simp only [run_sendQueued hu, hs]
    · simp [perform, sendQueued, hu]
  | receiveWaiting => exact absurd rfl hr
  | takeReceived => exact absurd rfl ht
  | output d =>
    have h : s.Sends ((output clock.time d).run s).state :=
      sends_of_delivered (delivered_output clock.time d s)
    obtain ⟨_, _, _, hs⟩ := h
    simp only [perform, Action.run_bind, Action.run_pure, hs]
  | handleArp frame =>
    simp only [perform, Action.run_bind, Action.run_pure]
    cases hm : Arp.Message.ofFrame frame with
    | error reason => rw [run_handleArp_of_error hm]
    | ok message => exact receiveQueue_heard (heard_handleArp hm clock s).2
  | handleIp frame => exact absurd rfl (hi frame)
  | control request =>
    cases request with
    | macAddress =>
      rcases h : Transport.readAddress s.device.transport with ⟨result, transport⟩
      simp only [perform, control, refreshAddress, onDevice, Action.run_bind, Action.run_get,
        Action.run_onPart, Action.run_pure]
      simp only [Action.run, Device.readAddress, h]
      cases result <;> rfl
    | _ => rfl

/-- Taking hands out the first datagram that is not expired. -/
theorem exits_takeReceived (clock : Clock) (s : Interface τ) :
    (stage clock .takeReceived s).made.exits =
      (s.receiveQueue.dequeue clock.time).expired.map (·, .expired) ++
        (s.receiveQueue.dequeue clock.time).datagram.toList.map (·, .returned) := by
  have hevents : ((s.receiveQueue.dequeue clock.time).expired.map
      (Event.expired clock.time .receive)).filterMap Event.expiredReceived? =
        (s.receiveQueue.dequeue clock.time).expired := by
    simp [List.filterMap_map, Function.comp_def, Event.expiredReceived?]
  simp only [stage, Made.exits, perform, run_takeReceived, Action.run_bind, Action.run_pure,
    Reply.returned?, List.append_nil, hevents]

/-- What waits and what a call receives leaves in the call or waits after it, in one order. -/
theorem exits_perform {call : Call} (hi : ∀ frame, call ≠ .handleIp frame) (clock : Clock)
    (s : Interface τ) :
    s.receiveQueue.toList ++ (stage clock call s).made.arrived =
      (stage clock call s).made.exits.map (·.1) ++
        ((perform clock call).run s).state.receiveQueue.toList := by
  by_cases hr : call = .receiveWaiting
  · subst hr
    by_cases hu : s.isUp = true
    · exact (received_perform hu clock).queue.symm
    · simp [stage, Made.arrived, Made.exits, perform, receiveWaiting, hu]
  by_cases ht : call = .takeReceived
  · subst ht
    have hq := s.receiveQueue.dequeue_append clock.time
    have harrived : (stage clock .takeReceived s).made.arrived = [] := if_neg hr
    rw [harrived, exits_takeReceived, List.append_nil, ← hq]
    simp [perform, run_takeReceived, Function.comp_def]
  by_cases hd : call = .setUp false
  · subst hd
    simp [stage, Made.arrived, Made.exits, perform, setUp, Queue.drain, Event.releasedReceived,
      Function.comp_def]
  · have harrived : (stage clock call s).made.arrived = [] := if_neg hr
    have hexits : (stage clock call s).made.exits = [] := by
      simp only [Made.exits, call_stage]
    rw [receiveQueue_perform hd hr ht hi, harrived, hexits, List.append_nil, List.map_nil,
      List.nil_append]

theorem arrived_run (steps : List (Step τ)) (s : Interface τ) :
    ((run steps s).history.flatMap Made.arrived).map Datagram.content =
      ((happened (run steps s).history).filterMap Event.read?).filterMap brings? := by
  induction steps generalizing s with
  | nil => rfl
  | cons step steps ih =>
    cases step with
    | adapter change => exact ih _
    | call clock call =>
      have hcall := arrived_perform clock call s
      have hrest := ih ((perform clock call).run s).state
      simp only [stage] at hcall
      simp only [run, happened, List.flatMap_cons, List.filterMap_append, List.map_append]
        at hrest ⊢
      rw [hcall, hrest]

theorem exits_run {steps : List (Step τ)}
    (hi : ∀ clock frame, .call clock (.handleIp frame) ∉ steps) (s : Interface τ) :
    s.receiveQueue.toList ++ (run steps s).history.flatMap Made.arrived =
      ((run steps s).history.flatMap Made.exits).map (·.1) ++
        (run steps s).state.receiveQueue.toList := by
  induction steps generalizing s with
  | nil => exact List.append_nil _
  | cons step steps ih =>
    have hi' : ∀ clock frame, .call clock (.handleIp frame) ∉ steps := fun clock frame hm =>
      hi clock frame (List.mem_cons_of_mem _ hm)
    cases step with
    | adapter change => exact ih hi' { s with device.transport := change s.device.transport }
    | call clock call =>
      have hne : ∀ frame, call ≠ .handleIp frame := by
        rintro frame rfl
        exact hi clock frame List.mem_cons_self
      have hcall := exits_perform hne clock s
      have hrest := ih hi' ((perform clock call).run s).state
      simp only [stage] at hcall
      simp only [run, List.flatMap_cons, List.map_append] at hrest ⊢
      rw [← List.append_assoc, hcall, List.append_assoc, hrest, List.append_assoc]

/-- What the host gets are the exits that say so. -/
theorem returned_exits (clock : Clock) (call : Call) (s : Interface τ) :
    ((stage clock call s).made.exits.filter (·.2 = .returned)).map (·.1) =
      (stage clock call s).made.reply.returned?.toList := by
  cases call with
  | takeReceived =>
    rw [exits_takeReceived]
    simp [stage, perform, run_takeReceived, Reply.returned?, List.filter_map, Function.comp_def]
  | setUp up =>
    cases up with
    | true => rfl
    | false =>
      simp [stage, Made.exits, perform, Reply.returned?, List.filter_map, Function.comp_def]
  | _ => rfl

theorem returned_run (steps : List (Step τ)) (s : Interface τ) :
    (((run steps s).history.flatMap Made.exits).filter (·.2 = .returned)).map (·.1) =
      (run steps s).history.filterMap (·.reply.returned?) := by
  induction steps generalizing s with
  | nil => rfl
  | cons step steps ih =>
    cases step with
    | adapter change => exact ih _
    | call clock call =>
      have hcall := returned_exits clock call s
      have hrest := ih ((perform clock call).run s).state
      simp only [stage] at hcall
      simp only [run, List.flatMap_cons, List.filter_append, List.map_append, hcall, hrest,
        List.filterMap_cons]
      cases ((perform clock call).run s).value.returned? <;> rfl

/-- A datagram expires when it is too old, and is released when the interface goes down. -/
theorem meaning_of_exits {call : Call} {d : Datagram} :
    ((d, .expired) ∈ (stage clock call s).made.exits → d.isExpired clock.time = true) ∧
      ((d, .released) ∈ (stage clock call s).made.exits → call = .setUp false) := by
  cases call with
  | takeReceived =>
    rw [exits_takeReceived]
    simp only [List.mem_append, List.mem_map, Prod.mk.injEq, reduceCtorEq, and_false, and_true,
      exists_false, exists_eq_right, or_false, IsEmpty.forall_iff]
    exact Queue.isExpired_of_mem_expired
  | setUp up =>
    cases up with
    | true => simp [stage, Made.exits]
    | false => simp [stage, Made.exits]
  | _ => simp [stage, Made.exits]

/-- What is received is just what the frames that were read bring, in their order. Unless the host
hands in frames itself, each of these datagrams is still queued, was given to the host, expired or
was released, and they left the queue in the order in which they came. -/
theorem arrivals_exact {config : Config} {transport : τ}
    (hc : ((create config now).run transport).value = .ok s) (steps : List (Step τ)) :
    let left := run steps s
    let read := (happened left.history).filterMap Event.read?
    let arrived := left.history.flatMap Made.arrived
    let exits := left.history.flatMap Made.exits
    let returned := left.history.filterMap (·.reply.returned?)
    arrived.map Datagram.content = read.filterMap brings? ∧
      (∀ bytes d, brings? bytes = some d →
        (∃ padding, bytes.drop Ethernet.headerLength =
          d.header.toBytes ++ d.options ++ d.payload ++ padding) ∧
          d.header.totalLength.toNat = d.ipLength ∧ d.gateway = none ∧ d.expiry = none) ∧
      (∀ record : Transport.Record τ, (∀ change, .adapter change ∈ steps → record.Spared change) →
        ∃ gained, record.given left.state.device.transport =
            record.given s.device.transport ++ gained ∧
          gained.filter (· ≠ []) = read ∧ gained.filterMap brings? = read.filterMap brings?) ∧
      (∀ clock (u : Interface τ),
        ((perform clock .receiveWaiting).run u).state.receiveQueue.toList =
          u.receiveQueue.toList ++ (stage clock .receiveWaiting u).made.arrived) ∧
      ((∀ clock frame, .call clock (.handleIp frame) ∉ steps) →
        arrived = exits.map (·.1) ++ left.state.receiveQueue.toList ∧
          (exits.filter (·.2 = .returned)).map (·.1) = returned ∧ returned.Sublist arrived) ∧
      (∀ clock call (u : Interface τ) d,
        ((d, .expired) ∈ (stage clock call u).made.exits → d.isExpired clock.time = true) ∧
          ((d, .released) ∈ (stage clock call u).made.exits → call = .setUp false)) := by
  intro left read arrived exits returned
  have hempty : s.receiveQueue.toList = [] := by
    obtain ⟨_, _, rfl⟩ := eq_of_create hc
    rfl
  refine ⟨arrived_run steps s, fun bytes d => Ethernet.parts_of_brings?, ?_, ?_, ?_, ?_⟩
  · intro record hsteps
    obtain ⟨gained, hg, hf⟩ := (recordKept_run hsteps s).given
    refine ⟨gained, hg, hf, ?_⟩
    change _ = List.filterMap brings? (List.filterMap Event.read? (happened left.history))
    rw [← hf, List.filterMap_filter]
    refine congrArg (List.filterMap · gained) (funext fun bytes => ?_)
    cases bytes <;> rfl
  · intro clock u
    have hcall : ∀ frame, Call.receiveWaiting ≠ .handleIp frame := by simp
    exact (exits_perform hcall clock u).symm
  · intro hi
    have hall : s.receiveQueue.toList ++ arrived =
        exits.map (·.1) ++ left.state.receiveQueue.toList := exits_run hi s
    rw [hempty, List.nil_append] at hall
    have hreturned : (exits.filter (·.2 = .returned)).map (·.1) = returned := returned_run steps s
    refine ⟨hall, hreturned, ?_⟩
    have hsub : returned.Sublist (exits.map (·.1)) := by
      rw [← hreturned]
      exact List.filter_sublist.map _
    rw [hall]
    exact hsub.trans (List.sublist_append_left _ _)
  · intro clock call u d
    exact meaning_of_exits

/-- Three datagrams come in, the first one long before the others, and a broadcast between them. The
first one expires, the second one is given to the host and the third one is released. -/
theorem arrivals_exact_three :
    ∃ s : Interface Adapter,
      ((create { address := ⟨192, 168, 1, 1⟩, mask := ⟨255, 255, 255, 0⟩ } 0).run
        ({ address := {} } : Adapter)).value = .ok s ∧
      let frame (dest : MacAddress) (payload : Bytes) : Bytes :=
        ((Datagram.make { dest := ⟨192, 168, 1, 1⟩ } [] payload).toFrame dest
          ⟨2, 0, 0, 0, 0, 2⟩).bytes
      let steps : List (Step Adapter) := [.call 0 (.setUp true),
        .adapter (·.inject (frame {} [1])), .call 1 .receiveWaiting,
        .adapter (·.inject (frame {} [2])), .adapter (·.inject (frame .broadcast [9])),
        .adapter (·.inject (frame {} [3])), .call 20000 .receiveWaiting,
        .call 40000 .takeReceived, .call 40001 (.setUp false)]
      let left := run steps s
      let exits := left.history.flatMap Made.exits
      ((happened left.history).filterMap Event.read?).length = 4 ∧
        (left.history.flatMap Made.arrived).map Datagram.content =
          ((happened left.history).filterMap Event.read?).filterMap brings? ∧
        left.history.flatMap Made.arrived = exits.map (·.1) ∧
        exits.map (fun p => (p.1.payload, p.2)) =
          [([1], .expired), ([2], .returned), ([3], .released)] ∧
        (left.history.filterMap (·.reply.returned?)).Sublist
          (left.history.flatMap Made.arrived) := by
  obtain ⟨s, hc⟩ : ∃ s, ((create { address := ⟨192, 168, 1, 1⟩, mask := ⟨255, 255, 255, 0⟩ } 0).run
      ({ address := {} } : Adapter)).value = .ok s := ⟨_, rfl⟩
  refine ⟨s, hc, ?_⟩
  intro frame steps left exits
  obtain ⟨hbrought, -, -, -, hall, -⟩ := arrivals_exact hc steps
  have hi : ∀ clock frame, .call clock (.handleIp frame) ∉ steps := by simp [steps]
  obtain ⟨hexits, -, hreturned⟩ := hall hi
  have hempty : left.state.receiveQueue.toList = [] := by
    cases hc
    rfl
  refine ⟨?_, hbrought, ?_, ?_, hreturned⟩
  · cases hc
    decide +kernel
  · rw [hexits, hempty, List.append_nil]
  · cases hc
    decide +kernel

end Interface
end LinkLayer
