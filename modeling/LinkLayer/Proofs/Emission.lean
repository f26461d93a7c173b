import LinkLayer.Proofs.FailedWrites
import LinkLayer.Proofs.HopOrder
import LinkLayer.Proofs.Lifetimes

/-!
What an interface offers to its adapter. Main statement: every frame has the source address of that
moment, and it asks for a neighbour that is not bound, answers the request that is being handled, or
carries a datagram of the host to the neighbour that is bound then (`frames_meant`).
-/
namespace LinkLayer

theorem Arp.Message.source_toFrame (message : Message) :
    message.toFrame.source = .ok message.senderMac := rfl

theorem Arp.Message.dest_toFrame (message : Message) :
    message.toFrame.dest = .ok message.targetMac := rfl

namespace Config

variable {config : Config} {cache : Arp.Cache} {d : Datagram} {hop : Ipv4.Address} {route : Route}

theorem isLocal_of_nextHop (h : config.nextHop? d = some hop) : config.isLocal hop = true := by
  rw [nextHop?] at h
  split at h
  · cases h
    assumption
  · exact (Option.filter_eq_some_iff.mp h).2

theorem checked_of_route (h : config.route cache d = .ok route) :
    d.ipLength ≤ config.mtu.toNat ∧ d.destination.namesHost config.mask = true := by
  rw [Config.route] at h
  split at h
  · contradiction
  rename_i hl
  split at h
  · contradiction
  split at h
  · contradiction
  rename_i hh
  simp only [not_or, Nat.not_lt] at hl
  exact ⟨hl.2, by simpa using hh⟩

end Config

/-- What decides where frames go and what they say of their sender. -/
structure Bearings where
  config : Config
  mac : MacAddress
  cache : Arp.Cache
deriving DecidableEq, Repr

namespace Bearings

/-- The bearings after an event. -/
def follow (b : Bearings) : Event → Bearings
  | .addressSet ip => { b with config.address := ip }
  | .maskSet mask => { b with config.mask := mask }
  | .macSet mac => { b with mac }
  | .arpAccepted message => { b with cache := b.cache.learn message }
  | .cacheCleared => { b with cache := b.cache.reset }
  | _ => b

/-- An ARP request to everybody, for a neighbour that is not bound. -/
structure Asks (b : Bearings) (frame : Bytes) (hop : Ipv4.Address) : Prop where
  length : frame.length = 42
  source : (Ethernet.Frame.mk frame).source = .ok b.mac
  dest : (Ethernet.Frame.mk frame).dest = .ok .broadcast
  message : Arp.Message.ofFrame ⟨frame⟩ = .ok ⟨.request, b.mac, b.config.address, .broadcast, hop⟩
  isLocal : b.config.isLocal hop = true
  unbound : b.cache.lookup hop = none

/-- An ARP reply to the sender of a request for the address of the interface. -/
structure Answers (b : Bearings) (frame : Bytes) (request : Arp.Message) : Prop where
  length : frame.length = 42
  source : (Ethernet.Frame.mk frame).source = .ok b.mac
  dest : (Ethernet.Frame.mk frame).dest = .ok request.senderMac
  message : Arp.Message.ofFrame ⟨frame⟩ =
    .ok ⟨.reply, b.mac, b.config.address, request.senderMac, request.senderIp⟩
  asked : request.operation = .request
  ours : request.targetIp = b.config.address

/-- A frame with all of a datagram and nothing else, to the neighbour that is bound as its next
hop. -/
structure Carries (b : Bearings) (frame : Bytes) (d : Datagram) : Prop where
  length : frame.length = max Ethernet.minLength (Ethernet.headerLength + d.ipLength)
  source : (Ethernet.Frame.mk frame).source = .ok b.mac
  dest : ∃ hop mac, b.config.nextHop? d = some hop ∧ b.config.isLocal hop = true ∧
    b.cache.lookup hop = some mac ∧ (Ethernet.Frame.mk frame).dest = .ok mac
  etherType : (Ethernet.Frame.mk frame).etherType = .ok Ethernet.ipv4Type
  body : frame.drop Ethernet.headerLength = d.header.toBytes ++ d.options ++ d.payload ++
    List.replicate (Ethernet.minLength - d.frameLength) 0
  mtu : d.ipLength ≤ b.config.mtu.toNat
  fits : d.Fits
  host : d.destination.namesHost b.config.mask = true

variable {config : Config} {cache : Arp.Cache} {source mac : MacAddress} {d : Datagram}
  {hop : Ipv4.Address} {events : List Event} {b : Bearings}

theorem asks_of_route (h : config.route cache d = .ok (.unresolved hop)) :
    Asks ⟨config, source, cache⟩ (Arp.Message.whoHas source config.address hop).toFrame.bytes
      hop := by
  obtain ⟨hh, hl⟩ := Config.hop_of_unresolved h
  exact ⟨rfl, Arp.Message.source_toFrame _, Arp.Message.dest_toFrame _,
    Arp.Message.ofFrame_toFrame _, Config.isLocal_of_nextHop hh, hl⟩

theorem answers_of_request {request : Arp.Message} (ho : request.operation = .request)
    (h : request.targetIp = b.config.address) :
    b.Answers (Arp.Message.isAt b.mac b.config.address request.senderMac
      request.senderIp).toFrame.bytes request :=
  ⟨rfl, Arp.Message.source_toFrame _, Arp.Message.dest_toFrame _, Arp.Message.ofFrame_toFrame _,
    ho, h⟩

theorem carries_of_route (h : config.route cache d = .ok (.resolved hop mac)) :
    Carries ⟨config, source, cache⟩ (d.toFrame mac source).bytes d := by
  obtain ⟨hh, hl⟩ := Config.hop_of_resolved h
  obtain ⟨hmtu, hhost⟩ := Config.checked_of_route h
  exact ⟨d.length_toFrame mac source, d.source_toFrame mac source,
    ⟨hop, mac, hh, Config.isLocal_of_nextHop hh, hl, d.dest_toFrame mac source⟩,
    d.etherType_toFrame mac source, d.drop_toFrame mac source, hmtu, Config.fits_of_route h, hhost⟩

end Bearings

/-- Nothing that frames depend on changes. -/
def Event.IsSteady (event : Event) : Prop := ∀ b : Bearings, b.follow event = b

theorem Bearings.foldl_follow {events : List Event} (h : ∀ event ∈ events, event.IsSteady)
    (b : Bearings) : events.foldl follow b = b := by
  induction events with
  | nil => rfl
  | cons event events ih =>
    rw [List.forall_mem_cons] at h
    rw [List.foldl_cons, h.1 b, ih h.2]

namespace Interface

def bearings {τ : Type} (s : Interface τ) : Bearings := ⟨s.config, s.macAddress, s.cache⟩

/-- The datagram that the host sends past the queues. -/
def Call.output? : Call → Option Datagram
  | output d => some d
  | _ => none

/-- The message is in the frame that was read last, or in the one that the host handed in. -/
def Call.Hears (call : Call) (earlier : List Event) (message : Arp.Message) : Prop :=
  (∃ bytes, [.frameRead bytes] <:+ earlier ∧ Arp.Message.ofFrame ⟨bytes⟩ = .ok message) ∨
    ∃ frame, call = .handleArp frame ∧ Arp.Message.ofFrame frame = .ok message

/-- Why a frame is offered in a call, after these events and with these bearings. -/
inductive Meant (call : Call) (ds : List Datagram) (b : Bearings) (before : List Event)
    (frame : Bytes) : Prop
  | asks {hop : Ipv4.Address} (h : b.Asks frame hop)
  | answers {earlier : List Event} {message : Arp.Message}
      (hb : before = earlier ++
        [.arpAccepted message, .answering message.senderIp message.senderMac])
      (hm : call.Hears earlier message) (h : b.Answers frame message)
  | carries {d : Datagram} (hd : d ∈ ds) (h : b.Carries frame d)

/-- Each frame that is offered has the property, with the bearings of that moment and all that
happened before. -/
def OffersOnly (P : Bearings → List Event → Bytes → Prop) (b : Bearings)
    (events : List Event) : Prop :=
  ∀ before event after frame, events = before ++ event :: after → event.offered? = some frame →
    P (before.foldl Bearings.follow b) before frame

variable {τ : Type} [FiniteTransport τ] {now : Time} {clock : Clock} {s t u : Interface τ}
  {events more : List Event}
  {b : Bearings} {call : Call} {d : Datagram} {ds : List Datagram} {pass : Pass}
  {P : Bearings → List Event → Bytes → Prop}

theorem Meant.source {before : List Event} {frame : Bytes} (h : Meant call ds b before frame) :
    (Ethernet.Frame.mk frame).source = .ok b.mac := by
  cases h with
  | asks h => exact h.source
  | answers hb hm h => exact h.source
  | carries hd h => exact h.source

/-- What happened still earlier makes no difference. -/
theorem Meant.prepend {before : List Event} {frame : Bytes} (h : Meant call ds b before frame)
    (earlier : List Event) : Meant call ds b (earlier ++ before) frame := by
  cases h with
  | asks h => exact .asks h
  | carries hd h => exact .carries hd h
  | answers hb hm h =>
    refine .answers (by rw [hb, List.append_assoc]) ?_ h
    rcases hm with ⟨bytes, hs, hm⟩ | hm
    · exact .inl ⟨bytes, hs.trans (List.suffix_append _ _), hm⟩
    · exact .inr hm

theorem OffersOnly.append (h : OffersOnly P b events)
    (h' : OffersOnly (fun c before => P c (events ++ before)) (events.foldl Bearings.follow b)
      more) : OffersOnly P b (events ++ more) := by
  intro before event after frame he ho
  rcases List.append_eq_append_iff.mp he with ⟨rest, rfl, hm⟩ | ⟨rest, rfl, hm⟩
  · have hp := h' rest event after frame hm ho
    rwa [← List.foldl_append] at hp
  · cases rest with
    | nil =>
      have hp := h' [] event after frame hm.symm ho
      simpa using hp
    | cons first rest =>
      cases hm
      exact h before event rest frame rfl ho

theorem offersOnly_of_none (h : ∀ event ∈ events, event.offered? = none) :
    OffersOnly P b events := by
  rintro before event after frame rfl ho
  have hn := h event (by simp)
  rw [hn] at ho
  cases ho

/-- The first event offers nothing. -/
theorem OffersOnly.cons {event : Event} (ho : event.offered? = none)
    (h : OffersOnly (fun c before => P c (event :: before)) (b.follow event) events) :
    OffersOnly P b (event :: events) := by
  intro before other after frame he hf
  cases before with
  | nil =>
    cases he
    rw [ho] at hf
    cases hf
  | cons first before =>
    cases he
    exact h before other after frame rfl hf

/-- Only the first event offers a frame. -/
theorem offersOnly_cons {event : Event} (h : ∀ frame, event.offered? = some frame → P b [] frame)
    (hn : ∀ other ∈ events, other.offered? = none) : OffersOnly P b (event :: events) := by
  intro before other after frame he ho
  cases before with
  | nil =>
    cases he
    exact h frame ho
  | cons first before =>
    cases he
    have hnone := hn other (by simp)
    rw [hnone] at ho
    cases ho

/-- Frames that are offered while nothing changes. -/
theorem offersOnly_of_steady (hs : ∀ event ∈ events, event.IsSteady)
    (h : ∀ event ∈ events, ∀ frame, event.offered? = some frame → ∀ before, P b before frame) :
    OffersOnly P b events := by
  rintro before event after frame rfl ho
  rw [Bearings.foldl_follow fun other hm => hs other (List.mem_append_left _ hm)]
  exact h event (by simp) frame ho before

section WayOut

/-- Nothing changes while these datagrams are on their way out, and each frame carries one of them
or asks for its neighbour. -/
structure Outward (b : Bearings) (ds : List Datagram) (events : List Event) : Prop where
  steady : ∀ event ∈ events, event.IsSteady
  frames : ∀ event ∈ events, ∀ frame, event.offered? = some frame →
    (∃ hop, b.Asks frame hop) ∨ ∃ d ∈ ds, b.Carries frame d

theorem Outward.append (h : Outward b ds events) (h' : Outward b ds more) :
    Outward b ds (events ++ more) :=
  ⟨List.forall_mem_append.mpr ⟨h.steady, h'.steady⟩,
    List.forall_mem_append.mpr ⟨h.frames, h'.frames⟩⟩

theorem Outward.mono {ds' : List Datagram} (h : Outward b ds events) (hd : ds ⊆ ds') :
    Outward b ds' events := by
  refine ⟨h.steady, ?_⟩
  intro event hm frame ho
  rcases h.frames event hm frame ho with ha | ⟨d, hm, hc⟩
  · exact .inl ha
  · exact .inr ⟨d, hd hm, hc⟩

theorem outward_of_none {event : Event} (hs : event.IsSteady) (ho : event.offered? = none) :
    Outward b ds [event] := by
  refine ⟨List.forall_mem_singleton.mpr hs, ?_⟩
  simp [ho]

theorem Outward.offersOnly (h : Outward b ds events) (call : Call) (earlier : List Event) :
    OffersOnly (fun b before => Meant call ds b (earlier ++ before)) b events := by
  refine offersOnly_of_steady h.steady ?_
  intro event hm frame ho before
  rcases h.frames event hm frame ho with ⟨hop, ha⟩ | ⟨d, hm, hc⟩
  · exact .asks ha
  · exact .carries hm hc

theorem offers_offered {frame : Bytes} {value : Except TransportError Unit}
    (h : Offered now frame s { value, state := t, events }) :
    ∃ event, events = [event] ∧ event.IsSteady ∧ event.offered? = some frame := by
  cases h with
  | taken h => exact ⟨_, rfl, fun _ => rfl, rfl⟩
  | failed h => exact ⟨_, rfl, fun _ => rfl, rfl⟩

theorem offers_arpSent {message : Arp.Message}
    (h : ArpSent now message s { value := (), state := t, events }) :
    ∃ event rest, events = event :: rest ∧ event.offered? = some message.toFrame.bytes ∧
      (∀ other ∈ rest, other.offered? = none) ∧ ∀ other ∈ event :: rest, other.IsSteady := by
  cases h with
  | taken ho =>
    obtain ⟨event, rfl, hs, ho⟩ := offers_offered ho
    exact ⟨event, [], rfl, ho, by simp, by simpa using hs⟩
  | failed ho =>
    obtain ⟨event, rfl, hs, ho⟩ := offers_offered ho
    refine ⟨event, [.arpNotSent], rfl, ho, by simp [Event.offered?], ?_⟩
    rw [List.forall_mem_cons, List.forall_mem_singleton]
    exact ⟨hs, fun _ => rfl⟩

theorem outward_delivered {value : Except DropReason Delivery}
    (h : Delivered now d s { value, state := t, events }) : Outward s.bearings [d] events := by
  cases h with
  | refused hr => exact ⟨by simp, by simp⟩
  | @deferred hop t events hr ha =>
    obtain ⟨event, rest, rfl, ho, hn, hs⟩ := offers_arpSent ha
    refine ⟨List.forall_mem_cons.mpr ⟨fun _ => rfl, hs⟩, ?_⟩
    intro other hm frame hf
    rcases List.mem_cons.mp hm with rfl | hm
    · cases hf
    · rcases List.mem_cons.mp hm with rfl | hm
      · rw [ho] at hf
        cases hf
        exact .inl ⟨hop, Bearings.asks_of_route hr⟩
      · simp [hn other hm] at hf
  | sent hr ho | failed hr ho =>
    obtain ⟨event, rfl, hs, ho⟩ := offers_offered ho
    refine ⟨List.forall_mem_singleton.mpr hs, ?_⟩
    intro other hm frame hf
    obtain rfl := List.mem_singleton.mp hm
    rw [ho] at hf
    cases hf
    exact .inr ⟨d, List.mem_singleton_self _, Bearings.carries_of_route hr⟩

theorem outward_settled {value : Option Datagram}
    (h : Settled pass clock d s { value, state := t, events }) :
    Outward s.bearings [d] events := by
  cases h with
  | expired he => exact outward_of_none (fun _ => rfl) rfl
  | sent he hd =>
    have ho := outward_delivered hd
    exact Outward.append ho (outward_of_none (fun _ => rfl) rfl)
  | waits he hd =>
    have ho := outward_delivered hd
    exact ho
  | dropped he hd =>
    have ho := outward_delivered hd
    refine Outward.append ho ?_
    cases pass <;> exact outward_of_none (fun _ => rfl) rfl

omit [FiniteTransport τ] in
theorem bearings_of_sends (h : s.Sends t) : t.bearings = s.bearings := by
  obtain ⟨_, _, _, rfl⟩ := h
  rfl

theorem outward_passed {o : Outcome (Interface τ) (List Datagram)} (h : Passed pass clock ds s o) :
    Outward s.bearings ds o.events := by
  induction h with
  | nil => exact ⟨by simp, by simp⟩
  | gone h hp ih | waits h hp ih =>
    rw [bearings_of_sends (sends_of_settled h)] at ih
    have hd := outward_settled h
    exact (hd.mono (by simp)).append (ih.mono (List.subset_cons_self _ _))

end WayOut

section WayIn

/-- From the first state to the second the events tell how the bearings changed, and each frame that
was offered was meant. -/
structure Grounded (call : Call) (ds : List Datagram) (s t : Interface τ)
    (events : List Event) : Prop where
  bearings : t.bearings = events.foldl Bearings.follow s.bearings
  frames : OffersOnly (Meant call ds) s.bearings events

omit [FiniteTransport τ] in
theorem Grounded.append (h : Grounded call ds s t events) (h' : Grounded call ds t u more) :
    Grounded call ds s u (events ++ more) := by
  refine ⟨?_, ?_⟩
  · rw [h'.bearings, h.bearings, List.foldl_append]
  · apply h.frames.append
    rw [← h.bearings]
    intro before event after frame he ho
    exact (h'.frames before event after frame he ho).prepend events

omit [FiniteTransport τ] in
theorem grounded_of_none (hb : t.bearings = events.foldl Bearings.follow s.bearings)
    (h : ∀ event ∈ events, event.offered? = none) : Grounded call ds s t events :=
  ⟨hb, offersOnly_of_none h⟩

theorem offers_answered {message : Arp.Message} {earlier : List Event}
    (h : Answered now message s { value := (), state := t, events })
    (hm : call.Hears earlier message) (ds : List Datagram) :
    (∀ event ∈ events, event.IsSteady) ∧
      OffersOnly (fun b before => Meant call ds b (earlier ++ (.arpAccepted message :: before)))
        s.bearings events := by
  cases h with
  | notOurs ht => exact ⟨by simp, offersOnly_of_none (by simp)⟩
  | told ht ho =>
    refine ⟨List.forall_mem_singleton.mpr fun _ => rfl, ?_⟩
    exact offersOnly_of_none (by simp [Event.offered?])
  | asked ht ho ha =>
    obtain ⟨event, rest, rfl, hf, hn, hs⟩ := offers_arpSent ha
    refine ⟨List.forall_mem_cons.mpr ⟨fun _ => rfl, hs⟩, ?_⟩
    refine OffersOnly.cons rfl (offersOnly_cons ?_ hn)
    intro frame hframe
    rw [hf] at hframe
    cases hframe
    exact .answers rfl hm (Bearings.answers_of_request ho ht)

/-- A message is learned, then its sender is answered, then what is deferred is tried again. -/
theorem grounded_heard {message : Arp.Message} {earlier : List Event}
    (h : Heard clock message s { value := (), state := t, events })
    (hm : call.Hears earlier message) (hd : s.deferred.toList ⊆ ds) :
    t.bearings = events.foldl Bearings.follow s.bearings ∧
      OffersOnly (fun b before => Meant call ds b (earlier ++ before)) s.bearings events := by
  cases h with
  | @intro t u waiting events more ha hp =>
    obtain ⟨hs, ho⟩ := offers_answered ha hm ds
    have hout := outward_passed hp
    have hbt := bearings_of_sends (sends_of_answered ha)
    have hbu := bearings_of_sends (sends_of_passed hp)
    have hdeferred : t.deferred.toList ⊆ ds := by
      obtain ⟨_, _, _, rfl⟩ := sends_of_answered ha
      exact hd
    rw [hbt] at hout
    refine ⟨?_, ?_⟩
    · rw [List.cons_append, List.foldl_cons, List.foldl_append, Bearings.foldl_follow hs,
        Bearings.foldl_follow hout.steady]
      exact hbu.trans hbt
    · refine OffersOnly.cons rfl ?_
      apply ho.append
      rw [Bearings.foldl_follow hs]
      have hlast := (hout.mono hdeferred).offersOnly call
        (earlier ++ [.arpAccepted message] ++ events)
      simpa using hlast

/-- A frame is read and handled. -/
theorem grounded_takenIn {bytes : Bytes}
    (h : TakenIn clock bytes s { value := (), state := t, events }) (hd : s.line ⊆ ds) :
    Grounded call ds s t (.frameRead bytes :: events) := by
  cases h with
  | heard hk hm ha =>
    have hears : call.Hears [.frameRead bytes] _ := .inl ⟨bytes, List.suffix_rfl, hm⟩
    obtain ⟨hb, ho⟩ := grounded_heard ha hears (List.Subset.trans (List.subset_append_left _ _) hd)
    refine ⟨hb, ?_⟩
    exact OffersOnly.cons rfl ho
  | unknown | broadcast | queued | badIp | badArp =>
    exact grounded_of_none rfl (by simp [Event.offered?])

theorem grounded_drained (h : Drained clock s events t) (hd : s.line ⊆ ds) :
    Grounded call ds s t events := by
  induction h with
  | ended h hn =>
    cases h with
    | frame hr => exact absurd rfl (hn _)
    | nothing | failed => exact grounded_of_none rfl (by simp [Event.offered?])
  | frame hr ht hdrained ih =>
    cases hr with
    | frame hr =>
      have hline := (line_takenIn ht).subset
      have hg : Grounded call ds _ _ _ := grounded_takenIn ht hd
      exact Grounded.append ⟨hg.bearings, hg.frames⟩ (ih (List.Subset.trans hline hd))

end WayIn

section Calls

variable {pass? : Option Pass}

theorem grounded_move (hp : pass? ≠ some .later) (h : Move clock pass? s events t)
    (hd : s.line ⊆ ds) : Grounded call ds s t events := by
  cases h with
  | passed hu hp =>
    have ho := outward_passed hp
    have hs := bearings_of_sends (sends_of_passed hp)
    refine ⟨?_, ?_⟩
    · rw [Bearings.foldl_follow ho.steady]
      exact hs
    · have hout := ho.mono (List.Subset.trans (List.subset_append_right _ _) hd)
      exact hout.offersOnly _ []
  | heard | unheard | received | ended => exact absurd rfl hp
  | taken =>
    refine grounded_of_none ?_ ?_
    · rw [Bearings.foldl_follow]
      · rfl
      · intro event hm
        obtain ⟨d, -, rfl⟩ := List.mem_map.mp hm
        exact fun _ => rfl
    · intro event hm
      obtain ⟨d, -, rfl⟩ := List.mem_map.mp hm
      rfl
  | wentUp | wentDown | addressRead | addressKept | macSet | typeSelected | bindingsCleared
  | traceCleared => exact grounded_of_none rfl (by simp [Event.offered?])

theorem grounded_chain (hp : pass? ≠ some .later) (h : Chain pass? clock s events t)
    (hd : s.line ⊆ ds) : Grounded call ds s t events := by
  induction h with
  | nil => exact grounded_of_none rfl (by simp)
  | cons h hc ih =>
    have hline := (line_move h).subset
    exact (grounded_move hp h hd).append (ih (List.Subset.trans hline hd))

theorem grounded_perform (clock : Clock) (call : Call) (s : Interface τ) :
    Grounded call (s.line ++ call.output?.toList) s ((perform clock call).run s).state
      ((perform clock call).run s).events := by
  have hline : s.line ⊆ s.line ++ call.output?.toList := List.subset_append_left _ _
  by_cases hp : call.pass? = some .later
  · cases call with
    | receiveWaiting =>
      by_cases hu : s.isUp = true
      · exact grounded_drained (drained_perform hu clock) hline
      · simp only [perform, receiveWaiting, Action.run_bind, Action.run_get, hu, Action.run_pure]
        exact grounded_of_none rfl (by simp)
    | handleArp frame =>
      simp only [perform, Action.run_bind, Action.run_pure, List.append_nil]
      cases hm : Arp.Message.ofFrame frame with
      | error reason =>
        rw [run_handleArp_of_error hm]
        exact grounded_of_none rfl (by simp)
      | ok message =>
        have hears : (Call.handleArp frame).Hears [] message := .inr ⟨frame, rfl, hm⟩
        obtain ⟨hb, ho⟩ := grounded_heard (heard_handleArp hm clock s).2 hears
          (List.Subset.trans (List.subset_append_left _ _) hline)
        exact ⟨hb, ho⟩
    | _ => cases hp
  · have h := performed_perform clock call s
    generalize (perform clock call).run s = o at h ⊢
    obtain ⟨reply, t, events⟩ := o
    cases h with
    | delivered h =>
      have ho := outward_delivered h
      refine ⟨?_, ?_⟩
      · rw [Bearings.foldl_follow ho.steady]
        exact bearings_of_sends (sends_of_delivered h)
      · have hout := ho.mono (List.subset_append_right s.line _)
        exact hout.offersOnly _ []
    | moved hs h => exact grounded_chain hp h hline
    | submitted | addressSet | maskSet | queued | countersCleared =>
      exact grounded_of_none rfl (by simp [Event.offered?])

end Calls

/-- Any call after any run, whatever was set and bound in between: each frame that is offered has
the source address of that moment. It is a request for a neighbour on the network that is not bound,
or the answer to a request that was just accepted, or it carries a datagram, one that the host
handed in or sends now, to the neighbour that is bound as its next hop. -/
theorem frames_meant {config : Config} {time : Time} {transport : τ}
    (hc : ((create config time).run transport).value = .ok s) (steps : List (Step τ))
    (clock : Clock) (call : Call) :
    let u := (run steps s).state
    let o := (perform clock call).run u
    (∀ d ∈ u.line, ∃ p ∈ submissions (timeline steps s), d = stamped config.lifetime p) ∧
      o.state.bearings = o.events.foldl Bearings.follow u.bearings ∧
      ∀ before event after frame, o.events = before ++ event :: after →
        event.offered? = some frame →
        let b := before.foldl Bearings.follow u.bearings
        (Ethernet.Frame.mk frame).source = .ok b.mac ∧
          Meant call (u.line ++ call.output?.toList) b before frame := by
  intro u o
  obtain ⟨hconfig, hempty⟩ : s.config = config ∧ s.line = [] := by
    obtain ⟨_, _, rfl⟩ := eq_of_create hc
    exact ⟨rfl, rfl⟩
  obtain ⟨hline, -⟩ := line_run steps s
  rw [hempty, List.nil_append, hconfig] at hline
  have hg := grounded_perform clock call u
  refine ⟨?_, hg.bearings, ?_⟩
  · intro d hd
    obtain ⟨p, hp, rfl⟩ := List.mem_map.mp (hline.subset hd)
    exact ⟨p, hp, rfl⟩
  · intro before event after frame he ho
    have hm := hg.frames before event after frame he ho
    exact ⟨hm.source, hm⟩

/-- A neighbour asks, is answered, and is sent what waited for it. -/
theorem frames_meant_both :
    ∃ s : Interface Adapter,
      ((create { address := ⟨192, 168, 1, 1⟩, mask := ⟨255, 255, 255, 0⟩ } 0).run
        ({ address := ⟨2, 0, 0, 0, 0, 1⟩ } : Adapter)).value = .ok s ∧
      let d := Datagram.make { dest := ⟨192, 168, 1, 2⟩ } [] [7]
      let steps : List (Step Adapter) :=
        [.call 0 (.setUp true), .call 0 (.submit d), .call 0 .sendQueued]
      let u := (run steps s).state
      let request := Arp.Message.whoHas ⟨2, 0, 0, 0, 0, 2⟩ ⟨192, 168, 1, 2⟩ ⟨192, 168, 1, 1⟩
      let heard := [.arpAccepted request, .answering request.senderIp request.senderMac]
      let reply := (Arp.Message.isAt ⟨2, 0, 0, 0, 0, 1⟩ ⟨192, 168, 1, 1⟩ request.senderMac
        request.senderIp).toFrame.bytes
      let frame := (d.toFrame request.senderMac ⟨2, 0, 0, 0, 0, 1⟩).bytes
      let call := Call.handleArp request.toFrame
      let b := heard.foldl Bearings.follow u.bearings
      u.line = [d.stamp 30000] ∧
        ((perform 1 call).run u).events =
          heard ++ [.frameWritten reply, .frameWritten frame, .sent 1 1 (d.stamp 30000)] ∧
        Meant call u.line b heard reply ∧
        Meant call u.line b (heard ++ [.frameWritten reply]) frame := by
  obtain ⟨s, hc⟩ : ∃ s, ((create { address := ⟨192, 168, 1, 1⟩, mask := ⟨255, 255, 255, 0⟩ } 0).run
      ({ address := ⟨2, 0, 0, 0, 0, 1⟩ } : Adapter)).value = .ok s := ⟨_, rfl⟩
  refine ⟨s, hc, ?_⟩
  intro d steps u request heard reply frame call b
  obtain ⟨-, -, hmeant⟩ := frames_meant hc steps 1 call
  have hd : u.line ++ call.output?.toList = u.line := List.append_nil _
  have he : ((perform 1 call).run u).events =
      heard ++ [.frameWritten reply, .frameWritten frame, .sent 1 1 (d.stamp 30000)] := by
    cases hc
    decide +kernel
  rw [hd, he] at hmeant
  refine ⟨?_, he, ?_, ?_⟩
  · cases hc
    decide +kernel
  · exact (hmeant heard (.frameWritten reply) _ reply rfl rfl).2
  · exact (hmeant (heard ++ [.frameWritten reply]) (.frameWritten frame) _ frame rfl rfl).2

end Interface
end LinkLayer
