import LinkLayer.Adapter
import LinkLayer.Proofs.Accounts
import LinkLayer.Proofs.Plans

/-!
What becomes of the datagrams of a pass, one by one, whatever the adapter does with their frames.
Main statement: each of them fares as it would alone in the state in which the pass began, and those
in front of it change nothing for it but what they did to the adapter (`sendQueued_settles`).
-/
namespace LinkLayer

/-- The adapter once these frames were offered to it. -/
def Transport.after {τ : Type} [FiniteTransport τ] (t : τ) (frames : List Bytes) : τ :=
  frames.foldl (fun t frame => (transmit t frame).2) t

/-- What becomes of a datagram in a pass. -/
inductive Datagram.Fate where
  | expired
  | sent
  | waits
  | dropped (reason : DropReason)
deriving DecidableEq, Repr

namespace Datagram.Fate

/-- The fate of a datagram by what the way out gave for it. -/
def of : Except DropReason Delivery → Fate
  | .ok (.sent _) => sent
  | .ok .deferred => waits
  | .error reason => dropped reason

def isDropped : Fate → Bool
  | dropped _ => true
  | _ => false

end Datagram.Fate

/-- A datagram is refused for one of four reasons. -/
theorem Config.refusal_of_route {config : Config} {cache : Arp.Cache} {d : Datagram}
    {reason : DropReason} (h : config.route cache d = .error reason) :
    reason ∈ [.badLength d.frameLength, .badOptions d.options.length, .badHost, .badNetwork] := by
  rw [route] at h
  repeat' split at h
  all_goals cases h
  all_goals simp

namespace Interface

/-- How many datagrams were tried in such passes, as far as the counters tell. -/
def Pass.tried (c : Counters) : Pass → Nat
  | first => c.send.dequeued
  | later => c.arp.dequeued

/-- What a pass says of a datagram in the end. -/
def Pass.closing (pass : Pass) (now : Time) (d : Datagram) : Datagram.Fate → List Event
  | .expired => [.expired now pass.place d]
  | .sent => [.sent now now d]
  | .waits => []
  | .dropped reason => [pass.dropped d reason]

/-- A datagram of a pass, with what became of it and all that happened meanwhile. -/
structure Lot where
  datagram : Datagram
  fate : Datagram.Fate
  events : List Event

/-- The datagrams that met a fate, in order. -/
def having (fate : Datagram.Fate) (lots : List Lot) : List Datagram :=
  (lots.filter (·.fate = fate)).map (·.datagram)

variable {τ : Type} [FiniteTransport τ] {now : Time} {s t u v : Interface τ}
  {events more : List Event} {d : Datagram} {ds : List Datagram} {pass : Pass}

/-- The same interface on another adapter. -/
def facing (s : Interface τ) (transport : τ) : Interface τ :=
  { s with device.transport := transport }

/-- The same interface once the frames for some datagrams were offered to its adapter. -/
def after (s : Interface τ) (now : Time) (ds : List Datagram) : Interface τ :=
  s.facing (Transport.after s.device.transport (s.bearings.frames now ds))

/-- What becomes of a datagram that is alone. -/
def lot (pass : Pass) (now : Time) (d : Datagram) (s : Interface τ) : Lot :=
  if d.isExpired now then ⟨d, .expired, pass.closing now d .expired⟩
  else
    let alone := (output now d).run s
    ⟨d, .of alone.value, alone.events ++ pass.closing now d (.of alone.value)⟩

/-- What becomes of the datagrams of a list if each is alone in this state, on an adapter that was
offered the frames for those in front of it. -/
def lots (pass : Pass) (now : Time) : List Datagram → Interface τ → List Lot
  | [], _ => []
  | d :: ds, s => lot pass now d s :: lots pass now ds (s.after now [d])

/-- How a datagram fares with these bearings on this adapter, and which frames are offered for
it. -/
inductive Fares (now : Time) (b : Bearings) (t : τ) (d : Datagram) :
    Datagram.Fate → List Bytes → Prop
  | expired (h : d.isExpired now = true) : Fares now b t d .expired []
  | refused {reason : DropReason} (h : d.isExpired now = false)
      (hr : b.config.route b.cache d = .error reason)
      (hn : reason ∈ [.badLength d.frameLength, .badOptions d.options.length, .badHost,
        .badNetwork]) : Fares now b t d (.dropped reason) []
  | waits {hop : Ipv4.Address} (h : d.isExpired now = false)
      (hr : b.config.route b.cache d = .ok (.unresolved hop)) :
      Fares now b t d .waits [(Arp.Message.whoHas b.mac b.config.address hop).toFrame.bytes]
  | sent {hop : Ipv4.Address} {mac : MacAddress} (h : d.isExpired now = false)
      (hr : b.config.route b.cache d = .ok (.resolved hop mac))
      (ht : (Transport.transmit t (d.toFrame mac b.mac).bytes).1 = .ok ()) :
      Fares now b t d .sent [(d.toFrame mac b.mac).bytes]
  | failed {hop : Ipv4.Address} {mac : MacAddress} {error : TransportError}
      (h : d.isExpired now = false) (hr : b.config.route b.cache d = .ok (.resolved hop mac))
      (ht : (Transport.transmit t (d.toFrame mac b.mac).bytes).1 = .error error) :
      Fares now b t d (.dropped (.transport error)) [(d.toFrame mac b.mac).bytes]

section Alone

theorem frames_append (b : Bearings) (now : Time) (ds es : List Datagram) :
    b.frames now (ds ++ es) = b.frames now ds ++ b.frames now es := List.filterMap_append

theorem frames_singleton (b : Bearings) (now : Time) (d : Datagram) :
    b.frames now [d] = ((b.plan now d).frame? b d).toList := by
  rw [Bearings.frames_cons]
  exact List.append_nil _

omit [FiniteTransport τ] in
theorem mem_frames_of_unresolved {hop : Ipv4.Address} (he : d.isExpired now = false)
    (hr : s.config.route s.cache d = .ok (.unresolved hop)) :
    (Arp.Message.whoHas s.macAddress s.config.address hop).toFrame.bytes ∈
      s.bearings.frames now [d] := by
  have hp : s.bearings.plan now d = .ask hop := Bearings.plan_of_unresolved he hr
  rw [frames_singleton, hp]
  exact List.mem_singleton_self _

omit [FiniteTransport τ] in
theorem mem_frames_of_resolved {hop : Ipv4.Address} {mac : MacAddress}
    (he : d.isExpired now = false) (hr : s.config.route s.cache d = .ok (.resolved hop mac)) :
    (d.toFrame mac s.macAddress).bytes ∈ s.bearings.frames now [d] := by
  have hp : s.bearings.plan now d = .send hop mac := Bearings.plan_of_resolved he hr
  rw [frames_singleton, hp]
  exact List.mem_singleton_self _

theorem offered_congr {frame : Bytes} {o o' : Outcome (Interface τ) (Except TransportError Unit)}
    (h : Offered now frame u o) (h' : Offered now frame v o')
    (ha : (Transport.transmit u.device.transport frame).1 =
      (Transport.transmit v.device.transport frame).1) :
    o.value = o'.value ∧ o.events = o'.events := by
  cases h with
  | taken h =>
    cases h' with
    | taken h' => exact ⟨rfl, rfl⟩
    | failed h' => simp [h, h'] at ha
  | failed h =>
    cases h' with
    | taken h' => simp [h, h'] at ha
    | failed h' =>
      obtain rfl := by simpa [h, h'] using ha
      exact ⟨rfl, rfl⟩

theorem arpSent_congr {message : Arp.Message} {o o' : Outcome (Interface τ) Unit}
    (h : ArpSent now message u o) (h' : ArpSent now message v o')
    (ha : (Transport.transmit u.device.transport message.toFrame.bytes).1 =
      (Transport.transmit v.device.transport message.toFrame.bytes).1) : o.events = o'.events := by
  cases h with
  | taken h =>
    cases h' with
    | taken h' => exact (offered_congr h h' ha).2
    | failed h' => cases (offered_congr h h' ha).1
  | failed h =>
    cases h' with
    | taken h' => cases (offered_congr h h' ha).1
    | failed h' => exact congrArg (· ++ [.arpNotSent]) (offered_congr h h' ha).2

/-- What becomes of a datagram is a matter of the bearings and of what the adapter says to its
frame. -/
theorem delivered_congr {o o' : Outcome (Interface τ) (Except DropReason Delivery)}
    (hs : u.Sends v) (h : Delivered now d u o) (h' : Delivered now d v o')
    (he : d.isExpired now = false)
    (ha : ∀ frame ∈ u.bearings.frames now [d],
      (Transport.transmit u.device.transport frame).1 =
        (Transport.transmit v.device.transport frame).1) :
    o.value = o'.value ∧ o.events = o'.events := by
  obtain ⟨device, framer, counters, rfl⟩ := hs
  cases h with
  | refused hr =>
    cases h' with
    | refused hr' =>
      cases hr.symm.trans hr'
      exact ⟨rfl, rfl⟩
    | deferred hr' | sent hr' | failed hr' => cases hr.symm.trans hr'
  | deferred hr hm =>
    have hframe := ha _ (mem_frames_of_unresolved he hr)
    cases h' with
    | deferred hr' hm' =>
      cases hr.symm.trans hr'
      exact ⟨rfl, congrArg (Event.deferring _ :: ·) (arpSent_congr hm hm' hframe)⟩
    | refused hr' | sent hr' | failed hr' => cases hr.symm.trans hr'
  | sent hr ho =>
    have hframe := ha _ (mem_frames_of_resolved he hr)
    cases h' with
    | sent hr' ho' =>
      cases hr.symm.trans hr'
      exact ⟨rfl, (offered_congr ho ho' hframe).2⟩
    | failed hr' ho' =>
      cases hr.symm.trans hr'
      cases (offered_congr ho ho' hframe).1
    | refused hr' | deferred hr' => cases hr.symm.trans hr'
  | failed hr ho =>
    have hframe := ha _ (mem_frames_of_resolved he hr)
    cases h' with
    | failed hr' ho' =>
      cases hr.symm.trans hr'
      obtain ⟨hv, hevents⟩ := offered_congr ho ho' hframe
      cases hv
      exact ⟨rfl, hevents⟩
    | sent hr' ho' =>
      cases hr.symm.trans hr'
      cases (offered_congr ho ho' hframe).1
    | refused hr' | deferred hr' => cases hr.symm.trans hr'

theorem lot_congr (pass : Pass) (hs : u.Sends v)
    (ha : ∀ frame ∈ u.bearings.frames now [d],
      (Transport.transmit u.device.transport frame).1 =
        (Transport.transmit v.device.transport frame).1) :
    lot pass now d u = lot pass now d v := by
  cases he : d.isExpired now with
  | true => simp only [lot, he, if_true]
  | false =>
    obtain ⟨hv, hevents⟩ :=
      delivered_congr hs (delivered_output now d u) (delivered_output now d v) he ha
    simp only [lot, he, hv, hevents]

/-- The frames that are offered for a datagram do not depend on what the adapter says. -/
theorem offered_delivered {o : Outcome (Interface τ) (Except DropReason Delivery)}
    (h : Delivered now d s o) (he : d.isExpired now = false) :
    o.events.filterMap Event.offered? = s.bearings.frames now [d] := by
  rw [frames_singleton]
  cases h with
  | refused hr =>
    have hp : s.bearings.plan now d = .refuse _ := Bearings.plan_of_refused he hr
    rw [hp]
    rfl
  | deferred hr hm =>
    have hp : s.bearings.plan now d = .ask _ := Bearings.plan_of_unresolved he hr
    rw [hp]
    cases hm with
    | taken ho | failed ho =>
      cases ho
      rfl
  | sent hr ho | failed hr ho =>
    have hp : s.bearings.plan now d = .send _ _ := Bearings.plan_of_resolved he hr
    rw [hp]
    cases ho
    rfl

theorem offered_lot (pass : Pass) (now : Time) (d : Datagram) (s : Interface τ) :
    (lot pass now d s).events.filterMap Event.offered? = s.bearings.frames now [d] := by
  cases he : d.isExpired now with
  | true =>
    have hp : s.bearings.plan now d = .expire := Bearings.plan_of_expired _ he
    rw [frames_singleton, hp]
    simp only [lot, he, if_true]
    rfl
  | false =>
    have ho := offered_delivered (delivered_output now d s) he
    have hclosing : ∀ fate, (pass.closing now d fate).filterMap Event.offered? = [] := by
      intro fate
      cases fate <;> cases pass <;> rfl
    simp only [lot, he, Bool.false_eq_true, if_false, List.filterMap_append, ho, hclosing,
      List.append_nil]

theorem fares_lot (pass : Pass) (now : Time) (d : Datagram) (s : Interface τ) :
    Fares now s.bearings s.device.transport d (lot pass now d s).fate
      (s.bearings.frames now [d]) := by
  cases he : d.isExpired now with
  | true =>
    have hp : s.bearings.plan now d = .expire := Bearings.plan_of_expired _ he
    rw [frames_singleton, hp]
    simp only [lot, he, if_true]
    exact .expired he
  | false =>
    have hd := delivered_output now d s
    simp only [lot, he, Bool.false_eq_true, if_false]
    generalize (output now d).run s = o at hd ⊢
    rw [← offered_delivered hd he]
    cases hd with
    | refused hr => exact .refused he hr (Config.refusal_of_route hr)
    | deferred hr hm =>
      cases hm with
      | taken ho | failed ho =>
        cases ho
        exact .waits he hr
    | sent hr ho =>
      cases ho with
      | taken ht => exact .sent he hr (congrArg Prod.fst ht)
    | failed hr ho =>
      cases ho with
      | failed ht => exact .failed he hr (congrArg Prod.fst ht)

end Alone

section Lots

@[simp] theorem bearings_after (s : Interface τ) (now : Time) (ds : List Datagram) :
    (s.after now ds).bearings = s.bearings := rfl

theorem after_append (s : Interface τ) (now : Time) (ds es : List Datagram) :
    s.after now (ds ++ es) = (s.after now ds).after now es := by
  rw [after, frames_append, Transport.after, List.foldl_append]
  rfl

theorem after_of_frames (h : s.bearings.frames now ds = []) : s.after now ds = s := by
  rw [after, h]
  rfl

theorem lots_append (pass : Pass) (now : Time) (ds es : List Datagram) (s : Interface τ) :
    lots pass now (ds ++ es) s = lots pass now ds s ++ lots pass now es (s.after now ds) := by
  induction ds generalizing s with
  | nil => rfl
  | cons d ds ih =>
    have hafter := after_append s now [d] ds
    rw [List.cons_append, lots, lots, ih, ← hafter]
    rfl

/-- Nothing else of an interface decides what becomes of its datagrams. -/
theorem lots_congr (pass : Pass) (hs : u.Sends v) (ht : u.device.transport = v.device.transport) :
    lots pass now ds u = lots pass now ds v := by
  induction ds generalizing u v with
  | nil => rfl
  | cons d ds ih =>
    have hfirst : lot pass now d u = lot pass now d v := lot_congr pass hs fun _ _ => by rw [ht]
    have hnext : (u.after now [d]).device.transport = (v.after now [d]).device.transport := by
      obtain ⟨_, _, _, rfl⟩ := hs
      exact congrArg (Transport.after · _) ht
    rw [lots, lots, hfirst, ih ?_ hnext]
    obtain ⟨device, framer, counters, rfl⟩ := hs
    exact ⟨_, _, _, rfl⟩

theorem offered_lots (pass : Pass) (now : Time) (ds : List Datagram) (s : Interface τ) :
    ((lots pass now ds s).flatMap Lot.events).filterMap Event.offered? =
      s.bearings.frames now ds := by
  induction ds generalizing s with
  | nil => rfl
  | cons d ds ih =>
    rw [lots, List.flatMap_cons, List.filterMap_append, offered_lot, ih, bearings_after,
      ← frames_append]
    rfl

/-- What holds of a datagram of a list, whatever stands in front of it and behind it. -/
structure Apart (pass : Pass) (now : Time) (s : Interface τ) (before : List Datagram)
    (d : Datagram) (rest : List Datagram) : Prop where
  /-- It meets one lot, in its turn. -/
  split : lots pass now (before ++ d :: rest) s =
    lots pass now before s ++ lot pass now d (s.after now before) ::
      lots pass now rest (s.after now (before ++ [d]))
  fares : Fares now s.bearings (s.after now before).device.transport d
    (lot pass now d (s.after now before)).fate (s.bearings.frames now [d])
  /-- It is the lot that it meets alone in the first state, on any adapter that says the same to its
  frame. -/
  alone : ∀ t : τ, (∀ frame ∈ s.bearings.frames now [d], (Transport.transmit t frame).1 =
      (Transport.transmit (s.after now before).device.transport frame).1) →
    lot pass now d (s.facing t) = lot pass now d (s.after now before)
  /-- Without a frame it makes no difference for the others. -/
  spared : s.bearings.frames now [d] = [] →
    lots pass now (before ++ rest) s =
      lots pass now before s ++ lots pass now rest (s.after now (before ++ [d]))

theorem apart (pass : Pass) (now : Time) (s : Interface τ) (before : List Datagram)
    (d : Datagram) (rest : List Datagram) : Apart pass now s before d rest := by
  have hnext := after_append s now before [d]
  refine ⟨?_, fares_lot pass now d (s.after now before), ?_, ?_⟩
  · rw [lots_append, hnext]
    rfl
  · intro t ht
    exact lot_congr pass ⟨_, _, _, rfl⟩ ht
  · intro hframes
    have hsame : (s.after now before).after now [d] = s.after now before :=
      after_of_frames hframes
    rw [hnext, hsame]
    exact lots_append pass now before rest s

end Lots

section Passes

/-- From the first state to the second a pass met these lots, and these datagrams have to wait. -/
structure Allotted (pass : Pass) (lots : List Lot) (s t : Interface τ) (waiting : List Datagram)
    (events : List Event) : Prop where
  waiting : waiting = having .waits lots
  events : events = lots.flatMap Lot.events
  tried : pass.tried t.counters =
    pass.tried s.counters + lots.countP fun lot => lot.fate ≠ .expired
  expired : t.counters.totals.expired =
    s.counters.totals.expired + lots.countP fun lot => lot.fate = .expired
  dropped : t.counters.totals.dropped =
    s.counters.totals.dropped + lots.countP fun lot => lot.fate.isDropped

omit [FiniteTransport τ] in
theorem Allotted.append {lots more : List Lot} {waiting others : List Datagram}
    {events later : List Event} (h : Allotted pass lots s t waiting events)
    (h' : Allotted pass more t u others later) :
    Allotted pass (lots ++ more) s u (waiting ++ others) (events ++ later) where
  waiting := by
    rw [h.waiting, h'.waiting, having, having, having, List.filter_append, List.map_append]
  events := by rw [h.events, h'.events, List.flatMap_append]
  tried := by rw [h'.tried, h.tried, List.countP_append, Nat.add_assoc]
  expired := by rw [h'.expired, h.expired, List.countP_append, Nat.add_assoc]
  dropped := by rw [h'.dropped, h.dropped, List.countP_append, Nat.add_assoc]

/-- The way out itself counts neither tries nor losses. -/
theorem losses_delivered {o : Outcome (Interface τ) (Except DropReason Delivery)}
    (h : Delivered now d s o) (pass : Pass) :
    pass.tried o.state.counters = pass.tried s.counters ∧
      o.state.counters.totals.expired = s.counters.totals.expired ∧
      o.state.counters.totals.dropped = s.counters.totals.dropped := by
  cases h with
  | @refused reason hr => cases reason <;> cases pass <;> exact ⟨rfl, rfl, rfl⟩
  | deferred hr hm =>
    cases hm with
    | taken ho | failed ho =>
      cases ho
      cases pass <;> exact ⟨rfl, rfl, rfl⟩
  | sent hr ho | failed hr ho =>
    cases ho
    cases pass <;> exact ⟨rfl, rfl, rfl⟩

/-- A datagram that is settled meets the lot that it would meet alone. -/
theorem allotted_settled {value : Option Datagram}
    (h : Settled pass now d s { value, state := t, events }) :
    Allotted pass [lot pass now d s] s t value.toList events := by
  have hs : s.Sends { s with counters := pass.countTaken s.counters } := ⟨_, _, _, rfl⟩
  have halone {o : Outcome (Interface τ) (Except DropReason Delivery)}
      (he : d.isExpired now = false)
      (hd : Delivered now d { s with counters := pass.countTaken s.counters } o) :
      lot pass now d s = ⟨d, .of o.value, o.events ++ pass.closing now d (.of o.value)⟩ := by
    obtain ⟨hv, hevents⟩ :=
      delivered_congr hs (delivered_output now d s) hd he fun _ _ => rfl
    simp only [lot, he, hv, hevents, Bool.false_eq_true, if_false]
  cases h with
  | expired he =>
    simp only [Clock.time_still] at he
    simp only [lot, he, if_true]
    exact ⟨rfl, rfl, rfl, rfl, rfl⟩
  | sent he hd =>
    obtain ⟨htried, hexpired, hdropped⟩ := losses_delivered hd pass
    rw [halone he hd]
    cases pass <;> exact ⟨rfl, (List.append_nil _).symm, htried, hexpired, hdropped⟩
  | waits he hd =>
    obtain ⟨htried, hexpired, hdropped⟩ := losses_delivered hd pass
    rw [halone he hd]
    cases pass <;>
      exact ⟨rfl, by simp [Datagram.Fate.of, Pass.closing], htried, hexpired, hdropped⟩
  | dropped he hd =>
    obtain ⟨htried, hexpired, hdropped⟩ := losses_delivered hd pass
    have hone := congrArg (· + 1) hdropped
    rw [halone he hd]
    cases pass <;> exact ⟨rfl, (List.append_nil _).symm, htried, hexpired, hone⟩

/-- On the way out, and when a message is handled, the adapter is offered what the events say and
nothing else happens to it. -/
theorem local_after : Local fun (s t : Interface τ) events =>
    t.device.transport =
      Transport.after s.device.transport (events.filterMap Event.offered?) where
  offered h := by
    cases h with
    | taken h | failed h => exact (congrArg Prod.snd h).symm
  quiet hd hn := by
    have hnone := List.filterMap_eq_nil_iff.mpr fun event hm => offered?_of_transfer? (hn event hm)
    rw [hd, hnone]
    rfl
  append h h' := by
    rw [h', h, List.filterMap_append, Transport.after, Transport.after, Transport.after,
      List.foldl_append]

/-- What a datagram leaves to those behind it is the adapter, with its frames offered. -/
theorem lots_of_settled {value : Option Datagram}
    (h : Settled pass now d s { value, state := t, events }) :
    lots pass now ds t = lots pass now ds (s.after now [d]) := by
  have hadapter := local_after.settled h
  have hevents := (allotted_settled h).events
  rw [List.flatMap_singleton] at hevents
  rw [hevents, offered_lot] at hadapter
  refine lots_congr pass ?_ hadapter
  obtain ⟨_, _, _, rfl⟩ := sends_of_settled h
  exact ⟨_, _, _, rfl⟩

/-- Every datagram of a pass meets the lot that it would meet alone in the state in which the pass
began, once the frames before were offered. -/
theorem allotted_passed {o : Outcome (Interface τ) (List Datagram)} (h : Passed pass now ds s o) :
    Allotted pass (lots pass now ds s) s o.state o.value o.events := by
  generalize hc : (now : Clock) = clock at h
  induction h with
  | nil => exact ⟨rfl, rfl, rfl, rfl, rfl⟩
  | gone h hp ih | waits h hp ih =>
    subst hc
    rw [lots_of_settled h] at ih
    exact (allotted_settled h).append (ih Clock.after_still.symm)

/-- Which frames a pass offers does not depend on the adapter, and they are all that happens to
it. -/
theorem wired_passed {o : Outcome (Interface τ) (List Datagram)} (h : Passed pass now ds s o) :
    o.events.filterMap Event.offered? = s.bearings.frames now ds ∧
      o.state.device.transport = (s.after now ds).device.transport := by
  have hoffered : o.events.filterMap Event.offered? = s.bearings.frames now ds := by
    rw [(allotted_passed h).events, offered_lots]
  have hadapter := local_after.passed h
  rw [hoffered] at hadapter
  exact ⟨hoffered, hadapter⟩

end Passes

/-- Sending what is queued empties the send queue and leaves what is deferred in front of what has
to wait from now on; of all else only the device, the framer and the counters change. What happens
is what happens for one datagram after the other, and so are the frames that are offered: one IP
frame if the next hop is bound, one ARP request if it is not, none for what is expired or refused.
Each datagram meets the lot that the way out has for it in the state in which the call was made, on
any adapter that says the same to its frame, whatever stands in front of it and behind it. -/
theorem sendQueued_settles (hu : s.isUp = true) (now : Time) :
    let ds := s.sendQueue.toList
    let all := lots .first now ds s
    let o := (perform now .sendQueued).run s
    (∃ device framer counters, o.state = { s with
      sendQueue := .empty
      deferred := s.deferred.append (having .waits all)
      device, framer, counters }) ∧
    o.events = all.flatMap Lot.events ∧
    o.events.filterMap Event.offered? = s.bearings.frames now ds ∧
    o.state.device.transport = (s.after now ds).device.transport ∧
    o.state.counters.send.dequeued =
      s.counters.send.dequeued + all.countP (fun lot => lot.fate ≠ .expired) ∧
    o.state.counters.totals.expired =
      s.counters.totals.expired + all.countP (fun lot => lot.fate = .expired) ∧
    o.state.counters.totals.dropped =
      s.counters.totals.dropped + all.countP (fun lot => lot.fate.isDropped) ∧
    ∀ before d rest, ds = before ++ d :: rest → Apart .first now s before d rest := by
  intro ds all o
  have hp := passed_settleAll .first now ds s
  have ho : o = _ := run_sendQueued hu now
  generalize (settleAll .first now s.sendQueue.toList).run s = pass at hp ho
  have hlots := allotted_passed hp
  obtain ⟨hoffered, hadapter⟩ := wired_passed hp
  obtain ⟨device, framer, counters, hstate⟩ := sends_of_passed hp
  rw [ho]
  refine ⟨⟨device, framer, counters, ?_⟩, hlots.events, hoffered, hadapter, hlots.tried,
    hlots.expired, hlots.dropped, ?_⟩
  · simp only [hstate, hlots.waiting]
    rfl
  intro before d rest _
  exact apart .first now s before d rest

/-- One datagram is too old, one names a network, one has to wait and one is sent. -/
theorem sendQueued_settles_mixed :
    ∃ s : Interface Adapter,
      ((create { address := ⟨192, 168, 1, 1⟩, mask := ⟨255, 255, 255, 0⟩, lifetime := 10 } 0).run
        ({ address := {} } : Adapter)).value = .ok s ∧
      let letter (n : UInt8) := Datagram.make { dest := ⟨192, 168, 1, n⟩ } [] [7]
      let steps : List (Step Adapter) := [.call 0 (.setUp true),
        .call 1 (.handleArp (Arp.Message.isAt ⟨2, 0, 0, 0, 0, 2⟩ ⟨192, 168, 1, 2⟩ {}
          ⟨192, 168, 1, 1⟩).toFrame),
        .call 1 (.submit (letter 2)), .call 5 (.submit (letter 0)), .call 5 (.submit (letter 3)),
        .call 5 (.submit (letter 2))]
      let u := (run steps s).state
      let o := (perform 12 .sendQueued).run u
      u.isUp = true ∧
        (lots .first 12 u.sendQueue.toList u).map (·.fate) =
          [.expired, .dropped .badHost, .waits, .sent] ∧
        o.events.filterMap Event.offered? =
          [(Arp.Message.whoHas {} ⟨192, 168, 1, 1⟩ ⟨192, 168, 1, 3⟩).toFrame.bytes,
            ((letter 2).toFrame ⟨2, 0, 0, 0, 0, 2⟩ {}).bytes] ∧
        o.state.sendQueue = .empty ∧ o.state.deferred.toList = [(letter 3).stamp 15] ∧
        o.state.counters.totals.expired = 1 ∧ o.state.counters.totals.dropped = 1 := by
  obtain ⟨s, hc⟩ : ∃ s, ((create
      { address := ⟨192, 168, 1, 1⟩, mask := ⟨255, 255, 255, 0⟩, lifetime := 10 } 0).run
      ({ address := {} } : Adapter)).value = .ok s := ⟨_, rfl⟩
  refine ⟨s, hc, ?_⟩
  intro letter steps u o
  have hu : u.isUp = true := by
    cases hc
    rfl
  obtain ⟨⟨device, framer, counters, hstate⟩, -, hoffered, -, -, hexpired, hdropped, -⟩ :=
    sendQueued_settles hu 12
  have hsend : o.state.sendQueue = .empty := congrArg Interface.sendQueue hstate
  have hdeferred : o.state.deferred =
      u.deferred.append (having .waits (lots .first 12 u.sendQueue.toList u)) :=
    congrArg Interface.deferred hstate
  have hexpired' : o.state.counters.totals.expired = _ := hexpired
  have hdropped' : o.state.counters.totals.dropped = _ := hdropped
  cases hc
  refine ⟨hu, ?_, hoffered.trans ?_, hsend, ?_, hexpired'.trans ?_, hdropped'.trans ?_⟩
  · decide +kernel
  · decide +kernel
  · rw [hdeferred]
    decide +kernel
  · decide +kernel
  · decide +kernel

end Interface
end LinkLayer
