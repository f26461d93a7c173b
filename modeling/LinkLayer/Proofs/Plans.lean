import LinkLayer.Proofs.Emission

/-!
What a pass does as long as the adapter takes every frame. Main statement: what becomes of each
datagram of a pass depends on the bearings and the time alone, so the pass as a whole is read off
its list of datagrams (`planned_passed`).
-/
namespace LinkLayer

/-- What becomes of a datagram in a pass if its frame is taken. -/
inductive Plan where
  | expire
  | refuse (reason : DropReason)
  | send (hop : Ipv4.Address) (mac : MacAddress)
  | ask (hop : Ipv4.Address)
deriving DecidableEq, Repr

namespace Plan

def expires : Plan → Bool
  | expire => true
  | _ => false

def refuses : Plan → Bool
  | refuse _ => true
  | _ => false

/-- Whether the datagram has to wait. -/
def asks : Plan → Bool
  | ask _ => true
  | _ => false

/-- A datagram that is sent, with the frame that carries it. -/
def shipment? (source : MacAddress) (d : Datagram) : Plan → Option (Datagram × Bytes)
  | send _ mac => some (d, (d.toFrame mac source).bytes)
  | _ => none

/-- The frame that is written for a datagram. -/
def frame? (b : Bearings) (d : Datagram) : Plan → Option Bytes
  | send _ mac => some (d.toFrame mac b.mac).bytes
  | ask hop => some (Arp.Message.whoHas b.mac b.config.address hop).toFrame.bytes
  | _ => none

end Plan

namespace Bearings

variable {b : Bearings} {now : Time} {d : Datagram}

def plan (b : Bearings) (now : Time) (d : Datagram) : Plan :=
  if d.isExpired now then .expire
  else match b.config.route b.cache d with
    | .error reason => .refuse reason
    | .ok (.unresolved hop) => .ask hop
    | .ok (.resolved hop mac) => .send hop mac

/-- What a pass leaves waiting. -/
def waits (b : Bearings) (now : Time) (ds : List Datagram) : List Datagram :=
  ds.filter fun d => (b.plan now d).asks

/-- What a pass sends, with the frames. -/
def shipments (b : Bearings) (now : Time) (ds : List Datagram) : List (Datagram × Bytes) :=
  ds.filterMap fun d => (b.plan now d).shipment? b.mac d

/-- What a pass writes. -/
def frames (b : Bearings) (now : Time) (ds : List Datagram) : List Bytes :=
  ds.filterMap fun d => (b.plan now d).frame? b d

/-- The reply that a message asks for. -/
def reply? (b : Bearings) (message : Arp.Message) : Option Bytes :=
  if message.targetIp = b.config.address ∧ message.operation = .request then
    some (Arp.Message.isAt b.mac b.config.address message.senderMac
      message.senderIp).toFrame.bytes
  else none

theorem waits_cons (b : Bearings) (now : Time) (d : Datagram) (ds : List Datagram) :
    b.waits now (d :: ds) =
      (if (b.plan now d).asks then some d else none).toList ++ b.waits now ds := by
  rw [waits, List.filter_cons]
  split <;> rfl

theorem shipments_cons (b : Bearings) (now : Time) (d : Datagram) (ds : List Datagram) :
    b.shipments now (d :: ds) =
      ((b.plan now d).shipment? b.mac d).toList ++ b.shipments now ds := by
  simp only [shipments, List.filterMap_eq_flatMap_toList, List.flatMap_cons]

theorem frames_cons (b : Bearings) (now : Time) (d : Datagram) (ds : List Datagram) :
    b.frames now (d :: ds) = ((b.plan now d).frame? b d).toList ++ b.frames now ds := by
  simp only [frames, List.filterMap_eq_flatMap_toList, List.flatMap_cons]

theorem waits_append (b : Bearings) (now : Time) (ds es : List Datagram) :
    b.waits now (ds ++ es) = b.waits now ds ++ b.waits now es := List.filter_append ..

theorem shipments_append (b : Bearings) (now : Time) (ds es : List Datagram) :
    b.shipments now (ds ++ es) = b.shipments now ds ++ b.shipments now es :=
  List.filterMap_append

theorem plan_of_expired (b : Bearings) (h : d.isExpired now = true) : b.plan now d = .expire := by
  simp [plan, h]

theorem plan_of_refused {reason : DropReason} (he : d.isExpired now = false)
    (h : b.config.route b.cache d = .error reason) : b.plan now d = .refuse reason := by
  simp [plan, he, h]

theorem plan_of_unresolved {hop : Ipv4.Address} (he : d.isExpired now = false)
    (h : b.config.route b.cache d = .ok (.unresolved hop)) : b.plan now d = .ask hop := by
  simp [plan, he, h]

theorem plan_of_resolved {hop : Ipv4.Address} {mac : MacAddress} (he : d.isExpired now = false)
    (h : b.config.route b.cache d = .ok (.resolved hop mac)) : b.plan now d = .send hop mac := by
  simp [plan, he, h]

end Bearings

/-- Whenever the clock is asked, the datagram is as old as it is at that moment: it has expired at
all readings, or it has not expired at any. -/
def Clock.Agrees (clock : Clock) (now : Time) (d : Datagram) : Prop :=
  ∀ i j, d.isExpired (clock.reading i j) = d.isExpired now

namespace Clock

variable {clock : Clock} {now : Time} {d e : Datagram}

theorem agrees_still (now : Time) (d : Datagram) : (still now).Agrees now d := fun _ _ => rfl

theorem Agrees.time (h : clock.Agrees now d) : clock.Agrees clock.time d := fun i j =>
  (h i j).trans (h 0 0).symm

theorem Agrees.later (h : clock.Agrees now d) : clock.later.Agrees now d := fun i j => by
  rw [reading_later]
  exact h i (j + 1)

theorem Agrees.nextFrame (h : clock.Agrees now d) : clock.nextFrame.Agrees now d := fun i j => by
  rw [reading_nextFrame]
  exact h (i + 1) j

theorem Agrees.after (h : clock.Agrees now d) : (clock.after e).Agrees now d := by
  unfold Clock.after
  split
  · exact h
  · exact h.later.later

end Clock

def Event.isWriteFailure : Event → Bool
  | writeFailed _ _ => true
  | _ => false

/-- The adapter took every frame. -/
def Unfailed (events : List Event) : Prop := ∀ event ∈ events, event.isWriteFailure = false

instance (events : List Event) : Decidable (Unfailed events) :=
  inferInstanceAs (Decidable (∀ event ∈ events, event.isWriteFailure = false))

theorem unfailed_append {events more : List Event} :
    Unfailed (events ++ more) ↔ Unfailed events ∧ Unfailed more := List.forall_mem_append

theorem not_unfailed {frame : Bytes} {error : TransportError} {events : List Event}
    (hm : .writeFailed frame error ∈ events) : ¬ Unfailed events := fun h => by
  cases h _ hm

namespace Interface

variable {τ : Type} [FiniteTransport τ] {now : Time} {clock : Clock} {s t u : Interface τ}
  {events more : List Event} {b : Bearings} {d : Datagram} {ds : List Datagram} {pass : Pass}

/-- From the first state to the second all that was sent, with the frames, and how many datagrams
were refused or had expired. -/
structure Shipped (shipments : List (Datagram × Bytes)) (refused expired : Nat)
    (s t : Interface τ) (events : List Event) : Prop where
  sent : events.filterMap Event.sent? = shipments.map (·.1)
  frames : events.filterMap ipv4Frame? = shipments.map (·.2)
  counted : t.counters.send.ip = s.counters.send.ip + shipments.length
  dropped : t.counters.totals.dropped = s.counters.totals.dropped + refused
  expired : t.counters.totals.expired = s.counters.totals.expired + expired

omit [FiniteTransport τ] in
theorem Shipped.append {first second : List (Datagram × Bytes)} {m m' n n' : Nat}
    (h : Shipped first m n s t events) (h' : Shipped second m' n' t u more) :
    Shipped (first ++ second) (m + m') (n + n') s u (events ++ more) where
  sent := by rw [List.filterMap_append, h.sent, h'.sent, List.map_append]
  frames := by rw [List.filterMap_append, h.frames, h'.frames, List.map_append]
  counted := by rw [h'.counted, h.counted, List.length_append, Nat.add_assoc]
  dropped := by rw [h'.dropped, h.dropped, Nat.add_assoc]
  expired := by rw [h'.expired, h.expired, Nat.add_assoc]

/-- From the first state to the second one datagram was settled as planned. -/
structure Executed (p : Plan) (b : Bearings) (d : Datagram) (s t : Interface τ)
    (value : Option Datagram) (events : List Event) : Prop where
  value : value = if p.asks then some d else none
  written : events.filterMap Event.written? = (p.frame? b d).toList
  shipped : Shipped (p.shipment? b.mac d).toList (if p.refuses then 1 else 0)
    (if p.expires then 1 else 0) s t events

theorem executed_settled {value : Option Datagram}
    (h : Settled pass clock d s { value, state := t, events }) (hn : Unfailed events)
    (hc : clock.Agrees now d) : Executed (s.bearings.plan now d) s.bearings d s t value events := by
  have hage : d.isExpired clock.time = d.isExpired now := hc 0 0
  cases h with
  | expired he =>
    rw [s.bearings.plan_of_expired (hage ▸ he)]
    exact ⟨rfl, rfl, rfl, rfl, rfl, rfl, rfl⟩
  | sent he hd =>
    cases hd with
    | @sent hop mac framer t events hr ho =>
      have hp : s.bearings.plan now d = .send hop mac := Bearings.plan_of_resolved (hage ▸ he) hr
      have hf := ipv4Frame?_toFrame d mac s.macAddress
      rw [hp]
      cases ho with
      | taken ht =>
        have hframes : List.filterMap ipv4Frame?
            [.frameWritten (d.toFrame mac s.macAddress).bytes,
              .sent clock.time clock.later.time d] =
              [(d.toFrame mac s.macAddress).bytes] := List.filterMap_cons_some hf
        cases pass <;> exact ⟨rfl, rfl, rfl, hframes, rfl, rfl, rfl⟩
  | waits he hd =>
    cases hd with
    | @deferred hop t events hr ha =>
      have hp : s.bearings.plan now d = .ask hop := Bearings.plan_of_unresolved (hage ▸ he) hr
      have hf := ipv4Frame?_message (.whoHas s.macAddress s.config.address hop)
      rw [hp]
      cases ha with
      | failed ho =>
        cases ho
        exact absurd hn (not_unfailed (List.mem_cons_of_mem _ List.mem_cons_self))
      | taken ho =>
        cases ho
        have hframes : List.filterMap ipv4Frame? [.deferring hop, .frameWritten
            (Arp.Message.whoHas s.macAddress s.config.address hop).toFrame.bytes] = [] :=
          List.filterMap_cons_none hf
        cases pass <;> exact ⟨rfl, rfl, rfl, hframes, rfl, rfl, rfl⟩
  | @dropped reason t events he hd =>
    cases hd with
    | failed hr ho =>
      cases ho
      exact absurd hn (not_unfailed List.mem_cons_self)
    | refused hr =>
      have hp : s.bearings.plan now d = .refuse reason := Bearings.plan_of_refused (hage ▸ he) hr
      rw [hp]
      cases reason <;> cases pass <;> exact ⟨rfl, rfl, rfl, rfl, rfl, rfl, rfl⟩

/-- From the first state to the second these datagrams were settled as planned. -/
def Planned (b : Bearings) (now : Time) (ds : List Datagram) (s t : Interface τ)
    (events : List Event) : Prop :=
  Shipped (b.shipments now ds) (ds.countP fun d => (b.plan now d).refuses)
    (ds.countP fun d => (b.plan now d).expires) s t events

omit [FiniteTransport τ] in
theorem Executed.cons {value : Option Datagram}
    (h : Executed (b.plan now d) b d s t value events) (h' : Planned b now ds t u more) :
    Planned b now (d :: ds) s u (events ++ more) := by
  rw [Planned, Bearings.shipments_cons, List.countP_cons, List.countP_cons,
    Nat.add_comm (List.countP _ ds), Nat.add_comm (List.countP _ ds)]
  exact h.shipped.append h'

/-- Every datagram of a pass becomes what was planned for it when the pass began. -/
theorem planned_passed {o : Outcome (Interface τ) (List Datagram)} (h : Passed pass clock ds s o)
    (hn : Unfailed o.events) (hc : ∀ d ∈ ds, clock.Agrees now d) :
    Planned s.bearings now ds s o.state o.events ∧ o.value = s.bearings.waits now ds ∧
      o.events.filterMap Event.written? = s.bearings.frames now ds := by
  induction h with
  | nil => exact ⟨⟨rfl, rfl, rfl, rfl, rfl⟩, rfl, rfl⟩
  | gone h hp ih | waits h hp ih =>
    obtain ⟨hn, hn'⟩ := unfailed_append.mp hn
    obtain ⟨hd, hrest⟩ := List.forall_mem_cons.mp hc
    have hx := executed_settled h hn hd
    obtain ⟨hrest, hwaits, hframes⟩ := ih hn' fun e he => (hrest e he).after
    rw [bearings_of_sends (sends_of_settled h)] at hrest hwaits hframes
    refine ⟨hx.cons hrest, ?_, ?_⟩
    · rw [Bearings.waits_cons, ← hx.value, ← hwaits]
      rfl
    · rw [List.filterMap_append, hx.written, hframes, Bearings.frames_cons]

theorem shipped_answered {message : Arp.Message}
    (h : Answered now message s { value := (), state := t, events }) (hn : Unfailed events) :
    Shipped [] 0 0 s t events ∧
      events.filterMap Event.written? = (s.bearings.reply? message).toList := by
  cases h with
  | notOurs ht =>
    have hr : s.bearings.reply? message = none := if_neg fun h => ht h.1
    rw [hr]
    exact ⟨⟨rfl, rfl, rfl, rfl, rfl⟩, rfl⟩
  | told ht ho =>
    have hr : s.bearings.reply? message = none := if_neg (by simp [ho])
    rw [hr]
    exact ⟨⟨rfl, rfl, rfl, rfl, rfl⟩, rfl⟩
  | asked ht ho ha =>
    have hr : s.bearings.reply? message = some _ := if_pos ⟨ht, ho⟩
    have hf := ipv4Frame?_message
      (.isAt s.macAddress s.config.address message.senderMac message.senderIp)
    rw [hr]
    cases ha with
    | failed ho =>
      cases ho
      exact absurd hn (not_unfailed (List.mem_cons_of_mem _ List.mem_cons_self))
    | taken ho =>
      cases ho
      refine ⟨⟨rfl, ?_, rfl, rfl, rfl⟩, rfl⟩
      rw [List.filterMap_cons_none rfl, List.filterMap_cons_none hf]
      rfl

/-- The bearings once a message was accepted. -/
def heeding (s : Interface τ) (message : Arp.Message) : Bearings :=
  { s.bearings with cache := s.cache.learn message }

/-- What is deferred is settled with what the message told. -/
theorem planned_heard {message : Arp.Message}
    (h : Heard clock message s { value := (), state := t, events }) (hn : Unfailed events)
    (hc : ∀ d ∈ s.deferred.toList, clock.Agrees now d) :
    Planned (s.heeding message) now s.deferred.toList s t events ∧
      (∃ device framer counters, t = { s with
        cache := s.cache.learn message
        deferred := .ofList ((s.heeding message).waits now s.deferred.toList)
        device, framer, counters }) ∧
      events.filterMap Event.written? = ((s.heeding message).reply? message).toList ++
        (s.heeding message).frames now s.deferred.toList := by
  cases h with
  | @intro t u waiting events more ha hp =>
    obtain ⟨hn, hn'⟩ := unfailed_append.mp hn
    have hna : Unfailed events := (List.forall_mem_cons.mp hn).2
    obtain ⟨hanswer, hreply⟩ := shipped_answered ha hna
    obtain ⟨_, _, _, rfl⟩ := sends_of_answered ha
    obtain ⟨hpass, hwaits, hframes⟩ := planned_passed hp hn' fun d hd => (hc d hd).later
    obtain ⟨device, framer, counters, rfl⟩ := sends_of_passed hp
    refine ⟨?_, ⟨device, framer, counters, ?_⟩, ?_⟩
    · have hboth := hanswer.append hpass
      rw [List.nil_append, Nat.zero_add, Nat.zero_add] at hboth
      exact ⟨hboth.sent, hboth.frames, hboth.counted, hboth.dropped, hboth.expired⟩
    · have hleft : waiting = (s.heeding message).waits now s.deferred.toList := hwaits
      rw [hleft]
    · have hwritten : (events ++ more).filterMap Event.written? = _ := List.filterMap_append
      rw [hreply, hframes] at hwritten
      exact hwritten

/-- What the host handed in is settled, and what has to wait joins what is deferred. -/
theorem planned_sendQueued (hu : s.isUp = true)
    (hn : Unfailed ((perform clock .sendQueued).run s).events)
    (hc : ∀ d ∈ s.sendQueue.toList, clock.Agrees now d) :
    let o := (perform clock .sendQueued).run s
    Planned s.bearings now s.sendQueue.toList s o.state o.events ∧
      (∃ device framer counters, o.state = { s with
        sendQueue := .empty
        deferred := s.deferred.append (s.bearings.waits now s.sendQueue.toList)
        device, framer, counters }) ∧
      o.events.filterMap Event.written? = s.bearings.frames now s.sendQueue.toList := by
  have hp := passed_settleAll .first clock s.sendQueue.toList s
  simp only [run_sendQueued hu] at hn ⊢
  generalize (settleAll .first clock s.sendQueue.toList).run s = o at hp hn ⊢
  obtain ⟨hpass, hwaits, hframes⟩ := planned_passed hp hn hc
  obtain ⟨device, framer, counters, hs⟩ := sends_of_passed hp
  refine ⟨?_, ⟨device, framer, counters, ?_⟩, hframes⟩
  · exact ⟨hpass.sent, hpass.frames, hpass.counted, hpass.dropped, hpass.expired⟩
  · rw [hs, hwaits]

end Interface
end LinkLayer
