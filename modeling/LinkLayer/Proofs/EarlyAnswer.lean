import LinkLayer.Proofs.Bindings
import LinkLayer.Proofs.Plans

/-!
An answer that comes before or after the datagrams that need it. Main statement: the queue is sent
and then a neighbour is heard, or the other way round, and in the end all is the same, but that
frames for different next hops may be written in another order (`answer_early_or_late`).
-/
namespace LinkLayer

/-- Whatever is bound, a datagram is refused for the same reason or has the same next hop. -/
theorem Config.route_cases (config : Config) (d : Datagram) :
    (∃ reason, ∀ cache, config.route cache d = .error reason) ∨
      ∃ hop, ∀ cache, config.route cache d = .ok (match cache.lookup hop with
        | none => .unresolved hop
        | some mac => .resolved hop mac) := by
  simp only [route]
  repeat' split
  · exact .inl ⟨_, fun _ => rfl⟩
  · exact .inl ⟨_, fun _ => rfl⟩
  · exact .inl ⟨_, fun _ => rfl⟩
  · exact .inl ⟨_, fun _ => rfl⟩
  · rename_i hop _
    refine .inr ⟨hop, fun cache => ?_⟩
    cases cache.lookup hop <;> rfl

namespace Plan

/-- The next hop that a datagram is sent to. -/
def hop? : Plan → Option Ipv4.Address
  | send hop _ => some hop
  | _ => none

theorem not_refuses_of_asks : ∀ plan : Plan, plan.asks = true → plan.refuses = false
  | ask _, _ => rfl

theorem not_expires_of_asks : ∀ plan : Plan, plan.asks = true → plan.expires = false
  | ask _, _ => rfl

end Plan

namespace Bearings

variable {b b' : Bearings} {now : Time} {ip hop : Ipv4.Address} {mac : MacAddress} {d : Datagram}
  {ds : List Datagram}

/-- The second bearings have one binding more. -/
structure Told (b b' : Bearings) (ip : Ipv4.Address) (mac : MacAddress) : Prop where
  config : b'.config = b.config
  source : b'.mac = b.mac
  unbound : b.cache.lookup ip = none
  lookup : ∀ other, b'.cache.lookup other = if other = ip then some mac else b.cache.lookup other

theorem told_learn {message : Arp.Message} (hi : message.senderIp ≠ .unspecified)
    (hl : b.cache.lookup message.senderIp = none) (hr : b.cache.count < b.cache.capacity) :
    Told b { b with cache := b.cache.learn message } message.senderIp message.senderMac where
  config := rfl
  source := rfl
  unbound := hl
  lookup := by
    rw [Arp.Cache.learn, if_neg hi]
    exact Arp.Cache.lookup_insert (.inr hr) message.senderMac

/-- The only datagrams with another plan are those that wait for this binding. -/
theorem Told.plan (h : Told b b' ip mac) (now : Time) (d : Datagram) :
    b.plan now d = .ask ip ∧ b'.plan now d = .send ip mac ∨
      b'.plan now d = b.plan now d ∧ (b.plan now d).hop? ≠ some ip := by
  by_cases he : d.isExpired now = true
  · exact .inr (by simp [Bearings.plan, he, Plan.hop?])
  · rcases b.config.route_cases d with ⟨reason, hr⟩ | ⟨hop, hr⟩
    · exact .inr (by simp [Bearings.plan, he, h.config, hr, Plan.hop?])
    · by_cases hi : hop = ip
      · subst hi
        exact .inl (by simp [Bearings.plan, he, h.config, hr, h.lookup, h.unbound])
      · refine .inr ?_
        cases hl : b.cache.lookup hop <;>
          simp [Bearings.plan, he, h.config, hr, h.lookup, hi, hl, Plan.hop?]

theorem Told.plan_of_not_asks (h : Told b b' ip mac) (ha : (b.plan now d).asks = false) :
    b'.plan now d = b.plan now d := by
  rcases h.plan now d with ⟨hask, -⟩ | ⟨hsame, -⟩
  · rw [hask] at ha
    cases ha
  · exact hsame

/-- With the second bearings these datagrams fare as with the first, but for those that have to wait
with the first. -/
structure Extends (b b' : Bearings) (now : Time) (ds : List Datagram) : Prop where
  source : b'.mac = b.mac
  plan : ∀ d ∈ ds, (b.plan now d).asks = false → b'.plan now d = b.plan now d

theorem Told.extends (h : Told b b' ip mac) (now : Time) (ds : List Datagram) :
    Extends b b' now ds := ⟨h.source, fun _ _ => h.plan_of_not_asks⟩

theorem Extends.asks (h : Extends b b' now ds) (hd : d ∈ ds) (ha : (b'.plan now d).asks = true) :
    (b.plan now d).asks = true := by
  cases hb : (b.plan now d).asks with
  | true => rfl
  | false => rw [← hb, ← h.plan d hd hb, ha]

/-- What waits with the second bearings waited with the first. -/
theorem Extends.waits_late (h : Extends b b' now ds) (held : List Datagram) :
    b'.waits now (held ++ b.waits now ds) = b'.waits now (held ++ ds) := by
  have htwice : b'.waits now (b.waits now ds) = b'.waits now ds := by
    rw [waits, waits, List.filter_filter]
    refine List.filter_congr fun d hd => ?_
    have ha : (b'.plan now d).asks = true → (b.plan now d).asks = true := h.asks hd
    grind
  rw [waits_append, waits_append, htwice]

/-- What becomes of a datagram that does not wait becomes of it either at once or with the second
bearings. -/
theorem Extends.countP_late (h : Extends b b' now ds) {P : Plan → Bool}
    (hp : ∀ plan, plan.asks = true → P plan = false) (held : List Datagram) :
    (ds.countP fun d => P (b.plan now d)) +
        ((held ++ b.waits now ds).countP fun d => P (b'.plan now d)) =
      (held ++ ds).countP fun d => P (b'.plan now d) := by
  have hsame : (ds.countP fun d => P (b.plan now d)) =
      (ds.filter fun d => !(b.plan now d).asks).countP fun d => P (b'.plan now d) := by
    rw [List.countP_filter]
    refine List.countP_congr fun d hd => ?_
    cases ha : (b.plan now d).asks with
    | true => simp [hp _ ha]
    | false => simp [h.plan d hd ha]
  have hsplit := List.countP_eq_countP_filter_add ds (fun d => P (b'.plan now d))
    fun d => (b.plan now d).asks
  rw [List.countP_append, List.countP_append, hsplit, hsame, waits]
  omega

/-- The shipments are the same, whether what has to wait is sent later or at once. -/
theorem Extends.shipments_late (h : Extends b b' now ds) (held : List Datagram) :
    (b.shipments now ds ++ b'.shipments now (held ++ b.waits now ds)).Perm
      (b'.shipments now (held ++ ds)) := by
  have hrest : b.shipments now ds =
      b'.shipments now (ds.filter fun d => !(b.plan now d).asks) := by
    rw [shipments, shipments, List.filterMap_filter]
    refine List.filterMap_congr fun d hd => ?_
    cases ha : (b.plan now d).asks with
    | true => cases hp : b.plan now d <;> simp_all [Plan.asks, Plan.shipment?]
    | false => simp [h.plan d hd ha, h.source]
  have hsplit : (b'.shipments now (b.waits now ds) ++ b.shipments now ds).Perm
      (b'.shipments now ds) := by
    rw [hrest, ← shipments_append]
    exact (List.filter_append_perm (fun d => (b.plan now d).asks) ds).filterMap _
  rw [shipments_append, shipments_append]
  refine (List.perm_append_comm_assoc _ _ _).trans ?_
  exact (List.perm_append_comm.trans hsplit).append_left _

/-- What waits with the binding waited without it. -/
theorem Told.waits_late (h : Told b b' ip mac) (held ds : List Datagram) :
    b'.waits now (held ++ b.waits now ds) = b'.waits now (held ++ ds) :=
  (h.extends now ds).waits_late held

/-- What becomes of a datagram that does not wait becomes of it either at once or when the binding
is there. -/
theorem Told.countP_late (h : Told b b' ip mac) {P : Plan → Bool}
    (hp : ∀ plan, plan.asks = true → P plan = false) (held ds : List Datagram) :
    (ds.countP fun d => P (b.plan now d)) +
        ((held ++ b.waits now ds).countP fun d => P (b'.plan now d)) =
      (held ++ ds).countP fun d => P (b'.plan now d) := (h.extends now ds).countP_late hp held

/-- The shipments are the same, whether what has to wait is sent later or at once. -/
theorem Told.shipments_late (h : Told b b' ip mac) (now : Time) (held ds : List Datagram) :
    (b.shipments now ds ++ b'.shipments now (held ++ b.waits now ds)).Perm
      (b'.shipments now (held ++ ds)) := (h.extends now ds).shipments_late held

/-- The shipments to one next hop. -/
def shipmentsTo (b : Bearings) (hop : Ipv4.Address) (now : Time) (ds : List Datagram) :
    List (Datagram × Bytes) :=
  ds.filterMap fun d =>
    if (b.plan now d).hop? = some hop then (b.plan now d).shipment? b.mac d else none

theorem nextHop_of_plan (h : (b.plan now d).hop? = some hop) :
    b.config.nextHop? d = some hop := by
  by_cases he : d.isExpired now = true
  · simp [plan, he, Plan.hop?] at h
  · cases hr : b.config.route b.cache d with
    | error reason => simp [plan, he, hr, Plan.hop?] at h
    | ok route =>
      cases route with
      | unresolved other => simp [plan, he, hr, Plan.hop?] at h
      | resolved other mac =>
        obtain rfl : other = hop := by simpa [plan, he, hr, Plan.hop?] using h
        exact (Config.hop_of_resolved hr).1

theorem hop?_of_unresolved (h : b.config.route b.cache d = .ok (.unresolved hop)) :
    (b.plan now d).hop? = none := by
  cases he : d.isExpired now with
  | true => exact congrArg Plan.hop? (plan_of_expired b he)
  | false => exact congrArg Plan.hop? (plan_of_unresolved he h)

theorem filter_shipments (b : Bearings) (hop : Ipv4.Address) (now : Time) (ds : List Datagram) :
    (b.shipments now ds).filter (fun p => b.config.nextHop? p.1 = some hop) =
      b.shipmentsTo hop now ds := by
  rw [shipments, shipmentsTo, List.filter_filterMap]
  refine List.filterMap_congr fun d _ => ?_
  cases hp : b.plan now d with
  | send other mac =>
    have hh : (b.plan now d).hop? = some other := congrArg Plan.hop? hp
    have hn := nextHop_of_plan hh
    simp [Plan.shipment?, Plan.hop?, Option.filter, hn]
  | expire | refuse | ask => rfl

theorem shipmentsTo_eq_nil (h : ∀ d ∈ ds, (b.plan now d).hop? ≠ some hop) :
    b.shipmentsTo hop now ds = [] := by
  rw [shipmentsTo, List.filterMap_eq_nil_iff]
  intro d hd
  rw [if_neg (h d hd)]

/-- No datagram that is held is sent with the bearings of now. -/
theorem Told.shipmentsTo_of_held (h : Told b b' ip mac) (hne : hop ≠ ip)
    (hd : ∀ d ∈ ds, (b.plan now d).hop? = none) : b'.shipmentsTo hop now ds = [] := by
  refine shipmentsTo_eq_nil fun d hm => ?_
  rcases h.plan now d with ⟨-, hsend⟩ | ⟨hsame, -⟩
  · rw [hsend]
    intro he
    cases he
    exact hne rfl
  · rw [hsame, hd d hm]
    simp

/-- For each next hop the shipments come in the same order. For the one that was bound all is sent
late, for any other nothing that was held is sent. -/
theorem Told.shipmentsTo_late (h : Told b b' ip mac) {held : List Datagram}
    (hd : ∀ d ∈ held, (b.plan now d).hop? = none) (hop : Ipv4.Address) (ds : List Datagram) :
    b.shipmentsTo hop now ds ++ b'.shipmentsTo hop now (held ++ b.waits now ds) =
      b'.shipmentsTo hop now (held ++ ds) := by
  have happend : ∀ more, b'.shipmentsTo hop now (held ++ more) =
      b'.shipmentsTo hop now held ++ b'.shipmentsTo hop now more :=
    fun _ => List.filterMap_append
  rw [happend, happend]
  by_cases hne : hop = ip
  · subst hne
    have hearly : b.shipmentsTo hop now ds = [] := by
      refine shipmentsTo_eq_nil fun d _ => ?_
      rcases h.plan now d with ⟨hask, -⟩ | ⟨-, hother⟩
      · simp [hask, Plan.hop?]
      · exact hother
    have hlate : b'.shipmentsTo hop now (b.waits now ds) = b'.shipmentsTo hop now ds := by
      rw [shipmentsTo, shipmentsTo, waits, List.filterMap_filter]
      refine List.filterMap_congr fun d _ => ?_
      rcases h.plan now d with ⟨hask, -⟩ | ⟨hsame, hother⟩
      · simp [hask, Plan.asks]
      · simp [hsame, hother]
    rw [hearly, hlate, List.nil_append]
  · have hwaits : ∀ d ∈ b.waits now ds, (b.plan now d).hop? = none := by
      intro d hm
      have ha := (List.mem_filter.mp hm).2
      cases hp : b.plan now d <;> simp_all [Plan.asks, Plan.hop?]
    have hsame : b.shipmentsTo hop now ds = b'.shipmentsTo hop now ds := by
      refine List.filterMap_congr fun d _ => ?_
      rcases h.plan now d with ⟨hask, hsend⟩ | ⟨hsame, -⟩
      · simp [hask, hsend, Plan.hop?, Ne.symm hne]
      · rw [hsame, h.source]
    simp [h.shipmentsTo_of_held hne hd, h.shipmentsTo_of_held hne hwaits, hsame]

end Bearings

namespace Interface

variable {τ : Type} [FiniteTransport τ] {now : Time} {s : Interface τ} {call : Call}

/-- As long as the network stays the same, no datagram that is deferred can be sent. -/
theorem unresolved_of_create {config : Config} {time : Time} {transport : τ}
    (hc : ((create config time).run transport).value = .ok s) (steps : List (Step τ))
    (hs : ∀ step ∈ steps, step.KeepsNetwork config) :
    (run steps s).state.config = config ∧ ∀ d ∈ (run steps s).state.deferred.toList,
      ∃ hop, config.route (run steps s).state.cache d = .ok (.unresolved hop) := by
  obtain ⟨l, -, -, hl, hcurrent, ho⟩ := Ledger.ledger_of_create (Ledger.kept_hopOrder config) hc
    steps (.inl hs) ⟨rfl, Ledger.hopOrder_empty _ _⟩
  refine ⟨hcurrent, ?_⟩
  intro d hd
  obtain ⟨e, he, hcontent⟩ :=
    List.mem_map.mp (hl.deferred ▸ List.mem_map_of_mem hd : d.content ∈ _)
  obtain ⟨hop, hroute⟩ := ho.waits e he
  rw [Config.route_congr hcontent] at hroute
  exact ⟨hop, hroute⟩

theorem heard_perform {frame : Ethernet.Frame} {message : Arp.Message}
    (hm : Arp.Message.ofFrame frame = .ok message) (now : Time) (s : Interface τ) :
    Heard now message s
      { value := ()
        state := ((perform now (.handleArp frame)).run s).state
        events := ((perform now (.handleArp frame)).run s).events } := by
  have hh := (heard_handleArp hm now s).2
  simpa only [perform, Action.run_bind, Action.run_pure, List.append_nil] using hh

theorem planned_handleArp {frame : Ethernet.Frame} {message : Arp.Message}
    (hm : Arp.Message.ofFrame frame = .ok message)
    (hn : Unfailed ((perform now (.handleArp frame)).run s).events) :
    let o := (perform now (.handleArp frame)).run s
    Planned (s.heeding message) now s.deferred.toList s o.state o.events ∧
      ∃ device framer counters, o.state = { s with
        cache := s.cache.learn message
        deferred := .ofList ((s.heeding message).waits now s.deferred.toList)
        device, framer, counters } := by
  obtain ⟨hp, hs, -⟩ := planned_heard (heard_perform hm now s) hn fun d _ =>
    Clock.agrees_still now d
  exact ⟨hp, hs⟩

theorem happened_run_two (now : Time) (call next : Call) (s : Interface τ) :
    happened (run [.call now call, .call now next] s).history =
      ((perform now call).run s).events ++
        ((perform now next).run ((perform now call).run s).state).events := by
  simp [run, happened]

/-- First the queue is sent, then the neighbour is heard. -/
theorem shipped_late {frame : Ethernet.Frame} {message : Arp.Message}
    (hm : Arp.Message.ofFrame frame = .ok message) (hu : s.isUp = true)
    (hn : Unfailed (happened
      (run [.call now .sendQueued, .call now (.handleArp frame)] s).history)) :
    let late := run [.call now .sendQueued, .call now (.handleArp frame)] s
    let b := s.bearings
    let b' := s.heeding message
    let ds := s.sendQueue.toList
    let waiting := s.deferred.toList ++ b.waits now ds
    Shipped (b.shipments now ds ++ b'.shipments now waiting)
        ((ds.countP fun d => (b.plan now d).refuses) +
          waiting.countP fun d => (b'.plan now d).refuses)
        ((ds.countP fun d => (b.plan now d).expires) +
          waiting.countP fun d => (b'.plan now d).expires)
        s late.state (happened late.history) ∧
      ∃ device framer counters, late.state = { s with
        cache := s.cache.learn message
        sendQueue := .empty
        deferred := .ofList (b'.waits now waiting)
        device, framer, counters } := by
  intro late b b' ds waiting
  rw [happened_run_two, unfailed_append] at hn
  obtain ⟨hn, hn'⟩ := hn
  obtain ⟨hfirst, ⟨device, framer, counters, hs⟩, -⟩ := planned_sendQueued hu hn fun d _ =>
    Clock.agrees_still now d
  obtain ⟨hthen, device', framer', counters', hs'⟩ := planned_handleArp hm hn'
  have hheeding : ((perform now .sendQueued).run s).state.heeding message = b' := by
    rw [hs]
    rfl
  have hwaiting : ((perform now .sendQueued).run s).state.deferred.toList = waiting := by
    rw [hs]
    exact Fifo.toList_append _
  rw [hheeding, hwaiting] at hthen hs'
  refine ⟨?_, device', framer', counters', ?_⟩
  · rw [happened_run_two]
    exact hfirst.append hthen
  · refine hs'.trans ?_
    rw [hs]

/-- First the neighbour is heard, then the queue is sent. -/
theorem shipped_early {frame : Ethernet.Frame} {message : Arp.Message}
    (hm : Arp.Message.ofFrame frame = .ok message) (hu : s.isUp = true)
    (hn : Unfailed (happened
      (run [.call now (.handleArp frame), .call now .sendQueued] s).history)) :
    let early := run [.call now (.handleArp frame), .call now .sendQueued] s
    let b' := s.heeding message
    let ds := s.deferred.toList ++ s.sendQueue.toList
    Shipped (b'.shipments now ds) (ds.countP fun d => (b'.plan now d).refuses)
        (ds.countP fun d => (b'.plan now d).expires) s early.state (happened early.history) ∧
      ∃ device framer counters, early.state = { s with
        cache := s.cache.learn message
        sendQueue := .empty
        deferred := .ofList (b'.waits now ds)
        device, framer, counters } := by
  intro early b' ds
  rw [happened_run_two, unfailed_append] at hn
  obtain ⟨hn, hn'⟩ := hn
  obtain ⟨hfirst, device, framer, counters, hs⟩ := planned_handleArp hm hn
  have hu' : ((perform now (.handleArp frame)).run s).state.isUp = true := by
    rw [hs]
    exact hu
  obtain ⟨hthen, ⟨device', framer', counters', hs'⟩, -⟩ := planned_sendQueued hu' hn' fun d _ =>
    Clock.agrees_still now d
  have hbearings : ((perform now (.handleArp frame)).run s).state.bearings = b' := by
    rw [hs]
    rfl
  have hqueue : ((perform now (.handleArp frame)).run s).state.sendQueue = s.sendQueue := by
    rw [hs]
  rw [hbearings, hqueue] at hthen hs'
  refine ⟨?_, device', framer', counters', ?_⟩
  · have hboth := hfirst.append hthen
    rw [happened_run_two]
    simp only [ds, Bearings.shipments, List.filterMap_append, List.countP_append]
    exact hboth
  · have hdeferred : (Fifo.ofList (b'.waits now s.deferred.toList)).append
        (b'.waits now s.sendQueue.toList) = .ofList (b'.waits now ds) := by
      ext1
      simp [ds, Bearings.waits]
    refine hs'.trans ?_
    rw [hs, ← hdeferred]

/-- What was sent, each datagram with its frame. -/
def shipped (left : Left τ) : List (Datagram × Bytes) :=
  ((happened left.history).filterMap Event.sent?).zip
    ((happened left.history).filterMap ipv4Frame?)

/-- Two runs leave the same and wrote the same IPv4 frames, those for one next hop in the same
order. -/
structure Agree (config : Config) (first second : Left τ) : Prop where
  cache : first.state.cache = second.state.cache
  sendQueue : first.state.sendQueue = .empty ∧ second.state.sendQueue = .empty
  deferred : first.state.deferred = second.state.deferred
  receiveQueue : first.state.receiveQueue = second.state.receiveQueue
  counted : first.state.counters.send.ip = second.state.counters.send.ip
  dropped : first.state.counters.totals.dropped = second.state.counters.totals.dropped
  expired : first.state.counters.totals.expired = second.state.counters.totals.expired
  paired : ∀ left ∈ [first, second],
    (shipped left).map (·.1) = (happened left.history).filterMap Event.sent? ∧
      (shipped left).map (·.2) = (happened left.history).filterMap ipv4Frame?
  frames : ((happened first.history).filterMap ipv4Frame?).Perm
    ((happened second.history).filterMap ipv4Frame?)
  hops : ∀ hop, (shipped first).filter (fun p => config.nextHop? p.1 = some hop) =
    (shipped second).filter fun p => config.nextHop? p.1 = some hop

omit [FiniteTransport τ] in
theorem Shipped.shipped_eq {left : Left τ} {shipments : List (Datagram × Bytes)} {m n : Nat}
    (h : Shipped shipments m n s left.state (happened left.history)) :
    shipped left = shipments := (List.zip_of_prod h.sent.symm h.frames.symm).symm

/-- A neighbour that was not bound is heard before or after the queue is sent. As long as the
adapter takes every frame it makes no difference, but that frames for different next hops may be
written in another order: a datagram that was deferred is sent in the very frame in which it would
have been sent at once. -/
theorem answer_early_or_late {config : Config} {time : Time} {transport : τ}
    (hc : ((create config time).run transport).value = .ok s) (steps : List (Step τ))
    (hs : ∀ step ∈ steps, step.KeepsNetwork config) {frame : Ethernet.Frame}
    {message : Arp.Message} (hm : Arp.Message.ofFrame frame = .ok message)
    (hi : message.senderIp ≠ .unspecified)
    (hu : (run steps s).state.isUp = true)
    (hl : (run steps s).state.cache.lookup message.senderIp = none)
    (hr : (run steps s).state.cache.count < (run steps s).state.cache.capacity)
    (now : Time) :
    let u := (run steps s).state
    let late := run [.call now .sendQueued, .call now (.handleArp frame)] u
    let early := run [.call now (.handleArp frame), .call now .sendQueued] u
    Unfailed (happened late.history) → Unfailed (happened early.history) →
      Agree config late early := by
  intro u late early hlate hearly
  obtain ⟨hconfig, hunresolved⟩ := unresolved_of_create hc steps hs
  obtain ⟨hsent, _, _, _, hstate⟩ := shipped_late hm hu hlate
  obtain ⟨hsent', _, _, _, hstate'⟩ := shipped_early hm hu hearly
  have htold : u.bearings.Told (u.heeding message) message.senderIp message.senderMac :=
    Bearings.told_learn hi hl hr
  have hheld : ∀ d ∈ u.deferred.toList, (u.bearings.plan now d).hop? = none := by
    intro d hd
    obtain ⟨hop, hroute⟩ := hunresolved d hd
    exact Bearings.hop?_of_unresolved (by rw [← hconfig] at hroute; exact hroute)
  have hshipped := hsent.shipped_eq
  have hshipped' := hsent'.shipped_eq
  have hperm := htold.shipments_late now u.deferred.toList u.sendQueue.toList
  refine ⟨?_, ⟨?_, ?_⟩, ?_, ?_, ?_, ?_, ?_, ?_, ?_, ?_⟩
  · rw [hstate, hstate']
  · rw [hstate]
  · rw [hstate']
  · rw [hstate, hstate', htold.waits_late]
  · rw [hstate, hstate']
  · rw [hsent.counted, hsent'.counted, hperm.length_eq]
  · rw [hsent.dropped, hsent'.dropped, htold.countP_late Plan.not_refuses_of_asks]
  · rw [hsent.expired, hsent'.expired, htold.countP_late Plan.not_expires_of_asks]
  · rw [List.forall_mem_cons, List.forall_mem_singleton, hshipped, hshipped']
    exact ⟨⟨hsent.sent.symm, hsent.frames.symm⟩, hsent'.sent.symm, hsent'.frames.symm⟩
  · rw [hsent.frames, hsent'.frames]
    exact hperm.map _
  · intro hop
    rw [hshipped, hshipped', ← hconfig, List.filter_append]
    have hfilter := Bearings.filter_shipments u.bearings hop now
    have hfilter' := Bearings.filter_shipments (u.heeding message) hop now
    refine (congrArg₂ _ (hfilter _) (hfilter' _)).trans ?_
    exact (htold.shipmentsTo_late hheld hop _).trans (hfilter' _).symm

/-- One datagram is deferred, one more goes the same way and another one to a neighbour that is
bound. If the answer is early the last one is sent last, else first. -/
theorem answer_early_or_late_three :
    ∃ s : Interface Adapter,
      ((create { address := ⟨192, 168, 1, 1⟩, mask := ⟨255, 255, 255, 0⟩ } 0).run
        ({ address := ⟨2, 0, 0, 0, 0, 1⟩ } : Adapter)).value = .ok s ∧
      let reply (n : UInt8) := (Arp.Message.isAt ⟨2, 0, 0, 0, 0, n⟩ ⟨192, 168, 1, n⟩
        ⟨2, 0, 0, 0, 0, 1⟩ ⟨192, 168, 1, 1⟩).toFrame
      let steps : List (Step Adapter) := [
        .call 0 (.setUp true),
        .call 0 (.setMask ⟨255, 255, 255, 0⟩),
        .call 0 (.handleArp (reply 3)),
        .call 0 (.submit (.make { dest := ⟨192, 168, 1, 2⟩ } [] [7])),
        .call 0 .sendQueued,
        .call 1 (.submit (.make { dest := ⟨192, 168, 1, 2⟩ } [] [8])),
        .call 1 (.submit (.make { dest := ⟨192, 168, 1, 3⟩ } [] [9]))]
      let u := (run steps s).state
      let late := run [.call 2 .sendQueued, .call 2 (.handleArp (reply 2))] u
      let early := run [.call 2 (.handleArp (reply 2)), .call 2 .sendQueued] u
      Agree { address := ⟨192, 168, 1, 1⟩, mask := ⟨255, 255, 255, 0⟩ } late early ∧
        (shipped late).map (·.1.payload) = [[9], [7], [8]] ∧
        (shipped early).map (·.1.payload) = [[7], [8], [9]] := by
  obtain ⟨s, hc⟩ : ∃ s, ((create { address := ⟨192, 168, 1, 1⟩, mask := ⟨255, 255, 255, 0⟩ } 0).run
      ({ address := ⟨2, 0, 0, 0, 0, 1⟩ } : Adapter)).value = .ok s := ⟨_, rfl⟩
  refine ⟨s, hc, ?_⟩
  intro reply steps u late early
  have hm : Arp.Message.ofFrame (reply 2) = .ok (.isAt ⟨2, 0, 0, 0, 0, 2⟩ ⟨192, 168, 1, 2⟩
      ⟨2, 0, 0, 0, 0, 1⟩ ⟨192, 168, 1, 1⟩) := Arp.Message.ofFrame_toFrame _
  have hs : ∀ step ∈ steps,
      step.KeepsNetwork { address := ⟨192, 168, 1, 1⟩, mask := ⟨255, 255, 255, 0⟩ } := by
    simp [steps, Step.KeepsNetwork, Call.KeepsNetwork]
  have hagree := answer_early_or_late hc steps hs hm (by decide)
  cases hc
  refine ⟨hagree (by decide +kernel) (by decide +kernel) (by decide +kernel) 2 (by decide +kernel)
    (by decide +kernel), ?_, ?_⟩
  · decide +kernel
  · decide +kernel

end Interface
end LinkLayer
