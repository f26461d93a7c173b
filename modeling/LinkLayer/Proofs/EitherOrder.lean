import LinkLayer.Proofs.EarlyAnswer
import LinkLayer.Proofs.Hearing
import LinkLayer.Proofs.Learning
import LinkLayer.Proofs.ReceiveCounts

/-!
Neighbours that are heard at one time. Main statements: if they are different hosts and there is
room for all of them, they may be heard in any order (`any_order`), so two of them in either order
(`either_order`).
-/
namespace LinkLayer

namespace Arp.Cache

variable {cache : Cache} {message : Message} {messages more : List Message} {ip : Ipv4.Address}

/-- The messages are from different hosts, and there is a free slot for each of these that is not
bound. -/
structure Welcomes (cache : Cache) (messages : List Message) : Prop where
  specified : ∀ message ∈ messages, message.senderIp ≠ .unspecified
  distinct : (messages.map (·.senderIp)).Nodup
  room : cache.count + messages.countP (fun message => (cache.lookup message.senderIp).isNone) ≤
    cache.capacity

namespace Welcomes

theorem perm (h : cache.Welcomes messages) (hp : messages.Perm more) : cache.Welcomes more where
  specified := fun message hm => h.specified message (hp.mem_iff.mpr hm)
  distinct := (hp.map _).nodup_iff.mp h.distinct
  room := hp.countP_eq _ ▸ h.room

theorem bound_or_room (h : cache.Welcomes (message :: messages)) :
    (cache.lookup message.senderIp).isSome ∨ cache.count < cache.capacity := by
  have hr := h.room
  cases hl : cache.lookup message.senderIp with
  | some mac => exact .inl rfl
  | none =>
    simp only [List.countP_cons, hl, Option.isNone_none, if_true] at hr
    exact .inr (by omega)

theorem learn_eq (h : cache.Welcomes (message :: messages)) :
    cache.learn message = cache.insert message.senderIp message.senderMac :=
  if_neg (h.specified message List.mem_cons_self)

/-- The first one is bound and no other binding changes. -/
theorem lookup_learn (h : cache.Welcomes (message :: messages)) (ip : Ipv4.Address) :
    (cache.learn message).lookup ip =
      if ip = message.senderIp then some message.senderMac else cache.lookup ip := by
  rw [h.learn_eq, lookup_insert h.bound_or_room]

theorem count_learn (h : cache.Welcomes (message :: messages)) :
    (cache.learn message).count =
      cache.count + if (cache.lookup message.senderIp).isNone then 1 else 0 := by
  rw [h.learn_eq, count_insert h.bound_or_room]

/-- Who is not bound yet is still not bound when the first one is. -/
theorem countP_learn (h : cache.Welcomes (message :: messages)) :
    messages.countP (fun other => ((cache.learn message).lookup other.senderIp).isNone) =
      messages.countP fun other => (cache.lookup other.senderIp).isNone := by
  refine List.countP_congr fun other ho => ?_
  have hne : other.senderIp ≠ message.senderIp := by
    intro he
    have hm : other.senderIp ∈ messages.map (·.senderIp) := List.mem_map_of_mem ho
    rw [he] at hm
    exact (List.nodup_cons.mp h.distinct).1 hm
  rw [h.lookup_learn, if_neg hne]

/-- There is still room for the others when the first one was heard. -/
theorem learn (h : cache.Welcomes (message :: messages)) :
    (cache.learn message).Welcomes messages where
  specified := fun other ho => h.specified other (List.mem_cons_of_mem _ ho)
  distinct := (List.nodup_cons.mp h.distinct).2
  room := by
    have hr := h.room
    rw [List.countP_cons] at hr
    rw [h.countP_learn, h.count_learn, capacity_learn]
    omega

/-- Who said nothing is bound as before. -/
theorem lookup_of_silent (h : cache.Welcomes messages) (hs : ip ∉ messages.map (·.senderIp)) :
    (messages.foldl Cache.learn cache).lookup ip = cache.lookup ip := by
  induction messages generalizing cache with
  | nil => rfl
  | cons message messages ih =>
    rw [List.map_cons, List.mem_cons, not_or] at hs
    rw [List.foldl_cons, ih h.learn hs.2, h.lookup_learn, if_neg hs.1]

/-- All are bound in the end. -/
theorem lookup_of_mem (h : cache.Welcomes messages) (hm : message ∈ messages) :
    (messages.foldl Cache.learn cache).lookup message.senderIp = some message.senderMac := by
  induction messages generalizing cache with
  | nil => cases hm
  | cons first messages ih =>
    rw [List.foldl_cons]
    rcases List.mem_cons.mp hm with rfl | hm
    · rw [h.learn.lookup_of_silent (List.nodup_cons.mp h.distinct).1, h.lookup_learn, if_pos rfl]
    · exact ih h.learn hm

/-- The order makes no difference for what is bound. -/
theorem lookup_perm (h : cache.Welcomes messages) (hp : messages.Perm more) (ip : Ipv4.Address) :
    (messages.foldl Cache.learn cache).lookup ip = (more.foldl Cache.learn cache).lookup ip := by
  by_cases hs : ip ∈ messages.map (·.senderIp)
  · obtain ⟨message, hm, rfl⟩ := List.mem_map.mp hs
    rw [h.lookup_of_mem hm, (h.perm hp).lookup_of_mem (hp.mem_iff.mp hm)]
  · have hs' : ip ∉ more.map (·.senderIp) := fun hm => hs ((hp.map _).mem_iff.mpr hm)
    rw [h.lookup_of_silent hs, (h.perm hp).lookup_of_silent hs']

theorem count_foldl (h : cache.Welcomes messages) :
    (messages.foldl Cache.learn cache).count =
      cache.count + messages.countP fun message => (cache.lookup message.senderIp).isNone := by
  induction messages generalizing cache with
  | nil => rfl
  | cons message messages ih =>
    rw [List.foldl_cons, ih h.learn, h.countP_learn, h.count_learn, List.countP_cons]
    omega

end Welcomes

end Arp.Cache

/-- Whether the frame is an ARP reply. -/
def Ethernet.isArpReply (frame : Bytes) : Bool :=
  match Arp.Message.ofFrame ⟨frame⟩ with
  | .ok message => message.operation = .reply
  | .error _ => false

namespace Bearings

variable {b b' : Bearings} {now : Time} {message : Arp.Message} {d : Datagram} {ds : List Datagram}

/-- None of these datagrams can be sent. -/
def Unresolved (b : Bearings) (ds : List Datagram) : Prop :=
  ∀ d ∈ ds, ∃ hop, b.config.route b.cache d = .ok (.unresolved hop)

/-- Plans are made with what is bound, whatever slots it takes. -/
theorem plan_congr (hc : b'.config = b.config)
    (hl : ∀ ip, b'.cache.lookup ip = b.cache.lookup ip) : b'.plan = b.plan := by
  funext now d
  have hroute : b'.config.route b'.cache d = b.config.route b.cache d := by
    rw [hc]
    rcases b.config.route_cases d with ⟨reason, hr⟩ | ⟨hop, hr⟩
    · rw [hr, hr]
    · rw [hr, hr, hl]
  rw [plan, plan, hroute]

theorem unresolved_waits (b : Bearings) (now : Time) (ds : List Datagram) :
    b.Unresolved (b.waits now ds) := by
  intro d hd
  have ha := (List.mem_filter.mp hd).2
  cases he : d.isExpired now with
  | true =>
    rw [b.plan_of_expired he] at ha
    cases ha
  | false =>
    cases hr : b.config.route b.cache d with
    | error reason =>
      rw [plan_of_refused he hr] at ha
      cases ha
    | ok route =>
      cases route with
      | unresolved hop => exact ⟨hop, rfl⟩
      | resolved hop mac =>
        rw [plan_of_resolved he hr] at ha
        cases ha

/-- What waits for a neighbour is sent to it if it is bound. -/
theorem plan_of_waiting {hop : Ipv4.Address} (he : d.isExpired now = false)
    (h : b.config.route b.cache d = .ok (.unresolved hop)) (cache : Arp.Cache) :
    { b with cache := cache }.plan now d = match cache.lookup hop with
      | none => .ask hop
      | some mac => .send hop mac := by
  rcases b.config.route_cases d with ⟨reason, hr⟩ | ⟨other, hr⟩
  · rw [hr] at h
    cases h
  · obtain rfl : other = hop := by
      rw [hr] at h
      cases ho : b.cache.lookup other <;> simp_all
    simp only [plan, he, hr]
    cases cache.lookup other <;> rfl

theorem filter_frames (b : Bearings) (now : Time) (ds : List Datagram) :
    (b.frames now ds).filter Ethernet.isArpReply = [] := by
  rw [List.filter_eq_nil_iff]
  intro frame hf
  cases hm : Arp.Message.ofFrame ⟨frame⟩ with
  | error reason => simp [Ethernet.isArpReply, hm]
  | ok message => simp [Ethernet.isArpReply, hm, Interface.request_of_mem_frames hf hm]

theorem filter_reply (b : Bearings) (message : Arp.Message) :
    (b.reply? message).toList.filter Ethernet.isArpReply = (b.reply? message).toList := by
  rw [List.filter_eq_self]
  intro frame hf
  rw [Option.mem_toList, reply?] at hf
  split at hf
  · cases hf
    rw [Ethernet.isArpReply, Arp.Message.ofFrame_toFrame]
    rfl
  · cases hf

end Bearings

namespace Interface

variable {τ : Type} [FiniteTransport τ] {now : Time} {s t u : Interface τ}
  {events more : List Event} {message : Arp.Message} {messages : List Arp.Message}
  {ds : List Datagram}

/-- The bearings once all of these messages were accepted. -/
def heedingAll (s : Interface τ) (messages : List Arp.Message) : Bearings :=
  { s.bearings with cache := messages.foldl Arp.Cache.learn s.cache }

/-- Between the two states these messages were heard, and each datagram that was deferred met the
lot that it has with all of them. -/
structure HeardAll (now : Time) (messages : List Arp.Message) (s t : Interface τ)
    (events : List Event) : Prop where
  state : ∃ device framer counters, t = { s with
    cache := messages.foldl Arp.Cache.learn s.cache
    deferred := .ofList ((s.heedingAll messages).waits now s.deferred.toList)
    device, framer, counters }
  shipped : ∃ shipments,
    shipments.Perm ((s.heedingAll messages).shipments now s.deferred.toList) ∧
      Shipped shipments
        (s.deferred.toList.countP fun d => ((s.heedingAll messages).plan now d).refuses)
        (s.deferred.toList.countP fun d => ((s.heedingAll messages).plan now d).expires)
        s t events
  requests : t.counters.arp.requests =
    s.counters.arp.requests + messages.countP (·.isFor s.config.address .request)
  answers : t.counters.arp.answers =
    s.counters.arp.answers + messages.countP (·.isFor s.config.address .reply)
  replies : (events.filterMap Event.written?).filter Ethernet.isArpReply =
    messages.filterMap s.bearings.reply?

theorem heardAll_one (h : Heard now message s { value := (), state := t, events })
    (hn : Unfailed events) : HeardAll now [message] s t events := by
  obtain ⟨hplanned, hstate, hwritten⟩ := planned_heard h hn fun d _ => Clock.agrees_still now d
  have hcounted := (idle_heard h).inward
  refine ⟨hstate, ⟨_, .refl _, hplanned⟩, ?_, ?_, ?_⟩
  · rw [List.countP_singleton]
    exact congrArg (·.arp.requests) hcounted
  · rw [List.countP_singleton]
    exact congrArg (·.arp.answers) hcounted
  · rw [hwritten, List.filter_append, Bearings.filter_frames, Bearings.filter_reply,
      List.append_nil, List.filterMap_eq_flatMap_toList, List.flatMap_singleton]
    rfl

omit [FiniteTransport τ] in
/-- A datagram that goes out or is given up when the first message was heard fares no better or
worse when all were. -/
theorem extends_heeding (hw : s.cache.Welcomes (message :: messages))
    (hd : s.bearings.Unresolved ds) (now : Time) :
    Bearings.Extends (s.heedingAll [message]) (s.heedingAll (message :: messages)) now ds where
  source := rfl
  plan := by
    intro d hm ha
    cases he : d.isExpired now with
    | true => rw [Bearings.plan_of_expired _ he, Bearings.plan_of_expired _ he]
    | false =>
      obtain ⟨hop, hroute⟩ := hd d hm
      have hnone := (Config.hop_of_unresolved hroute).2
      have hone := Bearings.plan_of_waiting he hroute (s.cache.learn message)
      have hall := Bearings.plan_of_waiting he hroute
        ((message :: messages).foldl Arp.Cache.learn s.cache)
      -- Only what waited for the first sender does not wait any more, and it is bound for good.
      by_cases hi : hop = message.senderIp
      · subst hi
        rw [hw.lookup_learn, if_pos rfl] at hone
        rw [hw.lookup_of_mem List.mem_cons_self] at hall
        exact hall.trans hone.symm
      · rw [hw.lookup_learn, if_neg hi, show s.cache.lookup hop = none from hnone] at hone
        rw [show (s.heedingAll [message]).plan now d = .ask hop from hone] at ha
        cases ha

omit [FiniteTransport τ] in
theorem HeardAll.unresolved (h : HeardAll now messages s t events) :
    t.bearings.Unresolved t.deferred.toList := by
  obtain ⟨_, _, _, rfl⟩ := h.state
  rw [Fifo.toList_ofList]
  exact Bearings.unresolved_waits (s.heedingAll messages) now s.deferred.toList

omit [FiniteTransport τ] in
/-- What was heard first and what was heard then come to all that was heard. -/
theorem HeardAll.cons (h : HeardAll now [message] s t events)
    (h' : HeardAll now messages t u more) (hw : s.cache.Welcomes (message :: messages))
    (hd : s.bearings.Unresolved s.deferred.toList) :
    HeardAll now (message :: messages) s u (events ++ more) := by
  obtain ⟨_, _, _, ht⟩ := h.state
  obtain ⟨device, framer, counters, hu⟩ := h'.state
  obtain ⟨first, hfirst, hshipped⟩ := h.shipped
  obtain ⟨second, hsecond, hshipped'⟩ := h'.shipped
  have hbearings : t.heedingAll messages = s.heedingAll (message :: messages) := by
    rw [ht]
    rfl
  have hdeferred : t.deferred.toList = (s.heedingAll [message]).waits now s.deferred.toList := by
    rw [ht]
    exact Fifo.toList_ofList _
  have hconfig : t.config = s.config := by rw [ht]
  have hreply : t.bearings.reply? = s.bearings.reply? := by
    rw [ht]
    rfl
  rw [hbearings, hdeferred] at hu hsecond hshipped'
  have hextends := extends_heeding hw hd now
  have hwaits := hextends.waits_late []
  have hshipments := hextends.shipments_late []
  have hrefused := hextends.countP_late Plan.not_refuses_of_asks []
  have hexpired := hextends.countP_late Plan.not_expires_of_asks []
  rw [List.nil_append, List.nil_append] at hwaits hshipments hrefused hexpired
  refine ⟨⟨device, framer, counters, ?_⟩, ⟨first ++ second, ?_, ?_⟩, ?_, ?_, ?_⟩
  · rw [hu, hwaits, ht]
    rfl
  · exact (hfirst.append hsecond).trans hshipments
  · have hboth := hshipped.append hshipped'
    rwa [hrefused, hexpired] at hboth
  · rw [h'.requests, h.requests, hconfig, Nat.add_assoc, ← List.countP_append,
      List.singleton_append]
  · rw [h'.answers, h.answers, hconfig, Nat.add_assoc, ← List.countP_append,
      List.singleton_append]
  · rw [List.filterMap_append, List.filter_append, h.replies, h'.replies, hreply,
      ← List.filterMap_append, List.singleton_append]

/-- The calls that handle these frames, one after another at one time. -/
def hearing (now : Time) (frames : List Ethernet.Frame) : List (Step τ) :=
  frames.map fun frame => .call now (.handleArp frame)

/-- However many neighbours there is room for, all that is deferred meets the lot that it has when
all of them were heard. -/
theorem heardAll_run {heard : List (Ethernet.Frame × Arp.Message)} (hne : heard ≠ [])
    (hm : ∀ p ∈ heard, Arp.Message.ofFrame p.1 = .ok p.2)
    (hw : s.cache.Welcomes (heard.map (·.2))) (hd : s.bearings.Unresolved s.deferred.toList)
    (hn : Unfailed (happened (run (hearing now (heard.map (·.1))) s).history)) :
    HeardAll now (heard.map (·.2)) s (run (hearing now (heard.map (·.1))) s).state
      (happened (run (hearing now (heard.map (·.1))) s).history) := by
  -- If none is heard, what has expired is still deferred: the shortest run is one of one call.
  induction heard generalizing s with
  | nil => exact absurd rfl hne
  | cons p heard ih =>
    rw [List.forall_mem_cons] at hm
    change Unfailed (((perform now (.handleArp p.1)).run s).events ++ _) at hn
    obtain ⟨hn, hn'⟩ := unfailed_append.mp hn
    have hfirst := heardAll_one (heard_perform hm.1 now s) hn
    cases heard with
    | nil =>
      have hevents : happened (run (hearing now [p.1]) s).history =
          ((perform now (.handleArp p.1)).run s).events := List.append_nil _
      exact hevents ▸ hfirst
    | cons q heard =>
      have hroom : ((perform now (.handleArp p.1)).run s).state.cache.Welcomes
          ((q :: heard).map (·.2)) := by
        obtain ⟨_, _, _, hs⟩ := hfirst.state
        rw [hs]
        exact hw.learn
      have hthen := ih (List.cons_ne_nil _ _) hm.2 hroom hfirst.unresolved hn'
      exact hfirst.cons hthen hw hd

/-- Two runs leave the same, but that the bindings may have other slots, and wrote the same IPv4
frames and ARP replies, perhaps in another order. -/
structure Alike (first second : Left τ) : Prop where
  lookup : ∀ ip, first.state.cache.lookup ip = second.state.cache.lookup ip
  count : first.state.cache.count = second.state.cache.count
  deferred : first.state.deferred = second.state.deferred
  sendQueue : first.state.sendQueue = second.state.sendQueue
  receiveQueue : first.state.receiveQueue = second.state.receiveQueue
  requests : first.state.counters.arp.requests = second.state.counters.arp.requests
  answers : first.state.counters.arp.answers = second.state.counters.arp.answers
  counted : first.state.counters.send.ip = second.state.counters.send.ip
  dropped : first.state.counters.totals.dropped = second.state.counters.totals.dropped
  expired : first.state.counters.totals.expired = second.state.counters.totals.expired
  frames : ((happened first.history).filterMap ipv4Frame?).Perm
    ((happened second.history).filterMap ipv4Frame?)
  replies : (((happened first.history).filterMap Event.written?).filter Ethernet.isArpReply).Perm
    (((happened second.history).filterMap Event.written?).filter Ethernet.isArpReply)

omit [FiniteTransport τ] in
theorem plan_heedingAll (hw : s.cache.Welcomes messages) {others : List Arp.Message}
    (hp : messages.Perm others) :
    (s.heedingAll others).plan = (s.heedingAll messages).plan :=
  Bearings.plan_congr rfl fun ip => (hw.lookup_perm hp ip).symm

omit [FiniteTransport τ] in
/-- What was heard in one order and what was heard in another come to the same. -/
theorem HeardAll.alike {first second : Left τ} {others : List Arp.Message}
    (h : HeardAll now messages s first.state (happened first.history))
    (h' : HeardAll now others s second.state (happened second.history))
    (hw : s.cache.Welcomes messages) (hp : messages.Perm others) : Alike first second := by
  have hplan := plan_heedingAll hw hp
  have hwaits : (s.heedingAll others).waits now s.deferred.toList =
      (s.heedingAll messages).waits now s.deferred.toList := by
    simp only [Bearings.waits, hplan]
  have hshipments : (s.heedingAll others).shipments now s.deferred.toList =
      (s.heedingAll messages).shipments now s.deferred.toList := by
    simp only [Bearings.shipments, hplan]
    rfl
  obtain ⟨_, _, _, hs⟩ := h.state
  obtain ⟨_, _, _, hs'⟩ := h'.state
  obtain ⟨shipments, hperm, hshipped⟩ := h.shipped
  obtain ⟨shipments', hperm', hshipped'⟩ := h'.shipped
  rw [hshipments] at hperm'
  rw [hplan] at hshipped'
  have hsame : shipments.Perm shipments' := hperm.trans hperm'.symm
  refine ⟨?_, ?_, ?_, ?_, ?_, ?_, ?_, ?_, ?_, ?_, ?_, ?_⟩
  · rw [hs, hs']
    exact hw.lookup_perm hp
  · rw [hs, hs', hw.count_foldl, (hw.perm hp).count_foldl, hp.countP_eq]
  · rw [hs, hs', hwaits]
  · rw [hs, hs']
  · rw [hs, hs']
  · rw [h.requests, h'.requests, hp.countP_eq]
  · rw [h.answers, h'.answers, hp.countP_eq]
  · rw [hshipped.counted, hshipped'.counted, hsame.length_eq]
  · rw [hshipped.dropped, hshipped'.dropped]
  · rw [hshipped.expired, hshipped'.expired]
  · rw [hshipped.frames, hshipped'.frames]
    exact hsame.map _
  · rw [h.replies, h'.replies]
    exact hp.filterMap _

/-- Different neighbours that there is room for may be heard in any order. -/
theorem any_order {heard others : List (Ethernet.Frame × Arp.Message)} (hp : heard.Perm others)
    (hm : ∀ p ∈ heard, Arp.Message.ofFrame p.1 = .ok p.2)
    (hw : s.cache.Welcomes (heard.map (·.2))) (hd : s.bearings.Unresolved s.deferred.toList)
    (now : Time) :
    let first := run (hearing now (heard.map (·.1))) s
    let second := run (hearing now (others.map (·.1))) s
    Unfailed (happened first.history) → Unfailed (happened second.history) →
      Alike first second := by
  intro first second hn hn'
  by_cases hne : heard = []
  · subst hne
    obtain rfl := hp.nil_eq
    exact ⟨fun _ => rfl, rfl, rfl, rfl, rfl, rfl, rfl, rfl, rfl, rfl, .refl _, .refl _⟩
  have hmessages := hp.map (·.2)
  have hne' : others ≠ [] := fun he => hne (he ▸ hp).eq_nil
  have hm' : ∀ p ∈ others, Arp.Message.ofFrame p.1 = .ok p.2 := fun p ho => hm p (hp.mem_iff.mpr ho)
  have h : HeardAll now (heard.map (·.2)) s first.state (happened first.history) :=
    heardAll_run hne hm hw hd hn
  have h' : HeardAll now (others.map (·.2)) s second.state (happened second.history) :=
    heardAll_run hne' hm' (hw.perm hmessages) hd hn'
  exact h.alike h' hw hmessages

/-- Two neighbours that are heard at one time may be heard in either order as long as the network
was not changed and the adapter takes every frame. Those that are not bound need a free slot
each. -/
theorem either_order {config : Config} {time : Time} {transport : τ}
    (hc : ((create config time).run transport).value = .ok s) (steps : List (Step τ))
    (hs : ∀ step ∈ steps, step.KeepsNetwork config) {f g : Ethernet.Frame} {m n : Arp.Message}
    (hm : Arp.Message.ofFrame f = .ok m) (hn : Arp.Message.ofFrame g = .ok n)
    (hne : m.senderIp ≠ n.senderIp) (hm' : m.senderIp ≠ .unspecified)
    (hn' : n.senderIp ≠ .unspecified)
    (hr : (run steps s).state.cache.count + [m, n].countP (fun message =>
      ((run steps s).state.cache.lookup message.senderIp).isNone) ≤
        (run steps s).state.cache.capacity)
    (now : Time) :
    let u := (run steps s).state
    let first := run [.call now (.handleArp f), .call now (.handleArp g)] u
    let second := run [.call now (.handleArp g), .call now (.handleArp f)] u
    Unfailed (happened first.history) → Unfailed (happened second.history) →
      Alike first second := by
  intro u first second
  have hw : u.cache.Welcomes [m, n] := ⟨by simp [hm', hn'], by simp [hne], hr⟩
  have hd : u.bearings.Unresolved u.deferred.toList := by
    obtain ⟨hconfig, hunresolved⟩ := unresolved_of_create hc steps hs
    intro d hd
    obtain ⟨hop, hroute⟩ := hunresolved d hd
    rw [← hconfig] at hroute
    exact ⟨hop, hroute⟩
  have hheard : ∀ p ∈ [(f, m), (g, n)], Arp.Message.ofFrame p.1 = .ok p.2 := by simp [hm, hn]
  exact any_order (.swap (g, n) (f, m) []) hheard hw hd now

/-- One neighbour asks and another one answers, and they take the last two slots. What waits for
whoever is heard first is sent first. -/
theorem either_order_four :
    ∃ s : Interface Adapter,
      ((create {
        address := ⟨192, 168, 1, 1⟩
        mask := ⟨255, 255, 255, 0⟩
        cacheCapacity := 3 } 0).run ({ address := ⟨2, 0, 0, 0, 0, 1⟩ } : Adapter)).value = .ok s ∧
      let letter (n : UInt8) := Datagram.make { dest := ⟨192, 168, 1, n⟩ } [] [n]
      let reply (n : UInt8) := Arp.Message.isAt ⟨2, 0, 0, 0, 0, n⟩ ⟨192, 168, 1, n⟩
        ⟨2, 0, 0, 0, 0, 1⟩ ⟨192, 168, 1, 1⟩
      let asks := Arp.Message.whoHas ⟨2, 0, 0, 0, 0, 2⟩ ⟨192, 168, 1, 2⟩ ⟨192, 168, 1, 1⟩
      let steps : List (Step Adapter) := [.call 0 (.setUp true),
        .call 0 (.handleArp (reply 3).toFrame), .call 0 (.submit (letter 2)),
        .call 0 (.submit (letter 4)), .call 0 (.submit (letter 2)), .call 0 (.submit (letter 5)),
        .call 0 .sendQueued]
      let u := (run steps s).state
      let first := run [.call 1 (.handleArp asks.toFrame),
        .call 1 (.handleArp (reply 4).toFrame)] u
      let second := run [.call 1 (.handleArp (reply 4).toFrame),
        .call 1 (.handleArp asks.toFrame)] u
      u.cache.entries.map (·.ip) = [⟨192, 168, 1, 3⟩] ∧
        u.deferred.toList.map (·.payload) = [[2], [4], [2], [5]] ∧ Alike first second ∧
        (shipped first).map (·.1.payload) = [[2], [2], [4]] ∧
        (shipped second).map (·.1.payload) = [[4], [2], [2]] := by
  obtain ⟨s, hc⟩ : ∃ s, ((create {
      address := ⟨192, 168, 1, 1⟩
      mask := ⟨255, 255, 255, 0⟩
      cacheCapacity := 3 } 0).run ({ address := ⟨2, 0, 0, 0, 0, 1⟩ } : Adapter)).value = .ok s :=
    ⟨_, rfl⟩
  refine ⟨s, hc, ?_⟩
  intro letter reply asks steps u first second
  have hs : ∀ step ∈ steps, step.KeepsNetwork
      { address := ⟨192, 168, 1, 1⟩, mask := ⟨255, 255, 255, 0⟩, cacheCapacity := 3 } := by
    simp [steps, Step.KeepsNetwork, Call.KeepsNetwork]
  have halike := either_order hc steps hs (Arp.Message.ofFrame_toFrame asks)
    (Arp.Message.ofFrame_toFrame (reply 4)) (by decide) (by decide) (by decide)
  have hbound : u.cache.entries.map (·.ip) = [⟨192, 168, 1, 3⟩] := by
    cases hc
    decide +kernel
  have hdeferred : u.deferred.toList.map (·.payload) = [[2], [4], [2], [5]] := by
    cases hc
    decide +kernel
  refine ⟨hbound, hdeferred, ?_⟩
  cases hc
  refine ⟨?_, by decide +kernel, by decide +kernel⟩
  exact halike (by decide +kernel) 1 (by decide +kernel) (by decide +kernel)

end Interface
end LinkLayer
