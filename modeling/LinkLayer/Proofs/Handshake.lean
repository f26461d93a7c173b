import LinkLayer.Proofs.Bindings
import LinkLayer.Proofs.Delivery
import LinkLayer.Proofs.Faultless
import LinkLayer.Proofs.Intake

/-!
Two new interfaces that have to find each other first. Main statement: however many datagrams one
side has for the other, and though it asks and is answered once for each, they all arrive, in order,
and nothing is lost (`handshake`).
-/
namespace LinkLayer

open Interface

/-- The unspecified address is no host, whatever the mask. -/
theorem Ipv4.Address.ne_unspecified_of_namesHost {ip mask : Address}
    (h : ip.namesHost mask = true) : ip ≠ unspecified := by
  rintro rfl
  simp [namesHost, host, unspecified] at h

theorem Arp.Cache.count_empty (n : Nat) : (empty n).count = 0 := by
  rw [← length_entries, entries_empty, List.length_nil]

/-- Where there is room the sender of a message is bound. -/
theorem Arp.Cache.lookup_learn {cache : Cache} {message : Message}
    (hi : message.senderIp ≠ .unspecified) (hr : cache.count < cache.capacity) :
    (cache.learn message).lookup message.senderIp = some message.senderMac := by
  rw [learn, if_neg hi, lookup_insert (.inr hr), if_pos rfl]

/-- What is known already is not learned again. -/
theorem Arp.Cache.learn_of_lookup {cache : Cache} {message : Message}
    (h : cache.lookup message.senderIp = some message.senderMac) : cache.learn message = cache := by
  rw [learn, insert_of_lookup h, ite_self]

/-- The first of equal messages teaches all that they tell. -/
theorem Arp.Cache.iterate_learn {cache : Cache} {message : Message}
    (h : (cache.learn message).lookup message.senderIp = some message.senderMac) (n : Nat) :
    (·.learn message)^[n + 1] cache = cache.learn message := by
  rw [Function.iterate_succ_apply]
  exact Function.iterate_fixed (learn_of_lookup h) n

theorem Arp.Cache.lookup_iterate_learn {cache : Cache} {message : Message} {n : Nat}
    (h : (cache.learn message).lookup message.senderIp = some message.senderMac) (hn : n ≠ 0) :
    ((·.learn message)^[n] cache).lookup message.senderIp = some message.senderMac := by
  obtain ⟨n, rfl⟩ := Nat.exists_eq_add_one_of_ne_zero hn
  rwa [iterate_learn h]

/-- An ARP frame is handled as one, whoever it goes to. -/
theorem Arp.Message.handledKind_toFrame (message : Message) :
    Ethernet.handledKind message.toFrame.bytes = .ok .arp := rfl

theorem Datagram.handledKind_toFrame {dest : MacAddress} (h : dest ≠ .broadcast) (d : Datagram)
    (source : MacAddress) : Ethernet.handledKind (d.toFrame dest source).bytes = .ok .ipv4 := by
  have hb : Ethernet.Frame.ofBytes (d.toFrame dest source).bytes = .ok (d.toFrame dest source) := by
    rw [Ethernet.Frame.ofBytes_ok_iff]
    refine ⟨?_, rfl⟩
    have hl := d.length_toFrame dest source
    simp only [Ethernet.Frame.length, Ethernet.minLength] at hl
    rw [hl, Ethernet.headerLength]
    omega
  have hk : (d.toFrame dest source).kind = .ok .ipv4 := by
    have hn : dest.isBroadcast = false := by simpa [MacAddress.isBroadcast] using h
    simp [Ethernet.Frame.kind, etherType_toFrame, dest_toFrame, hn, bind, Except.bind]
  simp only [Ethernet.handledKind, hb, hk]

/-- The datagram that its frame leaves in the queue for the host. -/
def Datagram.arrived (d : Datagram) (expiry : Time) : Datagram :=
  { header := d.header, options := d.options, payload := d.payload, expiry := some expiry }

theorem Datagram.isExpired_arrived (d : Datagram) (expiry now : Time) :
    (d.arrived expiry).isExpired now = decide (expiry ≤ now) := rfl

/-- What the frames of these datagrams leave there. The lifetime of each begins after the read of
its frame. -/
def Datagram.arrivedInTurn (lifetime : Nat) : Clock → List Datagram → List Datagram
  | _, [] => []
  | clock, d :: ds =>
    d.arrived (clock.later.time + lifetime) :: arrivedInTurn lifetime clock.nextFrame ds

@[simp] theorem Datagram.length_arrivedInTurn (lifetime : Nat) (clock : Clock)
    (ds : List Datagram) : (arrivedInTurn lifetime clock ds).length = ds.length := by
  induction ds generalizing clock with
  | nil => rfl
  | cons d ds ih => exact congrArg (· + 1) (ih _)

/-- The clock is asked once for the read of a frame and then for its datagram. -/
theorem Datagram.exists_of_mem_arrivedInTurn {lifetime : Nat} {clock : Clock} {ds : List Datagram}
    {e : Datagram} (h : e ∈ arrivedInTurn lifetime clock ds) :
    ∃ d ∈ ds, ∃ i, e = d.arrived (clock.reading i 1 + lifetime) := by
  induction ds generalizing clock with
  | nil => cases h
  | cons d ds ih =>
    rcases List.mem_cons.mp h with rfl | h
    · exact ⟨d, List.mem_cons_self, 0, by rw [Clock.time, Clock.reading_later]⟩
    · obtain ⟨d, hd, i, rfl⟩ := ih h
      exact ⟨d, List.mem_cons_of_mem _ hd, i + 1, by rw [Clock.reading_nextFrame]⟩

@[simp] theorem Datagram.arrivedInTurn_still (lifetime : Nat) (now : Time) (ds : List Datagram) :
    arrivedInTurn lifetime now ds = ds.map (·.arrived (now + lifetime)) := by
  induction ds with
  | nil => rfl
  | cons d ds ih => exact congrArg (List.cons _) ih

namespace Config

variable {config : Config}

theorem limits_of_validate (h : config.validate = .ok ()) :
    0 < config.cacheCapacity ∧ config.mtu.toNat ≤ 1500 := by
  simp only [validate] at h
  split at h
  · cases h
  rename_i hc
  split at h
  · cases h
  rename_i hm
  rw [not_or, UInt16.not_lt, UInt16.le_iff_toNat_le] at hm
  exact ⟨Nat.pos_of_ne_zero hc, hm.2⟩

/-- A datagram to a host on the local network is sent there if that host is bound. -/
theorem route_of_local {d : Datagram} (hf : d.Fits) (hm : d.ipLength ≤ config.mtu.toNat)
    (hh : d.destination.namesHost config.mask = true) (hl : config.isLocal d.destination = true)
    (cache : Arp.Cache) :
    config.route cache d = .ok (match cache.lookup d.destination with
      | none => .unresolved d.destination
      | some mac => .resolved d.destination mac) := by
  obtain ⟨ho, hw, hi⟩ := hf
  have hmax := Datagram.frameLength_le_iff.mpr hi
  simp only [route, nextHop?, hh, hl, if_true]
  rw [if_neg (by omega), if_neg (by omega), if_neg (by decide)]
  cases cache.lookup d.destination <;> rfl

end Config

namespace Bearings

variable {b : Bearings} {now : Time} {ip : Ipv4.Address} {mac : MacAddress} {ds : List Datagram}

/-- A datagram for a neighbour. It only takes the binding to send it. -/
structure Sendable (b : Bearings) (now : Time) (ip : Ipv4.Address) (d : Datagram) : Prop where
  fresh : d.isExpired now = false
  route : ∀ cache, b.config.route cache d = .ok (match cache.lookup ip with
    | none => .unresolved ip
    | some mac => .resolved ip mac)

theorem Sendable.plan {d : Datagram} (h : b.Sendable now ip d) :
    b.plan now d = match b.cache.lookup ip with
      | none => .ask ip
      | some mac => .send ip mac := by
  have hr := h.route b.cache
  cases hl : b.cache.lookup ip with
  | none =>
    rw [hl] at hr
    exact plan_of_unresolved h.fresh hr
  | some mac =>
    rw [hl] at hr
    exact plan_of_resolved h.fresh hr

theorem frames_eq_map {f : Datagram → Bytes}
    (h : ∀ d ∈ ds, (b.plan now d).frame? b d = some (f d)) : b.frames now ds = ds.map f :=
  (List.filterMap_congr h).trans (congrFun List.filterMap_eq_map ds)

/-- Without the binding the neighbour is asked for once for each datagram, and all wait. -/
theorem of_unbound (hd : ∀ d ∈ ds, b.Sendable now ip d) (hl : b.cache.lookup ip = none) :
    b.waits now ds = ds ∧ b.frames now ds =
      List.replicate ds.length (Arp.Message.whoHas b.mac b.config.address ip).toFrame.bytes := by
  have hp : ∀ d ∈ ds, b.plan now d = .ask ip := fun d hm => by rw [(hd d hm).plan, hl]
  refine ⟨?_, ?_⟩
  · refine List.filter_eq_self.mpr fun d hm => ?_
    rw [hp d hm]
    rfl
  · rw [← List.map_const']
    refine frames_eq_map fun d hm => ?_
    rw [hp d hm]
    rfl

/-- With the binding each datagram is sent, and none waits. -/
theorem of_bound (hd : ∀ d ∈ ds, b.Sendable now ip d) (hl : b.cache.lookup ip = some mac) :
    b.waits now ds = [] ∧
      b.frames now ds = ds.map fun d => (d.toFrame mac b.mac).bytes := by
  have hp : ∀ d ∈ ds, b.plan now d = .send ip mac := fun d hm => by rw [(hd d hm).plan, hl]
  refine ⟨?_, ?_⟩
  · refine List.filter_eq_nil_iff.mpr fun d hm => ?_
    rw [hp d hm]
    exact Bool.false_ne_true
  · refine frames_eq_map fun d hm => ?_
    rw [hp d hm]
    rfl

end Bearings

namespace Situation

variable {v : Situation} {now : Time} {message : Arp.Message} {ip : Ipv4.Address}
  {mac : MacAddress} {ds : List Datagram}

/-- Nothing is lost of what only takes a binding. -/
theorem pass_of_sendable (hd : ∀ d ∈ ds, v.bearings.Sendable now ip d) :
    v.pass now ds = { v with outbox := v.outbox ++ v.bearings.frames now ds } := by
  have hr : (ds.countP fun d => (v.bearings.plan now d).refuses) = 0 := by
    refine List.countP_eq_zero.mpr fun d hm => ?_
    rw [(hd d hm).plan]
    cases v.bearings.cache.lookup ip <;> exact Bool.false_ne_true
  have he : (ds.countP fun d => (v.bearings.plan now d).expires) = 0 := by
    refine List.countP_eq_zero.mpr fun d hm => ?_
    rw [(hd d hm).plan]
    cases v.bearings.cache.lookup ip <;> exact Bool.false_ne_true
  rw [pass, hr, he, Nat.add_zero, Nat.add_zero]

theorem sendQueued_unbound (hd : ∀ d ∈ v.sendQueue, v.bearings.Sendable now ip d)
    (hl : v.bearings.cache.lookup ip = none) :
    v.sendQueued now = { v with
      sendQueue := []
      deferred := v.deferred ++ v.sendQueue
      outbox := v.outbox ++ List.replicate v.sendQueue.length
        (Arp.Message.whoHas v.bearings.mac v.bearings.config.address ip).toFrame.bytes } := by
  obtain ⟨hwaits, hframes⟩ := Bearings.of_unbound hd hl
  rw [sendQueued, pass_of_sendable hd, hwaits, hframes]

theorem takeIn_message (v : Situation) (now : Time) (message : Arp.Message) :
    v.takeIn now message.toFrame.bytes = v.hear now message := by
  have hm : Arp.Message.ofFrame ⟨message.toFrame.bytes⟩ = .ok message :=
    Arp.Message.ofFrame_toFrame message
  simp only [takeIn, Arp.Message.handledKind_toFrame, hm]

/-- Nothing waits, so a message is only learned and answered. -/
theorem hear_idle (hd : v.deferred = []) (now : Time) (message : Arp.Message) :
    v.hear now message =
      let bearings := { v.bearings with cache := v.bearings.cache.learn message }
      { v with bearings, outbox := v.outbox ++ (bearings.reply? message).toList } := by
  obtain ⟨bearings, isUp, sendQueue, deferred, receiveQueue, inbox, outbox, dropped, expired⟩ := v
  subst hd
  simp [hear, pass, Bearings.waits, Bearings.frames]

theorem takeIn_request (hd : v.deferred = []) (hi : message.targetIp = v.bearings.config.address)
    (ho : message.operation = .request) :
    v.takeIn now message.toFrame.bytes = { v with
      bearings.cache := v.bearings.cache.learn message
      outbox := v.outbox ++ [(Arp.Message.isAt v.bearings.mac v.bearings.config.address
        message.senderMac message.senderIp).toFrame.bytes] } := by
  have hr : Bearings.reply? { v.bearings with cache := v.bearings.cache.learn message } message =
    some _ := if_pos ⟨hi, ho⟩
  rw [takeIn_message, hear_idle hd]
  simp only [hr]
  rfl

/-- Requests for the own address are answered, one by one. -/
theorem handle_requests (clock : Clock) (message : Arp.Message) (n : Nat) (hd : v.deferred = [])
    (hi : message.targetIp = v.bearings.config.address) (ho : message.operation = .request) :
    v.handle clock (List.replicate n message.toFrame.bytes) =
      { v with
        bearings.cache := (·.learn message)^[n] v.bearings.cache
        outbox := v.outbox ++ List.replicate n (Arp.Message.isAt v.bearings.mac
          v.bearings.config.address message.senderMac message.senderIp).toFrame.bytes } := by
  induction n generalizing v clock with
  | zero => simp [handle]
  | succ n ih =>
    rw [List.replicate_succ, handle, takeIn_request hd hi ho]
    have hrest := ih clock.nextFrame (v := { v with
      bearings.cache := v.bearings.cache.learn message
      outbox := v.outbox ++ [(Arp.Message.isAt v.bearings.mac v.bearings.config.address
        message.senderMac message.senderIp).toFrame.bytes] }) hd hi
    refine hrest.trans ?_
    simp [List.replicate_succ]

/-- Replies that tell nothing new leave all as it was. -/
theorem handle_replies (clock : Clock) (n : Nat) (hd : v.deferred = [])
    (ho : message.operation = .reply)
    (hl : v.bearings.cache.lookup message.senderIp = some message.senderMac) :
    v.handle clock (List.replicate n message.toFrame.bytes) = v := by
  have hreply : v.bearings.reply? message = none := if_neg (by simp [ho])
  have honce (now : Time) : v.takeIn now message.toFrame.bytes = v := by
    rw [takeIn_message, hear_idle hd, Arp.Cache.learn_of_lookup hl]
    simp [hreply]
  induction n generalizing clock with
  | zero => rfl
  | succ n ih => rw [List.replicate_succ, handle, honce, ih]

/-- The reply releases all that waits for it. -/
theorem takeIn_answer (hd : ∀ d ∈ v.deferred, v.bearings.Sendable now message.senderIp d)
    (ho : message.operation = .reply)
    (hl : (v.bearings.cache.learn message).lookup message.senderIp = some message.senderMac) :
    v.takeIn now message.toFrame.bytes = { v with
      bearings.cache := v.bearings.cache.learn message
      deferred := []
      outbox := v.outbox ++
        v.deferred.map fun d => (d.toFrame message.senderMac v.bearings.mac).bytes } := by
  let b : Bearings := { v.bearings with cache := v.bearings.cache.learn message }
  have hb : ∀ d ∈ v.deferred, b.Sendable now message.senderIp d := fun d hm =>
    ⟨(hd d hm).fresh, (hd d hm).route⟩
  obtain ⟨hwaits, hframes⟩ := Bearings.of_bound hb hl
  have hreply : b.reply? message = none := if_neg (by simp [ho])
  have hpass := pass_of_sendable (v := { v with
    bearings := b, outbox := v.outbox ++ (b.reply? message).toList }) hb
  have hhear : v.hear now message = { { v with
    bearings := b, outbox := v.outbox ++ (b.reply? message).toList }.pass now v.deferred with
    deferred := b.waits now v.deferred } := rfl
  rw [takeIn_message, hhear, hpass, hwaits, hframes, hreply, Option.toList_none, List.append_nil]

/-- The first reply releases all that waits for it, and the others do nothing. -/
theorem handle_answers (clock : Clock) (message : Arp.Message)
    (hd : ∀ d ∈ v.deferred, v.bearings.Sendable clock.later.time message.senderIp d)
    (ho : message.operation = .reply)
    (hl : (v.bearings.cache.learn message).lookup message.senderIp = some message.senderMac) :
    v.handle clock (List.replicate v.deferred.length message.toFrame.bytes) =
      { v with
        bearings.cache := (·.learn message)^[v.deferred.length] v.bearings.cache
        deferred := []
        outbox := v.outbox ++
          v.deferred.map fun d => (d.toFrame message.senderMac v.bearings.mac).bytes } := by
  have hfirst := takeIn_answer hd ho hl
  cases hv : v.deferred with
  | nil =>
    simp only [List.length_nil, List.replicate_zero, handle, List.map_nil, List.append_nil,
      Function.iterate_zero, id_eq]
    rw [← hv]
  | cons d ds =>
    rw [List.length_cons, List.replicate_succ, handle, hfirst, handle_replies _ _ rfl ho hl, hv,
      Arp.Cache.iterate_learn hl]

/-- Frames with whole datagrams fill the queue for the host. -/
theorem handle_datagrams (clock : Clock) (source : MacAddress) (hm : mac ≠ .broadcast)
    (hd : ∀ d ∈ ds, d.Fits ∧ d.Consistent) :
    v.handle clock (ds.map fun d => (d.toFrame mac source).bytes) =
      { v with
        receiveQueue :=
          v.receiveQueue ++ Datagram.arrivedInTurn v.bearings.config.lifetime clock ds } := by
  induction ds generalizing v clock with
  | nil => simp [handle, Datagram.arrivedInTurn]
  | cons d ds ih =>
    obtain ⟨⟨hf, hc⟩, hd⟩ := List.forall_mem_cons.mp hd
    have hp : Ipv4.Packet.ofFrame ⟨(d.toFrame mac source).bytes⟩ = .ok _ :=
      Datagram.ofFrame_toFrame hf hc mac source
    have hone : v.takeIn clock.later.time (d.toFrame mac source).bytes = { v with
        receiveQueue := v.receiveQueue ++
          [d.arrived (clock.later.time + v.bearings.config.lifetime)] } := by
      simp only [takeIn, Datagram.handledKind_toFrame hm, hp]
      rfl
    rw [List.map_cons, handle, hone, ih _ hd]
    simp [Datagram.arrivedInTurn]

theorem takeReceived_of_fresh (hq : ∀ d ∈ v.receiveQueue, d.isExpired now = false) :
    v.takeReceived now = { v with receiveQueue := v.receiveQueue.tail } ∧
      v.receiveQueue.dropWhile (·.isExpired now) = v.receiveQueue := by
  have hdrop : v.receiveQueue.dropWhile (·.isExpired now) = v.receiveQueue := by
    cases hv : v.receiveQueue with
    | nil => rfl
    | cons d ds => exact List.dropWhile_cons_of_neg (by simp [hq d (by simp [hv])])
  have htake : v.receiveQueue.takeWhile (·.isExpired now) = [] := by
    cases hv : v.receiveQueue with
    | nil => rfl
    | cons d ds => exact List.takeWhile_cons_of_neg (by simp [hq d (by simp [hv])])
  refine ⟨?_, hdrop⟩
  rw [takeReceived, hdrop, htake]
  rfl

/-- A working interface that is up and has nothing to do. -/
def idle (b : Bearings) : Situation where
  bearings := b
  isUp := true
  sendQueue := []
  deferred := []
  receiveQueue := []
  inbox := []
  outbox := []
  dropped := 0
  expired := 0

end Situation

namespace Cable

variable {cable : Cable} {side : Side} {now : Time} {clock : Clock} {call : Call}
  {v w v' : Situation} {turns more : List Turn}

/-- The situations of a side and of the other one. Both adapters work. -/
structure Stands (cable : Cable) (side : Side) (v w : Situation) : Prop where
  here : (cable.interface side).situation = v
  there : (cable.interface side.other).situation = w
  worksHere : (cable.interface side).Works
  worksThere : (cable.interface side.other).Works

theorem Stands.symm (h : Stands cable side v w) : Stands cable side.other w v where
  here := h.there
  there := by rw [Side.other_other, h.here]
  worksHere := h.worksThere
  worksThere := by
    rw [Side.other_other]
    exact h.worksHere

theorem stands_of_symm (h : Stands cable side.other w v) : Stands cable side v w := by
  have hs := h.symm
  rwa [Side.other_other] at hs

/-- What a call leaves in the outbox is found in the inbox of the other side. -/
theorem Stands.perform (h : Stands cable side v w)
    (hp : ((Interface.perform clock call).run (cable.interface side)).state.situation = v' ∧
      ((Interface.perform clock call).run (cable.interface side)).state.Works) :
    Stands ((perform side clock call).run cable).state side { v' with outbox := [] }
      { w with inbox := w.inbox ++ v'.outbox } where
  here := by
    rw [interface_perform, ← hp.1]
    rfl
  there := by
    rw [interface_perform_other, ← hp.1, ← h.there]
    exact congrArg
      (fun inbox => { (cable.interface side.other).situation with inbox }) (Fifo.toList_append _)
  worksHere := by
    rw [interface_perform]
    exact ⟨hp.2.faults, hp.2.attached⟩
  worksThere := by
    rw [interface_perform_other]
    exact ⟨h.worksThere.faults, h.worksThere.attached⟩

theorem Stands.quiet (h : Stands cable side { v with outbox := [] }
    { w with inbox := w.inbox ++ v.outbox }) (ho : v.outbox = []) : Stands cable side v w := by
  rw [ho, List.append_nil, ← ho] at h
  exact h

theorem Stands.setUp (h : Stands cable side v w) (ho : v.outbox = []) (clock : Clock) :
    Stands ((Cable.perform side clock (.setUp true)).run cable).state side { v with isUp := true }
      w := by
  have hp := situation_setUp h.worksHere clock
  rw [h.here] at hp
  exact (h.perform hp).quiet ho

theorem Stands.submit (h : Stands cable side v w) (ho : v.outbox = []) (clock : Clock)
    (d : Datagram) :
    Stands ((Cable.perform side clock (.submit d)).run cable).state side (v.submit clock.time d)
      w := by
  have hp := situation_submit h.worksHere clock d
  rw [h.here] at hp
  exact (h.perform hp).quiet ho

theorem Stands.sendQueued (h : Stands cable side v w) (hu : v.isUp = true)
    (hc : ∀ d ∈ v.sendQueue, clock.Agrees now d) (hv : v.sendQueued now = v') :
    Stands ((Cable.perform side clock .sendQueued).run cable).state side { v' with outbox := [] }
      { w with inbox := w.inbox ++ v'.outbox } := by
  have hp := situation_sendQueued ((congrArg Situation.isUp h.here).trans hu) h.worksHere
    (h.here ▸ hc)
  rw [h.here, hv] at hp
  exact h.perform hp

theorem Stands.receiveWaiting (h : Stands cable side v w) (hu : v.isUp = true)
    (hi : [] ∉ v.inbox) (hc : ∀ d ∈ v.deferred, clock.Agrees now d)
    (hv : v.receiveWaiting clock = v') :
    Stands ((Cable.perform side clock .receiveWaiting).run cable).state side
      { v' with outbox := [] } { w with inbox := w.inbox ++ v'.outbox } := by
  have hp := situation_receiveWaiting ((congrArg Situation.isUp h.here).trans hu) h.worksHere
    (h.here ▸ hi) (h.here ▸ hc)
  rw [h.here, hv] at hp
  exact h.perform hp

theorem cable_run_append (turns more : List Turn) (cable : Cable) :
    (run (turns ++ more) cable).cable = (run more (run turns cable).cable).cable := by
  induction turns generalizing cable with
  | nil => rfl
  | cons turn turns ih => exact ih _

/-- Takes the turns one after the other, as long as no call breaks off. -/
def run? (last : Time) : List Turn → Cable → Option Left
  | [], cable => some { history := [], cable }
  | turn :: turns, cable =>
    let outcome := (perform? last turn.side turn.clock turn.call).run cable
    outcome.value.bind fun reply =>
      (run? last turns outcome.state).map fun left =>
        { left with history := (turn.side, ⟨turn.call, reply, outcome.events⟩) :: left.history }

/-- No call of these turns breaks off. -/
inductive Unbroken (last : Time) : List Turn → Cable → Prop
  | nil {cable : Cable} : Unbroken last [] cable
  | cons {turn : Turn} {turns : List Turn} {cable : Cable}
      (h : (Interface.perform? last turn.clock turn.call).run (cable.interface turn.side) =
        (some <$> Interface.perform turn.clock turn.call).run (cable.interface turn.side))
      (hr : Unbroken last turns ((perform turn.side turn.clock turn.call).run cable).state) :
      Unbroken last (turn :: turns) cable

theorem run?_of_unbroken {last : Time} (h : Unbroken last turns cable) :
    run? last turns cable = some (run turns cable) := by
  induction h with
  | nil => rfl
  | @cons turn turns cable h hr ih =>
    have hone : (perform? last turn.side turn.clock turn.call).run cable =
        (some <$> perform turn.side turn.clock turn.call).run cable := by
      simp only [Action.run, perform?, perform, onSide] at h ⊢
      rw [h]
      rfl
    simp only [run?, run, hone, Action.run_map, Option.bind_some, ih, Option.map_some]

theorem Unbroken.append {last : Time} (h : Unbroken last turns cable)
    (hm : Unbroken last more (run turns cable).cable) : Unbroken last (turns ++ more) cable := by
  induction h with
  | nil => exact hm
  | cons h hr ih => exact .cons h (ih hm)

/-- Only datagrams have to be stamped. -/
theorem Stands.unbroken (h : Stands cable side v w) {last : Time} (hc : ∀ d, call ≠ .submit d)
    (hi : ∀ frame, call ≠ .handleIp frame)
    (hr : call = .receiveWaiting → v.isUp = true ∧ ∀ bytes ∈ v.inbox,
      Ethernet.holdsDatagram bytes = true → now + v.bearings.config.lifetime ≤ last)
    (hm : Unbroken last turns ((Cable.perform side now call).run cable).state) :
    Unbroken last (⟨side, now, call⟩ :: turns) cable := by
  refine .cons ?_ hm
  cases call with
  | submit d => exact absurd rfl (hc d)
  | handleIp frame => exact absurd rfl (hi frame)
  | receiveWaiting =>
    obtain ⟨hu, hs⟩ := hr rfl
    rw [← h.here] at hu hs
    exact run_receiveWaiting? hu fun _ bytes hw hb _ _ =>
      hs bytes ((List.takeWhile_prefix _).subset hw) hb
  | setUp | setAddress | setMask | sendQueued | takeReceived | output | handleArp | control => rfl

theorem Stands.unbroken_submits (h : Stands cable side v w) {last : Time} {ds : List Datagram}
    (ho : v.outbox = []) (hs : ds ≠ [] → now + v.bearings.config.lifetime ≤ last) :
    Unbroken last (ds.map fun d => ⟨side, now, .submit d⟩) cable := by
  induction ds generalizing cable v with
  | nil => exact .nil
  | cons d ds ih =>
    have hstamp := hs (List.cons_ne_nil d ds)
    refine .cons (run_perform? fun _ _ _ => ?_) (ih (h.submit ho now d) ho fun _ => hstamp)
    rw [← h.here] at hstamp
    exact hstamp

theorem Stands.submits (h : Stands cable side v w) (ho : v.outbox = []) (now : Time)
    (ds : List Datagram) :
    Stands (run (ds.map fun d => ⟨side, now, .submit d⟩) cable).cable side { v with
      sendQueue := v.sendQueue ++ ds.map (·.stamp (now + v.bearings.config.lifetime)) } w := by
  induction ds generalizing cable v with
  | nil => simpa [run] using h
  | cons d ds ih =>
    have hrest := ih (h.submit ho now d) ho
    simpa [run, Situation.submit] using hrest

/-- A side that was just created. -/
theorem situation_of_isNew (hn : cable.IsNew) (side : Side) :
    (cable.interface side).situation =
        { Situation.idle (cable.interface side).bearings with isUp := false } ∧
      (cable.interface side).Works ∧
      (cable.interface side).cache = .empty (cable.interface side).config.cacheCapacity ∧
      0 < (cable.interface side).config.cacheCapacity ∧
      (cable.interface side).config.mtu.toNat ≤ 1500 := by
  obtain ⟨config, time, mac, hc⟩ := hn side
  obtain ⟨hcapacity, hmtu⟩ := Config.limits_of_validate (created hc).1
  obtain ⟨ht, -⟩ := transport_of_create hc
  obtain ⟨device, address, hs⟩ := eq_of_create hc
  generalize cable.interface side = s at ht hs ⊢
  subst hs
  obtain ⟨transport, trace⟩ := device
  subst ht
  exact ⟨rfl, ⟨rfl, rfl⟩, rfl, hcapacity, hmtu⟩

theorem stands_of_isNew (hn : cable.IsNew) (side : Side) :
    Stands cable side
      { Situation.idle (cable.interface side).bearings with isUp := false }
      { Situation.idle (cable.interface side.other).bearings with isUp := false } where
  here := (situation_of_isNew hn side).1
  there := (situation_of_isNew hn side.other).1
  worksHere := (situation_of_isNew hn side).2.1
  worksThere := (situation_of_isNew hn side.other).2.1

/-- One side hands in datagrams and sends, then both receive in turns: the requests, the replies and
the datagrams. -/
def exchange (side : Side) (now : Time) (ds : List Datagram) : List Turn :=
  (ds.map fun d => ⟨side, now, .submit d⟩) ++
    [⟨side, now, .sendQueued⟩, ⟨side.other, now, .receiveWaiting⟩, ⟨side, now, .receiveWaiting⟩,
      ⟨side.other, now, .receiveWaiting⟩]

/-- Messages hold no datagram, so receiving them needs no stamp. -/
theorem Stands.unbroken_messages (h : Stands cable side v w) {last : Time} {n : Nat}
    {message : Arp.Message} (hu : v.isUp = true)
    (hi : v.inbox = List.replicate n message.toFrame.bytes)
    (hm : Unbroken last turns ((Cable.perform side now .receiveWaiting).run cable).state) :
    Unbroken last (⟨side, now, .receiveWaiting⟩ :: turns) cable := by
  refine h.unbroken (by simp) (by simp) (fun _ => ⟨hu, fun bytes hw hb => ?_⟩) hm
  rw [hi] at hw
  obtain rfl := List.eq_of_mem_replicate hw
  cases hb

theorem nil_not_mem_messages (n : Nat) (message : Arp.Message) :
    [] ∉ List.replicate n message.toFrame.bytes := by
  intro hm
  cases List.eq_of_mem_replicate hm

theorem nil_not_mem_frames (ds : List Datagram) (mac source : MacAddress) :
    [] ∉ ds.map fun d => (d.toFrame mac source).bytes := by
  intro hm
  obtain ⟨d, -, he⟩ := List.mem_map.mp hm
  have hl := d.length_toFrame mac source
  rw [Ethernet.Frame.length, he, List.length_nil, Ethernet.minLength] at hl
  omega

/-- Where both sides stand after the exchange. If there is anything to exchange, it has to be
stamped at both sides. -/
theorem stands_exchange {a b : Bearings} (h : Stands cable side (.idle a) (.idle b))
    (last now : Time) (ds : List Datagram)
    (hs : ds ≠ [] → now + a.config.lifetime ≤ last ∧ now + b.config.lifetime ≤ last)
    (hm : b.mac ≠ .broadcast)
    (hu : b.config.address ≠ .unspecified) (hl : a.cache.lookup b.config.address = none)
    (hr : a.cache.count < a.cache.capacity)
    (hd : ∀ d ∈ ds, a.Sendable now b.config.address (d.stamp (now + a.config.lifetime)))
    (hf : ∀ d ∈ ds, d.Fits ∧ d.Consistent) :
    Unbroken last (exchange side now ds) cable ∧
      ∃ cache cache', (ds ≠ [] → cache.lookup b.config.address = some b.mac) ∧
      Stands (run (exchange side now ds) cable).cable side
        { Situation.idle a with bearings.cache := cache }
        { Situation.idle b with
          bearings.cache := cache'
          receiveQueue := ds.map (·.arrived (now + b.config.lifetime)) } := by
  let waiting := ds.map (·.stamp (now + a.config.lifetime))
  let request := Arp.Message.whoHas a.mac a.config.address b.config.address
  let reply := Arp.Message.isAt b.mac b.config.address a.mac a.config.address
  have hw : ∀ d ∈ waiting, a.Sendable now b.config.address d := List.forall_mem_map.mpr hd
  have hqueue : Stands _ side { Situation.idle a with sendQueue := waiting } (.idle b) :=
    h.submits rfl now ds
  have hasked : Stands _ side { Situation.idle a with deferred := waiting }
      { Situation.idle b with
        inbox := List.replicate waiting.length request.toFrame.bytes } :=
    hqueue.sendQueued rfl (fun d _ => Clock.agrees_still now d) (Situation.sendQueued_unbound hw hl)
  let cache := (·.learn reply)^[waiting.length] a.cache
  let cache' := (·.learn request)^[waiting.length] b.cache
  have hrequests := Situation.handle_requests (v := .idle b) now request waiting.length rfl rfl rfl
  have hanswered : Stands _ side
      { Situation.idle a with
        deferred := waiting
        inbox := List.replicate waiting.length reply.toFrame.bytes }
      { Situation.idle b with bearings.cache := cache' } :=
    stands_of_symm (hasked.symm.receiveWaiting rfl (nil_not_mem_messages _ request)
      (fun d _ => Clock.agrees_still now d) hrequests)
  have hlearn : (a.cache.learn reply).lookup reply.senderIp = _ := Arp.Cache.lookup_learn hu hr
  have hreplies := Situation.handle_answers (v := { Situation.idle a with deferred := waiting }) now
    reply hw rfl hlearn
  have hsent : Stands _ side { Situation.idle a with bearings.cache := cache }
      { Situation.idle b with
        bearings.cache := cache'
        inbox := waiting.map fun d => (d.toFrame b.mac a.mac).bytes } :=
    hanswered.receiveWaiting rfl (nil_not_mem_messages _ reply)
      (fun d _ => Clock.agrees_still now d) hreplies
  have hfits : ∀ d ∈ waiting, d.Fits ∧ d.Consistent := by
    refine List.forall_mem_map.mpr fun d hm => ?_
    obtain ⟨hf, hc⟩ := hf d hm
    exact ⟨hf, hc.version, hc.ihl, hc.total_length, hc.checksum⟩
  have hdatagrams := Situation.handle_datagrams (v := { Situation.idle b with
    bearings.cache := cache' }) now a.mac hm hfits
  rw [Datagram.arrivedInTurn_still] at hdatagrams
  have harrived : Stands _ side { Situation.idle a with bearings.cache := cache }
      { Situation.idle b with
        bearings.cache := cache'
        receiveQueue := waiting.map (·.arrived (now + b.config.lifetime)) } :=
    stands_of_symm (hsent.symm.receiveWaiting rfl (nil_not_mem_frames waiting b.mac a.mac)
      (fun d _ => Clock.agrees_still now d) hdatagrams)
  refine ⟨?_, cache, cache', ?_, ?_⟩
  · refine (h.unbroken_submits rfl fun hne => (hs hne).1).append ?_
    refine hqueue.unbroken (by simp) (by simp) (by simp) ?_
    refine hasked.symm.unbroken_messages rfl rfl (hanswered.unbroken_messages rfl rfl ?_)
    refine hsent.symm.unbroken (by simp) (by simp) (fun _ => ⟨rfl, fun bytes hw _ => ?_⟩) .nil
    refine (hs ?_).2
    rintro rfl
    cases hw
  · intro hne
    exact Arp.Cache.lookup_iterate_learn hlearn fun hz =>
      hne (List.map_eq_nil_iff.mp (List.length_eq_zero_iff.mp hz))
  · rw [exchange, cable_run_append]
    have hmap : waiting.map (·.arrived (now + b.config.lifetime)) =
        ds.map (·.arrived (now + b.config.lifetime)) := List.map_map
    rw [← hmap]
    exact harrived

/-- A side takes the oldest datagram of its queue. -/
theorem Stands.takeReceived (h : Stands cable side v w) (ho : v.outbox = []) (clock : Clock)
    (hq : ∀ d ∈ v.receiveQueue, d.isExpired clock.time = false) :
    ((Cable.perform side clock .takeReceived).run cable).value.returned? = v.receiveQueue.head? ∧
      Stands ((Cable.perform side clock .takeReceived).run cable).state side
        { v with receiveQueue := v.receiveQueue.tail } w := by
  obtain ⟨hs, hr, hworks⟩ := situation_takeReceived h.worksHere clock
  rw [h.here] at hs hr
  obtain ⟨htake, hdrop⟩ := Situation.takeReceived_of_fresh hq
  rw [htake] at hs
  rw [hdrop] at hr
  exact ⟨hr, (h.perform ⟨hs, hworks⟩).quiet ho⟩

/-- The other side takes datagrams off its queue, oldest first, and then finds none. -/
theorem Stands.takes (h : Stands cable side v w) (last : Time) (ho : v.outbox = []) (now : Time)
    (hq : ∀ d ∈ v.receiveQueue, d.isExpired now = false) (n : Nat) :
    let turns : List Turn := List.replicate n ⟨side, now, .takeReceived⟩
    let left := run turns cable
    Unbroken last turns cable ∧
      (left.history.map (·.2.reply.returned?)) = (List.range n).map (v.receiveQueue[·]?) ∧
      Stands left.cable side { v with receiveQueue := v.receiveQueue.drop n } w := by
  induction n generalizing cable v with
  | zero => exact ⟨.nil, rfl, h⟩
  | succ n ih =>
    obtain ⟨hr, hnext⟩ := h.takeReceived ho now hq
    obtain ⟨hunbroken, hreturned, hstands⟩ := ih hnext ho fun d hd => hq d (List.mem_of_mem_tail hd)
    have hrange : (List.range (n + 1)).map (v.receiveQueue[·]?) =
        v.receiveQueue.head? :: (List.range n).map (v.receiveQueue.tail[·]?) := by
      simp [List.range_succ_eq_map, Function.comp_def, List.head?_eq_getElem?]
    have hrest : v.receiveQueue.tail.drop n = v.receiveQueue.drop (n + 1) := by simp
    refine ⟨h.unbroken (by simp) (by simp) (by simp) hunbroken, ?_, ?_⟩
    · rw [hrange, ← hr]
      exact congrArg (List.cons _) hreturned
    · rw [← hrest]
      exact hstands

/-- A datagram that was made of its parts, for one destination and within the limits. -/
structure IsFor (dest : Ipv4.Address) (mtu : Nat) (d : Datagram) : Prop where
  made : d.IsMade
  destination : d.destination = dest
  options : d.options.length ≤ Ipv4.maxOptionsLength
  words : d.options.length % 4 = 0
  length : d.ipLength ≤ mtu

theorem IsFor.fits {dest : Ipv4.Address} {mtu : Nat} {d : Datagram} (h : IsFor dest mtu d)
    (hm : mtu ≤ 1500) : d.Fits := ⟨h.options, h.words, Nat.le_trans h.length hm⟩

theorem sendable_of_isFor {b : Bearings} {dest : Ipv4.Address} {d : Datagram}
    (hd : IsFor dest b.config.mtu.toNat d) (hm : b.config.mtu.toNat ≤ 1500)
    (hl : b.config.isLocal dest = true) (hh : dest.namesHost b.config.mask = true)
    (ht : 0 < b.config.lifetime) (now : Time) :
    b.Sendable now dest (d.stamp (now + b.config.lifetime)) where
  fresh := by
    rw [Datagram.isExpired_stamp, decide_eq_false_iff_not]
    exact Nat.not_le.mpr (Nat.lt_add_of_pos_right ht)
  route cache := by
    obtain rfl := hd.destination
    exact Config.route_of_local (d := d.stamp (now + b.config.lifetime)) (hd.fits hm) hd.length
      hh hl cache

end Cable
end LinkLayer
