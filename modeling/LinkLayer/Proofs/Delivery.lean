import Mathlib.Data.List.Sort
import LinkLayer.Cable
import LinkLayer.Proofs.HopOrder
import LinkLayer.Proofs.Wire

/-!
Two interfaces on one cable, driven from both sides in any order. Main statement: one side gives its
host nothing that the host of the other side did not hand in, and nothing more often than that; if
all goes to one neighbour, it also keeps the order (`delivery`).
-/
namespace LinkLayer

open Interface

theorem Side.eq_or_eq_other (a b : Side) : a = b ∨ a = b.other := by
  cases a <;> cases b <;> simp [other]

@[simp] theorem Side.other_other (side : Side) : side.other.other = side := by cases side <;> rfl

@[simp] theorem Side.other_ne (side : Side) : side.other ≠ side := by cases side <;> simp [other]

namespace Cable

/-- A call at one side. -/
structure Turn where
  side : Side
  clock : Clock
  call : Call

/-- What is left of some turns: the calls of both sides with what came of them, and the cable. -/
structure Left where
  history : List (Side × Made)
  cable : Cable

/-- Takes the turns one after the other. -/
def run : List Turn → Cable → Left
  | [], cable => { history := [], cable }
  | turn :: turns, cable =>
    let outcome := (perform turn.side turn.clock turn.call).run cable
    let left := run turns outcome.state
    { left with
      history := (turn.side, ⟨turn.call, outcome.value, outcome.events⟩) :: left.history }

/-- The history of one side. -/
def Left.calls (left : Left) (side : Side) : List Made :=
  (left.history.filter (·.1 = side)).map (·.2)

/-- What the host at a side hands in. -/
def submitted (side : Side) (turns : List Turn) : List Datagram :=
  (turns.filter (·.side = side)).filterMap (·.call.submitted?)

/-- What the host at a side got. -/
def Left.returned (left : Left) (side : Side) : List Datagram :=
  (left.calls side).filterMap (·.reply.returned?)

/-- Both interfaces were just created, each on an adapter of its own. -/
def IsNew (cable : Cable) : Prop :=
  ∀ side, ∃ config now mac,
    ((create config now).run ({ address := mac } : Adapter)).value = .ok (cable.interface side)

variable {cable : Cable} {side : Side} {clock : Clock} {call : Call} {turns : List Turn}

/-- The side that made a call has nothing left in its outbox. -/
theorem interface_perform (cable : Cable) (side : Side) (clock : Clock) (call : Call) :
    ((perform side clock call).run cable).state.interface side =
      let after := ((Interface.perform clock call).run (cable.interface side)).state
      { after with device.transport.outbox := .empty } := by
  cases side <;> rfl

/-- The other side finds the frames in its inbox. -/
theorem interface_perform_other (cable : Cable) (side : Side) (clock : Clock) (call : Call) :
    ((perform side clock call).run cable).state.interface side.other =
      let before := cable.interface side.other
      let after := ((Interface.perform clock call).run (cable.interface side)).state
      { before with
        device.transport.inbox := before.device.transport.inbox.append
          after.device.transport.outbox.toList } := by
  cases side <;> rfl

/-- The run of one side alone, to which the other side is only a changing adapter. -/
def stepsAt (side : Side) : List Turn → Cable → List (Step Adapter)
  | [], _ => []
  | turn :: turns, cable =>
    let next := ((perform turn.side turn.clock turn.call).run cable).state
    (if turn.side = side then [.call turn.clock turn.call] else []) ++
      .adapter (fun _ => (next.interface side).device.transport) :: stepsAt side turns next

theorem run_stepsAt (side : Side) (turns : List Turn) (cable : Cable) :
    Interface.run (stepsAt side turns cable) (cable.interface side) =
      { history := (run turns cable).calls side
        state := (run turns cable).cable.interface side } := by
  induction turns generalizing cable with
  | nil => rfl
  | cons turn turns ih =>
    obtain ⟨caller, clock, call⟩ := turn
    have hrest := ih ((perform caller clock call).run cable).state
    rcases Side.eq_or_eq_other side caller with rfl | rfl
    · have hadapter : { ((Interface.perform clock call).run (cable.interface side)).state with
          device.transport :=
            (((perform side clock call).run cable).state.interface side).device.transport } =
          ((perform side clock call).run cable).state.interface side := by
        rw [interface_perform]
      simp only [stepsAt, if_true, List.cons_append, List.nil_append, Interface.run, hadapter,
        hrest, run, Left.calls, List.filter_cons, decide_true, List.map_cons]
      cases side <;> rfl
    · have hadapter : { cable.interface caller.other with
          device.transport :=
            (((perform caller clock call).run cable).state.interface
              caller.other).device.transport } =
          ((perform caller clock call).run cable).state.interface caller.other := by
        rw [interface_perform_other]
      have hne : caller ≠ caller.other := (Side.other_ne caller).symm
      simp only [stepsAt, hne, if_false, List.nil_append, Interface.run, hadapter, hrest, run,
        Left.calls, List.filter_cons, decide_false, Bool.false_eq_true]

theorem mem_stepsAt (h : .call clock call ∈ stepsAt side turns cable) :
    ∃ turn ∈ turns, turn.side = side ∧ turn.call = call := by
  induction turns generalizing cable with
  | nil => cases h
  | cons turn turns ih =>
    rcases List.mem_append.mp h with h | h
    · by_cases hs : turn.side = side
      · simp only [hs, if_true, List.mem_singleton, Step.call.injEq] at h
        exact ⟨turn, List.mem_cons_self, hs, h.2.symm⟩
      · simp [hs] at h
    · rcases List.mem_cons.mp h with h | h
      · cases h
      · obtain ⟨turn, hm, ht⟩ := ih h
        exact ⟨turn, List.mem_cons_of_mem _ hm, ht⟩

theorem submitted_stepsAt (side : Side) (turns : List Turn) (cable : Cable) :
    (stepsAt side turns cable).filterMap Step.submitted? = submitted side turns := by
  induction turns generalizing cable with
  | nil => rfl
  | cons turn turns ih =>
    have hrest := ih ((perform turn.side turn.clock turn.call).run cable).state
    by_cases hs : turn.side = side
    · simp only [stepsAt, hs, if_true, List.cons_append, List.nil_append, List.filterMap_cons,
        Step.submitted?, submitted, List.filter_cons, decide_true] at hrest ⊢
      cases turn.call.submitted? <;> simp [hrest]
    · simp only [stepsAt, hs, if_false, List.nil_append, List.filterMap_cons, Step.submitted?,
        submitted, List.filter_cons, decide_false, Bool.false_eq_true] at hrest ⊢
      exact hrest

theorem calls_cons_self (side : Side) (clock : Clock) (call : Call) (turns : List Turn)
    (cable : Cable) :
    (run (⟨side, clock, call⟩ :: turns) cable).calls side =
      let outcome := (Interface.perform clock call).run (cable.interface side)
      ⟨call, outcome.value, outcome.events⟩ ::
        (run turns ((perform side clock call).run cable).state).calls side := by
  simp only [run, Left.calls, List.filter_cons, decide_true, if_true, List.map_cons]
  rfl

theorem calls_cons_of_ne {caller side : Side} (hs : caller ≠ side) (clock : Clock) (call : Call)
    (turns : List Turn) (cable : Cable) :
    (run (⟨caller, clock, call⟩ :: turns) cable).calls side =
      (run turns ((perform caller clock call).run cable).state).calls side := by
  simp [run, Left.calls, hs]

theorem returned_cons_self (side : Side) (clock : Clock) (call : Call) (turns : List Turn)
    (cable : Cable) :
    (run (⟨side, clock, call⟩ :: turns) cable).returned side =
      ((Interface.perform clock call).run (cable.interface side)).value.returned?.toList ++
        (run turns ((perform side clock call).run cable).state).returned side := by
  rw [Left.returned, calls_cons_self, List.filterMap_cons]
  cases ((Interface.perform clock call).run (cable.interface side)).value.returned? <;> rfl

/-- What a side wrote is to come for the host of the other one. -/
theorem toCome_interface_other (side : Side) (clock : Clock) (call : Call) (cable : Cable)
    (ho : (cable.interface side).device.transport.outbox = .empty) :
    (((perform side clock call).run cable).state.interface side.other).toCome =
      (cable.interface side.other).toCome ++
        (((Interface.perform clock call).run (cable.interface side)).events.filterMap
          Event.written?).filterMap Ethernet.arriving? := by
  have hw := outbox_perform clock call (cable.interface side)
  rw [ho, Fifo.toList_empty, List.nil_append] at hw
  rw [interface_perform_other, toCome, ← hw]
  simp [toCome]

/-- What one side gave its host, and what is still to come for it, was to come from the start or was
written by the other side since. -/
theorem toCome_run (side : Side) (turns : List Turn)
    (hc : ∀ turn ∈ turns, turn.side = side.other → ∀ frame, turn.call ≠ .handleIp frame)
    (cable : Cable) (ho : ∀ side, (cable.interface side).device.transport.outbox = .empty) :
    (((run turns cable).returned side.other).map Datagram.parts ++
        ((run turns cable).cable.interface side.other).toCome).Sublist
      ((cable.interface side.other).toCome ++
        ((happened ((run turns cable).calls side)).filterMap Event.written?).filterMap
          Ethernet.arriving?) := by
  induction turns generalizing cable with
  | nil => simp [run, Left.returned, Left.calls, happened]
  | cons turn turns ih =>
    obtain ⟨caller, clock, call⟩ := turn
    have hnext : ∀ side, (((perform caller clock call).run cable).state.interface
        side).device.transport.outbox = .empty := by
      intro side
      rcases Side.eq_or_eq_other side caller with rfl | rfl
      · rw [interface_perform]
      · rw [interface_perform_other]
        exact ho _
    have hrest := ih (fun turn hm => hc turn (List.mem_cons_of_mem _ hm)) _ hnext
    rcases Side.eq_or_eq_other caller side with rfl | rfl
    · have hne : caller ≠ caller.other := (Side.other_ne caller).symm
      rw [toCome_interface_other caller clock call cable (ho caller), List.append_assoc] at hrest
      rw [Left.returned, calls_cons_of_ne hne, calls_cons_self]
      simpa [happened, run, Left.returned] using hrest
    · have hne : side.other ≠ side := Side.other_ne side
      have hstep := toCome_perform (hc _ List.mem_cons_self rfl) clock (cable.interface side.other)
      have hnow : (((perform side.other clock call).run cable).state.interface side.other).toCome =
          ((Interface.perform clock call).run (cable.interface side.other)).state.toCome := by
        rw [interface_perform]
        rfl
      rw [hnow] at hrest
      have hboth := hstep.append_right (((happened ((run turns
        ((perform side.other clock call).run cable).state).calls side)).filterMap
          Event.written?).filterMap Ethernet.arriving?)
      rw [List.append_assoc] at hboth
      rw [returned_cons_self, calls_cons_of_ne hne, List.map_append, List.append_assoc]
      exact (hrest.append_left _).trans hboth

end Cable

/-- A datagram that was made of its parts, for version 4. -/
def Datagram.IsMade (d : Datagram) : Prop :=
  ∃ header options payload gateway expiry, header.version = Ipv4.version ∧
    d = { Datagram.make header options payload with gateway, expiry }

theorem Datagram.IsMade.consistent {d : Datagram} (h : d.IsMade) : d.Consistent := by
  obtain ⟨header, options, payload, gateway, expiry, hv, rfl⟩ := h
  have hc := consistent_make hv options payload
  exact ⟨hc.version, hc.ihl, hc.total_length, hc.checksum⟩

/-- A frame carries its datagram or, as a broadcast, nothing. -/
theorem arriving?_toFrame {d : Datagram} (hf : d.Fits) (hc : d.Consistent)
    (dest source : MacAddress) :
    Ethernet.arriving? (d.toFrame dest source).bytes = none ∨
      Ethernet.arriving? (d.toFrame dest source).bytes = some d.parts := by
  rw [Ethernet.arriving?]
  split
  · right
    have h := Datagram.ofFrame_toFrame hf hc dest source
    simp [h, Except.toOption, Datagram.parts]
  · left
    rfl

theorem Ethernet.etherType_of_kind {frame : Frame} (h : frame.kind = .ok .ipv4) :
    frame.etherType = .ok ipv4Type := by
  rw [Frame.kind] at h
  cases he : frame.etherType with
  | error error => simp [he, bind, Except.bind] at h
  | ok etherType =>
    by_cases ht : etherType = ipv4Type
    · rw [ht]
    · simp only [he, bind, Except.bind, ht, if_false] at h
      split at h <;> cases h

theorem Ethernet.etherType_of_handledKind {bytes : Bytes} (h : handledKind bytes = .ok .ipv4) :
    (Frame.mk bytes).etherType = .ok ipv4Type := by
  rw [handledKind] at h
  split at h
  · cases h
  · rename_i frame hb
    obtain rfl : frame = ⟨bytes⟩ := congrArg Frame.mk (Frame.ofBytes_ok_iff.mp hb).2
    split at h
    · cases h
    · exact etherType_of_kind h

/-- Frames of other types bring the host nothing. -/
theorem arriving?_of_not_ipv4 {frame : Bytes} (h : ipv4Frame? (.frameWritten frame) = none) :
    Ethernet.arriving? frame = none := by
  rw [Ethernet.arriving?]
  split
  · rename_i hk
    simp [ipv4Frame?, Ethernet.etherType_of_handledKind hk, Except.toOption] at h
  · rfl

theorem bind_arriving? (event : Event) :
    event.written?.bind Ethernet.arriving? = (ipv4Frame? event).bind Ethernet.arriving? := by
  cases event with
  | frameWritten frame =>
    cases h : ipv4Frame? (.frameWritten frame) with
    | none => exact arriving?_of_not_ipv4 h
    | some other =>
      obtain rfl := eq_of_ipv4Frame? h
      rfl
  | _ => rfl

theorem filterMap_sublist_map {α β : Type} {f : α → Option β} {g : α → β} {as : List α}
    (h : ∀ a ∈ as, f a = none ∨ f a = some (g a)) : (as.filterMap f).Sublist (as.map g) := by
  induction as with
  | nil => exact .slnil
  | cons a as ih =>
    have hrest := ih fun b hb => h b (List.mem_cons_of_mem _ hb)
    rcases h a List.mem_cons_self with ha | ha
    · rw [List.filterMap_cons, ha]
      exact hrest.cons _
    · rw [List.filterMap_cons, ha]
      exact hrest.cons_cons _

/-- All that was written brings at most what was sent, in that order. -/
theorem Ledger.arriving_sublist {l : Ledger} {history : List Made}
    (hw : l.sent.map (·.2) = (happened history).filterMap ipv4Frame?) (hl : l.Carried)
    (hc : ∀ p ∈ l.sent, p.1.datagram.Consistent) :
    (((happened history).filterMap Event.written?).filterMap Ethernet.arriving?).Sublist
      (l.sent.map fun p => p.1.datagram.parts) := by
  rw [List.filterMap_filterMap, funext bind_arriving?, ← List.filterMap_filterMap, ← hw,
    List.filterMap_map]
  refine filterMap_sublist_map fun p hp => ?_
  obtain ⟨hf, dest, source, hframe⟩ := hl p hp
  simp only [Function.comp_apply, hframe]
  exact arriving?_toFrame hf (hc p hp) dest source

namespace Cable

variable {cable : Cable} {turns : List Turn}

/-- A new interface leaves its adapter as it found it. -/
theorem transport_of_create {config : Config} {now : Time} {adapter : Adapter}
    {s : Interface Adapter} (h : ((create config now).run adapter).value = .ok s) :
    s.device.transport = adapter ∧ s.receiveQueue = .empty := by
  obtain ⟨hvalid, htrace, hcache, -⟩ := created h
  rcases hr : Transport.readAddress adapter with ⟨result, after⟩
  simp only [Action.run, create, Device.readAddress, hvalid, Nat.not_lt.mpr htrace,
    Nat.not_lt.mpr hcache, if_false, hr] at h
  cases result with
  | error error => cases h
  | ok mac =>
    cases h
    refine ⟨?_, rfl⟩
    simp only [Transport.readAddress, Adapter.readAddress] at hr
    split at hr <;> cases hr
    rfl

theorem submitted_calls (side : Side) (turns : List Turn) (cable : Cable) :
    Interface.submitted ((run turns cable).calls side) = submitted side turns := by
  have h := submitted_run (stepsAt side turns cable) (cable.interface side)
  rwa [run_stepsAt, submitted_stepsAt] at h

theorem passFrames_calls (hd : ∀ turn ∈ turns, turn.call.isDirect = false) (side : Side)
    (cable : Cable) :
    passFrames ((run turns cable).calls side) =
      (happened ((run turns cable).calls side)).filterMap ipv4Frame? := by
  have ho : ∀ clock d, .call clock (.output d) ∉ stepsAt side turns cable := by
    intro clock d hm
    obtain ⟨turn, ht, -, hc⟩ := mem_stepsAt hm
    have := hd turn ht
    rw [hc] at this
    cases this
  have h := passFrames_run ho (cable.interface side)
  rwa [run_stepsAt] at h

/-- The ledger of one side can be kept. -/
theorem ledger_of_isNew {I : Ledger → Config → Arp.Cache → Prop} (hk : Ledger.Kept I)
    (hn : cable.IsNew) (side : Side) (turns : List Turn)
    (hs : (∀ turn ∈ turns, turn.side = side →
        turn.call.KeepsNetwork (cable.interface side).config) ∨
      ∀ {l config cache} (config' : Config), I l config cache → I l config' cache)
    (hi : I {} (cable.interface side).config
      (.empty (cable.interface side).config.cacheCapacity)) :
    ∃ l cache, Ledger.Balanced ((run turns cable).calls side) l ∧ l.inFlight = none ∧
      I l ((run turns cable).cable.interface side).config cache := by
  obtain ⟨config, now, mac, hc⟩ := hn side
  have hconfig : (cable.interface side).config = config := by
    obtain ⟨_, _, he⟩ := eq_of_create hc
    rw [he]
  have hs' : (∀ step ∈ stepsAt side turns cable, step.KeepsNetwork config) ∨
      ∀ {l config cache} (config' : Config), I l config cache → I l config' cache := by
    rw [hconfig] at hs
    refine hs.imp_left fun h step hm => ?_
    cases step with
    | adapter change => trivial
    | call clock call =>
      obtain ⟨turn, ht, hside, rfl⟩ := mem_stepsAt hm
      exact h turn ht hside
  obtain ⟨l, -, hb, hl, hi⟩ := Ledger.ledger_of_create hk hc (stepsAt side turns cable) hs'
    (hconfig ▸ hi)
  rw [run_stepsAt] at hb hl hi
  exact ⟨l, _, hb, hl.inFlight, hi⟩

/-- What one side got is, as to what frames carry, in what the other side sent. -/
theorem returned_sublist_sent {side : Side} {l : Ledger} (hn : cable.IsNew)
    (hd : ∀ turn ∈ turns, turn.call.isDirect = false)
    (hm : ∀ d ∈ submitted side turns, d.IsMade)
    (hb : Ledger.Balanced ((run turns cable).calls side) l) (hf : l.inFlight = none)
    (hl : l.Carried) :
    (((run turns cable).returned side.other).map Datagram.parts).Sublist
      (l.sent.map fun p => p.1.datagram.parts) := by
  have hempty : ∀ side, (cable.interface side).device.transport.outbox = .empty := by
    intro side
    obtain ⟨config, now, mac, hc⟩ := hn side
    rw [(transport_of_create hc).1]
  have hnone : (cable.interface side.other).toCome = [] := by
    obtain ⟨config, now, mac, hc⟩ := hn side.other
    obtain ⟨ht, hq⟩ := transport_of_create hc
    rw [toCome, ht, hq]
    rfl
  have hrun := toCome_run side turns (by
    intro turn ht _ frame he
    have := hd turn ht
    rw [he] at this
    cases this) cable hempty
  rw [hnone, List.nil_append] at hrun
  have hframes := hb.frames
  rw [hf, passFrames_calls hd] at hframes
  have hsent := Ledger.arriving_sublist (by simpa using hframes) hl (by
    intro p hp
    have hget := hb.getElem?_of_sent hp
    rw [submitted_calls] at hget
    exact (hm _ (List.mem_of_getElem? hget)).consistent)
  exact ((List.sublist_append_left _ _).trans hrun).trans hsent

theorem map_parts_numbered (ds : List Datagram) :
    (Ledger.numbered ds).map (fun e => e.datagram.parts) = ds.map Datagram.parts := by
  conv => rhs; rw [← Ledger.map_numbered ds, List.map_map]
  rfl

theorem sublist_of_numbers {es fs : List Entry} (h : es.Subperm fs)
    (he : es.Pairwise (·.number < ·.number)) (hf : fs.Pairwise (·.number < ·.number)) :
    es.Sublist fs := by
  have : Std.Antisymm fun a b : Entry => a.number < b.number :=
    ⟨fun a b hab hba => absurd hba (Nat.lt_asymm hab)⟩
  exact List.sublist_of_subperm_of_pairwise h he hf

/-- Whatever both hosts do, and in whatever order: one side gives its host everything at most as
often as the host of the other side handed it in. If that host sends to one neighbour only and does
not make its network another one, all comes in the order in which it was handed in. -/
theorem delivery (hn : cable.IsNew) (side : Side) (turns : List Turn)
    (hd : ∀ turn ∈ turns, turn.call.isDirect = false)
    (hm : ∀ d ∈ submitted side turns, d.IsMade) :
    (∀ parts, (((run turns cable).returned side.other).map Datagram.parts).count parts ≤
        ((submitted side turns).map Datagram.parts).count parts) ∧
      ∀ dest, (∀ d ∈ submitted side turns, d.destination = dest) →
        (cable.interface side).config.isLocal dest = true →
        (∀ turn ∈ turns, turn.side = side →
          turn.call.KeepsNetwork (cable.interface side).config) →
        (((run turns cable).returned side.other).map Datagram.parts).Sublist
          ((submitted side turns).map Datagram.parts) := by
  refine ⟨?_, ?_⟩
  · intro parts
    obtain ⟨l, -, hb, hf, hl⟩ := ledger_of_isNew Ledger.kept_carried hn side turns
      (.inr fun _ hl => hl) Ledger.carried_empty
    have hsent := returned_sublist_sent hn hd hm hb hf hl
    obtain ⟨es, hperm, hsub⟩ := hb.sent_subperm
    have hcount := (hperm.map fun e => e.datagram.parts).count_eq parts
    have hle := (hsub.map fun e => e.datagram.parts).count_le parts
    rw [submitted_calls, map_parts_numbered] at hle
    rw [List.map_map] at hcount
    exact (hsent.count_le parts).trans (hcount.symm.le.trans hle)
  · intro dest hdest hlocal hs
    obtain ⟨l, cache, hb, hf, ⟨-, ho⟩, hl⟩ := ledger_of_isNew
      ((Ledger.kept_hopOrder _).and Ledger.kept_carried) hn side turns (.inl hs)
      ⟨⟨rfl, Ledger.hopOrder_empty _ _⟩, Ledger.carried_empty⟩
    have hsent := returned_sublist_sent hn hd hm hb hf hl
    have hhop : ∀ e ∈ l.sent.map (·.1),
        (cable.interface side).config.nextHop? e.datagram = some dest := by
      intro e he
      obtain ⟨p, hp, rfl⟩ := List.mem_map.mp he
      have hget := hb.getElem?_of_sent hp
      rw [submitted_calls] at hget
      have hd := hdest _ (List.mem_of_getElem? hget)
      simp [Config.nextHop?, hd, hlocal]
    have horder : (l.sent.map (·.1)).Pairwise (·.number < ·.number) :=
      (List.pairwise_append.mp ho.order).1.imp_of_mem fun ha hb h =>
        h ((hhop _ ha).trans (hhop _ hb).symm)
    have hsub := (sublist_of_numbers hb.sent_subperm horder (Ledger.numbered_pairwise _)).map
      fun e => e.datagram.parts
    rw [submitted_calls, map_parts_numbered, List.map_map] at hsub
    exact hsent.trans hsub

/-- Two datagrams wait for the answer of the other side and then arrive one after the other. The
address of the sender was set once more to what it is. -/
theorem delivery_two : ∃ (cable : Cable) (turns : List Turn), cable.IsNew ∧
    (∀ turn ∈ turns, turn.call.isDirect = false) ∧
    (∀ d ∈ submitted .near turns, d.IsMade) ∧
    ((run turns cable).returned .far).map (·.payload) = [[7], [8]] ∧
    (((run turns cable).returned .far).map Datagram.parts).Sublist
      ((submitted .near turns).map Datagram.parts) := by
  obtain ⟨near, hnear⟩ : ∃ s, ((create { address := ⟨10, 0, 0, 1⟩, mask := ⟨255, 0, 0, 0⟩ } 0).run
      ({ address := ⟨2, 0, 0, 0, 0, 1⟩ } : Adapter)).value = .ok s := ⟨_, rfl⟩
  obtain ⟨far, hfar⟩ : ∃ s, ((create { address := ⟨10, 0, 0, 2⟩, mask := ⟨255, 0, 0, 0⟩ } 0).run
      ({ address := ⟨2, 0, 0, 0, 0, 2⟩ } : Adapter)).value = .ok s := ⟨_, rfl⟩
  have hn : (Cable.mk near far).IsNew := by
    intro side
    cases side with
    | near => exact ⟨_, _, _, hnear⟩
    | far => exact ⟨_, _, _, hfar⟩
  obtain ⟨turns, hturns⟩ : ∃ turns : List Turn, turns =
      [⟨.near, 0, .setUp true⟩, ⟨.far, 0, .setUp true⟩,
        ⟨.near, 1, .submit (.make { dest := ⟨10, 0, 0, 2⟩ } [] [7])⟩,
        ⟨.near, 1, .setAddress ⟨10, 0, 0, 1⟩⟩,
        ⟨.near, 1, .submit (.make { dest := ⟨10, 0, 0, 2⟩ } [] [8])⟩, ⟨.near, 2, .sendQueued⟩,
        ⟨.far, 3, .receiveWaiting⟩, ⟨.near, 4, .receiveWaiting⟩, ⟨.far, 5, .receiveWaiting⟩,
        ⟨.far, 6, .takeReceived⟩, ⟨.far, 6, .takeReceived⟩] := ⟨_, rfl⟩
  have hd : ∀ turn ∈ turns, turn.call.isDirect = false := by
    subst hturns
    simp [Call.isDirect]
  have hboth : submitted .near turns =
      [.make { dest := ⟨10, 0, 0, 2⟩ } [] [7], .make { dest := ⟨10, 0, 0, 2⟩ } [] [8]] := by
    subst hturns
    rfl
  have hm : ∀ d ∈ submitted .near turns, d.IsMade := by
    intro d hd
    rw [hboth] at hd
    rcases List.mem_pair.mp hd with rfl | rfl
    · exact ⟨_, _, _, none, none, rfl, rfl⟩
    · exact ⟨_, _, _, none, none, rfl, rfl⟩
  obtain ⟨-, hsub⟩ := delivery hn .near turns hd hm
  refine ⟨⟨near, far⟩, turns, hn, hd, hm, ?_, hsub ⟨10, 0, 0, 2⟩ ?_ ?_ ?_⟩
  · subst hturns
    cases hnear
    cases hfar
    decide +kernel
  · intro d hd
    rw [hboth] at hd
    rcases List.mem_pair.mp hd with rfl | rfl <;> rfl
  · cases hnear
    change Config.isLocal { address := ⟨10, 0, 0, 1⟩, mask := ⟨255, 0, 0, 0⟩ } _ = true
    decide
  · subst hturns
    cases hnear
    simp [Cable.interface, Call.KeepsNetwork]

end Cable
end LinkLayer
