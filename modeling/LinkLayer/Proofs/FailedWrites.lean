import Mathlib.Data.List.Forall2
import LinkLayer.Adapter
import LinkLayer.Proofs.Oblivious
import LinkLayer.Proofs.Runs

/-!
Two runs in which different writes fail. Main statement: the failures show in a few counters and in
nothing else that the interface keeps, offers or answers (`failed_writes_unnoticed`).
-/
namespace LinkLayer

/-- Related adapters can be told apart by what they answer to a write only, now and later. -/
structure Transport.ApartInWrites {τ : Type} [Transport τ] (alike : τ → τ → Prop) : Prop where
  transmit : ∀ {a b : τ}, alike a b → ∀ frame,
    alike (Transport.transmit a frame).2 (Transport.transmit b frame).2
  receive : ∀ {a b : τ}, alike a b → (Transport.receive a).1 = (Transport.receive b).1 ∧
    alike (Transport.receive a).2 (Transport.receive b).2
  readAddress : ∀ {a b : τ}, alike a b →
    (Transport.readAddress a).1 = (Transport.readAddress b).1 ∧
      alike (Transport.readAddress a).2 (Transport.readAddress b).2

namespace Interface

variable {τ : Type} {alike : τ → τ → Prop} {s t : Interface τ}

/-- The interfaces differ in their devices and in counters that tell what became of a write. -/
def Similar (alike : τ → τ → Prop) (s t : Interface τ) : Prop :=
  ∃ device counters, t = { s with device, counters } ∧ counters.blinded = s.counters.blinded ∧
    alike s.device.transport device.transport

/-- Actions that offer the same frames and leave similar interfaces, whichever writes fail. -/
abbrev InStep {α : Type} (alike : τ → τ → Prop) (V : α → α → Prop)
    (first second : Action (Interface τ) α) : Prop :=
  Action.Lockstep (Similar alike) Event.offered? V first second

/-- Both count what the writes do not decide in the same way. -/
theorem Similar.count (h : Similar alike s t) (k : Counters → Counters) {c c' : Counters}
    (hc : c.blinded = k s.counters.blinded) (hc' : c'.blinded = k t.counters.blinded) :
    Similar alike { s with counters := c } { t with counters := c' } := by
  obtain ⟨device, counters, rfl, hb, ha⟩ := h
  refine ⟨device, c', rfl, ?_, ha⟩
  rw [hc, hc']
  exact congrArg k hb

/-- A change that neither sees nor touches the device and the counters. -/
theorem inStep_modify (f : Interface τ → Interface τ)
    (hf : ∀ s device counters, f { s with device, counters } = { f s with device, counters }) :
    InStep alike Eq (.modify f) (.modify f) := by
  apply Action.Lockstep.modify
  rintro s _ ⟨device, counters, rfl, hb, hd⟩
  have hs : f s = { f s with device := s.device, counters := s.counters } := hf s _ _
  have hdevice : (f s).device = s.device := by rw [hs]
  have hcounters : (f s).counters = s.counters := by rw [hs]
  refine ⟨device, counters, hf s device counters, ?_, ?_⟩
  · rw [hcounters, hb]
  · rwa [hdevice]

theorem oblivious_similar : Oblivious (Similar alike) where
  differ := by
    rintro s _ ⟨device, counters, rfl, -, -⟩
    exact ⟨{ s.aside with device, counters }, rfl⟩
  change := by
    rintro f hf s _ ⟨device, counters, rfl, hb, hd⟩
    have haside := aside_of_change hf s
    have hcounters : (f s).counters = s.counters := congrArg Aside.counters haside
    have hdevice : (f s).device = s.device := congrArg Aside.device haside
    refine ⟨device, counters, ?_, ?_, ?_⟩
    · calc
        f { s with device, counters } = (f s).beside { s.aside with device, counters } :=
          hf s { s.aside with device, counters }
        _ = (f s).beside { (f s).aside with device, counters } := by rw [haside]
        _ = { f s with device, counters } := rfl
    · rw [hcounters, hb]
    · rwa [hdevice]
  tally := by
    intro f hf s t h
    exact h.count (fun c => (f c).blinded) (hf _) (hf _)

variable [FiniteTransport τ] (ha : Transport.ApartInWrites alike) (now : Time) (clock : Clock)
include ha

theorem inStep_write (frame : Bytes) :
    InStep alike (fun _ _ => True) (write now frame) (write now frame) := by
  rintro s _ ⟨device, counters, rfl, hb, hd⟩
  have hd' := ha.transmit hd frame
  have hs := offered_write now frame s
  have ht := offered_write now frame { s with device, counters }
  generalize (write now frame).run s = o at hs ⊢
  generalize (write now frame).run (_ : Interface τ) = o' at ht ⊢
  cases hs with
  | taken h | failed h =>
    cases ht with
    | taken h' | failed h' =>
      rw [h, h'] at hd'
      exact ⟨trivial, ⟨_, _, rfl, congrArg (fun c : Counters =>
        { c with write.total := c.write.total + 1 }) hb, hd'⟩, rfl⟩

theorem inStep_read :
    InStep alike Eq (read now) (read now : Action (Interface τ) _) := by
  rintro s _ ⟨device, counters, rfl, hb, hd⟩
  obtain ⟨hr, hd'⟩ := ha.receive hd
  rcases h : Transport.receive s.device.transport with ⟨result, transport⟩
  rcases h' : Transport.receive device.transport with ⟨other, transport'⟩
  rw [h, h'] at hr hd'
  obtain rfl : result = other := hr
  simp only [read, onDevice, Interface.count, Action.run_bind, Action.run_onPart,
    Action.run_modify, Action.run_pure]
  simp only [Action.run, Device.read, h, h']
  rcases result with error | _ | _ | ⟨b, bytes⟩
  · exact ⟨rfl, ⟨_, _, rfl, congrArg (fun c : Counters =>
      { c with read := Counters.transfer c.read true }) hb, hd'⟩, rfl⟩
  all_goals
    exact ⟨rfl, ⟨_, _, rfl, congrArg (fun c : Counters =>
      { c with read := Counters.transfer c.read false }) hb, hd'⟩, rfl⟩

theorem inStep_readAddress :
    InStep alike Eq (onDevice (Device.readAddress now) : Action (Interface τ) _)
      (onDevice (Device.readAddress now)) := by
  rintro s _ ⟨device, counters, rfl, hb, hd⟩
  obtain ⟨hr, hd'⟩ := ha.readAddress hd
  rcases h : Transport.readAddress s.device.transport with ⟨result, transport⟩
  rcases h' : Transport.readAddress device.transport with ⟨other, transport'⟩
  rw [h, h'] at hr hd'
  obtain rfl : result = other := hr
  simp only [onDevice, Action.run_onPart]
  simp only [Action.run, Device.readAddress, h, h']
  cases result with
  | ok mac => exact ⟨rfl, ⟨_, _, rfl, hb, hd'⟩, rfl⟩
  | error error => exact ⟨rfl, ⟨_, _, rfl, hb, hd'⟩, rfl⟩

/-- An ARP message counts as sent even if it is not. -/
theorem inStep_sendArp (message : Arp.Message) :
    InStep alike Eq (sendArp now message) (sendArp now message) := by
  apply Action.Lockstep.bind .get
  rintro s _ ⟨device, counters, rfl, -, -⟩
  dsimp only
  cases s.framer.message message with
  | error error => exact .pure rfl
  | ok framed =>
    obtain ⟨frame, framer⟩ := framed
    apply (inStep_modify ({ · with framer }) fun _ _ _ => rfl).seq
    apply (inStep_write ha now frame).bind
    intro result other _
    cases result with
    | ok _ | error _ =>
      cases other with
      | ok _ | error _ =>
        intro s t h
        exact ⟨rfl, h.count (fun c => { c with send.arp := c.send.arp + 1 }) rfl rfl, rfl⟩

/-- Both were deferred, or neither was. -/
def SameOutcome (first second : Except DropReason Delivery) : Prop :=
  first = .ok .deferred ↔ second = .ok .deferred

theorem inStep_sendDatagram (mac : MacAddress) (d : Datagram) :
    InStep alike SameOutcome (sendDatagram now mac d) (sendDatagram now mac d) := by
  apply Action.Lockstep.bind .get
  rintro s _ ⟨device, counters, rfl, -, -⟩
  dsimp only
  cases s.framer.datagram mac s.macAddress d with
  | error error => exact .pure Iff.rfl
  | ok framed =>
    obtain ⟨frame, framer⟩ := framed
    apply (inStep_modify ({ · with framer }) fun _ _ _ => rfl).seq
    apply (inStep_write ha now frame).bind
    intro result other _
    cases result with
    | ok _ | error _ =>
      cases other with
      | ok _ | error _ =>
        intro s t h
        exact ⟨by simp [SameOutcome], h.count id rfl rfl, rfl⟩

theorem inStep_output (d : Datagram) :
    InStep alike SameOutcome (output now d) (output now d) :=
  oblivious_similar.indifferent.output now (fun _ => Iff.rfl) (inStep_sendArp ha now)
    (inStep_sendDatagram ha now) d

/-- A datagram that does not have to wait is gone, whether it was sent or dropped. -/
theorem inStep_attempt (pass : Pass) (d : Datagram) :
    InStep alike Eq (attempt pass clock d) (attempt pass clock d : Action (Interface τ) _) := by
  apply Action.Lockstep.seq (oblivious_similar.indifferent.count ?_ ?_)
  · apply (inStep_output ha clock.later.time d).bind
    intro result other hr
    -- Whether a datagram waits is decided before the write: both wait, or neither does.
    by_cases hw : result = .ok .deferred
    · obtain rfl := hw
      obtain rfl := hr.mp rfl
      apply Action.Lockstep.seq (oblivious_similar.indifferent.count ?_ ?_)
      · exact .pure rfl
      all_goals
        intros
        cases pass <;> rfl
    · have hw' : other ≠ .ok .deferred := fun he => hw (hr.mpr he)
      intro s t h
      -- What was sent here may be dropped there, and blinded counters alone tell the two apart.
      rcases result with reason | length | _
      · rcases other with reason' | length' | _
        · cases pass <;> exact ⟨rfl, h.count id rfl rfl, rfl⟩
        · cases pass <;> exact ⟨rfl, h.count id rfl rfl, rfl⟩
        · exact absurd rfl hw'
      · rcases other with reason' | length' | _
        · cases pass <;> exact ⟨rfl, h.count id rfl rfl, rfl⟩
        · cases pass <;> exact ⟨rfl, h.count id rfl rfl, rfl⟩
        · exact absurd rfl hw'
      · exact absurd rfl hw
  all_goals
    intros
    cases pass <;> rfl

theorem exchanging_similar : Exchanging (Similar alike) Event.offered? where
  toOblivious := oblivious_similar
  read := inStep_read ha
  sendArp := inStep_sendArp ha
  attempt pass clock := inStep_attempt ha clock pass

theorem inStep_refreshAddress :
    InStep alike Eq (refreshAddress now : Action (Interface τ) Unit) (refreshAddress now) := by
  apply (inStep_readAddress ha now).bind
  rintro result _ rfl
  cases result with
  | ok mac => exact inStep_modify _ fun _ _ _ => rfl
  | error error => exact .emit rfl

/-- Whether the answer to a request may tell what became of a write. -/
def Request.seesWrites : Request → Bool
  | status | trace => true
  | _ => false

theorem inStep_control (request : Request) :
    InStep alike (fun first second => request.seesWrites = false → first = second)
      (control now request : Action (Interface τ) Answer) (control now request) := by
  apply Action.Lockstep.bind .get
  rintro s _ ⟨device, counters, rfl, -, -⟩
  cases request with
  | macAddress =>
    apply (inStep_refreshAddress ha now).seq
    exact .pure fun _ => rfl
  | setMacAddress mac =>
    apply Action.Lockstep.seq (.emit rfl)
    apply (inStep_modify _ fun _ _ _ => rfl).seq
    exact .pure fun _ => rfl
  | hardwareTypes => exact .pure fun _ => rfl
  | selectType selection =>
    apply (inStep_modify _ fun _ _ _ => rfl).seq
    exact .pure fun _ => rfl
  | selectedType => exact .pure fun _ => rfl
  | status => exact .pure fun hr => nomatch hr
  | clearCounters =>
    apply Action.Lockstep.seq (.modify ?_)
    · exact .pure fun _ => rfl
    · intro s t h
      exact h.count (fun _ => {}) rfl rfl
  | bindings => exact .pure fun _ => rfl
  | clearBindings =>
    apply (inStep_modify _ fun _ _ _ => rfl).seq
    apply Action.Lockstep.seq (.emit rfl)
    exact .pure fun _ => rfl
  | trace => exact .pure fun hr => nomatch hr
  | clearTrace =>
    apply Action.Lockstep.seq (.modify ?_)
    · exact .pure fun _ => rfl
    · rintro s _ ⟨device, counters, rfl, hb, hd⟩
      exact ⟨_, counters, rfl, hb, hd⟩

/-- Whether the reply to a call may tell what became of a write. -/
def Call.seesWrites : Call → Bool
  | output _ => true
  | control request => request.seesWrites
  | _ => false

theorem inStep_perform (call : Call) :
    InStep alike (fun first second => call.seesWrites = false → first = second)
      (perform clock call : Action (Interface τ) Reply) (perform clock call) := by
  cases call with
  | output d =>
    apply (inStep_output ha clock.time d).bind
    intro result other _
    exact .pure fun hr => nomatch hr
  | control request =>
    apply (inStep_control ha clock.time request).bind
    intro answer other h
    exact .pure fun hr => congrArg Reply.answer (h hr)
  | _ =>
    apply ((exchanging_similar ha).perform clock (by simp) (by simp)).mono
    intro first second hv _
    exact hv

omit ha

/-- The same call, or changes of the adapters that keep them alike. -/
inductive SameStep (alike : τ → τ → Prop) : Step τ → Step τ → Prop
  | call {clock : Clock} {call : Call} : SameStep alike (.call clock call) (.call clock call)
  | adapter {change other : τ → τ} (h : ∀ a b, alike a b → alike (change a) (other b)) :
      SameStep alike (.adapter change) (.adapter other)

/-- The same call, which offered the same frames. -/
structure SameMade (first second : Made) : Prop where
  call : first.call = second.call
  offered : first.events.filterMap Event.offered? = second.events.filterMap Event.offered?
  reply : first.call.seesWrites = false → first.reply = second.reply

include ha in
theorem similar_run {steps others : List (Step τ)}
    (h : List.Forall₂ (SameStep alike) steps others) (hs : Similar alike s t) :
    Similar alike (run steps s).state (run others t).state ∧
      List.Forall₂ SameMade (run steps s).history (run others t).history := by
  induction h generalizing s t with
  | nil => exact ⟨hs, .nil⟩
  | cons hstep hrest ih =>
    cases hstep with
    | @call clock call =>
      have hcall := inStep_perform ha clock call hs
      obtain ⟨hstate, hhistory⟩ := ih hcall.state
      exact ⟨hstate, .cons ⟨rfl, hcall.shown, hcall.value⟩ hhistory⟩
    | adapter h =>
      obtain ⟨device, counters, rfl, hb, hd⟩ := hs
      exact ih ⟨_, counters, rfl, hb, h _ _ hd⟩

/-- Two runs with the same calls, on adapters that only writes tell apart: the interfaces bind,
queue and count the same, apart from the counters of what became of the writes, they offer the same
frames in each call, and they answer the same. -/
theorem failed_writes_unnoticed (ha : Transport.ApartInWrites alike) {steps others : List (Step τ)}
    (h : List.Forall₂ (SameStep alike) steps others) (s : Interface τ) {transport : τ}
    (ht : alike s.device.transport transport) :
    let first := run steps s
    let second := run others { s with device.transport := transport }
    first.state.cache = second.state.cache ∧
      first.state.sendQueue = second.state.sendQueue ∧
      first.state.deferred = second.state.deferred ∧
      first.state.receiveQueue = second.state.receiveQueue ∧
      first.state.config = second.state.config ∧
      first.state.isUp = second.state.isUp ∧
      first.state.hardwareAddress = second.state.hardwareAddress ∧
      first.state.macAddress = second.state.macAddress ∧
      first.state.hardwareType = second.state.hardwareType ∧
      first.state.counters.blinded = second.state.counters.blinded ∧
      List.Forall₂ SameMade first.history second.history := by
  intro first second
  have hs : Similar alike s { s with device.transport := transport } := ⟨_, _, rfl, rfl, ht⟩
  obtain ⟨⟨device, counters, hrest, hb, -⟩, hhistory⟩ := similar_run ha h hs
  have hsecond : second.state = { first.state with device, counters } := hrest
  rw [hsecond]
  exact ⟨rfl, rfl, rfl, rfl, rfl, rfl, rfl, rfl, rfl, hb.symm, hhistory⟩

end Interface

/-- The same address, inbox and far side, and the same faults apart from those of writes. -/
def Adapter.SameReads (a b : Adapter) : Prop :=
  ∃ transmit outbox, b = { a with faults.transmit := transmit, outbox }

theorem Adapter.transmit_state (adapter : Adapter) (frame : Bytes) :
    ∃ outbox, (adapter.transmit frame).2 = { adapter with outbox } := by
  unfold transmit
  split
  · exact ⟨_, rfl⟩
  · split
    · exact ⟨_, rfl⟩
    · exact ⟨_, rfl⟩

theorem Adapter.apartInWrites : Transport.ApartInWrites Adapter.SameReads where
  transmit := by
    rintro a _ ⟨transmit, outbox, rfl⟩ frame
    obtain ⟨left, hl⟩ := a.transmit_state frame
    obtain ⟨right, hr⟩ :=
      Adapter.transmit_state { a with faults.transmit := transmit, outbox } frame
    exact ⟨transmit, right, by simp only [Transport.transmit, hl, hr]⟩
  receive := by
    rintro a _ ⟨transmit, outbox, rfl⟩
    simp only [Transport.receive, Adapter.receive]
    split
    · exact ⟨rfl, _, _, rfl⟩
    · cases a.inbox.head? with
      | some frame => exact ⟨rfl, _, _, rfl⟩
      | none =>
        dsimp only
        split
        · exact ⟨rfl, _, _, rfl⟩
        · exact ⟨rfl, _, _, rfl⟩
  readAddress := by
    rintro a _ ⟨transmit, outbox, rfl⟩
    simp only [Transport.readAddress, Adapter.readAddress]
    split
    · exact ⟨rfl, _, _, rfl⟩
    · exact ⟨rfl, _, _, rfl⟩

/-- The datagram is sent in one run and lost in the other, and both offered the same frame. -/
theorem Interface.failed_writes_unnoticed_lost :
    ∃ s : Interface Adapter,
      ((create { address := ⟨192, 168, 1, 1⟩, mask := ⟨255, 255, 255, 0⟩ } 0).run
        ({ address := {} } : Adapter)).value = .ok s ∧
      let calls : List (Step Adapter) := [.call 0 (.setUp true),
        .call 0 (.handleArp (Arp.Message.isAt ⟨2, 0, 0, 0, 0, 2⟩ ⟨192, 168, 1, 2⟩ {}
          ⟨192, 168, 1, 1⟩).toFrame),
        .call 0 (.submit (.make { dest := ⟨192, 168, 1, 2⟩ } [] [7])),
        .call 0 .sendQueued]
      let steps := .adapter id :: calls
      let others := .adapter ({ · with faults.transmit := true }) :: calls
      List.Forall₂ (SameStep Adapter.SameReads) steps others ∧
        (run steps s).state.counters.totals.dropped = 0 ∧
        (run others s).state.counters.totals.dropped = 1 ∧
        (run steps s).state.cache = (run others s).state.cache ∧
        (run steps s).state.counters.blinded = (run others s).state.counters.blinded ∧
        List.Forall₂ SameMade (run steps s).history (run others s).history := by
  obtain ⟨s, hc⟩ : ∃ s, ((create { address := ⟨192, 168, 1, 1⟩, mask := ⟨255, 255, 255, 0⟩ } 0).run
      ({ address := {} } : Adapter)).value = .ok s := ⟨_, rfl⟩
  refine ⟨s, hc, ?_⟩
  intro calls steps others
  have hfault : SameStep Adapter.SameReads (.adapter id)
      (.adapter ({ · with faults.transmit := true })) := by
    constructor
    rintro a _ ⟨transmit, outbox, rfl⟩
    exact ⟨true, outbox, rfl⟩
  have h : List.Forall₂ (SameStep Adapter.SameReads) steps others :=
    .cons hfault (.cons .call (.cons .call (.cons .call (.cons .call .nil))))
  obtain ⟨hcache, -, -, -, -, -, -, -, -, hcounters, hhistory⟩ :=
    failed_writes_unnoticed Adapter.apartInWrites h s ⟨_, _, rfl⟩
  refine ⟨h, ?_, ?_, hcache, hcounters, hhistory⟩
  · cases hc
    rfl
  · cases hc
    rfl

end LinkLayer
