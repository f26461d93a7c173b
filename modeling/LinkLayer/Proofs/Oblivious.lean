import LinkLayer.Proofs.Draining
import LinkLayer.Proofs.Lockstep

/-!
Interfaces that differ in what decides nothing. Main statements: if they also send messages and
attempt datagrams in step, they handle a frame in step (`Handling.takeIn`); if they also read in
step, they do everything on the way in and out in step (`Exchanging.perform`); and for that it is
enough to read and write in step (`Oblivious.exchanging`).
-/
namespace LinkLayer

/-- The counters without those that tell what became of a write. -/
def Counters.blinded (c : Counters) : Counters :=
  { c with
    write.failed := 0
    send.ip := 0
    send.arpFailed := 0
    totals.sentBytes := 0
    totals.dropped := 0 }

namespace Interface

open LinkLayer.Action (Lockstep Uniform)

/-- What an interface keeps for those who look, and its device. No way of a frame or a datagram
depends on it, apart from what the adapter answers. -/
structure Aside (τ : Type) where
  device : Device τ
  counters : Counters
  hardwareAddress : MacAddress
  hardwareType : Option UInt8
  name : String
  traceCapacity : Nat

variable {τ ω α : Type} {R : Interface τ → Interface τ → Prop} {shown : Event → Option ω}

/-- The same interface with other things kept aside. -/
def beside (s : Interface τ) (aside : Aside τ) : Interface τ :=
  { s with
    device := aside.device
    counters := aside.counters
    hardwareAddress := aside.hardwareAddress
    hardwareType := aside.hardwareType
    config := { s.config with name := aside.name, traceCapacity := aside.traceCapacity } }

/-- What this interface keeps aside. -/
def aside (s : Interface τ) : Aside τ where
  device := s.device
  counters := s.counters
  hardwareAddress := s.hardwareAddress
  hardwareType := s.hardwareType
  name := s.config.name
  traceCapacity := s.config.traceCapacity

@[simp] theorem aside_beside (s : Interface τ) (aside : Aside τ) :
    (s.beside aside).aside = aside := rfl

@[simp] theorem beside_aside (s : Interface τ) : s.beside s.aside = s := rfl

/-- What neither sees nor touches the things kept aside leaves them as they are. -/
theorem aside_of_change {f : Interface τ → Interface τ}
    (hf : ∀ s aside, f (s.beside aside) = (f s).beside aside) (s : Interface τ) :
    (f s).aside = s.aside := by
  have hs := hf s s.aside
  rw [beside_aside] at hs
  rw [hs, aside_beside]

/-- Related interfaces differ only in what they keep aside. They stay related when both change the
rest alike, and when both count what the writes do not decide. -/
structure Oblivious (R : Interface τ → Interface τ → Prop) : Prop where
  differ : ∀ {s t}, R s t → ∃ aside, t = s.beside aside
  change : ∀ {f : Interface τ → Interface τ},
    (∀ s aside, f (s.beside aside) = (f s).beside aside) → ∀ {s t}, R s t → R (f s) (f t)
  tally : ∀ {f : Counters → Counters}, (∀ c, (f c).blinded = (f c.blinded).blinded) →
    ∀ {s t}, R s t →
      R { s with counters := f s.counters } { t with counters := f t.counters }

/-- Related interfaces differ only in what they keep aside. They stay related when both change the
rest alike, and when both count what neither a write decides nor a read. -/
structure Indifferent (R : Interface τ → Interface τ → Prop) : Prop where
  differ : ∀ {s t}, R s t → ∃ aside, t = s.beside aside
  change : ∀ {f : Interface τ → Interface τ},
    (∀ s aside, f (s.beside aside) = (f s).beside aside) → ∀ {s t}, R s t → R (f s) (f t)
  tally : ∀ {f : Counters → Counters}, (∀ c, (f c).blinded = (f c.blinded).blinded) →
    (∀ c n, f { c with read.total := n } = { f c with read.total := n }) → ∀ {s t}, R s t →
      R { s with counters := f s.counters } { t with counters := f t.counters }

theorem Oblivious.indifferent (h : Oblivious R) : Indifferent R where
  differ := h.differ
  change := h.change
  tally hf _ := h.tally hf

namespace Indifferent

variable (h : Indifferent R) (now : Time)
include h

/-- What follows may depend on the state, but not on what is kept aside. -/
theorem get {V : α → α → Prop} {next : Interface τ → Action (Interface τ) α}
    (hn : ∀ s, Lockstep R shown V (next s) (next s))
    (he : ∀ s aside, next (s.beside aside) = next s) :
    Lockstep R shown V (.get >>= next) (.get >>= next) := by
  apply Lockstep.bind .get
  intro s t hr
  obtain ⟨aside, rfl⟩ := h.differ hr
  rw [he]
  exact hn s

theorem modify {f : Interface τ → Interface τ}
    (hf : ∀ s aside, f (s.beside aside) = (f s).beside aside) : Uniform R shown (.modify f) :=
  Lockstep.modify fun _ _ hr => h.change hf hr

theorem count {f : Counters → Counters} (hf : ∀ c, (f c).blinded = (f c.blinded).blinded)
    (hn : ∀ c n, f { c with read.total := n } = { f c with read.total := n }) :
    Uniform R shown (Interface.count f) :=
  Lockstep.modify fun _ _ hr => h.tally hf hn hr

theorem expire (place : Place) (d : Datagram) : Uniform R shown (Interface.expire now place d) :=
  (h.count (fun _ => rfl) fun _ _ => rfl).seq (.emit _)

theorem learn (ip : Ipv4.Address) (mac : MacAddress) :
    Uniform R shown (Interface.learn ip mac) := by
  unfold Interface.learn
  split
  · exact h.modify fun _ _ => rfl
  · exact .pure _

theorem setUp (up : Bool) : Uniform R shown (Interface.setUp up) := by
  refine h.get (fun s => ?_) fun _ _ => rfl
  split
  · exact (h.modify fun _ _ => rfl).seq (.emit _)
  · exact (h.modify fun _ _ => rfl).seq (.emit _)

theorem handleIp (frame : Ethernet.Frame) : Uniform R shown (Interface.handleIp now frame) := by
  unfold Interface.handleIp
  cases Ipv4.Packet.ofFrame frame with
  | error error => exact .pure _
  | ok packet =>
    refine h.get (fun s => ?_) fun _ _ => rfl
    apply (h.modify fun _ _ => rfl).seq
    exact Uniform.seq (.emit _) (.pure _)

theorem takeReceived : Uniform R shown (Interface.takeReceived now) := by
  intro s t hr
  obtain ⟨aside, rfl⟩ := h.differ hr
  rw [run_takeReceived, run_takeReceived]
  let taken := s.receiveQueue.dequeue now
  have hcounted := h.tally (f := fun c => { c with
    totals.expired := c.totals.expired + taken.expired.length }) (fun _ => rfl) (fun _ _ => rfl) hr
  exact ⟨rfl, h.change (f := ({ · with receiveQueue := taken.rest })) (fun _ _ => rfl) hcounted,
    rfl⟩

theorem refuseFrame (error : FormatError) : Uniform R shown (Interface.refuseFrame error) :=
  (h.count (fun _ => rfl) fun _ _ => rfl).seq (.pure _)

variable [FiniteTransport τ]

theorem requestBinding (hs : ∀ message, Uniform R shown (sendArp now message))
    (target : Ipv4.Address) : Uniform R shown (Interface.requestBinding now target) :=
  h.get (fun _ => hs _) fun _ _ => rfl

theorem replyBinding (hs : ∀ message, Uniform R shown (sendArp now message)) (mac : MacAddress)
    (ip : Ipv4.Address) : Uniform R shown (Interface.replyBinding now mac ip) :=
  h.get (fun _ => hs _) fun _ _ => rfl

/-- A datagram has the same way out in both, and what becomes of the write is for `V` to say. -/
theorem output {V : Except DropReason Delivery → Except DropReason Delivery → Prop}
    (hv : ∀ result, V result result) (hs : ∀ message, Uniform R shown (sendArp now message))
    (hd : ∀ mac d, Lockstep R shown V (sendDatagram now mac d) (sendDatagram now mac d))
    (d : Datagram) :
    Lockstep R shown V (Interface.output now d) (Interface.output now d) := by
  refine h.get (fun s => ?_) fun _ _ => rfl
  cases s.config.route s.cache d with
  | error reason =>
    refine Lockstep.seq (h.count (fun c => ?_) fun c n => ?_) (.pure (hv _))
    all_goals cases reason <;> rfl
  | ok route =>
    cases route with
    | unresolved hop =>
      apply Lockstep.seq (.emit rfl)
      exact Lockstep.seq (h.requestBinding now hs hop) (.pure (hv _))
    | resolved hop mac => exact hd mac d

end Indifferent

/-- A list is settled in step if each datagram is, since every one leaves the same clock to the one
behind it. -/
theorem uniform_settleAll [Transport τ] {pass : Pass}
    (hs : ∀ clock d, Uniform R shown (settle pass clock d)) (clock : Clock) (ds : List Datagram) :
    Uniform R shown (settleAll pass clock ds) := by
  induction ds generalizing clock with
  | nil => exact .pure _
  | cons d ds ih =>
    apply (hs clock d).bind
    intro waiting
    cases waiting with
    | none => exact ih (clock.after d)
    | some other => exact (ih (clock.after d)).map _

/-- The interfaces also send their messages and attempt their datagrams in step. -/
structure Handling [FiniteTransport τ] (R : Interface τ → Interface τ → Prop)
    (shown : Event → Option ω) : Prop extends Indifferent R where
  sendArp : ∀ now message, Uniform R shown (sendArp now message)
  attempt : ∀ pass clock d, Uniform R shown (attempt pass clock d)

/-- The interfaces also read, send their messages and attempt their datagrams in step. -/
structure Exchanging [FiniteTransport τ] (R : Interface τ → Interface τ → Prop)
    (shown : Event → Option ω) : Prop extends Oblivious R where
  read : ∀ now, Uniform R shown (read now)
  sendArp : ∀ now message, Uniform R shown (sendArp now message)
  attempt : ∀ pass clock d, Uniform R shown (attempt pass clock d)

namespace Handling

variable [FiniteTransport τ] (h : Handling R shown) (clock : Clock)
include h

theorem settle (pass : Pass) (d : Datagram) : Uniform R shown (Interface.settle pass clock d) := by
  unfold Interface.settle
  split
  · exact (h.expire _ _ d).seq (.pure _)
  · exact h.attempt pass clock d

theorem settleAll (pass : Pass) (ds : List Datagram) :
    Uniform R shown (Interface.settleAll pass clock ds) :=
  uniform_settleAll (fun clock d => h.settle clock pass d) clock ds

theorem sendQueued : Uniform R shown (Interface.sendQueued clock) := by
  refine h.get (fun s => ?_) fun _ _ => rfl
  split
  · apply (h.settleAll clock .first _).bind
    intro waiting
    exact h.modify fun _ _ => rfl
  · exact .pure rfl

theorem retryDeferred : Uniform R shown (Interface.retryDeferred clock) := by
  refine h.get (fun s => ?_) fun _ _ => rfl
  apply (h.settleAll clock .later _).bind
  intro waiting
  exact h.modify fun _ _ => rfl

theorem answer (now : Time) (message : Arp.Message) :
    Uniform R shown (Interface.answer now message) := by
  refine h.get (fun s => ?_) fun _ _ => rfl
  split
  · cases message.operation with
    | request =>
      apply (h.count (fun _ => rfl) fun _ _ => rfl).seq
      exact Uniform.seq (.emit _) (h.replyBinding now (h.sendArp now) _ _)
    | reply => exact (h.count (fun _ => rfl) fun _ _ => rfl).seq (.emit _)
  · exact .pure rfl

theorem handleArp (frame : Ethernet.Frame) :
    Uniform R shown (Interface.handleArp clock frame) := by
  unfold Interface.handleArp
  cases Arp.Message.ofFrame frame with
  | error reason =>
    refine Uniform.seq (h.count (fun c => ?_) fun c n => ?_) (.pure _)
    all_goals
      cases reason with
      | malformed error => cases error <;> rfl
      | _ => rfl
  | ok message =>
    apply Uniform.seq (.emit _)
    apply (h.learn _ _).seq
    apply (h.answer clock.time message).seq
    exact (h.retryDeferred clock.later).seq (.pure _)

theorem dispatch (bytes : Bytes) : Uniform R shown (Interface.dispatch clock bytes) := by
  unfold Interface.dispatch
  cases Ethernet.Frame.ofBytes bytes with
  | error error => exact h.refuseFrame error
  | ok frame =>
    dsimp only
    cases frame.kind with
    | error error => exact h.refuseFrame error
    | ok kind =>
      cases kind with
      | unsupported etherType => exact h.refuseFrame _
      | broadcastIpv4 => exact (h.count (fun _ => rfl) fun _ _ => rfl).seq (.pure _)
      | ipv4 =>
        apply (h.count (fun _ => rfl) fun _ _ => rfl).seq
        apply (h.handleIp clock.time frame).bind
        intro result
        split
        · exact (h.count (fun _ => rfl) fun _ _ => rfl).seq (.pure _)
        · exact .pure _
      | arp =>
        apply (h.count (fun _ => rfl) fun _ _ => rfl).seq
        apply (h.handleArp clock frame).bind
        intro result
        split
        · exact (h.count (fun _ => rfl) fun _ _ => rfl).seq (.pure _)
        · exact .pure _

theorem takeIn (bytes : Bytes) : Uniform R shown (Interface.takeIn clock bytes) := by
  apply (h.count (fun _ => rfl) fun _ _ => rfl).seq
  apply (h.dispatch clock bytes).bind
  intro result
  cases result with
  | ok _ => exact h.count (fun _ => rfl) fun _ _ => rfl
  | error reason => exact (h.count (fun _ => rfl) fun _ _ => rfl).seq (.emit _)

end Handling

namespace Exchanging

variable [FiniteTransport τ] (h : Exchanging R shown) (clock : Clock)
include h

theorem handling : Handling R shown where
  toIndifferent := h.toOblivious.indifferent
  sendArp := h.sendArp
  attempt := h.attempt

theorem receiveUpTo (limit : Nat) : Uniform R shown (Interface.receiveUpTo clock limit) := by
  induction limit generalizing clock with
  | zero => exact .pure _
  | succ limit ih =>
    apply (h.read clock.time).bind
    intro result
    rcases result with error | _ | bytes
    · exact .pure _
    · exact .pure _
    · exact (h.handling.takeIn clock.later bytes).seq (ih clock.nextFrame)

theorem receiveWaiting : Uniform R shown (Interface.receiveWaiting clock) := by
  apply lockstep_receiveWaiting
  · intro s t hr
    obtain ⟨aside, rfl⟩ := h.differ hr
    rfl
  · exact h.receiveUpTo clock

/-- Everything but the calls whose replies may tell the interfaces apart. -/
theorem perform {call : Call} (ho : ∀ d, call ≠ .output d)
    (hc : ∀ request, call ≠ .control request) : Uniform R shown (Interface.perform clock call) := by
  have hh := h.handling
  cases call with
  | setUp up => exact (hh.setUp up).seq (.pure _)
  | setAddress ip | setMask mask =>
    refine Uniform.seq (Uniform.seq (.emit _) ?_) (.pure _)
    exact hh.modify fun _ _ => rfl
  | submit d => exact (hh.modify fun _ _ => rfl).seq (.pure _)
  | sendQueued => exact (hh.sendQueued clock).seq (.pure _)
  | receiveWaiting => exact (h.receiveWaiting clock).seq (.pure _)
  | takeReceived => exact (hh.takeReceived clock.time).bind fun _ => .pure _
  | output d => exact absurd rfl (ho d)
  | handleArp frame => exact (hh.handleArp clock frame).bind fun _ => .pure _
  | handleIp frame => exact (hh.handleIp clock.time frame).bind fun _ => .pure _
  | control request => exact absurd rfl (hc request)

end Exchanging

namespace Indifferent

variable [FiniteTransport τ] (h : Indifferent R)
  (hw : ∀ now frame, Uniform R shown (write now frame)) (now : Time)
include h hw

theorem sendArp (message : Arp.Message) : Uniform R shown (Interface.sendArp now message) := by
  refine h.get (fun s => ?_) fun _ _ => rfl
  dsimp only
  cases s.framer.message message with
  | error error => exact .pure rfl
  | ok framed =>
    obtain ⟨frame, framer⟩ := framed
    apply (h.modify fun _ _ => rfl).seq
    apply (hw now frame).bind
    intro result
    cases result with
    | ok _ => exact h.count (fun _ => rfl) fun _ _ => rfl
    | error _ => exact (h.count (fun _ => rfl) fun _ _ => rfl).seq (.emit _)

theorem sendDatagram (mac : MacAddress) (d : Datagram) :
    Uniform R shown (Interface.sendDatagram now mac d) := by
  refine h.get (fun s => ?_) fun _ _ => rfl
  dsimp only
  cases s.framer.datagram mac s.macAddress d with
  | error error => exact .pure rfl
  | ok framed =>
    obtain ⟨frame, framer⟩ := framed
    apply (h.modify fun _ _ => rfl).seq
    apply (hw now frame).bind
    intro result
    cases result with
    | ok _ => exact (h.count (fun _ => rfl) fun _ _ => rfl).seq (.pure _)
    | error _ => exact .pure _

theorem output_of_write (d : Datagram) : Uniform R shown (Interface.output now d) :=
  h.output now (fun _ => rfl) (h.sendArp hw now) (h.sendDatagram hw now) d

theorem attempt (pass : Pass) (clock : Clock) (d : Datagram) :
    Uniform R shown (Interface.attempt pass clock d) := by
  refine Uniform.seq (h.count (fun c => ?_) fun c n => ?_) ?_
  · cases pass <;> rfl
  · cases pass <;> rfl
  apply (h.output_of_write hw clock.later.time d).bind
  intro result
  rcases result with reason | length | _
  · apply (h.count (fun _ => rfl) fun _ _ => rfl).seq
    exact Uniform.seq (.emit _) (.pure _)
  · apply (h.count (fun _ => rfl) fun _ _ => rfl).seq
    exact Uniform.seq (.emit _) (.pure _)
  · refine Uniform.seq (h.count (fun c => ?_) fun c n => ?_) (.pure _)
    all_goals cases pass <;> rfl

theorem handling : Handling R shown where
  toIndifferent := h
  sendArp := h.sendArp hw
  attempt := h.attempt hw

end Indifferent

theorem Oblivious.exchanging [FiniteTransport τ] (h : Oblivious R)
    (hw : ∀ now frame, Uniform R shown (write now frame)) (hr : ∀ now, Uniform R shown (read now)) :
    Exchanging R shown where
  toOblivious := h
  read := hr
  sendArp := h.indifferent.sendArp hw
  attempt := h.indifferent.attempt hw

end Interface
end LinkLayer
