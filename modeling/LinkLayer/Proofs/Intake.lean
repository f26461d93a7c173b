import Mathlib.Logic.Function.Iterate
import LinkLayer.Proofs.Dormancy
import LinkLayer.Proofs.FailedWrites
import LinkLayer.Proofs.Limits
import LinkLayer.Proofs.ReceiveCounts
import LinkLayer.Proofs.Wire

/-!
What one call takes from a simulated adapter. Main statements: handling frames is one and the same
whatever is behind them (`uniform_handleAll`), so a call reads up to the first frame without bytes
and handles what is in front of it (`run_receiveUpTo_append`), and it makes no difference whether
frames are handled in one call or in two (`receiveWaiting_batched`).
-/
namespace LinkLayer

@[simp] theorem Clock.iterate_nextFrame_still (now : Time) (n : Nat) :
    nextFrame^[n] (still now) = still now := Function.iterate_fixed rfl n

/-- An adapter takes a frame or fails whatever is in its inbox. -/
theorem Adapter.transmit_withInbox (adapter : Adapter) (inbox : Fifo Bytes) (frame : Bytes) :
    Transport.transmit { adapter with inbox } frame =
      ((Transport.transmit adapter frame).1,
        { (Transport.transmit adapter frame).2 with inbox }) := by
  simp only [Transport.transmit, transmit]
  split
  · rfl
  · split <;> rfl

theorem Adapter.foldl_inject (adapter : Adapter) (frames : List Bytes) :
    frames.foldl inject adapter =
      { adapter with inbox := .ofList (adapter.inbox.toList ++ frames) } := by
  induction frames generalizing adapter with
  | nil => rw [List.foldl_nil, List.append_nil, Fifo.ofList_toList]
  | cons frame frames ih =>
    rw [List.foldl_cons, ih, inject, Fifo.toList_push, List.append_assoc, List.singleton_append]

namespace Interface

variable {now : Time} {clock : Clock} {s t : Interface Adapter} {events : List Event}
  {bytes : Bytes} {frames rest : List Bytes}

/-- The same interface in front of other frames, and with more reads counted. -/
def withInbox (s : Interface Adapter) (inbox : List Bytes) (reads : Nat) : Interface Adapter :=
  { s with
    device.transport.inbox := .ofList inbox
    counters.read.total := s.counters.read.total + reads }

/-- Traces and counts a frame as a read that gives it does, and handles it. -/
def handleRead (clock : Clock) (bytes : Bytes) : Action (Interface Adapter) Unit := do
  .modify fun s => { s with
    device.trace := s.device.trace.record clock.time .read .ok bytes
    counters.read := Counters.transfer s.counters.read false }
  .emit (.frameRead bytes)
  takeIn clock.later bytes

/-- Handles one frame after the other. -/
def handleAll : Clock → List Bytes → Action (Interface Adapter) Unit
  | _, [] => pure ()
  | clock, bytes :: frames => do
    handleRead clock bytes
    handleAll clock.nextFrame frames

theorem handleAll_append (clock : Clock) (frames more : List Bytes) :
    handleAll clock (frames ++ more) =
      handleAll clock frames >>= fun _ =>
        handleAll (Clock.nextFrame^[frames.length] clock) more := by
  induction frames generalizing clock with
  | nil => rfl
  | cons bytes frames ih =>
    simp only [List.cons_append, handleAll, ih, bind_assoc, List.length_cons,
      Function.iterate_succ_apply]

section Inbox

variable (inbox : List Bytes) (reads : Nat)

theorem indifferent_withInbox :
    Indifferent fun s t : Interface Adapter => t = s.withInbox inbox reads where
  differ := by
    rintro s _ rfl
    exact ⟨(s.withInbox inbox reads).aside, rfl⟩
  change := by
    rintro f hf s _ rfl
    calc
      f (s.withInbox inbox reads) = (f s).beside (s.withInbox inbox reads).aside :=
        hf s (s.withInbox inbox reads).aside
      _ = (f s).beside ((s.beside (f s).aside).withInbox inbox reads).aside := by
        rw [aside_of_change hf s, beside_aside]
      _ = (f s).withInbox inbox reads := rfl
  tally := by
    rintro f - hn s _ rfl
    have hreads : (f s.counters).read.total = s.counters.read.total :=
      congrArg (·.read.total) (hn s.counters s.counters.read.total)
    calc
      { s.withInbox inbox reads with counters := f (s.withInbox inbox reads).counters } =
          { s.withInbox inbox reads with counters :=
            { f s.counters with read.total := s.counters.read.total + reads } } := by
        rw [← hn]
        rfl
      _ = withInbox { s with counters := f s.counters } inbox reads := by
        rw [← hreads]
        rfl

theorem uniform_write (now : Time) (frame : Bytes) :
    Action.Uniform (fun s t : Interface Adapter => t = s.withInbox inbox reads) some
      (write now frame) := by
  rintro s _ rfl
  have ht : Transport.transmit (s.withInbox inbox reads).device.transport frame = _ :=
    s.device.transport.transmit_withInbox (.ofList inbox) frame
  rcases h : Transport.transmit s.device.transport frame with ⟨result, transport⟩
  rw [h] at ht
  simp only [write, onDevice, count, Action.run_bind, Action.run_onPart, Action.run_modify,
    Action.run_pure]
  simp only [Action.run, Device.write, h, ht]
  cases result with
  | ok _ => exact ⟨rfl, rfl, rfl⟩
  | error _ => exact ⟨rfl, rfl, rfl⟩

/-- How a frame is handled does not depend on what is behind it, nor on the reads before it. -/
theorem uniform_handleRead (clock : Clock) (bytes : Bytes) :
    Action.Uniform (fun s t : Interface Adapter => t = s.withInbox inbox reads) some
      (handleRead clock bytes) := by
  refine Action.Uniform.seq (.modify ?_) (Action.Uniform.seq (.emit _) ?_)
  · rintro s _ rfl
    simp only [withInbox, Counters.transfer, Nat.add_right_comm]
  · have hh := (indifferent_withInbox inbox reads).handling (uniform_write inbox reads)
    exact hh.takeIn clock.later bytes

theorem uniform_handleAll (clock : Clock) (frames : List Bytes) :
    Action.Uniform (fun s t : Interface Adapter => t = s.withInbox inbox reads) some
      (handleAll clock frames) := by
  induction frames generalizing clock with
  | nil => exact .pure _
  | cons bytes rest ih =>
    exact (uniform_handleRead inbox reads clock bytes).seq (ih clock.nextFrame)

@[simp] theorem withInbox_withInbox (s : Interface Adapter) (other : List Bytes) (more : Nat) :
    (s.withInbox inbox reads).withInbox other more = s.withInbox other (reads + more) := by
  simp only [withInbox, Nat.add_assoc]

end Inbox

theorem withInbox_self (h : s.device.transport.inbox.toList = frames) :
    s.withInbox frames 0 = s := by
  rw [withInbox, ← h, Fifo.ofList_toList]
  rfl

/-- The adapter got frames, and nothing else happened to it. -/
def OnlySends (s t : Interface Adapter) : Prop :=
  ∃ outbox, t.device.transport = { s.device.transport with outbox }

theorem OnlySends.trans {u : Interface Adapter} (h : s.OnlySends t) (h' : t.OnlySends u) :
    s.OnlySends u := by
  obtain ⟨_, ht⟩ := h
  obtain ⟨outbox, hu⟩ := h'
  exact ⟨outbox, by rw [hu, ht]⟩

theorem onlySends_offered {frame : Bytes} {value : Except TransportError Unit}
    (h : Offered now frame s { value, state := t, events }) : s.OnlySends t := by
  obtain ⟨outbox, hstate⟩ := s.device.transport.transmit_state frame
  change (Transport.transmit s.device.transport frame).2 = _ at hstate
  cases h with
  | taken h | failed h =>
    rw [h] at hstate
    exact ⟨outbox, hstate⟩

theorem local_onlySends : Local fun s t _ => OnlySends s t where
  offered := onlySends_offered
  quiet hd _ := ⟨_, by rw [hd]⟩
  append := OnlySends.trans

theorem takenIn_handleRead (clock : Clock) (bytes : Bytes) (s : Interface Adapter) :
    ∃ more, ((handleRead clock bytes).run s).events = .frameRead bytes :: more ∧
      TakenIn clock.later bytes
        { s with
          device.trace := s.device.trace.record clock.time .read .ok bytes
          counters.read := Counters.transfer s.counters.read false }
        { value := (), state := ((handleRead clock bytes).run s).state, events := more } :=
  ⟨_, rfl, takenIn_takeIn clock.later bytes _⟩

theorem onlySends_handleRead (clock : Clock) (bytes : Bytes) (s : Interface Adapter) :
    s.OnlySends ((handleRead clock bytes).run s).state := by
  obtain ⟨more, -, ht⟩ := takenIn_handleRead clock bytes s
  have h := local_onlySends.takenIn ht
  exact h

/-- One frame was read, and counted as one read. -/
theorem reads_handleRead (clock : Clock) (bytes : Bytes) (s : Interface Adapter) :
    ((handleRead clock bytes).run s).events.filterMap Event.read? = [bytes] ∧
      ((handleRead clock bytes).run s).state.counters.read =
        Counters.transfer s.counters.read false := by
  obtain ⟨more, he, ht⟩ := takenIn_handleRead clock bytes s
  have h := handled_takenIn ht
  rw [he]
  exact ⟨congrArg (bytes :: ·) h.frames, h.reads⟩

/-- A frame that is read is handled in front of what is behind it. -/
theorem run_receiveUpTo_frame (hf : s.device.transport.faults.receive = false)
    (hi : s.device.transport.inbox.toList = bytes :: rest) (hb : bytes ≠ [])
    (clock : Clock) (limit : Nat) :
    (receiveUpTo clock (limit + 1)).run s =
      (handleRead clock bytes >>= fun _ => receiveUpTo clock.nextFrame limit).run
        (s.withInbox rest 0) := by
  obtain ⟨b, more, rfl⟩ := List.exists_cons_of_ne_nil hb
  have ht : s.device.transport.inbox.tail = .ofList rest := Fifo.ext (by simp [hi])
  have hr : Transport.receive s.device.transport =
      (.ok (some (b :: more)), { s.device.transport with inbox := .ofList rest }) := by
    simp [Transport.receive, Adapter.receive, hf, hi, ht]
  simp only [receiveUpTo, read, onDevice, count, Action.run_bind, Action.run_onPart,
    Action.run_modify, Action.run_pure]
  simp only [Action.run, Device.read, hr]
  rfl

/-- Frames with bytes in them are handled one after the other, in front of what is behind them. -/
theorem run_receiveUpTo_append (hf : s.device.transport.faults.receive = false)
    (hi : s.device.transport.inbox.toList = frames ++ rest) (hb : [] ∉ frames)
    (clock : Clock) (limit : Nat) :
    (receiveUpTo clock (frames.length + limit)).run s =
      (handleAll clock frames >>= fun _ =>
        receiveUpTo (Clock.nextFrame^[frames.length] clock) limit).run (s.withInbox rest 0) := by
  induction frames generalizing clock s with
  | nil =>
    rw [List.nil_append] at hi
    rw [withInbox_self hi, List.length_nil, Nat.zero_add]
    rfl
  | cons bytes frames ih =>
    obtain ⟨hbytes, hframes⟩ := List.ne_and_not_mem_of_not_mem_cons hb
    have hrun := run_receiveUpTo_frame hf hi (Ne.symm hbytes) clock (frames.length + limit)
    -- The frame is handled alike if those after it in the batch are gone from the inbox already.
    have hmoved :=
      (uniform_handleRead rest 0 clock bytes).run_image (s.withInbox (frames ++ rest) 0)
    obtain ⟨outbox, hsent⟩ := onlySends_handleRead clock bytes (s.withInbox (frames ++ rest) 0)
    rw [withInbox_withInbox] at hmoved
    rw [List.length_cons, Nat.add_right_comm, hrun, handleAll]
    simp only [Action.run_bind, hmoved]
    generalize (handleRead clock bytes).run (s.withInbox (frames ++ rest) 0) = o at hsent ⊢
    have hrest := ih (s := o.state) (by rw [hsent]; exact hf)
      (by rw [hsent]; exact Fifo.toList_ofList _) hframes clock.nextFrame
    rw [hrest]
    simp only [Action.run_bind, List.append_assoc, Function.iterate_succ_apply]

/-- These frames were read and counted, and the adapter was left alone but for what was sent. -/
theorem reads_handleAll (clock : Clock) (frames : List Bytes) (s : Interface Adapter) :
    s.OnlySends ((handleAll clock frames).run s).state ∧
      ((handleAll clock frames).run s).events.filterMap Event.read? = frames ∧
      ((handleAll clock frames).run s).state.counters.read =
        ⟨s.counters.read.total + frames.length, s.counters.read.failed⟩ := by
  induction frames generalizing clock s with
  | nil => exact ⟨⟨_, rfl⟩, rfl, rfl⟩
  | cons bytes frames ih =>
    have hsent := onlySends_handleRead clock bytes s
    obtain ⟨hread, hcounted⟩ := reads_handleRead clock bytes s
    rw [handleAll]
    simp only [Action.run_bind]
    generalize (handleRead clock bytes).run s = o at hsent hread hcounted ⊢
    obtain ⟨hsent', hreads, hcounted'⟩ := ih clock.nextFrame o.state
    refine ⟨hsent.trans hsent', ?_, ?_⟩
    · rw [List.filterMap_append, hread, hreads, List.singleton_append]
    · rw [hcounted', hcounted, List.length_cons]
      simp only [Counters.transfer, Nat.add_assoc, Nat.add_comm 1]
      rfl

/-- A read that finds nothing, or nothing in a frame, is the last one. -/
theorem run_receiveUpTo_ended {found : Option Bytes} {adapter : Adapter}
    (hr : Transport.receive s.device.transport = (.ok found, adapter))
    (hn : found = none ∨ found = some []) (clock : Clock) (limit : Nat) :
    (receiveUpTo clock (limit + 1)).run s =
      { value := ()
        state := { s with
          device.transport := adapter
          counters.read := Counters.transfer s.counters.read false } } := by
  simp only [receiveUpTo, read, onDevice, count, Action.run_bind, Action.run_onPart,
    Action.run_modify, Action.run_pure]
  simp only [Action.run, Device.read, hr]
  rcases hn with rfl | rfl
  · rfl
  · rfl

/-- So is a read that fails. -/
theorem run_receiveUpTo_failed {error : TransportError} {adapter : Adapter}
    (hr : Transport.receive s.device.transport = (.error error, adapter))
    (clock : Clock) (limit : Nat) :
    (receiveUpTo clock (limit + 1)).run s =
      { value := ()
        state := { s with
          device := ⟨adapter, s.device.trace.record clock.time .read .failed []⟩
          counters.read := Counters.transfer s.counters.read true }
        events := [.readFailed error] } := by
  simp only [receiveUpTo, read, onDevice, count, Action.run_bind, Action.run_onPart,
    Action.run_modify, Action.run_pure]
  simp only [Action.run, Device.read, hr]
  rfl

/-- What the last read leaves if no frame with bytes is in front. -/
theorem last_read (hf : s.device.transport.faults.receive = false)
    (hi : s.device.transport.inbox.toList = rest) (hn : ∀ bytes ∈ rest.head?, bytes = [])
    (clock : Clock) (limit : Nat) :
    let o := (receiveUpTo clock (limit + 1)).run s
    o.events.filterMap Event.read? = [] ∧
      o.state.device.transport.inbox.toList = rest.tail ∧
      o.state.counters.read.total = s.counters.read.total + 1 ∧
      o.state.counters.read.failed = s.counters.read.failed +
        if s.device.transport.attached = false ∧ rest = [] then 1 else 0 := by
  intro o
  cases rest with
  | nil =>
    cases ha : s.device.transport.attached with
    | true =>
      have hr : Transport.receive s.device.transport = (.ok none, s.device.transport) := by
        simp [Transport.receive, Adapter.receive, hf, hi, ha]
      have hrun : o = _ := run_receiveUpTo_ended hr (.inl rfl) clock limit
      rw [hrun]
      exact ⟨rfl, hi, rfl, rfl⟩
    | false =>
      have hr : Transport.receive s.device.transport = (.error .detached, s.device.transport) := by
        simp [Transport.receive, Adapter.receive, hf, hi, ha]
      have hrun : o = _ := run_receiveUpTo_failed hr clock limit
      rw [hrun]
      exact ⟨rfl, hi, rfl, rfl⟩
  | cons first left =>
    obtain rfl : first = [] := hn first rfl
    have ht : s.device.transport.inbox.tail = .ofList left := Fifo.ext (by simp [hi])
    have hr : Transport.receive s.device.transport =
        (.ok (some []), { s.device.transport with inbox := .ofList left }) := by
      simp [Transport.receive, Adapter.receive, hf, hi, ht]
    have hrun : o = _ := run_receiveUpTo_ended hr (.inr rfl) clock limit
    rw [hrun]
    refine ⟨rfl, Fifo.toList_ofList _, rfl, ?_⟩
    simp [Counters.transfer]

theorem run_receiveWaiting (hu : s.isUp = true) (clock : Clock) :
    let o := (receiveUpTo clock (s.device.transport.inbox.toList.length + 1)).run s
    (perform clock .receiveWaiting).run s =
      { value := .nothing, state := o.state, events := o.events } := by
  have hw : FiniteTransport.waiting s.device.transport = s.device.transport.inbox.toList.length :=
    Fifo.length_eq
  simp only [perform, receiveWaiting, Action.run_bind, Action.run_get, hu, if_true, hw,
    Action.run_pure, List.append_nil, List.nil_append]

/-- Receiving handles the frames in front of the first one without bytes, and takes that one too. -/
theorem reads_receiveWaiting (hu : s.isUp = true)
    (hf : s.device.transport.faults.receive = false) (clock : Clock) :
    let frames := s.device.transport.inbox.toList
    let batch := frames.takeWhile (· ≠ [])
    let behind := frames.dropWhile (· ≠ [])
    let o := (perform clock .receiveWaiting).run s
    o.events.filterMap Event.read? = batch ∧
      o.state.device.transport.inbox.toList = behind.tail ∧
      o.state.counters.read.total = s.counters.read.total + batch.length + 1 ∧
      o.state.counters.read.failed = s.counters.read.failed +
        if s.device.transport.attached = false ∧ behind = [] then 1 else 0 := by
  intro frames batch behind o
  have hframes : frames = batch ++ behind := List.takeWhile_append_dropWhile.symm
  have hbatch : [] ∉ batch := fun hm => by simpa using List.mem_takeWhile_imp hm
  have hbehind : ∀ bytes ∈ behind.head?, bytes = [] := by
    intro bytes hm
    have h := List.head?_dropWhile_not (fun bytes : Bytes => decide (bytes ≠ [])) frames
    rw [Option.mem_def.mp hm] at h
    simpa using h
  have hrun : o = _ := run_receiveWaiting hu clock
  have happend := run_receiveUpTo_append hf hframes hbatch clock (behind.length + 1)
  have hlength : frames.length + 1 = batch.length + (behind.length + 1) := by
    rw [hframes, List.length_append, Nat.add_assoc]
  rw [hrun]
  simp only
  rw [hlength, happend]
  obtain ⟨⟨outbox, hsent⟩, hreads, hcounted⟩ := reads_handleAll clock batch (s.withInbox behind 0)
  simp only [Action.run_bind]
  generalize (handleAll clock batch).run (s.withInbox behind 0) = o at hsent hreads hcounted ⊢
  obtain ⟨hlast, hleft, htotal, hfailed⟩ := last_read (s := o.state)
    (by rw [hsent]; exact hf) (by rw [hsent]; exact Fifo.toList_ofList _) hbehind
    (Clock.nextFrame^[batch.length] clock) behind.length
  rw [hcounted] at htotal hfailed
  rw [hsent] at hfailed
  exact ⟨by rw [List.filterMap_append, hreads, hlast, List.append_nil], hleft, htotal, hfailed⟩

/-- A read that fails at once takes nothing. -/
theorem receiveWaiting_failed (hu : s.isUp = true)
    (hf : s.device.transport.faults.receive = true ∨
      s.device.transport.attached = false ∧ s.device.transport.inbox.toList = [])
    (clock : Clock) :
    ∃ error, (perform clock .receiveWaiting).run s =
      { value := .nothing
        state := { s with
          device.trace := s.device.trace.record clock.time .read .failed []
          counters.read := ⟨s.counters.read.total + 1, s.counters.read.failed + 1⟩ }
        events := [.readFailed error] } := by
  obtain ⟨error, hr⟩ : ∃ error, Transport.receive s.device.transport =
      (.error error, s.device.transport) := by
    rcases hf with hf | ⟨ha, hi⟩
    · exact ⟨.io "bulk in stalled", by simp [Transport.receive, Adapter.receive, hf]⟩
    · cases hf : s.device.transport.faults.receive with
      | true => exact ⟨.io "bulk in stalled", by simp [Transport.receive, Adapter.receive, hf]⟩
      | false => exact ⟨.detached, by simp [Transport.receive, Adapter.receive, hf, ha, hi]⟩
  refine ⟨error, ?_⟩
  rw [run_receiveWaiting hu, run_receiveUpTo_failed hr]
  rfl

/-- Frames with bytes are all handled, and one more read finds nothing. -/
theorem receiveWaiting_whole (hu : s.isUp = true)
    (hf : s.device.transport.faults.receive = false) (ha : s.device.transport.attached = true)
    (hb : [] ∉ s.device.transport.inbox.toList) (now : Time) :
    let o := (handleAll now s.device.transport.inbox.toList).run (s.withInbox [] 0)
    (perform now .receiveWaiting).run s =
      { value := .nothing, state := o.state.withInbox [] 1, events := o.events } := by
  have happend := run_receiveUpTo_append hf (List.append_nil _).symm hb now 1
  rw [run_receiveWaiting hu, happend]
  obtain ⟨⟨outbox, hsent⟩, -, -⟩ :=
    reads_handleAll now s.device.transport.inbox.toList (s.withInbox [] 0)
  simp only [Action.run_bind]
  generalize (handleAll now s.device.transport.inbox.toList).run (s.withInbox [] 0) = o at hsent ⊢
  have hr : Transport.receive o.state.device.transport =
      (.ok none, { o.state.device.transport with inbox := .ofList [] }) := by
    rw [hsent]
    simp [Transport.receive, Adapter.receive, withInbox, hf, ha]
  rw [run_receiveUpTo_ended hr (.inl rfl), List.append_nil]
  rfl

/-- The far side has sent more frames. -/
def incoming (s : Interface Adapter) (frames : List Bytes) : Interface Adapter :=
  { s with device.transport := frames.foldl Adapter.inject s.device.transport }

theorem incoming_eq (s : Interface Adapter) (frames : List Bytes) :
    s.incoming frames = s.withInbox (s.device.transport.inbox.toList ++ frames) 0 := by
  rw [incoming, Adapter.foldl_inject]
  rfl

theorem receiveWaiting_incoming (hu : s.isUp = true)
    (hf : s.device.transport.faults.receive = false) (ha : s.device.transport.attached = true)
    (hb : [] ∉ s.device.transport.inbox.toList ++ frames) (now : Time) :
    let o := (handleAll now (s.device.transport.inbox.toList ++ frames)).run (s.withInbox [] 0)
    (perform now .receiveWaiting).run (s.incoming frames) =
      { value := .nothing, state := o.state.withInbox [] 1, events := o.events } := by
  generalize hw : s.device.transport.inbox.toList ++ frames = whole at hb
  have hi : (s.withInbox whole 0).device.transport.inbox.toList = whole := Fifo.toList_ofList _
  have hrun := receiveWaiting_whole (s := s.withInbox whole 0) hu hf ha (hi.symm ▸ hb) now
  rw [hi, withInbox_withInbox] at hrun
  rw [incoming_eq, hw]
  exact hrun

/-- What is handled in one call or in two comes to the same. -/
theorem receiveWaiting_twice (hu : s.isUp = true)
    (hf : s.device.transport.faults.receive = false) (ha : s.device.transport.attached = true)
    {xs ys : List Bytes} (hb : [] ∉ s.device.transport.inbox.toList ++ xs ++ ys) (now : Time) :
    let one := (perform now .receiveWaiting).run (s.incoming (xs ++ ys))
    let first := (perform now .receiveWaiting).run (s.incoming xs)
    let second := (perform now .receiveWaiting).run (first.state.incoming ys)
    first.events ++ second.events = one.events ∧
      second.state = { one.state with
        counters.read.total := one.state.counters.read.total + 1 } := by
  intro one first second
  have hxs : [] ∉ s.device.transport.inbox.toList ++ xs := fun hm =>
    hb (List.mem_append_left ys hm)
  have hys : [] ∉ ys := fun hm => hb (List.mem_append_right _ hm)
  have hone : one = _ := receiveWaiting_incoming hu hf ha (List.append_assoc .. ▸ hb) now
  have hfirst : first = _ := receiveWaiting_incoming hu hf ha hxs now
  have hup : first.state.isUp = true :=
    (isUp_perform rfl (by simp) now (s.incoming xs)).trans hu
  obtain ⟨⟨outbox, hsent⟩, -, -⟩ :=
    reads_handleAll now (s.device.transport.inbox.toList ++ xs) (s.withInbox [] 0)
  rw [← List.append_assoc, handleAll_append, Clock.iterate_nextFrame_still] at hone
  simp only [Action.run_bind] at hone
  generalize (handleAll now (s.device.transport.inbox.toList ++ xs)).run (s.withInbox [] 0) = o
    at hone hfirst hsent
  -- The second call starts where the first one ended, with one more read counted.
  have hempty : first.state.device.transport.inbox.toList = [] := by
    rw [hfirst]
    exact Fifo.toList_ofList _
  have hsecond : second = _ := receiveWaiting_incoming (s := first.state) hup
    (by rw [hfirst]; simp only [withInbox, hsent]; exact hf)
    (by rw [hfirst]; simp only [withInbox, hsent]; exact ha)
    (by rw [hempty]; exact hys) now
  rw [hempty, hfirst, List.nil_append, withInbox_withInbox,
    (uniform_handleAll [] 1 now ys).run_image] at hsecond
  rw [hone, hfirst, hsecond]
  refine ⟨rfl, ?_⟩
  rw [withInbox_withInbox]
  rfl

/-- Only what is in front of the first frame without bytes is read. -/
theorem waiting_of_frameRead (hu : s.isUp = true)
    (hm : .frameRead bytes ∈ ((perform clock .receiveWaiting).run s).events) :
    s.device.transport.faults.receive = false ∧
      bytes ∈ s.device.transport.inbox.toList.takeWhile (· ≠ []) := by
  cases hf : s.device.transport.faults.receive with
  | false =>
    obtain ⟨hread, -⟩ := reads_receiveWaiting hu hf clock
    rw [← hread]
    exact ⟨rfl, List.mem_filterMap.mpr ⟨_, hm, rfl⟩⟩
  | true =>
    obtain ⟨error, hrun⟩ := receiveWaiting_failed hu (.inl hf) clock
    rw [hrun] at hm
    simp at hm

/-- Receiving does not break off if the datagrams among what is read can be stamped. -/
theorem run_receiveWaiting? {last : Time} (hu : s.isUp = true)
    (hs : s.device.transport.faults.receive = false →
      ∀ bytes ∈ s.device.transport.inbox.toList.takeWhile (· ≠ []),
        Ethernet.holdsDatagram bytes = true → ∀ i j, s.CanStamp last (clock.reading i j)) :
    (perform? last clock .receiveWaiting).run s =
      (some <$> perform clock .receiveWaiting).run s := by
  refine run_perform? ?_
  rintro ⟨bytes, hm, hb⟩
  obtain ⟨hf, hw⟩ := waiting_of_frameRead hu hm
  exact hs hf bytes hw hb

/-- At one moment the same holds whatever more has come. -/
theorem run_receiveWaiting?_incoming {last : Time} (hu : s.isUp = true)
    (hs : ∀ bytes ∈ s.device.transport.inbox.toList ++ frames,
      Ethernet.holdsDatagram bytes = true → s.CanStamp last now) :
    (perform? last now .receiveWaiting).run (s.incoming frames) =
      (some <$> perform now .receiveWaiting).run (s.incoming frames) := by
  refine run_receiveWaiting? hu fun _ bytes hm hb _ _ => ?_
  rw [incoming_eq] at hm
  have hin := (List.takeWhile_prefix _).subset hm
  rw [withInbox, Fifo.toList_ofList] at hin
  exact hs bytes hin hb

/-- What is left to read after a call was there before it. -/
theorem inbox_receiveWaiting (hu : s.isUp = true) (hf : s.device.transport.faults.receive = false)
    (clock : Clock) :
    ((perform clock .receiveWaiting).run s).state.device.transport.inbox.toList ⊆
      s.device.transport.inbox.toList := by
  obtain ⟨-, hleft, -⟩ := reads_receiveWaiting hu hf clock
  rw [hleft]
  exact ((List.tail_suffix _).trans (List.dropWhile_suffix _)).subset

/-- Receiving comes to an end by a read that gives nothing or fails, if each datagram that it reads
can be stamped. It takes the frames in front of the first one without bytes, and that one too; if
the first read fails it takes nothing. At one moment it does not matter whether frames with bytes
are handled in one call or in two: then one more read is counted, and that is all. -/
theorem receiveWaiting_batched {last : Time} (hu : s.isUp = true) (clock : Clock)
    (hs : s.device.transport.faults.receive = false →
      ∀ bytes ∈ s.device.transport.inbox.toList.takeWhile (· ≠ []),
        Ethernet.holdsDatagram bytes = true → ∀ i j, s.CanStamp last (clock.reading i j)) :
    let adapter := s.device.transport
    let frames := adapter.inbox.toList
    let batch := frames.takeWhile (· ≠ [])
    let behind := frames.dropWhile (· ≠ [])
    let o := (perform? last clock .receiveWaiting).run s
    o.value = some .nothing ∧ Drained clock s o.events o.state ∧
      (adapter.faults.receive = false →
        o.events.filterMap Event.read? = batch ∧
          o.state.device.transport.inbox.toList = behind.tail ∧
          o.state.counters.read.total = s.counters.read.total + batch.length + 1 ∧
          o.state.counters.read.failed = s.counters.read.failed +
            if adapter.attached = false ∧ behind = [] then 1 else 0) ∧
      (adapter.faults.receive = true ∨ adapter.attached = false ∧ frames = [] →
        ∃ error, o =
          { value := some .nothing
            state := { s with
              device.trace := s.device.trace.record clock.time .read .failed []
              counters.read := ⟨s.counters.read.total + 1, s.counters.read.failed + 1⟩ }
            events := [.readFailed error] }) ∧
      (adapter.faults.receive = false → adapter.attached = true →
        ∀ now xs ys, [] ∉ frames ++ xs ++ ys →
          (∀ bytes ∈ frames ++ xs ++ ys, Ethernet.holdsDatagram bytes = true →
            s.CanStamp last now) →
          let one := (perform? last now .receiveWaiting).run (s.incoming (xs ++ ys))
          let first := (perform? last now .receiveWaiting).run (s.incoming xs)
          let second := (perform? last now .receiveWaiting).run (first.state.incoming ys)
          one.value = some .nothing ∧ first.value = some .nothing ∧
            second.value = some .nothing ∧ first.events ++ second.events = one.events ∧
            second.state = { one.state with
              counters.read.total := one.state.counters.read.total + 1 }) := by
  intro adapter frames batch behind o
  have hrun : o = _ := run_receiveWaiting? hu hs
  have hvalue (clock : Clock) (s : Interface Adapter) :
      ((perform clock .receiveWaiting).run s).value = .nothing := rfl
  rw [Action.run_map] at hrun
  rw [hrun]
  refine ⟨rfl, drained_perform hu clock, fun hf => reads_receiveWaiting hu hf clock, ?_, ?_⟩
  · intro hf
    obtain ⟨error, hfailed⟩ := receiveWaiting_failed hu hf clock
    exact ⟨error, by rw [hfailed]⟩
  · intro hf ha now xs ys hb hstamp one first second
    have hone : one = _ := run_receiveWaiting?_incoming hu fun bytes hm =>
      hstamp bytes (by rwa [List.append_assoc])
    have hfirst : first = _ := run_receiveWaiting?_incoming hu fun bytes hm =>
      hstamp bytes (List.mem_append_left ys hm)
    rw [Action.run_map] at hone hfirst
    have hup : first.state.isUp = true := by
      rw [hfirst]
      exact (isUp_perform rfl (by simp) now (s.incoming xs)).trans hu
    have hconfig : first.state.config = s.config := by
      have hsame :=
        config_of_performed (performed_perform now .receiveWaiting (s.incoming xs)) trivial
      rw [hfirst]
      exact hsame
    have hleft : first.state.device.transport.inbox.toList ⊆ frames ++ xs := by
      rw [hfirst]
      refine List.Subset.trans (inbox_receiveWaiting (s := s.incoming xs) hu ?_ now) ?_
      · rw [incoming_eq]
        exact hf
      · rw [incoming_eq, withInbox, Fifo.toList_ofList]
        exact List.Subset.refl _
    have hsecond : second = _ := run_receiveWaiting?_incoming hup fun bytes hm hheld => by
      rw [CanStamp, hconfig]
      rcases List.mem_append.mp hm with hm | hm
      · exact hstamp bytes (List.mem_append_left ys (hleft hm)) hheld
      · exact hstamp bytes (List.mem_append_right _ hm) hheld
    rw [Action.run_map] at hsecond
    obtain ⟨hevents, hstate⟩ := receiveWaiting_twice hu hf ha hb now
    rw [hone, hsecond, hfirst]
    exact ⟨rfl, rfl, rfl, hevents, hstate⟩

/-- A question, a datagram and a frame that is too short. Behind a frame without bytes the same
question is left for the next call; without it one call or two answer the same. -/
theorem receiveWaiting_batched_question :
    ∃ s : Interface Adapter,
      ((create { address := ⟨192, 168, 1, 1⟩, mask := ⟨255, 255, 255, 0⟩ } 0).run
        ({ address := {} } : Adapter)).value = .ok s ∧
      let u := ((perform 0 (.setUp true)).run s).state
      let mac : MacAddress := ⟨2, 0, 0, 0, 0, 2⟩
      let asks := (Arp.Message.whoHas mac ⟨192, 168, 1, 2⟩ ⟨192, 168, 1, 1⟩).toFrame.bytes
      let letter := ((Datagram.make { dest := ⟨192, 168, 1, 1⟩ } [] [7]).toFrame {} mac).bytes
      let o := (perform? 30001 1 .receiveWaiting).run (u.incoming [asks, letter, [1], [], asks])
      let one := (perform? 30001 1 .receiveWaiting).run (u.incoming ([asks, letter] ++ [[1], asks]))
      let first := (perform? 30001 1 .receiveWaiting).run (u.incoming [asks, letter])
      let second := (perform? 30001 1 .receiveWaiting).run (first.state.incoming [[1], asks])
      u.isUp = true ∧ o.events.filterMap Event.read? = [asks, letter, [1]] ∧
        o.state.device.transport.inbox.toList = [asks] ∧
        o.state.counters.read.total = 4 ∧
        one.state.device.transport.outbox.toList.length = 2 ∧
        second.state.device.transport.outbox = one.state.device.transport.outbox ∧
        one.state.receiveQueue.length = 1 ∧
        second.state.receiveQueue = one.state.receiveQueue ∧
        one.state.counters.read.total = 5 ∧ second.state.counters.read.total = 6 := by
  obtain ⟨s, hc⟩ : ∃ s, ((create { address := ⟨192, 168, 1, 1⟩, mask := ⟨255, 255, 255, 0⟩ } 0).run
      ({ address := {} } : Adapter)).value = .ok s := ⟨_, rfl⟩
  refine ⟨s, hc, ?_⟩
  intro u mac asks letter o one first second
  have hu : u.isUp = true := rfl
  obtain ⟨hf, ha, hi, hcounted, hlifetime⟩ : u.device.transport.faults.receive = false ∧
      u.device.transport.attached = true ∧ u.device.transport.inbox.toList = [] ∧
      u.counters.read.total = 0 ∧ u.config.lifetime = 30000 := by
    cases hc
    exact ⟨rfl, rfl, rfl, rfl, rfl⟩
  have hs : u.CanStamp 30001 1 := by
    rw [CanStamp, hlifetime]
  obtain ⟨-, -, hread, -⟩ := receiveWaiting_batched (s := u.incoming [asks, letter, [1], [], asks])
    hu 1 fun _ _ _ _ _ _ => hs
  obtain ⟨hreads, hleft, htotal, -⟩ := hread hf
  obtain ⟨-, -, -, -, htwice⟩ := receiveWaiting_batched hu 1 fun _ _ _ _ _ _ => hs
  obtain ⟨-, -, -, -, hsecond⟩ := htwice hf ha 1 [asks, letter] [[1], asks]
    (by rw [hi]; decide +kernel) fun _ _ _ => hs
  have hin : (u.incoming [asks, letter, [1], [], asks]).device.transport.inbox.toList =
      [asks, letter, [1], [], asks] := by
    rw [incoming_eq, hi]
    exact Fifo.toList_ofList _
  rw [hin] at hreads hleft htotal
  obtain ⟨hsent, hqueued, hone⟩ : one.state.device.transport.outbox.toList.length = 2 ∧
      one.state.receiveQueue.length = 1 ∧ one.state.counters.read.total = 5 := by
    cases hc
    decide +kernel
  refine ⟨hu, hreads, hleft, ?_, hsent, ?_, hqueued, ?_, hone, ?_⟩
  · exact htotal.trans (congrArg (· + 3 + 1) hcounted)
  · exact congrArg (·.device.transport.outbox) hsecond
  · exact congrArg (·.receiveQueue) hsecond
  · exact (congrArg (·.counters.read.total) hsecond).trans (congrArg (· + 1) hone)

/-- With the longest lifetime that can be set, and by a clock that counts its seconds in 63 bits,
receiving breaks off at the first datagram and leaves the frame behind it. -/
theorem receiveWaiting_unstamped :
    ∃ s : Interface Adapter,
      ((create { address := ⟨192, 168, 1, 1⟩, mask := ⟨255, 255, 255, 0⟩
                 lifetime := Config.longestLifetime } 0).run
        ({ address := {} } : Adapter)).value = .ok s ∧
      let u := ((perform 0 (.setUp true)).run s).state
      let letter := ((Datagram.make { dest := ⟨192, 168, 1, 1⟩ } [] [7]).toFrame {} {}).bytes
      let o := (perform? Clock.lastTime 0 .receiveWaiting).run
        (u.incoming [letter, letter])
      u.isUp = true ∧ o.value.isNone = true ∧
        o.state.device.transport.inbox.toList = [letter] ∧ o.state.receiveQueue = .empty ∧
        o.state.counters.receive = ⟨1, 1, 0⟩ := by
  obtain ⟨s, hc⟩ : ∃ s, ((create { address := ⟨192, 168, 1, 1⟩, mask := ⟨255, 255, 255, 0⟩
                                   lifetime := Config.longestLifetime } 0).run
      ({ address := {} } : Adapter)).value = .ok s := ⟨_, rfl⟩
  refine ⟨s, hc, ?_⟩
  intro u letter o
  cases hc
  refine ⟨rfl, ?_, ?_, ?_, ?_⟩
  · decide +kernel
  · decide +kernel
  · decide +kernel
  · decide +kernel

end Interface
end LinkLayer
