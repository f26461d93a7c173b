import Mathlib.Data.List.DropRight
import LinkLayer.Adapter
import LinkLayer.Proofs.Lifetimes

/-!
What the trace tells of the adapter. Main statement: the trace shows the latest entries of a log
without bound, which has one entry for each use of the adapter that counts, since the interface was
created or the trace was cleared (`trace_shows_latest`). That nothing is missing is seen by somebody
who keeps a journal at the adapter (`Transport.Journal`).
-/
namespace LinkLayer

namespace Transport

/-- What a trace says of a use: its kind, how it went and its data. A read that gives no frame, or
one without bytes, is not worth an entry. -/
def Transfer.traced? : Transfer → Option (Trace.Kind × Trace.Verdict × Bytes)
  | transmit frame (.ok ()) => some (.write, .ok, frame)
  | transmit frame (.error _) => some (.write, .failed, frame)
  | receive (.ok none) | receive (.ok (some [])) => none
  | receive (.ok (some frame)) => some (.read, .ok, frame)
  | receive (.error _) => some (.read, .failed, [])
  | readAddress (.ok mac) => some (.addressRead, .ok, mac.toBytes)
  | readAddress (.error _) => some (.addressRead, .failed, [])

def Transfer.isTraced (transfer : Transfer) : Bool := transfer.traced?.isSome

def Transfer.isAddressRead : Transfer → Bool
  | readAddress _ => true
  | _ => false

/-- The entry for a use of the adapter that counts. Of long data the first 64 bytes are kept. -/
def entry (time : Time) : Trace.Kind × Trace.Verdict × Bytes → Trace.Entry
  | (kind, verdict, data) => ⟨time, kind, verdict, data.length, data.take 64⟩

/-- The entries for uses of the adapter, each made at its own time. -/
def entries (times : List Time) (transfers : List Transfer) : List Trace.Entry :=
  List.zipWith entry times (transfers.filterMap Transfer.traced?)

/-- There is one time for each use that counts. -/
def Covers (times : List Time) (transfers : List Transfer) : Prop :=
  times.length = (transfers.filterMap Transfer.traced?).length

variable {times later : List Time} {transfers more : List Transfer}

theorem Covers.append (h : Covers times transfers) (h' : Covers later more) :
    Covers (times ++ later) (transfers ++ more) := by
  rw [Covers, List.filterMap_append, List.length_append, List.length_append, h, h']

theorem entries_append (h : Covers times transfers) (later : List Time) (more : List Transfer) :
    entries (times ++ later) (transfers ++ more) =
      entries times transfers ++ entries later more := by
  rw [entries, List.filterMap_append, List.zipWith_append h]
  rfl

theorem length_entries (h : Covers times transfers) :
    (entries times transfers).length = times.length := by
  rw [entries, List.length_zipWith, ← h, Nat.min_self]

theorem countP_isAddressRead_filter (transfers : List Transfer) :
    (transfers.filter Transfer.isTraced).countP Transfer.isAddressRead =
      transfers.countP Transfer.isAddressRead := by
  rw [List.countP_filter]
  apply List.countP_congr
  intro transfer _
  cases transfer with
  | readAddress result => cases result <;> simp [Transfer.isTraced, Transfer.traced?]
  | _ => simp [Transfer.isAddressRead]

/-- All that an adapter was used for so far, in order. -/
structure Journal (τ : Type) [Transport τ] where
  made : τ → List Transfer
  made_transmit : ∀ (t : τ) (frame : Bytes), made (Transport.transmit t frame).2 =
    made t ++ [.transmit frame (Transport.transmit t frame).1]
  made_receive : ∀ t : τ, made (Transport.receive t).2 =
    made t ++ [.receive (Transport.receive t).1]
  made_readAddress : ∀ t : τ, made (Transport.readAddress t).2 =
    made t ++ [.readAddress (Transport.readAddress t).1]

end Transport

open Transport (Transfer Journal Covers entries)

/-- An adapter of any kind with a journal beside it. -/
structure Journaled (τ : Type) where
  adapter : τ
  made : List Transfer := []

namespace Journaled

variable {τ : Type} [FiniteTransport τ]

instance : FiniteTransport (Journaled τ) where
  transmit journaled frame :=
    let result := Transport.transmit journaled.adapter frame
    (result.1, ⟨result.2, journaled.made ++ [.transmit frame result.1]⟩)
  receive journaled :=
    let result := Transport.receive journaled.adapter
    (result.1, ⟨result.2, journaled.made ++ [.receive result.1]⟩)
  readAddress journaled :=
    let result := Transport.readAddress journaled.adapter
    (result.1, ⟨result.2, journaled.made ++ [.readAddress result.1]⟩)
  waiting journaled := FiniteTransport.waiting journaled.adapter
  waiting_receive journaled := FiniteTransport.waiting_receive journaled.adapter
  waiting_transmit journaled := FiniteTransport.waiting_transmit journaled.adapter

/-- The journal that is kept beside an adapter. -/
def journal : Journal (Journaled τ) where
  made := Journaled.made
  made_transmit _ _ := rfl
  made_receive _ := rfl
  made_readAddress _ := rfl

end Journaled

namespace Trace

variable {trace : Trace} {capacity : Nat} {log : List Entry}

/-- The trace holds the latest entries of a log, as many as it can. -/
structure Shows (trace : Trace) (capacity : Nat) (log : List Entry) : Prop where
  holds : trace.capacity = capacity
  latest : trace.entries.toList = log.rtake capacity

theorem Shows.clear (h : trace.Shows capacity log) : trace.clear.Shows capacity [] :=
  ⟨h.holds, (List.rtake_nil capacity).symm⟩

theorem Shows.add (h : trace.Shows capacity log) (entry : Entry) :
    (trace.add entry).Shows capacity (log ++ [entry]) := by
  obtain ⟨rfl, hlatest⟩ := h
  exact ⟨capacity_add, entries_add hlatest⟩

theorem Shows.foldl (h : trace.Shows capacity log) (more : List Entry) :
    (more.foldl Trace.add trace).Shows capacity (log ++ more) := by
  induction more generalizing trace log with
  | nil => simpa using h
  | cons entry more ih =>
    have hrest := ih (h.add entry)
    rwa [List.append_assoc] at hrest

end Trace

namespace Interface

variable {τ : Type} [FiniteTransport τ] {now : Time} {clock : Clock} {times later : List Time}
  {s t u : Interface τ} {events more : List Event} {pass : Pass} {call : Call}

/-- The uses of the adapter that events tell of. -/
def transfers (events : List Event) : List Transfer := events.filterMap Event.transfer?

theorem transfers_append (events more : List Event) :
    transfers (events ++ more) = transfers events ++ transfers more := List.filterMap_append

/-- The entries that calls leave, after those that were there before. The time of each is a reading
of the clock of its call, and the readings are in order. Clearing takes all entries away. -/
inductive Logs : List Trace.Entry → List (Clock × Made) → List Trace.Entry → Prop
  | nil {log : List Trace.Entry} : Logs log [] log
  | cleared {log last : List Trace.Entry} {clock : Clock} {made : Made}
      {calls : List (Clock × Made)} (hc : made.call = .control .clearTrace)
      (h : Logs [] calls last) : Logs log ((clock, made) :: calls) last
  | kept {log last : List Trace.Entry} {clock : Clock} {made : Made} {calls : List (Clock × Made)}
      {times : List Time} (hc : made.call ≠ .control .clearTrace) (hr : clock.InRows times)
      (ht : Covers times (transfers made.events))
      (h : Logs (log ++ entries times (transfers made.events)) calls last) :
      Logs log ((clock, made) :: calls) last

/-- From the first state to the second the trace got the entries of the events, made at these times,
and a journal tells of the same uses of the adapter, and of reads that are not worth an entry. -/
structure Traced (times : List Time) (s t : Interface τ) (events : List Event) : Prop where
  covers : Covers times (transfers events)
  trace : t.device.trace = (entries times (transfers events)).foldl Trace.add s.device.trace
  journal : ∀ journal : Journal τ, ∃ gained,
    journal.made t.device.transport = journal.made s.device.transport ++ gained ∧
      gained.filter Transfer.isTraced = transfers events

theorem Traced.append (h : Traced times s t events) (h' : Traced later t u more) :
    Traced (times ++ later) s u (events ++ more) := by
  constructor
  · rw [transfers_append]
    exact h.covers.append h'.covers
  · rw [h'.trace, h.trace, transfers_append, Transport.entries_append h.covers, List.foldl_append]
  · intro journal
    obtain ⟨gained, hg, hf⟩ := h.journal journal
    obtain ⟨gained', hg', hf'⟩ := h'.journal journal
    refine ⟨gained ++ gained', ?_, ?_⟩
    · rw [hg', hg, List.append_assoc]
    · rw [List.filter_append, hf, hf', transfers_append]

/-- What leaves the device alone leaves no entry. -/
theorem Traced.quiet (hd : t.device = s.device) (hn : transfers events = []) :
    Traced [] s t events := by
  constructor
  · rw [hn]
    rfl
  · rw [hd]
    rfl
  · intro journal
    exact ⟨[], by rw [hd, List.append_nil], by rw [hn, List.filter_nil]⟩

/-- The adapter is used once. -/
theorem Traced.used {transfer : Transfer}
    (hmade : ∀ journal : Journal τ, journal.made t.device.transport =
      journal.made s.device.transport ++ [transfer]) (hc : Covers times [transfer])
    (htrace : t.device.trace = (entries times [transfer]).foldl Trace.add s.device.trace)
    (he : transfers events = [transfer].filter Transfer.isTraced) : Traced times s t events := by
  have hpick : (transfers events).filterMap Transfer.traced? =
      [transfer].filterMap Transfer.traced? := by
    rw [he]
    cases h : transfer.traced? <;> simp [Transfer.isTraced, h]
  constructor
  · rw [Covers, hpick]
    exact hc
  · rw [htrace, entries, entries, hpick]
  · intro journal
    exact ⟨[transfer], hmade journal, he.symm⟩

theorem traced_offered {frame : Bytes} {value : Except TransportError Unit}
    (h : Offered now frame s { value, state := t, events }) : Traced [now] s t events := by
  have hmade := fun journal : Journal τ => journal.made_transmit s.device.transport frame
  cases h with
  | taken h | failed h =>
    rw [h] at hmade
    exact .used hmade rfl rfl rfl

theorem timed_traced : Timed (Traced (τ := τ)) where
  offered := traced_offered
  quiet hd hn := .quiet hd (List.filterMap_eq_nil_iff.mpr hn)
  append := Traced.append

/-- A read that gives no frame leaves no entry, so its reading shows nowhere. -/
theorem traced_frameRead {result : Except TransportError (Option Bytes)}
    (h : FrameRead now s { value := result, state := t, events }) :
    ∃ times, times.Sublist [now] ∧ Traced times s t events := by
  have hmade := fun journal : Journal τ => journal.made_receive s.device.transport
  cases h with
  | frame hr | failed hr =>
    rw [hr] at hmade
    exact ⟨[now], .refl _, .used hmade rfl rfl rfl⟩
  | nothing hr hb =>
    rw [hr] at hmade
    rcases hb with rfl | rfl
    · exact ⟨[], List.nil_sublist _, .used hmade rfl rfl rfl⟩
    · exact ⟨[], List.nil_sublist _, .used hmade rfl rfl rfl⟩

theorem traced_move (h : Move clock (some pass) s events t) :
    ∃ times, clock.InRow times ∧ Traced times s t events := by
  cases h with
  | passed hu hp =>
    obtain ⟨times, hrow, ht⟩ := timed_traced.passed hp
    exact ⟨times, hrow, ht.covers, ht.trace, ht.journal⟩
  | heard h => exact timed_traced.heard h
  | unheard => exact ⟨[], .nil, .quiet rfl rfl⟩
  | received hr h =>
    obtain ⟨times, hsub, hread⟩ := traced_frameRead hr
    obtain ⟨more, hrow, htaken⟩ := timed_traced.takenIn h
    exact ⟨times ++ more, .of_sublist hsub hrow, hread.append htaken⟩
  | ended h hn =>
    obtain ⟨times, hsub, hread⟩ := traced_frameRead h
    exact ⟨times, .single hsub, hread⟩

theorem traced_chain (h : Chain (some pass) clock s events t) :
    ∃ times, clock.InRows times ∧ Traced times s t events := by
  induction h with
  | nil => exact ⟨[], .nil, .quiet rfl rfl⟩
  | cons h hc ih =>
    obtain ⟨times, hrow, hmove⟩ := traced_move h
    obtain ⟨more, hrows, hrest⟩ := ih
    exact ⟨times ++ more, .row hrow hrows, hmove.append hrest⟩

/-- Frames go to the adapter and come from it, and its address is not asked for. -/
def Unasked (events : List Event) : Prop :=
  (transfers events).countP Transfer.isAddressRead = 0

theorem Unasked.append (h : Unasked events) (h' : Unasked more) : Unasked (events ++ more) := by
  rw [Unasked, transfers_append, List.countP_append, h, h']

theorem local_unasked : Local fun (_ _ : Interface τ) events => Unasked events where
  offered h := by cases h <;> rfl
  quiet _ hn := by
    rw [Unasked, transfers, List.filterMap_eq_nil_iff.mpr hn]
    rfl
  append := Unasked.append

theorem unasked_move (h : Move clock (some pass) s events t) : Unasked events := by
  cases h with
  | passed hu hp => exact local_unasked.passed hp
  | heard h => exact local_unasked.heard h
  | unheard => rfl
  | received hr h =>
    cases hr with
    | @frame b bytes transport hr =>
      have hread : Unasked [.frameRead (b :: bytes)] := rfl
      exact hread.append (local_unasked.takenIn h)
  | ended h hn => cases h <;> rfl

theorem unasked_chain (h : Chain (some pass) clock s events t) : Unasked events := by
  induction h with
  | nil => rfl
  | cons h hc ih => exact (unasked_move h).append ih

/-- What the adapter answers when it is asked for its address is traced, and little else changes. -/
theorem traced_macAddress (clock : Clock) (s : Interface τ) :
    let o := (perform clock (.control .macAddress)).run s
    Traced [clock.time] s o.state o.events ∧
      transfers o.events = [.readAddress (Transport.readAddress s.device.transport).1] ∧
      ∃ trace hardwareAddress, o.state = { s with
        device := ⟨(Transport.readAddress s.device.transport).2, trace⟩, hardwareAddress } := by
  have hmade := fun journal : Journal τ => journal.made_readAddress s.device.transport
  rcases h : Transport.readAddress s.device.transport with ⟨result, transport⟩
  rw [h] at hmade
  simp only [perform, control, refreshAddress, onDevice, Action.run_bind, Action.run_get,
    Action.run_onPart, Action.run_pure]
  simp only [Action.run, Device.readAddress, h]
  cases result with
  | ok mac => exact ⟨.used hmade rfl rfl rfl, rfl, _, _, rfl⟩
  | error error => exact ⟨.used hmade rfl rfl rfl, rfl, _, _, rfl⟩

/-- Whether a call leaves the device alone, whatever state it finds. -/
def Call.isAside : Call → Bool
  | setUp _ | setAddress _ | setMask _ | submit _ | takeReceived | handleIp _ => true
  | control .macAddress | control .clearTrace => false
  | control _ => true
  | sendQueued | receiveWaiting | output _ | handleArp _ => false

theorem device_of_isAside (h : call.isAside = true) (clock : Clock) (s : Interface τ) :
    ((perform clock call).run s).state.device = s.device ∧
      transfers ((perform clock call).run s).events = [] := by
  cases call with
  | setUp up => cases up <;> exact ⟨rfl, rfl⟩
  | setAddress | setMask | submit => exact ⟨rfl, rfl⟩
  | takeReceived =>
    simp [perform, run_takeReceived, transfers, List.filterMap_map, Function.comp_def,
      Event.transfer?]
  | handleIp frame =>
    cases hp : Ipv4.Packet.ofFrame frame <;>
      simp [perform, handleIp, hp, transfers, Event.transfer?]
  | control request =>
    cases request with
    | macAddress | clearTrace => cases h
    | _ => exact ⟨rfl, rfl⟩
  | sendQueued | receiveWaiting | output | handleArp => cases h

/-- Only clearing touches the trace in another way. -/
theorem traced_perform (hc : call ≠ .control .clearTrace) (clock : Clock) (s : Interface τ) :
    let o := (perform clock call).run s
    ∃ times, clock.InRows times ∧ Traced times s o.state o.events := by
  have haside (ha : call.isAside = true) : ∃ times, clock.InRows times ∧
      Traced times s ((perform clock call).run s).state ((perform clock call).run s).events := by
    obtain ⟨hd, hn⟩ := device_of_isAside ha clock s
    exact ⟨[], .nil, .quiet hd hn⟩
  cases call with
  | sendQueued | receiveWaiting | handleArp => exact traced_chain (chain_of_pass rfl clock s)
  | output d =>
    simp only [perform, Action.run_bind, Action.run_pure, List.append_nil]
    obtain ⟨times, hsub, ht⟩ := timed_traced.delivered (delivered_output clock.time d s)
    exact ⟨times, (Clock.InRow.single hsub).inRows, ht⟩
  | control request =>
    cases request with
    | macAddress =>
      have hrow : clock.InRow [clock.time] := .single (.refl _)
      exact ⟨_, hrow.inRows, (traced_macAddress clock s).1⟩
    | clearTrace => exact absurd rfl hc
    | _ => exact haside rfl
  | setUp | setAddress | setMask | submit | takeReceived | handleIp => exact haside rfl

/-- The adapter is asked for its address when the host asks, and only then. -/
theorem addressReads_perform (clock : Clock) (call : Call) (s : Interface τ) :
    (transfers ((perform clock call).run s).events).countP Transfer.isAddressRead =
      if call = .control .macAddress then 1 else 0 := by
  cases call with
  | sendQueued | receiveWaiting | handleArp => exact unasked_chain (chain_of_pass rfl clock s)
  | output d =>
    simp only [perform, Action.run_bind, Action.run_pure, List.append_nil]
    exact local_unasked.delivered (delivered_output clock.time d s)
  | control request =>
    cases request with
    | macAddress =>
      have h := (traced_macAddress clock s).2.1
      exact congrArg (List.countP Transfer.isAddressRead) h
    | _ => rfl
  | _ => rw [(device_of_isAside rfl clock s).2]; rfl

/-- Creation asks the adapter for its address, and that is the first entry. -/
theorem traced_create {config : Config} {transport : τ}
    (h : ((create config now).run transport).value = .ok s) :
    let created := ((create config now).run transport).events
    transfers created = [.readAddress (.ok s.hardwareAddress)] ∧
      s.device.trace.Shows config.traceCapacity (entries [now] (transfers created)) ∧
      ∀ journal : Journal τ, journal.made s.device.transport =
        journal.made transport ++ [.readAddress (.ok s.hardwareAddress)] := by
  obtain ⟨hvalid, htrace, hcache, -⟩ := created h
  have hmade := fun journal : Journal τ => journal.made_readAddress transport
  rcases hr : Transport.readAddress transport with ⟨result, after⟩
  rw [hr] at hmade
  simp only [Action.run, create, hvalid, if_neg (Nat.not_lt.mpr htrace),
    if_neg (Nat.not_lt.mpr hcache), Device.readAddress, hr] at h ⊢
  cases result with
  | error error => cases h
  | ok mac =>
    cases h
    have hnew : ({ capacity := config.traceCapacity } : Trace).Shows config.traceCapacity [] :=
      ⟨rfl, (List.rtake_nil _).symm⟩
    exact ⟨rfl, hnew.add _, hmade⟩

/-- A journal gains what the events of a call tell of, and the address is in it if it was asked
for. -/
theorem journaled_perform (journal : Journal τ) (clock : Clock) (call : Call) (s : Interface τ) :
    let o := (perform clock call).run s
    ∃ gained, journal.made o.state.device.transport =
        journal.made s.device.transport ++ gained ∧
      gained.filter Transfer.isTraced = transfers o.events ∧
      gained.countP Transfer.isAddressRead = if call = .control .macAddress then 1 else 0 := by
  have hreads := addressReads_perform clock call s
  by_cases hc : call = .control .clearTrace
  · subst hc
    exact ⟨[], (List.append_nil _).symm, rfl, rfl⟩
  · obtain ⟨times, -, htraced⟩ := traced_perform hc clock s
    obtain ⟨gained, hgained, hfilter⟩ := htraced.journal journal
    refine ⟨gained, hgained, hfilter, ?_⟩
    rw [← hfilter, Transport.countP_isAddressRead_filter] at hreads
    exact hreads

theorem shows_run {capacity : Nat} {log : List Trace.Entry}
    (h : s.device.trace.Shows capacity log) (steps : List (Step τ)) :
    ∃ last, Logs log (timeline steps s) last ∧
      (run steps s).state.device.trace.Shows capacity last := by
  induction steps generalizing s log with
  | nil => exact ⟨log, .nil, h⟩
  | cons step steps ih =>
    cases step with
    | adapter change => exact ih h
    | call clock call =>
      by_cases hc : call = .control .clearTrace
      · subst hc
        obtain ⟨last, hlogs, hshows⟩ :=
          ih (s := ((perform clock (.control .clearTrace)).run s).state) h.clear
        exact ⟨last, .cleared rfl hlogs, hshows⟩
      · obtain ⟨times, hrows, htraced⟩ := traced_perform hc clock s
        have hnext := h.foldl (entries times (transfers ((perform clock call).run s).events))
        rw [← htraced.trace] at hnext
        obtain ⟨last, hlogs, hshows⟩ := ih hnext
        exact ⟨last, .kept hc hrows htraced.covers hlogs, hshows⟩

end Interface
end LinkLayer
