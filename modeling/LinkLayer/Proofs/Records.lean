import LinkLayer.Proofs.ReceiveCounts
import LinkLayer.Proofs.Wire

/-!
What passes between an interface and its adapter, as somebody sees it who keeps a record at the
adapter. Such a record can be kept of every adapter (`Recorded`). Main statement: a call adds to it
just the frames of the events in which a frame was written or read, and frames that are empty
(`recorded_perform`), so a run does (`recordKept_run`).
-/
namespace LinkLayer

/-- The frame that a read took from the adapter, if it took one. -/
def givenBy : Except TransportError (Option Bytes) → List Bytes
  | .ok (some frame) => [frame]
  | _ => []

/-- The frames that an adapter took so far and those that it gave so far. -/
structure Transport.Record (τ : Type) [Transport τ] where
  taken : τ → List Bytes
  given : τ → List Bytes
  taken_transmit : ∀ (t : τ) (frame : Bytes), taken (transmit t frame).2 =
    taken t ++ if (transmit t frame).1.isOk then [frame] else []
  taken_receive : ∀ t : τ, taken (receive t).2 = taken t
  taken_readAddress : ∀ t : τ, taken (readAddress t).2 = taken t
  given_transmit : ∀ (t : τ) (frame : Bytes), given (transmit t frame).2 = given t
  given_receive : ∀ t : τ, given (receive t).2 = given t ++ givenBy (receive t).1
  given_readAddress : ∀ t : τ, given (readAddress t).2 = given t

/-- Whether a change from outside passes no frame between the adapter and the interface. -/
def Transport.Record.Spared {τ : Type} [Transport τ] (record : Record τ) (change : τ → τ) : Prop :=
  ∀ t, record.taken (change t) = record.taken t ∧ record.given (change t) = record.given t

/-- An adapter of any kind with a record beside it. -/
structure Recorded (τ : Type) where
  adapter : τ
  taken : List Bytes := []
  given : List Bytes := []

namespace Recorded

variable {τ : Type} [FiniteTransport τ]

instance : FiniteTransport (Recorded τ) where
  transmit recorded frame :=
    let result := Transport.transmit recorded.adapter frame
    (result.1, { recorded with
      adapter := result.2
      taken := recorded.taken ++ if result.1.isOk then [frame] else [] })
  receive recorded :=
    let result := Transport.receive recorded.adapter
    (result.1, { recorded with
      adapter := result.2, given := recorded.given ++ givenBy result.1 })
  readAddress recorded :=
    let result := Transport.readAddress recorded.adapter
    (result.1, { recorded with adapter := result.2 })
  waiting recorded := FiniteTransport.waiting recorded.adapter
  waiting_receive recorded := FiniteTransport.waiting_receive recorded.adapter
  waiting_transmit recorded := FiniteTransport.waiting_transmit recorded.adapter

/-- The record that is kept beside an adapter. -/
def record : Transport.Record (Recorded τ) where
  taken := Recorded.taken
  given := Recorded.given
  taken_transmit _ _ := rfl
  taken_receive _ := rfl
  taken_readAddress _ := rfl
  given_transmit _ _ := rfl
  given_receive _ := rfl
  given_readAddress _ := rfl

end Recorded

namespace Interface

variable {τ : Type} [FiniteTransport τ] {record : Transport.Record τ} {now : Time} {clock : Clock}
  {s t u : Interface τ} {events more : List Event}

/-- Only what the events say was written went to the adapter, and nothing came from it. -/
structure Handed (record : Transport.Record τ) (s t : Interface τ) (events : List Event) :
    Prop where
  taken : record.taken t.device.transport =
    record.taken s.device.transport ++ events.filterMap Event.written?
  given : record.given t.device.transport = record.given s.device.transport

theorem Handed.append (h : Handed record s t events) (h' : Handed record t u more) :
    Handed record s u (events ++ more) := by
  constructor
  · rw [h'.taken, h.taken, List.filterMap_append, List.append_assoc]
  · exact h'.given.trans h.given

theorem handed_offered {frame : Bytes} {value : Except TransportError Unit}
    (h : Offered now frame s { value, state := t, events }) : Handed record s t events := by
  have htaken := record.taken_transmit s.device.transport frame
  have hgiven := record.given_transmit s.device.transport frame
  cases h with
  | taken h | failed h =>
    rw [h] at htaken hgiven
    exact ⟨htaken, hgiven⟩

theorem local_handed (record : Transport.Record τ) : Local (Handed record) where
  offered := handed_offered
  quiet hd hn := by
    have hnone := List.filterMap_eq_nil_iff.mpr fun event hm =>
      written?_of_offered? (offered?_of_transfer? (hn event hm))
    exact ⟨by rw [hd, hnone, List.append_nil], by rw [hd]⟩
  append := Handed.append

/-- From the first state to the second the record gained the frames of the events. The frames that
are empty were taken from the adapter without an event. -/
structure RecordKept (record : Transport.Record τ) (s t : Interface τ) (events : List Event) :
    Prop where
  taken : record.taken t.device.transport =
    record.taken s.device.transport ++ events.filterMap Event.written?
  given : ∃ gained, record.given t.device.transport = record.given s.device.transport ++ gained ∧
    gained.filter (· ≠ []) = events.filterMap Event.read?

theorem RecordKept.append (h : RecordKept record s t events) (h' : RecordKept record t u more) :
    RecordKept record s u (events ++ more) := by
  obtain ⟨gained, hg, hf⟩ := h.given
  obtain ⟨gained', hg', hf'⟩ := h'.given
  constructor
  · rw [h'.taken, h.taken, List.filterMap_append, List.append_assoc]
  · refine ⟨gained ++ gained', ?_, ?_⟩
    · rw [hg', hg, List.append_assoc]
    · rw [List.filter_append, List.filterMap_append, hf, hf']

/-- Where nothing is read the record shows what was written only. -/
theorem Handed.kept (h : Handed record s t events) (hr : events.filterMap Event.read? = []) :
    RecordKept record s t events :=
  ⟨h.taken, [], by rw [h.given, List.append_nil], by rw [hr, List.filter_nil]⟩

/-- What leaves the adapter alone leaves the record alone. -/
theorem RecordKept.quiet (hd : t.device.transport = s.device.transport)
    (hw : events.filterMap Event.written? = []) (hr : events.filterMap Event.read? = []) :
    RecordKept record s t events :=
  Handed.kept ⟨by rw [hd, hw, List.append_nil], by rw [hd]⟩ hr

theorem recordKept_frameRead {result : Except TransportError (Option Bytes)}
    (h : FrameRead now s { value := result, state := t, events }) :
    RecordKept record s t events := by
  have htaken := record.taken_receive s.device.transport
  have hgiven := record.given_receive s.device.transport
  cases h with
  | frame hr =>
    rw [hr] at htaken hgiven
    refine ⟨?_, _, hgiven, rfl⟩
    exact htaken.trans (List.append_nil _).symm
  | nothing hr hb =>
    rw [hr] at htaken hgiven
    refine ⟨htaken.trans (List.append_nil _).symm, _, hgiven, ?_⟩
    rcases hb with rfl | rfl
    · rfl
    · rfl
  | failed hr =>
    rw [hr] at htaken hgiven
    exact ⟨htaken.trans (List.append_nil _).symm, _, hgiven, rfl⟩

theorem recordKept_readAddress {result : Except TransportError MacAddress} {transport : τ}
    (h : Transport.readAddress s.device.transport = (result, transport))
    (ht : t.device.transport = transport) (hw : events.filterMap Event.written? = [])
    (hr : events.filterMap Event.read? = []) : RecordKept record s t events := by
  have htaken := record.taken_readAddress s.device.transport
  have hgiven := record.given_readAddress s.device.transport
  rw [h, ← ht] at htaken hgiven
  exact Handed.kept ⟨by rw [htaken, hw, List.append_nil], hgiven⟩ hr

theorem recordKept_move {pass? : Option Pass} (h : Move clock pass? s events t) :
    RecordKept record s t events := by
  cases h with
  | passed hu hp =>
    have hh := (local_handed record).passed hp
    exact Handed.kept ⟨hh.taken, hh.given⟩ (idle_passed hp).frames
  | heard h =>
    exact ((local_handed record).heard h).kept (idle_heard h).frames
  | received hr h =>
    have hh := (local_handed record).takenIn h
    exact (recordKept_frameRead hr).append (hh.kept (handled_takenIn h).frames)
  | ended h hn => exact recordKept_frameRead h
  | addressRead h | addressKept h => exact recordKept_readAddress h rfl rfl rfl
  | taken =>
    refine .quiet rfl ?_ ?_
    · simp [List.filterMap_map, Function.comp_def, Event.written?]
    · simp [List.filterMap_map, Function.comp_def, Event.read?]
  | unheard | wentUp | wentDown | macSet | typeSelected | bindingsCleared | traceCleared =>
    exact .quiet rfl rfl rfl

theorem recordKept_chain {pass? : Option Pass} (h : Chain pass? clock s events t) :
    RecordKept record s t events := by
  induction h with
  | nil => exact .quiet rfl rfl rfl
  | cons h hc ih => exact (recordKept_move h).append ih

/-- A call adds to the record what its events say was written and read. -/
theorem recorded_perform (record : Transport.Record τ) (clock : Clock) (call : Call)
    (s : Interface τ) :
    RecordKept record s ((perform clock call).run s).state ((perform clock call).run s).events := by
  have h := performed_perform clock call s
  generalize (perform clock call).run s = o at h ⊢
  obtain ⟨reply, t, events⟩ := o
  cases h with
  | delivered h => exact ((local_handed record).delivered h).kept (idle_delivered h).frames
  | moved hs h => exact recordKept_chain h
  | submitted | addressSet | maskSet | queued | countersCleared => exact .quiet rfl rfl rfl

/-- Over a run the record gains what was written and read in it, if only calls pass frames. -/
theorem recordKept_run {steps : List (Step τ)}
    (hsteps : ∀ change, .adapter change ∈ steps → record.Spared change) (s : Interface τ) :
    RecordKept record s (run steps s).state (happened (run steps s).history) := by
  induction steps generalizing s with
  | nil => exact .quiet rfl rfl rfl
  | cons step steps ih =>
    have hrest := ih fun change hm => hsteps change (List.mem_cons_of_mem _ hm)
    cases step with
    | adapter change =>
      obtain ⟨htaken, hgiven⟩ := hsteps change List.mem_cons_self s.device.transport
      have hleft := hrest { s with device.transport := change s.device.transport }
      refine ⟨hleft.taken.trans (by rw [htaken]; rfl), ?_⟩
      obtain ⟨gained, hg, hf⟩ := hleft.given
      exact ⟨gained, hg.trans (by rw [hgiven]), hf⟩
    | call clock call => exact (recorded_perform record clock call s).append (hrest _)

end Interface
end LinkLayer
