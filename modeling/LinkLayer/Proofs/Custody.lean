import Mathlib.Logic.Relation
import LinkLayer.Adapter
import LinkLayer.Proofs.Ledger
import LinkLayer.Proofs.Accounts

/-!
Where the datagrams of a host are. Main statement: the ledger of a run can be kept, and at the end
it has in line what the queues of the interface hold (`run_keeps`). Whatever the bookings of a pass
keep is kept by a run.
-/
namespace LinkLayer

open Interface

variable {τ : Type} [FiniteTransport τ] {now : Time} {clock : Clock} {s t : Interface τ}
  {events : List Event}

theorem Config.route_congr {d d' : Datagram} (h : d.content = d'.content) (config : Config)
    (cache : Arp.Cache) : config.route cache d = config.route cache d' := by
  change config.route cache d.content = config.route cache d'.content
  rw [h]

theorem Datagram.toFrame_congr {d d' : Datagram} (h : d.content = d'.content)
    (dest source : MacAddress) : d.toFrame dest source = d'.toFrame dest source := by
  change d.content.toFrame dest source = d'.content.toFrame dest source
  rw [h]

namespace Ledger

variable {pass : Pass} {pass? : Option Pass} {l l' : Ledger} {e : Entry} {rest : List Entry}

/-- What a pass has left waiting. -/
def behind (l : Ledger) : Pass → List Entry
  | .first => l.deferred
  | .later => l.retained

/-- What a pass does not touch. -/
def aside (l : Ledger) : Pass → List Entry
  | .first => l.retained
  | .later => l.send

/-- What settling the next entry of a pass does to a ledger. -/
inductive Booked (pass : Pass) (config : Config) (cache : Arp.Cache) (mac : MacAddress)
    (l : Ledger) : Ledger → Prop
  | sent {e : Entry} {rest : List Entry} {hop : Ipv4.Address} {dest : MacAddress}
      (hq : l.queue pass = e :: rest)
      (hr : config.route cache e.datagram = .ok (.resolved hop dest)) :
      Booked pass config cache mac l
        { l.pop pass with sent := l.sent ++ [(e, (e.datagram.toFrame dest mac).bytes)] }
  | held {e : Entry} {rest : List Entry} {hop : Ipv4.Address} (hq : l.queue pass = e :: rest)
      (hr : config.route cache e.datagram = .ok (.unresolved hop)) :
      Booked pass config cache mac l ((l.pop pass).hold e pass)
  | dropped {e : Entry} {rest : List Entry} (hq : l.queue pass = e :: rest) :
      Booked pass config cache mac l { l.pop pass with dropped := l.dropped ++ [e] }
  | expired {e : Entry} {rest : List Entry} (hq : l.queue pass = e :: rest) :
      Booked pass config cache mac l { l.pop pass with expired := l.expired ++ [e] }

theorem take?_of_queue {d : Datagram} (hq : l.queue pass = e :: rest)
    (hc : e.content = d.content) : l.take? pass d = some (e, l.pop pass) :=
  take?_eq_some.mpr ⟨rest, hq, hc, rfl⟩

/-- ARP frames are of no concern to a ledger. -/
theorem notes_arpSent {message : Arp.Message}
    (h : ArpSent now message s { value := (), state := t, events }) (pass? : Option Pass)
    (l : Ledger) : events.foldlM (note pass?) l = some l := by
  cases h with
  | taken h =>
    cases h
    cases pass? <;> simp [note, ipv4Frame?_message]
  | failed h =>
    cases h
    cases pass? <;> rfl

theorem notes_sent {d : Datagram} (hq : l.queue pass = e :: rest) (hc : e.content = d.content)
    (hf : l.inFlight = none) (dest source : MacAddress) (taken written : Time) :
    [Event.frameWritten (d.toFrame dest source).bytes, .sent taken written d].foldlM
        (note (some pass)) l =
      some { l.pop pass with
        sent := l.sent ++ [(e, (e.datagram.toFrame dest source).bytes)] } := by
  have hi := ipv4Frame?_toFrame d dest source
  have hq' : { l with inFlight := some (d.toFrame dest source).bytes }.queue pass = e :: rest := by
    cases pass <;> exact hq
  have ht := take?_of_queue hq' hc
  rw [Datagram.toFrame_congr hc]
  cases pass <;> simp [note, hi, fly?, hf, send?, ht, pop]

/-- The ledger follows when a datagram is settled that is next in line. -/
theorem booked_settled {d : Datagram} {value : Option Datagram}
    (h : Settled pass clock d s { value, state := t, events }) (hq : l.queue pass = e :: rest)
    (hc : e.content = d.content) (hf : l.inFlight = none) :
    ∃ l', events.foldlM (note (some pass)) l = some l' ∧
      Booked pass s.config s.cache s.macAddress l l' ∧ l'.inFlight = none ∧
      l'.queue pass = rest ∧ l'.aside pass = l.aside pass ∧
      l'.behind pass = l.behind pass ++ (value.map fun _ => e).toList := by
  cases h with
  | expired h =>
    refine ⟨_, ?_, .expired hq, ?_, ?_, ?_, ?_⟩
    · cases pass <;>
        simp [note, Pass.place, expire?, take?_of_queue hq hc]
    · simpa using hf
    · cases pass <;> simp_all [queue, pop]
    · cases pass <;> rfl
    · cases pass <;> simp [behind, pop]
  | sent h hd =>
    cases hd with
    | @sent hop dest framer t events hr ho =>
      cases ho with
      | taken ht =>
        rw [Config.route_congr hc.symm] at hr
        refine ⟨_, ?_, .sent hq hr, ?_, ?_, ?_, ?_⟩
        · exact notes_sent hq hc hf dest s.macAddress _ _
        · cases pass <;> exact hf
        · cases pass <;> simp_all [queue, pop]
        · cases pass <;> rfl
        · cases pass <;> simp [behind, pop]
  | waits h hd =>
    cases hd with
    | deferred hr ha =>
      rw [Config.route_congr hc.symm] at hr
      refine ⟨_, ?_, .held hq hr, ?_, ?_, ?_, ?_⟩
      · have hh : l.hold? pass = some ((l.pop pass).hold e pass) := by simp [hold?, hq]
        rw [List.foldlM_cons]
        simp [note, hh, notes_arpSent ha]
      · cases pass <;> exact hf
      · cases pass <;> simp_all [queue, pop, hold]
      · cases pass <;> rfl
      · cases pass <;> simp [behind, pop, hold]
  | @dropped reason t events h hd =>
    have hn : (events ++ [pass.dropped d reason]).foldlM (note (some pass)) l =
        some { l.pop pass with dropped := l.dropped ++ [e] } := by
      have hd : events.foldlM (note (some pass)) l = some l := by
        cases hd with
        | refused hr => rfl
        | failed hr ho =>
          cases ho
          rfl
      rw [List.foldlM_append, hd]
      cases pass <;> simp [note, Pass.dropped, drop?, take?_of_queue hq hc]
    refine ⟨_, hn, .dropped hq, ?_, ?_, ?_, ?_⟩
    · simpa using hf
    · cases pass <;> simp_all [queue, pop]
    · cases pass <;> rfl
    · cases pass <;> simp [behind, pop]

/-- The ledger follows a whole pass if it has in line what the pass settles. -/
theorem booked_passed {ds : List Datagram} {o : Outcome (Interface τ) (List Datagram)}
    (h : Passed pass clock ds s o)
    (hq : (l.queue pass).map Entry.content = ds.map Datagram.content) (hf : l.inFlight = none) :
    ∃ l', o.events.foldlM (note (some pass)) l = some l' ∧
      Relation.ReflTransGen (Booked pass s.config s.cache s.macAddress) l l' ∧
      l'.inFlight = none ∧ l'.queue pass = [] ∧ l'.aside pass = l.aside pass ∧
      (l'.behind pass).map Entry.content =
        (l.behind pass).map Entry.content ++ o.value.map Datagram.content := by
  induction h generalizing l with
  | nil =>
    refine ⟨l, rfl, .refl, hf, ?_, rfl, by simp⟩
    simpa using hq
  | gone h hp ih | waits h hp ih =>
    obtain ⟨e, rest, hq, hc, hrest⟩ := List.map_eq_cons_iff.mp hq
    obtain ⟨m, hn, hb, hf, rfl, ha, hw⟩ := booked_settled h hq hc hf
    obtain ⟨device, framer, counters, rfl⟩ := sends_of_settled h
    obtain ⟨l', hn', hb', hf', hq', ha', hw'⟩ := ih hrest hf
    refine ⟨l', ?_, .head hb hb', hf', hq', ha'.trans ha, ?_⟩
    · simp [List.foldlM_append, hn, hn']
    · simpa [hw, hc] using hw'

/-- A ledger that has in line what the queues of an interface hold. -/
structure Holds (l : Ledger) (s : Interface τ) : Prop where
  deferred : (l.retained ++ l.deferred).map Entry.content =
    s.deferred.toList.map Datagram.content
  send : l.send.map Entry.content = s.sendQueue.toList.map Datagram.content
  inFlight : l.inFlight = none

/-- What a move does to a ledger. Only the passes book anything while the interface is up. -/
inductive Booking (config : Config) (mac : MacAddress) (cache cache' : Arp.Cache) (l : Ledger) :
    Ledger → Prop
  | nothing (hc : cache' = cache ∨ cache' = cache.reset) : Booking config mac cache cache' l l
  | first {l' : Ledger} (hc : cache' = cache)
      (hb : Relation.ReflTransGen (Booked .first config cache mac) l l') :
      Booking config mac cache cache' l l'
  | later {l' : Ledger}
      (hb : Relation.ReflTransGen (Booked .later config cache' mac) l.rejoin l')
      (hq : l'.deferred = []) : Booking config mac cache cache' l l'
  | released (hc : cache' = cache) : Booking config mac cache cache' l l.release

theorem notes_answered {message : Arp.Message}
    (h : Answered now message s { value := (), state := t, events }) (pass? : Option Pass)
    (l : Ledger) : events.foldlM (note pass?) l = some l := by
  cases h with
  | notOurs h => rfl
  | told h ho => cases pass? <;> rfl
  | asked h ho ha => cases pass? <;> simp [note, notes_arpSent ha]

theorem booking_heard {message : Arp.Message}
    (h : Heard clock message s { value := (), state := t, events }) (hl : l.Holds s) :
    ∃ l', events.foldlM (note (some .later)) l = some l' ∧ l'.Holds t ∧
      Booking s.config s.macAddress s.cache t.cache l l' ∧ t.config = s.config := by
  cases h with
  | @intro t u waiting events more ha hp =>
    obtain ⟨_, _, _, rfl⟩ := sends_of_answered ha
    obtain ⟨l', hn, hb, hf, hq, hs, hw⟩ := booked_passed hp (l := l.rejoin) hl.deferred hl.inFlight
    obtain ⟨_, _, _, rfl⟩ := sends_of_passed hp
    refine ⟨l', ?_, ⟨?_, ?_, hf⟩, .later hb hq, rfl⟩
    · change (events ++ more).foldlM (note (some .later)) l.rejoin = some l'
      rw [List.foldlM_append, notes_answered ha]
      exact hn
    · simp only [queue] at hq
      simp only [behind, rejoin] at hw
      simpa [hq] using hw
    · simp only [aside] at hs
      rw [hs]
      exact hl.send

theorem booking_takenIn {bytes : Bytes}
    (h : TakenIn clock bytes s { value := (), state := t, events }) (hl : l.Holds s) :
    ∃ l', events.foldlM (note (some .later)) l = some l' ∧ l'.Holds t ∧
      Booking s.config s.macAddress s.cache t.cache l l' ∧ t.config = s.config := by
  cases h with
  | heard hk hm ha =>
    obtain ⟨l', hn, hl', hb, hc⟩ := booking_heard ha ⟨hl.deferred, hl.send, hl.inFlight⟩
    exact ⟨l', hn, ⟨hl'.deferred, hl'.send, hl'.inFlight⟩, hb, hc⟩
  | unknown | broadcast | queued | badIp | badArp =>
    exact ⟨l, rfl, ⟨hl.deferred, hl.send, hl.inFlight⟩, .nothing (.inl rfl), rfl⟩

theorem notes_delivered {d : Datagram} {value : Except DropReason Delivery}
    (h : Delivered now d s { value, state := t, events }) (l : Ledger) :
    events.foldlM (note none) l = some l := by
  cases h with
  | refused h => rfl
  | deferred h ha => exact notes_arpSent ha none l
  | sent h ho | failed h ho =>
    cases ho
    rfl

theorem notes_expired (ds : List Datagram) (l : Ledger) :
    (ds.map (Event.expired now .receive)).foldlM (note none) l = some l := by
  induction ds with
  | nil => rfl
  | cons d ds ih => exact ih

omit [FiniteTransport τ] in
theorem Holds.release? (hl : l.Holds s) :
    l.release? s.sendQueue.toList s.deferred.toList = some l.release :=
  if_pos ⟨hl.deferred, hl.send⟩

theorem booking_move (h : Move clock pass? s events t) (hl : l.Holds s) :
    ∃ l', events.foldlM (note pass?) l = some l' ∧ l'.Holds t ∧
      Booking s.config s.macAddress s.cache t.cache l l' ∧ t.config = s.config := by
  cases h with
  | heard h => exact booking_heard h hl
  | passed hu hp =>
    obtain ⟨l', hn, hb, hf, hq, hs, hw⟩ := booked_passed (l := l) hp hl.send hl.inFlight
    obtain ⟨_, _, _, rfl⟩ := sends_of_passed hp
    refine ⟨l', hn, ⟨?_, ?_, hf⟩, .first rfl hb, rfl⟩
    · have hd := hl.deferred
      simp only [aside, behind] at hs hw
      simp only [List.map_append, Fifo.toList_append] at hd ⊢
      rw [hs, hw, ← List.append_assoc, hd]
    · simp only [queue] at hq
      simp [hq]
  | received hr h =>
    cases hr with
    | frame ht =>
      obtain ⟨l', hn, hl', hb, hc⟩ := booking_takenIn h ⟨hl.deferred, hl.send, hl.inFlight⟩
      exact ⟨l', hn, hl', hb, hc⟩
  | ended h hn =>
    cases h with
    | frame ht => exact absurd rfl (hn _)
    | nothing | failed =>
      exact ⟨l, rfl, ⟨hl.deferred, hl.send, hl.inFlight⟩, .nothing (.inl rfl), rfl⟩
  | wentDown =>
    refine ⟨l.release, ?_, ⟨rfl, rfl, hl.inFlight⟩, .released rfl, rfl⟩
    simp [note, hl.release?]
  | bindingsCleared =>
    exact ⟨l, rfl, ⟨hl.deferred, hl.send, hl.inFlight⟩, .nothing (.inr rfl), rfl⟩
  | taken =>
    exact ⟨l, notes_expired _ l, ⟨hl.deferred, hl.send, hl.inFlight⟩, .nothing (.inl rfl), rfl⟩
  | unheard | wentUp | addressRead | addressKept | macSet | typeSelected | traceCleared =>
    exact ⟨l, rfl, ⟨hl.deferred, hl.send, hl.inFlight⟩, .nothing (.inl rfl), rfl⟩

/-- A property of ledgers, settings and bindings that outlives every booking. -/
structure Kept (I : Ledger → Config → Arp.Cache → Prop) : Prop where
  booking : ∀ {l l' config mac cache cache'}, I l config cache →
    Booking config mac cache cache' l l' → I l' config cache'
  enter : ∀ {l config cache} (d : Datagram), I l config cache → I (l.enter d) config cache
  rejoin : ∀ {l config cache}, I l config cache → I l.rejoin config cache

variable {I : Ledger → Config → Arp.Cache → Prop}

theorem chain_keeps (hk : Kept I) (h : Chain pass? clock s events t) (hl : l.Holds s)
    (hi : I l s.config s.cache) :
    ∃ l', events.foldlM (note pass?) l = some l' ∧ l'.Holds t ∧ I l' t.config t.cache := by
  induction h generalizing l with
  | nil => exact ⟨l, rfl, hl, hi⟩
  | cons h hc ih =>
    obtain ⟨m, hn, hm, hb, hconfig⟩ := booking_move h hl
    obtain ⟨l', hn', hl', hi'⟩ := ih hm (hconfig ▸ hk.booking hi hb)
    exact ⟨l', by simp [List.foldlM_append, hn, hn'], hl', hi'⟩

omit [FiniteTransport τ] in
theorem Holds.rejoin (hl : l.Holds s) : l.rejoin.Holds s := ⟨hl.deferred, hl.send, hl.inFlight⟩

omit [FiniteTransport τ] in
theorem Holds.enter (hl : l.Holds s) (d : Datagram) (expiry : Time) :
    (l.enter d).Holds { s with sendQueue := s.sendQueue.enqueue (d.stamp expiry) } := by
  refine ⟨hl.deferred, ?_, hl.inFlight⟩
  simp only [Ledger.enter, Queue.toList_enqueue, List.map_append, hl.send]
  rfl

theorem record_keeps {call : Call} (reply : Reply) (hk : Kept I)
    (h : Performed clock s call events t)
    (hs : call.KeepsNetwork s.config ∨
      ∀ {l config cache} (config' : Config), I l config cache → I l config' cache)
    (hl : l.Holds s) (hi : I l s.config s.cache) :
    ∃ l', l.record ⟨call, reply, events⟩ = some l' ∧ l'.Holds t ∧ I l' t.config t.cache := by
  cases h with
  | submitted => exact ⟨_, rfl, (hl.enter _ _).rejoin, hk.rejoin (hk.enter _ hi)⟩
  | addressSet | maskSet =>
    refine ⟨_, rfl, ⟨hl.deferred, hl.send, hl.inFlight⟩, hk.rejoin ?_⟩
    rcases hs with hs | hs
    · cases hs
      exact hi
    · exact hs _ hi
  | countersCleared | queued =>
    exact ⟨_, rfl, ⟨hl.deferred, hl.send, hl.inFlight⟩, hk.rejoin hi⟩
  | delivered h =>
    have hn := notes_delivered h l
    obtain ⟨_, _, _, rfl⟩ := sends_of_delivered h
    refine ⟨l.rejoin, ?_, ⟨hl.deferred, hl.send, hl.inFlight⟩, hk.rejoin hi⟩
    simp [record, Made.submitted?, Call.submitted?, Call.pass?, hn]
  | moved hd hc =>
    obtain ⟨l', hn, hl', hi'⟩ := chain_keeps hk hc hl hi
    refine ⟨l'.rejoin, ?_, hl'.rejoin, hk.rejoin hi'⟩
    have hm : (⟨call, reply, events⟩ : Made).submitted? = none := by
      cases call <;> first | rfl | exact absurd rfl (hd _)
    simp [record, hm, hn]

/-- The ledger of a run can be kept, and what outlives every booking outlives the run. -/
theorem run_keeps (hk : Kept I) (steps : List (Step τ))
    (hs : (∀ step ∈ steps, step.KeepsNetwork s.config) ∨
      ∀ {l config cache} (config' : Config), I l config cache → I l config' cache)
    (hl : l.Holds s) (hi : I l s.config s.cache) :
    ∃ l', (run steps s).history.foldlM record l = some l' ∧ l'.Holds (run steps s).state ∧
      I l' (run steps s).state.config (run steps s).state.cache := by
  induction steps generalizing l s with
  | nil => exact ⟨l, rfl, hl, hi⟩
  | cons step steps ih =>
    cases step with
    | call clock call =>
      have hp := performed_perform clock call s
      obtain ⟨m, hr, hm, him⟩ := record_keeps ((perform clock call).run s).value hk hp
        (hs.imp_left fun h => h (.call clock call) List.mem_cons_self) hl hi
      obtain ⟨l', hr', hl', hi'⟩ := ih (hs.imp_left fun h step hm => by
        rw [config_of_performed hp (h (.call clock call) List.mem_cons_self)]
        exact h step (List.mem_cons_of_mem _ hm)) hm him
      exact ⟨l', by simp [run, hr, hr'], hl', hi'⟩
    | adapter change =>
      exact ih (hs.imp_left fun h step hm => h step (List.mem_cons_of_mem _ hm))
        ⟨hl.deferred, hl.send, hl.inFlight⟩ hi

/-- What a new interface was asked to do is all in its ledger. -/
theorem ledger_of_create {config : Config} {transport : τ} (hk : Kept I)
    (hc : ((create config now).run transport).value = .ok s) (steps : List (Step τ))
    (hs : (∀ step ∈ steps, step.KeepsNetwork config) ∨
      ∀ {l config cache} (config' : Config), I l config cache → I l config' cache)
    (hi : I {} config (.empty config.cacheCapacity)) :
    ∃ l, ofHistory (run steps s).history = some l ∧ Balanced (run steps s).history l ∧
      l.Holds (run steps s).state ∧
      I l (run steps s).state.config (run steps s).state.cache := by
  obtain ⟨device, mac, he⟩ := eq_of_create hc
  have hl : ({} : Ledger).Holds s := by
    subst he
    exact ⟨rfl, rfl, rfl⟩
  have hi : I {} s.config s.cache := by
    subst he
    exact hi
  have hconfig : s.config = config := by rw [he]
  rw [← hconfig] at hs
  obtain ⟨l, hr, hl, hi⟩ := run_keeps hk steps hs hl hi
  exact ⟨l, hr, balanced_ofHistory hr, hl, hi⟩

/-- Every datagram that was sent is in the frame that was written for it. -/
def Carried (l : Ledger) : Prop :=
  ∀ p ∈ l.sent, p.1.datagram.Fits ∧
    ∃ dest source, p.2 = (p.1.datagram.toFrame dest source).bytes

theorem carried_empty : Carried {} := by
  intro p hp
  cases hp

theorem carried_booked {config : Config} {cache : Arp.Cache} {mac : MacAddress}
    (h : Booked pass config cache mac l l') (hl : l.Carried) : l'.Carried := by
  cases h with
  | @sent e rest hop dest hq hr =>
    intro p hp
    rcases List.mem_append.mp hp with hp | hp
    · exact hl p hp
    · obtain rfl := List.mem_singleton.mp hp
      exact ⟨Config.fits_of_route hr, dest, mac, rfl⟩
  | held => cases pass <;> exact hl
  | dropped | expired => cases pass <;> exact hl

theorem carried_pass {config : Config} {cache : Arp.Cache} {mac : MacAddress}
    (h : Relation.ReflTransGen (Booked pass config cache mac) l l') (hl : l.Carried) :
    l'.Carried := by
  induction h with
  | refl => exact hl
  | tail _ hb ih => exact carried_booked hb ih

theorem kept_carried : Kept fun l _ _ => l.Carried where
  booking hl hb := by
    cases hb with
    | nothing | released => exact hl
    | first hc hb => exact carried_pass hb hl
    | later hb hq => exact carried_pass hb hl
  enter _ hl := hl
  rejoin hl := hl

end Ledger

namespace Interface

/-- At the end of every run, each datagram that the host handed in is in one place: deferred, in the
send queue, sent in one frame of its own, dropped, expired or released. What waits is in order and
as it was handed in. The host sends nothing on its own here. -/
theorem each_in_one_place {config : Config} {transport : τ}
    (hc : ((create config now).run transport).value = .ok s) (steps : List (Step τ))
    (ho : ∀ clock d, .call clock (.output d) ∉ steps) :
    ∃ l, Ledger.ofHistory (run steps s).history = some l ∧
      (l.deferred ++ l.send ++ l.sent.map (·.1) ++ l.dropped ++ l.expired ++ l.released).Perm
        (Ledger.numbered (steps.filterMap Step.submitted?)) ∧
      (l.deferred ++ l.send).Pairwise (·.number < ·.number) ∧
      l.deferred.map Entry.content =
        (run steps s).state.deferred.toList.map Datagram.content ∧
      l.send.map Entry.content = (run steps s).state.sendQueue.toList.map Datagram.content ∧
      l.sent.map (·.2) = (happened (run steps s).history).filterMap ipv4Frame? ∧
      (∀ p ∈ l.sent, ∃ dest source, p.2 = (p.1.datagram.toFrame dest source).bytes) ∧
      l.dropped.map Entry.content =
        ((happened (run steps s).history).filterMap Event.dropped?).map Datagram.content ∧
      l.expired.map Entry.content =
        ((happened (run steps s).history).filterMap Event.expired?).map Datagram.content ∧
      l.released.map Entry.content =
        ((happened (run steps s).history).flatMap Event.released).map Datagram.content ∧
      (run steps s).state.counters.totals.dropped =
        (happened (sinceCleared (run steps s).history)).countP Event.isDrop ∧
      (run steps s).state.counters.totals.expired =
        (happened (sinceCleared (run steps s).history)).countP Event.isExpiry := by
  obtain ⟨l, hr, hb, hl, hcarried⟩ := Ledger.ledger_of_create Ledger.kept_carried hc steps
    (.inr fun _ hl => hl) Ledger.carried_empty
  have hcounters : s.counters = {} := by
    obtain ⟨_, _, rfl⟩ := eq_of_create hc
    rfl
  obtain ⟨hdropped, hexpired⟩ := losses_run hcounters steps
  have hline : l.line = l.deferred ++ l.send := by simp [Ledger.line, hb.retained]
  have hentries := hb.entries
  have hframes := hb.frames
  have hdeferred := hl.deferred
  rw [hl.inFlight, passFrames_run ho] at hframes
  rw [submitted_run, Ledger.entries, Ledger.gone, hline] at hentries
  rw [hb.retained] at hdeferred
  refine ⟨l, hr, ?_, hline ▸ hb.line, hdeferred, hl.send, ?_, fun p hp => (hcarried p hp).2,
    hb.dropped, hb.expired, hb.released, hdropped, hexpired⟩
  · simpa only [List.append_assoc] using hentries
  · simpa using hframes

/-- The hardware address of the next hop is not known, so two datagrams wait for it. A third one was
not tried yet. -/
theorem each_in_one_place_deferred :
    ∃ (s : Interface Adapter) (steps : List (Step Adapter)) (l : Ledger),
      ((create { address := ⟨192, 168, 1, 1⟩, mask := ⟨255, 255, 255, 0⟩ } 0).run
        ({ address := {} } : Adapter)).value = .ok s ∧
      (∀ clock d, .call clock (.output d) ∉ steps) ∧
      Ledger.ofHistory (run steps s).history = some l ∧
      l.deferred = [⟨0, .make { dest := ⟨192, 168, 1, 2⟩ } [] [7]⟩,
        ⟨1, .make { dest := ⟨192, 168, 1, 2⟩ } [] [8]⟩] ∧
      l.send = [⟨2, .make { dest := ⟨192, 168, 1, 3⟩ } [] [9]⟩] := by
  obtain ⟨s, hc⟩ : ∃ s, ((create { address := ⟨192, 168, 1, 1⟩, mask := ⟨255, 255, 255, 0⟩ } 0).run
      ({ address := {} } : Adapter)).value = .ok s := ⟨_, rfl⟩
  obtain ⟨steps, hsteps⟩ : ∃ steps : List (Step Adapter), steps = [.call 0 (.setUp true),
      .call 0 (.submit (.make { dest := ⟨192, 168, 1, 2⟩ } [] [7])),
      .call 0 (.submit (.make { dest := ⟨192, 168, 1, 2⟩ } [] [8])),
      .call 0 .sendQueued,
      .call 0 (.submit (.make { dest := ⟨192, 168, 1, 3⟩ } [] [9]))] := ⟨_, rfl⟩
  have ho : ∀ clock d, .call clock (.output d) ∉ steps := by simp [hsteps]
  obtain ⟨l, hr, hp, hline, hd, hs, -⟩ := each_in_one_place hc steps ho
  refine ⟨s, steps, l, hc, ho, hr, ?_⟩
  have hqueues : l.deferred.length = 2 ∧ l.send.length = 1 := by
    rw [← l.deferred.length_map Entry.content, hd, ← l.send.length_map Entry.content, hs, hsteps]
    cases hc
    exact ⟨rfl, rfl⟩
  have hnumbered : Ledger.numbered (steps.filterMap Step.submitted?) =
      [⟨0, .make { dest := ⟨192, 168, 1, 2⟩ } [] [7]⟩,
        ⟨1, .make { dest := ⟨192, 168, 1, 2⟩ } [] [8]⟩,
        ⟨2, .make { dest := ⟨192, 168, 1, 3⟩ } [] [9]⟩] := by
    rw [hsteps]
    rfl
  rw [hnumbered] at hp
  -- Three datagrams came in and three are on their way out, so there is none anywhere else.
  have hlength := hp.length_eq
  simp only [List.length_append, hqueues, List.length_cons, List.length_nil] at hlength
  have hrest : l.sent.map (·.1) ++ l.dropped ++ l.expired ++ l.released = [] := by
    apply List.eq_nil_of_length_eq_zero
    simp only [List.length_append]
    omega
  simp only [List.append_assoc] at hp hrest
  rw [hrest, List.append_nil] at hp
  have hqueued := hp.eq_of_pairwise (fun a b _ _ ha hb => absurd hb (by omega)) hline (by simp)
  exact List.append_inj hqueued hqueues.1

end Interface
end LinkLayer
