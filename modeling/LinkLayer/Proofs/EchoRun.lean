import LinkLayer.Proofs.Rounds

/-!
The loopback run in closed form. Main statement: whatever the number and the length of its
datagrams, what the run reports and counts follows from these two alone (`session_exact`).
-/
namespace LinkLayer.Loopback

variable {options : Options} {side : Side} {clock : Nat → Clock} {n length : Nat}
  {ds : List Datagram} {v w : Situation} {c c' : Counters}

namespace Session

variable {session : Session}

theorem calls_submits (session : Session) (ds : List Datagram) :
    (ds.foldl (fun s d => s.run .near (.submit d)) session).calls = session.calls + ds.length := by
  induction ds generalizing session with
  | nil => rfl
  | cons d ds ih =>
    rw [List.foldl_cons, ih, calls_run, List.length_cons]
    omega

/-- The host hands in letters. -/
theorem At.submits (h : session.At clock .near v w c c') (ho : v.outbox = [])
    (hb : v.bearings.config = configOf options .near) (hd : ∀ d ∈ ds, Letter .near length d)
    (ht : Timely clock n) (hn : session.calls + ds.length ≤ n) :
    ∃ es, es.length = ds.length ∧ (∀ d ∈ es, Posted clock n .near length d) ∧
      (ds.foldl (fun s d => s.run .near (.submit d)) session).At clock .near
        { v with sendQueue := v.sendQueue ++ es } w c c' ∧
      (ds.foldl (fun s d => s.run .near (.submit d)) session).echoed = session.echoed ∧
      (ds.foldl (fun s d => s.run .near (.submit d)) session).returned = session.returned := by
  induction ds generalizing session v with
  | nil =>
    refine ⟨[], rfl, by simp, ?_, rfl, rfl⟩
    rw [List.append_nil]
    exact h
  | cons d ds ih =>
    obtain ⟨hone, hd⟩ := List.forall_mem_cons.mp hd
    rw [List.length_cons] at hn
    have hposted : Posted clock n .near length
        (d.stamp ((clock session.calls).time + (configOf options .near).lifetime)) :=
      hone.posted ht (by omega) 0 0
    obtain ⟨es, hlength, hes, hat, hechoed, hreturned⟩ :=
      ih (h.submit ho d) ho hb hd (by rw [calls_run]; omega)
    refine ⟨_ :: es, congrArg (· + 1) hlength, List.forall_mem_cons.mpr ⟨hposted, hes⟩, ?_,
      hechoed, hreturned⟩
    simp only [Situation.submit, hb, List.append_assoc, List.singleton_append] at hat
    exact hat

end Session

/-- What a side has counted when `n` letters went to it and as many came from it. -/
def exchanged (n length : Nat) (arp : Counters.Resolution) : Counters where
  read.total := 2 * n + 4
  write.total := 2 * n
  receive := { total := 2 * n, good := 2 * n }
  process := { normalIp := n, arp := n }
  send := { dequeued := n, ip := n, arp := n }
  arp := arp
  totals := {
    sentBytes := n * (62 + length)
    receivedBytes := n * (42 + max 60 (34 + length)) }

theorem exchanged_near (n length : Nat) :
    0 + n • askCost + (n • replyCost + n • releaseCost length + readCost) +
        (n • getCost length + readCost) + 2 • readCost =
      exchanged n length { answers := n, queued := n, dequeued := n } := by
  have hzero : (0 : Counters) = {} := rfl
  simp [hzero, Counters.add_eq, Counters.nsmul_eq, Counters.zipWith, askCost, replyCost,
    releaseCost, readCost, getCost, exchanged, Nat.mul_add]
  omega

theorem exchanged_far (n length : Nat) :
    0 + (n • requestCost + readCost) + (n • getCost length + readCost) + n • postCost length +
        2 • readCost =
      exchanged n length { requests := n } := by
  have hzero : (0 : Counters) = {} := rfl
  simp [hzero, Counters.add_eq, Counters.nsmul_eq, Counters.zipWith, requestCost, postCost,
    readCost, getCost, exchanged, Nat.mul_add]
  omega

theorem refused_near (n : Nat) :
    0 + n • refuseCost + readCost + 3 • readCost =
      { read.total := 4, send.dequeued := n, send.badLength := n, totals.dropped := n } := by
  have hzero : (0 : Counters) = {} := rfl
  simp [hzero, Counters.add_eq, Counters.nsmul_eq, Counters.zipWith, refuseCost, readCost]

/-- The bearings of a side at the end of a run in which all went well. -/
def known (options : Options) (side : Side) : Bearings :=
  if options.count = 0 then alone options side else met options side

theorem bindings_alone {s : Interface Adapter} (h : s.situation.bearings = alone options side) :
    s.bindings = [] := by
  have hcache : s.cache = (alone options side).cache := congrArg Bearings.cache h
  rw [Interface.bindings, hcache]
  cases side <;> rfl

theorem bindings_known {s : Interface Adapter} (h : s.situation.bearings = known options side) :
    s.bindings =
      if options.count = 0 then [] else [⟨ipOf side.other, macOf side.other⟩] := by
  rw [known] at h
  split at h
  · rw [bindings_alone h, if_pos ‹_›]
  · have hcache : s.cache = (met options side).cache := congrArg Bearings.cache h
    rw [Interface.bindings, hcache, if_neg ‹_›]
    cases side <;> rfl

/-- What is left of a run in which every datagram came back. -/
structure Returned (options : Options) (final : Session) : Prop where
  line : finishedLine options final = ⟨.info, "loopback finished",
    [("sent", toString options.count), ("echoed", toString options.count),
      ("returned", toString options.count)]⟩
  near : final.cable.near.counters = exchanged options.count options.payload
    { answers := options.count, queued := options.count, dequeued := options.count }
  far : final.cable.far.counters = exchanged options.count options.payload
    { requests := options.count }
  awaiting : ∀ side, (final.cable.interface side).counters.awaitingResolution = 0
  bindings : ∀ side, (final.cable.interface side).bindings =
    if options.count = 0 then [] else [⟨ipOf side.other, macOf side.other⟩]

/-- What is left of a run in which every datagram was too long. -/
structure Refused (options : Options) (final : Session) : Prop where
  line : finishedLine options final = ⟨.info, "loopback finished",
    [("sent", toString options.count), ("echoed", "0"), ("returned", "0")]⟩
  near : final.cable.near.counters =
    { read.total := 4, send.dequeued := options.count, send.badLength := options.count,
      totals.dropped := options.count }
  far : final.cable.far.counters = { read.total := 4 }
  bindings : ∀ side, (final.cable.interface side).bindings = []

/-- What is left of a run in which no datagram expired. -/
def Outcome (options : Options) (final : Session) : Prop :=
  if options.payload ≤ 1480 then Returned options final else Refused options final

/-- All that the options ask for can be laid out in memory. -/
structure Options.Fits (options : Options) : Prop where
  trace : options.trace ≤ Trace.maxCapacity
  payload : 0 < options.count → options.payload ≤ Bytes.maxAllocation

theorem overflows_eq_false_iff :
    overflows options = false ↔ (0 < options.count → options.payload ≤ Bytes.maxAllocation) := by
  simp [overflows]

/-- A trace that does not fit ends the run before anything is logged. -/
theorem session_of_trace (clock : Nat → Clock) (h : Trace.maxCapacity < options.trace) :
    session clock options = .error (.creation .capacity) := by
  have hnear (now : Time) (transport : Adapter) :
      ((Interface.create (hostConfig options) now).run transport).value = .error .capacity := by
    have hvalid : (hostConfig options).validate = .ok () := rfl
    have htrace : Trace.maxCapacity < (hostConfig options).traceCapacity := h
    simp only [Interface.create, Action.run, hvalid, if_pos htrace]
  simp only [session, hnear]
  rfl

/-- A trace that fits lets a side be created, with nothing to do. -/
theorem exists_created (h : options.trace ≤ Trace.maxCapacity) (side : Side) (now : Time) :
    ∃ s, ((Interface.create (configOf options side) now).run
        { address := macOf side : Adapter }).value = .ok s ∧
      s.situation = { Situation.idle (alone options side) with isUp := false } ∧ s.Works ∧
      s.counters = 0 := by
  have hvalid : (configOf options side).validate = .ok () := by cases side <;> rfl
  have htrace : ¬ Trace.maxCapacity < (configOf options side).traceCapacity := by
    cases side <;> exact Nat.not_lt.mpr h
  have hcache : ¬ Arp.Cache.maxCapacity < (configOf options side).cacheCapacity := by
    cases side <;> exact Nat.not_lt.mpr (by decide : 32 ≤ Arp.Cache.maxCapacity)
  simp only [Interface.create, Action.run, hvalid, if_neg htrace, Device.readAddress,
    Transport.readAddress, Adapter.readAddress, if_neg hcache]
  exact ⟨_, rfl, rfl, ⟨rfl, rfl⟩, rfl⟩

/-- Otherwise both interfaces are created and come up, and the run goes on if its payload fits. -/
theorem exists_up (clock : Nat → Clock) (h : options.trace ≤ Trace.maxCapacity) :
    ∃ up : Session, session clock options =
        (if overflows options then .error (.payload up.log) else .ok (up.drive options)) ∧
      up.At clock .near (.idle (alone options .near)) (.idle (alone options .far)) 0 0 ∧
      up.echoed = 0 ∧ up.returned = 0 := by
  obtain ⟨host, hnear, hhere, hworks, hcounters⟩ := exists_created h .near (clock 0).time
  obtain ⟨peer, hfar, hthere, hworks', hcounters'⟩ := exists_created h .far (clock 1).time
  simp only [configOf, macOf] at hnear hfar
  simp only [session, hnear, hfar]
  let created (log : Array Log.Line) : Session :=
    { cable := ⟨host, peer⟩, clock, level := logLevel options, calls := 2, log }
  have hat (log : Array Log.Line) : (created log).At clock .near
      { Situation.idle (alone options .near) with isUp := false }
      { Situation.idle (alone options .far) with isUp := false } 0 0 :=
    ⟨⟨⟨hhere, hthere, hworks, hworks'⟩, hcounters, hcounters'⟩, rfl⟩
  refine ⟨(created _).bringUp, rfl, ?_, rfl, rfl⟩
  exact Session.at_of_symm (((hat _).setUp rfl).symm.setUp rfl)

/-- Before the four rounds both sides are up, and the letters wait in the host's queue. -/
theorem exists_ready {final : Session} (h : session clock options = .ok final)
    (ht : Timely clock final.calls) :
    ∃ (ready : Session) (ds : List Datagram), final = ready.round.round.round.round ∧
      ready.round.round.calls < final.calls ∧ ds.length = options.count ∧
      (∀ d ∈ ds, Posted clock final.calls .near options.payload d) ∧
      ready.At clock .near { Situation.idle (alone options .near) with sendQueue := ds }
        (.idle (alone options .far)) 0 0 ∧
      ready.echoed = 0 ∧ ready.returned = 0 := by
  have htrace : options.trace ≤ Trace.maxCapacity := by
    by_contra hl
    rw [session_of_trace clock (by omega)] at h
    cases h
  obtain ⟨up, hup, hat, hechoed, hreturned⟩ := exists_up clock htrace
  obtain rfl : up.drive options = final := by
    rw [hup] at h
    split at h
    · cases h
    · exact Except.ok.inj h
  let ready := (datagrams options).foldl (fun s d => s.run .near (.submit d)) up
  have hfirst := ready.calls_lt_round
  have hsecond := ready.round.calls_lt_round
  have hthird := ready.round.round.calls_lt_round
  have hfourth : ready.round.round.round.calls < (up.drive options).calls :=
    ready.round.round.round.calls_lt_round
  have hcalls : ready.calls = up.calls + (datagrams options).length := Session.calls_submits _ _
  have hletters : ∀ d ∈ datagrams options, Letter .near options.payload d := fun _ hm =>
    letter_of_mem_datagrams hm
  obtain ⟨ds, hlength, hds, hready, hechoed', hreturned'⟩ :=
    hat.submits rfl rfl hletters ht (by omega)
  exact ⟨ready, ds, rfl, by omega, hlength.trans (length_datagrams options), hds, hready,
    hechoed'.trans hechoed, hreturned'.trans hreturned⟩

theorem finishedLine_eq {final : Session} {k : Nat} (he : final.echoed = k)
    (hr : final.returned = k) : finishedLine options final = ⟨.info, "loopback finished",
      [("sent", toString options.count), ("echoed", toString k), ("returned", toString k)]⟩ := by
  rw [finishedLine, he, hr]

/-- Where a run ends in which the letters are short enough. -/
theorem at_end {final : Session} (h : session clock options = .ok final)
    (ht : Timely clock final.calls) (hl : options.payload ≤ 1480) :
    final.At clock .near (.idle (known options .near)) (.idle (known options .far))
        (exchanged options.count options.payload
          { answers := options.count, queued := options.count, dequeued := options.count })
        (exchanged options.count options.payload { requests := options.count }) ∧
      final.echoed = options.count ∧ final.returned = options.count := by
  obtain ⟨ready, ds, rfl, hcalls, hlength, hds, hat, hechoed, hreturned⟩ := exists_ready h ht
  have hround := ready.round.calls_lt_round
  rw [← hlength]
  -- Sides that have no letters never meet, and all four rounds are idle.
  by_cases hne : ds = []
  · subst hne
    have hknown : ∀ side, known options side = alone options side := fun _ => if_pos hlength.symm
    have hreads : 0 + 4 • readCost = exchanged 0 options.payload {} := by
      rw [exchanged, Nat.zero_mul, Nat.zero_mul]
      rfl
    obtain ⟨hlast, hechoed', hreturned'⟩ :=
      hat.rounds_idle (Situation.rests_idle _) (Situation.rests_idle _) 4
    rw [hreads] at hlast
    rw [hknown, hknown]
    exact ⟨hlast, hechoed'.trans hechoed, hreturned'.trans hreturned⟩
  · have hknown : ∀ side, known options side = met options side := fun _ =>
      if_neg fun hz => hne (List.length_eq_zero_iff.mp (hlength.trans hz))
    obtain ⟨hmet, hechoed₁, hreturned₁⟩ := hat.round_meeting hds hl (by omega) hne
    obtain ⟨hback, hechoed₂, hreturned₂⟩ := hmet.round_echo hds hl ht (by omega)
    obtain ⟨hlast, hechoed₃, hreturned₃⟩ :=
      hback.rounds_idle (Situation.rests_idle _) (Situation.rests_idle _) 2
    rw [exchanged_near, exchanged_far] at hlast
    rw [hknown, hknown]
    refine ⟨hlast, hechoed₃.trans ?_, hreturned₃.trans ?_⟩
    · omega
    · omega

/-- Letters that are short enough all come back. -/
theorem returned_of_timely {final : Session} (h : session clock options = .ok final)
    (ht : Timely clock final.calls) (hl : options.payload ≤ 1480) : Returned options final := by
  obtain ⟨hat, hechoed, hreturned⟩ := at_end h ht hl
  have hnear := hat.tallied.here
  have hfar := hat.tallied.there
  refine ⟨finishedLine_eq hechoed hreturned, hnear, hfar, ?_, ?_⟩
  · intro side
    cases side with
    | near => simp [hnear, Counters.awaitingResolution, exchanged]
    | far =>
      rw [show final.cable.interface .far = final.cable.interface Side.near.other from rfl, hfar]
      rfl
  · intro side
    cases side with
    | near => exact bindings_known (congrArg Situation.bearings hat.tallied.stands.here)
    | far => exact bindings_known (congrArg Situation.bearings hat.tallied.stands.there)

/-- Letters that are too long all stay at home. -/
theorem refused_of_timely {final : Session} (h : session clock options = .ok final)
    (ht : Timely clock final.calls) (hl : 1480 < options.payload) : Refused options final := by
  obtain ⟨ready, ds, rfl, hcalls, hlength, hds, hat, hechoed, hreturned⟩ := exists_ready h ht
  have hfirst := ready.calls_lt_round
  have hsecond := ready.round.calls_lt_round
  obtain ⟨hrefused, hechoed₁, hreturned₁⟩ :=
    hat.round_tooLong (Situation.rests_idle _) hds hl (by omega)
  obtain ⟨hlast, hechoed₂, hreturned₂⟩ :=
    hrefused.rounds_idle ⟨rfl, rfl, rfl, rfl, rfl, rfl⟩ (Situation.rests_idle _) 3
  rw [hlength] at hlast
  refine ⟨finishedLine_eq (hechoed₂.trans (hechoed₁.trans hechoed))
    (hreturned₂.trans (hreturned₁.trans hreturned)), ?_, ?_, ?_⟩
  · exact hlast.tallied.here.trans (refused_near options.count)
  · exact hlast.tallied.there
  · intro side
    cases side with
    | near => exact bindings_alone (congrArg Situation.bearings hlast.tallied.stands.here)
    | far => exact bindings_alone (congrArg Situation.bearings hlast.tallied.stands.there)

/-- A run whose options fit ends, and the program with it. If no datagram expires on the way, all
come back if they fit the network, and none leaves the host if they do not. Options that do not fit
end the program with another code. -/
theorem session_exact (options : Options) (clock : Nat → Clock) :
    (options.Fits → ∃ final, session clock options = .ok final ∧
      (∀ args, Options.parse args = .ok options → Transcript.ofArgs clock args =
        { code := 0, lines := sessionLines options final }) ∧
      (Timely clock final.calls → Outcome options final)) ∧
    (¬ options.Fits → ∀ args, Options.parse args = .ok options →
      (Transcript.ofArgs clock args).code = overflowCode) := by
  constructor
  · intro hf
    obtain ⟨up, hup, -⟩ := exists_up clock hf.trace
    rw [overflows_eq_false_iff.mpr hf.payload, if_neg Bool.false_ne_true] at hup
    refine ⟨up.drive options, hup, ?_, ?_⟩
    · intro args hparse
      simp only [Transcript.ofArgs, hparse, hup, Transcript.ofRun]
    · intro ht
      by_cases hl : options.payload ≤ 1480
      · exact (if_pos hl).mpr (returned_of_timely hup ht hl)
      · exact (if_neg hl).mpr (refused_of_timely hup ht (by omega))
  · intro hf args hparse
    simp only [Transcript.ofArgs, hparse]
    by_cases htrace : options.trace ≤ Trace.maxCapacity
    · obtain ⟨up, hup, -⟩ := exists_up clock htrace
      have hover : overflows options = true := by
        rw [← Bool.not_eq_false, overflows_eq_false_iff]
        exact fun hpayload => hf ⟨htrace, hpayload⟩
      rw [hup, hover, if_pos rfl]
      rfl
    · rw [session_of_trace clock (by omega)]
      rfl

/-- Two datagrams, and a clock that moves on at each reading until it is almost too late. -/
theorem session_exact_two :
    let args := ["-c", "2", "--payload=1000"]
    let clock : Nat → Clock := fun i => .moving fun j k => min (10 * i + j + k) 29999
    Options.parse args = .ok { count := 2, payload := 1000 } ∧
      (Transcript.ofArgs clock args).code = 0 ∧
      ∃ final, session clock { count := 2, payload := 1000 } = .ok final ∧
        Timely clock final.calls ∧ final.cable.far.counters.totals.sentBytes = 2124 ∧
        final.cable.far.bindings = [⟨hostIp, hostMac⟩] := by
  intro args clock
  have hparse : Options.parse args = .ok { count := 2, payload := 1000 } := by decide
  obtain ⟨hall, -⟩ := session_exact { count := 2, payload := 1000 } clock
  obtain ⟨final, hfinal, hprogram, hend⟩ := hall ⟨by decide, by decide⟩
  have ht : Timely clock final.calls := by
    intro i _ i' _ j k j' k'
    change min (10 * i' + j' + k') 29999 < min (10 * i + j + k) 29999 + 30000
    omega
  have hreturned : Returned { count := 2, payload := 1000 } final := hend ht
  refine ⟨hparse, ?_, final, hfinal, ht, ?_, hreturned.bindings .far⟩
  · rw [hprogram args hparse]
  · rw [hreturned.far]
    rfl

/-- A trace for which there is no room ends the program though nothing is sent, and so does a
payload of that length. -/
theorem program_overflows :
    let largest := "18446744073709551615"
    (∀ clock, Transcript.ofArgs clock ["--count", "0", "--trace", largest] =
        { code := overflowCode, lines := [] }) ∧
      ∀ clock, (Transcript.ofArgs clock ["--count", "1", "--payload", largest]).code =
        overflowCode := by
  intro largest
  constructor
  · intro clock
    have hparse : Options.parse ["--count", "0", "--trace", largest] =
        .ok { count := 0, trace := 18446744073709551615 } := by decide +kernel
    simp only [Transcript.ofArgs, hparse]
    rw [session_of_trace clock (by decide)]
    rfl
  · intro clock
    have hparse : Options.parse ["--count", "1", "--payload", largest] =
        .ok { count := 1, payload := 18446744073709551615 } := by decide +kernel
    simp only [Transcript.ofArgs, hparse]
    have htrace : ({ count := 1, payload := 18446744073709551615 } : Options).trace ≤
        Trace.maxCapacity := Nat.zero_le _
    obtain ⟨up, hup, -⟩ := exists_up clock htrace
    rw [hup]
    rfl

end LinkLayer.Loopback
