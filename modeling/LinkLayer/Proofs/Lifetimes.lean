import LinkLayer.Proofs.Accounts
import LinkLayer.Proofs.Limits
import LinkLayer.Proofs.ReceiveCounts
import LinkLayer.Proofs.SendCounts
import LinkLayer.Proofs.Wire

/-!
How long datagrams may wait. A queue looks at the lifetime of its head only, but what waits stands
in the order in which lifetimes end. Main statement: while the clock does not go back, a datagram is
taken off its queue to be sent or handed out before the end of its lifetime and given up at its end
or later (`lifetimes_respected`). Its frame may be written later than that
(`written_too_late`).
-/
namespace LinkLayer

namespace Clock

variable {clock part whole other : Clock} {now taken written : Time}

/-- A reading of the clock. -/
def Tells (clock : Clock) (now : Time) : Prop := ∃ i j, clock.reading i j = now

/-- Two readings of the clock, the second one right after the first. -/
def TellsBoth (clock : Clock) (now next : Time) : Prop :=
  ∃ i j, clock.reading i j = now ∧ clock.reading i (j + 1) = next

/-- The clock does not go back during the call. -/
structure Forward (clock : Clock) : Prop where
  row : ∀ {i j k}, j ≤ k → clock.reading i j ≤ clock.reading i k
  rows : ∀ {i i' j k}, i < i' → clock.reading i j ≤ clock.reading i' k

/-- The clock of one call tells no time after those of a later call. -/
def Before (clock other : Clock) : Prop :=
  ∀ {now next}, clock.Tells now → other.Tells next → now ≤ next

theorem tells_time (clock : Clock) : clock.Tells clock.time := ⟨0, 0, rfl⟩

theorem forward_still (now : Time) : (still now).Forward where
  row _ := Nat.le_refl now
  rows _ := Nat.le_refl now

theorem before_still {next : Time} (h : now ≤ next) : (still now).Before (still next) := by
  rintro _ _ ⟨_, _, rfl⟩ ⟨_, _, rfl⟩
  exact h

theorem Forward.later (h : clock.Forward) : clock.later.Forward where
  row := by
    intro i j k hjk
    simp only [reading_later]
    exact h.row (Nat.succ_le_succ hjk)
  rows := by
    intro i i' j k hi
    simp only [reading_later]
    exact h.rows hi

theorem Forward.nextFrame (h : clock.Forward) : clock.nextFrame.Forward where
  row := by
    intro i j k hjk
    simp only [reading_nextFrame]
    exact h.row hjk
  rows := by
    intro i i' j k hi
    simp only [reading_nextFrame]
    exact h.rows (Nat.succ_lt_succ hi)

/-- What is left of a clock after some readings and some frames. -/
def Within (part whole : Clock) : Prop :=
  ∃ rows columns, ∀ i j, part.reading i j = whole.reading (i + rows) (j + columns)

theorem Within.refl (clock : Clock) : clock.Within clock := ⟨0, 0, fun _ _ => rfl⟩

theorem Within.trans (h : part.Within whole) (h' : whole.Within other) : part.Within other := by
  obtain ⟨rows, columns, hr⟩ := h
  obtain ⟨rows', columns', hr'⟩ := h'
  refine ⟨rows + rows', columns + columns', ?_⟩
  intro i j
  rw [hr, hr', Nat.add_assoc, Nat.add_assoc]

theorem later_within (clock : Clock) : clock.later.Within clock :=
  ⟨0, 1, fun _ _ => reading_later⟩

theorem nextFrame_within (clock : Clock) : clock.nextFrame.Within clock :=
  ⟨1, 0, fun _ _ => reading_nextFrame⟩

theorem after_within (clock : Clock) (d : Datagram) : (clock.after d).Within clock := by
  unfold after
  split
  · exact .refl clock
  · exact clock.later.later_within.trans clock.later_within

theorem Tells.of_within (h : part.Tells now) (hw : part.Within whole) : whole.Tells now := by
  obtain ⟨i, j, rfl⟩ := h
  obtain ⟨rows, columns, hr⟩ := hw
  exact ⟨_, _, (hr i j).symm⟩

theorem TellsBoth.of_within (h : part.TellsBoth taken written) (hw : part.Within whole) :
    whole.TellsBoth taken written := by
  obtain ⟨i, j, rfl, rfl⟩ := h
  obtain ⟨rows, columns, hr⟩ := hw
  refine ⟨i + rows, j + columns, (hr i j).symm, ?_⟩
  rw [hr, Nat.add_right_comm]

end Clock

/-- The datagram that was accepted for the host, and when. -/
def Event.arrival? : Event → Option (Time × Datagram)
  | queued now d => some (now, d)
  | _ => none

/-- Both lifetimes have an end, and that of the first one does not come later. -/
def Datagram.NotAfter (a b : Datagram) : Prop :=
  ∃ x y, a.expiry = some x ∧ b.expiry = some y ∧ x ≤ y

namespace Queue

variable {queue : Queue} {now : Time} {d : Datagram}

theorem mem_of_dequeue (h : (queue.dequeue now).datagram = some d) : d ∈ queue.toList := by
  rw [← queue.dequeue_append now, h]
  simp

/-- The head is the first to grow too old. -/
theorem unexpired_of_dequeue (hs : queue.toList.Pairwise Datagram.NotAfter)
    (h : (queue.dequeue now).datagram = some d) :
    ∀ other ∈ (queue.dequeue now).rest.toList, other.isExpired now = false := by
  intro other hm
  have hd := not_isExpired_of_dequeue h
  rw [← queue.dequeue_append now, h] at hs
  obtain ⟨x, y, hx, hy, hxy⟩ := (List.pairwise_append.mp hs).2.2 d (by simp) other hm
  simp only [Datagram.isExpired, hx, hy, Option.any_some, decide_eq_false_iff_not] at hd ⊢
  exact fun hle => hd (Nat.le_trans hxy hle)

end Queue

namespace Interface

variable {τ : Type} [FiniteTransport τ] {now : Time} {clock : Clock} {s t : Interface τ}
  {events : List Event}
  {pass : Pass} {pass? : Option Pass} {call : Call}

/-- What waits on its way out, in the order in which it was handed in. -/
def line (s : Interface τ) : List Datagram := s.deferred.toList ++ s.sendQueue.toList

/-- The calls of a run, each with its clock and what came of it. -/
def timeline : List (Step τ) → Interface τ → List (Clock × Made)
  | [], _ => []
  | .call clock call :: steps, s =>
    let outcome := (perform clock call).run s
    (clock, ⟨call, outcome.value, outcome.events⟩) :: timeline steps outcome.state
  | .adapter change :: steps, s =>
    timeline steps { s with device.transport := change s.device.transport }

/-- What the host handed in, and when. -/
def submissions (calls : List (Clock × Made)) : List (Time × Datagram) :=
  calls.filterMap fun (clock, made) => made.submitted?.map (clock.time, ·)

/-- How a datagram waits that was handed in at a time. -/
def stamped (lifetime : Time) (submission : Time × Datagram) : Datagram :=
  submission.2.stamp (submission.1 + lifetime)

/-- What was accepted for the host, and when. -/
def arrivals (events : List Event) : List (Time × Datagram) := events.filterMap Event.arrival?

theorem arrivals_append (events more : List Event) :
    arrivals (events ++ more) = arrivals events ++ arrivals more := List.filterMap_append

theorem map_snd_arrivals (events : List Event) :
    (arrivals events).map (·.2) = events.filterMap Event.queued? := by
  rw [arrivals, List.map_filterMap]
  congr 1
  funext event
  cases event <;> rfl

theorem arrivals_of_queued (h : events.filterMap Event.queued? = []) : arrivals events = [] := by
  rw [← map_snd_arrivals] at h
  exact List.map_eq_nil_iff.mp h

def Step.clock? : Step τ → Option Clock
  | .call clock _ => some clock
  | .adapter _ => none

/-- The clock never goes back, neither during a call nor from one to the next. -/
structure Forward (steps : List (Step τ)) : Prop where
  calls : ∀ clock ∈ steps.filterMap Step.clock?, clock.Forward
  between : (steps.filterMap Step.clock?).Pairwise Clock.Before

section Line

theorem waiting_sublist {ds : List Datagram} {o : Outcome (Interface τ) (List Datagram)}
    (h : Passed pass clock ds s o) : o.value.Sublist ds := by
  induction h with
  | nil => exact .slnil
  | gone h hp ih => exact ih.cons _
  | waits h hp ih => exact ih.cons_cons _

theorem line_heard {message : Arp.Message}
    (h : Heard clock message s { value := (), state := t, events }) :
    t.line.Sublist s.line := by
  cases h with
  | intro ha hp =>
    have hw := waiting_sublist hp
    obtain ⟨_, _, _, rfl⟩ := sends_of_answered ha
    obtain ⟨_, _, _, rfl⟩ := sends_of_passed hp
    simp only [line, Fifo.toList_ofList]
    exact hw.append_right _

theorem line_takenIn {bytes : Bytes}
    (h : TakenIn clock bytes s { value := (), state := t, events }) :
    t.line.Sublist s.line := by
  cases h with
  | heard hk hm ha =>
    have hl := line_heard ha
    exact hl
  | unknown | broadcast | queued | badIp | badArp => exact .refl _

/-- Nothing but the host puts a datagram in line. -/
theorem line_move (h : Move clock pass? s events t) : t.line.Sublist s.line := by
  cases h with
  | passed hu hp =>
    have hw := waiting_sublist hp
    obtain ⟨_, _, _, rfl⟩ := sends_of_passed hp
    simp only [line, Fifo.toList_append, Fifo.toList_empty, List.append_nil]
    exact hw.append_left _
  | heard h => exact line_heard h
  | received hr h =>
    cases hr with
    | frame hr =>
      have hl := line_takenIn h
      exact hl
  | ended h hn => cases h <;> exact .refl _
  | wentDown => exact List.nil_sublist _
  | unheard | taken | wentUp | addressRead | addressKept | macSet | typeSelected
  | bindingsCleared | traceCleared => exact .refl _

theorem line_chain (h : Chain pass? clock s events t) : t.line.Sublist s.line := by
  induction h with
  | nil => exact .refl _
  | cons h hc ih => exact ih.trans (line_move h)

/-- A datagram that is handed in goes to the end of the line. -/
theorem line_performed (h : Performed clock s call events t) :
    t.line.Sublist
        (s.line ++ (call.submitted?.map (·.stamp (clock.time + s.config.lifetime))).toList) ∧
      t.config.lifetime = s.config.lifetime := by
  cases h with
  | submitted =>
    refine ⟨?_, rfl⟩
    simp [line, Call.submitted?]
  | addressSet | maskSet | queued | countersCleared =>
    exact ⟨List.sublist_append_left _ _, rfl⟩
  | delivered h =>
    obtain ⟨_, _, _, rfl⟩ := sends_of_delivered h
    exact ⟨List.sublist_append_left _ _, rfl⟩
  | moved hs h =>
    exact ⟨(line_chain h).trans (List.sublist_append_left _ _), by rw [config_of_chain h]⟩

end Line

section Arrivals

/-- What is queued for the host is what was, and what is queued now, one datagram after the other,
each of which starts its lifetime at a reading of the clock. -/
structure Accepts (clock : Clock) (s t : Interface τ) (events : List Event) : Prop where
  queue : t.receiveQueue.toList.Sublist
    (s.receiveQueue.toList ++ events.filterMap Event.queued?)
  expiry : ∀ p ∈ arrivals events, p.2.expiry = some (p.1 + s.config.lifetime)
  told : ∀ p ∈ arrivals events, clock.Tells p.1
  ordered : clock.Forward → (arrivals events).Pairwise fun p q => p.1 ≤ q.1

omit [FiniteTransport τ] in
/-- Nothing is queued, and the queue loses at most some of its elements. -/
theorem accepts_of_sublist (hq : t.receiveQueue.toList.Sublist s.receiveQueue.toList)
    (he : events.filterMap Event.queued? = []) : Accepts clock s t events := by
  have hnone := arrivals_of_queued he
  exact ⟨hq.trans (List.sublist_append_left _ _), by simp [hnone], by simp [hnone],
    by simp [hnone]⟩

omit [FiniteTransport τ] in
theorem accepts_enqueue {d : Datagram} (ht : clock.Tells now)
    (hq : t.receiveQueue = s.receiveQueue.enqueue (d.stamp (now + s.config.lifetime))) :
    Accepts clock s t [.queued now (d.stamp (now + s.config.lifetime))] := by
  refine ⟨?_, ?_, ?_, ?_⟩
  · simp [hq, Event.queued?]
  · intro p hp
    obtain rfl : p = (now, d.stamp (now + s.config.lifetime)) := List.mem_singleton.mp hp
    rfl
  · intro p hp
    obtain rfl : p = (now, d.stamp (now + s.config.lifetime)) := List.mem_singleton.mp hp
    exact ht
  · intro _
    exact List.pairwise_singleton _ _

theorem accepts_heard {message : Arp.Message}
    (h : Heard clock message s { value := (), state := t, events }) : Accepts clock s t events := by
  have hq := receiveQueue_heard h
  exact accepts_of_sublist (by rw [hq]) (idle_heard h).queued

theorem accepts_takenIn {bytes : Bytes}
    (h : TakenIn clock bytes s { value := (), state := t, events }) : Accepts clock s t events := by
  cases h with
  | heard hk hm ha =>
    have hh := accepts_heard ha
    exact ⟨hh.queue, hh.expiry, hh.told, hh.ordered⟩
  | queued hk hp => exact accepts_enqueue clock.tells_time rfl
  | unknown | broadcast | badIp | badArp => exact accepts_of_sublist (.refl _) rfl

/-- What is queued for a frame is queued at the next reading. -/
theorem time_arrivals_takenIn {bytes : Bytes}
    (h : TakenIn clock bytes s { value := (), state := t, events }) :
    ∀ p ∈ arrivals events, p.1 = clock.time := by
  cases h with
  | heard hk hm ha => simp [arrivals_of_queued (idle_heard ha).queued]
  | queued hk hp => simp [arrivals, Event.arrival?]
  | unknown | broadcast | badIp | badArp => simp [arrivals, Event.arrival?]

theorem accepts_move (h : Move clock pass? s events t) :
    Accepts clock s t events ∧ ∀ p ∈ arrivals events, p.1 = clock.later.time := by
  by_cases hp : pass? = some .later
  · subst hp
    cases h with
    | heard h => exact ⟨accepts_heard h, by simp [arrivals_of_queued (idle_heard h).queued]⟩
    | unheard => exact ⟨accepts_of_sublist (.refl _) rfl, by simp [arrivals]⟩
    | received hr h =>
      cases hr with
      | frame hr =>
        have ht := accepts_takenIn h
        exact ⟨⟨ht.queue, ht.expiry, fun p hp => (ht.told p hp).of_within clock.later_within,
          fun hf => ht.ordered hf.later⟩, fun p hp => time_arrivals_takenIn h p hp⟩
    | ended h hn =>
      cases h <;> exact ⟨accepts_of_sublist (.refl _) rfl, by simp [arrivals, Event.arrival?]⟩
  · have hi := idle_move hp h
    exact ⟨accepts_of_sublist hi.queue.sublist hi.queued, by simp [arrivals_of_queued hi.queued]⟩

/-- What is queued later is queued at a time that is told later. -/
theorem accepts_chain (h : Chain pass? clock s events t) : Accepts clock s t events := by
  induction h with
  | nil => exact accepts_of_sublist (.refl _) rfl
  | @cons clock s t u events more h hc ih =>
    obtain ⟨hm, htime⟩ := accepts_move h
    have hconfig := config_of_move h
    constructor
    · rw [List.filterMap_append, ← List.append_assoc]
      exact ih.queue.trans (hm.queue.append_right _)
    · simp only [arrivals_append, List.forall_mem_append]
      refine ⟨hm.expiry, ?_⟩
      rw [← hconfig]
      exact ih.expiry
    · simp only [arrivals_append, List.forall_mem_append]
      exact ⟨hm.told, fun p hp => (ih.told p hp).of_within clock.nextFrame_within⟩
    · intro hf
      rw [arrivals_append, List.pairwise_append]
      refine ⟨hm.ordered hf, ih.ordered hf.nextFrame, ?_⟩
      intro p hp q hq
      obtain ⟨i, j, hq⟩ := ih.told q hq
      rw [htime p hp, ← hq, Clock.time, Clock.reading_later, Clock.reading_nextFrame]
      exact hf.rows (Nat.succ_pos i)

theorem accepts_performed (h : Performed clock s call events t) : Accepts clock s t events := by
  cases h with
  | queued hp => exact accepts_enqueue clock.tells_time rfl
  | delivered h =>
    have hi := idle_delivered h
    exact accepts_of_sublist hi.queue.sublist hi.queued
  | moved hs h => exact accepts_chain h
  | submitted | addressSet | maskSet | countersCleared => exact accepts_of_sublist (.refl _) rfl

end Arrivals

section Runs

theorem map_fst_timeline (steps : List (Step τ)) (s : Interface τ) :
    (timeline steps s).map (·.1) = steps.filterMap Step.clock? := by
  induction steps generalizing s with
  | nil => rfl
  | cons step steps ih =>
    cases step with
    | call clock call => exact congrArg (clock :: ·) (ih _)
    | adapter change => exact ih _

theorem map_snd_timeline (steps : List (Step τ)) (s : Interface τ) :
    (timeline steps s).map (·.2) = (run steps s).history := by
  induction steps generalizing s with
  | nil => rfl
  | cons step steps ih =>
    cases step with
    | call clock call => exact congrArg (_ :: ·) (ih _)
    | adapter change => exact ih _

theorem timeline_pairwise {steps : List (Step τ)} (hf : Forward steps) (s : Interface τ) :
    (timeline steps s).Pairwise fun p q => p.1.Before q.1 := by
  have hbetween := hf.between
  rw [← map_fst_timeline steps s] at hbetween
  exact List.pairwise_map.mp hbetween

theorem forward_of_mem_timeline {steps : List (Step τ)} (hf : Forward steps)
    {call : Clock × Made} (hm : call ∈ timeline steps s) : call.1.Forward := by
  apply hf.calls
  rw [← map_fst_timeline steps s]
  exact List.mem_map_of_mem hm

theorem submissions_pairwise {calls : List (Clock × Made)}
    (h : calls.Pairwise fun p q => p.1.Before q.1) :
    (submissions calls).Pairwise fun p q => p.1 ≤ q.1 := by
  refine h.filterMap _ ?_
  intro p q hpq a ha b hb
  obtain ⟨_, -, rfl⟩ := Option.map_eq_some_iff.mp ha
  obtain ⟨_, -, rfl⟩ := Option.map_eq_some_iff.mp hb
  exact hpq p.1.tells_time q.1.tells_time

theorem line_run (steps : List (Step τ)) (s : Interface τ) :
    (run steps s).state.line.Sublist
        (s.line ++ (submissions (timeline steps s)).map (stamped s.config.lifetime)) ∧
      (run steps s).state.config.lifetime = s.config.lifetime := by
  induction steps generalizing s with
  | nil => exact ⟨List.sublist_append_left _ _, rfl⟩
  | cons step steps ih =>
    cases step with
    | call clock call =>
      obtain ⟨hl, hconfig⟩ := line_performed (performed_perform clock call s)
      obtain ⟨hrest, hlast⟩ := ih ((perform clock call).run s).state
      rw [hconfig] at hrest hlast
      have hboth := hrest.trans (hl.append_right _)
      refine ⟨?_, hlast⟩
      cases hc : call.submitted? with
      | none => simpa [run, timeline, submissions, Made.submitted?, hc] using hboth
      | some d => simpa [run, timeline, submissions, Made.submitted?, hc, stamped] using hboth
    | adapter change => exact ih _

theorem arrivals_run (steps : List (Step τ)) (s : Interface τ) :
    (run steps s).state.receiveQueue.toList.Sublist
        (s.receiveQueue.toList ++ (arrivals (happened (run steps s).history)).map (·.2)) ∧
      ∀ p ∈ arrivals (happened (run steps s).history),
        p.2.expiry = some (p.1 + s.config.lifetime) := by
  induction steps generalizing s with
  | nil => exact ⟨List.sublist_append_left _ _, List.forall_mem_nil _⟩
  | cons step steps ih =>
    cases step with
    | call clock call =>
      have h := performed_perform clock call s
      have ha := accepts_performed h
      obtain ⟨hrest, hexpiry⟩ := ih ((perform clock call).run s).state
      rw [(line_performed h).2] at hexpiry
      have hboth := hrest.trans (ha.queue.append_right _)
      have hhistory : happened (run (.call clock call :: steps) s).history =
          ((perform clock call).run s).events ++
            happened (run steps ((perform clock call).run s).state).history := rfl
      rw [hhistory, arrivals_append]
      refine ⟨?_, List.forall_mem_append.mpr ⟨ha.expiry, hexpiry⟩⟩
      rwa [List.map_append, map_snd_arrivals, ← List.append_assoc]
    | adapter change => exact ih _

theorem accepts_of_mem_timeline {steps : List (Step τ)} {call : Clock × Made}
    (hm : call ∈ timeline steps s) :
    ∃ found left, Accepts (τ := τ) call.1 found left call.2.events := by
  induction steps generalizing s with
  | nil => cases hm
  | cons step steps ih =>
    cases step with
    | call clock made =>
      rcases List.mem_cons.mp hm with rfl | hm
      · exact ⟨_, _, accepts_performed (performed_perform clock made s)⟩
      · exact ih hm
    | adapter change => exact ih hm

theorem arrivals_pairwise {steps : List (Step τ)} (hf : Forward steps) (s : Interface τ) :
    (arrivals (happened (run steps s).history)).Pairwise fun p q => p.1 ≤ q.1 := by
  rw [← map_snd_timeline, happened, arrivals, List.filterMap_flatMap, List.pairwise_flatMap,
    List.forall_mem_map, List.pairwise_map]
  refine ⟨?_, (timeline_pairwise hf s).imp_of_mem ?_⟩
  · intro call hm
    obtain ⟨_, _, ha⟩ := accepts_of_mem_timeline hm
    exact ha.ordered (forward_of_mem_timeline hf hm)
  · intro call next hm hm' hbefore p hp q hq
    obtain ⟨_, _, ha⟩ := accepts_of_mem_timeline hm
    obtain ⟨_, _, ha'⟩ := accepts_of_mem_timeline hm'
    exact hbefore (ha.told p hp) (ha'.told q hq)

/-- Lifetimes that began one after the other end one after the other. -/
theorem notAfter_of_starts {starts : List (Time × Datagram)} {f : Time × Datagram → Datagram}
    {lifetime : Time} (h : starts.Pairwise fun p q => p.1 ≤ q.1)
    (he : ∀ p ∈ starts, (f p).expiry = some (p.1 + lifetime)) :
    (starts.map f).Pairwise Datagram.NotAfter := by
  refine List.pairwise_map.mpr (h.imp_of_mem ?_)
  intro p q hp hq hpq
  exact ⟨_, _, he p hp, he q hq, Nat.add_le_add_right hpq _⟩

end Runs

end Interface

/-- A datagram that is sent is taken off its queue before its lifetime ends, and written at the
reading after that. One expires when its lifetime has ended. The first ones come from the line, and
what expires in the receive queue comes from there. -/
def Event.Timely (clock : Clock) (line queue : List Datagram) : Event → Prop
  | sent taken written d =>
    d ∈ line ∧ d.isExpired taken = false ∧ clock.TellsBoth taken written
  | expired now .receive d => d ∈ queue ∧ d.isExpired now = true ∧ clock.Tells now
  | expired now _ d => d ∈ line ∧ d.isExpired now = true ∧ clock.Tells now
  | _ => True

theorem Event.Timely.mono {part whole : Clock} {line line' queue queue' : List Datagram}
    {event : Event} (h : event.Timely part line queue) (hw : part.Within whole) (hl : line ⊆ line')
    (hq : queue ⊆ queue') : event.Timely whole line' queue' := by
  cases event with
  | sent taken written d => exact ⟨hl h.1, h.2.1, h.2.2.of_within hw⟩
  | expired now place d =>
    cases place with
    | receive => exact ⟨hq h.1, h.2.1, h.2.2.of_within hw⟩
    | send => exact ⟨hl h.1, h.2.1, h.2.2.of_within hw⟩
    | deferred => exact ⟨hl h.1, h.2.1, h.2.2.of_within hw⟩
  | _ => trivial

namespace Interface

variable {τ : Type} [FiniteTransport τ] {now : Time} {clock : Clock} {s t : Interface τ}
  {events : List Event} {pass : Pass} {pass? : Option Pass} {call : Call} {queue : List Datagram}

section Timely

theorem timely_arpSent {message : Arp.Message}
    (h : ArpSent now message s { value := (), state := t, events }) :
    ∀ event ∈ events, event.Timely clock [] [] := by
  cases h with
  | taken ho | failed ho =>
    cases ho
    simp [Event.Timely]

theorem timely_delivered {d : Datagram} {value : Except DropReason Delivery}
    (h : Delivered now d s { value, state := t, events }) :
    ∀ event ∈ events, event.Timely clock [] [] := by
  cases h with
  | refused hr => simp
  | deferred hr ha =>
    simp only [List.forall_mem_cons]
    exact ⟨trivial, timely_arpSent ha⟩
  | sent hr ho | failed hr ho =>
    cases ho
    simp [Event.Timely]

theorem timely_settled {d : Datagram} {value : Option Datagram}
    (h : Settled pass clock d s { value, state := t, events }) :
    ∀ event ∈ events, event.Timely clock [d] [] := by
  cases h with
  | expired he => cases pass <;> simp [Event.Timely, Pass.place, he, clock.tells_time]
  | sent he hd =>
    simp only [List.forall_mem_append, List.forall_mem_singleton]
    refine ⟨?_, List.mem_singleton_self _, he, 0, 0, rfl, Clock.reading_later.symm⟩
    intro event hm
    exact (timely_delivered hd event hm).mono (.refl clock) (List.nil_subset _) (List.nil_subset _)
  | waits he hd =>
    intro event hm
    exact (timely_delivered hd event hm).mono (.refl clock) (List.nil_subset _) (List.nil_subset _)
  | @dropped reason _ _ he hd =>
    simp only [List.forall_mem_append, List.forall_mem_singleton]
    refine ⟨?_, by cases pass <;> trivial⟩
    intro event hm
    exact (timely_delivered hd event hm).mono (.refl clock) (List.nil_subset _) (List.nil_subset _)

theorem timely_passed {ds : List Datagram} {o : Outcome (Interface τ) (List Datagram)}
    (h : Passed pass clock ds s o) : ∀ event ∈ o.events, event.Timely clock ds [] := by
  induction h with
  | nil => simp
  | @gone clock d ds waiting s t u events more h hp ih
  | @waits clock d ds waiting s t u events more h hp ih =>
    simp only [List.forall_mem_append]
    refine ⟨?_, ?_⟩
    · intro event hm
      exact (timely_settled h event hm).mono (.refl clock) (by simp) (List.nil_subset _)
    · intro event hm
      exact (ih event hm).mono (clock.after_within d) (List.subset_cons_self _ _)
        (List.nil_subset _)

theorem timely_heard {message : Arp.Message}
    (h : Heard clock message s { value := (), state := t, events }) :
    ∀ event ∈ events, event.Timely clock s.line [] := by
  cases h with
  | @intro t u waiting events more ha hp =>
    have hr := timely_passed hp
    have hs : t.deferred = s.deferred := by
      obtain ⟨_, _, _, rfl⟩ := sends_of_answered ha
      rfl
    have hl : ∀ event ∈ events, event.Timely clock [] [] := by
      cases ha with
      | notOurs hm => simp
      | told hm ho => simp [Event.Timely]
      | asked hm ho ha =>
        simp only [List.forall_mem_cons]
        exact ⟨trivial, timely_arpSent ha⟩
    simp only [List.cons_append, List.forall_mem_cons, List.forall_mem_append]
    refine ⟨trivial, ?_, ?_⟩
    · intro event hm
      exact (hl event hm).mono (.refl clock) (List.nil_subset _) (List.nil_subset _)
    · intro event hm
      refine (hr event hm).mono clock.later_within ?_ (List.nil_subset _)
      rw [hs, line]
      exact List.subset_append_left _ _

theorem timely_takenIn {bytes : Bytes}
    (h : TakenIn clock bytes s { value := (), state := t, events }) :
    ∀ event ∈ events, event.Timely clock s.line [] := by
  cases h with
  | heard hk hm ha =>
    have ht := timely_heard ha
    exact ht
  | unknown | broadcast | queued | badIp | badArp => simp [Event.Timely]

theorem timely_move (h : Move clock pass? s events t)
    (hq : pass? = some .later ∨ s.receiveQueue.toList ⊆ queue) :
    ∀ event ∈ events, event.Timely clock s.line queue := by
  cases h with
  | passed hu hp =>
    intro event hm
    refine (timely_passed hp event hm).mono (.refl clock) ?_ (List.nil_subset _)
    exact List.subset_append_right _ _
  | heard h =>
    intro event hm
    exact (timely_heard h event hm).mono (.refl clock) (List.Subset.refl _) (List.nil_subset _)
  | received hr h =>
    cases hr with
    | frame hr =>
      have ht := timely_takenIn h
      simp only [List.singleton_append, List.forall_mem_cons]
      refine ⟨trivial, ?_⟩
      intro event hm
      exact (ht event hm).mono clock.later_within (List.Subset.refl _) (List.nil_subset _)
  | ended h hn => cases h <;> simp [Event.Timely]
  | taken =>
    intro event hm
    obtain ⟨d, hd, rfl⟩ := List.mem_map.mp hm
    refine ⟨?_, Queue.isExpired_of_mem_expired hd, clock.tells_time⟩
    rcases hq with hq | hq
    · cases hq
    · apply hq
      rw [← s.receiveQueue.dequeue_append clock.time]
      simp [hd]
  | unheard | wentUp | wentDown | addressRead | addressKept | macSet | typeSelected
  | bindingsCleared | traceCleared => simp [Event.Timely]

theorem timely_chain (h : Chain pass? clock s events t)
    (hq : pass? = some .later ∨ s.receiveQueue.toList ⊆ queue) :
    ∀ event ∈ events, event.Timely clock s.line queue := by
  induction h with
  | nil => simp
  | @cons clock s t u events more h hc ih =>
    have hl := line_move h
    have hq' : pass? = some .later ∨ t.receiveQueue.toList ⊆ queue := by
      by_cases hp : pass? = some .later
      · exact .inl hp
      · have hi := (idle_move hp h).queue
        exact .inr (List.Subset.trans hi.subset (hq.resolve_left hp))
    simp only [List.forall_mem_append]
    refine ⟨timely_move h hq, ?_⟩
    intro event hm
    exact (ih hq' event hm).mono clock.nextFrame_within hl.subset (List.Subset.refl _)

/-- Whatever a call does, it sends what is not too old and gives up what is. -/
theorem timely_performed (h : Performed clock s call events t) :
    ∀ event ∈ events, event.Timely clock s.line s.receiveQueue.toList := by
  cases h with
  | delivered h =>
    intro event hm
    exact (timely_delivered h event hm).mono (.refl clock) (List.nil_subset _) (List.nil_subset _)
  | moved hs h => exact timely_chain h (.inr (List.Subset.refl _))
  | submitted | addressSet | maskSet | queued | countersCleared => simp [Event.Timely]

end Timely

/-- Only one call hands anything out. -/
theorem eq_takeReceived_of_returned {d : Datagram}
    (h : ((perform clock call).run s).value.returned? = some d) : call = .takeReceived := by
  cases call with
  | takeReceived => rfl
  | _ => cases h

theorem ends_of_unexpired {d : Datagram} {expiry : Time} (hd : d.expiry = some expiry)
    (h : d.isExpired now = false) : ∃ expiry, d.expiry = some expiry ∧ now < expiry := by
  refine ⟨expiry, hd, ?_⟩
  simpa [Datagram.isExpired, hd] using h

theorem ended_of_expired {d : Datagram} {expiry : Time} (hd : d.expiry = some expiry)
    (h : d.isExpired now = true) : ∃ expiry, d.expiry = some expiry ∧ expiry ≤ now := by
  refine ⟨expiry, hd, ?_⟩
  simpa [Datagram.isExpired, hd] using h

/-- What waits on its way out is in the order in which it was handed in, and what waits for the host
in the order in which it was accepted, with the lifetimes that began then, so that both are in the
order in which lifetimes end. What a call accepts is accepted at a reading of its clock. -/
structure InOrder (u : Interface τ) (lifetime : Time) (calls : List (Clock × Made)) : Prop where
  line : u.line.Sublist ((submissions calls).map (stamped lifetime))
  queue : u.receiveQueue.toList.Sublist ((arrivals (happened (calls.map (·.2)))).map (·.2))
  expiry : ∀ p ∈ arrivals (happened (calls.map (·.2))), p.2.expiry = some (p.1 + lifetime)
  told : ∀ call ∈ calls, ∀ p ∈ arrivals call.2.events, call.1.Tells p.1
  lineOrdered : u.line.Pairwise Datagram.NotAfter
  queueOrdered : u.receiveQueue.toList.Pairwise Datagram.NotAfter

theorem inOrder_run {config : Config} {time : Time} {transport : τ}
    (hc : ((create config time).run transport).value = .ok s) {steps : List (Step τ)}
    (hf : Forward steps) :
    (run steps s).state.InOrder config.lifetime (timeline steps s) := by
  obtain ⟨hconfig, hempty, hnone⟩ :
      s.config = config ∧ s.line = [] ∧ s.receiveQueue.toList = [] := by
    obtain ⟨_, _, rfl⟩ := eq_of_create hc
    exact ⟨rfl, rfl, rfl⟩
  obtain ⟨hline, -⟩ := line_run steps s
  obtain ⟨hqueue, hexpiry⟩ := arrivals_run steps s
  rw [hempty, List.nil_append, hconfig] at hline
  rw [hnone, List.nil_append] at hqueue
  rw [hconfig] at hexpiry
  have hstarts := submissions_pairwise (timeline_pairwise hf s)
  constructor
  · exact hline
  · rwa [map_snd_timeline]
  · rwa [map_snd_timeline]
  · intro call hm p hp
    obtain ⟨_, _, ha⟩ := accepts_of_mem_timeline hm
    exact ha.told p hp
  · exact (notAfter_of_starts hstarts fun _ _ => rfl).sublist hline
  · exact (notAfter_of_starts (arrivals_pairwise hf s) hexpiry).sublist hqueue

/-- In a call a datagram is taken off its queue to be sent before its lifetime ends, and its frame
is written at the reading after that. A datagram is handed out before its lifetime ends, and then
none is left that is too old. What expires, and is counted so, has reached the end of its lifetime.
-/
structure Respects (u : Interface τ) (clock : Clock) (call : Call)
    (o : Outcome (Interface τ) Reply) : Prop where
  sent : ∀ {taken written d}, .sent taken written d ∈ o.events →
    d ∈ u.line ∧ clock.TellsBoth taken written ∧ ∃ expiry, d.expiry = some expiry ∧ taken < expiry
  frames : List.Forall₂ Datagram.IsIn (o.events.filterMap Event.sent?)
    (o.events.filterMap ipv4Frame?)
  returned : ∀ {d}, o.value.returned? = some d →
    d ∈ u.receiveQueue.toList ∧ (∃ expiry, d.expiry = some expiry ∧ clock.time < expiry) ∧
      ∀ other ∈ o.state.receiveQueue.toList, other.isExpired clock.time = false
  expired : ∀ {now place d}, .expired now place d ∈ o.events →
    (d ∈ u.line ∨ d ∈ u.receiveQueue.toList) ∧ clock.Tells now ∧
      ∃ expiry, d.expiry = some expiry ∧ expiry ≤ now
  counted : call ≠ .control .clearCounters → o.state.counters.totals.expired =
    u.counters.totals.expired + o.events.countP Event.isExpiry

theorem respects_perform {u : Interface τ} {lifetime : Time} {calls : List (Clock × Made)}
    (hu : u.InOrder lifetime calls) (clock : Clock) (ho : ∀ d, call ≠ .output d) :
    u.Respects clock call ((perform clock call).run u) := by
  have hwaits : ∀ d ∈ u.line, ∃ expiry, d.expiry = some expiry := by
    intro d hd
    obtain ⟨p, -, rfl⟩ := List.mem_map.mp (hu.line.subset hd)
    exact ⟨_, rfl⟩
  have hqueued : ∀ d ∈ u.receiveQueue.toList, ∃ expiry, d.expiry = some expiry := by
    intro d hd
    obtain ⟨p, hp, rfl⟩ := List.mem_map.mp (hu.queue.subset hd)
    exact ⟨_, hu.expiry p hp⟩
  have ht := timely_performed (performed_perform clock call u)
  constructor
  · intro taken written d hd
    obtain ⟨hm, he, hboth⟩ := ht _ hd
    obtain ⟨expiry, hx⟩ := hwaits d hm
    exact ⟨hm, hboth, ends_of_unexpired hx he⟩
  · by_cases hclear : call = .control .clearCounters
    · subst hclear
      exact .nil
    · exact (sendsCounted_perform hclear ho clock u).frames
  · intro d hd
    obtain rfl := eq_takeReceived_of_returned hd
    simp only [perform, run_takeReceived, Action.run_bind, Action.run_pure,
      Reply.returned?] at hd ⊢
    have hm := Queue.mem_of_dequeue hd
    obtain ⟨expiry, hx⟩ := hqueued d hm
    exact ⟨hm, ends_of_unexpired hx (Queue.not_isExpired_of_dequeue hd),
      Queue.unexpired_of_dequeue hu.queueOrdered hd⟩
  · intro now place d hd
    have he := ht _ hd
    cases place with
    | receive =>
      obtain ⟨expiry, hx⟩ := hqueued d he.1
      exact ⟨.inr he.1, he.2.2, ended_of_expired hx he.2.1⟩
    | send | deferred =>
      obtain ⟨expiry, hx⟩ := hwaits d he.1
      exact ⟨.inl he.1, he.2.2, ended_of_expired hx he.2.1⟩
  · intro hclear
    exact (losses_perform hclear clock u).expired

end Interface
end LinkLayer
