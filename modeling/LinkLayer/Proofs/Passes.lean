import LinkLayer.Proofs.Moves
import LinkLayer.Proofs.Oblivious

/-!
A pass as a loop that takes one datagram after the other off a queue. Main statements: sending does
the same as a loop over the send queue that defers what has to wait as it goes (`run_sendLoop`), and
trying again the same as a loop over what was deferred, with a new queue beside it
(`run_retryPending`). No action of a pass sees the queues, so they may be put in place before it or
after it (`Passes.put`).
-/
namespace LinkLayer.Interface

open LinkLayer.Action (Uniform)

variable {τ : Type} [Transport τ] {clock : Clock} {now : Time} {s : Interface τ} {pass : Pass}
  {d : Datagram} {gone ds : List Datagram} {send deferred pending waiting : Queue} {fuel : Nat}

/-- The same interface with other datagrams on their way out. -/
def withQueues (send deferred : Queue) (s : Interface τ) : Interface τ :=
  { s with sendQueue := send, deferred }

/-- The action neither sees nor touches what is on its way out. -/
abbrev Passes (send deferred : Queue) {α : Type} (action : Action (Interface τ) α) : Prop :=
  Uniform (fun s t => t = withQueues send deferred s) some action

section Passes

variable (send deferred : Queue)

omit [Transport τ] in
theorem passes_get {α : Type} {next : Interface τ → Action (Interface τ) α}
    (hn : ∀ s, Passes send deferred (next s))
    (he : ∀ s, next (withQueues send deferred s) = next s) :
    Passes send deferred (.get >>= next) := by
  rintro s _ rfl
  have h := hn s (rfl : withQueues send deferred s = _)
  simp only [Action.run_bind, Action.run_get, he]
  exact ⟨h.value, h.state, h.shown⟩

omit [Transport τ] in
theorem passes_modify {f : Interface τ → Interface τ}
    (hf : ∀ s, f (withQueues send deferred s) = withQueues send deferred (f s)) :
    Passes send deferred (.modify f) := by
  rintro s _ rfl
  exact ⟨rfl, hf s, rfl⟩

omit [Transport τ] in
theorem passes_count (f : Counters → Counters) :
    Passes send deferred (count f : Action (Interface τ) Unit) :=
  passes_modify send deferred fun _ => rfl

omit [Transport τ] in
theorem passes_expire (now : Time) (place : Place) (d : Datagram) :
    Passes send deferred (expire now place d : Action (Interface τ) Unit) :=
  (passes_count send deferred _).seq (.emit _)

theorem passes_write (now : Time) (frame : Bytes) :
    Passes send deferred
      (write now frame : Action (Interface τ) (Except TransportError Unit)) := by
  rintro s _ rfl
  exact ⟨rfl, rfl, rfl⟩

theorem passes_sendArp (now : Time) (message : Arp.Message) :
    Passes send deferred (sendArp now message : Action (Interface τ) Unit) := by
  refine passes_get send deferred (fun s => ?_) fun _ => rfl
  dsimp only
  cases s.framer.message message with
  | error error => exact .pure ()
  | ok framed =>
    obtain ⟨frame, framer⟩ := framed
    refine Uniform.seq (passes_modify send deferred ?_) ?_
    · exact fun _ => rfl
    apply (passes_write send deferred now frame).bind
    intro result
    cases result with
    | ok _ => exact passes_count send deferred _
    | error _ => exact (passes_count send deferred _).seq (.emit _)

theorem passes_sendDatagram (now : Time) (mac : MacAddress) (d : Datagram) :
    Passes send deferred
      (sendDatagram now mac d : Action (Interface τ) (Except DropReason Delivery)) := by
  refine passes_get send deferred (fun s => ?_) fun _ => rfl
  dsimp only
  cases s.framer.datagram mac s.macAddress d with
  | error error => exact .pure _
  | ok framed =>
    obtain ⟨frame, framer⟩ := framed
    refine Uniform.seq (passes_modify send deferred ?_) ?_
    · exact fun _ => rfl
    apply (passes_write send deferred now frame).bind
    intro result
    cases result with
    | ok _ => exact (passes_count send deferred _).seq (.pure _)
    | error _ => exact .pure _

theorem passes_output (now : Time) (d : Datagram) :
    Passes send deferred (output now d : Action (Interface τ) (Except DropReason Delivery)) := by
  refine passes_get send deferred (fun s => ?_) fun _ => rfl
  cases s.config.route s.cache d with
  | error reason => exact (passes_count send deferred _).seq (.pure _)
  | ok route =>
    cases route with
    | unresolved hop =>
      apply Uniform.seq (.emit _)
      refine Uniform.seq ?_ (.pure _)
      exact passes_get send deferred (fun _ => passes_sendArp send deferred now _) fun _ => rfl
    | resolved hop mac => exact passes_sendDatagram send deferred now mac d

theorem passes_attempt (pass : Pass) (clock : Clock) (d : Datagram) :
    Passes send deferred (attempt pass clock d : Action (Interface τ) (Option Datagram)) := by
  apply (passes_count send deferred _).seq
  apply (passes_output send deferred clock.later.time d).bind
  intro result
  rcases result with reason | length | _
  · exact (passes_count send deferred _).seq (Uniform.seq (.emit _) (.pure _))
  · exact (passes_count send deferred _).seq (Uniform.seq (.emit _) (.pure _))
  · exact (passes_count send deferred _).seq (.pure _)

theorem passes_settle (pass : Pass) (clock : Clock) (d : Datagram) :
    Passes send deferred (settle pass clock d : Action (Interface τ) (Option Datagram)) := by
  unfold settle
  split
  · exact (passes_expire send deferred _ _ d).seq (.pure _)
  · exact passes_attempt send deferred pass clock d

theorem passes_settleAll (pass : Pass) (clock : Clock) (ds : List Datagram) :
    Passes send deferred (settleAll pass clock ds : Action (Interface τ) (List Datagram)) :=
  uniform_settleAll (passes_settle send deferred pass) clock ds

omit [Transport τ] in
theorem passes_expireAll (now : Time) (place : Place) (ds : List Datagram) :
    Passes send deferred (ds.forM (expire now place) : Action (Interface τ) Unit) := by
  induction ds with
  | nil => exact .pure ()
  | cons d ds ih => exact (passes_expire send deferred now place d).seq ih

end Passes

/-- A pass leaves both queues to whoever began it. -/
theorem state_settleAll (pass : Pass) (clock : Clock) (ds : List Datagram) (s : Interface τ) :
    ((settleAll pass clock ds).run s).state =
      withQueues s.sendQueue s.deferred ((settleAll pass clock ds).run s).state :=
  congrArg Outcome.state ((passes_settleAll s.sendQueue s.deferred pass clock ds).run_image s)

/-- Gives the interface other datagrams on their way out. -/
def putQueues (send deferred : Queue) : Action (Interface τ) Unit :=
  .modify (withQueues send deferred)

omit [Transport τ] in
/-- They may be put there after the action as well. -/
theorem Passes.put {α β : Type} {action : Action (Interface τ) α}
    (h : Passes send deferred action) (next : α → Action (Interface τ) β) :
    (putQueues send deferred >>= fun _ => action >>= next) =
      action >>= fun a => putQueues send deferred >>= fun _ => next a := by
  ext s
  simp only [putQueues, Action.run_bind, Action.run_modify, h.run_image s, List.nil_append]

/-- Those in front that have expired are found out with one reading. -/
theorem settleAll_append (h : ∀ d ∈ gone, d.isExpired clock.time = true) :
    (settleAll pass clock (gone ++ ds) : Action (Interface τ) (List Datagram)) =
      gone.forM (expire clock.time pass.place) >>= fun _ => settleAll pass clock ds := by
  induction gone with
  | nil => rfl
  | cons d gone ih =>
    obtain ⟨hd, hgone⟩ := List.forall_mem_cons.mp h
    have hrest := ih hgone
    simp only [List.cons_append, settleAll, settle, hd, if_true, bind_assoc, pure_bind,
      Clock.after_of_expired hd, hrest, List.forM_eq_forM, List.forM_cons]

/-- The first one that has not expired is attempted. -/
theorem settleAll_cons (h : d.isExpired clock.time = false) :
    (settleAll pass clock (d :: ds) : Action (Interface τ) (List Datagram)) =
      attempt pass clock d >>= fun waiting =>
        (waiting.toList ++ ·) <$> settleAll pass clock.later.later ds := by
  simp only [settleAll, settle, h, Bool.false_eq_true, if_false, Clock.after_of_live h]
  congr 1
  funext waiting
  cases waiting with
  | none => simp
  | some other => simp

/-- A pass over a queue is a pass over what is left behind the datagram that is taken off it. -/
theorem settleAll_dequeue (pass : Pass) (clock : Clock) (queue : Queue) :
    (settleAll pass clock queue.toList : Action (Interface τ) (List Datagram)) =
      let taken := queue.dequeue clock.time
      taken.expired.forM (expire clock.time pass.place) >>= fun _ =>
        match taken.datagram with
        | none => pure []
        | some d => attempt pass clock d >>= fun waiting =>
          (waiting.toList ++ ·) <$> settleAll pass clock.later.later taken.rest.toList := by
  have hgone : ∀ d ∈ (queue.dequeue clock.time).expired, d.isExpired clock.time = true :=
    fun d => Queue.isExpired_of_mem_expired
  rw [← queue.dequeue_append clock.time, List.append_assoc, settleAll_append hgone]
  dsimp only
  congr 1
  funext _
  cases hd : (queue.dequeue clock.time).datagram with
  | none =>
    rw [Queue.rest_eq_empty_of_dequeue hd]
    rfl
  | some d => exact settleAll_cons (Queue.not_isExpired_of_dequeue hd)

theorem length_rest_lt (hd : (pending.dequeue now).datagram = some d) :
    (pending.dequeue now).rest.toList.length < pending.toList.length := by
  rw [← pending.dequeue_append now, hd]
  simp only [Option.toList_some, List.length_append, List.length_singleton]
  omega

/-- Takes one datagram after the other off the send queue and attempts it. One that has to wait is
deferred at once. -/
def sendLoop : Nat → Clock → Action (Interface τ) Unit
  | 0, _ => pure ()
  | fuel + 1, clock => do
    let taken := Queue.dequeue (← .get).sendQueue clock.time
    .modify ({ · with sendQueue := taken.rest })
    taken.expired.forM (expire clock.time .send)
    match taken.datagram with
    | none => pure ()
    | some d =>
      match ← attempt .first clock d with
      | none => sendLoop fuel clock.later.later
      | some d =>
        .modify fun interface => { interface with deferred := interface.deferred.enqueue d }
        sendLoop fuel clock.later.later

theorem putQueues_sendLoop (fuel : Nat) (clock : Clock) (send deferred : Queue) :
    (putQueues send deferred >>= fun _ => sendLoop (fuel + 1) clock :
      Action (Interface τ) Unit) =
      let taken := send.dequeue clock.time
      putQueues taken.rest deferred >>= fun _ =>
        taken.expired.forM (expire clock.time .send) >>= fun _ =>
          match taken.datagram with
          | none => pure ()
          | some d => attempt .first clock d >>= fun
            | none => sendLoop fuel clock.later.later
            | some d => .modify (fun interface =>
                { interface with deferred := interface.deferred.enqueue d }) >>= fun _ =>
                  sendLoop fuel clock.later.later := rfl

omit [Transport τ] in
theorem putQueues_enqueue (send deferred : Queue) (d : Datagram)
    (next : Action (Interface τ) Unit) :
    (putQueues send deferred >>= fun _ => .modify (fun interface =>
      { interface with deferred := interface.deferred.enqueue d }) >>= fun _ => next) =
      putQueues send (deferred.enqueue d) >>= fun _ => next := rfl

/-- Whatever is to be sent and whatever is deferred already. -/
theorem sendLoop_eq_settleAll (hf : send.toList.length < fuel) (clock : Clock) :
    (putQueues send deferred >>= fun _ => sendLoop fuel clock : Action (Interface τ) Unit) =
      settleAll .first clock send.toList >>= fun waiting =>
        putQueues .empty (deferred.append waiting) := by
  induction fuel generalizing clock send deferred with
  | zero => exact absurd hf (Nat.not_lt_zero _)
  | succ fuel ih =>
    rw [putQueues_sendLoop, settleAll_dequeue]
    dsimp only
    rw [Passes.put (passes_expireAll _ deferred _ _ _), bind_assoc]
    congr 1
    funext _
    cases hd : (send.dequeue clock.time).datagram with
    | none =>
      have hnil : deferred.append [] = deferred := Fifo.ext (by simp)
      rw [Queue.rest_eq_empty_of_dequeue hd, pure_bind, hnil]
      rfl
    | some d =>
      have hlength : (send.dequeue clock.time).rest.toList.length < fuel := by
        have := length_rest_lt hd
        omega
      rw [Passes.put (passes_attempt _ deferred .first clock d), bind_assoc]
      congr 1
      funext waiting
      cases waiting with
      | none => simp only [ih hlength, Option.toList_none, List.nil_append, id_map']
      | some d =>
        have happend : ∀ ds, (deferred.enqueue d).append ds = deferred.append ([d] ++ ds) :=
          fun ds => Fifo.ext (by simp)
        simp only [putQueues_enqueue, ih hlength, happend, bind_map_left, Option.toList_some]

/-- Sending is a loop over the send queue. -/
theorem run_sendLoop (hu : s.isUp = true) (hf : s.sendQueue.toList.length < fuel) (clock : Clock) :
    (sendLoop fuel clock).run s = (sendQueued clock).run s := by
  have hloop : (putQueues s.sendQueue s.deferred >>= fun _ => sendLoop fuel clock).run s =
      (settleAll .first clock s.sendQueue.toList >>= fun waiting =>
        putQueues .empty (s.deferred.append waiting)).run s :=
    congrArg (Action.run · s) (sendLoop_eq_settleAll hf clock)
  have hdeferred : ((settleAll .first clock s.sendQueue.toList).run s).state.deferred =
      s.deferred := by rw [state_settleAll, withQueues]
  change (sendLoop fuel clock).run s = _ at hloop
  rw [hloop]
  simp only [sendQueued, putQueues, withQueues, Action.run_bind, Action.run_get, hu, if_true,
    Action.run_modify, hdeferred, List.nil_append]

/-- Takes one datagram after the other off a queue of its own and attempts it. Those that have to
wait gather in another one. -/
def retryLoop : Nat → Clock → Queue → Queue → Action (Interface τ) Queue
  | 0, _, _, waiting => pure waiting
  | fuel + 1, clock, pending, waiting => do
    let taken := pending.dequeue clock.time
    taken.expired.forM (expire clock.time .deferred)
    match taken.datagram with
    | none => pure waiting
    | some d =>
      match ← attempt .later clock d with
      | none => retryLoop fuel clock.later.later taken.rest waiting
      | some d => retryLoop fuel clock.later.later taken.rest (waiting.enqueue d)

theorem retryLoop_eq_settleAll (hf : pending.toList.length < fuel) (clock : Clock) :
    (retryLoop fuel clock pending waiting : Action (Interface τ) Queue) =
      waiting.append <$> settleAll .later clock pending.toList := by
  induction fuel generalizing clock pending waiting with
  | zero => exact absurd hf (Nat.not_lt_zero _)
  | succ fuel ih =>
    rw [settleAll_dequeue]
    simp only [retryLoop, map_bind]
    congr 1
    funext _
    cases hd : (pending.dequeue clock.time).datagram with
    | none =>
      have hnil : waiting.append [] = waiting := Fifo.ext (by simp)
      rw [map_pure, hnil]
    | some d =>
      have hlength : (pending.dequeue clock.time).rest.toList.length < fuel := by
        have := length_rest_lt hd
        omega
      simp only [map_bind]
      congr 1
      funext other
      cases other with
      | none => simp only [ih hlength, Option.toList_none, List.nil_append, id_map']
      | some d =>
        have happend : (waiting.enqueue d).append = waiting.append ∘ ([d] ++ ·) :=
          funext fun ds => Fifo.ext (by simp)
        simp only [ih hlength, happend, comp_map, Option.toList_some]

/-- Takes what is deferred out of the interface, goes over it with a loop, and puts back what still
has to wait. -/
def retryPending (fuel : Nat) (clock : Clock) : Action (Interface τ) Unit := do
  let interface ← .get
  .modify ({ · with deferred := .empty })
  let waiting ← retryLoop fuel clock interface.deferred .empty
  .modify ({ · with deferred := waiting })

/-- Trying again is a loop over what was deferred, while nothing is. -/
theorem run_retryPending (hf : s.deferred.toList.length < fuel) (clock : Clock) :
    (retryPending fuel clock).run s = (retryDeferred clock).run s := by
  have hempty : Fifo.append (.empty : Queue) = Fifo.ofList := funext fun ds => Fifo.ext (by simp)
  have hpass : (settleAll .later clock s.deferred.toList).run { s with deferred := .empty } = _ :=
    (passes_settleAll s.sendQueue .empty .later clock _).run_image s
  have hsend : ((settleAll .later clock s.deferred.toList).run s).state.sendQueue =
      s.sendQueue := by rw [state_settleAll, withQueues]
  simp only [retryPending, retryDeferred, retryLoop_eq_settleAll hf, hempty, Action.run_bind,
    Action.run_get, Action.run_modify, Action.run_map, List.nil_append, hpass, withQueues, hsend]

end LinkLayer.Interface
