import LinkLayer.Interface.Limits
import LinkLayer.Proofs.Runs

/-!
What it means that times come to an end. Main statements: a call by a clock that knows no time
behind the last one does what the call does anyway or breaks off after a first part of it
(`begins_perform?`), and it does not break off if what it accepts can be stamped (`run_perform?`).
-/
namespace LinkLayer

/-- The longest lifetime that can be set. Its seconds are counted in 64 bits. -/
def Config.longestLifetime : Nat := UInt64.size * 1000 - 1

/-- The last time of a clock that counts seconds in 63 bits. -/
def Clock.lastTime : Time := UInt64.size / 2 * 1000 - 1

namespace Action

variable {σ α β : Type} {part : Action σ (Option α)} {whole : Action σ α} {s : σ}

/-- From any state the first action does what the second one does, or breaks off and has done a
first part of it. -/
def Begins (part : Action σ (Option α)) (whole : Action σ α) : Prop :=
  ∀ s, part.run s = (some <$> whole).run s ∨
    (part.run s).value = none ∧ (part.run s).events <+: (whole.run s).events

theorem Begins.all (whole : Action σ α) : Begins (some <$> whole) whole := fun _ => .inl rfl

theorem Begins.map (h : part.Begins whole) (f : α → β) :
    Begins (Option.map f <$> part) (f <$> whole) := by
  intro s
  rcases h s with h | ⟨hn, hp⟩
  · left
    simp only [run_map, h, Option.map_some]
  · right
    simp only [run_map]
    exact ⟨by rw [hn, Option.map_none], hp⟩

/-- What was done before stays done. -/
theorem Begins.events (h : part.Begins whole) (s : σ) :
    (part.run s).events <+: (whole.run s).events := by
  rcases h s with h | h
  · have he : (part.run s).events = (whole.run s).events := congrArg Outcome.events h
    exact he ▸ List.prefix_refl _
  · exact h.2

end Action

namespace Interface

variable {τ : Type} [FiniteTransport τ] {last now : Time} {clock : Clock} {call : Call}
  {s : Interface τ} {bytes : Bytes} {limit : Nat}

omit [FiniteTransport τ] in
theorem begins_submit? (last now : Time) (d : Datagram) :
    (submit? last now d : Action (Interface τ) _).Begins (submit now d) := by
  intro s
  by_cases h : s.CanStamp last now
  · left
    simp [submit?, h]
  · right
    simp [submit?, h]

omit [FiniteTransport τ] in
theorem begins_handleIp? (last now : Time) (frame : Ethernet.Frame) :
    (handleIp? last now frame : Action (Interface τ) _).Begins (handleIp now frame) := by
  intro s
  by_cases h : (Ipv4.Packet.ofFrame frame).isOk ∧ ¬ s.CanStamp last now
  · right
    simp [handleIp?, h]
  · left
    simp only [handleIp?, Action.run_bind, Action.run_get, h, if_false, List.nil_append]

theorem run_takeIn? (h : Ethernet.holdsDatagram bytes = true → s.CanStamp last clock.time) :
    (takeIn? last clock bytes).run s = (some <$> takeIn clock bytes).run s := by
  have hn : ¬ (Ethernet.holdsDatagram bytes = true ∧ ¬ s.CanStamp last clock.time) :=
    fun hs => hs.2 (h hs.1)
  simp only [takeIn?, Action.run_bind, Action.run_get, hn, if_false, List.nil_append]

theorem begins_takeIn? (last : Time) (clock : Clock) (bytes : Bytes) :
    (takeIn? last clock bytes : Action (Interface τ) _).Begins (takeIn clock bytes) := by
  intro s
  by_cases h : Ethernet.holdsDatagram bytes ∧ ¬ s.CanStamp last clock.time
  · right
    simp [takeIn?, h, count]
  · left
    exact run_takeIn? fun hb => Decidable.not_not.mp fun hs => h ⟨hb, hs⟩

theorem begins_receiveUpTo? (last : Time) (clock : Clock) (limit : Nat) :
    (receiveUpTo? last clock limit : Action (Interface τ) _).Begins (receiveUpTo clock limit) := by
  induction limit generalizing clock with
  | zero => exact fun _ => .inl rfl
  | succ limit ih =>
    intro s
    simp only [receiveUpTo?, receiveUpTo, Action.run_bind, Action.run_map]
    generalize (read clock.time).run s = o
    obtain ⟨result, t, events⟩ := o
    cases result with
    | error error => exact .inl rfl
    | ok found =>
      cases found with
      | none => exact .inl rfl
      | some bytes =>
        simp only [Action.run_bind]
        rcases begins_takeIn? last clock.later bytes t with h | ⟨hn, hp⟩
        · simp only [h, Action.run_map]
          generalize (takeIn clock.later bytes).run t = o
          rcases ih clock.nextFrame o.state with hr | ⟨hn, hp⟩
          · left
            simp only [hr, Action.run_map]
          · exact .inr ⟨hn, (List.prefix_append_right_inj _).mpr
              ((List.prefix_append_right_inj _).mpr hp)⟩
        · right
          simp only [hn, Action.run_pure, List.append_nil]
          exact ⟨trivial, (List.prefix_append_right_inj _).mpr (hp.trans (List.prefix_append ..))⟩

/-- The frames that are read are the ones that may have to be stamped. -/
theorem run_receiveUpTo?
    (h : ∀ bytes, .frameRead bytes ∈ ((receiveUpTo clock limit).run s).events →
      Ethernet.holdsDatagram bytes = true → ∀ i j, s.CanStamp last (clock.reading i j)) :
    (receiveUpTo? last clock limit).run s = (some <$> receiveUpTo clock limit).run s := by
  induction limit generalizing clock s with
  | zero => rfl
  | succ limit ih =>
    have hread := frameRead_read clock.time s
    simp only [receiveUpTo?, receiveUpTo, Action.run_bind, Action.run_map] at h ⊢
    generalize (read clock.time).run s = o at h hread ⊢
    obtain ⟨result, t, events⟩ := o
    cases result with
    | error error => rfl
    | ok found =>
      cases found with
      | none => rfl
      | some bytes =>
        obtain ⟨hconfig, hframe⟩ : t.config = s.config ∧ events = [.frameRead bytes] := by
          cases hread
          exact ⟨rfl, rfl⟩
        simp only [hframe, Action.run_bind, List.singleton_append, List.mem_cons,
          List.mem_append] at h ⊢
        have hstamp : Ethernet.holdsDatagram bytes = true →
            t.CanStamp last clock.later.time := fun hb => by
          rw [CanStamp, hconfig, Clock.time, Clock.reading_later]
          exact h _ (.inl rfl) hb 0 1
        have hin := takenIn_takeIn clock.later bytes t
        simp only [run_takeIn? hstamp, Action.run_map]
        generalize (takeIn clock.later bytes).run t = o at h hin ⊢
        have hsame : o.state.config = s.config := (config_of_takenIn hin).trans hconfig
        have hnext : ∀ bytes,
            .frameRead bytes ∈ ((receiveUpTo clock.nextFrame limit).run o.state).events →
              Ethernet.holdsDatagram bytes = true →
                ∀ i j, o.state.CanStamp last (clock.nextFrame.reading i j) :=
          fun bytes hm hb i j => by
            rw [CanStamp, hsame, Clock.reading_nextFrame]
            exact h bytes (.inr (.inr hm)) hb (i + 1) j
        have hrest := ih hnext
        rw [hrest, Action.run_map]

theorem begins_perform? (last : Time) (clock : Clock) (call : Call) :
    (perform? last clock call : Action (Interface τ) _).Begins (perform clock call) := by
  cases call with
  | submit d =>
    simp only [perform?, perform, bind_pure_comp]
    exact (begins_submit? last clock.time d).map _
  | handleIp frame =>
    simp only [perform?, perform, bind_pure_comp]
    exact (begins_handleIp? last clock.time frame).map _
  | receiveWaiting =>
    simp only [perform?, perform, bind_pure_comp]
    refine Action.Begins.map ?_ _
    intro s
    by_cases hu : s.isUp = true
    · have h := begins_receiveUpTo? last clock (FiniteTransport.waiting s.device.transport + 1) s
      simpa only [receiveWaiting?, receiveWaiting, Action.run_bind, Action.run_get, Action.run_map,
        hu, if_true, List.nil_append] using h
    · left
      simp only [receiveWaiting?, receiveWaiting, Action.run_bind, Action.run_get, Action.run_map,
        hu, Bool.false_eq_true, if_false, List.nil_append]
      rfl
  | setUp | setAddress | setMask | sendQueued | takeReceived | output | handleArp | control =>
    exact .all _

/-- A call has to stamp the datagram that it takes from the host or from a frame. -/
def Call.Stamps (call : Call) (events : List Event) : Prop :=
  match call with
  | submit _ => True
  | handleIp frame => (Ipv4.Packet.ofFrame frame).isOk = true
  | receiveWaiting => ∃ bytes, .frameRead bytes ∈ events ∧ Ethernet.holdsDatagram bytes = true
  | _ => False

/-- A call does not break off if what it accepts can be stamped. -/
theorem run_perform?
    (h : call.Stamps ((perform clock call).run s).events →
      ∀ i j, s.CanStamp last (clock.reading i j)) :
    (perform? last clock call).run s = (some <$> perform clock call).run s := by
  cases call with
  | submit d =>
    have hs : s.CanStamp last clock.time := h trivial 0 0
    simp only [perform?, perform, submit?, Action.run_bind, Action.run_get, Action.run_map, hs,
      if_true]
    rfl
  | handleIp frame =>
    have hn : ¬ ((Ipv4.Packet.ofFrame frame).isOk = true ∧ ¬ s.CanStamp last clock.time) :=
      fun hb => hb.2 (h hb.1 0 0)
    simp only [perform?, perform, handleIp?, Action.run_bind, Action.run_get, Action.run_map, hn,
      if_false]
    rfl
  | receiveWaiting =>
    by_cases hu : s.isUp = true
    · simp only [perform, receiveWaiting, Action.run_bind, Action.run_get, Action.run_pure, hu,
        if_true, List.append_nil, List.nil_append] at h
      have hrun : (receiveUpTo? last clock (FiniteTransport.waiting s.device.transport + 1)).run s =
          (some <$> receiveUpTo clock (FiniteTransport.waiting s.device.transport + 1)).run s :=
        run_receiveUpTo? fun bytes hm hb => h ⟨bytes, hm, hb⟩
      simp only [perform?, perform, receiveWaiting?, receiveWaiting, Action.run_bind,
        Action.run_get, Action.run_map, Action.run_pure, hu, if_true, hrun]
      rfl
    · simp only [perform?, perform, receiveWaiting?, receiveWaiting, Action.run_bind,
        Action.run_get, Action.run_map, Action.run_pure, hu, Bool.false_eq_true, if_false]
      rfl
  | setUp | setAddress | setMask | sendQueued | takeReceived | output | handleArp | control => rfl

/-- Takes the steps one after the other, as long as no call breaks off. -/
def run? (last : Time) : List (Step τ) → Interface τ → Option (Left τ)
  | [], s => some { history := [], state := s }
  | .call clock call :: steps, s =>
    let outcome := (perform? last clock call).run s
    outcome.value.bind fun reply =>
      (run? last steps outcome.state).map fun left =>
        { left with history := ⟨call, reply, outcome.events⟩ :: left.history }
  | .adapter change :: steps, s =>
    run? last steps { s with device.transport := change s.device.transport }

/-- A run in which no call breaks off is like any other. -/
theorem run_of_run? {steps : List (Step τ)} {left : Left τ} (h : run? last steps s = some left) :
    run steps s = left := by
  induction steps generalizing s left with
  | nil => exact Option.some.inj h
  | cons step steps ih =>
    cases step with
    | adapter change => exact ih h
    | call clock call =>
      simp only [run?, Option.bind_eq_some_iff, Option.map_eq_some_iff] at h
      obtain ⟨reply, hvalue, rest, hrest, rfl⟩ := h
      rcases begins_perform? last clock call s with hp | ⟨hn, -⟩
      · rw [hp, Action.run_map] at hvalue hrest
        obtain rfl := Option.some.inj hvalue
        simp only [run, hp, Action.run_map, ih hrest]
      · rw [hn] at hvalue
        cases hvalue

end Interface
end LinkLayer
