import LinkLayer.Proofs.Lockstep
import LinkLayer.Proofs.Offers

/-!
Emptying the adapter. Main statements: frames are handled one after the other, until a read gives
none or fails (`drained_receiveUpTo`), and a limit that is large enough makes no difference
(`receiveUpTo_eq`), so interfaces that read in step empty their adapters in step
(`lockstep_receiveWaiting`).
-/
namespace LinkLayer.Interface

variable {τ : Type} [FiniteTransport τ] {now : Time} {clock : Clock} {s t u : Interface τ}
  {events more : List Event}

/-- A bound on the frames that can still be read. -/
def waiting (s : Interface τ) : Nat := FiniteTransport.waiting s.device.transport

theorem waiting_offered {frame : Bytes} {value : Except TransportError Unit}
    (h : Offered now frame s { value, state := t, events }) : t.waiting ≤ s.waiting := by
  cases h with
  | taken h | failed h =>
    have hw := FiniteTransport.waiting_transmit s.device.transport frame
    rw [h] at hw
    exact hw

theorem local_waiting :
    Local fun (s t : Interface τ) _ => t.waiting ≤ s.waiting where
  offered := waiting_offered
  quiet hd _ := Nat.le_of_eq (by rw [waiting, waiting, hd])
  append h h' := Nat.le_trans h' h

theorem waiting_takenIn {bytes : Bytes}
    (h : TakenIn clock bytes s { value := (), state := t, events }) : t.waiting ≤ s.waiting :=
  local_waiting.takenIn h

theorem waiting_frameRead {bytes : Bytes}
    (h : FrameRead now s { value := .ok (some bytes), state := t, events }) :
    t.waiting < s.waiting := by
  cases h with
  | frame hr =>
    have hw := FiniteTransport.waiting_receive s.device.transport _ (congrArg Prod.fst hr)
    rw [hr] at hw
    exact hw

/-- Frames are read and handled, and the last read gives none or fails. -/
inductive Drained : Clock → Interface τ → List Event → Interface τ → Prop
  | ended {clock : Clock} {result : Except TransportError (Option Bytes)} {s t : Interface τ}
      {events : List Event} (h : FrameRead clock.time s { value := result, state := t, events })
      (hn : ∀ bytes, result ≠ .ok (some bytes)) : Drained clock s events t
  | frame {clock : Clock} {bytes : Bytes} {s t u v : Interface τ} {events more rest : List Event}
      (hr : FrameRead clock.time s { value := .ok (some bytes), state := t, events })
      (ht : TakenIn clock.later bytes t { value := (), state := u, events := more })
      (hd : Drained clock.nextFrame u rest v) : Drained clock s (events ++ more ++ rest) v

theorem drained_receiveUpTo {limit : Nat} (hw : s.waiting < limit) :
    Drained clock s ((receiveUpTo clock limit).run s).events
      ((receiveUpTo clock limit).run s).state := by
  induction limit generalizing clock s with
  | zero => exact absurd hw (Nat.not_lt_zero _)
  | succ limit ih =>
    have h := frameRead_read clock.time s
    simp only [receiveUpTo, Action.run_bind]
    generalize (read clock.time).run s = o at h ⊢
    obtain ⟨result, t, events⟩ := o
    cases result with
    | error error => simpa using Drained.ended h (by simp)
    | ok found =>
      cases found with
      | none => simpa using Drained.ended h (by simp)
      | some bytes =>
        have ht := takenIn_takeIn clock.later bytes t
        have hlt := waiting_frameRead h
        simp only [Action.run_bind]
        generalize (takeIn clock.later bytes).run t = o at ht ⊢
        have hle := waiting_takenIn ht
        rw [← List.append_assoc]
        exact .frame h ht (ih (by omega))

/-- While the interface is up the adapter is emptied. -/
theorem drained_perform (hu : s.isUp = true) (clock : Clock) :
    Drained clock s ((perform clock .receiveWaiting).run s).events
      ((perform clock .receiveWaiting).run s).state := by
  simp only [perform, receiveWaiting, Action.run_bind, Action.run_get, hu, if_true,
    Action.run_pure, List.append_nil, List.nil_append]
  exact drained_receiveUpTo (Nat.lt_succ_self _)

theorem receiveUpTo_eq {limit other : Nat} (hl : s.waiting < limit) (ho : s.waiting < other) :
    (receiveUpTo clock limit).run s = (receiveUpTo clock other).run s := by
  induction limit generalizing clock s other with
  | zero => exact absurd hl (Nat.not_lt_zero _)
  | succ limit ih =>
    cases other with
    | zero => exact absurd ho (Nat.not_lt_zero _)
    | succ other =>
      have h := frameRead_read clock.time s
      simp only [receiveUpTo, Action.run_bind]
      generalize (read clock.time).run s = o at h ⊢
      obtain ⟨result, t, events⟩ := o
      cases result with
      | error error => rfl
      | ok found =>
        cases found with
        | none => rfl
        | some bytes =>
          have hlt := waiting_frameRead h
          have ht := takenIn_takeIn clock.later bytes t
          simp only [Action.run_bind]
          generalize (takeIn clock.later bytes).run t = o at ht ⊢
          have hle := waiting_takenIn ht
          have he : (receiveUpTo clock.nextFrame limit).run o.state =
              (receiveUpTo clock.nextFrame other).run o.state := ih (by omega) (by omega)
          rw [he]

/-- Two interfaces empty their adapters in step if they read any number of frames in step. -/
theorem lockstep_receiveWaiting {ω : Type} {R : Interface τ → Interface τ → Prop}
    {shown : Event → Option ω} (hu : ∀ {s t}, R s t → t.isUp = s.isUp)
    (h : ∀ limit, Action.Lockstep R shown Eq (receiveUpTo clock limit) (receiveUpTo clock limit)) :
    Action.Lockstep R shown Eq (receiveWaiting clock) (receiveWaiting clock) := by
  intro s t hr
  -- The adapters may bound what is to come differently, so a limit is taken that serves both.
  have hlimit := h (max s.waiting t.waiting + 1) hr
  have hs : (receiveUpTo clock (max s.waiting t.waiting + 1)).run s =
      (receiveUpTo clock (FiniteTransport.waiting s.device.transport + 1)).run s :=
    receiveUpTo_eq (by omega) (Nat.lt_succ_self _)
  have ht : (receiveUpTo clock (max s.waiting t.waiting + 1)).run t =
      (receiveUpTo clock (FiniteTransport.waiting t.device.transport + 1)).run t :=
    receiveUpTo_eq (by omega) (Nat.lt_succ_self _)
  rw [hs, ht] at hlimit
  have hut := hu hr
  by_cases hup : s.isUp = true
  · simp only [receiveWaiting, Action.run_bind, Action.run_get, List.nil_append, hut, hup, if_true]
    exact hlimit
  · simp only [receiveWaiting, Action.run_bind, Action.run_get, hut, hup]
    exact ⟨rfl, hr, rfl⟩

end LinkLayer.Interface
