import Mathlib.Data.List.DropRight
import Mathlib.Data.List.Induction
import LinkLayer.Proofs.Runs

/-!
What was done since the counters were cleared. Main statement: what holds of no counts and no calls,
and is kept by every call that does not clear the counters, holds of the counters and the calls that
they count (`counted_since_cleared`).
-/
namespace LinkLayer.Interface

variable {τ : Type} [FiniteTransport τ] {s : Interface τ}

/-- Whether a call clears the counters. -/
def Made.clears (made : Made) : Bool := made.call = .control .clearCounters

/-- What was done since the counters were cleared last, or since the start. -/
def sinceCleared : List Made → List Made
  | [] => []
  | made :: history =>
    if (made :: history).any Made.clears then sinceCleared history else made :: history

theorem sinceCleared_append (history : List Made) (made : Made) :
    sinceCleared (history ++ [made]) =
      if made.clears then [] else sinceCleared history ++ [made] := by
  induction history with
  | nil => simp [sinceCleared]
  | cons first history ih =>
    have hany : (first :: (history ++ [made])).any Made.clears =
        ((first :: history).any Made.clears || made.clears) := by
      simp only [List.any_cons, List.any_append, List.any_nil, Bool.or_false, Bool.or_assoc]
    simp only [List.cons_append, sinceCleared, hany, ih]
    cases (first :: history).any Made.clears with
    | true => simp
    | false => cases made.clears <;> simp

/-- A call of a run, with the interface as the call found it. -/
structure Stage (τ : Type) where
  found : Interface τ
  made : Made

/-- The call that is made now. -/
def stage (clock : Clock) (call : Call) (s : Interface τ) : Stage τ :=
  let outcome := (perform clock call).run s
  ⟨s, ⟨call, outcome.value, outcome.events⟩⟩

@[simp] theorem found_stage (clock : Clock) (call : Call) (s : Interface τ) :
    (stage clock call s).found = s := rfl

@[simp] theorem call_stage (clock : Clock) (call : Call) (s : Interface τ) :
    (stage clock call s).made.call = call := rfl

@[simp] theorem events_stage (clock : Clock) (call : Call) (s : Interface τ) :
    (stage clock call s).made.events = ((perform clock call).run s).events := rfl

/-- The calls of a run, each with what it found. -/
def stages : List (Step τ) → Interface τ → List (Stage τ)
  | [], _ => []
  | .call clock call :: steps, s =>
    stage clock call s :: stages steps ((perform clock call).run s).state
  | .adapter change :: steps, s =>
    stages steps { s with device.transport := change s.device.transport }

/-- The calls of a run since the counters were cleared last, or since the start. -/
def stagesSinceCleared (steps : List (Step τ)) (s : Interface τ) : List (Stage τ) :=
  (stages steps s).rtakeWhile (!·.made.clears)

theorem state_run_append (steps more : List (Step τ)) (s : Interface τ) :
    (run (steps ++ more) s).state = (run more (run steps s).state).state := by
  induction steps generalizing s with
  | nil => rfl
  | cons step steps ih => cases step <;> exact ih _

theorem history_run_append (steps more : List (Step τ)) (s : Interface τ) :
    (run (steps ++ more) s).history =
      (run steps s).history ++ (run more (run steps s).state).history := by
  induction steps generalizing s with
  | nil => rfl
  | cons step steps ih =>
    cases step with
    | call clock call => exact congrArg (_ :: ·) (ih _)
    | adapter change => exact ih _

theorem run_concat_call (steps : List (Step τ)) (clock : Clock) (call : Call) (s : Interface τ) :
    run (steps ++ [.call clock call]) s =
      let o := (perform clock call).run (run steps s).state
      { history := (run steps s).history ++ [⟨call, o.value, o.events⟩], state := o.state } := by
  induction steps generalizing s with
  | nil => rfl
  | cons step steps ih => cases step <;> simp [run, ih]

theorem run_concat_adapter (steps : List (Step τ)) (change : τ → τ) (s : Interface τ) :
    run (steps ++ [.adapter change]) s =
      let left := run steps s
      { left with
        state := { left.state with device.transport := change left.state.device.transport } } := by
  induction steps generalizing s with
  | nil => rfl
  | cons step steps ih => cases step <;> simp [run, ih]

theorem stages_append (steps more : List (Step τ)) (s : Interface τ) :
    stages (steps ++ more) s = stages steps s ++ stages more (run steps s).state := by
  induction steps generalizing s with
  | nil => rfl
  | cons step steps ih =>
    cases step with
    | call clock call => exact congrArg (_ :: ·) (ih _)
    | adapter change => exact ih _

theorem map_made_stages (steps : List (Step τ)) (s : Interface τ) :
    (stages steps s).map (·.made) = (run steps s).history := by
  induction steps generalizing s with
  | nil => rfl
  | cons step steps ih =>
    cases step with
    | call clock call => exact congrArg (_ :: ·) (ih _)
    | adapter change => exact ih _

theorem stagesSinceCleared_call (steps : List (Step τ)) (clock : Clock) (call : Call)
    (s : Interface τ) :
    stagesSinceCleared (steps ++ [.call clock call]) s =
      if call = .control .clearCounters then []
      else stagesSinceCleared steps s ++ [stage clock call (run steps s).state] := by
  simp only [stagesSinceCleared, stages_append, stages, List.rtakeWhile_concat]
  by_cases hc : call = .control .clearCounters
  · simp [stage, Made.clears, hc]
  · simp [stage, Made.clears, hc]

theorem stagesSinceCleared_adapter (steps : List (Step τ)) (change : τ → τ) (s : Interface τ) :
    stagesSinceCleared (steps ++ [.adapter change]) s = stagesSinceCleared steps s := by
  simp [stagesSinceCleared, stages_append, stages]

theorem map_made_stagesSinceCleared (steps : List (Step τ)) (s : Interface τ) :
    (stagesSinceCleared steps s).map (·.made) = sinceCleared (run steps s).history := by
  induction steps using List.reverseRecOn with
  | nil => rfl
  | append_singleton steps step ih =>
    rw [history_run_append]
    cases step with
    | call clock call =>
      simp only [run, sinceCleared_append, stagesSinceCleared_call, Made.clears,
        decide_eq_true_eq]
      split
      · rfl
      · simp [ih, stage]
    | adapter change => simpa [run, stagesSinceCleared_adapter] using ih

/-- What the counters say of the calls that they count, if every call keeps it. -/
theorem counted_since_cleared {P : Counters → List (Stage τ) → Prop} {steps : List (Step τ)}
    (h0 : P {} [])
    (hcall : ∀ {clock call} {u : Interface τ} {since}, .call clock call ∈ steps →
      call ≠ .control .clearCounters → P u.counters since →
      P ((perform clock call).run u).state.counters (since ++ [stage clock call u]))
    (hs : s.counters = {}) :
    P (run steps s).state.counters (stagesSinceCleared steps s) := by
  induction steps using List.reverseRecOn with
  | nil => exact hs ▸ h0
  | append_singleton steps step ih =>
    have hp := ih fun hm => hcall (List.mem_append_left _ hm)
    rw [state_run_append]
    cases step with
    | call clock call =>
      rw [stagesSinceCleared_call]
      split
      · rename_i hc
        subst hc
        exact h0
      · rename_i hc
        exact hcall (List.mem_append_right _ List.mem_cons_self) hc hp
    | adapter change =>
      rw [stagesSinceCleared_adapter]
      exact hp

end LinkLayer.Interface
