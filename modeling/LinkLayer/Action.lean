import LinkLayer.Event

/-! Actions on a state: each gives a value, leaves a new state and adds events, oldest first. -/
namespace LinkLayer

structure Outcome (σ α : Type) where
  value : α
  state : σ
  events : List Event := []

/-- An action is run once from a given state. -/
def Action (σ α : Type) : Type := σ → Outcome σ α

namespace Action

variable {σ ρ α β : Type} {s : σ}

def run (action : Action σ α) (s : σ) : Outcome σ α := action s

/-- Runs the second action from the state that the first one left. -/
def andThen (first : Action σ α) (next : α → Action σ β) : Action σ β := fun s =>
  let before := first.run s
  let after := (next before.value).run before.state
  { after with events := before.events ++ after.events }

/-- Changes only the value. Going through `andThen` would copy the events. -/
def mapValue (f : α → β) (action : Action σ α) : Action σ β := fun s =>
  let outcome := action.run s
  { outcome with value := f outcome.value }

instance : Monad (Action σ) where
  pure value := fun state => { value, state }
  bind := andThen
  map := mapValue

def get : Action σ σ := fun state => { value := state, state }

def modify (f : σ → σ) : Action σ Unit := fun state => { value := (), state := f state }

def emit (event : Event) : Action σ Unit := fun state => { value := (), state, events := [event] }

/-- Runs an action on a part of the state. -/
def onPart (part : σ → ρ) (replace : σ → ρ → σ) (action : Action ρ α) : Action σ α := fun s =>
  let outcome := action.run (part s)
  { value := outcome.value, state := replace s outcome.state, events := outcome.events }

@[simp] theorem run_pure (value : α) :
    (pure value : Action σ α).run s = { value, state := s } := rfl

@[simp] theorem run_bind (first : Action σ α) (next : α → Action σ β) :
    (first >>= next).run s =
      { value := ((next (first.run s).value).run (first.run s).state).value
        state := ((next (first.run s).value).run (first.run s).state).state
        events := (first.run s).events ++
          ((next (first.run s).value).run (first.run s).state).events } := rfl

@[simp] theorem run_map (f : α → β) (action : Action σ α) :
    (f <$> action).run s =
      { value := f (action.run s).value
        state := (action.run s).state
        events := (action.run s).events } := rfl

@[simp] theorem run_get : (get : Action σ σ).run s = { value := s, state := s } := rfl

@[simp] theorem run_modify (f : σ → σ) :
    (modify f).run s = { value := (), state := f s } := rfl

@[simp] theorem run_emit (event : Event) :
    (emit event : Action σ Unit).run s = { value := (), state := s, events := [event] } := rfl

@[simp] theorem run_onPart (part : σ → ρ) (replace : σ → ρ → σ) (action : Action ρ α) :
    (onPart part replace action).run s =
      { value := (action.run (part s)).value
        state := replace s (action.run (part s)).state
        events := (action.run (part s)).events } := rfl

@[simp] theorem run_ite (c : Prop) [Decidable c] (first second : Action σ α) :
    (if c then first else second).run s = if c then first.run s else second.run s := by
  split <;> rfl

@[ext] theorem ext {first second : Action σ α} (h : ∀ s, first.run s = second.run s) :
    first = second := funext h

instance : LawfulMonad (Action σ) := LawfulMonad.mk' _
  (fun _ => by ext s; simp)
  (fun _ _ => by ext s; simp)
  (fun _ _ _ => by ext s; simp)
  (fun _ _ => rfl)
  (fun _ _ => rfl)
  (fun _ _ => rfl)
  (fun _ _ => by ext s; simp)

end Action
end LinkLayer
