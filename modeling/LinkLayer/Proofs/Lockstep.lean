import LinkLayer.Action

/-!
Two actions in step: from related states they give related values, leave related states and show the
same events. Main statements: the rules that put this together from the parts of an action
(`Lockstep.bind`, `Lockstep.seq`), and the same rules for an action beside itself
(`Uniform.bind`).
-/
namespace LinkLayer

variable {σ α β ω : Type}

/-- Values and states are related, and what is shown of the events is the same. -/
structure Outcome.Agree (R : σ → σ → Prop) (shown : Event → Option ω) (V : α → α → Prop)
    (first second : Outcome σ α) : Prop where
  value : V first.value second.value
  state : R first.state second.state
  shown : first.events.filterMap shown = second.events.filterMap shown

namespace Action

/-- The actions agree from related states on. -/
def Lockstep (R : σ → σ → Prop) (shown : Event → Option ω) (V : α → α → Prop)
    (first second : Action σ α) : Prop :=
  ∀ ⦃s t⦄, R s t → (first.run s).Agree R shown V (second.run t)

namespace Lockstep

variable {R : σ → σ → Prop} {shown : Event → Option ω} {V : α → α → Prop} {W : β → β → Prop}
  {first second : Action σ α}

theorem mono {V' : α → α → Prop} (h : Lockstep R shown V first second)
    (hv : ∀ a b, V a b → V' a b) : Lockstep R shown V' first second := by
  intro s t hr
  have ha := h hr
  exact ⟨hv _ _ ha.value, ha.state, ha.shown⟩

theorem pure {a b : α} (h : V a b) : Lockstep R shown V (Pure.pure a) (Pure.pure b) := by
  intro s t hr
  exact ⟨h, hr, rfl⟩

/-- The actions that follow may rely on the values of the first ones. -/
theorem bind {next other : α → Action σ β} (h : Lockstep R shown V first second)
    (hn : ∀ a b, V a b → Lockstep R shown W (next a) (other b)) :
    Lockstep R shown W (first >>= next) (second >>= other) := by
  intro s t hr
  have ha := h hr
  have hb := hn _ _ ha.value ha.state
  refine ⟨hb.value, hb.state, ?_⟩
  simp only [run_bind, List.filterMap_append, ha.shown, hb.shown]

theorem seq {first second : Action σ Unit} {V : Unit → Unit → Prop}
    {next other : Unit → Action σ β} (h : Lockstep R shown V first second)
    (hn : Lockstep R shown W (next ()) (other ())) :
    Lockstep R shown W (first >>= next) (second >>= other) := by
  apply bind h
  intro _ _ _
  exact hn

theorem map {f : α → β} (h : Lockstep R shown V first second) (hf : ∀ a b, V a b → W (f a) (f b)) :
    Lockstep R shown W (f <$> first) (f <$> second) := by
  intro s t hr
  have ha := h hr
  exact ⟨hf _ _ ha.value, ha.state, ha.shown⟩

theorem get : Lockstep R shown R Action.get Action.get := by
  intro s t hr
  exact ⟨hr, hr, rfl⟩

theorem modify {f g : σ → σ} (h : ∀ ⦃s t⦄, R s t → R (f s) (g t)) :
    Lockstep R shown Eq (Action.modify f) (Action.modify g) := by
  intro s t hr
  exact ⟨rfl, h hr, rfl⟩

theorem emit {event other : Event} (h : shown event = shown other) :
    Lockstep R shown Eq (Action.emit event) (Action.emit other) := by
  intro s t hr
  refine ⟨rfl, hr, ?_⟩
  simp only [run_emit, List.filterMap_cons, h]

end Lockstep

/-- From related states the action does the same. -/
abbrev Uniform (R : σ → σ → Prop) (shown : Event → Option ω) (action : Action σ α) : Prop :=
  Lockstep R shown Eq action action

namespace Uniform

variable {R : σ → σ → Prop} {shown : Event → Option ω}

theorem pure (a : α) : Uniform R shown (Pure.pure a) := Lockstep.pure rfl

theorem emit (event : Event) : Uniform R shown (.emit event) := Lockstep.emit rfl

theorem bind {action : Action σ α} {next : α → Action σ β} (h : Uniform R shown action)
    (hn : ∀ a, Uniform R shown (next a)) : Uniform R shown (action >>= next) := by
  apply Lockstep.bind h
  rintro a _ rfl
  exact hn a

theorem seq {first : Action σ Unit} {next : Unit → Action σ α} (h : Uniform R shown first)
    (hn : Uniform R shown (next ())) : Uniform R shown (first >>= next) :=
  Lockstep.seq h hn

theorem map {action : Action σ α} (h : Uniform R shown action) (f : α → β) :
    Uniform R shown (f <$> action) :=
  Lockstep.map h fun _ _ => congrArg f

/-- An action in step with an image of its state takes the image along. -/
theorem run_image {φ : σ → σ} {action : Action σ α}
    (h : Uniform (fun s t => t = φ s) some action) (s : σ) :
    action.run (φ s) =
      { value := (action.run s).value
        state := φ (action.run s).state
        events := (action.run s).events } := by
  obtain ⟨hvalue, hstate, hevents⟩ := h (rfl : φ s = φ s)
  rw [List.filterMap_some, List.filterMap_some] at hevents
  rw [hvalue, hevents, ← hstate]

end Uniform
end Action
end LinkLayer
