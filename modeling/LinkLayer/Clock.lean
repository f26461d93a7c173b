/-!
The time that an interface is told. It asks anew before each thing that depends on the time, so a
call is given all that the clock tells while it lasts.
-/
namespace LinkLayer

/-- Milliseconds since the clock was started. -/
abbrev Time := Nat

/-- What the clock tells during one call. Of a clock that stands still only its one reading is
kept. -/
inductive Clock where
  | still (now : Time)
  /-- The readings in rows. A call that reads frames begins a row each time it asks for a frame, and
  any other call has only the first row. What is left of a row need not be asked for. -/
  | moving (reading : Nat → Nat → Time)

namespace Clock

variable {clock : Clock} {now : Time} {i j : Nat}

instance : Coe Time Clock := ⟨still⟩

instance (now : Nat) : OfNat Clock now := ⟨still now⟩

/-- The reading at a place of a row. -/
def reading : Clock → Nat → Nat → Time
  | still now, _, _ => now
  | moving reading, i, j => reading i j

/-- What the clock tells next. -/
def time (clock : Clock) : Time := clock.reading 0 0

/-- The clock once it was asked. -/
def later : Clock → Clock
  | still now => still now
  | moving reading => moving fun i j => reading i (j + 1)

/-- The clock when the next frame is asked for. -/
def nextFrame : Clock → Clock
  | still now => still now
  | moving reading => moving fun i j => reading (i + 1) j

@[simp] theorem reading_still : (still now).reading i j = now := rfl

@[simp] theorem time_still : (still now).time = now := rfl

@[simp] theorem later_still : (still now).later = still now := rfl

@[simp] theorem nextFrame_still : (still now).nextFrame = still now := rfl

@[simp] theorem reading_later : clock.later.reading i j = clock.reading i (j + 1) := by
  cases clock <;> rfl

@[simp] theorem reading_nextFrame : clock.nextFrame.reading i j = clock.reading (i + 1) j := by
  cases clock <;> rfl

end Clock
end LinkLayer
