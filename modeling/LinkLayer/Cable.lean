import LinkLayer.Adapter
import LinkLayer.Interface.Limits

/-!
Two interfaces whose adapters are joined by a cable. What one side sends lies at once in the other's
inbox. A side that is unplugged leaves the other one detached.
-/
namespace LinkLayer

/-- The ends of a cable. -/
inductive Side where
  | near
  | far
deriving DecidableEq, Repr

def Side.other : Side → Side
  | near => far
  | far => near

/-- Carries the frames in the outbox of the first adapter to the inbox of the second. -/
def Adapter.deliver (sender receiver : Adapter) : Adapter × Adapter :=
  let (frames, sender) := sender.collect
  (sender, { receiver with inbox := receiver.inbox.append frames })

structure Cable where
  near : Interface Adapter
  far : Interface Adapter

namespace Cable

def interface (cable : Cable) : Side → Interface Adapter
  | .near => cable.near
  | .far => cable.far

def set (cable : Cable) (side : Side) (interface : Interface Adapter) : Cable :=
  match side with
  | .near => { cable with near := interface }
  | .far => { cable with far := interface }

/-- Carries what a side has sent to the other one. -/
def carry (cable : Cable) (side : Side) : Cable :=
  let sender := cable.interface side
  let receiver := cable.interface side.other
  let (sent, received) := sender.device.transport.deliver receiver.device.transport
  (cable.set side { sender with device.transport := sent }).set side.other
    { receiver with device.transport := received }

/-- Runs an action at a side. -/
def onSide {α : Type} (side : Side) (action : Action (Interface Adapter) α) : Action Cable α :=
  fun cable =>
    let outcome := action.run (cable.interface side)
    { value := outcome.value
      state := (cable.set side outcome.state).carry side
      events := outcome.events }

/-- Makes one call at a side. -/
def perform (side : Side) (clock : Clock) (call : Interface.Call) : Action Cable Interface.Reply :=
  onSide side (Interface.perform clock call)

/-- Makes one call at a side by a clock that knows no time behind the last one. -/
def perform? (last : Time) (side : Side) (clock : Clock) (call : Interface.Call) :
    Action Cable (Option Interface.Reply) :=
  onSide side (Interface.perform? last clock call)

/-- Takes a side away, and the other one finds itself detached. -/
def unplug (cable : Cable) (side : Side) : Cable :=
  let other := cable.interface side.other
  cable.set side.other { other with device.transport := other.device.transport.detach }

end Cable
end LinkLayer
