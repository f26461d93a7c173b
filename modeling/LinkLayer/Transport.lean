import LinkLayer.Error
import LinkLayer.MacAddress

/-! What an interface needs of the adapter below it. No operation waits. -/
namespace LinkLayer

/-- One adapter that takes and gives one frame at a time. -/
class Transport (τ : Type) where
  transmit : τ → Bytes → Except TransportError Unit × τ
  /-- Gives no frame when none is there. -/
  receive : τ → Except TransportError (Option Bytes) × τ
  readAddress : τ → Except TransportError MacAddress × τ

/-- An adapter that has no frame at some time if it is only asked often enough, which is what
emptying it relies on. `waiting` bounds the frames that it can still give: taking one lowers the
bound, and sending does not raise it. -/
class FiniteTransport (τ : Type) extends Transport τ where
  waiting : τ → Nat
  waiting_receive : ∀ (t : τ) (frame : Bytes), (receive t).1 = .ok (some frame) →
    waiting (receive t).2 < waiting t
  waiting_transmit : ∀ (t : τ) (frame : Bytes), waiting (transmit t frame).2 ≤ waiting t

end LinkLayer
