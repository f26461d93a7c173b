import LinkLayer.Fifo
import LinkLayer.Transport

/-!
A simulated adapter. Frames for the interface wait in its inbox and frames from the interface gather
in its outbox. Each of its operations can be made to fail.
-/
namespace LinkLayer

/-- Operations that fail until the fault is lifted. -/
structure Faults where
  transmit : Bool := false
  receive : Bool := false
  readAddress : Bool := false
deriving DecidableEq, Repr

structure Adapter where
  address : MacAddress
  faults : Faults := {}
  /-- Whether the far side is still there. -/
  attached : Bool := true
  inbox : Fifo Bytes := .empty
  outbox : Fifo Bytes := .empty
deriving DecidableEq, Repr

namespace Adapter

variable {adapter : Adapter}

/-- A fault counts before the far side is looked for. -/
def transmit (adapter : Adapter) (frame : Bytes) : Except TransportError Unit × Adapter :=
  if adapter.faults.transmit then (.error (.io "bulk out stalled"), adapter)
  else if adapter.attached then (.ok (), { adapter with outbox := adapter.outbox.push frame })
  else (.error .detached, adapter)

/-- Frames that came before the far side went away can still be received. -/
def receive (adapter : Adapter) : Except TransportError (Option Bytes) × Adapter :=
  if adapter.faults.receive then (.error (.io "bulk in stalled"), adapter)
  else match adapter.inbox.head? with
    | some frame => (.ok (some frame), { adapter with inbox := adapter.inbox.tail })
    | none => if adapter.attached then (.ok none, adapter) else (.error .detached, adapter)

def readAddress (adapter : Adapter) : Except TransportError MacAddress × Adapter :=
  if adapter.faults.readAddress then (.error (.io "control transfer failed"), adapter)
  else (.ok adapter.address, adapter)

/-- The far side sends a frame. -/
def inject (adapter : Adapter) (frame : Bytes) : Adapter :=
  { adapter with inbox := adapter.inbox.push frame }

/-- The far side takes what was sent to it. -/
def collect (adapter : Adapter) : List Bytes × Adapter :=
  (adapter.outbox.toList, { adapter with outbox := .empty })

/-- The far side goes away. -/
def detach (adapter : Adapter) : Adapter := { adapter with attached := false }

instance : FiniteTransport Adapter where
  transmit
  receive
  readAddress
  waiting adapter := adapter.inbox.length
  waiting_receive adapter frame h := by
    unfold receive at h ⊢
    split at h
    · simp at h
    · rename_i hf
      cases hi : adapter.inbox.toList with
      | nil => simp [hi] at h; split at h <;> simp at h
      | cons => simp [hf, hi]
  waiting_transmit adapter frame := by
    unfold transmit
    split
    · simp
    · split <;> simp

end Adapter
end LinkLayer
