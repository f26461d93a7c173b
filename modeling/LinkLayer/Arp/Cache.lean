import LinkLayer.Ipv4.Address
import LinkLayer.MacAddress

/-!
The table that binds IPv4 addresses to hardware addresses. It has a fixed number of slots. A new
address takes the first free slot; when there is none it takes the slot whose turn it is, and the
turns go round the table.
-/
namespace LinkLayer.Arp

/-- One binding. -/
structure Entry where
  ip : Ipv4.Address := {}
  mac : MacAddress := {}
deriving DecidableEq, Repr, Inhabited

structure Cache where
  slots : List (Option Entry)
  /-- The slot that the next new address takes in a full table. -/
  nextVictim : Nat := 0
deriving DecidableEq, Repr

namespace Cache

variable {cache : Cache} {ip : Ipv4.Address} {mac : MacAddress}

/-- How many slots of 11 bytes the largest allocation has room for. -/
def maxCapacity : Nat := Bytes.maxAllocation / 11

/-- A table of empty slots. -/
def empty (capacity : Nat) : Cache := { slots := List.replicate capacity none }

def capacity (cache : Cache) : Nat := cache.slots.length

/-- The bindings in slot order. -/
def entries (cache : Cache) : List Entry := cache.slots.filterMap id

/-- Number of occupied slots. -/
def count (cache : Cache) : Nat := cache.slots.countP Option.isSome

def lookup (cache : Cache) (ip : Ipv4.Address) : Option MacAddress :=
  (cache.entries.find? (·.ip == ip)).map (·.mac)

/-- The slot that holds this address, or else the first free one. -/
def slotFor? (cache : Cache) (ip : Ipv4.Address) : Option Nat :=
  (cache.slots.findIdx? (·.any (·.ip == ip))).or (cache.slots.findIdx? Option.isNone)

/-- Binds `ip` to `mac`. An address that is present keeps its slot, so refreshing a binding never
evicts another one. -/
def insert (cache : Cache) (ip : Ipv4.Address) (mac : MacAddress) : Cache :=
  match cache.slotFor? ip with
  | some slot => { cache with slots := cache.slots.set slot (some ⟨ip, mac⟩) }
  | none =>
    if cache.slots.isEmpty then cache
    else {
      slots := cache.slots.set cache.nextVictim (some ⟨ip, mac⟩)
      nextVictim := (cache.nextVictim + 1) % cache.capacity }

/-- The same table with every slot empty. -/
def reset (cache : Cache) : Cache := empty cache.capacity

/-- Copies bindings in slot order over the front of `buffer`, as many as there are and as fit. Gives
their number and the whole buffer. -/
def snapshot (cache : Cache) (buffer : List Entry) : Nat × List Entry :=
  let copied := cache.entries.take buffer.length
  (copied.length, copied ++ buffer.drop copied.length)

@[simp] theorem capacity_empty (n : Nat) : (empty n).capacity = n := by simp [empty, capacity]

@[simp] theorem entries_empty (n : Nat) : (empty n).entries = [] := by
  simp [empty, entries]

@[simp] theorem lookup_empty (n : Nat) : (empty n).lookup ip = none := by simp [lookup]

@[simp] theorem capacity_insert : (cache.insert ip mac).capacity = cache.capacity := by
  unfold insert
  split
  · simp [capacity]
  · split <;> simp [capacity]

@[simp] theorem capacity_reset : cache.reset.capacity = cache.capacity := by simp [reset]

theorem length_entries (cache : Cache) : cache.entries.length = cache.count := by
  unfold entries count
  induction cache.slots with
  | nil => rfl
  | cons slot rest ih => cases slot <;> simp_all

end Cache
end LinkLayer.Arp
