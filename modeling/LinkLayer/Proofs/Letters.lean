import LinkLayer.Loopback.Report
import LinkLayer.Proofs.Batches

/-!
The two sides of the loopback run, and the datagrams that go between them. Main statements: a letter
stays one when it is stamped, received and echoed, and what a side does with one depends on its
length and on whether the sides have met (`Letter.sendable`, `Letter.plan_of_tooLong`).
-/
namespace LinkLayer.Loopback

variable {options : Options} {side : Side} {clock : Nat → Clock} {n i j k length : Nat}
  {now expiry : Time} {d : Datagram}

def macOf : Side → MacAddress
  | .near => hostMac
  | .far => peerMac

def ipOf : Side → Ipv4.Address
  | .near => hostIp
  | .far => peerIp

def configOf (options : Options) : Side → Config
  | .near => hostConfig options
  | .far => peerConfig options

/-- The bearings of a side that knows nobody. -/
def alone (options : Options) (side : Side) : Bearings where
  config := configOf options side
  mac := macOf side
  cache := .empty (configOf options side).cacheCapacity

/-- The bearings of a side that knows where the other one is. -/
def met (options : Options) (side : Side) : Bearings :=
  { alone options side with
    cache := (alone options side).cache.insert (ipOf side.other) (macOf side.other) }

theorem lookup_alone : (alone options side).cache.lookup (ipOf side.other) = none := by
  cases side <;> rfl

theorem lookup_met :
    (met options side).cache.lookup (ipOf side.other) = some (macOf side.other) := by
  cases side <;> rfl

theorem macOf_ne_broadcast (side : Side) : macOf side ≠ .broadcast := by cases side <;> decide

theorem isLocal_ipOf_other : (configOf options side).isLocal (ipOf side.other) = true := by
  have h : (ipOf side.other).sameNetwork (ipOf side) ⟨255, 255, 255, 0⟩ = true := by
    cases side <;> decide
  cases side <;> exact h

theorem namesHost_ipOf_other :
    (ipOf side.other).namesHost (configOf options side).mask = true := by
  have h : (ipOf side.other).namesHost ⟨255, 255, 255, 0⟩ = true := by cases side <;> decide
  cases side <;> exact h

theorem mtu_configOf : (configOf options side).mtu.toNat = 1500 := by cases side <;> rfl

theorem lifetime_configOf : (configOf options side).lifetime = 30000 := by cases side <;> rfl

/-- Any message of the other side makes it known. -/
theorem learn_alone {message : Arp.Message} (hi : message.senderIp = ipOf side.other)
    (hm : message.senderMac = macOf side.other) :
    (alone options side).cache.learn message = (met options side).cache := by
  have hs : message.senderIp ≠ .unspecified := by
    rw [hi]
    cases side <;> decide
  rw [Arp.Cache.learn, if_neg hs, hi, hm]
  rfl

theorem iterate_learn_alone {message : Arp.Message} (hi : message.senderIp = ipOf side.other)
    (hm : message.senderMac = macOf side.other) (hn : n ≠ 0) :
    (·.learn message)^[n] (alone options side).cache = (met options side).cache := by
  obtain ⟨n, rfl⟩ := Nat.exists_eq_add_one_of_ne_zero hn
  rw [Arp.Cache.iterate_learn, learn_alone hi hm]
  rw [learn_alone hi hm, hi, hm]
  exact lookup_met

/-- A datagram from a side to the other one, without options and with this much payload. -/
structure Letter (side : Side) (length : Nat) (d : Datagram) : Prop where
  consistent : d.Consistent
  options : d.options = []
  payload : d.payload.length = length
  source : d.header.src = ipOf side
  destination : d.header.dest = ipOf side.other

namespace Letter

theorem ipLength (h : Letter side length d) : d.ipLength = 20 + length := by
  rw [Datagram.ipLength, h.options, h.payload]
  rfl

theorem fits (h : Letter side length d) (hl : length ≤ 1480) : d.Fits := by
  refine ⟨?_, ?_, ?_⟩
  · simp [h.options]
  · simp [h.options]
  · have := h.ipLength
    omega

theorem stamp (h : Letter side length d) (expiry : Time) : Letter side length (d.stamp expiry) where
  consistent := ⟨h.consistent.version, h.consistent.ihl, h.consistent.total_length,
    h.consistent.checksum⟩
  options := h.options
  payload := h.payload
  source := h.source
  destination := h.destination

theorem arrived (h : Letter side length d) (expiry : Time) :
    Letter side length (d.arrived expiry) where
  consistent := ⟨h.consistent.version, h.consistent.ihl, h.consistent.total_length,
    h.consistent.checksum⟩
  options := h.options
  payload := h.payload
  source := h.source
  destination := h.destination

/-- The echo goes back where the letter came from. -/
theorem echo (h : Letter side length d) : Letter side.other length (echo d) where
  consistent := by
    refine Datagram.consistent_make ?_ _ _
    exact h.consistent.version
  options := h.options
  payload := h.payload
  source := h.destination
  destination := by
    rw [Side.other_other]
    exact h.source

/-- A letter that is short enough takes nothing but the binding. -/
theorem sendable (h : Letter side length d) (hl : length ≤ 1480) (hf : d.isExpired now = false)
    {b : Bearings} (hb : b.config = configOf options side) :
    b.Sendable now (ipOf side.other) d where
  fresh := hf
  route cache := by
    have hlength : d.ipLength ≤ (configOf options side).mtu.toNat := by
      rw [mtu_configOf, h.ipLength]
      omega
    have hlocal : (configOf options side).isLocal d.destination = true := by
      rw [Datagram.destination, h.destination]
      exact isLocal_ipOf_other
    have hhost : d.destination.namesHost (configOf options side).mask = true := by
      rw [Datagram.destination, h.destination]
      exact namesHost_ipOf_other
    have hroute := Config.route_of_local (h.fits hl) hlength hhost hlocal cache
    rw [hb, hroute, Datagram.destination, h.destination]

/-- A letter that is too long is refused. -/
theorem plan_of_tooLong (h : Letter side length d) (hl : 1480 < length)
    (hf : d.isExpired now = false) {b : Bearings} (hb : b.config = configOf options side) :
    b.plan now d = .refuse (.badLength d.frameLength) := by
  refine Bearings.plan_of_refused hf ?_
  have hlong : (configOf options side).mtu.toNat < d.ipLength := by
    rw [mtu_configOf, h.ipLength]
    omega
  rw [hb, Config.route, if_pos (.inr hlong)]

end Letter

/-- Any two readings in the first `n` calls are less than a lifetime apart. Those that are not asked
for may be thought of as repeating the last one. -/
def Timely (clock : Nat → Clock) (n : Nat) : Prop :=
  ∀ i < n, ∀ i' < n, ∀ j k j' k', (clock i').reading j' k' < (clock i).reading j k + 30000

/-- A letter that does not expire in the first `n` calls. -/
structure Posted (clock : Nat → Clock) (n : Nat) (side : Side) (length : Nat) (d : Datagram) :
    Prop where
  letter : Letter side length d
  lasts : ∀ i < n, ∀ j k, d.isExpired ((clock i).reading j k) = false

theorem Posted.sendable (h : Posted clock n side length d) (hl : length ≤ 1480) (hi : i < n)
    (j k : Nat) {b : Bearings} (hb : b.config = configOf options side) :
    b.Sendable ((clock i).reading j k) (ipOf side.other) d :=
  h.letter.sendable hl (h.lasts i hi j k) hb

/-- A letter that does not expire has the same age whenever the clock is asked. -/
theorem Posted.agrees (h : Posted clock n side length d) (hi : i < n) (j k : Nat) :
    (clock i).Agrees ((clock i).reading j k) d := fun j' k' =>
  (h.lasts i hi j' k').trans (h.lasts i hi j k).symm

theorem Letter.posted (h : Letter side length d) (ht : Timely clock n) (hi : i < n) (j k : Nat) :
    Posted clock n side length
      (d.stamp ((clock i).reading j k + (configOf options side).lifetime)) where
  letter := h.stamp _
  lasts i' hi' j' k' := by
    rw [Datagram.isExpired_stamp, lifetime_configOf, decide_eq_false_iff_not]
    exact Nat.not_le.mpr (ht i hi i' hi' j k j' k')

/-- The other side has as much time again. -/
theorem Posted.arrived (h : Posted clock n side length d) (ht : Timely clock n) (hi : i < n)
    (j k : Nat) :
    Posted clock n side length
      (d.arrived ((clock i).reading j k + (configOf options side.other).lifetime)) where
  letter := h.letter.arrived _
  lasts i' hi' j' k' := by
    rw [Datagram.isExpired_arrived, lifetime_configOf, decide_eq_false_iff_not]
    exact Nat.not_le.mpr (ht i hi i' hi' j k j' k')

theorem letter_datagram (length id : Nat) : Letter .near length (datagram (payload length) id) where
  consistent := Datagram.consistent_make rfl _ _
  options := rfl
  payload := List.length_ofFn
  source := rfl
  destination := rfl

theorem length_datagrams (options : Options) : (datagrams options).length = options.count := by
  rw [datagrams]
  cases options.count with
  | zero => rfl
  | succ n => rw [List.length_map, List.length_range]

theorem letter_of_mem_datagrams (h : d ∈ datagrams options) : Letter .near options.payload d := by
  rw [datagrams] at h
  split at h
  · cases h
  · obtain ⟨id, -, rfl⟩ := List.mem_map.mp h
    exact letter_datagram _ id

end LinkLayer.Loopback
