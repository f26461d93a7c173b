import LinkLayer.Proofs.Learning

/-!
What is shown of a table of bindings. Main statement: a copy of a table fills a buffer of any length
from its front on, binding by binding, and goes no further, and the copy that the host gets of a
table is what can be looked up in it, no more and no less (`bindings_shown`).
-/
namespace LinkLayer

namespace Arp

/-- Writes one more binding into a buffer that was written so far, if there is a place left. -/
def writeNext (copy : Nat × List Entry) (e : Entry) : Nat × List Entry :=
  if copy.1 < copy.2.length then (copy.1 + 1, copy.2.set copy.1 e) else copy

/-- These bindings stand at the front of the buffer, as many as fit, and the rest of it is as it
was. -/
structure Copied (es buffer : List Entry) (copy : Nat × List Entry) : Prop where
  number : copy.1 = min buffer.length es.length
  written : copy.2 = es.take copy.1 ++ buffer.drop copy.1

namespace Copied

variable {es buffer : List Entry} {copy other : Nat × List Entry}

theorem unique (h : Copied es buffer copy) (ho : Copied es buffer other) : copy = other := by
  have hn : copy.1 = other.1 := h.number.trans ho.number.symm
  exact Prod.ext hn (by rw [h.written, ho.written, hn])

theorem length_take (h : Copied es buffer copy) : (es.take copy.1).length = copy.1 := by
  have hn := h.number
  rw [List.length_take]
  omega

theorem length (h : Copied es buffer copy) : copy.2.length = buffer.length := by
  have hn := h.number
  rw [h.written, List.length_append, h.length_take, List.length_drop]
  omega

theorem take_eq (h : Copied es buffer copy) : copy.2.take copy.1 = es.take copy.1 := by
  rw [h.written, List.take_left' h.length_take]

theorem drop_eq (h : Copied es buffer copy) : copy.2.drop copy.1 = buffer.drop copy.1 := by
  rw [h.written, List.drop_left' h.length_take]

theorem writeNext (h : Copied es buffer copy) (e : Entry) :
    Copied (es ++ [e]) buffer (writeNext copy e) := by
  have hn := h.number
  have hl := h.length
  have hw := h.written
  unfold Arp.writeNext
  split
  · have hes : copy.1 = es.length := by omega
    have hlt : es.length < buffer.length := by omega
    constructor
    · simp
      omega
    · rw [hes, List.take_length, List.drop_eq_getElem_cons hlt] at hw
      rw [hes, hw, List.set_append_right _ _ (Nat.le_refl _), Nat.sub_self, List.set_cons_zero,
        List.take_of_length_le (by simp), List.append_assoc, List.singleton_append]
  · constructor
    · simp
      omega
    · rw [List.take_append_of_le_length (by omega)]
      exact hw

end Copied

theorem copied_foldl (es buffer : List Entry) :
    Copied es buffer (es.foldl writeNext (0, buffer)) := by
  induction es using List.reverseRecOn with
  | nil => exact ⟨by simp, by simp⟩
  | append_singleton es e ih =>
    rw [List.foldl_append]
    exact ih.writeNext e

namespace Cache

variable {cache : Cache} {buffer : List Entry} {ip : Ipv4.Address} {mac : MacAddress}

theorem copied_snapshot (cache : Cache) (buffer : List Entry) :
    Copied cache.entries buffer (cache.snapshot buffer) where
  number := by simp [snapshot]
  written := by simp [snapshot]

theorem capacity_after (capacity : Nat) (changes : List Change) :
    (after capacity changes).capacity = capacity := by
  induction changes using List.reverseRecOn with
  | nil => exact capacity_empty capacity
  | append_singleton changes change ih =>
    rw [after, List.foldl_append]
    cases change with
    | insert ip mac => exact capacity_insert.trans ih
    | reset => exact capacity_reset.trans ih

/-- The table holds different addresses in its first slots, and nothing in the others. -/
structure Packed (cache : Cache) : Prop where
  slots : ∃ free, cache.slots = cache.entries.map some ++ List.replicate free none
  nodup : (cache.entries.map (·.ip)).Nodup

theorem Ages.packed {capacity : Nat} {ages : List Entry} (h : cache.Ages capacity ages) :
    cache.Packed :=
  ⟨⟨_, h.slots⟩, h.nodup⟩

theorem packed_after (capacity : Nat) (changes : List Change) :
    (after capacity changes).Packed := by
  rcases capacity.eq_zero_or_pos with rfl | hc
  · -- A table without slots has no next victim, so it has no ages.
    have hslots : (after 0 changes).slots = [] :=
      List.eq_nil_of_length_eq_zero (capacity_after 0 changes)
    have hentries : (after 0 changes).entries = [] := by rw [entries, hslots, List.filterMap_nil]
    exact ⟨⟨0, by rw [hslots, hentries]; rfl⟩, by rw [hentries]; exact List.nodup_nil⟩
  · exact (ages_after hc changes).packed

/-- A binding is copied from the slot of its number. -/
theorem Packed.slots_getElem? (h : cache.Packed) {i : Nat} (hi : i < (cache.snapshot buffer).1) :
    cache.slots[i]? = some (cache.snapshot buffer).2[i]? := by
  obtain ⟨free, hs⟩ := h.slots
  have hcopy := cache.copied_snapshot buffer
  have hl : i < cache.entries.length := by
    have hn := hcopy.number
    omega
  have he : (cache.snapshot buffer).2[i]? = cache.entries[i]? := by
    have ht := congrArg (·[i]?) hcopy.take_eq
    simpa only [List.getElem?_take, if_pos hi] using ht
  rw [he, hs, List.getElem?_append_left (by simpa using hl), List.getElem?_map,
    List.getElem?_eq_getElem hl]
  rfl

/-- What is copied of a table can be looked up in it. -/
theorem Packed.lookup_of_mem (h : cache.Packed)
    (hm : ⟨ip, mac⟩ ∈ (cache.snapshot buffer).2.take (cache.snapshot buffer).1) :
    cache.lookup ip = some mac := by
  rw [(cache.copied_snapshot buffer).take_eq] at hm
  exact (lookup_eq_some_iff h.nodup).mpr (List.mem_of_mem_take hm)

/-- A buffer that is long enough gets all bindings. -/
theorem take_snapshot (hl : cache.count ≤ buffer.length) :
    (cache.snapshot buffer).2.take (cache.snapshot buffer).1 = cache.entries := by
  have hcopy := cache.copied_snapshot buffer
  have hn : (cache.snapshot buffer).1 = cache.entries.length := by
    have hcount := cache.length_entries
    rw [hcopy.number]
    omega
  rw [hcopy.take_eq, hn, List.take_length]

end Cache
end Arp

namespace Interface

theorem bindings_eq {τ : Type} (s : Interface τ) : s.bindings = s.cache.entries :=
  Arp.Cache.take_snapshot (by simp)

variable {τ : Type} [FiniteTransport τ]

/-- A copy of a table writes its bindings one by one over the front of a buffer, as many as there
are and as fit, each from the slot of its number, and touches nothing behind them. What the host
gets at any time is a table of different addresses, of the length that is reported to it, in which
an address stands with its binding if it is bound and else not at all. The unspecified address that
fills the buffer first is not in it. -/
theorem bindings_shown :
    (∀ (capacity : Nat) (changes : List Arp.Change) (buffer : List Arp.Entry),
      let cache := Arp.Cache.after capacity changes
      let number := (cache.snapshot buffer).1
      let copy := (cache.snapshot buffer).2
      number = min buffer.length cache.count ∧
        cache.entries.foldl Arp.writeNext (0, buffer) = (number, copy) ∧
        copy.take number = cache.entries.take number ∧
        copy.drop number = buffer.drop number ∧
        (∀ i < number, cache.slots[i]? = some copy[i]?) ∧
        ∀ ip mac, ⟨ip, mac⟩ ∈ copy.take number → cache.lookup ip = some mac) ∧
    ∀ (config : Config) (time : Time) (transport : τ) (s : Interface τ),
      ((create config time).run transport).value = .ok s → ∀ steps : List (Step τ),
      let state := (run steps s).state
      let table := state.bindings
      let status := state.status
      (∀ clock, (perform clock (.control .bindings)).run state =
          { value := .answer (.bindings table), state } ∧
        (perform clock (.control .status)).run state =
          { value := .answer (.status status), state }) ∧
      table.length = status.bindings ∧ (table.map (·.ip)).Nodup ∧
      (∀ ip mac, ⟨ip, mac⟩ ∈ table ↔ state.cache.lookup ip = some mac) ∧
      ∀ e ∈ table, e.ip ≠ .unspecified := by
  refine ⟨?_, ?_⟩
  · intro capacity changes buffer cache number copy
    have hpacked : cache.Packed := Arp.Cache.packed_after capacity changes
    have hcopy := cache.copied_snapshot buffer
    refine ⟨?_, ?_, hcopy.take_eq, hcopy.drop_eq, ?_, ?_⟩
    · rw [← cache.length_entries]
      exact hcopy.number
    · exact (Arp.copied_foldl cache.entries buffer).unique hcopy
    · intro i hi
      exact hpacked.slots_getElem? hi
    · intro ip mac hm
      exact hpacked.lookup_of_mem hm
  · intro config time transport s hc steps state table status
    have htable : table = state.cache.entries := bindings_eq state
    obtain ⟨ages, h⟩ := recalls_run hc steps
    rw [htable]
    refine ⟨fun _ => ⟨?_, rfl⟩, state.cache.length_entries, h.held.nodup, ?_, ?_⟩
    · rw [← htable]
      rfl
    · intro ip mac
      exact (Arp.Cache.lookup_eq_some_iff h.held.nodup).symm
    · intro e he
      have hage : e ∈ ages := h.held.rotate ▸ List.mem_rotate.mpr he
      exact (h.said e hage).1

/-- A table of two bindings is copied into a buffer that is too short and into one that is too long.
An interface with two slots hears three neighbours and a probe: the first neighbour is gone from
what is shown, and the probe never was there. -/
theorem bindings_shown_evicted :
    let ip (n : UInt8) : Ipv4.Address := ⟨192, 168, 1, n⟩
    let mac (n : UInt8) : MacAddress := ⟨2, 0, 0, 0, 0, n⟩
    let filler : Arp.Entry := {}
    let changes : List Arp.Change :=
      [.insert (ip 2) (mac 2), .insert (ip 3) (mac 3), .insert (ip 2) (mac 9)]
    let cache := Arp.Cache.after 3 changes
    (cache.snapshot [filler] = (1, [⟨ip 2, mac 9⟩]) ∧
      cache.snapshot [filler, filler, filler] = (2, [⟨ip 2, mac 9⟩, ⟨ip 3, mac 3⟩, filler])) ∧
    ∃ s : Interface Adapter,
      ((create { address := ip 1, cacheCapacity := 2 } 0).run
        ({ address := mac 1 } : Adapter)).value = .ok s ∧
      let tells (m : MacAddress) (sender : Ipv4.Address) :=
        (Arp.Message.isAt m sender {} (ip 7)).toFrame
      let steps : List (Step Adapter) := [.call 0 (.setUp true),
        .adapter (·.inject (tells (mac 2) (ip 2)).bytes),
        .adapter (·.inject (tells (mac 3) (ip 3)).bytes), .call 1 .receiveWaiting,
        .call 2 (.handleArp (tells (mac 5) .unspecified)),
        .call 3 (.handleArp (tells (mac 4) (ip 4)))]
      let state := (run steps s).state
      let table := state.bindings
      (perform 9 (.control .bindings)).run state = { value := .answer (.bindings table), state } ∧
        table.length = 2 ∧ state.status.bindings = 2 ∧
        ⟨ip 4, mac 4⟩ ∈ table ∧ ⟨ip 3, mac 3⟩ ∈ table ∧ (∀ m, ⟨ip 2, m⟩ ∉ table) ∧
        filler ∉ table := by
  intro ip mac filler changes cache
  obtain ⟨hcopies, hshown⟩ := bindings_shown (τ := Adapter)
  refine ⟨⟨?_, ?_⟩, ?_⟩
  · obtain ⟨-, hwrites, -⟩ := hcopies 3 changes [filler]
    exact hwrites.symm.trans (by decide)
  · obtain ⟨-, hwrites, -⟩ := hcopies 3 changes [filler, filler, filler]
    exact hwrites.symm.trans (by decide)
  obtain ⟨s, hc⟩ : ∃ s, ((create { address := ip 1, cacheCapacity := 2 } 0).run
      ({ address := mac 1 } : Adapter)).value = .ok s := ⟨_, rfl⟩
  refine ⟨s, hc, ?_⟩
  intro tells steps state table
  obtain ⟨hanswers, hlength, -, hmem, hfiller⟩ := hshown _ _ _ s hc steps
  have hcount : state.status.bindings = 2 := by
    cases hc
    decide +kernel
  have hfour : state.cache.lookup (ip 4) = some (mac 4) := by
    cases hc
    decide +kernel
  have hthree : state.cache.lookup (ip 3) = some (mac 3) := by
    cases hc
    decide +kernel
  have htwo : state.cache.lookup (ip 2) = none := by
    cases hc
    decide +kernel
  refine ⟨(hanswers 9).1, hlength.trans hcount, hcount, (hmem _ _).mpr hfour,
    (hmem _ _).mpr hthree, ?_, ?_⟩
  · intro m hm
    have hbound := (hmem _ _).mp hm
    rw [htwo] at hbound
    cases hbound
  · intro hm
    exact hfiller _ hm rfl

end Interface
end LinkLayer
