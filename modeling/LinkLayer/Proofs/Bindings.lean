import Mathlib.Data.List.Basic
import LinkLayer.Arp.Cache

/-!
What a table says after an address was bound. Main statements: where there is room, or no need of
it, the address is bound and every other one stays as it was (`lookup_insert`), and binding an
address again as it is bound changes nothing (`insert_of_lookup`).
-/
namespace LinkLayer.Arp.Cache

variable {cache : Cache} {ip : Ipv4.Address} {mac : MacAddress}

theorem not_bound_of_lookup (h : cache.lookup ip = none) {e : Entry} (he : some e ∈ cache.slots) :
    e.ip ≠ ip := by
  rw [lookup, Option.map_eq_none_iff, List.find?_eq_none] at h
  simpa using h e (List.mem_filterMap.mpr ⟨_, he, rfl⟩)

/-- A table with room has a first free slot. -/
theorem exists_free (h : cache.count < cache.capacity) :
    ∃ before after, cache.slots = before ++ none :: after ∧ none ∉ before := by
  have hmem : none ∈ cache.slots := by
    by_contra hn
    have hall : cache.count = cache.capacity := by
      rw [count, capacity, List.countP_eq_length]
      intro slot hs
      cases slot with
      | none => exact absurd hs hn
      | some e => rfl
    omega
  exact List.eq_append_cons_of_mem hmem

/-- A slot that is the first one to hold the address or, if none does, the first free one. -/
theorem slotFor?_of_slots {before after : List (Option Entry)} {slot : Option Entry}
    (hs : cache.slots = before ++ slot :: after) (hb : ∀ e, some e ∈ before → e.ip ≠ ip)
    (h : (∃ e, slot = some e ∧ e.ip = ip) ∨
      slot = none ∧ none ∉ before ∧ ∀ e, some e ∈ after → e.ip ≠ ip) :
    cache.slotFor? ip = some before.length := by
  have hother {slots : List (Option Entry)} (hn : ∀ e, some e ∈ slots → e.ip ≠ ip) :
      slots.findIdx? (·.any (·.ip == ip)) = none := by
    rw [List.findIdx?_eq_none_iff]
    intro slot hm
    cases slot with
    | none => rfl
    | some e => simpa using hn e hm
  rw [slotFor?, hs, List.findIdx?_append, hother hb, List.findIdx?_cons]
  rcases h with ⟨e, rfl, he⟩ | ⟨rfl, hfree, ha⟩
  · simp [he]
  · have hnone : before.findIdx? Option.isNone = none := by
      rw [List.findIdx?_eq_none_iff]
      intro slot hm
      cases slot with
      | none => exact absurd hm hfree
      | some e => rfl
    rw [hother ha, List.findIdx?_append, hnone, List.findIdx?_cons]
    simp

/-- An address that is bound or that there is room for takes one slot. No slot before it holds the
address, and every other slot stays as it is. -/
theorem exists_slot (h : (cache.lookup ip).isSome ∨ cache.count < cache.capacity) :
    ∃ before slot after, cache.slots = before ++ slot :: after ∧
      (∀ e, some e ∈ before → e.ip ≠ ip) ∧ (∀ e, slot = some e → e.ip = ip) ∧
      cache.lookup ip = slot.map (·.mac) ∧
      ∀ mac, cache.insert ip mac = { cache with slots := before ++ some ⟨ip, mac⟩ :: after } := by
  have hinsert {before after : List (Option Entry)} {slot : Option Entry}
      (hs : cache.slots = before ++ slot :: after) (hi : cache.slotFor? ip = some before.length)
      (mac : MacAddress) :
      cache.insert ip mac = { cache with slots := before ++ some ⟨ip, mac⟩ :: after } := by
    rw [insert, hi, hs]
    simp
  cases hl : cache.lookup ip with
  | none =>
    obtain ⟨before, after, hs, hfree⟩ := exists_free (h.resolve_left (by simp [hl]))
    have hn (e : Entry) (he : some e ∈ before ∨ some e ∈ after) : e.ip ≠ ip := by
      refine not_bound_of_lookup hl ?_
      rw [hs, List.mem_append, List.mem_cons]
      exact he.imp id .inr
    have hi := slotFor?_of_slots hs (fun e he => hn e (.inl he))
      (.inr ⟨rfl, hfree, fun e he => hn e (.inr he)⟩)
    exact ⟨before, none, after, hs, fun e he => hn e (.inl he), by simp, rfl, hinsert hs hi⟩
  | some mac =>
    obtain ⟨e, he, rfl⟩ := Option.map_eq_some_iff.mp hl
    obtain ⟨hip, earlier, later, hentries, hearlier⟩ := List.find?_eq_some_iff_append.mp he
    obtain ⟨first, slots, hs, rfl, hslots⟩ := List.filterMap_eq_append_iff.mp hentries
    obtain ⟨free, _, after, rfl, hfree, rfl, -⟩ := List.filterMap_eq_cons_iff.mp hslots
    rw [← List.append_assoc] at hs
    have hip : e.ip = ip := by simpa using hip
    have hb (other : Entry) (ho : some other ∈ first ++ free) : other.ip ≠ ip := by
      rcases List.mem_append.mp ho with ho | ho
      · simpa using hearlier other (List.mem_filterMap.mpr ⟨_, ho, rfl⟩)
      · cases hfree _ ho
    exact ⟨_, some e, after, hs, hb, by simpa using hip, rfl,
      hinsert hs (slotFor?_of_slots hs hb (.inl ⟨e, rfl, hip⟩))⟩

/-- An address that is bound or that there is room for is bound anew, and every other one stays as
it was. -/
theorem lookup_insert (h : (cache.lookup ip).isSome ∨ cache.count < cache.capacity)
    (mac : MacAddress) (other : Ipv4.Address) :
    (cache.insert ip mac).lookup other =
      if other = ip then some mac else cache.lookup other := by
  obtain ⟨before, slot, after, hs, hb, hslot, -, hinsert⟩ := exists_slot h
  have hold : cache.entries = before.filterMap id ++ (slot.toList ++ after.filterMap id) := by
    cases slot <;> simp [entries, hs]
  have hnew : (cache.insert ip mac).entries =
      before.filterMap id ++ ⟨ip, mac⟩ :: after.filterMap id := by
    rw [hinsert]
    simp [entries]
  rw [lookup, lookup, hnew, hold, List.find?_append, List.find?_append, List.find?_append]
  by_cases ho : other = ip
  · subst ho
    have hnone : (before.filterMap id).find? (·.ip == other) = none := by
      rw [List.find?_eq_none]
      intro e he
      obtain ⟨_, hm, rfl⟩ := List.mem_filterMap.mp he
      simpa using hb e hm
    rw [hnone]
    simp
  · have hne : ¬ ip = other := fun h => ho h.symm
    have hskip : slot.toList.find? (·.ip == other) = none := by
      cases slot with
      | none => rfl
      | some e => simp [hslot e rfl, hne]
    simp [ho, hne, hskip]

/-- Only an address that is not bound takes a slot more. -/
theorem count_insert (h : (cache.lookup ip).isSome ∨ cache.count < cache.capacity)
    (mac : MacAddress) :
    (cache.insert ip mac).count = cache.count + if (cache.lookup ip).isNone then 1 else 0 := by
  obtain ⟨before, slot, after, hs, -, -, hl, hinsert⟩ := exists_slot h
  rw [hinsert, count, count, hs, hl]
  cases slot <;> simp +arith [List.countP_append]

/-- A binding that is there already is not made twice. -/
theorem insert_of_lookup (h : cache.lookup ip = some mac) : cache.insert ip mac = cache := by
  have hbound : (cache.lookup ip).isSome := Option.isSome_of_eq_some h
  obtain ⟨before, slot, after, hs, -, hslot, hl, hinsert⟩ := exists_slot (.inl hbound)
  obtain ⟨e, rfl, rfl⟩ := Option.map_eq_some_iff.mp (hl.symm.trans h)
  obtain rfl := hslot e rfl
  rw [hinsert, ← hs]

end LinkLayer.Arp.Cache
