import Mathlib.Data.List.Rotate
import LinkLayer.Arp.Cache

/-!
Which binding a full table gives up. Main statement: whatever is bound and however often the table
is emptied, its slots from the next victim on, round the table, are the bindings from the oldest to
the newest (`oldest_first`).
-/
namespace LinkLayer.Arp

/-- What can be done to a table. -/
inductive Change where
  | insert (ip : Ipv4.Address) (mac : MacAddress)
  | reset
deriving DecidableEq, Repr

/-- A binding, with this hardware address if it is the one of `ip`. -/
def Entry.rebind (ip : Ipv4.Address) (mac : MacAddress) (e : Entry) : Entry :=
  if e.ip = ip then { e with mac } else e

namespace Change

def applyTo (cache : Cache) : Change → Cache
  | insert ip mac => cache.insert ip mac
  | reset => cache.reset

/-- The bindings after a change, oldest first. A new one goes to the end, and if there are too many
then the oldest one goes. A binding that is present keeps its age. -/
def remember (capacity : Nat) (aged : List Entry) : Change → List Entry
  | insert ip mac =>
    if ip ∈ aged.map (·.ip) then aged.map (Entry.rebind ip mac)
    else if capacity < (aged ++ [Entry.mk ip mac]).length then (aged ++ [Entry.mk ip mac]).tail
    else aged ++ [Entry.mk ip mac]
  | reset => []

end Change

/-- The table with so many slots after these changes. -/
def Cache.after (capacity : Nat) (changes : List Change) : Cache :=
  changes.foldl Change.applyTo (.empty capacity)

/-- The bindings that are left of these changes, oldest first. -/
def aged (capacity : Nat) (changes : List Change) : List Entry :=
  changes.foldl (Change.remember capacity) []

variable {capacity free : Nat} {cache : Cache} {entries ages : List Entry} {ip : Ipv4.Address}
  {mac : MacAddress}

@[simp] theorem Entry.ip_rebind (e : Entry) : (e.rebind ip mac).ip = e.ip := by
  unfold rebind
  split <;> rfl

theorem map_ip_rebind (es : List Entry) :
    (es.map (Entry.rebind ip mac)).map (·.ip) = es.map (·.ip) := by
  simp

/-- One of several different addresses is rebound where it stands. -/
theorem set_eq_map_rebind {i : Nat} {e : Entry} (hn : (entries.map (·.ip)).Nodup)
    (he : entries[i]? = some e) (hip : e.ip = ip) :
    entries.set i ⟨ip, mac⟩ = entries.map (Entry.rebind ip mac) := by
  obtain ⟨hi, rfl⟩ := List.getElem?_eq_some_iff.mp he
  apply List.ext_getElem
  · simp
  · intro j hj _
    rw [List.getElem_set, List.getElem_map]
    have hj : j < entries.length := by simpa using hj
    by_cases hij : i = j
    · subst hij
      simp [Entry.rebind, hip]
    · have hne : entries[j].ip ≠ ip := by
        intro h
        have hi' : i < (entries.map (·.ip)).length := by simpa using hi
        have hj' : j < (entries.map (·.ip)).length := by simpa using hj
        have he : (entries.map (·.ip))[i] = (entries.map (·.ip))[j] := by simp [hip, h]
        exact hij (hn.getElem_inj_iff.mp he)
      simp [hij, Entry.rebind, hne]

namespace Cache

/-- Occupied slots come first. -/
theorem entries_of_slots (h : cache.slots = entries.map some ++ List.replicate free none) :
    cache.entries = entries := by
  simp [Cache.entries, h, List.filterMap_append]

theorem slotFor?_of_mem (h : cache.slots = entries.map some ++ List.replicate free none)
    (hm : ip ∈ entries.map (·.ip)) :
    ∃ slot e, cache.slotFor? ip = some slot ∧ entries[slot]? = some e ∧ e.ip = ip := by
  obtain ⟨e, he, rfl⟩ := List.mem_map.mp hm
  obtain ⟨slot, hs⟩ : ∃ slot, cache.slots.findIdx? (·.any (·.ip == e.ip)) = some slot := by
    rw [← Option.isSome_iff_exists, List.findIdx?_isSome, List.any_eq_true]
    exact ⟨some e, by simp [h, he], by simp⟩
  obtain ⟨hlt, hp, -⟩ := List.findIdx?_eq_some_iff_getElem.mp hs
  simp only [h, List.getElem_append, List.getElem_map, List.getElem_replicate] at hp
  split at hp
  · rename_i hlt
    have hlt : slot < entries.length := by simpa using hlt
    refine ⟨slot, entries[slot], ?_, ?_, by simpa using hp⟩
    · rw [slotFor?, hs, Option.some_or]
    · exact List.getElem?_eq_getElem hlt
  · simp at hp

/-- An address that has no slot gets the first free one. -/
theorem slotFor?_of_not_mem (h : cache.slots = entries.map some ++ List.replicate free none)
    (hm : ip ∉ entries.map (·.ip)) :
    cache.slotFor? ip = if free = 0 then none else some entries.length := by
  have hnone : cache.slots.findIdx? (·.any (·.ip == ip)) = none := by
    rw [List.findIdx?_eq_none_iff]
    intro slot hs
    rw [h, List.mem_append] at hs
    rcases hs with hs | hs
    · obtain ⟨e, he, rfl⟩ := List.mem_map.mp hs
      have hne : e.ip ≠ ip := fun hip => hm (hip ▸ List.mem_map_of_mem he)
      simpa using hne
    · rw [List.eq_of_mem_replicate hs]
      rfl
  rw [slotFor?, hnone, Option.none_or, h, List.findIdx?_append]
  cases free with
  | zero => simp [List.findIdx?_map, Function.comp_def]
  | succ free =>
    have hfull : entries.findIdx? (fun _ => false) = none := by simp [List.findIdx?_eq_none_iff]
    simp [List.findIdx?_map, Function.comp_def, List.replicate_succ, List.findIdx?_cons, hfull]

theorem insert_of_mem (h : cache.slots = entries.map some ++ List.replicate free none)
    (hn : (entries.map (·.ip)).Nodup) (hm : ip ∈ entries.map (·.ip)) :
    cache.insert ip mac = { cache with
      slots := (entries.map (Entry.rebind ip mac)).map some ++ List.replicate free none } := by
  obtain ⟨slot, e, hs, he, hip⟩ := slotFor?_of_mem h hm
  have hlt : slot < (entries.map some).length := by
    simpa using (List.getElem?_eq_some_iff.mp he).1
  rw [insert, hs, h, ← set_eq_map_rebind hn he hip, List.map_set]
  exact congrArg (Cache.mk · _) (List.set_append_left _ _ hlt)

theorem insert_of_room (h : cache.slots = entries.map some ++ List.replicate (free + 1) none)
    (hm : ip ∉ entries.map (·.ip)) :
    cache.insert ip mac = { cache with
      slots := (entries ++ [Entry.mk ip mac]).map some ++ List.replicate free none } := by
  have hs : cache.slotFor? ip = some entries.length := slotFor?_of_not_mem h hm
  rw [insert, hs, h]
  simp [List.replicate_succ]

theorem insert_of_full (h : cache.slots = entries.map some) (hne : entries ≠ [])
    (hm : ip ∉ entries.map (·.ip)) :
    cache.insert ip mac =
      { slots := (entries.set cache.nextVictim ⟨ip, mac⟩).map some
        nextVictim := (cache.nextVictim + 1) % entries.length } := by
  have h0 : cache.slots = entries.map some ++ List.replicate 0 none := by simpa using h
  have hs : cache.slotFor? ip = none := slotFor?_of_not_mem h0 hm
  rw [insert, hs]
  simp [capacity, h, hne]

/-- The table holds these bindings, the oldest of which is the next victim if there is no room. -/
structure Ages (cache : Cache) (capacity : Nat) (ages : List Entry) : Prop where
  slots : cache.slots =
    cache.entries.map some ++ List.replicate (capacity - cache.entries.length) none
  length_le : cache.entries.length ≤ capacity
  nextVictim_lt : cache.nextVictim < capacity
  nextVictim_eq : cache.entries.length < capacity → cache.nextVictim = 0
  nodup : (cache.entries.map (·.ip)).Nodup
  rotate : cache.entries.rotate cache.nextVictim = ages

theorem ages_of_slots (entries : List Entry)
    (hs : cache.slots = entries.map some ++ List.replicate (capacity - entries.length) none)
    (hl : entries.length ≤ capacity) (hv : cache.nextVictim < capacity)
    (h0 : entries.length < capacity → cache.nextVictim = 0) (hn : (entries.map (·.ip)).Nodup)
    (hr : entries.rotate cache.nextVictim = ages) : cache.Ages capacity ages := by
  obtain rfl := entries_of_slots hs
  exact ⟨hs, hl, hv, h0, hn, hr⟩

theorem ages_empty (hc : 0 < capacity) : (empty capacity).Ages capacity [] := by
  constructor <;> simp [empty, entries, hc]

/-- The next victim gives way to the newest binding, and what follows it becomes the oldest. -/
theorem rotate_set {es : List Entry} {victim : Nat} (hv : victim < es.length) (e : Entry) :
    (es.set victim e).rotate ((victim + 1) % es.length) = (es.rotate victim ++ [e]).tail := by
  have hm : (victim + 1) % es.length = (victim + 1) % (es.set victim e).length := by simp
  rw [hm, List.rotate_mod, List.rotate_eq_drop_append_take (by simp; omega),
    List.rotate_eq_drop_append_take hv.le, List.drop_set_of_lt (by omega),
    List.take_add_one, List.drop_eq_getElem_cons hv]
  simp [hv, List.take_set_of_le]

theorem ages_insert (h : cache.Ages capacity ages) (ip : Ipv4.Address) (mac : MacAddress) :
    (cache.insert ip mac).Ages capacity (Change.remember capacity ages (.insert ip mac)) := by
  have hmem : ip ∈ ages.map (·.ip) ↔ ip ∈ cache.entries.map (·.ip) := by
    rw [← h.rotate, List.map_rotate, List.mem_rotate]
  have hlen : ages.length = cache.entries.length := by rw [← h.rotate, List.length_rotate]
  by_cases hm : ip ∈ cache.entries.map (·.ip)
  · rw [Change.remember, if_pos (hmem.mpr hm), insert_of_mem h.slots h.nodup hm]
    apply ages_of_slots (cache.entries.map (Entry.rebind ip mac))
    · simp
    · simpa using h.length_le
    · exact h.nextVictim_lt
    · simpa using h.nextVictim_eq
    · rw [map_ip_rebind]
      exact h.nodup
    · rw [← h.rotate, List.map_rotate]
  have hn : (ages ++ [Entry.mk ip mac]).map (·.ip) |>.Nodup := by
    rw [List.map_append, ← h.rotate, List.map_rotate]
    simpa using (List.nodup_rotate.mpr h.nodup).concat (mt List.mem_rotate.mp hm)
  rw [Change.remember, if_neg (mt hmem.mp hm)]
  rcases h.length_le.lt_or_eq with hroom | hfull
  · obtain ⟨free, hfree⟩ : ∃ free, capacity - cache.entries.length = free + 1 :=
      ⟨capacity - cache.entries.length - 1, by omega⟩
    have hages : cache.entries = ages := by
      rw [← h.rotate, h.nextVictim_eq hroom, List.rotate_zero]
    rw [if_neg (by simp; omega), insert_of_room (hfree ▸ h.slots) hm, ← hages]
    apply ages_of_slots (cache.entries ++ [Entry.mk ip mac])
    · simp
      omega
    · simp
      omega
    · exact h.nextVictim_lt
    · exact fun _ => h.nextVictim_eq hroom
    · exact hages ▸ hn
    · rw [h.nextVictim_eq hroom, List.rotate_zero]
  · have hne : cache.entries ≠ [] := by
      intro he
      have := h.nextVictim_lt
      simp [he] at hfull
      omega
    have hslots : cache.slots = cache.entries.map some := by
      simpa [hfull] using h.slots
    have hv : cache.nextVictim < cache.entries.length := hfull ▸ h.nextVictim_lt
    have hr := rotate_set hv ⟨ip, mac⟩
    rw [h.rotate] at hr
    rw [if_pos (by simp; omega), insert_of_full hslots hne hm]
    apply ages_of_slots (cache.entries.set cache.nextVictim ⟨ip, mac⟩)
    · simp [hfull]
    · simp [hfull]
    · exact hfull ▸ Nat.mod_lt _ (by omega)
    · simp [hfull]
    · have ht : ((ages ++ [Entry.mk ip mac]).tail.map (·.ip)).Nodup :=
        hn.sublist ((List.tail_sublist _).map _)
      rw [← hr, List.map_rotate, List.nodup_rotate] at ht
      exact ht
    · exact hr

theorem Ages.capacity_eq (h : cache.Ages capacity ages) : cache.capacity = capacity := by
  have := h.length_le
  rw [Cache.capacity, h.slots]
  simp
  omega

theorem ages_reset (h : cache.Ages capacity ages) : cache.reset.Ages capacity [] := by
  rw [reset, h.capacity_eq]
  exact ages_empty (Nat.zero_lt_of_lt h.nextVictim_lt)

theorem ages_applyTo (h : cache.Ages capacity ages) (change : Change) :
    (change.applyTo cache).Ages capacity (change.remember capacity ages) := by
  cases change with
  | insert ip mac => exact ages_insert h ip mac
  | reset => exact ages_reset h

theorem ages_after (hc : 0 < capacity) (changes : List Change) :
    (after capacity changes).Ages capacity (aged capacity changes) := by
  induction changes using List.reverseRecOn with
  | nil => exact ages_empty hc
  | append_singleton changes change ih =>
    simpa [after, aged] using ages_applyTo ih change

theorem find?_of_mem {e : Entry} (hn : (entries.map (·.ip)).Nodup) (he : e ∈ entries) :
    entries.find? (·.ip == e.ip) = some e := by
  obtain ⟨before, after, rfl⟩ := List.append_of_mem he
  have hb : before.find? (·.ip == e.ip) = none := by
    rw [List.find?_eq_none]
    intro a ha hip
    rw [List.map_append, List.nodup_append] at hn
    exact hn.2.2 _ (List.mem_map_of_mem ha) _ (List.mem_map_of_mem List.mem_cons_self)
      (by simpa using hip)
  simp [List.find?_append, hb]

theorem lookup_eq_some_iff (hn : (cache.entries.map (·.ip)).Nodup) :
    cache.lookup ip = some mac ↔ ⟨ip, mac⟩ ∈ cache.entries := by
  rw [lookup, Option.map_eq_some_iff]
  constructor
  · rintro ⟨e, he, rfl⟩
    obtain rfl : e.ip = ip := by simpa using List.find?_some he
    exact List.mem_of_find?_eq_some he
  · intro hm
    exact ⟨⟨ip, mac⟩, find?_of_mem hn hm, rfl⟩

theorem lookup_isSome_iff : (cache.lookup ip).isSome ↔ ip ∈ cache.entries.map (·.ip) := by
  simp [lookup, List.find?_isSome]

end Cache

/-- A known address keeps its age. An unknown one becomes the newest, and in a full table the oldest
one goes. -/
theorem map_ip_remember (hc : 0 < capacity) (hl : ages.length ≤ capacity) (ip : Ipv4.Address)
    (mac : MacAddress) :
    (Change.remember capacity ages (.insert ip mac)).map (·.ip) =
      if ip ∈ ages.map (·.ip) then ages.map (·.ip)
      else (if ages.length = capacity then ages.tail else ages).map (·.ip) ++ [ip] := by
  rw [Change.remember]
  by_cases hm : ip ∈ ages.map (·.ip)
  · rw [if_pos hm, if_pos hm, map_ip_rebind]
  rw [if_neg hm, if_neg hm]
  by_cases hf : ages.length = capacity
  · have hne : ages ≠ [] := List.ne_nil_of_length_pos (by omega)
    rw [if_pos (by simp; omega), if_pos hf, List.tail_append_of_ne_nil hne]
    simp
  · rw [if_neg (by simp; omega), if_neg hf]
    simp

/-- A table is a list of its bindings from the oldest to the newest. A new binding goes to the end
of it, and the first one goes when there are too many. -/
theorem oldest_first (hc : 0 < capacity) (changes : List Change) :
    let cache := Cache.after capacity changes
    let ages := aged capacity changes
    (∀ ip mac, cache.lookup ip = some mac ↔ ⟨ip, mac⟩ ∈ ages) ∧
      cache.count = ages.length ∧ ages.length ≤ capacity ∧
      (cache.entries.map (·.ip)).Nodup ∧
      cache.slots = cache.entries.map some ++ List.replicate (capacity - cache.count) none ∧
      cache.nextVictim < capacity ∧ (cache.count < capacity → cache.nextVictim = 0) ∧
      cache.entries.rotate cache.nextVictim = ages ∧
      ∀ ip mac, (aged capacity (changes ++ [.insert ip mac])).map (·.ip) =
        if (cache.lookup ip).isSome then ages.map (·.ip)
        else (if cache.count = capacity then ages.tail else ages).map (·.ip) ++ [ip] := by
  intro cache ages
  have h : cache.Ages capacity ages := Cache.ages_after hc changes
  have hmem : ∀ e, e ∈ ages ↔ e ∈ cache.entries := by
    intro e
    rw [← h.rotate, List.mem_rotate]
  have hcount : cache.count = ages.length := by
    rw [← h.rotate, List.length_rotate, Cache.length_entries]
  have hslots := h.slots
  have hle := h.length_le
  have hzero := h.nextVictim_eq
  rw [Cache.length_entries] at hslots hle hzero
  refine ⟨?_, hcount, hcount ▸ hle, h.nodup, hslots, h.nextVictim_lt, hzero, h.rotate, ?_⟩
  · intro ip mac
    rw [hmem, Cache.lookup_eq_some_iff h.nodup]
  · intro ip mac
    have hknown : (cache.lookup ip).isSome ↔ ip ∈ ages.map (·.ip) := by
      simp only [Cache.lookup_isSome_iff, List.mem_map, hmem]
    have hnext : aged capacity (changes ++ [.insert ip mac]) =
        Change.remember capacity ages (.insert ip mac) := by simp [ages, aged]
    rw [hnext, map_ip_remember hc (hcount ▸ hle), hcount]
    simp only [hknown]

/-- The first address goes first, although it was bound again. When it comes back it is the
newest. -/
theorem oldest_first_back :
    let changes : List Change := [.insert ⟨10, 0, 0, 1⟩ {}, .insert ⟨10, 0, 0, 2⟩ {},
      .insert ⟨10, 0, 0, 1⟩ .broadcast, .insert ⟨10, 0, 0, 3⟩ {}]
    0 < 2 ∧ (Cache.after 2 changes).lookup ⟨10, 0, 0, 1⟩ = none ∧
      (Cache.after 2 changes).entries.rotate (Cache.after 2 changes).nextVictim =
        [⟨⟨10, 0, 0, 2⟩, {}⟩, ⟨⟨10, 0, 0, 3⟩, {}⟩] ∧
      (aged 2 (changes ++ [.insert ⟨10, 0, 0, 1⟩ {}])).map (·.ip) =
        [⟨10, 0, 0, 3⟩, ⟨10, 0, 0, 1⟩] := by
  intro changes
  obtain ⟨hlookup, -, -, -, -, -, -, hrotate, hnext⟩ := oldest_first (by decide : 0 < 2) changes
  have hgone : (Cache.after 2 changes).lookup ⟨10, 0, 0, 1⟩ = none := by
    rw [Option.eq_none_iff_forall_ne_some]
    intro mac hm
    have hmem := (hlookup _ mac).mp hm
    simp [changes, aged, Change.remember, Entry.rebind] at hmem
  refine ⟨by decide, hgone, hrotate, ?_⟩
  rw [hnext, hgone]
  rfl

end LinkLayer.Arp
