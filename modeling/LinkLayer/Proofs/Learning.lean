import Mathlib.Data.Finset.Card
import Mathlib.Data.Finset.Dedup
import Mathlib.Data.List.DropRight
import LinkLayer.Proofs.Eviction
import LinkLayer.Proofs.Handshake

/-!
What the table of bindings says of the messages that were heard. Main statement: it never says more
than the latest message of a sender did, and while there are no more senders than slots it says just
that of each of them (`bindings_learned`).
-/
namespace LinkLayer

namespace Arp

/-- The hardware address in the latest message with this sender. -/
def latest (messages : List Message) (ip : Ipv4.Address) : Option MacAddress :=
  (messages.filter (·.senderIp = ip)).getLast?.map (·.senderMac)

/-- The senders of messages. The unspecified address is nobody's. -/
def senders (messages : List Message) : Finset Ipv4.Address :=
  (messages.map (·.senderIp)).toFinset.erase .unspecified

variable {capacity : Nat} {messages : List Message} {message : Message} {ages : List Entry}
  {e : Entry} {ip : Ipv4.Address} {mac : MacAddress} {cache : Cache}

theorem latest_append (messages : List Message) (message : Message) (ip : Ipv4.Address) :
    latest (messages ++ [message]) ip =
      if message.senderIp = ip then some message.senderMac else latest messages ip := by
  by_cases h : message.senderIp = ip
  · simp [latest, List.filter_append, h]
  · simp [latest, List.filter_append, h]

theorem mem_senders : ip ∈ senders messages ↔ ip ≠ .unspecified ∧
    ∃ message ∈ messages, message.senderIp = ip := by
  simp [senders]

theorem senders_subset_append (messages : List Message) (message : Message) :
    senders messages ⊆ senders (messages ++ [message]) := by
  intro ip hm
  obtain ⟨hi, other, ho, hip⟩ := mem_senders.mp hm
  exact mem_senders.mpr ⟨hi, other, List.mem_append_left _ ho, hip⟩

theorem mem_senders_of_latest (hi : ip ≠ .unspecified) (h : latest messages ip = some mac) :
    ip ∈ senders messages := by
  obtain ⟨message, hm, -⟩ := Option.map_eq_some_iff.mp h
  obtain ⟨hmem, hip⟩ := List.mem_filter.mp (List.mem_of_getLast? hm)
  exact mem_senders.mpr ⟨hi, message, hmem, by simpa using hip⟩

/-- What a table is left with is the new binding, or an old one of another address. -/
theorem mem_remember (h : e ∈ Change.remember capacity ages (.insert ip mac)) :
    e = ⟨ip, mac⟩ ∨ e ∈ ages ∧ e.ip ≠ ip := by
  rw [Change.remember] at h
  split at h
  · obtain ⟨old, ho, rfl⟩ := List.mem_map.mp h
    by_cases hip : old.ip = ip
    · exact .inl (by simp [Entry.rebind, hip])
    · exact .inr (by simpa [Entry.rebind, hip] using ho)
  · rename_i hn
    have hmem : e ∈ ages ++ [⟨ip, mac⟩] := by
      split at h
      · exact List.mem_of_mem_tail h
      · exact h
    rcases List.mem_append.mp hmem with ho | hnew
    · refine .inr ⟨ho, ?_⟩
      rintro rfl
      exact hn (List.mem_map_of_mem ho)
    · exact .inl (List.mem_singleton.mp hnew)

/-- The table has the ages, and it goes back to these messages. -/
structure Recalls (capacity : Nat) (messages : List Message) (cache : Cache)
    (ages : List Entry) : Prop where
  held : cache.Ages capacity ages
  said : ∀ e ∈ ages, e.ip ≠ .unspecified ∧ latest messages e.ip = some e.mac
  /-- Nobody was forgotten if there was room for all. -/
  complete : (senders messages).card ≤ capacity → ∀ ip ∈ senders messages, ip ∈ ages.map (·.ip)

namespace Recalls

theorem nodup (h : Recalls capacity messages cache ages) : (ages.map (·.ip)).Nodup := by
  rw [← h.held.rotate, List.map_rotate, List.nodup_rotate]
  exact h.held.nodup

theorem lookup_iff (h : Recalls capacity messages cache ages) :
    cache.lookup ip = some mac ↔ ⟨ip, mac⟩ ∈ ages := by
  rw [Cache.lookup_eq_some_iff h.held.nodup, ← h.held.rotate, List.mem_rotate]

/-- The table knows no more than the messages, and all that they said if there was room. -/
theorem lookup_eq (h : Recalls capacity messages cache ages)
    (hc : (senders messages).card ≤ capacity) (ip : Ipv4.Address) :
    cache.lookup ip = if ip = .unspecified then none else latest messages ip := by
  cases hl : cache.lookup ip with
  | some mac =>
    obtain ⟨hi, hs⟩ := h.said _ (h.lookup_iff.mp hl)
    rw [if_neg hi, hs]
  | none =>
    by_cases hi : ip = .unspecified
    · rw [if_pos hi]
    · rw [if_neg hi]
      cases hs : latest messages ip with
      | none => rfl
      | some mac =>
        obtain ⟨e, he, rfl⟩ := List.mem_map.mp (h.complete hc ip (mem_senders_of_latest hi hs))
        have hbound := h.lookup_iff.mpr he
        rw [hl] at hbound
        cases hbound

/-- A message without a sender teaches nothing. -/
theorem unspecified (h : Recalls capacity messages cache ages)
    (hm : message.senderIp = .unspecified) :
    Recalls capacity (messages ++ [message]) (cache.learn message) ages := by
  have hs : senders (messages ++ [message]) = senders messages := by
    ext ip
    simp only [mem_senders, List.mem_append, List.mem_singleton]
    grind
  rw [Cache.learn, if_pos hm]
  refine ⟨h.held, ?_, hs ▸ h.complete⟩
  intro e he
  obtain ⟨hi, hl⟩ := h.said e he
  have hip : message.senderIp ≠ e.ip := hm ▸ Ne.symm hi
  refine ⟨hi, ?_⟩
  rw [latest_append, if_neg hip, hl]

/-- With room for all senders nobody has to go for a new one. -/
theorem length_lt (h : Recalls capacity messages cache ages) (hm : message.senderIp ≠ .unspecified)
    (hn : message.senderIp ∉ ages.map (·.ip))
    (hc : (senders (messages ++ [message])).card ≤ capacity) : ages.length < capacity := by
  have hsub : (message.senderIp :: ages.map (·.ip)).toFinset ⊆
      senders (messages ++ [message]) := by
    intro ip hip
    rw [List.mem_toFinset] at hip
    rcases List.mem_cons.mp hip with rfl | hold
    · exact mem_senders.mpr ⟨hm, message, by simp, rfl⟩
    · obtain ⟨e, he, rfl⟩ := List.mem_map.mp hold
      obtain ⟨hi, hl⟩ := h.said e he
      exact senders_subset_append _ _ (mem_senders_of_latest hi hl)
  have hcard := Finset.card_le_card hsub
  rw [List.toFinset_card_of_nodup (List.nodup_cons.mpr ⟨hn, h.nodup⟩)] at hcard
  simp only [List.length_cons, List.length_map] at hcard
  omega

theorem bound (h : Recalls capacity messages cache ages)
    (hm : message.senderIp ≠ .unspecified) :
    Recalls capacity (messages ++ [message]) (cache.learn message)
      (Change.remember capacity ages (.insert message.senderIp message.senderMac)) := by
  rw [Cache.learn, if_neg hm]
  refine ⟨Cache.ages_insert h.held _ _, ?_, ?_⟩
  · intro e he
    rcases mem_remember he with rfl | ⟨hold, hip⟩
    · exact ⟨hm, by simp [latest_append]⟩
    · obtain ⟨hi, hl⟩ := h.said e hold
      refine ⟨hi, ?_⟩
      rw [latest_append, if_neg (Ne.symm hip), hl]
  · intro hc ip hs
    have hold : ip ∈ senders messages → ip ∈ ages.map (·.ip) := by
      have hle := Finset.card_le_card (senders_subset_append messages message)
      exact h.complete (hle.trans hc) ip
    obtain ⟨hi, other, ho, hip⟩ := mem_senders.mp hs
    have hwho : ip ∈ senders messages ∨ ip = message.senderIp := by
      rcases List.mem_append.mp ho with ho | hnew
      · exact .inl (mem_senders.mpr ⟨hi, other, ho, hip⟩)
      · rw [List.mem_singleton.mp hnew] at hip
        exact .inr hip.symm
    rw [Change.remember]
    split
    · rename_i hknown
      rw [map_ip_rebind]
      rcases hwho with hw | rfl
      · exact hold hw
      · exact hknown
    · rename_i hnew
      have hroom := h.length_lt hm hnew hc
      rw [if_neg (by simp; omega), List.map_append, List.mem_append]
      rcases hwho with hw | rfl
      · exact .inl (hold hw)
      · exact .inr (by simp)

end Recalls

@[simp] theorem Cache.capacity_learn (cache : Cache) (message : Message) :
    (cache.learn message).capacity = cache.capacity := by
  unfold learn
  split <;> simp

theorem Cache.capacity_foldl_learn (messages : List Message) (cache : Cache) :
    (messages.foldl learn cache).capacity = cache.capacity := by
  induction messages generalizing cache with
  | nil => rfl
  | cons message messages ih => rw [List.foldl_cons, ih, capacity_learn]

/-- Whatever a table was taught, it goes back to it. -/
theorem recalls_learn (hc : 0 < capacity) (messages : List Message) :
    ∃ ages, Recalls capacity messages (messages.foldl Cache.learn (.empty capacity)) ages := by
  induction messages using List.reverseRecOn with
  | nil => exact ⟨[], Cache.ages_empty hc, by simp, by simp [senders]⟩
  | append_singleton messages message ih =>
    obtain ⟨ages, h⟩ := ih
    rw [List.foldl_append]
    by_cases hm : message.senderIp = .unspecified
    · exact ⟨_, h.unspecified hm⟩
    · exact ⟨_, h.bound hm⟩

end Arp

/-- The message that a frame brings, if it is accepted. -/
def Ethernet.message? (bytes : Bytes) : Option Arp.Message :=
  if handledKind bytes = .ok .arp then (Arp.Message.ofFrame ⟨bytes⟩).toOption else none

namespace Interface

/-- The messages that a call accepts: the one that the host hands in, or those in the frames that
are read. -/
def Made.heard (made : Made) : List Arp.Message :=
  match made.call with
  | .handleArp frame => (Arp.Message.ofFrame frame).toOption.toList
  | _ => (made.events.filterMap Event.read?).filterMap Ethernet.message?

/-- The messages that were accepted since the bindings were cleared last, or since the start. -/
def heardSinceCleared (history : List Made) : List Arp.Message :=
  (history.rtakeWhile (·.call ≠ .control .clearBindings)).flatMap Made.heard

theorem heardSinceCleared_append (history : List Made) (made : Made) :
    heardSinceCleared (history ++ [made]) =
      if made.call = .control .clearBindings then []
      else heardSinceCleared history ++ made.heard := by
  by_cases h : made.call = .control .clearBindings
  · simp [heardSinceCleared, h]
  · simp [heardSinceCleared, h]

variable {τ : Type} [FiniteTransport τ] {clock : Clock} {s t u : Interface τ}
  {events more : List Event} {call : Call}

theorem cache_heard {message : Arp.Message}
    (h : Heard clock message s { value := (), state := t, events }) :
    t.cache = s.cache.learn message := by
  cases h with
  | intro ha hp =>
    obtain ⟨_, _, _, rfl⟩ := sends_of_answered ha
    obtain ⟨_, _, _, rfl⟩ := sends_of_passed hp
    rfl

/-- A frame teaches the message that it brings, if it brings one. -/
theorem cache_takenIn {bytes : Bytes}
    (h : TakenIn clock bytes s { value := (), state := t, events }) :
    t.cache = (Ethernet.message? bytes).toList.foldl Arp.Cache.learn s.cache := by
  cases h with
  | heard hk hm hh =>
    have hcache := cache_heard hh
    rw [Ethernet.message?, if_pos hk, hm]
    exact hcache
  | badArp hk hm =>
    rw [Ethernet.message?, if_pos hk, hm]
    rfl
  | unknown hk | broadcast hk | queued hk | badIp hk =>
    rw [Ethernet.message?, if_neg (by simp [hk])]
    rfl

theorem cache_drained (h : Drained clock s events t) :
    t.cache = ((events.filterMap Event.read?).filterMap Ethernet.message?).foldl
      Arp.Cache.learn s.cache := by
  induction h with
  | ended h hn =>
    cases h with
    | frame h => exact absurd rfl (hn _)
    | nothing | failed => rfl
  | frame hr ht hd ih =>
    have hcache := cache_takenIn ht
    have hquiet := (handled_takenIn ht).frames
    cases hr with
    | @frame b rest transport hr =>
      have hread : [.frameRead (b :: rest)].filterMap Event.read? = [b :: rest] := rfl
      have hmessage : [b :: rest].filterMap Ethernet.message? =
          (Ethernet.message? (b :: rest)).toList := by
        cases h : Ethernet.message? (b :: rest) <;> simp [h]
      simp only [List.filterMap_append, List.foldl_append, hread, hquiet, hmessage, ih, hcache,
        List.filterMap_nil, List.foldl_nil]

/-- Nothing is read on the way out and by what the host does beside the data path. -/
theorem reads_perform (hr : call ≠ .receiveWaiting) (ha : ∀ frame, call ≠ .handleArp frame)
    (clock : Clock) (s : Interface τ) :
    ((perform clock call).run s).events.filterMap Event.read? = [] := by
  have h := performed_perform clock call s
  generalize (perform clock call).run s = o at h ⊢
  obtain ⟨reply, t, events⟩ := o
  cases h with
  | delivered h => exact (idle_delivered h).frames
  | moved hs h =>
    have hp : call.pass? ≠ some .later := by
      cases call <;> simp_all [Call.pass?]
    exact (idle_chain hp h).frames
  | submitted | addressSet | maskSet | queued | countersCleared => rfl

theorem cache_refreshAddress (now : Time) (s : Interface τ) :
    ((refreshAddress now).run s).state.cache = s.cache := by
  simp only [refreshAddress, onDevice, Action.run_bind, Action.run_onPart]
  split <;> rfl

/-- No other call touches a binding. -/
theorem cache_perform_of_untaught (hr : call ≠ .receiveWaiting)
    (ha : ∀ frame, call ≠ .handleArp frame) (hb : call ≠ .control .clearBindings) (clock : Clock)
    (s : Interface τ) : ((perform clock call).run s).state.cache = s.cache := by
  cases call with
  | receiveWaiting => exact absurd rfl hr
  | handleArp frame => exact absurd rfl (ha frame)
  | setUp up => cases up <;> rfl
  | sendQueued =>
    by_cases hu : s.isUp = true
    · have hp := passed_settleAll .first clock s.sendQueue.toList s
      rw [run_sendQueued hu]
      exact congrArg Bearings.cache (bearings_of_sends (sends_of_passed hp))
    · simp only [perform, sendQueued, Action.run_bind, Action.run_get, hu]
      rfl
  | output d =>
    have hd := delivered_output clock.time d s
    exact congrArg Bearings.cache (bearings_of_sends (sends_of_delivered hd))
  | takeReceived =>
    simp only [perform, run_takeReceived, Action.run_bind, Action.run_pure]
  | handleIp frame =>
    simp only [perform, handleIp, Action.run_bind]
    cases Ipv4.Packet.ofFrame frame <;> rfl
  | control request =>
    cases request with
    | clearBindings => exact absurd rfl hb
    | macAddress => exact cache_refreshAddress clock.time s
    | _ => rfl
  | setAddress | setMask | submit => rfl

theorem heard_of_untaught (hr : call ≠ .receiveWaiting) (ha : ∀ frame, call ≠ .handleArp frame)
    (clock : Clock) (s : Interface τ) : (stage clock call s).made.heard = [] := by
  have hreads := reads_perform hr ha clock s
  have hnone : (stage clock call s).made.heard =
      ((stage clock call s).made.events.filterMap Event.read?).filterMap Ethernet.message? := by
    cases call with
    | handleArp frame => exact absurd rfl (ha frame)
    | _ => rfl
  rw [hnone, events_stage, hreads, List.filterMap_nil]

/-- Every call teaches the table what it heard and nothing else, unless it empties the table. -/
theorem cache_perform (clock : Clock) (call : Call) (s : Interface τ) :
    ((perform clock call).run s).state.cache =
      if call = .control .clearBindings then s.cache.reset
      else (stage clock call s).made.heard.foldl Arp.Cache.learn s.cache := by
  by_cases hb : call = .control .clearBindings
  · rw [if_pos hb, hb]
    rfl
  rw [if_neg hb]
  by_cases hr : call = .receiveWaiting
  · subst hr
    by_cases hu : s.isUp = true
    · exact cache_drained (drained_perform hu clock)
    · simp only [stage, perform, receiveWaiting, Action.run_bind, Action.run_get, hu]
      rfl
  by_cases ha : ∃ frame, call = .handleArp frame
  · obtain ⟨frame, rfl⟩ := ha
    simp only [stage, Made.heard, perform, Action.run_bind]
    cases hm : Arp.Message.ofFrame frame with
    | error reason =>
      rw [run_handleArp_of_error hm]
      rfl
    | ok message => exact cache_heard (heard_handleArp hm clock s).2
  · have ha : ∀ frame, call ≠ .handleArp frame := by simpa using ha
    rw [heard_of_untaught hr ha, cache_perform_of_untaught hr ha hb]
    rfl

/-- A frame that is refused is not heard. -/
theorem heard_of_refused {reason : DropReason}
    (h : (stage clock call s).made.reply = .handled (.error reason)) :
    (stage clock call s).made.heard = [] := by
  cases call with
  | handleArp frame =>
    cases hm : Arp.Message.ofFrame frame with
    | error reason => simp only [stage, Made.heard, hm]; rfl
    | ok message =>
      have hv := (heard_handleArp hm clock s).1
      simp only [stage, perform, Action.run_bind, Action.run_pure, hv] at h
      cases h
  | receiveWaiting => cases h
  | _ => exact heard_of_untaught (by simp) (by simp) clock s

/-- What the table is after a run. -/
theorem cache_run {capacity : Nat} (hs : s.cache = .empty capacity) (steps : List (Step τ)) :
    (run steps s).state.cache =
      (heardSinceCleared (run steps s).history).foldl Arp.Cache.learn (.empty capacity) := by
  induction steps using List.reverseRecOn with
  | nil => exact hs
  | append_singleton steps step ih =>
    rw [state_run_append, history_run_append]
    cases step with
    | adapter change =>
      simp only [run, List.append_nil]
      exact ih
    | call clock call =>
      have hcall := cache_perform clock call (run steps s).state
      simp only [run, heardSinceCleared_append]
      rw [hcall]
      split
      · rw [ih, Arp.Cache.reset, Arp.Cache.capacity_foldl_learn, Arp.Cache.capacity_empty]
        rfl
      · rw [ih, List.foldl_append]
        rfl

/-- Whatever was done to an interface, its table goes back to what was heard since it was empty. -/
theorem recalls_run {config : Config} {time : Time} {transport : τ}
    (hc : ((create config time).run transport).value = .ok s) (steps : List (Step τ)) :
    ∃ ages, Arp.Recalls config.cacheCapacity (heardSinceCleared (run steps s).history)
      (run steps s).state.cache ages := by
  have hcapacity := (Config.limits_of_validate (created hc).1).1
  have hempty : s.cache = .empty config.cacheCapacity := by
    obtain ⟨_, _, rfl⟩ := eq_of_create hc
    rfl
  rw [cache_run hempty steps]
  exact Arp.recalls_learn hcapacity _

/-- Whatever was done to an interface, an address is bound as its latest message said, one that was
accepted after the bindings were cleared last. If there were no more senders since then than the
table has slots, all of them are bound so and nobody else is. Accepted messages are all that changes
a binding, apart from clearing: other calls hear none, and neither does one that refuses a
frame. -/
theorem bindings_learned {config : Config} {time : Time} {transport : τ}
    (hc : ((create config time).run transport).value = .ok s) (steps : List (Step τ)) :
    let left := run steps s
    let heard := heardSinceCleared left.history
    (∀ ip mac, left.state.cache.lookup ip = some mac →
      ip ≠ .unspecified ∧ Arp.latest heard ip = some mac) ∧
    ((Arp.senders heard).card ≤ config.cacheCapacity → ∀ ip, left.state.cache.lookup ip =
      if ip = .unspecified then none else Arp.latest heard ip) ∧
    (∀ clock call,
      let made := (stage clock call left.state).made
      ((perform clock call).run left.state).state.cache =
        (if call = .control .clearBindings then left.state.cache.reset
          else made.heard.foldl Arp.Cache.learn left.state.cache) ∧
      (call ≠ .receiveWaiting → (∀ frame, call ≠ .handleArp frame) → made.heard = []) ∧
      ∀ reason, made.reply = .handled (.error reason) → made.heard = []) ∧
    ∀ change, (run (steps ++ [.adapter change]) s).state.cache = left.state.cache := by
  intro left heard
  have hcapacity : 0 < config.cacheCapacity :=
    (Config.limits_of_validate (created hc).1).1
  have hempty : s.cache = .empty config.cacheCapacity := by
    obtain ⟨_, _, rfl⟩ := eq_of_create hc
    rfl
  have hcache : left.state.cache = heard.foldl Arp.Cache.learn (.empty config.cacheCapacity) :=
    cache_run hempty steps
  obtain ⟨ages, h⟩ := Arp.recalls_learn hcapacity heard
  rw [← hcache] at h
  refine ⟨?_, ?_, ?_, ?_⟩
  · intro ip mac hl
    exact h.said _ (h.lookup_iff.mp hl)
  · intro hroom ip
    exact h.lookup_eq hroom ip
  · intro clock call made
    refine ⟨cache_perform clock call _, ?_, ?_⟩
    · intro hr ha
      exact heard_of_untaught hr ha clock _
    · intro reason hrefused
      exact heard_of_refused hrefused
  · intro change
    rw [state_run_append]
    rfl

/-- A neighbour moves to another adapter and a probe is heard. The table knows where the neighbour
went, and nothing after it was cleared. -/
theorem bindings_learned_moved :
    ∃ s : Interface Adapter,
      ((create { address := ⟨192, 168, 1, 1⟩, cacheCapacity := 1 } 0).run
        ({ address := {} } : Adapter)).value = .ok s ∧
      let neighbour : Ipv4.Address := ⟨192, 168, 1, 2⟩
      let tells (mac : MacAddress) (ip : Ipv4.Address) :=
        (Arp.Message.isAt mac ip {} ⟨192, 168, 1, 9⟩).toFrame
      let steps : List (Step Adapter) := [.call 0 (.setUp true),
        .adapter (·.inject (tells ⟨2, 0, 0, 0, 0, 2⟩ neighbour).bytes), .call 1 .receiveWaiting,
        .call 2 (.handleArp (tells ⟨2, 0, 0, 0, 0, 3⟩ neighbour)),
        .call 3 (.handleArp (tells ⟨2, 0, 0, 0, 0, 4⟩ .unspecified))]
      let cleared := steps ++ [.call 4 (.control .clearBindings)]
      (heardSinceCleared (run steps s).history).length = 3 ∧
        (run steps s).state.cache.lookup neighbour = some ⟨2, 0, 0, 0, 0, 3⟩ ∧
        (run steps s).state.cache.lookup .unspecified = none ∧
        (run cleared s).state.cache.lookup neighbour = none := by
  obtain ⟨s, hc⟩ : ∃ s, ((create { address := ⟨192, 168, 1, 1⟩, cacheCapacity := 1 } 0).run
      ({ address := {} } : Adapter)).value = .ok s := ⟨_, rfl⟩
  refine ⟨s, hc, ?_⟩
  intro neighbour tells steps cleared
  obtain ⟨-, hsteps, -⟩ := bindings_learned hc steps
  obtain ⟨-, hcleared, -⟩ := bindings_learned hc cleared
  have hlength : (heardSinceCleared (run steps s).history).length = 3 := by
    cases hc
    decide +kernel
  have hone : (Arp.senders (heardSinceCleared (run steps s).history)).card ≤ 1 := by
    cases hc
    decide +kernel
  have hlatest : Arp.latest (heardSinceCleared (run steps s).history) neighbour =
      some ⟨2, 0, 0, 0, 0, 3⟩ := by
    cases hc
    decide +kernel
  have hnone : heardSinceCleared (run cleared s).history = [] := by
    rw [history_run_append]
    exact heardSinceCleared_append _ _
  rw [hnone] at hcleared
  refine ⟨hlength, ?_, ?_, ?_⟩
  · rw [hsteps hone, hlatest]
    rfl
  · rw [hsteps hone]
    rfl
  · rw [hcleared (Nat.zero_le _)]
    rfl

end Interface
end LinkLayer
