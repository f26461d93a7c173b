import Mathlib.Tactic.Tauto
import LinkLayer.Proofs.Custody

/-!
The order on the wire. While the network of the interface stays the same, no deferred datagram has a
next hop that the cache resolves. So a datagram that is sent passes none that goes the same way, and
for each next hop the wire has the order of the host (`wire_order`).
-/
namespace LinkLayer

open Interface

namespace Config

variable {config : Config} {cache : Arp.Cache} {d : Datagram} {hop : Ipv4.Address}
  {mac : MacAddress}

theorem hop_of_unresolved (h : config.route cache d = .ok (.unresolved hop)) :
    config.nextHop? d = some hop ∧ cache.lookup hop = none := by
  simp only [route] at h
  repeat' split at h
  all_goals simp_all

theorem hop_of_resolved (h : config.route cache d = .ok (.resolved hop mac)) :
    config.nextHop? d = some hop ∧ cache.lookup hop = some mac := by
  simp only [route] at h
  repeat' split at h
  all_goals simp_all

/-- Forgetting the bindings resolves nothing. -/
theorem route_reset (h : config.route cache d = .ok (.unresolved hop)) :
    config.route cache.reset d = .ok (.unresolved hop) := by
  obtain ⟨hh, hl⟩ := hop_of_unresolved h
  simpa [route, hh, hl, Arp.Cache.reset] using h

end Config

namespace Ledger

variable {pass : Pass} {config : Config} {cache cache' : Arp.Cache} {mac : MacAddress}
  {l l' : Ledger} {e : Entry} {rest : List Entry}

/-- In a pass: what stands in line before all that the pass has before it. -/
def ahead (l : Ledger) : Pass → List Entry
  | .first => l.retained ++ l.deferred
  | .later => l.retained

/-- What stands in line behind all that a pass has before it. -/
def beyond (l : Ledger) : Pass → List Entry
  | .first => []
  | .later => l.send

theorem line_eq (l : Ledger) (pass : Pass) :
    l.line = l.ahead pass ++ l.queue pass ++ l.beyond pass := by
  cases pass <;> simp [line, ahead, queue, beyond]

/-- Two entries with the same next hop stand in order. -/
def InOrder (config : Config) (a b : Entry) : Prop :=
  config.nextHop? a.datagram = config.nextHop? b.datagram → a.number < b.number

/-- What was sent and what waits is in order for each next hop, since all that was passed by goes to
a next hop that is not resolved. -/
structure HopOrder (config : Config) (cache : Arp.Cache) (pass : Pass) (l : Ledger) : Prop where
  waits : ∀ e ∈ l.ahead pass, ∃ hop, config.route cache e.datagram = .ok (.unresolved hop)
  order : (l.sent.map (·.1) ++ l.line).Pairwise (InOrder config)
  number_lt : ∀ e ∈ l.sent.map (·.1) ++ l.line, e.number < l.entered

theorem hopOrder_empty (config : Config) (cache : Arp.Cache) :
    HopOrder config cache .first {} where
  waits := by
    intro e he
    cases he
  order := .nil
  number_lt := by
    intro e he
    cases he

theorem pop_line (hq : l.queue pass = e :: rest) :
    (l.pop pass).line = l.ahead pass ++ rest ++ l.beyond pass := by
  cases pass <;> simp_all [line, ahead, queue, beyond, pop]

/-- Entries that leave the line unsent do not disturb the order. -/
theorem hopOrder_of_sublist {pass' : Pass} (hl : HopOrder config cache pass l)
    (hw : ∀ e ∈ l'.ahead pass', ∃ hop, config.route cache' e.datagram = .ok (.unresolved hop))
    (hs : l'.sent = l.sent) (hn : l'.entered = l.entered) (hline : l'.line.Sublist l.line) :
    HopOrder config cache' pass' l' := by
  have hsub : (l'.sent.map (·.1) ++ l'.line).Sublist (l.sent.map (·.1) ++ l.line) := by
    rw [hs]
    exact hline.append_left _
  refine ⟨hw, hl.order.sublist hsub, ?_⟩
  intro e he
  rw [hn]
  exact hl.number_lt e (hsub.subset he)

theorem pairwise_overtake {α : Type} {R : α → α → Prop} {before passed after : List α} {a : α}
    (h : (before ++ (passed ++ a :: after)).Pairwise R) (hp : ∀ b ∈ passed, R a b) :
    (before ++ a :: (passed ++ after)).Pairwise R := by
  simp only [List.pairwise_append, List.pairwise_cons, List.mem_append, List.mem_cons] at h ⊢
  grind

/-- An entry that is sent overtakes only entries with other next hops. -/
theorem hopOrder_sent {hop : Ipv4.Address} {dest : MacAddress} (hl : HopOrder config cache pass l)
    (hq : l.queue pass = e :: rest)
    (hr : config.route cache e.datagram = .ok (.resolved hop dest)) (frame : Bytes) :
    HopOrder config cache pass { l.pop pass with sent := l.sent ++ [(e, frame)] } := by
  have hline : l.line = l.ahead pass ++ e :: (rest ++ l.beyond pass) := by
    rw [l.line_eq pass, hq, List.append_assoc, List.cons_append]
  have horder := hl.order
  rw [hline] at horder
  have hmoved := pairwise_overtake horder (by
    intro a ha hsame
    obtain ⟨other, hu⟩ := hl.waits a ha
    obtain ⟨ho, hn⟩ := Config.hop_of_unresolved hu
    obtain ⟨hh, hm⟩ := Config.hop_of_resolved hr
    -- One of the two next hops is resolved and the other is not.
    rw [hh, ho] at hsame
    cases hsame
    simp [hn] at hm)
  have hlist : (l.sent ++ [(e, frame)]).map (·.1) ++ (l.pop pass).line =
      l.sent.map (·.1) ++ e :: (l.ahead pass ++ (rest ++ l.beyond pass)) := by
    simp [pop_line hq]
  refine ⟨?_, ?_, ?_⟩
  · cases pass <;> exact hl.waits
  · exact hlist ▸ hmoved
  · intro a ha
    rw [entered_pop]
    refine hl.number_lt a ?_
    rw [hline]
    have ha : a ∈ (l.sent ++ [(e, frame)]).map (·.1) ++ (l.pop pass).line := ha
    rw [hlist] at ha
    simp only [List.mem_append, List.mem_cons] at ha ⊢
    tauto

theorem hopOrder_booked (h : Booked pass config cache mac l l')
    (hl : HopOrder config cache pass l) : HopOrder config cache pass l' := by
  cases h with
  | sent hq hr => exact hopOrder_sent hl hq hr _
  | @held e rest hop hq hr =>
    have hahead : ((l.pop pass).hold e pass).ahead pass = l.ahead pass ++ [e] := by
      cases pass <;> simp [ahead, pop, hold]
    refine hopOrder_of_sublist hl ?_ ?_ ?_ ?_
    · rw [hahead]
      intro a ha
      rcases List.mem_append.mp ha with ha | ha
      · exact hl.waits a ha
      · obtain rfl := List.mem_singleton.mp ha
        exact ⟨hop, hr⟩
    · cases pass <;> rfl
    · cases pass <;> rfl
    · simp [line_hold hq]
  | dropped | expired =>
    refine hopOrder_of_sublist hl ?_ ?_ ?_ (l.line_pop pass)
    · cases pass <;> exact hl.waits
    · cases pass <;> rfl
    · cases pass <;> rfl

theorem hopOrder_pass (h : Relation.ReflTransGen (Booked pass config cache mac) l l')
    (hl : HopOrder config cache pass l) : HopOrder config cache pass l' := by
  induction h with
  | refl => exact hl
  | tail _ hb ih => exact hopOrder_booked hb ih

/-- A message may have resolved anything, but a later pass has all that is deferred before it. -/
theorem hopOrder_later (hl : HopOrder config cache .first l)
    (h : Relation.ReflTransGen (Booked .later config cache' mac) l.rejoin l')
    (hq : l'.deferred = []) : HopOrder config cache' .first l' := by
  have hr : HopOrder config cache' .later l.rejoin := by
    refine hopOrder_of_sublist hl ?_ rfl rfl (by simp [line_rejoin])
    intro e he
    cases he
  have hl' := hopOrder_pass h hr
  have ha : l'.ahead .first = l'.retained := by simp [ahead, hq]
  refine hopOrder_of_sublist hl' ?_ rfl rfl (.refl _)
  rw [ha]
  exact hl'.waits

theorem hopOrder_enter (hl : HopOrder config cache .first l) (d : Datagram) :
    HopOrder config cache .first (l.enter d) := by
  have hlist : (l.enter d).sent.map (·.1) ++ (l.enter d).line =
      l.sent.map (·.1) ++ l.line ++ [⟨l.entered, d⟩] := by
    simp [enter, line]
  refine ⟨hl.waits, ?_, ?_⟩
  · rw [hlist, List.pairwise_append]
    refine ⟨hl.order, List.pairwise_singleton _ _, ?_⟩
    intro a ha b hb _
    obtain rfl := List.mem_singleton.mp hb
    exact hl.number_lt a ha
  · rw [hlist]
    intro e he
    rcases List.mem_append.mp he with he | he
    · exact Nat.lt_succ_of_lt (hl.number_lt e he)
    · obtain rfl := List.mem_singleton.mp he
      exact Nat.lt_succ_self _

/-- The order is kept as long as the settings stay what they were. -/
theorem kept_hopOrder (config : Config) :
    Kept fun l current cache => current = config ∧ HopOrder config cache .first l where
  booking := by
    rintro l l' current mac cache cache' ⟨rfl, hl⟩ hb
    refine ⟨rfl, ?_⟩
    cases hb with
    | nothing hc =>
      rcases hc with rfl | rfl
      · exact hl
      · refine hopOrder_of_sublist hl ?_ rfl rfl (.refl _)
        intro e he
        obtain ⟨hop, hr⟩ := hl.waits e he
        exact ⟨hop, Config.route_reset hr⟩
    | first hc hb =>
      subst hc
      exact hopOrder_pass hb hl
    | later hb hq => exact hopOrder_later hl hb hq
    | released hc =>
      subst hc
      refine hopOrder_of_sublist hl ?_ rfl rfl (List.nil_sublist _)
      intro e he
      cases he
  enter := by
    rintro l current cache d ⟨rfl, hl⟩
    exact ⟨rfl, hopOrder_enter hl d⟩
  rejoin := by
    rintro l current cache ⟨rfl, hl⟩
    exact ⟨rfl, hopOrder_of_sublist hl hl.waits rfl rfl (by simp [line_rejoin])⟩

theorem Kept.and {I J : Ledger → Config → Arp.Cache → Prop} (hi : Kept I) (hj : Kept J) :
    Kept fun l config cache => I l config cache ∧ J l config cache where
  booking := by
    rintro _ _ _ _ _ _ ⟨h, h'⟩ hb
    exact ⟨hi.booking h hb, hj.booking h' hb⟩
  enter := by
    rintro _ _ _ d ⟨h, h'⟩
    exact ⟨hi.enter d h, hj.enter d h'⟩
  rejoin := by
    rintro _ _ _ ⟨h, h'⟩
    exact ⟨hi.rejoin h, hj.rejoin h'⟩

end Ledger

namespace Interface

variable {τ : Type} [FiniteTransport τ] {now : Time} {clock : Clock} {s : Interface τ}

theorem output_of_unresolved {d : Datagram} {hop : Ipv4.Address}
    (h : s.config.route s.cache d = .ok (.unresolved hop)) (now : Time) :
    ((output now d).run s).value = .ok .deferred := by
  have ho := delivered_output now d s
  generalize (output now d).run s = o at ho ⊢
  cases ho <;> simp_all

/-- As long as nobody makes the network of the interface another one, no deferred datagram has a
next hop that the cache resolves, and each would be deferred again. The passes write the frames for
one next hop in the order in which the datagrams were handed in. -/
theorem wire_order {config : Config} {transport : τ}
    (hc : ((create config now).run transport).value = .ok s) (steps : List (Step τ))
    (hs : ∀ step ∈ steps, step.KeepsNetwork config) :
    (∀ d ∈ (run steps s).state.deferred.toList,
      (∃ hop, config.nextHop? d = some hop ∧ (run steps s).state.cache.lookup hop = none) ∧
        ∀ now, ((output now d).run (run steps s).state).value = .ok .deferred) ∧
      ∃ l, Ledger.ofHistory (run steps s).history = some l ∧
        l.sent.map (·.2) = passFrames (run steps s).history ∧
        (∀ p ∈ l.sent, (steps.filterMap Step.submitted?)[p.1.number]? = some p.1.datagram ∧
          ∃ dest source, p.2 = (p.1.datagram.toFrame dest source).bytes) ∧
        l.sent.Pairwise fun p q =>
          config.nextHop? p.1.datagram = config.nextHop? q.1.datagram →
            p.1.number < q.1.number := by
  obtain ⟨l, hr, hb, hl, ⟨hconfig, ho⟩, hcarried⟩ :=
    Ledger.ledger_of_create ((Ledger.kept_hopOrder config).and Ledger.kept_carried) hc steps
      (.inl hs) ⟨⟨rfl, Ledger.hopOrder_empty _ _⟩, Ledger.carried_empty⟩
  refine ⟨?_, l, hr, ?_, ?_, ?_⟩
  · intro d hd
    obtain ⟨e, he, hcontent⟩ :=
      List.mem_map.mp (hl.deferred ▸ List.mem_map_of_mem hd : d.content ∈ _)
    obtain ⟨hop, hroute⟩ := ho.waits e he
    rw [Config.route_congr hcontent] at hroute
    have hagain := hroute
    rw [← hconfig] at hagain
    exact ⟨⟨hop, Config.hop_of_unresolved hroute⟩, output_of_unresolved hagain⟩
  · simpa [hl.inFlight] using hb.frames
  · intro p hp
    rw [← submitted_run steps s]
    exact ⟨hb.getElem?_of_sent hp, (hcarried p hp).2⟩
  · exact List.pairwise_map.mp (List.pairwise_append.mp ho.order).1

/-- Two datagrams wait for one answer and are sent in order when it comes. The address of the
interface was set once more to what it is. -/
theorem wire_order_two :
    let steps : List (Step Adapter) := [.call 0 (.setUp true),
      .call 0 (.submit (.make { dest := ⟨192, 168, 1, 2⟩ } [] [7])),
      .call 1 (.setAddress ⟨192, 168, 1, 1⟩),
      .call 1 (.submit (.make { dest := ⟨192, 168, 1, 2⟩ } [] [8])),
      .call 2 .sendQueued,
      .adapter (·.inject (Arp.Message.isAt ⟨2, 0, 0, 0, 0, 2⟩ ⟨192, 168, 1, 2⟩ {}
        ⟨192, 168, 1, 1⟩).toFrame.bytes),
      .call 3 .receiveWaiting]
    ∃ (s : Interface Adapter) (l : Ledger),
      ((create { address := ⟨192, 168, 1, 1⟩, mask := ⟨255, 255, 255, 0⟩ } 0).run
        ({ address := {} } : Adapter)).value = .ok s ∧
      Ledger.ofHistory (run steps s).history = some l ∧ l.sent.map (·.1.number) = [0, 1] := by
  intro steps
  obtain ⟨s, hc⟩ : ∃ s, ((create { address := ⟨192, 168, 1, 1⟩, mask := ⟨255, 255, 255, 0⟩ } 0).run
      ({ address := {} } : Adapter)).value = .ok s := ⟨_, rfl⟩
  have hs : ∀ step ∈ steps, step.KeepsNetwork
      { address := ⟨192, 168, 1, 1⟩, mask := ⟨255, 255, 255, 0⟩ } := by
    simp [steps, Step.KeepsNetwork, Call.KeepsNetwork]
  obtain ⟨-, l, hr, hf, hn, hp⟩ := wire_order hc steps hs
  refine ⟨s, l, hc, hr, ?_⟩
  cases hc
  have hl : (l.sent.map (·.2)).length = 2 := (congrArg List.length hf).trans rfl
  obtain ⟨p, q, hpq⟩ := List.length_eq_two.mp (l.sent.length_map _ ▸ hl)
  simp only [hpq, List.pairwise_pair, List.mem_cons, List.not_mem_nil, or_false,
    forall_eq_or_imp, forall_eq] at hn hp
  obtain ⟨⟨hp', -⟩, hq', -⟩ := hn
  simp only [steps, List.filterMap_cons, List.filterMap_nil, Step.submitted?,
    Call.submitted?] at hp' hq'
  rcases p with ⟨⟨i, d⟩, f⟩
  rcases q with ⟨⟨j, d'⟩, f'⟩
  simp only [hpq, List.map_cons, List.map_nil]
  -- Both have the same next hop, whichever of the two they are.
  have hlt : i < j := by
    refine hp ?_
    rcases List.mem_pair.mp (List.mem_of_getElem? hp') with rfl | rfl
    · rcases List.mem_pair.mp (List.mem_of_getElem? hq') with rfl | rfl
      · rfl
      · rfl
    · rcases List.mem_pair.mp (List.mem_of_getElem? hq') with rfl | rfl
      · rfl
      · rfl
  have hj : j < 2 := (List.getElem?_eq_some_iff.mp hq').1
  obtain ⟨rfl, rfl⟩ : i = 0 ∧ j = 1 := by omega
  rfl

end Interface
end LinkLayer
