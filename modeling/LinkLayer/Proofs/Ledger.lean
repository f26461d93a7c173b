import Mathlib.Data.List.Induction
import Mathlib.Data.List.Perm.Subperm
import LinkLayer.Proofs.Runs

/-!
The ledger of what a host handed in. It is kept from the history of a run and nothing else: every
event must name the datagram that is next in line, or the ledger cannot be kept. Main statement: a
ledger has every datagram in one place, and what waits stands in the order in which it was handed
in (`balanced_ofHistory`).
-/
namespace LinkLayer

open Interface (Pass Made)

/-- All of a datagram but its age. -/
def Datagram.content (d : Datagram) : Datagram := { d with expiry := none }

/-- The datagram that the host handed in as the one with this number. -/
structure Entry where
  number : Nat
  datagram : Datagram
deriving DecidableEq, Repr

def Entry.content (e : Entry) : Datagram := e.datagram.content

/-- The datagram from the host that an event drops. -/
def Event.dropped? : Event → Option Datagram
  | outboundDropped d _ | deferredDropped d _ => some d
  | _ => none

/-- The datagrams that were released when the interface went down, oldest first. -/
def Event.released : Event → List Datagram
  | wentDown send _ deferred => deferred ++ send
  | _ => []

/-- The datagram from the host that grew too old. -/
def Event.expired? : Event → Option Datagram
  | expired _ .send d | expired _ .deferred d => some d
  | _ => none

structure Ledger where
  /-- How many entries there are. -/
  entered : Nat := 0
  /-- Deferred, and tried again since the last ARP message. -/
  retained : List Entry := []
  /-- Deferred. -/
  deferred : List Entry := []
  /-- In the send queue. -/
  send : List Entry := []
  /-- The IPv4 frame that was written last, until it is known whose it is. -/
  inFlight : Option Bytes := none
  /-- Sent, each in the frame that was written for it. -/
  sent : List (Entry × Bytes) := []
  dropped : List Entry := []
  expired : List Entry := []
  /-- Released when the interface went down. -/
  released : List Entry := []
deriving DecidableEq, Repr

namespace Ledger

/-- What waits, oldest first. -/
def line (l : Ledger) : List Entry := l.retained ++ l.deferred ++ l.send

/-- What does not wait any more. -/
def gone (l : Ledger) : List Entry := l.sent.map (·.1) ++ l.dropped ++ l.expired ++ l.released

/-- All entries, each in its place. -/
def entries (l : Ledger) : List Entry := l.line ++ l.gone

/-- The host hands in a datagram. -/
def enter (l : Ledger) (d : Datagram) : Ledger :=
  { l with entered := l.entered + 1, send := l.send ++ [⟨l.entered, d⟩] }

/-- What was tried again waits like the rest. -/
def rejoin (l : Ledger) : Ledger := { l with retained := [], deferred := l.retained ++ l.deferred }

/-- What a pass has before it. -/
def queue (l : Ledger) : Pass → List Entry
  | .first => l.send
  | .later => l.deferred

def pop (l : Ledger) : Pass → Ledger
  | .first => { l with send := l.send.tail }
  | .later => { l with deferred := l.deferred.tail }

/-- An entry that a pass leaves waiting. -/
def hold (l : Ledger) (e : Entry) : Pass → Ledger
  | .first => { l with deferred := l.deferred ++ [e] }
  | .later => { l with retained := l.retained ++ [e] }

/-- Takes the next entry of a pass, which must have the content of `d`. -/
def take? (l : Ledger) (pass : Pass) (d : Datagram) : Option (Entry × Ledger) :=
  match l.queue pass with
  | e :: _ => if e.content = d.content then some (e, l.pop pass) else none
  | [] => none

/-- The next entry of a pass is dropped. -/
def drop? (l : Ledger) (pass : Pass) (d : Datagram) : Option Ledger :=
  (l.take? pass d).map fun (e, l) => { l with dropped := l.dropped ++ [e] }

/-- The next entry of a pass expires. -/
def expire? (l : Ledger) (pass : Pass) (d : Datagram) : Option Ledger :=
  (l.take? pass d).map fun (e, l) => { l with expired := l.expired ++ [e] }

/-- The next entry of a pass went out in the frame that was written last. -/
def send? (l : Ledger) (pass : Pass) (d : Datagram) : Option Ledger :=
  (l.take? pass d).bind fun (e, l) => l.inFlight.map fun frame =>
    { l with inFlight := none, sent := l.sent ++ [(e, frame)] }

/-- The next entry of a pass has to wait. -/
def hold? (l : Ledger) (pass : Pass) : Option Ledger :=
  (l.queue pass).head?.map fun e => (l.pop pass).hold e pass

/-- An IPv4 frame was written. There must be none whose datagram is not known yet. -/
def fly? (l : Ledger) (frame : Bytes) : Option Ledger :=
  if l.inFlight.isSome then none else some { l with inFlight := some frame }

/-- Everything in line is released. -/
def release (l : Ledger) : Ledger :=
  { l with retained := [], deferred := [], send := [], released := l.released ++ l.line }

/-- What waits is released. It must be what the queues held. -/
def release? (l : Ledger) (send deferred : List Datagram) : Option Ledger :=
  if (l.retained ++ l.deferred).map Entry.content = deferred.map Datagram.content ∧
      l.send.map Entry.content = send.map Datagram.content then
    some l.release
  else none

/-- Notes an event of a call that makes this pass, or no pass. -/
def note (pass? : Option Pass) (l : Ledger) (event : Event) : Option Ledger :=
  match event, pass? with
  | .wentDown send _ deferred, _ => l.release? send deferred
  | .arpAccepted _, _ => some l.rejoin
  | .outboundDropped d _, _ => l.drop? .first d
  | .deferredDropped d _, _ => l.drop? .later d
  | .expired _ .send d, _ => l.expire? .first d
  | .expired _ .deferred d, _ => l.expire? .later d
  | .deferring _, some pass => l.hold? pass
  | .sent _ _ d, some pass => l.send? pass d
  | .frameWritten _, some _ => (Interface.ipv4Frame? event).elim (some l) l.fly?
  | _, _ => some l

/-- Notes a call and what happened in it. -/
def record (l : Ledger) (made : Made) : Option Ledger := do
  let l := made.submitted?.elim l l.enter
  let l ← made.events.foldlM (note made.call.pass?) l
  some l.rejoin

/-- The ledger of a history, if it can be kept. -/
def ofHistory (history : List Made) : Option Ledger := history.foldlM record {}

variable {pass? : Option Pass} {l l' : Ledger} {event : Event}

/-- All that an event can do to a ledger. -/
inductive Noted (pass? : Option Pass) (l : Ledger) : Event → Ledger → Prop
  | released {send receive deferred : List Datagram}
      (hl : l.line.map Entry.content = (deferred ++ send).map Datagram.content) :
      Noted pass? l (.wentDown send receive deferred) l.release
  | rejoined {message : Arp.Message} : Noted pass? l (.arpAccepted message) l.rejoin
  | dropped {pass : Pass} {e : Entry} {rest : List Entry} {d : Datagram} {reason : DropReason}
      (hq : l.queue pass = e :: rest) (hc : e.content = d.content) :
      Noted pass? l (pass.dropped d reason) { l.pop pass with dropped := l.dropped ++ [e] }
  | expired {now : Time} {pass : Pass} {e : Entry} {rest : List Entry} {d : Datagram}
      (hq : l.queue pass = e :: rest) (hc : e.content = d.content) :
      Noted pass? l (.expired now pass.place d) { l.pop pass with expired := l.expired ++ [e] }
  | held {pass : Pass} {e : Entry} {rest : List Entry} {hop : Ipv4.Address}
      (hq : l.queue pass = e :: rest) :
      Noted pass? l (.deferring hop) ((l.pop pass).hold e pass)
  | sent {taken written : Time} {pass : Pass} {e : Entry} {rest : List Entry} {d : Datagram}
      {frame : Bytes} (hq : l.queue pass = e :: rest) (hc : e.content = d.content)
      (hf : l.inFlight = some frame) :
      Noted pass? l (.sent taken written d)
        { l.pop pass with inFlight := none, sent := l.sent ++ [(e, frame)] }
  | flies {frame : Bytes} (hp : pass?.isSome) (hf : l.inFlight = none)
      (hi : Interface.ipv4Frame? (.frameWritten frame) = some frame) :
      Noted pass? l (.frameWritten frame) { l with inFlight := some frame }
  | other {event : Event} (hi : pass?.isSome → Interface.ipv4Frame? event = none)
      (hd : event.dropped? = none) (he : event.expired? = none) (hr : event.released = []) :
      Noted pass? l event l

theorem take?_eq_some {pass : Pass} {d : Datagram} {e : Entry} :
    l.take? pass d = some (e, l') ↔
      ∃ rest, l.queue pass = e :: rest ∧ e.content = d.content ∧ l' = l.pop pass := by
  rw [take?]
  cases hq : l.queue pass with
  | nil => simp
  | cons head rest =>
    by_cases hc : head.content = d.content
    · simp only [hc, if_true, Option.some.injEq, Prod.mk.injEq, List.cons.injEq]
      constructor
      · rintro ⟨rfl, rfl⟩
        exact ⟨rest, ⟨rfl, rfl⟩, hc, rfl⟩
      · rintro ⟨_, ⟨rfl, -⟩, -, rfl⟩
        exact ⟨rfl, rfl⟩
    · simp only [hc, if_false, reduceCtorEq, List.cons.injEq, false_iff, not_exists, not_and]
      rintro _ ⟨rfl, -⟩ h
      exact absurd h hc

theorem drop?_eq_some {pass : Pass} {d : Datagram} (reason : DropReason)
    (h : l.drop? pass d = some l') : Noted pass? l (pass.dropped d reason) l' := by
  obtain ⟨⟨e, m⟩, ht, rfl⟩ := Option.map_eq_some_iff.mp h
  obtain ⟨rest, hq, hc, rfl⟩ := take?_eq_some.mp ht
  cases pass <;> exact .dropped hq hc

theorem expire?_eq_some {pass : Pass} {d : Datagram} (now : Time)
    (h : l.expire? pass d = some l') : Noted pass? l (.expired now pass.place d) l' := by
  obtain ⟨⟨e, m⟩, ht, rfl⟩ := Option.map_eq_some_iff.mp h
  obtain ⟨rest, hq, hc, rfl⟩ := take?_eq_some.mp ht
  cases pass <;> exact .expired hq hc

theorem send?_eq_some {pass : Pass} {d : Datagram} (taken written : Time)
    (h : l.send? pass d = some l') : Noted pass? l (.sent taken written d) l' := by
  obtain ⟨⟨e, m⟩, ht, hm⟩ := Option.bind_eq_some_iff.mp h
  obtain ⟨frame, hf, rfl⟩ := Option.map_eq_some_iff.mp hm
  obtain ⟨rest, hq, hc, rfl⟩ := take?_eq_some.mp ht
  cases pass <;> exact .sent hq hc hf

theorem hold?_eq_some {pass : Pass} (hop : Ipv4.Address) (h : l.hold? pass = some l') :
    Noted pass? l (.deferring hop) l' := by
  obtain ⟨e, he, rfl⟩ := Option.map_eq_some_iff.mp h
  obtain ⟨rest, hq⟩ := List.head?_eq_some_iff.mp he
  exact .held hq

theorem noted_note (h : l.note pass? event = some l') : Noted pass? l event l' := by
  cases event with
  | wentDown send receive deferred =>
    simp only [note, release?, Option.ite_none_right_eq_some, Option.some.injEq] at h
    obtain ⟨⟨hd, hs⟩, rfl⟩ := h
    exact .released (by rw [line, List.map_append, hd, hs, List.map_append])
  | arpAccepted message =>
    cases h
    exact .rejoined
  | outboundDropped d reason => exact drop?_eq_some reason h
  | deferredDropped d reason => exact drop?_eq_some reason h
  | expired now place d =>
    cases place with
    | send => exact expire?_eq_some now h
    | deferred => exact expire?_eq_some now h
    | receive =>
      cases h
      exact .other (fun _ => rfl) rfl rfl rfl
  | deferring hop =>
    cases pass? with
    | some pass => exact hold?_eq_some hop h
    | none =>
      cases h
      exact .other (fun _ => rfl) rfl rfl rfl
  | sent taken written d =>
    cases pass? with
    | some pass => exact send?_eq_some taken written h
    | none =>
      cases h
      exact .other (fun _ => rfl) rfl rfl rfl
  | frameWritten frame =>
    cases pass? with
    | none =>
      cases h
      exact .other (by simp) rfl rfl rfl
    | some pass =>
      cases hi : Interface.ipv4Frame? (.frameWritten frame) with
      | none =>
        simp only [note, hi, Option.elim_none, Option.some.injEq] at h
        subst h
        exact .other (fun _ => hi) rfl rfl rfl
      | some other =>
        obtain rfl := Interface.eq_of_ipv4Frame? hi
        simp only [note, hi, Option.elim_some, fly?, Option.ite_none_left_eq_some,
          Option.some.injEq, Bool.not_eq_true, Option.isSome_eq_false_iff,
          Option.isNone_iff_eq_none] at h
        obtain ⟨hf, rfl⟩ := h
        exact .flies rfl hf hi
  | _ =>
    cases h
    exact .other (fun _ => rfl) rfl rfl rfl

section Queues

variable {pass : Pass} {e : Entry} {rest : List Entry}

@[simp] theorem entered_pop : (l.pop pass).entered = l.entered := by cases pass <;> rfl

@[simp] theorem inFlight_pop : (l.pop pass).inFlight = l.inFlight := by cases pass <;> rfl

@[simp] theorem sent_pop : (l.pop pass).sent = l.sent := by cases pass <;> rfl

@[simp] theorem dropped_pop : (l.pop pass).dropped = l.dropped := by cases pass <;> rfl

@[simp] theorem expired_pop : (l.pop pass).expired = l.expired := by cases pass <;> rfl

@[simp] theorem released_pop : (l.pop pass).released = l.released := by cases pass <;> rfl

theorem line_pop (l : Ledger) (pass : Pass) : (l.pop pass).line.Sublist l.line := by
  cases pass with
  | first => exact (List.tail_sublist _).append_left _
  | later => exact ((List.tail_sublist _).append_left _).append_right _

theorem line_perm (hq : l.queue pass = e :: rest) : l.line.Perm (e :: (l.pop pass).line) := by
  cases pass with
  | first =>
    simp only [queue] at hq
    simp only [line, pop, hq, List.tail_cons]
    exact List.perm_middle
  | later =>
    simp only [queue] at hq
    simp only [line, pop, hq, List.tail_cons, List.append_assoc, List.cons_append]
    exact List.perm_middle

/-- An entry that went from the line to the others is still there, and still only once. -/
theorem entries_perm (hq : l.queue pass = e :: rest) (hl : l'.line = (l.pop pass).line)
    (hg : l'.gone.Perm (e :: l.gone)) : l'.entries.Perm l.entries := by
  calc
    l'.entries = (l.pop pass).line ++ l'.gone := by rw [entries, hl]
    List.Perm _ ((l.pop pass).line ++ e :: l.gone) := hg.append_left _
    List.Perm _ (e :: (l.pop pass).line ++ l.gone) := List.perm_middle
    List.Perm _ l.entries := (line_perm hq).symm.append_right _

theorem line_hold (hq : l.queue pass = e :: rest) :
    ((l.pop pass).hold e pass).line = l.line := by
  cases pass <;> simp only [queue] at hq <;> simp [line, pop, hold, hq]

theorem gone_hold : ((l.pop pass).hold e pass).gone = l.gone := by cases pass <;> rfl

theorem line_rejoin (l : Ledger) : l.rejoin.line = l.line := by
  simp [line, rejoin]

end Queues

/-- What events leave as it was, and how the rest of the ledger follows them. -/
structure Follows (pass? : Option Pass) (events : List Event) (l l' : Ledger) : Prop where
  entered : l'.entered = l.entered
  entries : l'.entries.Perm l.entries
  line : l'.line.Sublist l.line
  frames : l'.sent.map (·.2) ++ l'.inFlight.toList =
    l.sent.map (·.2) ++ l.inFlight.toList ++
      if pass?.isSome then events.filterMap Interface.ipv4Frame? else []
  dropped : l'.dropped.map Entry.content =
    l.dropped.map Entry.content ++ (events.filterMap Event.dropped?).map Datagram.content
  expired : l'.expired.map Entry.content =
    l.expired.map Entry.content ++ (events.filterMap Event.expired?).map Datagram.content
  released : l'.released.map Entry.content =
    l.released.map Entry.content ++ (events.flatMap Event.released).map Datagram.content

theorem follows_of_noted (h : Noted pass? l event l') : Follows pass? [event] l l' := by
  cases h with
  | released hl =>
    constructor
    · rfl
    · refine List.perm_iff_count.mpr fun a => ?_
      simp [entries, line, gone, release]
      omega
    · simp [line, release]
    · simp [release, Interface.ipv4Frame?]
    · simp [release, Event.dropped?]
    · simp [release, Event.expired?]
    · simp [release, Event.released, hl]
  | rejoined =>
    constructor
    · rfl
    · rw [entries, line_rejoin]
      rfl
    · rw [line_rejoin]
    · simp [rejoin, Interface.ipv4Frame?]
    · simp [rejoin, Event.dropped?]
    · simp [rejoin, Event.expired?]
    · simp [rejoin, Event.released]
  | @dropped pass e rest d reason hq hc =>
    have hp : [pass.dropped d reason].filterMap Interface.ipv4Frame? = [] := by cases pass <;> rfl
    have hd : [pass.dropped d reason].filterMap Event.dropped? = [d] := by cases pass <;> rfl
    have he : [pass.dropped d reason].filterMap Event.expired? = [] := by cases pass <;> rfl
    have hr : [pass.dropped d reason].flatMap Event.released = [] := by cases pass <;> rfl
    refine ⟨by simp, entries_perm hq rfl ?_, l.line_pop pass, by simp [hp], ?_, by simp [he],
      by simp [hr]⟩
    · have hm : (l.sent.map (·.1) ++ l.dropped ++ e :: (l.expired ++ l.released)).Perm _ :=
        List.perm_middle
      simpa only [gone, sent_pop, expired_pop, released_pop, List.append_assoc,
        List.cons_append, List.nil_append] using hm
    · simp [hd, hc]
  | @expired now pass e rest d hq hc =>
    have hd : [Event.expired now pass.place d].filterMap Event.expired? = [d] := by
      cases pass <;> rfl
    refine ⟨by simp, entries_perm hq rfl ?_, l.line_pop pass, by simp [Interface.ipv4Frame?],
      by simp [Event.dropped?], ?_, by simp [Event.released]⟩
    · have hm : (l.sent.map (·.1) ++ l.dropped ++ l.expired ++ e :: l.released).Perm _ :=
        List.perm_middle
      simpa only [gone, sent_pop, dropped_pop, released_pop, List.append_assoc,
        List.cons_append, List.nil_append] using hm
    · simp [hd, hc]
  | @held pass e rest hop hq =>
    refine ⟨?_, ?_, ?_, ?_, ?_, ?_, ?_⟩
    · cases pass <;> rfl
    · rw [entries, line_hold hq, gone_hold]
      rfl
    · rw [line_hold hq]
    · cases pass <;> simp [hold, Interface.ipv4Frame?]
    · cases pass <;> simp [hold, Event.dropped?]
    · cases pass <;> simp [hold, Event.expired?]
    · cases pass <;> simp [hold, Event.released]
  | @sent taken written pass e rest d frame hq hc hf =>
    refine ⟨by simp, entries_perm hq rfl ?_, l.line_pop pass, ?_, by simp [Event.dropped?],
      by simp [Event.expired?], by simp [Event.released]⟩
    · have hm : (l.sent.map (·.1) ++ e :: (l.dropped ++ l.expired ++ l.released)).Perm _ :=
        List.perm_middle
      simpa only [gone, dropped_pop, expired_pop, released_pop, List.map_append, List.map_cons,
        List.map_nil, List.append_assoc, List.cons_append, List.nil_append] using hm
    · simp [hf, Interface.ipv4Frame?]
  | flies hp hf hi =>
    exact ⟨rfl, .rfl, .refl _, by simp [hp, hf, hi], by simp [Event.dropped?],
      by simp [Event.expired?], by simp [Event.released]⟩
  | other hi hd he hr =>
    refine ⟨rfl, .rfl, .refl _, ?_, by simp [hd], by simp [he], by simp [hr]⟩
    by_cases hp : pass?.isSome
    · simp [hp, hi hp]
    · simp [hp]

theorem follows_of_notes {events : List Event}
    (h : events.foldlM (note pass?) l = some l') : Follows pass? events l l' := by
  induction events generalizing l with
  | nil =>
    cases h
    exact ⟨rfl, .rfl, .refl _, by simp, by simp, by simp, by simp⟩
  | cons event events ih =>
    obtain ⟨m, hm, h⟩ := Option.bind_eq_some_iff.mp h
    have h₁ := follows_of_noted (noted_note hm)
    have h₂ := ih h
    constructor
    · exact h₂.entered.trans h₁.entered
    · exact h₂.entries.trans h₁.entries
    · exact h₂.line.trans h₁.line
    · rw [h₂.frames, h₁.frames]
      cases pass? with
      | none => simp
      | some pass =>
        simp only [Option.isSome_some, if_true, List.append_assoc, ← List.filterMap_append]
        rfl
    · rw [h₂.dropped, h₁.dropped, List.append_assoc, ← List.map_append, ← List.filterMap_append]
      rfl
    · rw [h₂.expired, h₁.expired, List.append_assoc, ← List.map_append, ← List.filterMap_append]
      rfl
    · rw [h₂.released, h₁.released, List.append_assoc, ← List.map_append, ← List.flatMap_append]
      rfl

/-- Datagrams with their numbers, the first of which is zero. -/
def numbered (ds : List Datagram) : List Entry := ds.zipIdx.map fun (d, number) => ⟨number, d⟩

theorem numbered_append (ds : List Datagram) (d : Datagram) :
    numbered (ds ++ [d]) = numbered ds ++ [⟨ds.length, d⟩] := by
  simp [numbered, List.zipIdx_append]

theorem getElem?_of_mem_numbered {ds : List Datagram} {e : Entry} (h : e ∈ numbered ds) :
    ds[e.number]? = some e.datagram := by
  obtain ⟨⟨d, number⟩, hm, rfl⟩ := List.mem_map.mp h
  exact List.mem_zipIdx_iff_getElem?.mp hm

theorem number_lt {ds : List Datagram} {e : Entry} (h : e ∈ numbered ds) :
    e.number < ds.length :=
  (List.getElem?_eq_some_iff.mp (getElem?_of_mem_numbered h)).1

theorem map_numbered (ds : List Datagram) : (numbered ds).map Entry.datagram = ds := by
  simp [numbered, Function.comp_def]

theorem numbered_pairwise (ds : List Datagram) :
    (numbered ds).Pairwise (·.number < ·.number) := by
  induction ds using List.reverseRecOn with
  | nil => exact .nil
  | append_singleton ds d ih =>
    rw [numbered_append, List.pairwise_append]
    refine ⟨ih, List.pairwise_singleton _ _, ?_⟩
    intro a ha b hb
    obtain rfl := List.mem_singleton.mp hb
    exact number_lt ha

/-- A ledger that was kept throughout a history. -/
structure Balanced (history : List Made) (l : Ledger) : Prop where
  entered : l.entered = (Interface.submitted history).length
  entries : l.entries.Perm (numbered (Interface.submitted history))
  line : l.line.Pairwise (·.number < ·.number)
  retained : l.retained = []
  frames : l.sent.map (·.2) ++ l.inFlight.toList = Interface.passFrames history
  dropped : l.dropped.map Entry.content =
    ((Interface.happened history).filterMap Event.dropped?).map Datagram.content
  expired : l.expired.map Entry.content =
    ((Interface.happened history).filterMap Event.expired?).map Datagram.content
  released : l.released.map Entry.content =
    ((Interface.happened history).flatMap Event.released).map Datagram.content

theorem entries_enter (l : Ledger) (d : Datagram) :
    (l.enter d).entries.Perm (l.entries ++ [⟨l.entered, d⟩]) := by
  have h : (l.line ++ ⟨l.entered, d⟩ :: l.gone).Perm _ := List.perm_middle
  rw [entries, entries]
  simpa only [enter, line, gone, List.append_assoc, List.cons_append, List.nil_append] using
    h.trans (List.perm_append_singleton _ _).symm

/-- An entry is the newest one, so it goes behind all that waits. -/
theorem balanced_enter {history : List Made} (hb : Balanced history l) (d : Datagram) :
    (l.enter d).entered = (Interface.submitted history ++ [d]).length ∧
      (l.enter d).entries.Perm (numbered (Interface.submitted history ++ [d])) ∧
      (l.enter d).line.Pairwise (·.number < ·.number) := by
  refine ⟨by simp [enter, hb.entered], ?_, ?_⟩
  · refine (l.entries_enter d).trans ?_
    rw [numbered_append, hb.entered]
    exact hb.entries.append_right _
  · have hl : (l.enter d).line = l.line ++ [⟨l.entered, d⟩] := by simp [enter, line]
    rw [hl, List.pairwise_append]
    refine ⟨hb.line, List.pairwise_singleton _ _, ?_⟩
    intro a ha b hm
    obtain rfl := List.mem_singleton.mp hm
    rw [hb.entered]
    exact number_lt (hb.entries.subset (List.mem_append_left _ ha))

theorem balanced_record {history : List Made} {made : Made} (hb : Balanced history l)
    (h : l.record made = some l') : Balanced (history ++ [made]) l' := by
  obtain ⟨m, hn, ⟨⟩⟩ := Option.bind_eq_some_iff.mp h
  have hf := follows_of_notes hn
  -- What the call hands in is entered before the events are noted.
  obtain ⟨he, hp, hl⟩ :
      (made.submitted?.elim l l.enter).entered = (Interface.submitted (history ++ [made])).length ∧
        (made.submitted?.elim l l.enter).entries.Perm
          (numbered (Interface.submitted (history ++ [made]))) ∧
        (made.submitted?.elim l l.enter).line.Pairwise (·.number < ·.number) := by
    rw [Interface.submitted_append]
    cases hs : made.submitted? with
    | none => simpa using ⟨hb.entered, hb.entries, hb.line⟩
    | some d => exact balanced_enter hb d
  -- Nothing but the line is different then.
  obtain ⟨hsent, hflight, hdropped, hexpired, hreleased⟩ :
      (made.submitted?.elim l l.enter).sent = l.sent ∧
        (made.submitted?.elim l l.enter).inFlight = l.inFlight ∧
        (made.submitted?.elim l l.enter).dropped = l.dropped ∧
        (made.submitted?.elim l l.enter).expired = l.expired ∧
        (made.submitted?.elim l l.enter).released = l.released := by
    cases made.submitted? with
    | none => exact ⟨rfl, rfl, rfl, rfl, rfl⟩
    | some d => exact ⟨rfl, rfl, rfl, rfl, rfl⟩
  constructor
  · exact hf.entered.trans he
  · rw [entries, line_rejoin]
    exact hf.entries.trans hp
  · rw [line_rejoin]
    exact hl.sublist hf.line
  · rfl
  · have hframes := hf.frames
    rw [hsent, hflight, hb.frames] at hframes
    simpa [Interface.passFrames, rejoin] using hframes
  · have := hf.dropped
    rw [hdropped, hb.dropped] at this
    simpa [Interface.happened, rejoin] using this
  · have := hf.expired
    rw [hexpired, hb.expired] at this
    simpa [Interface.happened, rejoin] using this
  · have := hf.released
    rw [hreleased, hb.released] at this
    simpa [Interface.happened, rejoin] using this

theorem balanced_ofHistory {history : List Made} (h : ofHistory history = some l) :
    Balanced history l := by
  induction history using List.reverseRecOn generalizing l with
  | nil =>
    cases h
    exact ⟨rfl, .rfl, .nil, rfl, rfl, rfl, rfl, rfl⟩
  | append_singleton history made ih =>
    rw [ofHistory, List.foldlM_append] at h
    obtain ⟨m, hm, h⟩ := Option.bind_eq_some_iff.mp h
    obtain ⟨_, hr, ⟨⟩⟩ := Option.bind_eq_some_iff.mp h
    exact balanced_record (ih hm) hr

theorem Balanced.sent_subperm {history : List Made} (hb : Balanced history l) :
    (l.sent.map (·.1)).Subperm (numbered (Interface.submitted history)) := by
  have hs : (l.sent.map (·.1)).Sublist l.entries := by
    simp only [Ledger.entries, gone, List.append_assoc]
    exact (List.sublist_append_left _ _).trans (List.sublist_append_right _ _)
  exact hs.subperm.trans hb.entries.subperm

/-- A datagram that was sent is the one that was handed in with its number. -/
theorem Balanced.getElem?_of_sent {history : List Made} (hb : Balanced history l)
    {p : Entry × Bytes} (hp : p ∈ l.sent) :
    (Interface.submitted history)[p.1.number]? = some p.1.datagram :=
  getElem?_of_mem_numbered (hb.sent_subperm.subset (List.mem_map_of_mem hp))

end Ledger
end LinkLayer
