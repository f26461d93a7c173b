import Mathlib.Algebra.BigOperators.Group.List.Basic
import LinkLayer.Proofs.Faultless

/-!
What an interface counts on an adapter that never fails. Counters are added one by one, and what a
call adds depends on the situation before it alone. Main statements: what is added by sending and by
receiving (`counters_sendQueued`, `counters_receiveWaiting`).
-/
namespace LinkLayer

open Interface (Pass)

namespace Counters

/-- Puts counters together one by one. -/
def zipWith (f : Nat → Nat → Nat) (c c' : Counters) : Counters where
  read := ⟨f c.read.total c'.read.total, f c.read.failed c'.read.failed⟩
  write := ⟨f c.write.total c'.write.total, f c.write.failed c'.write.failed⟩
  receive := ⟨f c.receive.total c'.receive.total, f c.receive.good c'.receive.good,
    f c.receive.bad c'.receive.bad⟩
  process := ⟨f c.process.broadcastIp c'.process.broadcastIp,
    f c.process.normalIp c'.process.normalIp, f c.process.arp c'.process.arp,
    f c.process.badIp c'.process.badIp, f c.process.badArp c'.process.badArp⟩
  send := ⟨f c.send.dequeued c'.send.dequeued, f c.send.badLength c'.send.badLength,
    f c.send.badOptions c'.send.badOptions, f c.send.badHost c'.send.badHost,
    f c.send.badNetwork c'.send.badNetwork, f c.send.ip c'.send.ip, f c.send.arp c'.send.arp,
    f c.send.arpFailed c'.send.arpFailed⟩
  arp := ⟨f c.arp.inputErrors c'.arp.inputErrors, f c.arp.opcodeErrors c'.arp.opcodeErrors,
    f c.arp.requests c'.arp.requests, f c.arp.answers c'.arp.answers,
    f c.arp.queued c'.arp.queued, f c.arp.dequeued c'.arp.dequeued,
    f c.arp.requeued c'.arp.requeued⟩
  totals := ⟨f c.totals.sentBytes c'.totals.sentBytes,
    f c.totals.receivedBytes c'.totals.receivedBytes, f c.totals.dropped c'.totals.dropped,
    f c.totals.expired c'.totals.expired⟩

instance : AddCommMonoid Counters where
  add := zipWith (· + ·)
  zero := {}
  nsmul n := zipWith (fun _ x => n * x) {}
  add_assoc a b c := by
    change zipWith _ (zipWith _ a b) c = zipWith _ a (zipWith _ b c)
    simp only [zipWith, Nat.add_assoc]
  add_comm a b := by
    change zipWith _ a b = zipWith _ b a
    simp only [zipWith, Nat.add_comm]
  zero_add a := by
    change zipWith _ {} a = a
    simp only [zipWith, Nat.zero_add]
  add_zero a := rfl
  nsmul_zero a := by
    change zipWith _ {} a = {}
    simp only [zipWith, Nat.zero_mul]
  nsmul_succ n a := by
    change zipWith _ {} a = zipWith _ (zipWith _ {} a) a
    simp only [zipWith, Nat.succ_mul]

theorem add_eq (c c' : Counters) : c + c' = zipWith (· + ·) c c' := rfl

theorem nsmul_eq (n : Nat) (c : Counters) : n • c = zipWith (fun _ x => n * x) {} c := rfl

end Counters

/-- What settling one datagram adds to the counters. -/
def Plan.cost (pass : Pass) (d : Datagram) : Plan → Counters
  | expire => { totals.expired := 1 }
  | refuse reason => { (Pass.countTaken {} pass).refuse reason with totals.dropped := 1 }
  | send _ _ =>
    { Pass.countTaken {} pass with
      write.total := 1, send.ip := 1, totals.sentBytes := d.ipLength }
  | ask _ =>
    Pass.countWaiting { Pass.countTaken {} pass with
      write.total := 1, send.arp := 1, totals.sentBytes := 42 } pass

namespace Bearings

/-- What a pass adds to the counters. -/
def passCost (b : Bearings) (pass : Pass) (now : Time) (ds : List Datagram) : Counters :=
  (ds.map fun d => (b.plan now d).cost pass d).sum

/-- What answering a message adds to the counters. -/
def answerCost (b : Bearings) (message : Arp.Message) : Counters :=
  if message.targetIp = b.config.address then
    match message.operation with
    | .request =>
      { write.total := 1, send.arp := 1, arp.requests := 1, totals.sentBytes := 42 }
    | .reply => { arp.answers := 1 }
  else 0

end Bearings

namespace Situation

/-- What hearing a message adds to the counters, on top of its frame. -/
def hearCost (v : Situation) (now : Time) (message : Arp.Message) : Counters :=
  let bearings := { v.bearings with cache := v.bearings.cache.learn message }
  bearings.answerCost message + bearings.passCost .later now v.deferred

/-- What handling a frame adds to the counters. -/
def takeInCost (v : Situation) (now : Time) (bytes : Bytes) : Counters :=
  match Ethernet.handledKind bytes with
  | .error error => (Counters.countKind {} (.error error)).dropInbound
  | .ok .ipv4 =>
    match Ipv4.Packet.ofFrame ⟨bytes⟩ with
    | .error _ => (Counters.countKind {} (.ok .ipv4)).refuseIp.dropInbound
    | .ok _ => Counters.countKind {} (.ok .ipv4) + { totals.receivedBytes := bytes.length }
  | .ok .arp =>
    match Arp.Message.ofFrame ⟨bytes⟩ with
    | .error reason =>
      ((Counters.countKind {} (.ok .arp)).refuseArp reason).refuseArpFrame.dropInbound
    | .ok message =>
      Counters.countKind {} (.ok .arp) + { totals.receivedBytes := bytes.length } +
        v.hearCost now message
  | .ok kind => Counters.countKind {} (.ok kind) + { totals.receivedBytes := bytes.length }

/-- What reading these frames and handling each of them adds to the counters. One more read finds
none. -/
def intakeCost (v : Situation) : Clock → List Bytes → Counters
  | _, [] => { read.total := 1 }
  | clock, bytes :: frames =>
    { read.total := 1 } + v.takeInCost clock.later.time bytes +
      (v.takeIn clock.later.time bytes).intakeCost clock.nextFrame frames

/-- What is in the inbox does not matter to what is counted for these frames. -/
theorem intakeCost_inbox (v : Situation) (clock : Clock) (frames inbox : List Bytes) :
    { v with inbox }.intakeCost clock frames = v.intakeCost clock frames := by
  induction frames generalizing v clock with
  | nil => rfl
  | cons bytes frames ih =>
    rw [intakeCost, takeIn_inbox, ih]
    rfl

end Situation

namespace Interface

variable {now : Time} {clock : Clock} {pass : Pass} {d : Datagram} {s t : Interface Adapter}
  {events : List Event}

section Transport

variable {τ : Type} [FiniteTransport τ] {s t : Interface τ}

theorem counters_settled {value : Option Datagram}
    (h : Settled pass clock d s { value, state := t, events }) (hn : Unfailed events)
    (hc : clock.Agrees now d) :
    t.counters = s.counters + (s.bearings.plan now d).cost pass d := by
  have hage : d.isExpired clock.time = d.isExpired now := hc 0 0
  cases h with
  | expired he =>
    rw [s.bearings.plan_of_expired (hage ▸ he)]
    rfl
  | sent he hd =>
    cases hd with
    | @sent hop mac framer t events hr ho =>
      have hp : s.bearings.plan now d = .send hop mac := Bearings.plan_of_resolved (hage ▸ he) hr
      rw [hp]
      cases ho
      cases pass <;> rfl
  | waits he hd =>
    cases hd with
    | @deferred hop t events hr ha =>
      have hp : s.bearings.plan now d = .ask hop := Bearings.plan_of_unresolved (hage ▸ he) hr
      rw [hp]
      cases ha with
      | failed ho =>
        cases ho
        exact absurd hn (not_unfailed (List.mem_cons_of_mem _ List.mem_cons_self))
      | taken ho =>
        cases ho
        cases pass <;> rfl
  | @dropped reason t events he hd =>
    cases hd with
    | failed hr ho =>
      cases ho
      exact absurd hn (not_unfailed List.mem_cons_self)
    | refused hr =>
      have hp : s.bearings.plan now d = .refuse reason := Bearings.plan_of_refused (hage ▸ he) hr
      rw [hp]
      cases reason <;> cases pass <;> rfl

theorem counters_passed {ds : List Datagram} {o : Outcome (Interface τ) (List Datagram)}
    (h : Passed pass clock ds s o) (hn : Unfailed o.events) (hc : ∀ d ∈ ds, clock.Agrees now d) :
    o.state.counters = s.counters + s.bearings.passCost pass now ds := by
  induction h with
  | nil => exact (add_zero _).symm
  | gone h hp ih | waits h hp ih =>
    obtain ⟨hn, hn'⟩ := unfailed_append.mp hn
    obtain ⟨hd, hrest⟩ := List.forall_mem_cons.mp hc
    rw [ih hn' fun e he => (hrest e he).after, counters_settled h hn hd,
      bearings_of_sends (sends_of_settled h), add_assoc]
    rfl

theorem counters_answered {message : Arp.Message}
    (h : Answered now message s { value := (), state := t, events }) (hn : Unfailed events) :
    t.counters = s.counters + s.bearings.answerCost message := by
  cases h with
  | notOurs ht =>
    have hc : s.bearings.answerCost message = 0 := if_neg ht
    rw [hc, add_zero]
  | told ht ho =>
    have hc : s.bearings.answerCost message = { arp.answers := 1 } := by
      rw [Bearings.answerCost, ho]
      exact if_pos ht
    rw [hc]
    rfl
  | asked ht ho ha =>
    have hc : s.bearings.answerCost message =
        { write.total := 1, send.arp := 1, arp.requests := 1, totals.sentBytes := 42 } := by
      rw [Bearings.answerCost, ho]
      exact if_pos ht
    rw [hc]
    cases ha with
    | failed ho =>
      cases ho
      exact absurd hn (not_unfailed (List.mem_cons_of_mem _ List.mem_cons_self))
    | taken ho =>
      cases ho
      rfl

theorem counters_heard {message : Arp.Message}
    (h : Heard clock message s { value := (), state := t, events }) (hn : Unfailed events)
    (hc : ∀ d ∈ s.deferred.toList, clock.Agrees now d) :
    t.counters = s.counters + (s.bearings.answerCost message +
      (s.heeding message).passCost .later now s.deferred.toList) := by
  cases h with
  | @intro t u waiting events more ha hp =>
    obtain ⟨hn, hn'⟩ := unfailed_append.mp hn
    have hanswer := counters_answered ha (List.forall_mem_cons.mp hn).2
    obtain ⟨_, _, _, rfl⟩ := sends_of_answered ha
    have hpass := counters_passed hp hn' fun d hd => (hc d hd).later
    rw [← add_assoc]
    exact hpass.trans (congrArg (· + _) hanswer)

end Transport

theorem counters_takenIn {bytes : Bytes}
    (h : TakenIn clock bytes s { value := (), state := t, events }) (hw : s.Works)
    (hc : ∀ d ∈ s.situation.deferred, clock.Agrees now d) :
    t.counters = s.counters + s.situation.takeInCost clock.time bytes := by
  obtain ⟨-, hn⟩ := local_works.takenIn h hw
  rw [Situation.takeInCost]
  cases h with
  | unknown hk =>
    rw [hk]
    rfl
  | broadcast hk =>
    simp only [hk]
    rw [← add_assoc]
    rfl
  | queued hk hp =>
    simp only [hk, hp]
    rw [← add_assoc]
    rfl
  | badIp hk hp =>
    simp only [hk, hp]
    rfl
  | @heard message t events hk hm ha =>
    simp only [hk, hm]
    have hc : t.counters = s.counters + Counters.countKind {} (.ok .arp) +
        s.situation.hearCost clock.time message :=
      counters_heard ha hn fun d hd => (hc d hd).time
    have hr : t.counters.receiveBytes bytes.length =
        t.counters + { totals.receivedBytes := bytes.length } := rfl
    rw [hr, hc, add_right_comm, ← add_assoc, ← add_assoc]
  | @badArp reason hk hm =>
    simp only [hk, hm]
    cases reason with
    | malformed error => cases error <;> rfl
    | _ => rfl

theorem counters_frameRead {result : Except TransportError (Option Bytes)}
    (h : FrameRead now s { value := result, state := t, events }) (hw : s.Works) :
    t.counters = s.counters + { read.total := 1 } := by
  cases h with
  | frame | nothing => rfl
  | failed hr =>
    rw [hw.receive] at hr
    cases hr

theorem counters_drained (h : Drained clock s events t) (hw : s.Works)
    (hi : [] ∉ s.situation.inbox) (hc : ∀ d ∈ s.situation.deferred, clock.Agrees now d) :
    t.counters = s.counters + s.situation.intakeCost clock s.situation.inbox := by
  induction h with
  | ended h hn =>
    obtain ⟨hnil, -, -⟩ := situation_unread h hn hw hi
    rw [hnil, counters_frameRead h hw]
    rfl
  | @frame clock bytes s t u v events more rest hr ht hd ih =>
    obtain ⟨inbox, hv, hs, hworks⟩ := situation_frameRead hr hw
    have hread := counters_frameRead hr hw
    have hlater : ∀ d ∈ t.situation.deferred, clock.later.Agrees now d := by
      rw [hs]
      exact fun d hd => (hc d hd).later
    have htaken := counters_takenIn ht hworks hlater
    obtain ⟨hu, hworks⟩ := situation_takenIn ht hworks hlater
    rw [hs] at hu htaken
    have hdeferred := Situation.deferred_takeIn { s.situation with inbox } clock.later.time bytes
    have hnext : ∀ d ∈ u.situation.deferred, clock.nextFrame.Agrees now d := by
      rw [hu]
      exact fun d hd => (hc d (hdeferred hd)).nextFrame
    have hinbox := congrArg Situation.inbox hu
    rw [Situation.inbox_takeIn] at hinbox
    rw [ih hworks (hinbox ▸ fun hm => hi (hv ▸ List.mem_cons_of_mem _ hm)) hnext, htaken, hread,
      hinbox, hu, Situation.takeIn_inbox, Situation.intakeCost_inbox, hv, Situation.intakeCost,
      add_assoc, add_assoc, add_assoc]
    rfl

/-- Sending adds what the pass through the queue adds. -/
theorem counters_sendQueued (hu : s.isUp = true) (hw : s.Works)
    (hc : ∀ d ∈ s.situation.sendQueue, clock.Agrees now d) :
    ((perform clock .sendQueued).run s).state.counters =
      s.counters + s.situation.bearings.passCost .first now s.situation.sendQueue := by
  have h := passed_settleAll .first clock s.sendQueue.toList s
  simp only [run_sendQueued hu]
  exact counters_passed h (local_works.passed h hw).2 hc

/-- Receiving adds what is added for each frame in the inbox, and the last read. -/
theorem counters_receiveWaiting (hu : s.isUp = true) (hw : s.Works)
    (hi : [] ∉ s.situation.inbox) (hc : ∀ d ∈ s.situation.deferred, clock.Agrees now d) :
    ((perform clock .receiveWaiting).run s).state.counters =
      s.counters + s.situation.intakeCost clock s.situation.inbox :=
  counters_drained (drained_perform hu clock) hw hi hc

/-- Taking a datagram adds nothing if none has expired. -/
theorem counters_takeReceived
    (hq : ∀ d ∈ s.situation.receiveQueue, d.isExpired clock.time = false) :
    ((perform clock .takeReceived).run s).state.counters = s.counters := by
  have hnone : (s.receiveQueue.dequeue clock.time).expired = [] := by
    refine List.eq_nil_iff_forall_not_mem.mpr fun d hm => ?_
    have hmem : d ∈ s.receiveQueue.toList := by
      rw [← Queue.dequeue_append s.receiveQueue clock.time]
      simp [hm]
    exact absurd (Queue.isExpired_of_mem_expired hm) (by simp [hq d hmem])
  simp only [perform, run_takeReceived, Action.run_bind, Action.run_pure, hnone, List.length_nil,
    Nat.add_zero]

end Interface
end LinkLayer
