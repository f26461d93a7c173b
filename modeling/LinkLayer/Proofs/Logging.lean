import Mathlib.Algebra.BigOperators.Group.List.Basic
import LinkLayer.Proofs.Accounts
import LinkLayer.Proofs.Records

/-!
What the log says. A line of the log stands for one event, and most events have a line. Main
statement: since the counters were cleared, the lines, the counters and the frames that the adapter
took agree with each other (`log_agrees`).
-/
namespace LinkLayer

/-- How many lines have a message. -/
def Log.said (message : String) (lines : List Log.Line) : Nat :=
  lines.countP (·.message = message)

theorem Log.said_cons (message : String) (line : Log.Line) (lines : List Log.Line) :
    Log.said message (line :: lines) =
      Log.said message lines + if line.message = message then 1 else 0 := by
  simp only [Log.said, List.countP_cons, decide_eq_true_eq]

namespace Account

/-- The messages of the lines that the events of an account have in the log. -/
def texts : Account → List String
  | writes => ["frame written", "write failed"]
  | writeFailures => ["write failed"]
  | frames => ["frame read"]
  | readFailures => ["read failed"]
  | messages => ["next hop unresolved, deferring", "answering ARP request"]
  | messageFailures => ["ARP frame not sent"]
  | questions => ["answering ARP request"]
  | answers => ["ARP reply received"]
  | drops => ["outbound datagram dropped", "deferred datagram dropped", "inbound frame dropped"]
  | expiries => []

theorem nodup_texts (account : Account) : account.texts.Nodup := by
  cases account <;> decide

/-- But for expiries an account is told by the messages of its lines. -/
theorem covers_eq_any {account : Account} (ha : account ≠ expiries) (name : String)
    (event : Event) :
    account.covers event = (event.line? name).any (·.message ∈ account.texts) := by
  cases account <;> cases event <;> first | rfl | exact absurd rfl ha

end Account

namespace Log

theorem sum_indicator {messages : List String} (hn : messages.Nodup) (said : String) :
    (messages.map fun message => if said = message then 1 else 0).sum =
      if said ∈ messages then 1 else 0 := by
  induction messages with
  | nil => rfl
  | cons message messages ih =>
    obtain ⟨hm, hn⟩ := List.nodup_cons.mp hn
    simp only [List.map_cons, List.sum_cons, ih hn, List.mem_cons]
    by_cases h : said = message
    · subst h
      simp [hm]
    · simp [h]

/-- Lines are counted message by message. -/
theorem sum_said {messages : List String} (hn : messages.Nodup) (lines : List Line) :
    (messages.map (said · lines)).sum = lines.countP (·.message ∈ messages) := by
  induction lines with
  | nil => simp [said]
  | cons line lines ih =>
    simp only [said_cons, List.sum_map_add, ih, sum_indicator hn, List.countP_cons,
      decide_eq_true_eq]

end Log

/-- The lines of written frames state their lengths. -/
theorem Event.fields_written (name : String) (events : List Event) :
    ((events.filterMap (Event.line? name)).filter (·.message = "frame written")).map (·.fields) =
      (events.filterMap Event.written?).map fun frame => [("length", toString frame.length)] := by
  rw [List.filter_filterMap, List.map_filterMap, List.map_filterMap]
  refine congrArg (List.filterMap · events) (funext fun event => ?_)
  cases event <;> rfl

namespace Interface

variable {τ : Type} [FiniteTransport τ] {now : Time} {clock : Clock} {s : Interface τ}

/-- The lines of an account since the counters were cleared are as many as its counter says. -/
theorem said_run (h : s.counters = {}) (steps : List (Step τ)) (name : String)
    {account : Account} (ha : account ≠ .expiries) :
    (account.texts.map (Log.said ·
        ((happened (sinceCleared (run steps s).history)).filterMap (Event.line? name)))).sum =
      account.counter (run steps s).state.counters := by
  rw [Log.sum_said account.nodup_texts, List.countP_filterMap, accounted_run h steps account]
  refine congrArg (List.countP · _) (funext fun event => ?_)
  rw [account.covers_eq_any ha name event]
  cases event.line? name <;> rfl

theorem sinceCleared_suffix (history : List Made) : sinceCleared history <:+ history := by
  induction history with
  | nil => exact List.suffix_rfl
  | cons made history ih =>
    rw [sinceCleared]
    split
    · exact ih.trans (List.suffix_cons made history)
    · exact List.suffix_rfl

/-- Since the counters were cleared, the log, the counters and what the adapter took agree with each
other, whatever the host does and whatever becomes of the adapter. -/
theorem log_agrees {config : Config} {transport : τ}
    (hc : ((create config now).run transport).value = .ok s) (steps : List (Step τ))
    (name : String) :
    let left := run steps s
    let c := left.state.counters
    let events := happened (sinceCleared left.history)
    let frames := events.filterMap Event.written?
    let lines := events.filterMap (Event.line? name)
    let said message := lines.countP (·.message = message)
    (∀ (record : Transport.Record τ) clock call (u : Interface τ),
        let o := (perform clock call).run u
        record.taken o.state.device.transport =
          record.taken u.device.transport ++ o.events.filterMap Event.written?) ∧
      (∀ record : Transport.Record τ, (∀ change, .adapter change ∈ steps → record.Spared change) →
        ∃ before, record.taken left.state.device.transport = before ++ frames) ∧
      (lines.filter (·.message = "frame written")).map (·.fields) =
        frames.map (fun frame => [("length", toString frame.length)]) ∧
      c.write.failed ≤ c.write.total ∧
      frames.length = c.write.total - c.write.failed ∧
      said "frame written" = c.write.total - c.write.failed ∧
      said "write failed" = c.write.failed ∧
      said "frame read" = c.receive.total ∧
      said "read failed" = c.read.failed ∧
      said "ARP frame not sent" = c.send.arpFailed ∧
      c.arp.requests ≤ c.send.arp ∧
      said "next hop unresolved, deferring" = c.send.arp - c.arp.requests ∧
      said "answering ARP request" = c.arp.requests ∧
      said "ARP reply received" = c.arp.answers ∧
      said "outbound datagram dropped" + said "deferred datagram dropped" +
        said "inbound frame dropped" = c.totals.dropped := by
  intro left c events frames lines said
  have hsaid : ∀ account : Account, account ≠ .expiries →
      (account.texts.map said).sum = account.counter c :=
    fun _ => said_run (counters_of_create hc) steps name
  have hfields := Event.fields_written name events
  have hlength : said "frame written" = frames.length := by
    have hall := congrArg List.length hfields
    simp only [List.length_map] at hall
    rw [← hall]
    exact List.countP_eq_length_filter
  have hwrites := hsaid .writes (by decide)
  have hfailures := hsaid .writeFailures (by decide)
  have hmessages := hsaid .messages (by decide)
  have hquestions := hsaid .questions (by decide)
  simp only [Account.texts, Account.counter, List.map_cons, List.map_nil, List.sum_cons,
    List.sum_nil, Nat.add_zero] at hwrites hfailures hmessages hquestions
  refine ⟨?_, ?_, hfields, ?_, ?_, ?_, hfailures, hsaid .frames (by decide),
    hsaid .readFailures (by decide), hsaid .messageFailures (by decide),
    ?_, ?_, hquestions, hsaid .answers (by decide), ?_⟩
  · intro record clock call u
    exact (recorded_perform record clock call u).taken
  · intro record hsteps
    obtain ⟨earlier, hearlier⟩ := sinceCleared_suffix left.history
    refine ⟨record.taken s.device.transport ++ (happened earlier).filterMap Event.written?, ?_⟩
    have hall : happened left.history = happened earlier ++ events := by
      rw [← hearlier]
      exact List.flatMap_append
    rw [(recordKept_run hsteps s).taken, hall, List.filterMap_append, List.append_assoc]
  · omega
  · omega
  · omega
  · omega
  · omega
  · have hdrops := hsaid .drops (by decide)
    simp only [Account.texts, Account.counter, List.map_cons, List.map_nil, List.sum_cons,
      List.sum_nil, Nat.add_zero] at hdrops
    omega

/-- A neighbour is asked for, then the adapter fails. A question comes in, and neither the answer
nor the second request for the neighbour can be written. -/
theorem log_agrees_failed_retry :
    ∃ s : Interface (Recorded Adapter),
      ((create { address := ⟨192, 168, 1, 1⟩, mask := ⟨255, 255, 255, 0⟩ } 0).run
        ({ adapter := { address := {} } } : Recorded Adapter)).value = .ok s ∧
      let question := Arp.Message.whoHas ⟨2, 0, 0, 0, 0, 3⟩ ⟨192, 168, 1, 3⟩ ⟨192, 168, 1, 1⟩
      let steps : List (Step (Recorded Adapter)) := [.call 0 (.setUp true),
        .call 1 (.submit (.make { dest := ⟨192, 168, 1, 2⟩ } [] [7])), .call 2 .sendQueued,
        .adapter fun recorded => { recorded with
          adapter := { recorded.adapter.inject question.toFrame.bytes with
            faults.transmit := true } },
        .call 3 .receiveWaiting]
      let left := run steps s
      let lines := (happened (sinceCleared left.history)).filterMap (Event.line? "eth0")
      left.state.device.transport.taken =
          [(Arp.Message.whoHas {} ⟨192, 168, 1, 1⟩ ⟨192, 168, 1, 2⟩).toFrame.bytes] ∧
        lines.countP (·.message = "frame written") = 1 ∧
        lines.countP (·.message = "write failed") = 2 ∧
        lines.countP (·.message = "ARP frame not sent") = 2 ∧
        lines.countP (·.message = "next hop unresolved, deferring") = 2 ∧
        lines.countP (·.message = "answering ARP request") = 1 := by
  obtain ⟨s, hc⟩ : ∃ s, ((create { address := ⟨192, 168, 1, 1⟩, mask := ⟨255, 255, 255, 0⟩ } 0).run
      ({ adapter := { address := {} } } : Recorded Adapter)).value = .ok s := ⟨_, rfl⟩
  refine ⟨s, hc, ?_⟩
  intro question steps left lines
  obtain ⟨-, -, -, -, -, hwritten, hfailed, -, -, harp, -, hdeferring, hquestions, -⟩ :=
    log_agrees hc steps "eth0"
  refine ⟨?_, hwritten.trans ?_, hfailed.trans ?_, harp.trans ?_, hdeferring.trans ?_,
    hquestions.trans ?_⟩
  all_goals
    cases hc
    decide +kernel

end Interface
end LinkLayer
