import LinkLayer.Proofs.FailedWrites

/-!
Requests that only look. Main statement: a run with more of them, on an interface with another name
and another trace, hears, binds, queues, offers and answers the same (`observation_unnoticed`).
-/
namespace LinkLayer

/-- Related adapters take and give the same frames, now and later, and asking one of them for its
address makes no difference to that. -/
structure Transport.ApartInAddress {τ : Type} [Transport τ] (alike : τ → τ → Prop) : Prop where
  refl : ∀ a, alike a a
  transmit : ∀ {a b : τ}, alike a b → ∀ frame,
    (Transport.transmit a frame).1 = (Transport.transmit b frame).1 ∧
      alike (Transport.transmit a frame).2 (Transport.transmit b frame).2
  receive : ∀ {a b : τ}, alike a b → (Transport.receive a).1 = (Transport.receive b).1 ∧
    alike (Transport.receive a).2 (Transport.receive b).2
  readAddress_left : ∀ {a b : τ}, alike a b → alike (Transport.readAddress a).2 b
  readAddress_right : ∀ {a b : τ}, alike a b → alike a (Transport.readAddress b).2

namespace Interface

/-- Whether a request only looks, or changes only what such requests show. -/
def Request.observes : Request → Bool
  | macAddress | hardwareTypes | selectType _ | selectedType | status | clearCounters | bindings
  | trace | clearTrace => true
  | setMacAddress _ | clearBindings => false

def Call.observes : Call → Bool
  | control request => request.observes
  | _ => false

variable {τ : Type} {alike : τ → τ → Prop} {s t : Interface τ}

/-- The interfaces are the same for all that does not look, and so are their adapters. -/
def Unobserved (alike : τ → τ → Prop) (s t : Interface τ) : Prop :=
  ∃ aside, t = s.beside aside ∧ alike s.device.transport aside.device.transport

theorem oblivious_unobserved : Oblivious (Unobserved alike) where
  differ := by
    rintro s _ ⟨aside, rfl, -⟩
    exact ⟨aside, rfl⟩
  change := by
    rintro f hf s _ ⟨aside, rfl, hd⟩
    have hdevice : (f s).device = s.device := congrArg Aside.device (aside_of_change hf s)
    refine ⟨aside, hf s aside, ?_⟩
    rwa [hdevice]
  tally := by
    rintro f - s _ ⟨aside, rfl, hd⟩
    exact ⟨{ aside with counters := f aside.counters }, rfl, hd⟩

section Calls

variable [FiniteTransport τ] (ha : Transport.ApartInAddress alike) (now : Time) (clock : Clock)
include ha

theorem unobserved_write (frame : Bytes) :
    Action.Uniform (Unobserved alike) some (write now frame : Action (Interface τ) _) := by
  rintro s _ ⟨aside, rfl, hd⟩
  obtain ⟨hvalue, hstate⟩ := ha.transmit hd frame
  rcases h : Transport.transmit s.device.transport frame with ⟨result, transport⟩
  rcases h' : Transport.transmit aside.device.transport frame with ⟨other, transport'⟩
  rw [h, h'] at hvalue hstate
  obtain rfl : result = other := hvalue
  simp only [write, onDevice, count, Action.run_bind, Action.run_onPart, Action.run_modify,
    Action.run_pure]
  simp only [Action.run, Device.write, beside, h, h']
  cases result with
  | ok _ | error _ => exact ⟨rfl, ⟨⟨⟨transport', _⟩, _, _, _, _, _⟩, rfl, hstate⟩, rfl⟩

theorem unobserved_read :
    Action.Uniform (Unobserved alike) some (read now : Action (Interface τ) _) := by
  rintro s _ ⟨aside, rfl, hd⟩
  obtain ⟨hvalue, hstate⟩ := ha.receive hd
  rcases h : Transport.receive s.device.transport with ⟨result, transport⟩
  rcases h' : Transport.receive aside.device.transport with ⟨other, transport'⟩
  rw [h, h'] at hvalue hstate
  obtain rfl : result = other := hvalue
  simp only [read, onDevice, count, Action.run_bind, Action.run_onPart, Action.run_modify,
    Action.run_pure]
  simp only [Action.run, Device.read, beside, h, h']
  rcases result with error | _ | _ | ⟨b, bytes⟩
  all_goals exact ⟨rfl, ⟨⟨⟨transport', _⟩, _, _, _, _, _⟩, rfl, hstate⟩, rfl⟩

/-- All that does not look does the same. -/
theorem unobserved_perform {call : Call} (hc : call.observes = false) :
    Action.Uniform (Unobserved alike) some (perform clock call : Action (Interface τ) Reply) := by
  have ho : Indifferent (Unobserved alike) := oblivious_unobserved.indifferent
  have he := oblivious_unobserved.exchanging (unobserved_write ha) (unobserved_read ha)
  cases call with
  | output d => exact (ho.output_of_write (unobserved_write ha) _ d).bind fun _ => .pure _
  | control request =>
    cases request with
    | setMacAddress mac =>
      refine Action.Uniform.bind ?_ fun _ => .pure _
      refine ho.get (fun s => ?_) fun _ _ => rfl
      apply Action.Lockstep.seq (.emit rfl)
      exact (ho.modify fun _ _ => rfl).seq (.pure _)
    | clearBindings =>
      refine Action.Uniform.bind ?_ fun _ => .pure _
      refine ho.get (fun s => ?_) fun _ _ => rfl
      apply (ho.modify fun _ _ => rfl).seq
      exact Action.Uniform.seq (.emit _) (.pure _)
    | _ => cases hc
  | _ => exact he.perform clock (by simp) (by simp)

omit ha in
/-- Looking changes only what is kept for those who look. It asks the adapter at most for its
address, and offers it nothing. -/
theorem perform_of_observes {call : Call} (hc : call.observes = true) (s : Interface τ) :
    ∃ aside, ((perform clock call).run s).state = s.beside aside ∧
      (aside.device.transport = s.device.transport ∨
        aside.device.transport = (Transport.readAddress s.device.transport).2) ∧
      ((perform clock call).run s).events.filterMap Event.offered? = [] := by
  cases call with
  | control request =>
    cases request with
    | macAddress =>
      rcases h : Transport.readAddress s.device.transport with ⟨result, transport⟩
      simp only [perform, control, refreshAddress, onDevice, Action.run_bind, Action.run_get,
        Action.run_onPart, Action.run_pure]
      simp only [Action.run, Device.readAddress, h]
      cases result with
      | ok _ | error _ => exact ⟨⟨⟨transport, _⟩, _, _, _, _, _⟩, rfl, .inr rfl, rfl⟩
    | setMacAddress | clearBindings => cases hc
    | _ => exact ⟨⟨⟨s.device.transport, _⟩, _, _, _, _, _⟩, rfl, .inl rfl, rfl⟩
  | _ => cases hc

theorem Unobserved.perform_right {call : Call} (hc : call.observes = true)
    (h : Unobserved alike s t) : Unobserved alike s ((perform clock call).run t).state := by
  obtain ⟨aside, rfl, hd⟩ := h
  obtain ⟨other, hs, ht, -⟩ := perform_of_observes clock hc (s.beside aside)
  refine ⟨other, hs, ?_⟩
  rcases ht with ht | ht
  · rw [ht]
    exact hd
  · rw [ht]
    exact ha.readAddress_right hd

theorem Unobserved.perform_left {call : Call} (hc : call.observes = true)
    (h : Unobserved alike s t) : Unobserved alike ((perform clock call).run s).state t := by
  obtain ⟨aside, rfl, hd⟩ := h
  obtain ⟨other, hs, ht, -⟩ := perform_of_observes clock hc s
  rw [hs]
  refine ⟨aside, rfl, ?_⟩
  rcases ht with ht | ht
  · simp only [beside, ht]
    exact hd
  · simp only [beside, ht]
    exact ha.readAddress_left hd

omit ha in
/-- An interface can be created under any other name and with any other trace that there is room
for. -/
theorem exists_created {config : Config} {transport : τ} {name : String}
    (hr : ∀ a, alike a a) (hc : ((create config now).run transport).value = .ok s)
    (hn : name.isEmpty = false) {traceCapacity : Nat} (hroom : traceCapacity ≤ Trace.maxCapacity) :
    ∃ t, ((create { config with name, traceCapacity } now).run transport).value = .ok t ∧
      Unobserved alike s t := by
  have hvalid : ({ config with name, traceCapacity } : Config).validate = .ok () := by
    obtain ⟨hv, -⟩ := created hc
    simp only [Config.validate] at hv ⊢
    grind
  obtain ⟨hv, htrace, hcache, -⟩ := created hc
  simp only [Action.run, create, hvalid, hv, Device.readAddress, Nat.not_lt.mpr htrace,
    Nat.not_lt.mpr hroom, if_false] at hc ⊢
  rcases h : Transport.readAddress transport with ⟨result, left⟩
  simp only [h] at hc ⊢
  cases result with
  | error error => cases hc
  | ok mac =>
    simp only [Nat.not_lt.mpr hcache, if_false] at hc ⊢
    cases hc
    exact ⟨_, rfl, ⟨⟨left, _⟩, _, _, _, _, _⟩, rfl, hr left⟩

end Calls

/-- The second run has all steps of the first one in the same order. Between them are calls that
only look, and faults of the adapter that only show in its address. -/
inductive Inserted (alike : τ → τ → Prop) : List (Step τ) → List (Step τ) → Prop
  | nil : Inserted alike [] []
  | step {step other : Step τ} {steps others : List (Step τ)} (h : SameStep alike step other)
      (hr : Inserted alike steps others) : Inserted alike (step :: steps) (other :: others)
  | look {clock : Clock} {call : Call} {steps others : List (Step τ)} (hc : call.observes = true)
      (hr : Inserted alike steps others) : Inserted alike steps (.call clock call :: others)
  | fault {change : τ → τ} {steps others : List (Step τ)}
      (h : ∀ a b, alike a b → alike a (change b)) (hr : Inserted alike steps others) :
      Inserted alike steps (.adapter change :: others)

/-- What was done without looking. -/
def undertaken (history : List Made) : List Made := history.filter (!·.call.observes)

/-- Two runs come to the same for all that does not look. -/
structure Unnoticed (alike : τ → τ → Prop) (first second : Left τ) : Prop where
  calls : undertaken first.history = undertaken second.history
  frames : (happened first.history).filterMap Event.offered? =
    (happened second.history).filterMap Event.offered?
  adapters : alike first.state.device.transport second.state.device.transport
  cache : first.state.cache = second.state.cache
  sendQueue : first.state.sendQueue = second.state.sendQueue
  deferred : first.state.deferred = second.state.deferred
  receiveQueue : first.state.receiveQueue = second.state.receiveQueue
  isUp : first.state.isUp = second.state.isUp
  macAddress : first.state.macAddress = second.state.macAddress
  address : first.state.config.address = second.state.config.address
  mask : first.state.config.mask = second.state.config.mask

/-- Each step of the first run is a step of the second one, with nothing put in behind it yet. -/
theorem Inserted.split {steps others before after : List (Step τ)} {step : Step τ}
    (h : Inserted alike steps others) (hs : steps = before ++ step :: after) :
    ∃ before' other after', others = before' ++ other :: after' ∧ SameStep alike step other ∧
      Inserted alike (before ++ [step]) (before' ++ [other]) := by
  induction h generalizing before with
  | nil => simp at hs
  | look hc hr ih =>
    obtain ⟨before', other, after', rfl, hstep, hi⟩ := ih hs
    exact ⟨_ :: before', other, after', rfl, hstep, .look hc hi⟩
  | fault hf hr ih =>
    obtain ⟨before', other, after', rfl, hstep, hi⟩ := ih hs
    exact ⟨_ :: before', other, after', rfl, hstep, .fault hf hi⟩
  | @step first second steps others hsame hr ih =>
    cases before with
    | nil =>
      obtain ⟨rfl, -⟩ := List.cons_eq_cons.mp hs
      exact ⟨[], second, others, rfl, hsame, .step hsame .nil⟩
    | cons first before =>
      obtain ⟨rfl, hrest⟩ := List.cons_eq_cons.mp hs
      obtain ⟨before', other, after', rfl, hstep, hi⟩ := ih hrest
      exact ⟨second :: before', other, after', rfl, hstep, .step hsame hi⟩

variable [FiniteTransport τ] (ha : Transport.ApartInAddress alike)

/-- Frames are offered in what was done without looking, and nowhere else. -/
theorem offered_undertaken (steps : List (Step τ)) (s : Interface τ) :
    (happened (undertaken (run steps s).history)).filterMap Event.offered? =
      (happened (run steps s).history).filterMap Event.offered? := by
  induction steps generalizing s with
  | nil => rfl
  | cons step steps ih =>
    cases step with
    | adapter change => exact ih _
    | call clock call =>
      have hrest := ih ((perform clock call).run s).state
      cases hc : call.observes with
      | true =>
        obtain ⟨-, -, -, hnone⟩ := perform_of_observes clock hc s
        simp only [run, undertaken, happened, List.filter_cons, hc, Bool.not_true,
          Bool.false_eq_true, if_false, List.flatMap_cons, List.filterMap_append, hnone,
          List.nil_append] at hrest ⊢
        exact hrest
      | false =>
        simp only [run, undertaken, happened, List.filter_cons, hc, Bool.not_false, if_true,
          List.flatMap_cons, List.filterMap_append] at hrest ⊢
        rw [hrest]

include ha

theorem unobserved_run {steps others : List (Step τ)} (h : Inserted alike steps others)
    (hs : Unobserved alike s t) :
    Unobserved alike (run steps s).state (run others t).state ∧
      undertaken (run steps s).history = undertaken (run others t).history := by
  induction h generalizing s t with
  | nil => exact ⟨hs, rfl⟩
  | look hc hr ih =>
    obtain ⟨hstate, hhistory⟩ := ih (hs.perform_right ha _ hc)
    refine ⟨hstate, ?_⟩
    simpa [run, undertaken, hc] using hhistory
  | fault h hr ih =>
    obtain ⟨aside, rfl, hd⟩ := hs
    exact ih ⟨{ aside with device.transport := _ }, rfl, h _ _ hd⟩
  | step h hr ih =>
    cases h with
    | adapter h =>
      obtain ⟨aside, rfl, hd⟩ := hs
      exact ih ⟨{ aside with device.transport := _ }, rfl, h _ _ hd⟩
    | @call clock call =>
      cases hc : call.observes with
      | true =>
        obtain ⟨hstate, hhistory⟩ := ih ((hs.perform_right ha clock hc).perform_left ha clock hc)
        refine ⟨hstate, ?_⟩
        simpa [run, undertaken, hc] using hhistory
      | false =>
        have hcall := unobserved_perform ha clock hc hs
        obtain ⟨hstate, hhistory⟩ := ih hcall.state
        have hevents := hcall.shown
        simp only [List.filterMap_some] at hevents
        refine ⟨hstate, ?_⟩
        simp only [run, undertaken, List.filter_cons, hc, Bool.not_false, if_true] at hhistory ⊢
        rw [hcall.value, hevents, hhistory]

theorem unnoticed_run {steps others : List (Step τ)} (h : Inserted alike steps others)
    (hs : Unobserved alike s t) : Unnoticed alike (run steps s) (run others t) := by
  obtain ⟨⟨aside, hstate, hd⟩, hhistory⟩ := unobserved_run ha h hs
  have hframes := offered_undertaken steps s
  rw [hhistory, offered_undertaken others t] at hframes
  constructor
  · exact hhistory
  · exact hframes.symm
  · rw [hstate]
    exact hd
  all_goals
    rw [hstate]
    rfl

/-- Looking is never noticed. Take any run and put in calls that only look and faults that show in
the address of the adapter only, anywhere, on an interface with another name and another trace,
which is created if there is room for the trace. Both runs come to the same otherwise: in every
event and reply of the other calls, in the frames that were offered and those that the adapters
still have to give, and in what the interfaces bind, queue and go by. They do so at their ends and
after each step that both take. -/
theorem observation_unnoticed {config : Config} {time : Time} {transport : τ} {name : String}
    (hc : ((create config time).run transport).value = .ok s) (hn : name ≠ "")
    (traceCapacity : Nat) {steps others : List (Step τ)} (h : Inserted alike steps others) :
    let second := ((create { config with name, traceCapacity } time).run transport).value
    ((∃ t, second = .ok t) ↔ traceCapacity ≤ Trace.maxCapacity) ∧
      ∀ t, second = .ok t → Unnoticed alike (run steps s) (run others t) ∧
        ∀ before step after, steps = before ++ step :: after →
          ∃ before' other after', others = before' ++ other :: after' ∧
            SameStep alike step other ∧
            Unnoticed alike (run (before ++ [step]) s) (run (before' ++ [other]) t) := by
  intro second
  have hname : name.isEmpty = false := by simpa using hn
  have hcreated (hroom : traceCapacity ≤ Trace.maxCapacity) :
      ∃ t, second = .ok t ∧ Unobserved alike s t :=
    exists_created time ha.refl hc hname hroom
  have hroom {t : Interface τ} (ht : second = .ok t) : traceCapacity ≤ Trace.maxCapacity :=
    (created ht).2.1
  refine ⟨⟨fun ⟨_, ht⟩ => hroom ht, fun hr => ?_⟩, fun t ht => ?_⟩
  · obtain ⟨t, ht, -⟩ := hcreated hr
    exact ⟨t, ht⟩
  obtain ⟨t', ht', hs⟩ := hcreated (hroom ht)
  obtain rfl : t = t' := Except.ok.inj (ht.symm.trans ht')
  refine ⟨unnoticed_run ha h hs, ?_⟩
  intro before step after hsteps
  obtain ⟨before', other, after', hothers, hstep, hi⟩ := h.split hsteps
  exact ⟨before', other, after', hothers, hstep, unnoticed_run ha hi hs⟩

end Interface

/-- The same adapter, but for the fault that lets it keep its address to itself. -/
def Adapter.SameFrames (a b : Adapter) : Prop :=
  ∃ readAddress, b = { a with faults.readAddress := readAddress }

theorem Adapter.apartInAddress : Transport.ApartInAddress Adapter.SameFrames where
  refl a := ⟨_, rfl⟩
  transmit := by
    rintro a _ ⟨readAddress, rfl⟩ frame
    simp only [Transport.transmit, Adapter.transmit]
    split
    · exact ⟨rfl, _, rfl⟩
    · split
      · exact ⟨rfl, _, rfl⟩
      · exact ⟨rfl, _, rfl⟩
  receive := by
    rintro a _ ⟨readAddress, rfl⟩
    simp only [Transport.receive, Adapter.receive]
    split
    · exact ⟨rfl, _, rfl⟩
    · cases a.inbox.head? with
      | some frame => exact ⟨rfl, _, rfl⟩
      | none =>
        dsimp only
        split
        · exact ⟨rfl, _, rfl⟩
        · exact ⟨rfl, _, rfl⟩
  readAddress_left := by
    rintro a _ ⟨readAddress, rfl⟩
    simp only [Transport.readAddress, Adapter.readAddress]
    split
    · exact ⟨_, rfl⟩
    · exact ⟨_, rfl⟩
  readAddress_right := by
    rintro a _ ⟨readAddress, rfl⟩
    simp only [Transport.readAddress, Adapter.readAddress]
    split
    · exact ⟨_, rfl⟩
    · exact ⟨_, rfl⟩

/-- Asking for addresses and counters, with the adapter refusing its own, changes what the interface
shows of itself and nothing of what it sends. -/
theorem Interface.observation_unnoticed_asked :
    let config : Config := { address := ⟨192, 168, 1, 1⟩, mask := ⟨255, 255, 255, 0⟩ }
    let look (request : Request) : Step Adapter := .call 1 (.control request)
    let arrive : Step Adapter := .adapter (·.inject (Arp.Message.isAt ⟨2, 0, 0, 0, 0, 2⟩
      ⟨192, 168, 1, 2⟩ {} ⟨192, 168, 1, 9⟩).toFrame.bytes)
    let submit : Step Adapter := .call 1 (.submit (.make { dest := ⟨192, 168, 1, 2⟩ } [] [7]))
    let steps := [.call 0 (.setUp true), arrive, .call 1 .receiveWaiting, submit,
      .call 1 .sendQueued]
    let others := [look .macAddress, .call 0 (.setUp true), arrive, .call 1 .receiveWaiting,
      look .clearCounters, .adapter ({ · with faults.readAddress := true }), look .macAddress,
      submit, look .bindings, look (.selectType 1), .call 1 .sendQueued, look .clearTrace]
    Inserted Adapter.SameFrames steps others ∧ ∃ s t : Interface Adapter,
      ((create config 0).run ({ address := {} } : Adapter)).value = .ok s ∧
      ((create { config with name := "other", traceCapacity := 2 } 0).run
        ({ address := {} } : Adapter)).value = .ok t ∧
      (run steps s).state.counters ≠ (run others t).state.counters ∧
      ((happened (run steps s).history).filterMap Event.offered?).length = 1 ∧
      (happened (run steps s).history).filterMap Event.offered? =
        (happened (run others t).history).filterMap Event.offered? := by
  intro config look arrive submit steps others
  have harrive : SameStep Adapter.SameFrames arrive arrive := by
    constructor
    rintro a _ ⟨readAddress, rfl⟩
    exact ⟨readAddress, rfl⟩
  have hfault : ∀ a b, Adapter.SameFrames a b →
      Adapter.SameFrames a { b with faults.readAddress := true } := by
    rintro a _ ⟨readAddress, rfl⟩
    exact ⟨true, rfl⟩
  have h : Inserted Adapter.SameFrames steps others :=
    .look rfl <| .step .call <| .step harrive <| .step .call <| .look rfl <| .fault hfault <|
      .look rfl <| .step .call <| .look rfl <| .look rfl <| .step .call <| .look rfl .nil
  obtain ⟨s, hc⟩ : ∃ s, ((create config 0).run ({ address := {} } : Adapter)).value = .ok s :=
    ⟨_, rfl⟩
  obtain ⟨hcreated, hunnoticed⟩ :=
    observation_unnoticed Adapter.apartInAddress hc (by decide : "other" ≠ "") 2 h
  obtain ⟨t, ht⟩ := hcreated.mpr (by decide)
  obtain ⟨hsame, -⟩ := hunnoticed t ht
  refine ⟨h, s, t, hc, ht, ?_, ?_, hsame.frames⟩
  · cases hc
    cases ht
    decide +kernel
  · cases hc
    decide +kernel

end LinkLayer
