import Dialogue.Proofs.Machine.WellFormed
import Dialogue.Proofs.Session.Submission
import Dialogue.Proofs.Session.Taking

/-!
The responses that clients leave.

A response is written by an answer, by a completion signal and by the result of an action, and by
nothing else (`Machine.accepts_responses`). Of what clients send, an answer writes its normalized
value once that has passed the rules of the step, if nothing comes between the judging and the
taking. A completion signal writes its own value, which nobody has judged: it does so only at a step
that awaits a completion and names no step to go on to, neither by itself nor by its action. Going
on and trying again write nothing (`World.sent_response_justified`). The value of a completion
signal may be one that would never pass as an answer (`World.sent_response_unjudged`).
-/
namespace Dialogue

/-! ## What is written -/

/-- An event that the step accepts may write the value as the response of the step. -/
inductive Step.Writes (step : Step) : Event → Json → Prop where
  | answered (value : Json) (named : Option String) : Writes step (.answer value named) value
  | completed (value : Option Json) (awaits : step.acceptsCompletion = true)
      (routed : step.completion = .route) : Writes step (.toolComplete value) (value.getD .null)
  | settled (invocation : Epoch) (result : ActionResult) (success : result.success = true)
      (routed : step.completion = .route) :
      Writes step (.actionSettled invocation result) result.output

@[simp] theorem State.withOutput_responses (s : State) (step : String) (value : Option Json) :
    (s.withOutput step value).context.responses = s.context.responses := by
  cases value <;> rfl

@[simp] theorem State.succeeded_responses (s : State) (step : String) (output : Json) :
    (s.succeeded step output).context.responses = s.context.responses := rfl

/-- The output of a completed step becomes its response only if it is routed like an answer. -/
theorem Step.recorded_responses (step : Step) (s : State) (output : Json) :
    (step.recorded s output).context.responses = s.context.responses ∨
      step.completion = .route ∧
        (step.recorded s output).context.responses = s.context.responses.set step.id output := by
  rw [step.recorded_eq]
  split
  · next hroute => exact .inr ⟨hroute, rfl⟩
  · exact .inl rfl

namespace Machine

variable {m : Machine} {step : Step} {s : State}

@[simp] theorem moveTo_responses (m : Machine) (s : State) (target : String) :
    (m.moveTo s target).state.context.responses = s.context.responses := rfl

/-- An accepted event leaves the responses as they are, or writes one, of the current step. -/
theorem accepts_responses {e : Event} {t : Transition} (h : Accepts m step s e t) :
    t.state.context.responses = s.context.responses ∨
      ∃ value, step.Writes e value ∧
        t.state.context.responses = s.context.responses.set step.id value := by
  cases h with
  | answered value named id => exact .inr ⟨value, .answered value named, rfl⟩
  | advanced epoch id => exact .inl rfl
  | completed value id _ awaits _ =>
    rcases step.recorded_responses (s.withOutput step.id value) (value.getD .null) with
      hsame | ⟨hroute, hset⟩
    · exact .inl (by simp [hsame])
    · exact .inr ⟨_, .completed value awaits hroute, by simp [hset]⟩
  | retried => exact .inl rfl
  | failed => exact .inl rfl
  | held => exact .inl rfl
  | settled invocation result id _ success _ =>
    rcases step.recorded_responses (s.succeeded step.id result.output) result.output with
      hsame | ⟨hroute, hset⟩
    · exact .inl (by simp [hsame])
    · exact .inr ⟨_, .settled invocation result success hroute, by simp [hset]⟩
  | loaded => exact .inl rfl

/-- An event, accepted or not, leaves the responses as they are, or writes one, of the current
step. -/
theorem after_responses (m : Machine) (s : State) (e : Event) :
    (m.after s e).context.responses = s.context.responses ∨
      ∃ step t value, m.step? s.currentStep = some step ∧ Accepts m step s e t ∧
        step.Writes e value ∧
        (m.after s e).context.responses = s.context.responses.set s.currentStep value := by
  cases ht : m.transition s e with
  | error refusal => exact .inl (by rw [after_of_error ht])
  | ok t =>
    obtain ⟨step, hstep, haccepts⟩ := accepts_of_transition ht
    rw [after_of_ok ht]
    rcases accepts_responses haccepts with hsame | ⟨value, hwrites, hset⟩
    · exact .inl hsame
    · rw [step?_id hstep] at hset
      exact .inr ⟨step, t, value, hstep, haccepts, hwrites, hset⟩

/-- A compiled step is that of its definition. -/
theorem build_definition {kinds : Build.KindTable} {d : FlowDocument}
    (built : build kinds d = .ok m) {id : String} (hstep : m.step? id = some step) :
    d.flow.steps.get? id = some step.definition ∧
      step = Build.step d.flow.steps.has kinds id step.definition := by
  rw [build_step? built, Option.map_eq_some_iff] at hstep
  obtain ⟨definition, hdefinition, rfl⟩ := hstep
  rw [Build.step_definition]
  exact ⟨hdefinition, rfl⟩

/-- A compiled step routes its completion only if its definition names no step to go on to. -/
theorem build_route {kinds : Build.KindTable} {d : FlowDocument}
    (built : build kinds d = .ok m) {id : String} (hstep : m.step? id = some step)
    (hroute : step.completion = .route) : step.definition.followUp = none := by
  obtain ⟨-, hcompiled⟩ := build_definition built hstep
  cases hterminal : step.definition.isTerminal with
  | true =>
    -- a terminal step holds
    rw [hcompiled, Build.step_of_terminal hterminal] at hroute
    cases hroute
  | false =>
    rw [hcompiled] at hroute
    exact (Build.step_leads hterminal id).routed.mp hroute

end Machine

/-! ## Events that are submitted as they are -/

namespace Submission

/-- How far the call that submits an event has come after the moves. -/
inductive Sent (w : World) (sid : String) (e : Event) (moves : List Move) : Call → Prop where
  | submitting : Sent w sid e moves (.submit e .submission)
  | awaiting (ticket : Nat)
      (carries : ∀ s, (w.run moves).session? sid = some s → s.Carries ticket e) :
      Sent w sid e moves (.await ticket .submission)
  | closing (result : CallResult) : Sent w sid e moves (.close result)
  | finished (result : CallResult) (snapshot : Snapshot) :
      Sent w sid e moves (.finished result snapshot)

variable {w : World} {k : Nat} {sid : String} {e : Event} {moves : List Move}

theorem Sent.mono {c : Call} {s : Session} (h : Sent w sid e moves c) (hw : (w.run moves).Sound)
    (hs : (w.run moves).session? sid = some s) (mv : Move) : Sent w sid e (moves ++ [mv]) c := by
  cases h with
  | submitting => exact .submitting
  | awaiting ticket carries =>
    refine .awaiting ticket fun s' hs' => ?_
    obtain ⟨t, ht, hn⟩ := World.move_session hw hs mv
    rw [World.run_concat, ht] at hs'
    cases hs'
    exact hn.carries (carries s hs)
  | closing result => exact .closing result
  | finished result snapshot => exact .finished result snapshot

theorem Sent.turn {c : Call} {s : Session} {site : Site} (h : Sent w sid e moves c)
    (hs : (w.run moves).session? sid = some s) (hid : s.Ticketed)
    (hn : (w.run (moves ++ [.turn k])).session? sid =
      some ((c.turn w.registry site s).2.1.absorbed (c.turn w.registry site s).2.2)) :
    Sent w sid e (moves ++ [.turn k]) (c.turn w.registry site s).1 := by
  cases h with
  | submitting =>
    rcases Call.submit_turn w.registry site s e .submission with ht | ht
    · rw [ht]; exact .closing _
    · rw [ht] at hn ⊢
      refine .awaiting s.tickets fun s' hs' => ?_
      rw [hn] at hs'
      cases hs'
      exact Session.submit_carries hid e site
  | awaiting ticket carries =>
    rcases Call.await_turn w.registry site s ticket .submission with ⟨reply, -, ht⟩ | ht | ht
    · rw [ht]; exact .closing _
    · rw [ht]; exact .closing _
    · rw [ht] at hn ⊢
      refine .awaiting ticket fun s' hs' => ?_
      rw [hn] at hs'
      cases hs'
      exact (Session.Next.absorbed site).carries (carries s hs)
  | closing result => exact .finished _ _
  | finished result snapshot => exact .finished result snapshot

end Submission

namespace World

variable {w : World}

/-- An event that is submitted as it is, is the one that the session takes with its ticket. -/
theorem taken_event_sent (hw : w.Empty) (past before after : List Move) {sid : String}
    {request : Request} {event : Event} (hr : request.call = .submit event .submission)
    {s₀ s : Session} {ticket : Nat} {e : Envelope}
    (hs₀ : (w.run past).session? sid = some s₀)
    (queued : (w.run (past ++ .ask sid request :: before)).job? (w.run past).jobCount =
      some ⟨(w.run past).jobCount, sid, .call (.await ticket .submission)⟩)
    (hs : (w.run (past ++ .ask sid request :: (before ++ after))).session? sid = some s)
    (he : e ∈ s.queue) (own : e.ticket = some ticket) : e.event = event := by
  have hask := ask_asked hw past hs₀ request
  obtain ⟨s₁, hs₁⟩ := hask.session
  rw [run_ask] at queued hs
  have hbegun : ∀ j, ((w.run past).move (.ask sid request)).job? (w.run past).jobCount = some j →
      ∃ c, j = ⟨(w.run past).jobCount, sid, .call c⟩ ∧
        Submission.Sent ((w.run past).move (.ask sid request)) sid event [] c := by
    intro j hj
    rw [hask.job] at hj
    cases hj
    exact ⟨request.call, rfl, hr ▸ .submitting⟩
  obtain ⟨c, hc, hsent⟩ := Submission.call_run hask.sound hs₁ hask.counted
    (fun _ _ mv _ hw hs hc => hc.mono hw hs mv)
    (fun moves s _ _ hs hc _ hn => hc.turn hs (hask.ticketed moves s hs) hn) hbegun before _ queued
  cases hc
  cases hsent with
  | awaiting ticket carries =>
    obtain ⟨t, ht⟩ := run_session_some hask.sound hs₁ before
    obtain ⟨s', hs', hcarries⟩ := run_session_later (fun _ _ h hn => hn.carries h) after
      (run_sound hask.sound before) ht (carries t ht)
    rw [← run_append, hs] at hs'
    cases hs'
    exact hcarries.only e he own

/-- An answer that is judged and taken with nothing between has passed at the current step, if the
session accepts it. -/
theorem taken_answer_passes (hw : w.Empty) (past before after : List Move) {sid : String}
    {request : Request} {raw : Json} (hr : request.raw? = some raw) {s₀ s : Session} {ticket : Nat}
    {e : Envelope} {step : Step} {t : Transition} (hs₀ : (w.run past).session? sid = some s₀)
    (queued : (w.run (past ++ .ask sid request :: before)).job? (w.run past).jobCount =
      some ⟨(w.run past).jobCount, sid, .call (.await ticket .submission)⟩)
    (hs : (w.run (past ++ .ask sid request :: (before ++ after))).session? sid = some s)
    (he : e ∈ s.queue) (own : e.ticket = some ticket)
    (alone : (w.run (past ++ [.ask sid request])).taken sid (before ++ after) = [])
    (hstep : s.machine.step? s.state.currentStep = some step)
    (accepts : s.machine.Accepts step s.state e.event t) :
    ∃ value named, e.event = .answer value named ∧ step.Passes w.registry s.state raw value := by
  obtain ⟨earlier, seen, stepId, hp, hlooks, hm, hj⟩ := taken_answer_formed hw past before after hr
    hs₀ queued hs he own
  -- The session is at the look what it is at the taking.
  have hseen : seen.state = s.state := by
    have hasked := (ask_asked hw past hs₀ request).sound
    obtain ⟨rest, hrest⟩ := (List.prefix_append earlier _).trans hp
    rw [run_concat, ← hrest, List.append_assoc, taken_append, List.append_eq_nil_iff] at alone
    have hlook := hlooks.session
    rw [run_ask] at hlook
    obtain ⟨s', hs', -, hstate⟩ := run_state_later (run_sound hasked earlier) hlook (rest ++ after)
    rw [← run_append, ← List.append_assoc, hrest, ← run_ask, hs] at hs'
    cases hs'
    rw [hstate, alone.2]
    rfl
  obtain ⟨value, hvalue, hformed⟩ := Call.judged_submit hj
  refine ⟨value, some stepId, hvalue, ?_⟩
  rw [hvalue] at accepts
  cases accepts with
  | answered _ _ id waits named leads =>
    have hnamed : stepId = s.state.currentStep := by
      rw [named stepId rfl, Machine.step?_id hstep]
    rw [hm, hseen, hnamed] at hformed
    rcases hformed with ⟨other, hother, -, hpasses⟩ | ⟨-, hnone⟩
    · rw [hstep] at hother
      cases hother
      exact hpasses
    · rw [hstep] at hnone
      cases hnone rfl

end World

/-- What a client's event may leave as the response of a step: an answer a value that has passed
there, a completion signal its own value, where the step awaits it and names no step to go on to. -/
inductive ClientEvent.Leaves (r : Registry) (step : Step) (s : State) :
    ClientEvent → Json → Prop where
  | judged {raw value : Json} {named : Option String} (passes : step.Passes r s raw value) :
      Leaves r step s (.answer raw named) value
  | signalled {payload : Option Json} (awaits : step.acceptsCompletion = true)
      (routed : step.definition.followUp = none) :
      Leaves r step s (.toolComplete payload) (payload.getD .null)

namespace World

variable {w : World}

/-- When a session takes what a client has sent, having taken nothing since, it leaves the responses
as they are, or writes one, of the current step: the value of an answer that was normalized and has
passed the rules of the step, or the value of a completion signal where neither the step nor its
action names a step to go on to. -/
theorem sent_response_justified (hw : w.Empty) (past before after : List Move) {sid : String}
    {event : ClientEvent} {s₀ s : Session} {ticket : Nat} {e : Envelope} {d : FlowDocument}
    (hs₀ : (w.run past).session? sid = some s₀)
    (queued : (w.run (past ++ .ask sid (.send event) :: before)).job? (w.run past).jobCount =
      some ⟨(w.run past).jobCount, sid, .call (.await ticket .submission)⟩)
    (hs : (w.run (past ++ .ask sid (.send event) :: (before ++ after))).session? sid = some s)
    (takes : s.Takes e) (own : e.ticket = some ticket)
    (alone : (w.run (past ++ [.ask sid (.send event)])).taken sid (before ++ after) = [])
    (built : Machine.build w.registry.kinds d = .ok s.machine) :
    s.turn.1.state.context.responses = s.state.context.responses ∨
      ∃ step value, d.flow.steps.get? s.state.currentStep = some step.definition ∧
        s.machine.step? s.state.currentStep = some step ∧
        event.Leaves w.registry step s.state value ∧
        s.turn.1.state.context.responses =
          s.state.context.responses.set s.state.currentStep value := by
  have hturn : s.turn.1.state = s.machine.after s.state e.event := by
    rw [Session.turn_state, Session.next?_eq_some.2 takes]
    rfl
  have he : e ∈ s.queue := List.mem_of_mem_head? takes.queue
  rw [hturn]
  rcases s.machine.after_responses s.state e.event with
    hsame | ⟨step, t, value, hstep, haccepts, hwrites, hset⟩
  · exact .inl hsame
  refine .inr ⟨step, value, (Machine.build_definition built hstep).1, hstep, ?_, hset⟩
  cases event with
  | answer raw named =>
    obtain ⟨judged, answered, hvalue, hpasses⟩ := taken_answer_passes hw past before after rfl hs₀
      queued hs he own alone hstep haccepts
    rw [hvalue] at hwrites
    cases hwrites
    exact .judged hpasses
  | autoAdvance =>
    rw [taken_event_sent hw past before after rfl hs₀ queued hs he own] at hwrites
    cases hwrites
  | toolComplete payload =>
    rw [taken_event_sent hw past before after rfl hs₀ queued hs he own] at hwrites
    cases hwrites with
    | completed _ awaits routed =>
      exact .signalled awaits (Machine.build_route built hstep routed)
  | retry =>
    rw [taken_event_sent hw past before after rfl hs₀ queued hs he own] at hwrites
    cases hwrites

/-! ### An inquiry -/

/-- A name that has to be given, while an action looks for it. -/
def lookedUp : StepDef where
  kind := .textInput
  validation := [{ kind := .required }]
  action := some { kind := "lookup" }
  conditions := [⟨"true", "thanks", 0⟩]

def inquiry : FlowDocument where
  flow := {
    initialStep := some "name"
    steps := [("name", lookedUp), ("thanks", { isTerminal := true })] }

/-- The inquiry, compiled. -/
def inquiryMachine : Machine := .compiled Registry.standard.kinds inquiry "name"

theorem build_inquiry : Machine.build Registry.standard.kinds inquiry = .ok inquiryMachine := by
  rfl

/-- The step of the inquiry, compiled. -/
def compiledLookedUp : Step :=
  Build.step inquiry.flow.steps.has Registry.standard.kinds "name" lookedUp

/-- A blank name passes for no answer. -/
theorem lookedUp_passes (seen : State) (raw : Json) :
    ¬ compiledLookedUp.Passes Registry.standard seen raw (.string "") := by
  intro h
  have hc := h.checked
  cases hc

/-- What can be seen of a session of a machine that is about to take an event. -/
theorem taking_of_observed (w : World) (sid : String) (e : Envelope) (m : Machine)
    (idle : (w.session? sid).map (fun s => (s.deeds.isEmpty, s.shut)) = some (true, false))
    (next : (w.session? sid).bind (·.queue.head?) = some e)
    (machine : (w.session? sid).map (·.machine) = some m) :
    ∃ s, w.session? sid = some s ∧ s.Takes e ∧ s.machine = m := by
  obtain ⟨s, hs, takes⟩ := takes_of_idle w sid e idle next
  rw [hs] at machine
  exact ⟨s, hs, takes, Option.some.inj machine⟩

/-- The text that a session has as the response of a step. -/
def responseText (step : String) (s : State) : Option String :=
  (s.context.responses.get? step).bind Json.string?

/-- A name is sent to the survey, judged, and written. -/
theorem sent_response_justified_survey :
    let event : ClientEvent := .answer (.string "Ada") (some "name")
    ∃ s step value,
      (fresh.run (greeted ++ .ask "s" (.send event) :: [.turn 3, .turn 3])).session? "s" = some s ∧
      survey.flow.steps.get? s.state.currentStep = some step.definition ∧
      event.Leaves Registry.standard step s.state value ∧
      s.turn.1.state.context.responses =
        s.state.context.responses.set s.state.currentStep value := by
  intro event
  obtain ⟨s, hs, takes, hmachine⟩ := taking_of_observed
    (fresh.run (greeted ++ .ask "s" (.send event) :: [.turn 3, .turn 3])) "s"
    { event := .answer (.string "Ada") (some "name"), ticket := some 0 } surveyMachine
    (by decide +kernel) rfl rfl
  -- the response is there afterwards and was not there before
  have hwritten : ((fresh.run (greeted ++ .ask "s" (.send event) :: [.turn 3, .turn 3])).session?
      "s").map (fun s => (responseText "name" s.state, responseText "name" s.turn.1.state)) =
        some (none, some "Ada") := by decide +kernel
  rw [hs, Option.map_some, Option.some.injEq, Prod.mk.injEq] at hwritten
  rcases sent_response_justified fresh_empty greeted [.turn 3, .turn 3] [] rfl rfl hs takes rfl rfl
    (hmachine ▸ build_survey) with hsame | ⟨step, value, hdefinition, -, hleaves, hset⟩
  · have htext : responseText "name" s.turn.1.state = responseText "name" s.state := by
      rw [responseText, responseText, hsame]
    rw [hwritten.1, hwritten.2] at htext
    cases htext
  · exact ⟨s, step, value, hs, hdefinition, hleaves, hset⟩

/-- A completion signal can write a response that would pass for no answer at its step: a blank name
where a name has to be given. -/
theorem sent_response_unjudged :
    let past := [.create "s" inquiryMachine []]
    let event : ClientEvent := .toolComplete (some (.string ""))
    let e : Envelope := { event := event.toEvent, ticket := some 0 }
    Machine.build Registry.standard.kinds inquiry = .ok inquiryMachine ∧
    (fresh.run (past ++ .ask "s" (.send event) :: [.turn 3])).job? 3 =
      some ⟨3, "s", .call (.await 0 .submission)⟩ ∧
    (fresh.run (past ++ [.ask "s" (.send event)])).taken "s" [.turn 3] = [] ∧
    ∃ s, (fresh.run (past ++ .ask "s" (.send event) :: [.turn 3])).session? "s" = some s ∧
      s.Takes e ∧ s.machine = inquiryMachine ∧
      inquiryMachine.step? "name" = some compiledLookedUp ∧ s.state.currentStep = "name" ∧
      responseText "name" s.state = none ∧ responseText "name" s.turn.1.state = some "" ∧
      ∀ seen raw, ¬ compiledLookedUp.Passes Registry.standard seen raw (.string "") := by
  intro past event e
  obtain ⟨s, hs, takes, hmachine⟩ := taking_of_observed
    (fresh.run (past ++ .ask "s" (.send event) :: [.turn 3])) "s" e inquiryMachine
    (by decide +kernel) rfl rfl
  have hwritten : ((fresh.run (past ++ .ask "s" (.send event) :: [.turn 3])).session? "s").map
      (fun s => (s.state.currentStep, responseText "name" s.state,
        responseText "name" s.turn.1.state)) = some ("name", none, some "") := by decide +kernel
  rw [hs, Option.map_some, Option.some.injEq, Prod.mk.injEq, Prod.mk.injEq] at hwritten
  obtain ⟨hcurrent, hbefore, hafter⟩ := hwritten
  exact ⟨build_inquiry, rfl, rfl, s, hs, takes, hmachine, rfl, hcurrent, hbefore, hafter,
    lookedUp_passes⟩

end World

end Dialogue
