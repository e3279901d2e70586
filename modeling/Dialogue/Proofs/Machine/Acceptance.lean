import Dialogue.Proofs.Machine.Edges

/-!
What an accepted event does.

`Accepts m step s e t` has one case for each way in which an event is accepted at a step, with all
that the event needs and all that it changes; `accepts_of_transition` says that there is no other
way. Four of the cases leave the step for another one by `moveTo`, and `enter_eq` says what that
comes to.
-/
namespace Dialogue

/-! ## Completions -/

/-- The state with an output recorded, if there is one. -/
def State.withOutput (s : State) (step : String) : Option Json → State
  | some output => { s with context := s.context.recordToolResult step output }
  | none => s

/-- The state that the completion of a step leaves behind: an output that is routed like an answer
is recorded as one. -/
def Step.recorded (step : Step) (s : State) (output : Json) : State :=
  match step.completion with
  | .route => { s with context := s.context.recordResponse step.id output }
  | _ => s

theorem Step.recorded_eq (step : Step) (s : State) (output : Json) :
    step.recorded s output =
      if step.completion = .route then
        { s with context := s.context.recordResponse step.id output }
      else s := by
  unfold Step.recorded
  cases step.completion <;> rfl

@[simp] theorem State.withOutput_phase (s : State) (step : String) (value : Option Json) :
    (s.withOutput step value).phase = s.phase := by
  cases value <;> rfl

@[simp] theorem State.withOutput_epoch (s : State) (step : String) (value : Option Json) :
    (s.withOutput step value).epoch = s.epoch := by
  cases value <;> rfl

@[simp] theorem Step.recorded_phase (step : Step) (s : State) (output : Json) :
    (step.recorded s output).phase = s.phase := by
  rw [Step.recorded_eq]; split <;> rfl

@[simp] theorem Step.recorded_epoch (step : Step) (s : State) (output : Json) :
    (step.recorded s output).epoch = s.epoch := by
  rw [Step.recorded_eq]; split <;> rfl

/-- Where the completion of a step leads. -/
def Machine.completionTarget (m : Machine) (step : Step) (s : State) (output : Json) :
    Option String :=
  match step.completion with
  | .target id => some id
  | .hold => none
  | .route => m.resolveAnswer step s output

/-- The state after a success of the running action, before the conversation goes on. -/
def State.succeeded (s : State) (step : String) (output : Json) : State :=
  { s.withOutput step (some output) with phase := .ready }

@[simp] theorem State.succeeded_phase (s : State) (step : String) (output : Json) :
    (s.succeeded step output).phase = .ready := rfl

@[simp] theorem State.succeeded_epoch (s : State) (step : String) (output : Json) :
    (s.succeeded step output).epoch = s.epoch := rfl

/-- The state after a failure of the running action. -/
def State.failed (s : State) (step : String) (result : ActionResult) : State :=
  { s with
    context := s.context.recordError step result.errorMessage
    phase := .actionFailed result.errorMessage result.retryable }

/-- The state in which a failed action runs again. -/
def State.again (s : State) (step : String) : State :=
  { s with
    epoch := s.epoch + 1
    context := s.context.clearError step
    phase := .actionPending (s.epoch + 1) }

namespace Machine

variable {m : Machine} {step : Step} {s : State}

theorem settle_failure {result : ActionResult} (h : result.success = false) :
    m.settle step s result =
      ⟨s.failed step.id result, [.actionFailed step.id result.errorMessage result.retryable]⟩ := by
  simp [settle, h, State.failed]

theorem settle_success {result : ActionResult} (h : result.success = true) :
    m.settle step s result =
      match m.completionTarget step (s.succeeded step.id result.output) result.output with
      | some id => m.moveTo (step.recorded (s.succeeded step.id result.output) result.output) id
      | none => { state := s.succeeded step.id result.output } := by
  simp only [settle, h, if_true, completionTarget, Step.recorded, State.succeeded,
    State.withOutput]
  cases step.completion <;> rfl

theorem complete_eq (h : step.acceptsCompletion = true) (value : Option Json) :
    m.complete step s value =
      match m.completionTarget step (s.withOutput step.id value) (value.getD .null) with
      | some id =>
        .ok (m.moveTo (step.recorded (s.withOutput step.id value) (value.getD .null)) id)
      | none => .error (.noMatchingTransition step.id) := by
  simp only [complete, h, Bool.not_true, Bool.false_eq_true, if_false, completionTarget,
    Step.recorded]
  cases step.completion <;> cases value <;> rfl

theorem completionTarget_contains (hw : step.Within m.contains) {output : Json} {id : String}
    (h : m.completionTarget step s output = some id) : m.contains id = true := by
  unfold completionTarget at h
  split at h
  · next hc => cases h; exact hw.completion _ hc
  · cases h
  · exact resolveAnswer_contains hw h

/-! ## The cases -/

/-- At a step, a state accepts an event with this transition. -/
inductive Accepts (m : Machine) (step : Step) (s : State) : Event → Transition → Prop where
  | answered (value : Json) (answered : Option String) (id : String)
      (waits : s.phase = .ready ∨ ∃ error retryable, s.phase = .actionFailed error retryable)
      (named : ∀ other, answered = some other → other = step.id)
      (leads : m.resolveAnswer step s value = some id) :
      Accepts m step s (.answer value answered)
        (m.moveTo { s with context := s.context.recordResponse step.id value } id)
  | advanced (epoch : Option Epoch) (id : String)
      (current : ∀ e, epoch = some e → e = s.epoch) (ready : s.phase = .ready)
      (leads : step.autoAdvance = some id) :
      Accepts m step s (.autoAdvance epoch) (m.moveTo s id)
  | completed (value : Option Json) (id : String) (going : s.phase ≠ .completed)
      (awaits : step.acceptsCompletion = true)
      (leads : m.completionTarget step (s.withOutput step.id value) (value.getD .null) = some id) :
      Accepts m step s (.toolComplete value)
        (m.moveTo (step.recorded (s.withOutput step.id value) (value.getD .null)) id)
  | retried (error : String) (retryable : Bool) (action : Action)
      (failed : s.phase = .actionFailed error retryable) (runs : step.entryAction = some action) :
      Accepts m step s .retry
        ⟨s.again step.id, [.invokeAction step.id (s.epoch + 1) action]⟩
  | failed (invocation : Epoch) (result : ActionResult)
      (running : s.phase = .actionPending invocation) (failure : result.success = false) :
      Accepts m step s (.actionSettled invocation result)
        ⟨s.failed step.id result, [.actionFailed step.id result.errorMessage result.retryable]⟩
  | held (invocation : Epoch) (result : ActionResult)
      (running : s.phase = .actionPending invocation) (success : result.success = true)
      (stays : m.completionTarget step (s.succeeded step.id result.output) result.output = none) :
      Accepts m step s (.actionSettled invocation result)
        ⟨s.succeeded step.id result.output, []⟩
  | settled (invocation : Epoch) (result : ActionResult) (id : String)
      (running : s.phase = .actionPending invocation) (success : result.success = true)
      (leads : m.completionTarget step (s.succeeded step.id result.output) result.output =
        some id) :
      Accepts m step s (.actionSettled invocation result)
        (m.moveTo (step.recorded (s.succeeded step.id result.output) result.output) id)
  | loaded (choices : List Choice) (going : s.phase ≠ .completed) :
      Accepts m step s (.optionsResolved s.epoch choices)
        ⟨{ s with resolvedOptions := some choices }, []⟩

theorem accepts_of_accept {value : Json} {answered : Option String} {t : Transition}
    (waits : s.phase = .ready ∨ ∃ error retryable, s.phase = .actionFailed error retryable)
    (h : m.accept step s value answered = .ok t) :
    Accepts m step s (.answer value answered) t := by
  unfold accept at h
  split at h
  · cases h
  · next hf =>
    have named : ∀ other, answered = some other → other = step.id := by
      intro other ho
      have := Option.filter_eq_none_iff.1 hf other ho
      simpa using this
    split at h
    · next id hid => cases h; exact .answered value answered id waits named hid
    · cases h

theorem accepts_of_complete {value : Option Json} {t : Transition} (going : s.phase ≠ .completed)
    (h : m.complete step s value = .ok t) : Accepts m step s (.toolComplete value) t := by
  cases ha : step.acceptsCompletion with
  | false => simp [complete, ha] at h
  | true =>
    rw [complete_eq ha] at h
    split at h
    · next id hid => cases h; exact .completed value id going ha hid
    · cases h

theorem accepts_of_settle {invocation : Epoch} (running : s.phase = .actionPending invocation)
    (result : ActionResult) :
    Accepts m step s (.actionSettled invocation result) (m.settle step s result) := by
  cases hr : result.success with
  | false => rw [settle_failure hr]; exact .failed invocation result running hr
  | true =>
    rw [settle_success hr]
    split
    · next id hid => exact .settled invocation result id running hr hid
    · next hn => exact .held invocation result running hr hn

theorem accepts_of_tryAgain {error : String} {retryable : Bool} {t : Transition}
    (failed : s.phase = .actionFailed error retryable) (h : tryAgain step s = .ok t) :
    Accepts m step s .retry t := by
  unfold tryAgain at h
  split at h
  · cases h
  · next action ha => cases h; exact .retried error retryable action failed ha

theorem accepts_of_handle {e : Event} {t : Transition} (h : m.handle step s e = .ok t) :
    Accepts m step s e t := by
  cases e with
  | actionSettled invocation result =>
    simp only [handle] at h
    split at h
    · next hp => cases h; exact accepts_of_settle hp result
    · cases h
  | optionsResolved epoch choices =>
    simp only [handle] at h
    split at h
    · next hc =>
      obtain ⟨rfl, hg⟩ := hc
      cases h
      refine .loaded choices fun hp => ?_
      simp [hp, Phase.isTerminal] at hg
    · cases h
  | autoAdvance epoch =>
    simp only [handle] at h
    split at h
    · cases h
    · next hn =>
      have current : ∀ e, epoch = some e → e = s.epoch := by
        intro e he
        simpa [he] using hn
      split at h
      · cases h
      · cases h
      · cases h
      · next hp =>
        split at h
        · next id hid => cases h; exact .advanced epoch id current hp hid
        · cases h
  | answer value answered =>
    simp only [handle] at h
    split at h
    · cases h
    · cases h
    · next hc hr =>
      refine accepts_of_accept ?_ h
      cases hp : s.phase with
      | ready => exact .inl rfl
      | actionPending i => exact absurd hp (hr i)
      | actionFailed error retryable => exact .inr ⟨error, retryable, rfl⟩
      | completed => exact absurd hp hc
  | toolComplete value =>
    simp only [handle] at h
    split at h
    · cases h
    · next hc => exact accepts_of_complete hc h
  | retry =>
    simp only [handle] at h
    split at h
    · cases h
    · cases h
    · next error retryable hp => exact accepts_of_tryAgain hp h
    · cases h

/-- An event that is accepted is accepted in one of the cases. -/
theorem accepts_of_transition {e : Event} {t : Transition} (h : m.transition s e = .ok t) :
    ∃ step, m.step? s.currentStep = some step ∧ Accepts m step s e t := by
  unfold transition at h
  split at h
  · cases h
  · next step hs => exact ⟨step, hs, accepts_of_handle h⟩

/-! ## Entering a step -/

/-- What there is to do on entry: the end, an action, or nothing but to wait or to go on. -/
theorem onEntry_cases (step : Step) (epoch : Epoch) :
    (step.terminal = true ∧ step.onEntry epoch = (.completed, [.completed step.id])) ∨
    (∃ action, step.terminal = false ∧ step.entryAction = some action ∧
      step.onEntry epoch = (.actionPending epoch, [.invokeAction step.id epoch action])) ∨
    (step.terminal = false ∧ step.entryAction = none ∧ step.onEntry epoch =
      (.ready, if step.autoAdvance.isSome then [.scheduleAutoAdvance step.id epoch] else [])) := by
  unfold Step.onEntry
  cases step.terminal with
  | true => exact .inl ⟨rfl, rfl⟩
  | false =>
    cases step.entryAction with
    | some action => exact .inr (.inl ⟨action, rfl, rfl, rfl⟩)
    | none => exact .inr (.inr ⟨rfl, rfl, rfl⟩)

theorem enter_eq {target : String} (h : m.step? target = some step) (s : State)
    (previous : Option String) :
    m.enter s target previous =
      ⟨{ context := { s.context with currentStep := target }
         phase := (step.onEntry (s.epoch + 1)).1
         epoch := s.epoch + 1 },
        .stepEntered target previous :: (step.onEntry (s.epoch + 1)).2⟩ := by
  simp [enter, h]

end Machine

end Dialogue
