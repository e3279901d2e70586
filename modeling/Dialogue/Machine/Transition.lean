import Dialogue.Machine.Event

/-!
The transitions of a conversation.

`transition` takes a state and an event to a new state and the effects it asks for, or refuses the
event and leaves the state as it is. An answer goes to the first target there is among: the edges of
the chosen options, the options' own steps, the edges of the step, and the step's default.
-/
namespace Dialogue

/-- A new state, and what is to be done. -/
structure Transition where
  state : State
  effects : List Effect := []

/-- Why an event is refused. -/
inductive TransitionError where
  | unknownStep (step : String)
  | completed
  | actionInFlight (step : String)
  | noMatchingTransition (step : String)
  | noAutoAdvance (step : String)
  | notAwaitingCompletion (step : String)
  | nothingToRetry (step : String)
  | stale (event current : String)
  | stepMismatch (answered current : String)
  deriving DecidableEq, Repr

namespace TransitionError

def quote (id : String) : String := "\"" ++ id ++ "\""

def message : TransitionError → String
  | .unknownStep step => "Step " ++ quote step ++ " is not part of this flow"
  | .completed => "Conversation is complete"
  | .actionInFlight step => "Action for step " ++ quote step ++ " is still running"
  | .noMatchingTransition step => "No transition from " ++ quote step ++ " matches"
  | .noAutoAdvance step => "Step " ++ quote step ++ " does not advance automatically"
  | .notAwaitingCompletion step => "Step " ++ quote step ++ " is not awaiting completion"
  | .nothingToRetry step => "Step " ++ quote step ++ " has no failed action to retry"
  | .stale event current => "Stale " ++ event ++ " event, current step is " ++ quote current
  | .stepMismatch answered current =>
    "Answer given for " ++ quote answered ++ " but the current step is " ++ quote current

/-- Whether the event belongs to an earlier visit and may be dropped. -/
def isStale : TransitionError → Bool
  | .stale .. => true
  | .stepMismatch .. => true
  | _ => false

end TransitionError

/-- The effects of having entered a step, and its phase. -/
def Step.onEntry (s : Step) (epoch : Epoch) : Phase × List Effect :=
  if s.terminal then (.completed, [.completed s.id])
  else
    match s.entryAction with
    | some action => (.actionPending epoch, [.invokeAction s.id epoch action])
    | none =>
      (.ready, if s.autoAdvance.isSome then [.scheduleAutoAdvance s.id epoch] else [])

namespace Machine

/-- Enters a step, coming from another one or from nowhere. -/
def enter (m : Machine) (s : State) (target : String) (previous : Option String) : Transition :=
  let epoch := s.epoch + 1
  let (phase, effects) := ((m.step? target).map (·.onEntry epoch)).getD (.ready, [])
  { state := { context := { s.context with currentStep := target }, phase, epoch }
    effects := .stepEntered target previous :: effects }

/-- The first state of a conversation, with metadata laid over the document's. -/
def start (m : Machine) (metadata : Json.Fields) : Transition :=
  let context : Context := { currentStep := m.initial, metadata := m.metadata.setAll metadata }
  m.enter { context } m.initial none

/-- Leaves the current step for another one; a running action is cancelled. -/
def moveTo (m : Machine) (s : State) (target : String) : Transition :=
  let cancel := match s.phase with
    | .actionPending invocation => [Effect.cancelAction invocation]
    | _ => []
  let entered := m.enter s target (some s.currentStep)
  { entered with effects := cancel ++ entered.effects }

/-- The edges of a loaded choice; those that lead nowhere are left out. -/
def resolvedEdges (m : Machine) (c : Choice) : ChoiceEdges :=
  let edge? (c : Condition) : Option Edge :=
    if m.contains c.target then some ⟨Guard.ofSource? c.expression, c.target, c.priority⟩ else none
  ⟨c.value, c.nextStep.filter m.contains,
    byPriority Edge.priority (c.conditions.filterMap edge?)⟩

/-- The target of the first edge that holds. -/
def firstEdge? (edges : List Edge) (scope : Json) : Option String :=
  (edges.find? (·.holds scope)).map Edge.target

/-- The choices of the step, written and loaded, that have the submitted value. -/
def chosen (m : Machine) (step : Step) (s : State) (value : Json) : List ChoiceEdges :=
  (step.choices ++ (s.resolvedOptions.getD []).map m.resolvedEdges).filter fun c =>
    c.value.strictEquals value

/-- Where an answer leads. -/
def resolveAnswer (m : Machine) (step : Step) (s : State) (value : Json) : Option String :=
  let chosen := m.chosen step s value
  let nested := byPriority Edge.priority (chosen.flatMap ChoiceEdges.edges)
  firstEdge? nested (s.context.scopeWith value) <|>
    chosen.findSome? ChoiceEdges.nextStep <|>
    firstEdge? step.edges s.context.scope <|>
    step.defaultNext

/-- What the result of the running action leads to. -/
def settle (m : Machine) (step : Step) (s : State) (result : ActionResult) : Transition :=
  if result.success then
    let output := result.output
    let next := { s with context := s.context.recordToolResult step.id output, phase := .ready }
    match step.completion with
    | .target id => m.moveTo next id
    | .hold => { state := next }
    | .route =>
      match m.resolveAnswer step next output with
      | some id => m.moveTo { next with context := next.context.recordResponse step.id output } id
      | none => { state := next }
  else
    let error := result.errorMessage
    { state := { s with
        context := s.context.recordError step.id error
        phase := .actionFailed error result.retryable }
      effects := [.actionFailed step.id error result.retryable] }

/-- What a completion signal leads to. -/
def complete (m : Machine) (step : Step) (s : State) (value : Option Json) :
    Except TransitionError Transition :=
  if !step.acceptsCompletion then .error (.notAwaitingCompletion step.id)
  else
    let next := match value with
      | some output => { s with context := s.context.recordToolResult step.id output }
      | none => s
    match step.completion with
    | .target id => .ok (m.moveTo next id)
    | .hold => .error (.noMatchingTransition step.id)
    | .route =>
      let routed := value.getD .null
      match m.resolveAnswer step next routed with
      | some id =>
        .ok (m.moveTo { next with context := next.context.recordResponse step.id routed } id)
      | none => .error (.noMatchingTransition step.id)

/-- What an answer leads to at a step that accepts one. -/
def accept (m : Machine) (step : Step) (s : State) (value : Json) (answered : Option String) :
    Except TransitionError Transition :=
  match answered.filter (· ≠ step.id) with
  | some other => .error (.stepMismatch other step.id)
  | none =>
    match m.resolveAnswer step s value with
    | some id => .ok (m.moveTo { s with context := s.context.recordResponse step.id value } id)
    | none => .error (.noMatchingTransition step.id)

/-- Runs a failed action again. -/
def tryAgain (step : Step) (s : State) : Except TransitionError Transition :=
  match step.entryAction with
  | none => .error (.nothingToRetry step.id)
  | some action =>
    let epoch := s.epoch + 1
    .ok {
      state := { s with
        epoch, context := s.context.clearError step.id, phase := .actionPending epoch }
      effects := [.invokeAction step.id epoch action] }

/-- What an event leads to at the current step. -/
def handle (m : Machine) (step : Step) (s : State) : Event → Except TransitionError Transition
  | .actionSettled invocation result =>
    if s.phase = .actionPending invocation then .ok (m.settle step s result)
    else .error (.stale "ACTION_SETTLED" s.currentStep)
  | .optionsResolved epoch choices =>
    if epoch = s.epoch ∧ !s.phase.isTerminal then
      .ok { state := { s with resolvedOptions := some choices } }
    else .error (.stale "OPTIONS_RESOLVED" s.currentStep)
  | .autoAdvance epoch =>
    if epoch.any (· ≠ s.epoch) then .error (.stale "AUTO_ADVANCE" s.currentStep)
    else
      match s.phase with
      | .completed => .error .completed
      | .actionPending _ => .error (.actionInFlight step.id)
      | .actionFailed .. => .error (.noAutoAdvance step.id)
      | .ready =>
        match step.autoAdvance with
        | some id => .ok (m.moveTo s id)
        | none => .error (.noAutoAdvance step.id)
  | .answer value answered =>
    match s.phase with
    | .completed => .error .completed
    | .actionPending _ => .error (.actionInFlight step.id)
    | _ => m.accept step s value answered
  | .toolComplete value =>
    match s.phase with
    | .completed => .error .completed
    | _ => m.complete step s value
  | .retry =>
    match s.phase with
    | .completed => .error .completed
    | .actionPending _ => .error (.actionInFlight step.id)
    | .actionFailed .. => tryAgain step s
    | .ready => .error (.nothingToRetry step.id)

/-- What an event leads to. -/
def transition (m : Machine) (s : State) (e : Event) : Except TransitionError Transition :=
  match m.step? s.currentStep with
  | none => .error (.unknownStep s.currentStep)
  | some step => m.handle step s e

end Machine

end Dialogue
