import Dialogue.Machine.Transition
import Dialogue.Work.Basic

/-!
What a conversation shows of itself: snapshots, updates, and the outcomes of events.
-/
namespace Dialogue

/-- A view of the state of a conversation. -/
structure Snapshot where
  sessionId : String
  context : Context
  phase : Phase

namespace Snapshot

/-- What is told of a state. -/
def ofState (sessionId : String) (s : State) : Snapshot := ⟨sessionId, s.context, s.phase⟩

def toJson (s : Snapshot) : Json := .object [
  ("sessionId", .string s.sessionId), ("currentStepId", .string s.context.currentStep),
  ("context", s.context.toJson), ("pendingErrors", .object s.context.errors),
  ("phase", s.phase.toJson)]

end Snapshot

/-- What listeners of a conversation are told. -/
inductive Update where
  | stepEntered (step : String) (previous : Option String)
  | optionsLoading (step : String)
  | actionFailed (step error : String) (retryable : Bool)
  | navigate (target : Navigation)
  | completed (step : String)
  | stateChanged (snapshot : Snapshot)

namespace Update

def name : Update → String
  | .stepEntered .. => "step_entered"
  | .optionsLoading _ => "options_loading"
  | .actionFailed .. => "action_failed"
  | .navigate _ => "navigate"
  | .completed _ => "completed"
  | .stateChanged _ => "state_changed"

def fields : Update → Json.Fields
  | .stepEntered step previous =>
    ("step", .string step) :: Json.field? "previous" .string previous
  | .optionsLoading step => [("step", .string step)]
  | .actionFailed step error retryable =>
    [("step", .string step), ("error", .string error), ("retryable", .bool retryable)]
  | .navigate target => [("url", .string target.url), ("newContext", .bool target.newContext)]
  | .completed step => [("step", .string step)]
  | .stateChanged snapshot => [("snapshot", snapshot.toJson)]

def toJson (u : Update) : Json := .object (("type", .string u.name) :: u.fields)

end Update

/-- How an event was handled. -/
inductive Outcome where
  /-- A step was entered, another one or the same again. -/
  | transitioned (origin target : String)
  /-- Accepted without entering a step. -/
  | accepted
  /-- Nothing leads on; the step stays. -/
  | held (step : String)
  /-- The event belonged to an earlier visit and was dropped. -/
  | ignored
  deriving DecidableEq, Repr

namespace Outcome

def toJson : Outcome → Json
  | .transitioned origin target => .object [("outcome", .string "transitioned"),
      ("from", .string origin), ("to", .string target)]
  | .accepted => .object [("outcome", .string "accepted")]
  | .held step => .object [("outcome", .string "held"), ("step", .string step)]
  | .ignored => .object [("outcome", .string "ignored")]

/-- Whether effects enter a step. -/
def entersStep (effects : List Effect) : Bool :=
  effects.any fun
    | .stepEntered .. => true
    | _ => false

/-- The outcome of a transition from one state. -/
def ofTransition (s : State) (t : Transition) : Outcome :=
  if entersStep t.effects then .transitioned s.currentStep t.state.currentStep else .accepted

/-- The outcome of a refused event: what belongs to an earlier visit is dropped, what leads nowhere
is held, and anything else is an error. -/
def ofRefusal (e : TransitionError) : Except TransitionError Outcome :=
  if e.isStale then .ok .ignored
  else
    match e with
    | .noMatchingTransition step => .ok (.held step)
    | e => .error e

end Outcome

/-- Why a request to a conversation fails. -/
inductive SessionError where
  | notFound (id : String)
  /-- The conversation has ended. -/
  | closed
  | unknownStep (step : String)
  | rejected (e : TransitionError)
  deriving DecidableEq, Repr

def SessionError.message : SessionError → String
  | .notFound id => "Session not found: " ++ id
  | .closed => "Session has shut down"
  | .unknownStep step => TransitionError.message (.unknownStep step)
  | .rejected e => e.message

end Dialogue
