import Dialogue.Registry
import Dialogue.Session.Update

/-!
The face of a conversation: what is drawn for its current step, and what a raw answer is judged to
be.

An answer is normalized by the input handler of the step's kind and then checked: by the rules that
the step's hints imply, unless it is blank, and by the step's own rules.
-/
namespace Dialogue

/-- Everything that is needed to draw a step. -/
structure Surface where
  stepId : String
  kind : String
  message : Option String
  widget : Widget
  /-- The failure of the step's action. -/
  error : Option String
  retryable : Bool
  phase : Phase

namespace Surface

def toJson (s : Surface) : Json :=
  .object ([("stepId", .string s.stepId), ("kind", .string s.kind)] ++
    Json.field? "message" .string s.message ++ [("widget", s.widget.toJson)] ++
    Json.field? "error" .string s.error ++
    [("retryable", .bool s.retryable), ("phase", s.phase.toJson)])

/-- The failure that is shown, and whether the action may be tried again. -/
def failure (s : State) : Option String × Bool :=
  match s.phase with
  | .actionFailed error retryable => (some error, retryable)
  | _ => (s.context.errorFor s.currentStep, false)

/-- The widget of a step with the given choices. -/
def widgetOf (r : Registry) (step : Step) (choices : List Choice) : Widget :=
  match r.inputs.get? step.kind.name with
  | some handler => handler.render step.definition choices
  | none => .fallback step.capabilities choices

/-- What is drawn for a step in a state. -/
def ofStep (r : Registry) (step : Step) (s : State) (choices : List Choice) : Surface where
  stepId := s.currentStep
  kind := step.kind.name
  message := step.definition.message.map (Template.renderMessage · s.context.scope)
  widget := widgetOf r step choices
  error := (failure s).1
  retryable := (failure s).2
  phase := s.phase

end Surface

/-- Where the choices of a step come from in a state. -/
inductive ChoicesNeed where
  | known (choices : List Choice)
  | load (config : SourceConfig)

/-- Choices of a source are loaded once for each visit; a completed conversation loads none. -/
def Step.choicesNeed (step : Step) (s : State) : ChoicesNeed :=
  match step.definition.source?, s.resolvedOptions with
  | some _, some choices => .known choices
  | some config, none =>
    if s.isCompleted then .known step.definition.staticChoices else .load config
  | none, _ => .known step.definition.staticChoices

/-- The rules that an answer to a step is checked by. -/
def Step.rulesFor (r : Registry) (step : Step) (value : Json) : List Rule :=
  let implied := ((r.inputs.get? step.kind.name).map fun handler =>
    handler.implicitRules step.definition).getD []
  (if InputHandler.isBlank value then [] else implied) ++ step.definition.validation

/-- The value that a raw answer to a step stands for. -/
def Step.normalize (r : Registry) (step : Step) (raw : Json) : Except String Json :=
  match r.inputs.get? step.kind.name with
  | some handler => handler.normalize step.definition raw
  | none => .ok raw

/-- The value of a raw answer to the current step, or the problems with it. -/
def Step.judge (r : Registry) (step : Step) (s : State) (raw : Json) :
    Except (List Problem) Json :=
  match step.normalize r raw with
  | .error message => .error [{ field := some step.id, message, code := "format" }]
  | .ok value =>
    let problems :=
      Rule.checkAll r.validators (some (s.context.scopeWith value)) value (step.rulesFor r value)
    if problems.isEmpty then .ok value else .error (problems.map (·.tag step.id))

/-- What became of a submitted answer or another event of a client. -/
inductive Submission where
  /-- It reached the machine. -/
  | accepted (outcome : Outcome)
  /-- It was stopped before. -/
  | invalid (problems : List Problem)

def Submission.toJson : Submission → Json
  | .accepted outcome => .object [("status", .string "accepted"), ("outcome", outcome.toJson)]
  | .invalid problems => .object [("status", .string "invalid"),
      ("errors", .array (problems.map Problem.toJson))]

end Dialogue
