import Dialogue.Flow.Document

/-!
Compiled flows.

A machine holds the steps of a document with their guards read once and with all edges that lead
nowhere left out. It does not change and is shared by all conversations.
-/
namespace Dialogue

/-- An expression with its source. -/
structure Guard where
  source : String
  expr : Expr

/-- The guard that a source text gives. -/
def Guard.ofSource? (source : String) : Option Guard :=
  match Expr.parse source with
  | .ok expr => some ⟨source, expr⟩
  | .error _ => none

/-- A guarded edge; one whose guard cannot be read never holds. -/
structure Edge where
  guard : Option Guard
  target : String
  priority : Int

/-- Whether the guard of an edge is there and holds. -/
def Edge.holds (e : Edge) (scope : Json) : Bool := e.guard.any fun g => g.expr.holds scope

/-- A choice with its edges, from the highest priority to the lowest. -/
structure ChoiceEdges where
  value : Json
  nextStep : Option String
  edges : List Edge

/-- What happens when an awaited completion arrives. -/
inductive Completion where
  /-- The conversation goes to the declared step. -/
  | target (id : String)
  /-- No step is declared: the output is routed like an answer. -/
  | route
  /-- The declared step does not exist: the conversation stays. -/
  | hold
  deriving DecidableEq, Repr

/-- A compiled step. -/
structure Step where
  id : String
  definition : StepDef
  capabilities : Capabilities
  choices : List ChoiceEdges
  /-- The step's own edges, from the highest priority to the lowest. -/
  edges : List Edge
  defaultNext : Option String
  entryAction : Option Action
  completion : Completion
  autoAdvance : Option String
  terminal : Bool

namespace Step

def kind (s : Step) : StepKind := s.definition.kind

/-- Whether a completion signal is accepted. -/
def acceptsCompletion (s : Step) : Bool :=
  !s.terminal && (s.capabilities.awaitsCompletion || s.entryAction.isSome)

end Step

/-- A problem of a document that compiling passes over. -/
inductive Diagnostic where
  | danglingTarget (step target origin : String)
  | missingInitialStep (declared : Option String) (fallback : String)
  | invalidExpression (step expression : String) (error : ParseError)
  | unknownStepKind (step kind : String)
  deriving DecidableEq, Repr

namespace Diagnostic

/-- A declared name as a message shows it. -/
def declaredText : Option String → String
  | none => "None"
  | some id => "Some(" ++ Text.quoted id ++ ")"

def message : Diagnostic → String
  | .danglingTarget step target origin =>
    "Removing transition from \"" ++ step ++ "\" to \"" ++ target ++ "\" (" ++ origin ++
      "): target step does not exist"
  | .missingInitialStep declared fallback =>
    "Initial step " ++ declaredText declared ++ " does not exist, using \"" ++ fallback ++ "\""
  | .invalidExpression step expression e =>
    "Guard on \"" ++ step ++ "\" never matches, cannot parse \"" ++ expression ++ "\": " ++
      e.description
  | .unknownStepKind step kind =>
    "Step \"" ++ step ++ "\" has kind \"" ++ kind ++ "\" with no registered input handler"

end Diagnostic

/-- A compiled flow. -/
structure Machine where
  initial : String
  steps : List Step
  diagnostics : List Diagnostic
  version : String
  metadata : Json.Fields

namespace Machine

/-- The step of an id. -/
def step? (m : Machine) (id : String) : Option Step := m.steps.find? fun s => s.id = id

/-- Whether an id names a step. -/
def contains (m : Machine) (id : String) : Bool := (m.step? id).isSome

end Machine

end Dialogue
