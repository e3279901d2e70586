import Dialogue.Machine.Basic

/-!
Compiling a document.

Every document with a step compiles. An edge to a step that is not declared is left out, a guard
that cannot be read is kept as one that never holds, an initial step that is missing is replaced by
the first step, and a kind that is unknown counts as one that produces a value. Each of these is
reported. What is compiled and what is reported are two functions of the document, so each can be
read without the other.
-/
namespace Dialogue

namespace Build

/-- The declared steps. -/
abbrev Known := String → Bool

/-- Capabilities of the kinds that are registered beside the built-in ones. -/
abbrev KindTable := String → Option Capabilities

/-- An edge, unless its target is not declared. -/
def edge? (known : Known) (c : Condition) : Option Edge :=
  if known c.target then some ⟨Guard.ofSource? c.expression, c.target, c.priority⟩ else none

/-- The edges of conditions, from the highest priority to the lowest. -/
def edges (known : Known) (conditions : List Condition) : List Edge :=
  byPriority Edge.priority (conditions.filterMap (edge? known))

/-- A choice with the edges that lead somewhere. -/
def choice (known : Known) (c : Choice) : ChoiceEdges :=
  ⟨c.value, c.nextStep.filter known, edges known c.conditions⟩

/-- The capabilities of a kind, if anything knows it. -/
def capabilities? (kinds : KindTable) (kind : StepKind) : Option Capabilities :=
  kind.capabilities? <|> kinds kind.name

/-- The capabilities of a kind. -/
def capabilities (kinds : KindTable) (kind : StepKind) : Capabilities :=
  (capabilities? kinds kind).getD { producesValue := true }

/-- Where a completion leads: the action's step counts before the step's own, also if it does not
exist. -/
def completion (known : Known) (d : StepDef) : Completion :=
  match d.action.bind Action.nextStep, d.nextStep with
  | some id, _ => if known id then .target id else .hold
  | none, some id => if known id then .target id else .hold
  | none, none => .route

/-- A step from which nothing leads. -/
def terminal (kinds : KindTable) (id : String) (d : StepDef) : Step :=
  { id, definition := d, capabilities := capabilities kinds d.kind, choices := [], edges := [],
    defaultNext := none, entryAction := none, completion := .hold, autoAdvance := none,
    terminal := true }

/-- The step that a definition stands for. -/
def step (known : Known) (kinds : KindTable) (id : String) (d : StepDef) : Step :=
  if d.isTerminal then terminal kinds id d
  else
    let capabilities := capabilities kinds d.kind
    let next := d.nextStep.filter known
    { id, definition := d, capabilities
      choices := d.staticChoices.map (choice known)
      edges := edges known d.conditions
      defaultNext := next
      entryAction := d.action
      completion := completion known d
      autoAdvance := if capabilities.canAutoAdvance then next else none
      terminal := false }

/-! ## What is reported -/

/-- The report on a target that is not declared. -/
def dangling (known : Known) (step origin : String) : Option String → List Diagnostic
  | some target => if known target then [] else [.danglingTarget step target origin]
  | none => []

/-- The report on a condition: a target that is not declared, or a guard that cannot be read. -/
def conditionReport (known : Known) (step origin : String) (c : Condition) : List Diagnostic :=
  if known c.target then
    match Expr.parse c.expression with
    | .ok _ => []
    | .error e => [.invalidExpression step c.expression e]
  else [.danglingTarget step c.target origin]

/-- The report on a choice. -/
def choiceReport (known : Known) (step : String) (c : Choice) : List Diagnostic :=
  dangling known step "option" c.nextStep ++
    c.conditions.flatMap (conditionReport known step "option condition")

/-- The report on a kind that nothing knows. -/
def kindReport (kinds : KindTable) (step : String) (kind : StepKind) : List Diagnostic :=
  if (capabilities? kinds kind).isSome then [] else [.unknownStepKind step kind.name]

/-- The report on a step. -/
def stepReport (known : Known) (kinds : KindTable) (id : String) (d : StepDef) : List Diagnostic :=
  kindReport kinds id d.kind ++
    if d.isTerminal then []
    else
      d.staticChoices.flatMap (choiceReport known id) ++
      d.conditions.flatMap (conditionReport known id "condition") ++
      dangling known id "nextStep" d.nextStep ++
      dangling known id "action nextStep" (d.action.bind Action.nextStep)

end Build

namespace Machine

/-- The declared initial step if it is a step, or else the first one, with a report. -/
def initialOf (known : Build.Known) (declared : Option String) (first : String) :
    String × List Diagnostic :=
  match declared with
  | some id => if known id then (id, []) else (first, [.missingInitialStep (some id) first])
  | none => (first, [.missingInitialStep none first])

/-- Compiles a document. -/
def build (kinds : Build.KindTable) (d : FlowDocument) : Except FlowError Machine :=
  match d.flow.steps with
  | [] => .error .noSteps
  | (first, _) :: _ =>
    let steps := d.flow.steps
    let known := fun id => steps.has id
    let (initial, report) := initialOf known d.flow.initialStep first
    .ok {
      initial
      steps := steps.map fun (id, definition) => Build.step known kinds id definition
      diagnostics :=
        report ++ steps.flatMap fun (id, definition) => Build.stepReport known kinds id definition
      version := d.versionLabel
      metadata := d.metadata }

end Machine

end Dialogue
