import Dialogue.Proofs.Flow.Priority
import Dialogue.Proofs.Machine.Edges
import Dialogue.Registry

/-!
Compiled edges and the document they come from.

`StepDef.route` reads where an answer leads straight off the document, parsing each expression when
it is needed and sorting all conditions at once. A compiled step has its guards parsed, its dangling
edges removed and the edges of each choice sorted on their own. Both come to the same step
(`resolveAnswer_eq_route`): a guard that cannot be parsed holds no more than its text does
(`Condition.edge_holds`), leaving edges out commutes with sorting them (`Build.edges_eq`), and
sorting choice by choice first makes no difference (`byPriority_chosen`).
-/
namespace Dialogue

/-- Where an answer leads by the document: to the target of a condition of a choice that has the
value, to the next step of such a choice, to the target of a condition of the step, or to the next
step of the step. Targets that are not known count as absent. -/
def StepDef.route (d : StepDef) (known : Build.Known) (loaded : List Choice) (context : Context)
    (value : Json) : Option String :=
  let chosen := (d.staticChoices ++ loaded).filter fun c => c.value.strictEquals value
  Condition.route ((chosen.flatMap Choice.conditions).filter fun c => known c.target)
      (context.scopeWith value) <|>
    chosen.findSome? (fun c => c.nextStep.filter known) <|>
    Condition.route (d.conditions.filter fun c => known c.target) context.scope <|>
    d.nextStep.filter known

/-! ## Edges of conditions -/

/-- The edge that a condition stands for, wherever it leads. -/
def Condition.edge (c : Condition) : Edge :=
  ⟨Guard.ofSource? c.expression, c.target, c.priority⟩

/-- An edge holds when the source text of its guard does, also if that cannot be parsed. -/
theorem Condition.edge_holds (c : Condition) (scope : Json) :
    c.edge.holds scope = Expr.sourceHolds c.expression scope := by
  simp only [Condition.edge, Edge.holds, Guard.ofSource?, Expr.sourceHolds, Expr.evaluateSource]
  cases Expr.parse c.expression with
  | error e => rfl
  | ok expr =>
    simp only [Option.any_some, Expr.holds]
    cases expr.eval scope <;> rfl

/-- Edges are sorted as their conditions are. -/
theorem byPriority_edge (conditions : List Condition) :
    byPriority Edge.priority (conditions.map Condition.edge) =
      (byPriority Condition.priority conditions).map Condition.edge :=
  byPriority_map (fun _ => rfl) conditions

/-- The first edge that holds, in the order of priorities, is that of the first condition. -/
theorem Machine.firstEdge?_edge (conditions : List Condition) (scope : Json) :
    firstEdge? ((byPriority Condition.priority conditions).map Condition.edge) scope =
      Condition.route conditions scope := by
  have hholds : (fun c : Condition => c.edge.holds scope) =
      fun c => Expr.sourceHolds c.expression scope := funext fun c => c.edge_holds scope
  rw [firstEdge?, List.find?_map, Option.map_map, Condition.route, ← hholds]
  rfl

namespace Build

variable {known : Known}

theorem filterMap_edge? (conditions : List Condition) :
    conditions.filterMap (edge? known) =
      (conditions.filter fun c => known c.target).map Condition.edge := by
  rw [← List.filterMap_eq_map, ← List.filterMap_eq_filter, List.filterMap_filterMap]
  refine congrArg (List.filterMap · conditions) (funext fun c => ?_)
  cases hk : known c.target <;> simp [edge?, hk, Option.guard, Condition.edge]

theorem edges_eq (conditions : List Condition) :
    edges known conditions =
      (byPriority Condition.priority (conditions.filter fun c => known c.target)).map
        Condition.edge := by
  rw [edges, filterMap_edge?, byPriority_edge]

/-- The edges of several choices, sorted for each and then together, are the edges of all their
conditions. -/
theorem byPriority_chosen (choices : List Choice) :
    byPriority Edge.priority ((choices.map (choice known)).flatMap ChoiceEdges.edges) =
      (byPriority Condition.priority
        ((choices.flatMap Choice.conditions).filter fun c => known c.target)).map
          Condition.edge := by
  have hsorted : (choices.map (choice known)).flatMap ChoiceEdges.edges =
      choices.flatMap fun c =>
        byPriority Edge.priority (c.conditions.filterMap (edge? known)) := by
    rw [List.flatMap_map]; rfl
  rw [hsorted, byPriority_flatMap, ← byPriority_edge, ← filterMap_edge?, List.filterMap_flatMap]

end Build

/-! ## Answers -/

namespace Machine

variable {kinds : Build.KindTable} {d : FlowDocument} {m : Machine}

theorem chosen_eq {step : Step} {definition : StepDef}
    (hs : step.choices = definition.staticChoices.map (Build.choice m.contains)) (s : State)
    (value : Json) :
    m.chosen step s value =
      ((definition.staticChoices ++ s.resolvedOptions.getD []).filter fun c =>
        c.value.strictEquals value).map (Build.choice m.contains) := by
  have hloaded : m.resolvedEdges = Build.choice m.contains := funext resolvedEdges_eq
  rw [chosen, hs, hloaded, ← List.map_append, List.filter_map]
  rfl

/-- A step with the edges of a definition answers as the definition reads. -/
theorem resolveAnswer_step {id : String} {definition : StepDef}
    (hn : definition.isTerminal = false) (s : State) (value : Json) :
    m.resolveAnswer (Build.step m.contains kinds id definition) s value =
      definition.route m.contains (s.resolvedOptions.getD []) s.context value := by
  -- A terminal step is compiled without any edges, whatever its definition says.
  have hstep : (Build.step m.contains kinds id definition).choices =
      definition.staticChoices.map (Build.choice m.contains) ∧
      (Build.step m.contains kinds id definition).edges =
        Build.edges m.contains definition.conditions ∧
      (Build.step m.contains kinds id definition).defaultNext =
        definition.nextStep.filter m.contains := by
    simp [Build.step, hn]
  obtain ⟨hchoices, hedges, hnext⟩ := hstep
  rw [resolveAnswer, chosen_eq hchoices, Build.byPriority_chosen, firstEdge?_edge, hedges,
    Build.edges_eq, firstEdge?_edge, hnext, List.findSome?_map]
  rfl

/-- At every step that is not terminal, with whatever choices were loaded, an answer leads where the
document reads. -/
theorem resolveAnswer_eq_route (r : Registry) (h : build r.kinds d = .ok m) {s : State}
    {definition : StepDef} (hd : d.flow.steps.get? s.currentStep = some definition)
    (hn : definition.isTerminal = false) (value : Json) :
    ∃ step, m.step? s.currentStep = some step ∧ step.definition = definition ∧
      m.resolveAnswer step s value =
        definition.route d.flow.steps.has (s.resolvedOptions.getD []) s.context value := by
  refine ⟨Build.step d.flow.steps.has r.kinds s.currentStep definition, ?_, ?_, ?_⟩
  · rw [build_step? h, hd, Option.map_some]
  · exact Build.step_definition _ _
  · rw [← build_contains h]
    exact resolveAnswer_step hn s value

/-- Two plans of one name. The first has a guard that cannot be read and a target that is not
declared. -/
def plans : FlowDocument where
  flow := { steps := [
    ("start", { options := some (.list [
      { value := .string "monthly", nextStep := some "plain", conditions := [
        ⟨"false", "plain", 1⟩, ⟨"true", "nowhere", 2⟩, ⟨"((", "plain", 3⟩] },
      { value := .string "monthly", conditions := [⟨"currentValue", "vip", 2⟩] }]) }),
    ("plain", {}), ("vip", {})] }

/-- The state at the choice of a plan. -/
def choosing : State := { context := { currentStep := "start" } }

/-- Of the two plans, the second has the edge that holds. -/
theorem resolveAnswer_eq_route_plans : ∃ m, build Registry.empty.kinds plans = .ok m ∧
    ∃ step, m.step? "start" = some step ∧
      m.resolveAnswer step choosing (.string "monthly") = some "vip" := by
  obtain ⟨step, hs, -, hr⟩ := resolveAnswer_eq_route Registry.empty (d := plans) rfl
    (s := choosing) rfl rfl (.string "monthly")
  have hsorted : byPriority Condition.priority
      [⟨"false", "plain", 1⟩, ⟨"((", "plain", 3⟩, ⟨"currentValue", "vip", 2⟩] =
      [⟨"((", "plain", 3⟩, ⟨"currentValue", "vip", 2⟩, ⟨"false", "plain", 1⟩] := by
    simp [byPriority, List.mergeSort]
  refine ⟨_, rfl, step, hs, hr.trans ?_⟩
  change (Option.map Condition.target (List.find? _ (byPriority Condition.priority
      [⟨"false", "plain", 1⟩, ⟨"((", "plain", 3⟩, ⟨"currentValue", "vip", 2⟩])) <|> _) = _
  rw [hsorted]
  rfl

end Machine

end Dialogue
