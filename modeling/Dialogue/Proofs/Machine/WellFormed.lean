import Mathlib.Data.List.Forall2
import Dialogue.Proofs.Machine.Routing

/-!
Well-formed machines.

`Machine.WellFormed` reads a compiled flow against its document, which nobody has checked: every
declared step is there, in order, and no other; each edge leads to a declared step; the edges of a
condition list fall in priority and keep their order among equals; a terminal step leads nowhere and
does nothing; and where a completion leads is decided once, by the action's step if it names one and
else by the step's own. Every document with a step compiles to a well-formed machine, whatever kinds
are registered, and a document without steps is refused (`build_wellFormed`).
-/
namespace Dialogue

/-! ## Edges of a condition list -/

/-- The edges are those of the conditions that lead to known steps. Priorities never rise, and edges
of one priority stand in the order of their conditions. -/
structure Edge.Ranked (known : Build.Known) (conditions : List Condition) (edges : List Edge) :
    Prop where
  falling : Falling Edge.priority edges
  stable : ∀ k, edges.filter (·.priority = k) =
    ((conditions.filter fun c => known c.target).map Condition.edge).filter (·.priority = k)

/-- The edges of a choice are those that the choice declares. -/
structure ChoiceEdges.Renders (known : Build.Known) (c : Choice) (e : ChoiceEdges) : Prop where
  value : e.value = c.value
  nextStep : e.nextStep = c.nextStep.filter known
  edges : Edge.Ranked known c.conditions e.edges

/-! ## Steps -/

/-- The step that is declared for the time after a completion: that of the action, or else that of
the step itself. -/
def StepDef.followUp (d : StepDef) : Option String :=
  d.action.bind Action.nextStep <|> d.nextStep

/-- Nothing leads away from the step, and nothing happens on entry. -/
structure Step.Ends (s : Step) : Prop where
  choices : s.choices = []
  edges : s.edges = []
  defaultNext : s.defaultNext = none
  autoAdvance : s.autoAdvance = none
  completion : ∀ id, s.completion ≠ .target id
  entryAction : s.entryAction = none

/-- The step leads where its definition says, as far as that is known. -/
structure Step.Leads (known : Build.Known) (d : StepDef) (s : Step) : Prop where
  choices : List.Forall₂ (ChoiceEdges.Renders known) d.staticChoices s.choices
  edges : Edge.Ranked known d.conditions s.edges
  defaultNext : s.defaultNext = d.nextStep.filter known
  entryAction : s.entryAction = d.action
  routed : s.completion = .route ↔ d.followUp = none
  targeted : ∀ id, s.completion = .target id ↔ d.followUp = some id ∧ known id = true
  held : s.completion = .hold ↔ ∃ id, d.followUp = some id ∧ known id = false
  autoAdvance : s.autoAdvance = if s.capabilities.canAutoAdvance then s.defaultNext else none

/-- The step is what its definition stands for under an id. -/
structure Step.Renders (kinds : Build.KindTable) (known : Build.Known) (id : String) (d : StepDef)
    (s : Step) : Prop where
  id : s.id = id
  definition : s.definition = d
  capabilities : s.capabilities = Build.capabilities kinds d.kind
  terminal : s.terminal = d.isTerminal
  within : s.Within known
  ends : d.isTerminal = true → s.Ends
  leads : d.isTerminal = false → s.Leads known d

/-- The machine is what its document stands for. -/
structure Machine.WellFormed (kinds : Build.KindTable) (d : FlowDocument) (m : Machine) :
    Prop where
  ids : m.steps.map Step.id = d.flow.steps.keys
  initial : some m.initial =
    (d.flow.initialStep.filter d.flow.steps.has <|> d.flow.steps.keys.head?)
  steps : List.Forall₂
    (fun entry s => s.Renders kinds d.flow.steps.has entry.1 entry.2) d.flow.steps m.steps

namespace Build

variable {known : Known} {kinds : KindTable}

/-- A stable sort of the edges that lead somewhere. -/
theorem edges_ranked (conditions : List Condition) :
    Edge.Ranked known conditions (edges known conditions) where
  falling := byPriority_falling _ _
  stable := by
    intro k
    rw [edges, byPriority_filter, filterMap_edge?]

theorem choice_renders (c : Choice) : (choice known c).Renders known c where
  value := rfl
  nextStep := rfl
  edges := edges_ranked c.conditions

/-- What is decided once: a declared step that is not known is not replaced by another one. -/
theorem completion_eq (d : StepDef) :
    completion known d = match d.followUp with
      | none => .route
      | some id => if known id then .target id else .hold := by
  unfold completion StepDef.followUp
  cases d.action.bind Action.nextStep with
  | some id => rfl
  | none => cases d.nextStep <;> rfl

theorem completion_route (d : StepDef) : completion known d = .route ↔ d.followUp = none := by
  rw [completion_eq]
  cases d.followUp with
  | none => simp
  | some id => cases hk : known id <;> simp [hk]

theorem completion_target (d : StepDef) (id : String) :
    completion known d = .target id ↔ d.followUp = some id ∧ known id = true := by
  rw [completion_eq]
  cases d.followUp with
  | none => simp
  | some other =>
    constructor
    · intro h
      dsimp only at h
      split at h
      · next hk => cases h; exact ⟨rfl, hk⟩
      · cases h
    · rintro ⟨h, hid⟩
      cases h
      exact if_pos hid

theorem completion_hold (d : StepDef) :
    completion known d = .hold ↔ ∃ id, d.followUp = some id ∧ known id = false := by
  rw [completion_eq]
  cases d.followUp with
  | none => simp
  | some id => cases hk : known id <;> simp [hk]

/-! ## Compiled steps -/

theorem step_of_terminal {d : StepDef} (h : d.isTerminal = true) (id : String) :
    step known kinds id d = terminal kinds id d := by
  rw [step, if_pos h]

theorem step_ends {d : StepDef} (h : d.isTerminal = true) (id : String) :
    (step known kinds id d).Ends := by
  rw [step_of_terminal h]
  exact ⟨rfl, rfl, rfl, rfl, fun _ hc => Completion.noConfusion hc, rfl⟩

theorem step_leads {d : StepDef} (h : d.isTerminal = false) (id : String) :
    (step known kinds id d).Leads known d := by
  have hn : ¬ d.isTerminal = true := by rw [h]; exact Bool.false_ne_true
  rw [step, if_neg hn]
  have hchoices : List.Forall₂ (ChoiceEdges.Renders known) d.staticChoices
      (d.staticChoices.map (choice known)) := by
    rw [List.forall₂_map_right_iff]
    exact List.forall₂_same.2 fun c _ => choice_renders c
  exact {
    choices := hchoices
    edges := edges_ranked d.conditions
    defaultNext := rfl
    entryAction := rfl
    routed := completion_route d
    targeted := completion_target d
    held := completion_hold d
    autoAdvance := rfl }

theorem step_capabilities (id : String) (d : StepDef) :
    (step known kinds id d).capabilities = capabilities kinds d.kind := by
  unfold step
  split <;> rfl

theorem step_renders (id : String) (d : StepDef) :
    (step known kinds id d).Renders kinds known id d where
  id := step_id id d
  definition := step_definition id d
  capabilities := step_capabilities id d
  terminal := step_terminal id d
  within := step_within id d
  ends h := step_ends h id
  leads h := step_leads h id

end Build

/-! ## Compiled documents -/

namespace Machine

/-- The declared step if there is one, and else the first. -/
theorem initialOf_eq (known : Build.Known) (declared : Option String) (first : String) :
    some (initialOf known declared first).1 = (declared.filter known <|> some first) := by
  cases declared with
  | none => rfl
  | some id => cases hk : known id <;> simp [initialOf, Option.filter, hk]

theorem build_nil {kinds : Build.KindTable} {d : FlowDocument} (h : d.flow.steps = []) :
    build kinds d = .error .noSteps := by
  unfold build
  rw [h]

theorem build_cons {kinds : Build.KindTable} {d : FlowDocument} (h : d.flow.steps ≠ []) :
    ∃ m, build kinds d = .ok m := by
  unfold build
  split
  · next hs => exact absurd hs h
  · exact ⟨_, rfl⟩

theorem build_start {kinds : Build.KindTable} {d : FlowDocument} {m : Machine}
    (h : build kinds d = .ok m) : some m.initial =
      (d.flow.initialStep.filter d.flow.steps.has <|> d.flow.steps.keys.head?) := by
  unfold build at h
  split at h
  · cases h
  · next first definition rest hs =>
    cases h
    have hfirst : d.flow.steps.keys.head? = some first := by rw [hs]; rfl
    rw [hfirst]
    exact initialOf_eq _ _ _

theorem build_renders {kinds : Build.KindTable} {d : FlowDocument} {m : Machine}
    (h : build kinds d = .ok m) : m.WellFormed kinds d where
  ids := by
    rw [build_steps h, List.map_map]
    refine List.map_congr_left fun entry _ => ?_
    exact Build.step_id entry.1 entry.2
  initial := build_start h
  steps := by
    rw [build_steps h, List.forall₂_map_right_iff]
    exact List.forall₂_same.2 fun entry _ => Build.step_renders entry.1 entry.2

/-- A document with a step compiles, to a machine that is what the document stands for; a document
without steps is refused. -/
theorem build_wellFormed (r : Registry) (d : FlowDocument) :
    (d.flow.steps = [] → build r.kinds d = .error .noSteps) ∧
    (d.flow.steps ≠ [] → ∃ m, build r.kinds d = .ok m ∧ m.WellFormed r.kinds d) := by
  refine ⟨build_nil, fun h => ?_⟩
  obtain ⟨m, hm⟩ := build_cons h
  exact ⟨m, hm, build_renders hm⟩

/-- A payment whose action leads to a step that is not declared, beside a next step that is, and
whose conditions are declared out of the order of their priorities. -/
def detour : FlowDocument where
  flow := {
    initialStep := some "welcome"
    steps := [
      ("pay", { kind := .system, action := some { kind := "charge", nextStep := some "receipt" },
                nextStep := some "thanks",
                conditions := [⟨"true", "thanks", 0⟩, ⟨"oops(", "lost", 9⟩, ⟨"1 <", "pay", 5⟩] }),
      ("thanks", { isTerminal := true, nextStep := some "pay" })] }

/-- The payment waits: the next step does not stand in for the one that is missing. -/
theorem build_wellFormed_detour : detour.flow.steps ≠ [] ∧
    ∃ m, build Registry.standard.kinds detour = .ok m ∧
      m.WellFormed Registry.standard.kinds detour ∧ m.initial = "pay" ∧
      (m.step? "pay").map Step.completion = some .hold := by
  have hsteps : detour.flow.steps ≠ [] := by decide
  obtain ⟨m, hm, hw⟩ := (build_wellFormed Registry.standard detour).2 hsteps
  refine ⟨hsteps, m, hm, hw, ?_, ?_⟩
  · exact Option.some.inj hw.initial
  · rw [build_step? hm]
    rfl

end Machine

end Dialogue
