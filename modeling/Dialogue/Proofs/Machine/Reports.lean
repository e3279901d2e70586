import Mathlib.Data.List.Perm.Basic
import Dialogue.Proofs.Machine.WellFormed

/-!
What compiling loses, and what it reports.

A step declares targets in five places: the next step of a choice, the conditions of a choice, the
conditions of the step, its next step, and the next step of its action. `StepDef.exits` lists them
as they are declared, and `Step.exits` lists what a compiled step has of them. `Machine.Accounts`
draws up the balance of a compiled document: each declared target that is a step is an edge, each
other one is one report that names its step, its target and its place, and no target is both; the
guards that never hold are the conditions that cannot be read, with one report each; each step of an
unknown kind is reported once; and so is an initial step that is missing. There is no other report.
The balance holds of every document with a step (`build_accounts`).

Reports are counted by permutations of lists, so a report that is made twice would show as well as
one that is left out.
-/
namespace Dialogue

/-! ## Declared targets -/

/-- A target that a step names, by the place at which it does. A choice counts by its position. -/
inductive Exit (α : Type) where
  | choice (i : Nat) (target : String)
  | choiceCondition (i : Nat) (c : α)
  | condition (c : α)
  | next (target : String)
  | action (target : String)

namespace Exit

variable {α β : Type}

def map (f : α → β) : Exit α → Exit β
  | .choice i target => .choice i target
  | .choiceCondition i c => .choiceCondition i (f c)
  | .condition c => .condition (f c)
  | .next target => .next target
  | .action target => .action target

/-- The condition at the place, if there is one. -/
def condition? : Exit α → Option α
  | .choiceCondition _ c => some c
  | .condition c => some c
  | _ => none

/-- The place, in the words of reports. -/
def origin : Exit α → String
  | .choice .. => "option"
  | .choiceCondition .. => "option condition"
  | .condition _ => "condition"
  | .next _ => "nextStep"
  | .action _ => "action nextStep"

/-- The target, given those of conditions. -/
def targetBy (f : α → String) : Exit α → String
  | .choice _ target => target
  | .choiceCondition _ c => f c
  | .condition c => f c
  | .next target => target
  | .action target => target

theorem condition?_map (f : α → β) (x : Exit α) : (x.map f).condition? = x.condition?.map f := by
  cases x <;> rfl

end Exit

/-- The target of a declared exit. -/
def Exit.target (x : Exit Condition) : String := x.targetBy Condition.target

/-- The target of a compiled exit. -/
def Exit.leadsTo (x : Exit Edge) : String := x.targetBy Edge.target

theorem Exit.leadsTo_map (x : Exit Condition) : (x.map Condition.edge).leadsTo = x.target := by
  cases x <;> rfl

/-- The targets that a choice at a position declares. -/
def Choice.exits (c : Choice) (i : Nat) : List (Exit Condition) :=
  c.nextStep.toList.map (.choice i) ++ c.conditions.map (.choiceCondition i)

/-- The targets that a step declares, unless it is terminal. -/
def StepDef.exits (d : StepDef) : List (Exit Condition) :=
  if d.isTerminal then []
  else
    d.staticChoices.zipIdx.flatMap (fun (c, i) => c.exits i) ++ d.conditions.map .condition ++
      d.nextStep.toList.map .next ++ (d.action.bind Action.nextStep).toList.map .action

/-- The targets that a compiled choice at a position has. -/
def ChoiceEdges.exits (c : ChoiceEdges) (i : Nat) : List (Exit Edge) :=
  c.nextStep.toList.map (.choice i) ++ c.edges.map (.choiceCondition i)

/-- The target of the completion, where the action names one. -/
def Step.actionTarget? (s : Step) : Option String :=
  match s.entryAction.bind Action.nextStep, s.completion with
  | some _, .target id => some id
  | _, _ => none

/-- The targets that a compiled step has. -/
def Step.exits (s : Step) : List (Exit Edge) :=
  s.choices.zipIdx.flatMap (fun (c, i) => c.exits i) ++ s.edges.map .condition ++
    s.defaultNext.toList.map .next ++ s.actionTarget?.toList.map .action

/-- The targets that a document declares, each with its step. -/
def FlowDocument.exits (d : FlowDocument) : List (String × Exit Condition) :=
  d.flow.steps.flatMap fun (id, definition) => definition.exits.map (id, ·)

/-- The declared targets that are steps. -/
def FlowDocument.kept (d : FlowDocument) : List (String × Exit Condition) :=
  d.exits.filter fun x => d.flow.steps.has x.2.target

/-- The declared targets that are no steps. -/
def FlowDocument.lost (d : FlowDocument) : List (String × Exit Condition) :=
  d.exits.filter fun x => !d.flow.steps.has x.2.target

/-- A condition that cannot be read, with its step and the reason. -/
structure Unreadable where
  step : String
  condition : Condition
  error : ParseError

/-- The condition of an exit, if it cannot be read. -/
def Exit.unreadable? (step : String) (x : Exit Condition) : Option Unreadable :=
  x.condition?.bind fun c =>
    match Expr.parse c.expression with
    | .ok _ => none
    | .error e => some ⟨step, c, e⟩

/-- The conditions that lead to a step and cannot be read. -/
def FlowDocument.unreadable (d : FlowDocument) : List Unreadable :=
  d.kept.filterMap fun x => x.2.unreadable? x.1

/-- The steps of a kind that is neither built in nor registered. -/
def FlowDocument.strangers (r : Registry) (d : FlowDocument) : Entries StepDef :=
  d.flow.steps.filter fun (_, definition) =>
    definition.kind.capabilities?.isNone && (r.inputs.get? definition.kind.name).isNone

/-- The targets that a compiled flow has, each with its step. -/
def Machine.exits (m : Machine) : List (String × Exit Edge) :=
  m.steps.flatMap fun s => s.exits.map (s.id, ·)

/-- The edges whose guard never holds because it could not be read, each with its step. -/
def Machine.mute (m : Machine) : List (String × Edge) :=
  m.exits.filterMap fun x => (x.2.condition?.filter fun e => e.guard.isNone).map (x.1, ·)

/-! ## Reports -/

namespace Diagnostic

/-- The report on a target that is no step. -/
def ofLost (x : String × Exit Condition) : Diagnostic :=
  .danglingTarget x.1 x.2.target x.2.origin

/-- The report on a condition that cannot be read. -/
def ofUnreadable (u : Unreadable) : Diagnostic :=
  .invalidExpression u.step u.condition.expression u.error

/-- The report on a step of an unknown kind. -/
def ofStranger (entry : String × StepDef) : Diagnostic :=
  .unknownStepKind entry.1 entry.2.kind.name

end Diagnostic

/-- What was declared, what was compiled and what is reported balance. -/
structure Machine.Accounts (r : Registry) (d : FlowDocument) (m : Machine) : Prop where
  /-- The edges are the declared targets that are steps. -/
  edges : m.exits.Perm (d.kept.map fun x => (x.1, x.2.map Condition.edge))
  /-- The guards that never hold are the conditions that cannot be read. -/
  mute : m.mute.Perm (d.unreadable.map fun u => (u.step, u.condition.edge))
  /-- The reports are one for a missing initial step, one for each step of an unknown kind, one for
  each target that is no step, and one for each condition that cannot be read. -/
  reports : m.diagnostics.Perm
    ((if d.flow.initialStep.any d.flow.steps.has then []
      else [.missingInitialStep d.flow.initialStep m.initial]) ++
      (d.strangers r).map .ofStranger ++ d.lost.map .ofLost ++ d.unreadable.map .ofUnreadable)
  /-- No target is both an edge and reported. -/
  apart : ∀ x ∈ m.exits, .danglingTarget x.1 x.2.leadsTo x.2.origin ∉ m.diagnostics

namespace Build

variable {known : Known} {kinds : KindTable}

/-! ## The edges of a step -/

theorem edges_perm (conditions : List Condition) :
    (edges known conditions).Perm
      ((conditions.filter fun c => known c.target).map Condition.edge) := by
  rw [edges, filterMap_edge?]
  exact byPriority_perm _ _

/-- The conditions at one sort of place, compiled. -/
theorem conditions_exits (place : {α : Type} → α → Exit α)
    (maps : ∀ c : Condition, (place c).map Condition.edge = place c.edge)
    (leads : ∀ c : Condition, (place c).target = c.target) (conditions : List Condition) :
    ((edges known conditions).map place).Perm
      (((conditions.map place).filter fun x => known x.target).map (Exit.map Condition.edge)) := by
  have hdeclared : ((conditions.map place).filter fun x => known x.target).map
      (Exit.map Condition.edge) =
        ((conditions.filter fun c => known c.target).map Condition.edge).map place := by
    rw [List.filter_map, List.map_map, List.map_map]
    have htargets : (fun x : Exit Condition => known x.target) ∘ place =
        fun c : Condition => known c.target := funext fun c => by simp [leads]
    rw [htargets]
    exact List.map_congr_left fun c _ => maps c
  rw [hdeclared]
  exact (edges_perm conditions).map place

/-- The single target at one sort of place, compiled. -/
theorem target_exits (place : {α : Type} → String → Exit α)
    (maps : ∀ id, (place id : Exit Condition).map Condition.edge = place id)
    (leads : ∀ id, (place id : Exit Condition).target = id) (target : Option String) :
    ((target.filter known).toList.map place).Perm
      (((target.toList.map place).filter fun x => known x.target).map
        (Exit.map Condition.edge)) := by
  cases target with
  | none => rfl
  | some id => cases hk : known id <;> simp [hk, Option.filter, leads, maps]

theorem choice_exits (c : Choice) (i : Nat) :
    ((choice known c).exits i).Perm
      (((c.exits i).filter fun x => known x.target).map (Exit.map Condition.edge)) := by
  rw [Choice.exits, List.filter_append, List.map_append]
  exact (target_exits (.choice i) (fun _ => rfl) (fun _ => rfl) c.nextStep).append
    (conditions_exits (.choiceCondition i) (fun _ => rfl) (fun _ => rfl) c.conditions)

theorem choices_exits (choices : List Choice) :
    ((choices.map (choice known)).zipIdx.flatMap fun (c, i) => c.exits i).Perm
      (((choices.zipIdx.flatMap fun (c, i) => c.exits i).filter fun x => known x.target).map
        (Exit.map Condition.edge)) := by
  rw [List.zipIdx_map, List.flatMap_map, List.filter_flatMap, List.map_flatMap]
  exact List.Perm.flatMap_left _ fun entry _ => choice_exits entry.1 entry.2

theorem actionTarget?_step {d : StepDef} (h : d.isTerminal = false) (id : String) :
    (step known kinds id d).actionTarget? = (d.action.bind Action.nextStep).filter known := by
  have hleads : (step known kinds id d).Leads known d := step_leads h id
  rw [Step.actionTarget?, hleads.entryAction]
  cases hnext : d.action.bind Action.nextStep with
  | none => rfl
  | some next =>
    have hfollow : d.followUp = some next := by rw [StepDef.followUp, hnext]; rfl
    cases hk : known next with
    | true => simp [(hleads.targeted next).2 ⟨hfollow, hk⟩, Option.filter, hk]
    | false => simp [hleads.held.2 ⟨next, hfollow, hk⟩, Option.filter, hk]

/-- The edges of a compiled step are the targets that it declares and that are steps. -/
theorem step_exits (id : String) (d : StepDef) :
    (step known kinds id d).exits.Perm
      ((d.exits.filter fun x => known x.target).map (Exit.map Condition.edge)) := by
  cases h : d.isTerminal with
  | true =>
    rw [step_of_terminal h, StepDef.exits, if_pos h]
    rfl
  | false =>
    have hn : ¬ d.isTerminal = true := by rw [h]; exact Bool.false_ne_true
    rw [Step.exits, actionTarget?_step h, StepDef.exits, if_neg hn]
    simp only [List.filter_append, List.map_append, step, if_neg hn]
    exact (((choices_exits d.staticChoices).append
      (conditions_exits .condition (fun _ => rfl) (fun _ => rfl) d.conditions)).append
      (target_exits .next (fun _ => rfl) (fun _ => rfl) d.nextStep)).append
      (target_exits .action (fun _ => rfl) (fun _ => rfl) _)

/-! ## The reports on a step -/

/-- The report on a declared target: that it is no step, or that its condition cannot be read. -/
def exitReport (known : Known) (step : String) (x : Exit Condition) : List Diagnostic :=
  if known x.target then ((x.unreadable? step).map .ofUnreadable).toList else [.ofLost (step, x)]

theorem dangling_eq (place : {α : Type} → String → Exit α)
    (leads : ∀ id, (place id : Exit Condition).target = id)
    (plain : ∀ id, (place id : Exit Condition).condition? = none) (id origin : String)
    (named : ∀ target, (place target : Exit Condition).origin = origin) (target : Option String) :
    dangling known id origin target = (target.toList.map place).flatMap (exitReport known id) := by
  cases target with
  | none => rfl
  | some target =>
    cases hk : known target <;>
      simp [dangling, exitReport, Exit.unreadable?, Diagnostic.ofLost, hk, leads, plain, named]

theorem conditionReport_eq (place : {α : Type} → α → Exit α)
    (leads : ∀ c : Condition, (place c).target = c.target)
    (guarded : ∀ c : Condition, (place c).condition? = some c) (id origin : String)
    (named : ∀ c : Condition, (place c).origin = origin) (conditions : List Condition) :
    conditions.flatMap (conditionReport known id origin) =
      (conditions.map place).flatMap (exitReport known id) := by
  rw [List.flatMap_map]
  refine List.flatMap_congr fun c _ => ?_
  rw [conditionReport, exitReport, leads, Exit.unreadable?, guarded]
  cases hk : known c.target with
  | false => simp [Diagnostic.ofLost, leads, named]
  | true => cases hparse : Expr.parse c.expression <;> simp [Diagnostic.ofUnreadable, hparse]

theorem choiceReport_eq (id : String) (c : Choice) (i : Nat) :
    choiceReport known id c = (c.exits i).flatMap (exitReport known id) := by
  rw [choiceReport, Choice.exits, List.flatMap_append]
  congr 1
  · exact dangling_eq (.choice i) (fun _ => rfl) (fun _ => rfl) id _ (fun _ => rfl) _
  · exact conditionReport_eq (.choiceCondition i) (fun _ => rfl) (fun _ => rfl) id _
      (fun _ => rfl) _

theorem choicesReport_eq (id : String) (choices : List Choice) :
    choices.flatMap (choiceReport known id) =
      (choices.zipIdx.flatMap fun (c, i) => c.exits i).flatMap (exitReport known id) := by
  have hplaces : choices.flatMap (choiceReport known id) =
      (choices.zipIdx.map Prod.fst).flatMap (choiceReport known id) := by
    rw [List.zipIdx_map_fst]
  rw [hplaces, List.flatMap_map, List.flatMap_assoc]
  exact List.flatMap_congr fun entry _ => choiceReport_eq id entry.1 entry.2

/-- A step is reported for its kind, and then once for each of its targets at most. -/
theorem stepReport_eq (id : String) (d : StepDef) :
    stepReport known kinds id d = kindReport kinds id d.kind ++
      d.exits.flatMap (exitReport known id) := by
  rw [stepReport, StepDef.exits]
  split
  · rfl
  · simp only [List.flatMap_append]
    rw [choicesReport_eq,
      conditionReport_eq .condition (fun _ => rfl) (fun _ => rfl) id _ (fun _ => rfl),
      dangling_eq .next (fun _ => rfl) (fun _ => rfl) id _ (fun _ => rfl) d.nextStep,
      dangling_eq .action (fun _ => rfl) (fun _ => rfl) id _ (fun _ => rfl)]

/-! ## The reports on a document -/

theorem exitReports_perm (exits : List (String × Exit Condition)) :
    (exits.flatMap fun x => exitReport known x.1 x.2).Perm
      ((exits.filter fun x => !known x.2.target).map .ofLost ++
        ((exits.filter fun x => known x.2.target).filterMap fun x => x.2.unreadable? x.1).map
          .ofUnreadable) := by
  have hlost : (exits.filter fun x => !known x.2.target).flatMap
      (fun x => exitReport known x.1 x.2) =
        (exits.filter fun x => !known x.2.target).map .ofLost := by
    rw [List.map_eq_flatMap]
    refine List.flatMap_congr fun x hx => ?_
    have hk : known x.2.target = false := by simpa using (List.mem_filter.1 hx).2
    simp [exitReport, hk]
  have hkept : (exits.filter fun x => known x.2.target).flatMap
      (fun x => exitReport known x.1 x.2) =
        ((exits.filter fun x => known x.2.target).filterMap fun x => x.2.unreadable? x.1).map
          .ofUnreadable := by
    rw [List.map_filterMap, List.filterMap_eq_flatMap_toList]
    refine List.flatMap_congr fun x hx => ?_
    rw [exitReport, if_pos (List.mem_filter.1 hx).2]
  rw [← hlost, ← hkept, ← List.flatMap_append]
  refine List.Perm.flatMap_right _ ?_
  exact (List.filter_append_perm _ exits).symm.trans List.perm_append_comm

theorem kindReport_eq (r : Registry) (id : String) (kind : StepKind) :
    kindReport r.kinds id kind =
      if kind.capabilities?.isNone && (r.inputs.get? kind.name).isNone
      then [.unknownStepKind id kind.name] else [] := by
  rw [kindReport, capabilities?, Registry.kinds]
  cases kind.capabilities? <;> cases r.inputs.get? kind.name <;> rfl

/-- A kind is reported when it is neither built in nor registered. -/
theorem kindReports_eq (r : Registry) (steps : Entries StepDef) :
    steps.flatMap (fun (id, definition) => kindReport r.kinds id definition.kind) =
      (steps.filter fun (_, definition) => definition.kind.capabilities?.isNone &&
        (r.inputs.get? definition.kind.name).isNone).map .ofStranger := by
  induction steps with
  | nil => rfl
  | cons entry rest ih =>
    obtain ⟨id, definition⟩ := entry
    rw [List.flatMap_cons, ih, List.filter_cons]
    dsimp only
    rw [kindReport_eq]
    split <;> rfl

end Build

namespace Machine

variable {r : Registry} {d : FlowDocument} {m : Machine}

theorem build_exits (h : build r.kinds d = .ok m) :
    m.exits.Perm (d.kept.map fun x => (x.1, x.2.map Condition.edge)) := by
  have hkept : (d.kept.map fun x => (x.1, x.2.map Condition.edge)) =
      d.flow.steps.flatMap fun (id, definition) =>
        ((definition.exits.filter fun x => d.flow.steps.has x.target).map
          (Exit.map Condition.edge)).map (id, ·) := by
    rw [FlowDocument.kept, FlowDocument.exits, List.filter_flatMap, List.map_flatMap]
    refine List.flatMap_congr fun (id, definition) _ => ?_
    dsimp only
    rw [List.filter_map, List.map_map, List.map_map]
    rfl
  rw [hkept, exits, build_steps h, List.flatMap_map]
  refine List.Perm.flatMap_left _ fun entry _ => ?_
  rw [Build.step_id]
  exact (Build.step_exits entry.1 entry.2).map _

/-- A condition cannot be read exactly when the guard of its edge never holds. -/
theorem unreadable?_edge (id : String) (x : Exit Condition) :
    (x.unreadable? id).map (fun u => (u.step, u.condition.edge)) =
      ((x.map Condition.edge).condition?.filter fun e => e.guard.isNone).map (id, ·) := by
  rw [Exit.condition?_map, Exit.unreadable?]
  cases x.condition? with
  | none => rfl
  | some c =>
    cases hparse : Expr.parse c.expression <;>
      simp [Condition.edge, Guard.ofSource?, Option.filter, hparse]

theorem build_mute (h : build r.kinds d = .ok m) :
    m.mute.Perm (d.unreadable.map fun u => (u.step, u.condition.edge)) := by
  have hmute := (build_exits h).filterMap fun x =>
    (x.2.condition?.filter fun e => e.guard.isNone).map (x.1, ·)
  have hunreadable : (d.unreadable.map fun u => (u.step, u.condition.edge)) =
      (d.kept.map fun x => (x.1, x.2.map Condition.edge)).filterMap fun x =>
        (x.2.condition?.filter fun e => e.guard.isNone).map (x.1, ·) := by
    rw [FlowDocument.unreadable, List.map_filterMap, List.filterMap_map]
    exact List.filterMap_congr fun x _ => unreadable?_edge x.1 x.2
  rw [hunreadable]
  exact hmute

theorem build_initialReport (h : build r.kinds d = .ok m) : ∃ report,
    m.diagnostics = report ++ d.flow.steps.flatMap (fun (id, definition) =>
      Build.stepReport d.flow.steps.has r.kinds id definition) ∧
    report = if d.flow.initialStep.any d.flow.steps.has then []
      else [.missingInitialStep d.flow.initialStep m.initial] := by
  unfold build at h
  split at h
  · cases h
  · cases h
    refine ⟨_, rfl, ?_⟩
    cases hd : d.flow.initialStep with
    | none => rfl
    | some id => cases hk : d.flow.steps.has id <;> simp [hk]

/-- The reports, but for their order. -/
theorem build_reports (h : build r.kinds d = .ok m) : m.diagnostics.Perm
    ((if d.flow.initialStep.any d.flow.steps.has then []
      else [.missingInitialStep d.flow.initialStep m.initial]) ++
      (d.strangers r).map .ofStranger ++ d.lost.map .ofLost ++ d.unreadable.map .ofUnreadable) := by
  obtain ⟨report, hdiagnostics, hreport⟩ := build_initialReport h
  have hsteps : (d.flow.steps.flatMap fun (id, definition) =>
      Build.stepReport d.flow.steps.has r.kinds id definition).Perm
        ((d.strangers r).map .ofStranger ++
          d.exits.flatMap fun x => Build.exitReport d.flow.steps.has x.1 x.2) := by
    rw [FlowDocument.strangers, ← Build.kindReports_eq, FlowDocument.exits, List.flatMap_assoc]
    refine .trans (.of_eq ?_) (List.flatMap_append_perm _ _ _).symm
    refine List.flatMap_congr fun (id, definition) _ => ?_
    rw [List.flatMap_map]
    exact Build.stepReport_eq id definition
  rw [hdiagnostics, hreport, List.append_assoc, List.append_assoc]
  exact (hsteps.trans ((Build.exitReports_perm d.exits).append_left _)).append_left _

/-- Only a target that is no step is reported as one. -/
theorem lost_of_dangling (h : build r.kinds d = .ok m) {id target origin : String}
    (hreport : .danglingTarget id target origin ∈ m.diagnostics) :
    ∃ x ∈ d.lost, x.2.target = target := by
  rw [(build_reports h).mem_iff] at hreport
  simp only [List.mem_append, List.mem_map] at hreport
  obtain ((hinitial | ⟨_, _, hkind⟩) | ⟨x, hx, hlost⟩) | ⟨_, _, hcondition⟩ := hreport
  · split at hinitial <;> simp at hinitial
  · cases hkind
  · rw [Diagnostic.ofLost, Diagnostic.danglingTarget.injEq] at hlost
    exact ⟨x, hx, hlost.2.1⟩
  · cases hcondition

theorem build_apart (h : build r.kinds d = .ok m) (x : String × Exit Edge) (hx : x ∈ m.exits) :
    .danglingTarget x.1 x.2.leadsTo x.2.origin ∉ m.diagnostics := by
  intro hreport
  obtain ⟨kept, hkept, rfl⟩ := List.mem_map.1 ((build_exits h).mem_iff.1 hx)
  have hknown : d.flow.steps.has kept.2.target = true := (List.mem_filter.1 hkept).2
  obtain ⟨lost, hlost, htarget⟩ := lost_of_dangling h hreport
  rw [Exit.leadsTo_map] at htarget
  have hunknown := (List.mem_filter.1 hlost).2
  rw [htarget, hknown] at hunknown
  cases hunknown

theorem build_balance (h : build r.kinds d = .ok m) : m.Accounts r d where
  edges := build_exits h
  mute := build_mute h
  reports := build_reports h
  apart := build_apart h

/-- Every document with a step compiles, and its reports account for all that is lost. -/
theorem build_accounts (r : Registry) (d : FlowDocument) (h : d.flow.steps ≠ []) :
    ∃ m, build r.kinds d = .ok m ∧ m.Accounts r d := by
  obtain ⟨m, hm⟩ := build_cons h
  exact ⟨m, hm, build_balance hm⟩

/-- A menu that names what is not there: the step to start with, a dish, the step of a condition of
that dish, and the step after the order. Another condition of the dish cannot be read. -/
def menu : FlowDocument where
  flow := {
    initialStep := some "door"
    steps := [
      ("menu", { kind := .custom "carousel",
                 options := some (.list [
                  { value := .string "soup", nextStep := some "soup",
                    conditions := [⟨"1 <", "bill", 3⟩, ⟨"true", "soup", 5⟩] }]),
                 action := some { kind := "order", nextStep := some "kitchen" },
                 nextStep := some "bill" }),
      ("bill", { isTerminal := true, nextStep := some "street" })] }

/-- The soup is missed twice, the kitchen once; the terminal step declares nothing. -/
theorem build_accounts_menu : menu.flow.steps ≠ [] ∧
    ∃ m, build Registry.standard.kinds menu = .ok m ∧ m.Accounts Registry.standard menu ∧
      menu.lost.map Diagnostic.ofLost = [.danglingTarget "menu" "soup" "option",
        .danglingTarget "menu" "soup" "option condition",
        .danglingTarget "menu" "kitchen" "action nextStep"] ∧
      (menu.strangers Registry.standard).map Diagnostic.ofStranger =
        [.unknownStepKind "menu" "carousel"] ∧
      menu.unreadable.map (fun u => (u.step, u.condition.expression)) = [("menu", "1 <")] := by
  have hsteps : menu.flow.steps ≠ [] := List.cons_ne_nil _ _
  obtain ⟨m, hm, haccounts⟩ := build_accounts Registry.standard menu hsteps
  exact ⟨hsteps, m, hm, haccounts, by decide +kernel, by decide +kernel, by decide +kernel⟩

end Machine

end Dialogue
