import Dialogue.Machine.Build
import Dialogue.Machine.Transition

/-!
Where the edges of a compiled flow lead.

A compiled flow has a step for every step of its document and no other (`build_step?`). All its
edges lead to its own steps (`build_closed`); edges of choices that are loaded later are held to the
same rule, so an answer only ever leads to a step of the flow (`resolveAnswer_contains`).
`Machine.compiled` is the flow of a document that gives nothing to report, as those of samples do.
-/
namespace Dialogue

/-! ## Edges within a set of steps -/

/-- The edges of a choice lead to known steps. -/
structure ChoiceEdges.Within (known : Build.Known) (c : ChoiceEdges) : Prop where
  nextStep : ∀ id, c.nextStep = some id → known id = true
  edges : ∀ e ∈ c.edges, known e.target = true

/-- All edges of a step lead to known steps, and a terminal step has nothing to do on entry. -/
structure Step.Within (known : Build.Known) (s : Step) : Prop where
  choices : ∀ c ∈ s.choices, c.Within known
  edges : ∀ e ∈ s.edges, known e.target = true
  defaultNext : ∀ id, s.defaultNext = some id → known id = true
  completion : ∀ id, s.completion = .target id → known id = true
  autoAdvance : ∀ id, s.autoAdvance = some id → known id = true
  terminal : s.terminal = true → s.entryAction = none

/-- The first step and all edges are within the flow. -/
structure Machine.Closed (m : Machine) : Prop where
  initial : m.contains m.initial = true
  steps : ∀ id step, m.step? id = some step → step.Within m.contains

namespace Build

variable {known : Known} {kinds : KindTable}

theorem filter_known {target : Option String} {id : String}
    (h : target.filter known = some id) : known id = true :=
  (Option.filter_eq_some_iff.1 h).2

theorem edges_within {conditions : List Condition} {e : Edge}
    (h : e ∈ edges known conditions) : known e.target = true := by
  unfold edges byPriority at h
  rw [List.mem_mergeSort, List.mem_filterMap] at h
  obtain ⟨c, -, hc⟩ := h
  unfold edge? at hc
  split at hc
  · next hk => cases hc; exact hk
  · cases hc

theorem choice_within (c : Choice) : (choice known c).Within known :=
  ⟨fun _ h => filter_known h, fun _ h => edges_within h⟩

theorem completion_within {d : StepDef} {id : String}
    (h : completion known d = .target id) : known id = true := by
  unfold completion at h
  split at h
  · split at h
    · next hk => cases h; exact hk
    · cases h
  · split at h
    · next hk => cases h; exact hk
    · cases h
  · cases h

theorem step_within (id : String) (d : StepDef) : (step known kinds id d).Within known := by
  unfold step
  split
  · constructor <;> simp [terminal]
  · constructor
    · intro c hc
      obtain ⟨c, -, rfl⟩ := List.mem_map.1 hc
      exact choice_within c
    · exact fun e he => edges_within he
    · exact fun id h => filter_known h
    · exact fun id h => completion_within h
    · intro id h
      dsimp only at h
      split at h
      · exact filter_known h
      · cases h
    · simp

@[simp] theorem step_id (id : String) (d : StepDef) : (step known kinds id d).id = id := by
  unfold step; split <;> rfl

@[simp] theorem step_definition (id : String) (d : StepDef) :
    (step known kinds id d).definition = d := by
  unfold step; split <;> rfl

@[simp] theorem step_terminal (id : String) (d : StepDef) :
    (step known kinds id d).terminal = d.isTerminal := by
  unfold step; split <;> simp [terminal, *]

end Build

/-! ## Compiling -/

namespace Machine

variable {kinds : Build.KindTable} {d : FlowDocument} {m : Machine}

theorem step?_id {id : String} {step : Step} (h : m.step? id = some step) : step.id = id := by
  have := List.find?_some h
  simpa using this

theorem contains_iff {id : String} : m.contains id = true ↔ ∃ step, m.step? id = some step :=
  Option.isSome_iff_exists

theorem build_steps (h : build kinds d = .ok m) :
    m.steps = d.flow.steps.map fun (id, definition) =>
      Build.step d.flow.steps.has kinds id definition := by
  unfold build at h
  split at h
  · cases h
  · cases h; rfl

theorem find?_step (known : Build.Known) (id : String) : ∀ steps : Entries StepDef,
    (steps.map fun (id, definition) => Build.step known kinds id definition).find?
        (fun s => s.id = id) =
      (steps.get? id).map (Build.step known kinds id)
  | [] => rfl
  | (k, definition) :: rest => by
    by_cases hk : k = id
    · subst hk; simp [Entries.get?]
    · simpa [Entries.get?, hk] using find?_step known id rest

/-- The steps of a compiled flow are those of its document. -/
theorem build_step? (h : build kinds d = .ok m) (id : String) :
    m.step? id = (d.flow.steps.get? id).map (Build.step d.flow.steps.has kinds id) := by
  rw [step?, build_steps h, find?_step]

theorem build_contains (h : build kinds d = .ok m) : m.contains = d.flow.steps.has := by
  funext id
  simp [contains, build_step? h, Entries.has]

theorem initialOf_known (known : Build.Known) (declared : Option String) {first : String}
    (h : known first = true) : known (initialOf known declared first).1 = true := by
  unfold initialOf
  split
  · split
    · next hk => exact hk
    · exact h
  · exact h

theorem build_initial (h : build kinds d = .ok m) : d.flow.steps.has m.initial = true := by
  unfold build at h
  split at h
  · cases h
  · next first definition rest hs =>
    cases h
    exact initialOf_known d.flow.steps.has _ (by simp [hs, Entries.has, Entries.get?])

theorem build_closed (h : build kinds d = .ok m) : m.Closed where
  initial := by rw [build_contains h]; exact build_initial h
  steps := by
    intro id step hs
    rw [build_step? h] at hs
    obtain ⟨definition, -, rfl⟩ := Option.map_eq_some_iff.1 hs
    rw [build_contains h]
    exact Build.step_within id definition

/-- What a document compiles to that begins at one of its steps and gives nothing to report. -/
def compiled (kinds : Build.KindTable) (d : FlowDocument) (initial : String) : Machine where
  initial
  steps := d.flow.steps.map fun (id, definition) =>
    Build.step d.flow.steps.has kinds id definition
  diagnostics := []
  version := d.versionLabel
  metadata := d.metadata

/-! ## Answers -/

theorem resolvedEdges_eq (c : Choice) : m.resolvedEdges c = Build.choice m.contains c := rfl

theorem firstEdge?_mem {edges : List Edge} {scope : Json} {id : String}
    (h : firstEdge? edges scope = some id) : ∃ e ∈ edges, e.target = id := by
  obtain ⟨e, he, rfl⟩ := Option.map_eq_some_iff.1 h
  exact ⟨e, List.mem_of_find?_eq_some he, rfl⟩

theorem chosen_within {step : Step} (hw : step.Within m.contains) {s : State} {value : Json}
    {c : ChoiceEdges} (h : c ∈ m.chosen step s value) : c.Within m.contains := by
  obtain ⟨h, -⟩ := List.mem_filter.1 h
  rcases List.mem_append.1 h with h | h
  · exact hw.choices c h
  · obtain ⟨c, -, rfl⟩ := List.mem_map.1 h
    exact Build.choice_within c

/-- An answer leads to a step of the flow, whatever choices were loaded. -/
theorem resolveAnswer_contains {step : Step} (hw : step.Within m.contains) {s : State}
    {value : Json} {id : String} (h : m.resolveAnswer step s value = some id) :
    m.contains id = true := by
  simp only [resolveAnswer, Option.orElse_eq_orElse, Option.orElse_eq_or,
    Option.or_eq_some_iff] at h
  rcases h with h | ⟨-, h | ⟨-, h | ⟨-, h⟩⟩⟩
  · obtain ⟨e, he, rfl⟩ := firstEdge?_mem h
    unfold byPriority at he
    rw [List.mem_mergeSort, List.mem_flatMap] at he
    obtain ⟨c, hc, he⟩ := he
    exact (chosen_within hw hc).edges e he
  · obtain ⟨c, hc, hn⟩ := List.exists_of_findSome?_eq_some h
    exact (chosen_within hw hc).nextStep id hn
  · obtain ⟨e, he, rfl⟩ := firstEdge?_mem h
    exact hw.edges e he
  · exact hw.defaultNext id h

end Machine

end Dialogue
