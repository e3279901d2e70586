import Dialogue.Proofs.Json.Entries
import Dialogue.Proofs.Machine.Completion

/-!
What an accepted event changes.

Of what a conversation has gathered, an event changes at most the entries of the step at which it is
accepted: the response, the output and the error of that step. What becomes of each of the three is
a function of the event and of how the step is completed (`Event.responseChange`,
`Event.outputChange`, `Event.errorChange`), and the entries of all other steps and the metadata stay
as they are (`transition_frame`). The entries are those of the step that the event leaves, not of
the one that it enters.
-/
namespace Dialogue

/-! ## Changes of one entry -/

/-- What becomes of an entry. -/
inductive Change where
  | keeps
  | becomes (v : Json)
  | goes

namespace Change

/-- The entry after the change. -/
def of : Change → Option Json → Option Json
  | .keeps, entry => entry
  | .becomes v, _ => some v
  | .goes, _ => none

/-- The later fields have the changed entry under the key and every other entry as it was. -/
def Turns (c : Change) (key : String) (before after : Json.Fields) : Prop :=
  ∀ k, after.get? k = if k = key then c.of (before.get? k) else before.get? k

theorem keeps_turns (key : String) (fields : Json.Fields) : keeps.Turns key fields fields := by
  intro k
  exact (ite_self _).symm

theorem set_turns (key : String) (v : Json) (fields : Json.Fields) :
    (becomes v).Turns key fields (fields.set key v) := by
  intro k
  rw [Entries.get?_set]
  rfl

theorem swapRemove_turns {fields : Json.Fields} (once : fields.keys.Nodup) (key : String) :
    goes.Turns key fields (fields.swapRemove key) := by
  intro k
  rw [Entries.get?_swapRemove once]
  rfl

end Change

/-! ## What an event records -/

namespace Event

/-- What becomes of the response of the step: an answer is the response, and so is an output that is
routed like an answer and leads on. -/
def responseChange (step : Step) (leaves : Bool) : Event → Change
  | .answer value _ => .becomes value
  | .toolComplete value => if step.completion = .route then .becomes (value.getD .null) else .keeps
  | .actionSettled _ result =>
    if result.success ∧ leaves ∧ step.completion = .route then .becomes result.output else .keeps
  | .autoAdvance _ | .retry | .optionsResolved .. => .keeps

/-- What becomes of the output of the step: a success has one, and so may a completion signal. -/
def outputChange : Event → Change
  | .toolComplete (some output) => .becomes output
  | .actionSettled _ result => if result.success then .becomes result.output else .keeps
  | .toolComplete none | .answer .. | .autoAdvance _ | .retry | .optionsResolved .. => .keeps

/-- What becomes of the error of the step: a failure sets it to its message, and an output clears it
like a new try. -/
def errorChange : Event → Change
  | .actionSettled _ result =>
    if result.success then .goes else .becomes (.string result.errorMessage)
  | .toolComplete (some _) | .retry => .goes
  | .toolComplete none | .answer .. | .autoAdvance _ | .optionsResolved .. => .keeps

end Event

/-- The later context has the changed entries under the key and all else that was gathered as it
was. -/
structure Context.Turns (before : Context) (key : String) (response output error : Change)
    (after : Context) : Prop where
  metadata : after.metadata = before.metadata
  responses : response.Turns key before.responses after.responses
  toolResults : output.Turns key before.toolResults after.toolResults
  errors : error.Turns key before.errors after.errors

namespace Machine

variable {m : Machine} {step : Step} {s : State}

/-! ## Each key once -/

theorem moveTo_context (m : Machine) (s : State) (target : String) :
    (m.moveTo s target).state.context = { s.context with currentStep := target } := rfl

theorem withOutput_once (h : s.context.errors.keys.Nodup) (key : String) (value : Option Json) :
    (s.withOutput key value).context.errors.keys.Nodup := by
  cases value with
  | none => exact h
  | some output => exact Entries.nodup_keys_swapRemove h key

theorem recorded_errors (step : Step) (s : State) (output : Json) :
    (step.recorded s output).context.errors = s.context.errors := by
  rw [Step.recorded_eq]
  split <;> rfl

/-- There is one error for a step at most, after every accepted event. -/
theorem accepts_once (h : s.context.errors.keys.Nodup) {e : Event} {t : Transition}
    (ha : Accepts m step s e t) : t.state.context.errors.keys.Nodup := by
  cases ha with
  | answered value answered id waits named leads => exact h
  | advanced epoch id current ready leads => exact h
  | completed value id going awaits leads =>
    rw [moveTo_context]
    show (step.recorded (s.withOutput step.id value) _).context.errors.keys.Nodup
    rw [recorded_errors]
    exact withOutput_once h step.id value
  | settled i result id running success leads =>
    rw [moveTo_context]
    show (step.recorded (s.succeeded step.id result.output) _).context.errors.keys.Nodup
    rw [recorded_errors]
    exact withOutput_once h step.id (some result.output)
  | retried error retryable action failed runs => exact Entries.nodup_keys_swapRemove h step.id
  | failed i result running failure => exact Entries.nodup_keys_set h step.id _
  | held i result running success stays => exact withOutput_once h step.id (some result.output)
  | loaded choices going => exact h

theorem run_once (m : Machine) (metadata : Json.Fields) (events : List Event) :
    (m.run metadata events).context.errors.keys.Nodup := by
  refine run_induction (P := fun s => s.context.errors.keys.Nodup) List.nodup_nil ?_ events
  intro s e t h ht
  obtain ⟨step, -, ha⟩ := accepts_of_transition ht
  exact accepts_once h ha

/-! ## One event -/

theorem turns_refl (key : String) (c : Context) : c.Turns key .keeps .keeps .keeps c :=
  ⟨rfl, Change.keeps_turns _ _, Change.keeps_turns _ _, Change.keeps_turns _ _⟩

/-- The step that is entered has no part in what is gathered. -/
theorem moveTo_turns (m : Machine) {c : Context} {key : String} {response output error : Change}
    (h : c.Turns key response output error s.context) (target : String) :
    c.Turns key response output error (m.moveTo s target).state.context :=
  ⟨h.metadata, h.responses, h.toolResults, h.errors⟩

/-- An output is recorded, and clears the error. -/
theorem withOutput_turns (once : s.context.errors.keys.Nodup) (key : String)
    (value : Option Json) :
    s.context.Turns key .keeps (Event.toolComplete value).outputChange
      (Event.toolComplete value).errorChange (s.withOutput key value).context := by
  cases value with
  | none => exact turns_refl key s.context
  | some output =>
    exact ⟨rfl, Change.keeps_turns _ _, Change.set_turns _ _ _, Change.swapRemove_turns once _⟩

/-- An output that is routed like an answer is recorded as the response too. -/
theorem recorded_turns (step : Step) {c : Context} {output error : Change} (value : Json)
    (h : c.Turns step.id .keeps output error s.context) :
    c.Turns step.id (if step.completion = .route then .becomes value else .keeps) output error
      (step.recorded s value).context := by
  rw [Step.recorded_eq]
  by_cases hroute : step.completion = .route
  · rw [if_pos hroute, if_pos hroute]
    refine ⟨h.metadata, ?_, h.toolResults, h.errors⟩
    intro k
    show (s.context.responses.set step.id value).get? k = _
    rw [Entries.get?_set, h.responses]
    by_cases hk : k = step.id <;> simp [hk, Change.of]
  · rw [if_neg hroute, if_neg hroute]
    exact h

/-- What an accepted event makes of the context. -/
theorem accepts_turns (once : s.context.errors.keys.Nodup) {e : Event} {t : Transition}
    (ha : Accepts m step s e t) :
    s.context.Turns step.id (e.responseChange step (t.log.entered ≠ [])) e.outputChange
      e.errorChange t.state.context := by
  cases ha with
  | answered value answered id waits named leads =>
    apply moveTo_turns
    exact ⟨rfl, Change.set_turns _ _ _, Change.keeps_turns _ _, Change.keeps_turns _ _⟩
  | advanced epoch id current ready leads =>
    apply moveTo_turns
    exact turns_refl step.id s.context
  | completed value id going awaits leads =>
    apply moveTo_turns
    exact recorded_turns step (value.getD .null) (withOutput_turns once step.id value)
  | settled i result id running success leads =>
    have hentered :=
      moveTo_entered m (step.recorded (s.succeeded step.id result.output) result.output) id
    have hturns := recorded_turns step result.output
      (withOutput_turns once step.id (some result.output))
    simp only [Event.responseChange, Event.outputChange, Event.errorChange, success, hentered,
      if_true] at hturns ⊢
    apply moveTo_turns
    rw [recorded_succeeded]
    simpa using hturns
  | retried error retryable action failed runs =>
    exact ⟨rfl, Change.keeps_turns _ _, Change.keeps_turns _ _, Change.swapRemove_turns once _⟩
  | failed i result running failure =>
    simp only [Event.responseChange, Event.outputChange, Event.errorChange, failure]
    exact ⟨rfl, Change.keeps_turns _ _, Change.keeps_turns _ _, Change.set_turns _ _ _⟩
  | held i result running success stays =>
    have hturns := withOutput_turns once step.id (some result.output)
    simp only [Event.responseChange, Event.outputChange, Event.errorChange, success]
    exact hturns
  | loaded choices going => exact turns_refl step.id s.context

/-- In every run, an accepted event changes nothing of what is gathered but the entries of the step
that the conversation is at: its response, its output and its error, each as the event says. -/
theorem transition_frame (m : Machine) (metadata : Json.Fields) (events : List Event) {e : Event}
    {t : Transition} (h : m.transition (m.run metadata events) e = .ok t) :
    let s := m.run metadata events
    ∃ step, m.step? s.currentStep = some step ∧
      t.state.context.metadata = s.context.metadata ∧
      (e.responseChange step (t.log.entered ≠ [])).Turns s.currentStep s.context.responses
        t.state.context.responses ∧
      e.outputChange.Turns s.currentStep s.context.toolResults t.state.context.toolResults ∧
      e.errorChange.Turns s.currentStep s.context.errors t.state.context.errors := by
  intro s
  obtain ⟨step, hs, ha⟩ := accepts_of_transition h
  have hturns := accepts_turns (run_once m metadata events) ha
  rw [step?_id hs] at hturns
  exact ⟨step, hs, hturns.metadata, hturns.responses, hturns.toolResults, hturns.errors⟩

/-- After the search has failed a client sends what it has found itself: the response and the
output of the search are set, its error is cleared, and nothing is recorded for the step that is
entered. -/
theorem transition_frame_search :
    let s := searchMachine.run [] [.actionSettled 1 declined]
    let e : Event := .toolComplete (some (.bool true))
    ∃ t, searchMachine.transition s e = .ok t ∧ t.log.entered = ["found"] ∧
      s.context.errors.get? "search" = some (.string "declined") ∧
      t.state.context.responses.get? "search" = some (.bool true) ∧
      t.state.context.toolResults.get? "search" = some (.bool true) ∧
      t.state.context.errors.get? "search" = none ∧
      t.state.context.responses.get? "found" = none := by
  intro s e
  have haccepted : (searchMachine.transition s e).toOption.isSome = true := by decide +kernel
  have hentered : (searchMachine.notes s e).entered = ["found"] := by decide +kernel
  cases ht : searchMachine.transition s e with
  | error refusal => rw [ht] at haccepted; cases haccepted
  | ok t =>
    rw [notes_entered ht] at hentered
    obtain ⟨step, hs, -, hresponses, hresults, herrors⟩ := transition_frame searchMachine [] _ ht
    have hroute : step.completion = .route := by
      have hstep : some step = searchMachine.step? "search" := hs.symm
      cases hstep
      rfl
    refine ⟨t, rfl, hentered, rfl, ?_, ?_, ?_, ?_⟩
    · rw [hresponses "search", Event.responseChange, if_pos hroute]
      rfl
    · rw [hresults "search"]
      rfl
    · rw [herrors "search"]
      rfl
    · rw [hresponses "found"]
      rfl

end Machine

end Dialogue
