import Dialogue.Proofs.Machine.Acceptance
import Dialogue.Proofs.Machine.Run
import Dialogue.Registry

/-!
States that hang together.

`Coherent m step s` ties the parts of a state to the step that it is at: the conversation is over
exactly at a terminal step, an action is running or has failed only where there is one, and the
failure that the phase tells is the one on record. Entering a step makes a state coherent whatever
it was before (`moveTo_coherent`), and the events that do not leave the step keep it so
(`accepts_coherent`). Hence every state of every run of a compiled document is coherent.
-/
namespace Dialogue

/-- The state is at the step, and its phase is one that the step can have. -/
structure Coherent (m : Machine) (step : Step) (s : State) : Prop where
  current : m.step? s.currentStep = some step
  completed : s.phase = .completed ↔ step.terminal = true
  pending : ∀ i, s.phase = .actionPending i → i = s.epoch ∧ step.entryAction.isSome = true
  failed : ∀ error retryable, s.phase = .actionFailed error retryable →
    step.entryAction.isSome = true ∧
      s.context.errors.get? s.currentStep = some (.string error)

namespace Machine

variable {m : Machine} {step : Step} {s : State}

theorem enter_coherent {target : String} (h : m.step? target = some step) (s : State)
    (previous : Option String) : Coherent m step (m.enter s target previous).state := by
  rw [enter_eq h]
  rcases onEntry_cases step (s.epoch + 1) with ⟨ht, he⟩ | ⟨action, ht, ha, he⟩ | ⟨ht, ha, he⟩
  · constructor <;> simp [State.currentStep, he, h, ht]
  · constructor <;> simp [State.currentStep, he, h, ht, ha]
  · constructor <;> simp [State.currentStep, he, h, ht]

theorem moveTo_coherent {target : String} (h : m.contains target = true) (s : State) :
    ∃ step, Coherent m step (m.moveTo s target).state := by
  obtain ⟨step, hs⟩ := contains_iff.1 h
  exact ⟨step, enter_coherent hs s (some s.currentStep)⟩

/-- A step with an action is not terminal. -/
theorem not_terminal_of_action (hw : step.Within m.contains)
    (ha : step.entryAction.isSome = true) : step.terminal = false := by
  cases ht : step.terminal with
  | false => rfl
  | true => rw [hw.terminal ht] at ha; cases ha

theorem accepts_coherent (hw : step.Within m.contains) (hc : Coherent m step s) {e : Event}
    {t : Transition} (h : Accepts m step s e t) : ∃ step, Coherent m step t.state := by
  have hid := step?_id hc.current
  cases h with
  | answered value answered id waits named leads =>
    exact moveTo_coherent (resolveAnswer_contains hw leads) _
  | advanced epoch id current ready leads => exact moveTo_coherent (hw.autoAdvance id leads) _
  | completed value id going awaits leads =>
    exact moveTo_coherent (completionTarget_contains hw leads) _
  | settled i result id running success leads =>
    exact moveTo_coherent (completionTarget_contains hw leads) _
  | retried error retryable action failed runs =>
    have ha : step.entryAction.isSome = true := by rw [runs]; rfl
    have ht := not_terminal_of_action hw ha
    refine ⟨step, hc.current, ?_, ?_, ?_⟩ <;> simp [State.again, ht, ha]
  | failed i result running failure =>
    obtain ⟨-, ha⟩ := hc.pending i running
    have ht := not_terminal_of_action hw ha
    refine ⟨step, hc.current, ?_, ?_, ?_⟩
    · simp [State.failed, ht]
    · simp [State.failed]
    · intro error retryable hp
      simp only [State.failed, Phase.actionFailed.injEq] at hp
      refine ⟨ha, ?_⟩
      -- The failure is recorded under the id of the step, which is the id it is found by.
      have hcur : (s.failed step.id result).currentStep = step.id := hid.symm
      rw [hcur, ← hp.1]
      exact Entries.get?_set_self _ _ _
  | held i result running success stays =>
    obtain ⟨-, ha⟩ := hc.pending i running
    have ht := not_terminal_of_action hw ha
    refine ⟨step, hc.current, ?_, ?_, ?_⟩ <;> simp [State.succeeded, ht]
  | loaded choices going => exact ⟨step, hc.current, hc.completed, hc.pending, hc.failed⟩

theorem start_coherent (hm : m.Closed) (metadata : Json.Fields) :
    ∃ step, Coherent m step (m.start metadata).state := by
  obtain ⟨step, hs⟩ := contains_iff.1 hm.initial
  exact ⟨step, enter_coherent hs _ none⟩

/-- Every state of a run is coherent. -/
theorem run_coherent (hm : m.Closed) (metadata : Json.Fields) (events : List Event) :
    ∃ step, Coherent m step (m.run metadata events) := by
  refine run_induction (P := fun s => ∃ step, Coherent m step s)
    (start_coherent hm metadata) ?_ events
  rintro s e t ⟨step, hc⟩ ht
  obtain ⟨step', hs, ha⟩ := accepts_of_transition ht
  have hstep : step' = step := Option.some.inj (hs.symm.trans hc.current)
  subst hstep
  exact accepts_coherent (hm.steps _ _ hs) hc ha

/-- At a step of the flow no event is refused for the lack of one. -/
theorem transition_ne_unknownStep (hs : m.step? s.currentStep = some step) (e : Event)
    (id : String) : m.transition s e ≠ .error (.unknownStep id) := by
  intro h
  simp only [transition, hs] at h
  cases e with
  | answer value answered =>
    simp only [handle, accept] at h
    (repeat' split at h) <;> cases h
  | autoAdvance epoch =>
    simp only [handle] at h
    (repeat' split at h) <;> cases h
  | toolComplete value =>
    simp only [handle, complete] at h
    (repeat' split at h) <;> cases h
  | retry =>
    simp only [handle, tryAgain] at h
    (repeat' split at h) <;> cases h
  | actionSettled invocation result =>
    simp only [handle] at h
    split at h <;> cases h
  | optionsResolved epoch choices =>
    simp only [handle] at h
    split at h <;> cases h

/-- Nothing is accepted at the end. -/
theorem transition_completed (hp : s.phase = .completed) (e : Event) (t : Transition) :
    m.transition s e ≠ .ok t := by
  intro h
  obtain ⟨step, -, ha⟩ := accepts_of_transition h
  cases ha with
  | answered value answered id waits named leads =>
    rcases waits with hw | ⟨error, retryable, hw⟩ <;> rw [hp] at hw <;> cases hw
  | advanced epoch id current ready leads => rw [hp] at ready; cases ready
  | completed value id going awaits leads => exact going hp
  | retried error retryable action failed runs => rw [hp] at failed; cases failed
  | failed i result running failure => rw [hp] at running; cases running
  | held i result running success stays => rw [hp] at running; cases running
  | settled i result id running success leads => rw [hp] at running; cases running
  | loaded choices going => exact going hp

/-! ## Compiled documents -/

/-- In every state of every run of a compiled document, the current step is a declared one and the
state is coherent with it, no event is refused for the lack of a step, and nothing is accepted at
the end. -/
theorem compiled_run_coherent (r : Registry) {d : FlowDocument} {m : Machine}
    (h : build r.kinds d = .ok m) (metadata : Json.Fields) (events : List Event) :
    let s := m.run metadata events
    (∃ definition, d.flow.steps.get? s.currentStep = some definition ∧
      Coherent m (Build.step d.flow.steps.has r.kinds s.currentStep definition) s) ∧
    (∀ e id, m.transition s e ≠ .error (.unknownStep id)) ∧
    (s.phase = .completed → ∀ e, ∃ refusal, m.transition s e = .error refusal) := by
  intro s
  obtain ⟨step, hc⟩ := run_coherent (build_closed h) metadata events
  refine ⟨?_, transition_ne_unknownStep hc.current, fun hp e => ?_⟩
  · have hs := hc.current
    rw [build_step? h] at hs
    obtain ⟨definition, hd, rfl⟩ := Option.map_eq_some_iff.1 hs
    exact ⟨definition, hd, hc⟩
  · cases ht : m.transition s e with
    | ok t => exact absurd ht (transition_completed hp e t)
    | error refusal => exact ⟨refusal, rfl⟩

/-- A step that pays and a step that thanks. -/
def payment : FlowDocument where
  flow := { steps := [
    ("pay", { kind := .system, action := some { kind := "charge" }, nextStep := some "thanks" }),
    ("thanks", { isTerminal := true })] }

/-- The answer of a bank that may be asked again. -/
def declined : ActionResult := { success := false, error := some "declined", retryable := true }

/-- The payment is declined, and the conversation waits at the step. -/
theorem compiled_run_coherent_declined : ∃ m, build Registry.empty.kinds payment = .ok m ∧
    (m.run [] [.actionSettled 1 declined]).phase = .actionFailed "declined" true ∧
    ∃ definition,
      payment.flow.steps.get? (m.run [] [.actionSettled 1 declined]).currentStep =
        some definition ∧
      Coherent m (Build.step payment.flow.steps.has Registry.empty.kinds
        (m.run [] [.actionSettled 1 declined]).currentStep definition)
        (m.run [] [.actionSettled 1 declined]) :=
  ⟨_, rfl, rfl, (compiled_run_coherent Registry.empty rfl [] [.actionSettled 1 declined]).1⟩

end Machine

end Dialogue
