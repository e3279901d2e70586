import Dialogue.Proofs.Machine.Visits

/-!
Two ways to complete a step.

While the action of a step runs, the step is completed by the success of the action, or by a client
that sends the output first. Both record the output before they ask where the step leads, and the
answer does not depend on the phase, so both are led to the same step or to none
(`completionTarget_succeeded`). Entering a step forgets the phase (`enter_phase`): the two differ in
that the signal of a client has an action to cancel (`moveTo_running`, `moveTo_idle`). Where nothing
leads on, the success of the action is kept and the signal is refused (`settled_as_signalled`).
-/
namespace Dialogue

namespace Machine

variable {m : Machine} {step : Step} {s : State}

/-! ## Leaving a step with and without an action -/

/-- Entering a step forgets in which phase the last one was left. -/
theorem enter_phase (m : Machine) (s : State) (phase : Phase) (target : String)
    (previous : Option String) :
    m.enter { s with phase } target previous = m.enter s target previous := rfl

/-- While nothing runs, leaving a step is entering the other. -/
theorem moveTo_idle (m : Machine) {s : State} (idle : s.phase.invocation? = none)
    (target : String) : m.moveTo s target = m.enter s target (some s.currentStep) := by
  unfold moveTo
  cases hp : s.phase with
  | actionPending i => rw [hp] at idle; cases idle
  | _ => rfl

/-- While an action runs, leaving its step cancels it first. -/
theorem moveTo_running (m : Machine) {s : State} {i : Epoch} (running : s.phase = .actionPending i)
    (target : String) :
    m.moveTo s target =
      ⟨(m.enter s target (some s.currentStep)).state,
        .cancelAction i :: (m.enter s target (some s.currentStep)).effects⟩ := by
  unfold moveTo
  rw [running]
  rfl

/-! ## The same output, recorded either way -/

/-- The output that a step is completed with is recorded alike, whether an action has given it or a
client. -/
theorem recorded_succeeded (step : Step) (s : State) (output : Json) :
    step.recorded (s.succeeded step.id output) output =
      { step.recorded (s.withOutput step.id (some output)) output with phase := .ready } := by
  rw [Step.recorded_eq, Step.recorded_eq]
  split <;> rfl

/-- Where the step leads does not depend on who has given the output. -/
theorem completionTarget_succeeded (m : Machine) (step : Step) (s : State) (output : Json) :
    m.completionTarget step (s.succeeded step.id output) output =
      m.completionTarget step (s.withOutput step.id (some output)) output := rfl

/-- Led on by the output of a client, the conversation comes to where the running action would have
led it, and cancels the action. -/
theorem moveTo_signalled (m : Machine) (step : Step) {s : State} {i : Epoch}
    (running : s.phase = .actionPending i) (output : Json) (target : String) :
    let settled := m.moveTo (step.recorded (s.succeeded step.id output) output) target
    m.moveTo (step.recorded (s.withOutput step.id (some output)) output) target =
      ⟨settled.state, .cancelAction i :: settled.effects⟩ := by
  intro settled
  have hrunning : (step.recorded (s.withOutput step.id (some output)) output).phase =
      .actionPending i := by
    rw [Step.recorded_phase, State.withOutput_phase, running]
  have hidle : (step.recorded (s.succeeded step.id output) output).phase.invocation? = none := by
    rw [Step.recorded_phase, State.succeeded_phase]
    rfl
  have hsettled : settled = m.enter (step.recorded (s.withOutput step.id (some output)) output)
      target (some (step.recorded (s.withOutput step.id (some output)) output).currentStep) :=
    calc settled
      _ = m.enter (step.recorded (s.succeeded step.id output) output) target
            (some (step.recorded (s.succeeded step.id output) output).currentStep) :=
          moveTo_idle m hidle target
      _ = _ := by rw [recorded_succeeded]; exact enter_phase m _ .ready target _
  rw [moveTo_running m hrunning target, hsettled]

/-! ## Settlements and signals -/

/-- A step at which an action runs accepts a signal that it is complete. -/
theorem acceptsCompletion_of_running (hw : step.Within m.contains) (hc : Coherent m step s)
    {i : Epoch} (running : s.phase = .actionPending i) : step.acceptsCompletion = true := by
  have haction := (hc.pending i running).2
  have hgoing := not_terminal_of_action hw haction
  simp [Step.acceptsCompletion, haction, hgoing]

/-- The result of the running action is taken. -/
theorem transition_settled (hs : m.step? s.currentStep = some step) {i : Epoch}
    (running : s.phase = .actionPending i) (result : ActionResult) :
    m.transition s (.actionSettled i result) = .ok (m.settle step s result) := by
  simp only [transition, hs, handle, running, if_true]

/-- A signal is judged by the step, also while an action runs. -/
theorem transition_signalled (hs : m.step? s.currentStep = some step) {i : Epoch}
    (running : s.phase = .actionPending i) (value : Option Json) :
    m.transition s (.toolComplete value) = m.complete step s value := by
  simp only [transition, hs, handle, running]

/-- A success of the running action and a signal with its output, at the same state: both lead on to
the same state, or neither leads on. -/
theorem settle_complete (m : Machine) (awaits : step.acceptsCompletion = true) {i : Epoch}
    (running : s.phase = .actionPending i) {result : ActionResult} {v : Json}
    (success : result.success = true) (output : result.output = v) :
    let t := m.settle step s result
    (t.log.entered ≠ [] →
      m.complete step s (some v) = .ok ⟨t.state, .cancelAction i :: t.effects⟩) ∧
    (t.log.entered = [] →
      m.complete step s (some v) = .error (.noMatchingTransition step.id) ∧
      t = ⟨s.succeeded step.id v, []⟩) := by
  subst output
  intro t
  have hsettle := @settle_success m step s result success
  have hcomplete := @complete_eq m step s awaits (some result.output)
  rw [Option.getD_some, ← completionTarget_succeeded] at hcomplete
  -- Both are led by one and the same target.
  cases htarget : m.completionTarget step (s.succeeded step.id result.output) result.output with
  | some id =>
    simp only [htarget] at hsettle hcomplete
    refine ⟨fun _ => ?_, fun hstays => ?_⟩
    · rw [hcomplete, moveTo_signalled m step running result.output id, ← hsettle]
    · have hentered : t.log.entered = [id] := by
        show Log.entered (Transition.log (m.settle step s result)) = [id]
        rw [hsettle]
        exact moveTo_entered m _ id
      rw [hstays] at hentered
      cases hentered
  | none =>
    simp only [htarget] at hsettle hcomplete
    refine ⟨fun hleaves => ?_, fun _ => ⟨hcomplete, hsettle⟩⟩
    have hstays : t.log.entered = [] := by
      show Log.entered (Transition.log (m.settle step s result)) = []
      rw [hsettle]
      rfl
    exact absurd hstays hleaves

/-- In every run of a compiled document that has come to a running action: if a success of the
action leaves the step, a completion signal with the same output comes to the same state with the
same effects, after the cancellation of the action; and if it stays at the step, the signal is
refused, while the success records the output, clears the error of the step and waits there. -/
theorem settled_as_signalled (r : Registry) {d : FlowDocument} {m : Machine}
    (h : build r.kinds d = .ok m) (metadata : Json.Fields) (events : List Event) {i : Epoch}
    (running : (m.run metadata events).phase = .actionPending i) {result : ActionResult} {v : Json}
    (success : result.success = true) (data : result.data = some v) :
    let s := m.run metadata events
    ∃ t, m.transition s (.actionSettled i result) = .ok t ∧
      (t.log.entered ≠ [] →
        m.transition s (.toolComplete (some v)) =
          .ok ⟨t.state, .cancelAction i :: t.effects⟩) ∧
      (t.log.entered = [] →
        m.transition s (.toolComplete (some v)) = .error (.noMatchingTransition s.currentStep) ∧
        t.effects = [] ∧
        t.state = { s with
          context := { s.context with
            toolResults := s.context.toolResults.set s.currentStep v
            errors := s.context.errors.swapRemove s.currentStep }
          phase := .ready }) := by
  intro s
  have hclosed := build_closed h
  obtain ⟨step, hc⟩ := run_coherent hclosed metadata events
  have hid : step.id = s.currentStep := step?_id hc.current
  have hawaits := acceptsCompletion_of_running (hclosed.steps _ _ hc.current) hc running
  have houtput : result.output = v := by rw [ActionResult.output, data]; rfl
  obtain ⟨hleaves, hstays⟩ := settle_complete m hawaits running success houtput
  have hsignalled : m.transition s (.toolComplete (some v)) = m.complete step s (some v) :=
    transition_signalled hc.current running (some v)
  refine ⟨m.settle step s result, transition_settled hc.current running result, ?_, ?_⟩
  · intro hentered
    rw [hsignalled]
    exact hleaves hentered
  · intro hnone
    obtain ⟨hrefused, hkept⟩ := hstays hnone
    rw [hsignalled, hrefused, hkept, hid]
    exact ⟨rfl, rfl, rfl⟩

/-- A search that goes on only if it has found something. -/
def search : FlowDocument where
  flow := {
    initialStep := some "search"
    steps := [
      ("search", { kind := .system, action := some { kind := "find" },
                   conditions := [⟨"toolResults.search", "found", 0⟩] }),
      ("found", { isTerminal := true })] }

/-- The search, compiled. -/
def searchMachine : Machine := .compiled Registry.empty.kinds search "search"

/-- Something found leads on, whether the action or a client says so; nothing found leads nowhere,
and then only the action is heard. -/
theorem settled_as_signalled_search :
    let s := searchMachine.run [] []
    let found : ActionResult := .done (some (.bool true))
    let missing : ActionResult := .done (some (.bool false))
    build Registry.empty.kinds search = .ok searchMachine ∧ s.phase = .actionPending 1 ∧
    found.success = true ∧ found.data = some (.bool true) ∧
    (∃ t, searchMachine.transition s (.actionSettled 1 found) = .ok t ∧
      t.log.entered = ["found"] ∧
      searchMachine.transition s (.toolComplete (some (.bool true))) =
        .ok ⟨t.state, .cancelAction 1 :: t.effects⟩) ∧
    ∃ t, searchMachine.transition s (.actionSettled 1 missing) = .ok t ∧ t.log.entered = [] ∧
      searchMachine.transition s (.toolComplete (some (.bool false))) =
        .error (.noMatchingTransition "search") := by
  intro s found missing
  have built : build Registry.empty.kinds search = .ok searchMachine := rfl
  have running : s.phase = .actionPending 1 := rfl
  have hfound : found.success = true := rfl
  have hmissing : missing.success = true := rfl
  obtain ⟨t, ht, hleaves, -⟩ :=
    settled_as_signalled Registry.empty built [] [] running hfound rfl
  obtain ⟨t', ht', -, hstays⟩ :=
    settled_as_signalled Registry.empty built [] [] running hmissing rfl
  have hentered : t.log.entered = ["found"] := by
    rw [← notes_entered ht]
    decide +kernel
  have hnone : t'.log.entered = [] := by
    rw [← notes_entered ht']
    decide +kernel
  refine ⟨built, running, hfound, rfl, ⟨t, ht, hentered, hleaves ?_⟩, t', ht', hnone,
    (hstays hnone).1⟩
  rw [hentered]
  exact List.cons_ne_nil _ _

end Machine

end Dialogue
