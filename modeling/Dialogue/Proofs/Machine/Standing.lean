import Dialogue.Proofs.Machine.Choices
import Dialogue.Proofs.Machine.Frame
import Dialogue.Session.Surface

/-!
Failures that stay on record.

The failure of an action is on record until an output of the step or a new try takes it off
(`Event.errorChange`). A client may leave the step without either, by an answer or by a completion
signal without a value (`Event.Abandons`), and then the failure is left behind (`LeftBehind`). A
step has an error on record exactly if the conversation is at the step and its action has failed
there, or if a failure of it was left behind (`run_error_iff`).

Entering a step does not look at the record. So when the action of a step runs again because the
step is entered again, the failure that was left behind is shown beside it, in the surface and in
the snapshot; when it runs again because it was tried again, nothing is (`pending_error_iff`).
-/
namespace Dialogue

/-- An event by which a client leaves a step with nothing in place of the output of its action. -/
inductive Event.Abandons : Event → Prop where
  | answer (value : Json) (named : Option String) : Abandons (.answer value named)
  | toolComplete : Abandons (.toolComplete none)

/-- The failure that the phase tells. -/
def Phase.failure? : Phase → Option String
  | .actionFailed message _ => some message
  | _ => none

/-- The conversation is at the step, and its action has failed. -/
structure State.HasFailed (s : State) (id message : String) : Prop where
  current : s.currentStep = id
  failure : s.phase.failure? = some message

namespace Machine

variable {m : Machine} {step : Step} {s : State} {metadata : Json.Fields} {id : String}

/-! ## One event -/

/-- How an accepted event bears on the failure of the step: it takes it off the record, or puts one
there, or leaves the step, or has nothing to do with it. -/
inductive Bears (s : State) (e : Event) (t : Transition) : Prop where
  | clears (change : e.errorChange = .goes) (recovered : t.state.phase.failure? = none)
  | records (message : String) (change : e.errorChange = .becomes (.string message))
      (stays : t.log.entered = []) (current : t.state.currentStep = s.currentStep)
      (failure : t.state.phase.failure? = some message)
  | leaves (change : e.errorChange = .keeps) (entered : t.log.entered ≠ [])
      (begun : t.state.phase.failure? = none)
      (abandons : s.phase.failure? ≠ none → e.Abandons)
  | passes (change : e.errorChange = .keeps) (stays : t.log.entered = [])
      (current : t.state.currentStep = s.currentStep) (phase : t.state.phase = s.phase)
      (other : ¬ e.Abandons)

/-- A step that is entered has not failed. -/
theorem enter_failure (m : Machine) (s : State) (target : String) (previous : Option String) :
    (m.enter s target previous).state.phase.failure? = none := by
  cases hs : m.step? target with
  | none => simp [enter, hs, Phase.failure?]
  | some step =>
    rw [enter_eq hs]
    rcases onEntry_cases step (s.epoch + 1) with ⟨-, he⟩ | ⟨action, -, -, he⟩ | ⟨-, -, he⟩ <;>
      simp [he, Phase.failure?]

theorem moveTo_failure (m : Machine) (s : State) (target : String) :
    (m.moveTo s target).state.phase.failure? = none :=
  enter_failure m s target (some s.currentStep)

theorem moveTo_leaves (m : Machine) {s s' : State} {e : Event} (target : String)
    (change : e.errorChange = .keeps) (abandons : s.phase.failure? ≠ none → e.Abandons) :
    Bears s e (m.moveTo s' target) := by
  refine .leaves change ?_ (moveTo_failure m s' target) abandons
  rw [moveTo_entered]
  exact List.cons_ne_nil _ _

theorem bears_of_accepts {e : Event} {t : Transition} (ha : Accepts m step s e t) :
    Bears s e t := by
  cases ha with
  | answered value answered id waits named leads =>
    exact moveTo_leaves m id rfl fun _ => .answer value answered
  | advanced epoch id current ready leads =>
    refine moveTo_leaves m id rfl fun hfailed => ?_
    rw [ready] at hfailed
    exact absurd rfl hfailed
  | completed value id going awaits leads =>
    cases value with
    | none => exact moveTo_leaves m id rfl fun _ => .toolComplete
    | some output => exact .clears rfl (moveTo_failure m _ id)
  | retried error retryable action failed runs => exact .clears rfl rfl
  | failed i result running failure =>
    exact .records result.errorMessage (by simp [Event.errorChange, failure]) rfl rfl rfl
  | held i result running success stays =>
    exact .clears (by simp [Event.errorChange, success]) rfl
  | settled i result id running success leads =>
    exact .clears (by simp [Event.errorChange, success]) (moveTo_failure m _ id)
  | loaded choices going => exact .passes rfl rfl rfl rfl fun h => by cases h

/-- What an accepted event makes of the record. -/
theorem transition_errors (once : s.context.errors.keys.Nodup) {e : Event} {t : Transition}
    (h : m.transition s e = .ok t) :
    Bears s e t ∧ e.errorChange.Turns s.currentStep s.context.errors t.state.context.errors := by
  obtain ⟨step, hs, ha⟩ := accepts_of_transition h
  have hturns := (accepts_turns once ha).errors
  rw [step?_id hs] at hturns
  exact ⟨bears_of_accepts ha, hturns⟩

/-! ## What is accepted at a step -/

/-- Those of the events that are accepted at a step, from a state on. -/
def admittedAt (m : Machine) (id : String) : State → List Event → List Event
  | _, [] => []
  | s, e :: rest =>
    (if s.currentStep = id then m.admitted s e else []) ++ admittedAt m id (m.after s e) rest

theorem admittedAt_concat (m : Machine) (id : String) (e : Event) :
    ∀ (events : List Event) (s : State), m.admittedAt id s (events ++ [e]) =
      m.admittedAt id s events ++
        if (events.foldl m.after s).currentStep = id then m.admitted (events.foldl m.after s) e
        else []
  | [], s => by
    rw [List.nil_append, admittedAt, admittedAt, admittedAt, List.append_nil]
    rfl
  | first :: events, s => by
    rw [List.cons_append, admittedAt, admittedAt_concat m id e events, admittedAt,
      List.append_assoc, List.foldl_cons]

/-- The step was left when its action had failed, and nothing that was accepted at the step since
then has changed its error. -/
def LeftBehind (m : Machine) (metadata : Json.Fields) (events : List Event)
    (id message : String) : Prop :=
  ∃ before e after t, events = before ++ e :: after ∧
    (m.run metadata before).HasFailed id message ∧
    m.transition (m.run metadata before) e = .ok t ∧ e.Abandons ∧
    ∀ later ∈ m.admittedAt id t.state after, later.errorChange = .keeps

/-- A failure is left behind after one more event if it was before and the event does not change the
error, or if the event leaves the step with the failure. -/
theorem leftBehind_concat {events : List Event} {e : Event} {message : String} :
    m.LeftBehind metadata (events ++ [e]) id message ↔
      (m.LeftBehind metadata events id message ∧
        ((m.run metadata events).currentStep = id →
          ∀ t, m.transition (m.run metadata events) e = .ok t → e.errorChange = .keeps)) ∨
      ((m.run metadata events).HasFailed id message ∧ e.Abandons ∧
        ∃ t, m.transition (m.run metadata events) e = .ok t) := by
  have hlast (before : List Event) (first : Event) (after : List Event) (t : Transition)
      (ht : m.transition (m.run metadata before) first = .ok t) :
      after.foldl m.after t.state = m.run metadata (before ++ first :: after) := by
    rw [run_append, List.foldl_cons, after_of_ok ht]
  constructor
  · rintro ⟨before, first, after, t, hsplit, hfailed, ht, habandons, hkeeps⟩
    rcases List.eq_nil_or_concat after with rfl | ⟨after, last, rfl⟩
    · obtain ⟨rfl, he⟩ := List.append_inj' hsplit rfl
      cases he
      exact .inr ⟨hfailed, habandons, t, ht⟩
    · rw [List.concat_eq_append, ← List.cons_append, ← List.append_assoc] at hsplit
      obtain ⟨rfl, he⟩ := List.append_inj' hsplit rfl
      cases he
      rw [List.concat_eq_append, admittedAt_concat, hlast before first after t ht] at hkeeps
      refine .inl ⟨⟨before, first, after, t, rfl, hfailed, ht, habandons, fun later hlater =>
        hkeeps later (List.mem_append_left _ hlater)⟩, fun hcurrent t' ht' => ?_⟩
      apply hkeeps e
      rw [if_pos hcurrent, admitted_of_ok ht']
      exact List.mem_append_right _ (List.mem_singleton_self e)
  · rintro (⟨⟨before, first, after, t, rfl, hfailed, ht, habandons, hkeeps⟩, hlater⟩ |
      ⟨hfailed, habandons, t, ht⟩)
    · refine ⟨before, first, after ++ [e], t, by simp, hfailed, ht, habandons, ?_⟩
      rw [admittedAt_concat, hlast before first after t ht]
      intro later hmem
      rcases List.mem_append.1 hmem with hmem | hmem
      · exact hkeeps later hmem
      · split at hmem
        · next hcurrent =>
          cases ht' : m.transition (m.run metadata (before ++ first :: after)) e with
          | error refusal => rw [admitted_of_error ht'] at hmem; cases hmem
          | ok t' =>
            rw [admitted_of_ok ht', List.mem_singleton] at hmem
            rw [hmem]
            exact hlater hcurrent t' ht'
        · cases hmem
    · exact ⟨events, e, [], t, rfl, hfailed, ht, habandons, by simp [admittedAt]⟩

/-! ## Runs -/

/-- A failure of the step is on record: it was left behind, or the conversation is at it. -/
def Stands (m : Machine) (metadata : Json.Fields) (events : List Event) (id message : String) :
    Prop :=
  m.LeftBehind metadata events id message ∨ (m.run metadata events).HasFailed id message

/-- At another step than the one that is current an event leaves all failures as they stand. -/
theorem stands_elsewhere {events : List Event} {e : Event} {t : Transition} {message : String}
    (ht : m.transition (m.run metadata events) e = .ok t)
    (hbears : Bears (m.run metadata events) e t)
    (elsewhere : (m.run metadata events).currentStep ≠ id) :
    m.Stands metadata (events ++ [e]) id message ↔ m.Stands metadata events id message := by
  have hbefore : ¬ (m.run metadata events).HasFailed id message := fun h => elsewhere h.current
  have hafter : ¬ t.state.HasFailed id message := by
    intro h
    have hfailure := h.failure
    cases hbears with
    | clears change recovered => rw [recovered] at hfailure; cases hfailure
    | records _ change stays current failure => exact elsewhere (current ▸ h.current)
    | leaves change entered begun abandons => rw [begun] at hfailure; cases hfailure
    | passes change stays current phase other => exact elsewhere (current ▸ h.current)
  rw [Stands, Stands, leftBehind_concat, run_concat, after_of_ok ht]
  simp [hbefore, hafter, elsewhere]

/-- What an accepted event makes of the failures of the step that it is accepted at. -/
theorem stands_here {events : List Event} {e : Event} {t : Transition} {message : String}
    (ht : m.transition (m.run metadata events) e = .ok t)
    (hbears : Bears (m.run metadata events) e t)
    (here : (m.run metadata events).currentStep = id) :
    m.Stands metadata (events ++ [e]) id message ↔
      e.errorChange = .becomes (.string message) ∨
        e.errorChange = .keeps ∧ m.Stands metadata events id message := by
  rw [Stands, Stands, leftBehind_concat, run_concat, after_of_ok ht]
  cases hbears with
  | clears change recovered =>
    have habandons : ¬ e.Abandons := fun h => by cases h <;> cases change
    have hafter : ¬ t.state.HasFailed id message := fun h => by
      have hfailure := h.failure
      rw [recovered] at hfailure
      cases hfailure
    simp [here, ht, change, habandons, hafter]
  | records told change stays current failure =>
    have habandons : ¬ e.Abandons := fun h => by cases h <;> cases change
    have hafter : t.state.HasFailed id message ↔ told = message := by
      constructor
      · intro h
        exact Option.some.inj (failure.symm.trans h.failure)
      · rintro rfl
        exact ⟨current.trans here, failure⟩
    simp [here, ht, change, habandons, hafter]
  | leaves change entered begun abandons =>
    have hafter : ¬ t.state.HasFailed id message := fun h => by
      have hfailure := h.failure
      rw [begun] at hfailure
      cases hfailure
    have habandons : (m.run metadata events).HasFailed id message → e.Abandons := fun h =>
      abandons (by rw [h.failure]; exact Option.some_ne_none _)
    simp only [ht, change, hafter, implies_true, and_true, or_false, reduceCtorEq, false_or,
      true_and, Except.ok.injEq, exists_eq', and_iff_left_of_imp habandons]
  | passes change stays current phase other =>
    have hafter : t.state.HasFailed id message ↔ (m.run metadata events).HasFailed id message := by
      constructor
      · intro h; exact ⟨here, phase ▸ h.failure⟩
      · intro h; exact ⟨current.trans here, phase ▸ h.failure⟩
    simp [here, ht, change, hafter, other]

/-- An event that is refused leaves all failures as they stand. -/
theorem stands_refused {events : List Event} {e : Event} {refusal : TransitionError}
    {message : String} (ht : m.transition (m.run metadata events) e = .error refusal) :
    m.Stands metadata (events ++ [e]) id message ↔ m.Stands metadata events id message := by
  rw [Stands, Stands, leftBehind_concat, run_concat, after_of_error ht]
  simp [ht]

/-- At the start of a run no failure stands. -/
theorem not_stands_nil (m : Machine) (metadata : Json.Fields) (id message : String) :
    ¬ m.Stands metadata [] id message := by
  rintro (⟨before, e, after, t, hsplit, -⟩ | h)
  · cases before <;> cases hsplit
  · have hfailure := h.failure
    rw [show (m.run metadata []).phase.failure? = none from enter_failure m _ m.initial none]
      at hfailure
    cases hfailure

/-- In every run, the errors on record are the failures that stand. -/
theorem run_error_iff (m : Machine) (metadata : Json.Fields) (events : List Event) (id : String)
    (v : Json) :
    (m.run metadata events).context.errors.get? id = some v ↔
      ∃ message, v = .string message ∧ m.Stands metadata events id message := by
  -- From the back, because what the last event does to the record is said of the state before it.
  induction events using List.reverseRecOn generalizing v with
  | nil =>
    constructor
    · intro h
      cases h
    · rintro ⟨message, -, hstands⟩
      exact absurd hstands (not_stands_nil m metadata id message)
  | append_singleton events e ih =>
    cases ht : m.transition (m.run metadata events) e with
    | error refusal =>
      rw [run_concat, after_of_error ht, ih]
      simp only [stands_refused ht]
    | ok t =>
      obtain ⟨hbears, hturns⟩ := transition_errors (run_once m metadata events) ht
      rw [run_concat, after_of_ok ht, hturns id]
      by_cases here : id = (m.run metadata events).currentStep
      · rw [if_pos here]
        simp only [stands_here ht hbears here.symm]
        cases hbears with
        | clears change => simp [change, Change.of]
        | records told change => simp [change, Change.of, eq_comm]
        | leaves change => simpa [change, Change.of] using ih v
        | passes change => simpa [change, Change.of] using ih v
      · rw [if_neg here, ih]
        simp only [stands_elsewhere ht hbears (Ne.symm here)]

/-! ## Actions that run -/

/-- Unless the action of the step has failed, there is no error for the step. -/
def Unspoilt (s : State) : Prop :=
  s.phase.failure? = none → s.context.errors.get? s.currentStep = none

/-- An event that enters no step spoils nothing: an error that it records is the failure of the
phase. -/
theorem transition_unspoilt (once : s.context.errors.keys.Nodup) (h : Unspoilt s) {e : Event}
    {t : Transition} (ht : m.transition s e = .ok t) (stays : t.log.entered = []) :
    Unspoilt t.state := by
  obtain ⟨hbears, hturns⟩ := transition_errors once ht
  intro going
  cases hbears with
  | clears change recovered =>
    rcases transition_currentStep ht with hentered | ⟨-, hcurrent⟩
    · rw [stays] at hentered
      cases hentered
    · rw [hturns, if_pos hcurrent, change, Change.of]
  | records message change stays current failure =>
    rw [failure] at going
    cases going
  | leaves change entered begun abandons => exact absurd stays entered
  | passes change stays current phase other =>
    rw [hturns, if_pos current, change, Change.of, current]
    exact h (phase ▸ going)

theorem foldl_unspoilt : ∀ (events : List Event) {s : State}, s.context.errors.keys.Nodup →
    Unspoilt s → (m.logFrom s events).entered = [] → Unspoilt (events.foldl m.after s)
  | [], _, _, h, _ => h
  | e :: events, s, once, h, stays => by
    rw [logFrom, Log.entered_append, List.append_eq_nil_iff] at stays
    rw [List.foldl_cons]
    cases ht : m.transition s e with
    | error refusal =>
      rw [after_of_error ht] at stays ⊢
      exact foldl_unspoilt events once h stays.2
    | ok t =>
      obtain ⟨step, -, ha⟩ := accepts_of_transition ht
      rw [after_of_ok ht, notes_entered ht] at stays
      rw [after_of_ok ht]
      exact foldl_unspoilt events (accepts_once once ha)
        (transition_unspoilt once h ht stays.1) stays.2

/-- A retry leaves no error behind, and there is none in its visit while the action runs. -/
theorem retried_unspoilt {before after : List Event} {t : Transition}
    (ht : m.transition (m.run metadata before) .retry = .ok t)
    (stays : (m.logFrom t.state after).entered = []) :
    Unspoilt (m.run metadata (before ++ .retry :: after)) := by
  obtain ⟨hbears, hturns⟩ := transition_errors (run_once m metadata before) ht
  obtain ⟨step, -, ha⟩ := accepts_of_transition ht
  have hcurrent : t.state.currentStep = (m.run metadata before).currentStep := by
    cases ha with
    | retried => rfl
  rw [run_append, List.foldl_cons, after_of_ok ht]
  refine foldl_unspoilt after (accepts_once (run_once m metadata before) ha) (fun _ => ?_) stays
  rw [hturns, if_pos hcurrent]
  rfl

/-- In every run, while the action of a step runs there is an error for the step exactly if a
failure of it was left behind, and the snapshot and the surface show that failure. A retry takes it
away for the rest of its visit. -/
theorem pending_error_iff (m : Machine) (metadata : Json.Fields) (events : List Event) {i : Epoch}
    (running : (m.run metadata events).phase = .actionPending i) :
    let s := m.run metadata events
    (∀ v, s.context.errors.get? s.currentStep = some v ↔
      ∃ message, v = .string message ∧ m.LeftBehind metadata events s.currentStep message) ∧
    (∀ sessionId message, ((Snapshot.ofState sessionId s).toJson.getD "pendingErrors").get?
        s.currentStep = some (.string message) ↔
      m.LeftBehind metadata events s.currentStep message) ∧
    (∀ r step choices message, (Surface.ofStep r step s choices).error = some message ↔
      m.LeftBehind metadata events s.currentStep message) ∧
    ∀ before after t, events = before ++ .retry :: after →
      m.transition (m.run metadata before) .retry = .ok t →
      (m.logFrom t.state after).entered = [] → s.context.errors.get? s.currentStep = none := by
  intro s
  have going : s.phase.failure? = none := by
    rw [running]
    rfl
  have hstands (message : String) : m.Stands metadata events s.currentStep message ↔
      m.LeftBehind metadata events s.currentStep message := by
    refine or_iff_left fun h => ?_
    have hfailure := h.failure
    rw [going] at hfailure
    cases hfailure
  have herrors (v : Json) : s.context.errors.get? s.currentStep = some v ↔
      ∃ message, v = .string message ∧ m.LeftBehind metadata events s.currentStep message := by
    rw [run_error_iff]
    simp only [hstands]
  have hmessage (message : String) :
      s.context.errors.get? s.currentStep = some (.string message) ↔
        m.LeftBehind metadata events s.currentStep message := by
    simp [herrors]
  refine ⟨herrors, fun _ message => hmessage message, fun r step choices message => ?_, ?_⟩
  · have hshown : (Surface.ofStep r step s choices).error = s.context.errorFor s.currentStep := by
      rw [Surface.ofStep, Surface.failure, running]
    rw [hshown, Context.errorFor, Option.bind_eq_some_iff, ← hmessage]
    constructor
    · rintro ⟨v, hv, htold⟩
      obtain ⟨told, rfl, -⟩ := (herrors v).1 hv
      cases htold
      exact hv
    · intro h
      exact ⟨_, h, rfl⟩
  · rintro before after t rfl ht stays
    exact retried_unspoilt ht stays going

/-- A step that pays, and a step to which one can turn for help and which leads back. -/
def counter : FlowDocument where
  flow := {
    initialStep := some "pay"
    steps := [
      ("pay", { kind := .textInput, action := some { kind := "charge" },
                nextStep := some "help" }),
      ("help", { kind := .textInput, nextStep := some "pay" })] }

/-- The counter, compiled. -/
def counterMachine : Machine := .compiled Registry.empty.kinds counter "pay"

/-- The payment is declined, the client turns for help, and comes back to pay again. -/
def helped : List Event :=
  [.actionSettled 1 declined, .answer (.string "help") none, .answer (.string "back") none]

/-- After the help the payment runs again, and the failure of the first payment is on record. -/
theorem helped_pending :
    (counterMachine.run [] helped).phase = .actionPending 3 ∧
    (counterMachine.run [] helped).currentStep = "pay" ∧
    (counterMachine.run [] helped).context.errors.get? "pay" = some (.string "declined") :=
  ⟨by cbv, by cbv, by cbv⟩

/-- The failure is on record because it was left for help; when the payment runs again because it
was tried again, there is none. -/
theorem pending_error_iff_counter :
    let s := counterMachine.run [] helped
    let again := counterMachine.run [] [.actionSettled 1 declined, .retry]
    build Registry.empty.kinds counter = .ok counterMachine ∧
    s.phase = .actionPending 3 ∧ s.context.errors.get? s.currentStep = some (.string "declined") ∧
    counterMachine.LeftBehind [] helped s.currentStep "declined" ∧
    again.phase = .actionPending 2 ∧ again.context.errors.get? again.currentStep = none := by
  intro s again
  obtain ⟨hphase, hcurrent, hrecord⟩ := helped_pending
  have herror : s.context.errors.get? s.currentStep = some (.string "declined") := by
    rw [hcurrent]
    exact hrecord
  obtain ⟨message, hmessage, hleft⟩ :=
    ((pending_error_iff counterMachine [] helped hphase).1 _).1 herror
  cases hmessage
  have hretried : again.phase = .actionPending 2 := rfl
  have hgone := (pending_error_iff counterMachine [] _ hretried).2.2.2
    [.actionSettled 1 declined] [] _ rfl rfl rfl
  exact ⟨rfl, hphase, herror, hleft, hretried, hgone⟩

/-- While the payment runs for the second time, the snapshot and the surface show the failure of
the first time. -/
theorem pending_error_shown :
    let s := counterMachine.run [] helped
    build Registry.empty.kinds counter = .ok counterMachine ∧ s.phase = .actionPending 3 ∧
    s.currentStep = "pay" ∧ s.context.errors.get? "pay" = some (.string "declined") ∧
    ((Snapshot.ofState "a" s).toJson.getD "pendingErrors").get? "pay" =
      some (.string "declined") ∧
    ∃ step, counterMachine.step? "pay" = some step ∧
      (Surface.ofStep Registry.empty step s []).error = some "declined" := by
  intro s
  obtain ⟨hphase, hcurrent, herror⟩ := helped_pending
  exact ⟨rfl, hphase, hcurrent, herror, herror, _, rfl, by decide +kernel⟩

end Machine

end Dialogue
