import Dialogue.Proofs.Session.Submission
import Dialogue.Proofs.Session.Taking

/-!
Answers and the visits that they are for.

A submission looks at its session in one visit of a step, and the session takes the answer in the
same visit or in a later one. The answer carries the step that it is for, and not the visit. So it
is accepted in the visit of the look, where it has been judged, or else in a later visit of the step
that it names (`accepted_answer_visit`). Where a step leads back to itself, two submissions that
look at one visit are therefore both accepted (`accepted_answer_crosses`). Within one visit that
cannot be, since an accepted answer ends the visit that it is taken in.
-/
namespace Dialogue

namespace World

variable {w : World}

/-- The steps that a session enters in the course of moves. -/
def entered (w : World) (sid : String) (moves : List Move) : List String :=
  match w.session? sid with
  | some s => (s.machine.logFrom s.state (w.taken sid moves)).entered
  | none => []

/-- From one moment to a later one, a session comes to the step that it enters last. -/
theorem run_currentStep (hw : w.Sound) {sid : String} {s s' : Session}
    (hs : w.session? sid = some s) {moves : List Move}
    (hs' : (w.run moves).session? sid = some s') :
    s'.state.currentStep = (w.entered sid moves).getLast?.getD s.state.currentStep := by
  obtain ⟨t, ht, -, hstate⟩ := run_state_later hw hs moves
  rw [hs'] at ht
  cases ht
  rw [hstate, Machine.foldl_currentStep, entered, hs]

/-- An answer that a session accepts names the current step and ends its visit. If no step has been
entered since the submission looked, the answer was judged in this very visit; otherwise the step
that it names has been entered again. -/
theorem accepted_answer_visit (hw : w.Empty) (past before after : List Move) {sid : String}
    {request : Request} {raw : Json} (hr : request.raw? = some raw) {s₀ s : Session} {ticket : Nat}
    {e : Envelope} {t : Transition} (hs₀ : (w.run past).session? sid = some s₀)
    (queued : (w.run (past ++ .ask sid request :: before)).job? (w.run past).jobCount =
      some ⟨(w.run past).jobCount, sid, .call (.await ticket .submission)⟩)
    (hs : (w.run (past ++ .ask sid request :: (before ++ after))).session? sid = some s)
    (takes : s.Takes e) (own : e.ticket = some ticket)
    (accepted : s.machine.transition s.state e.event = .ok t) :
    ∃ value earlier since seen step,
      before = earlier ++ .turn (w.run past).jobCount :: since ∧
      Submission.Looks (w.run (past ++ .ask sid request :: earlier)) (w.run past).jobCount sid raw
        s.state.currentStep seen ∧
      e.event = .answer value (some s.state.currentStep) ∧
      t.log.entered = [t.state.currentStep] ∧
      s.machine.step? s.state.currentStep = some step ∧
      let entered := (w.run (past ++ .ask sid request :: earlier)).entered sid
        (.turn (w.run past).jobCount :: (since ++ after))
      (entered = [] ∧ seen.state.currentStep = s.state.currentStep ∧
          step.Passes w.registry seen.state raw value) ∨
        entered.getLast? = some s.state.currentStep := by
  obtain ⟨earlier, seen, stepId, ⟨since, hbefore⟩, hlooks, hm, hj⟩ :=
    taken_answer_formed hw past before after hr hs₀ queued hs
      (List.mem_of_mem_head? takes.queue) own
  obtain ⟨value, hvalue, hformed⟩ := Call.judged_submit hj
  obtain ⟨step, hstep, haccepts⟩ := Machine.accepts_of_transition accepted
  have hnamed : stepId = s.state.currentStep := by
    rw [hvalue] at haccepts
    cases haccepts with
    | answered value answered id waits named leads =>
      rw [named stepId rfl, Machine.step?_id hstep]
  subst hnamed
  have hends : t.log.entered = [t.state.currentStep] := by
    rw [hvalue] at accepted
    exact Machine.answer_enters accepted
  rw [List.append_assoc, List.singleton_append] at hbefore
  refine ⟨value, earlier, since, seen, step, hbefore.symm, hlooks, hvalue, hends, hstep, ?_⟩
  have hsound : (w.run (past ++ .ask sid request :: earlier)).Sound := run_sound hw.sound _
  have hlater : ((w.run (past ++ .ask sid request :: earlier)).run
      (.turn (w.run past).jobCount :: (since ++ after))).session? sid = some s := by
    have hmoves : (past ++ .ask sid request :: earlier) ++
        .turn (w.run past).jobCount :: (since ++ after) =
          past ++ .ask sid request :: (before ++ after) := by
      simp [← hbefore]
    rw [← run_append, hmoves]
    exact hs
  have hcurrent := run_currentStep hsound hlooks.session hlater
  intro entered
  change s.state.currentStep = entered.getLast?.getD seen.state.currentStep at hcurrent
  cases hlast : entered.getLast? with
  | some last => rw [hlast] at hcurrent; exact .inr (congrArg some hcurrent.symm)
  | none =>
    rw [hlast] at hcurrent
    refine .inl ⟨List.getLast?_eq_none_iff.1 hlast, hcurrent.symm, ?_⟩
    rcases hformed with ⟨step', hstep', -, hpasses⟩ | ⟨-, hnone⟩
    · rw [hm, hstep] at hstep'
      cases hstep'
      exact hpasses
    · rw [hm, hstep] at hnone
      cases hnone hcurrent

/-! ### An inventory -/

/-- A question that is asked again after each answer. -/
def itemQuestion : StepDef where
  kind := .textInput
  validation := [{ kind := .required }]
  nextStep := some "item"

/-- A list of things, one after another. -/
def inventory : FlowDocument where
  flow := { initialStep := some "item", steps := [("item", itemQuestion)] }

/-- The inventory, compiled. -/
def inventoryMachine : Machine := .compiled Registry.standard.kinds inventory "item"

theorem build_inventory :
    Machine.build Registry.standard.kinds inventory = .ok inventoryMachine := rfl

/-- The question, compiled. -/
def compiledItem : Step :=
  Build.step inventory.flow.steps.has Registry.standard.kinds "item" itemQuestion

/-- The first answer is accepted in the visit in which it was judged. -/
theorem accepted_answer_visit_pen :
    let past := [.create "s" inventoryMachine []]
    let before := [.turn 2, .turn 2, .turn 2]
    let e : Envelope := { event := .answer (.string "pen") (some "item"), ticket := some 0 }
    ∃ s t seen value,
      (fresh.run (past ++ .ask "s" (.answer (.string "pen")) :: before)).session? "s" = some s ∧
      s.Takes e ∧ s.machine.transition s.state e.event = .ok t ∧
      t.log.entered = [t.state.currentStep] ∧ e.event = .answer value (some "item") ∧
      compiledItem.Passes Registry.standard seen (.string "pen") value := by
  intro past before e
  obtain ⟨s, t, hs, takes, hstep, accepted⟩ := accepts_of_observed
    (fresh.run (past ++ .ask "s" (.answer (.string "pen")) :: before)) "s" e compiledItem
    (by decide +kernel) rfl rfl (by decide +kernel)
  obtain ⟨value, earlier, since, seen, step, hbefore, -, he, hends, hstep', hvisit⟩ :=
    accepted_answer_visit fresh_empty past before [] rfl rfl rfl hs takes rfl accepted
  rw [hstep] at hstep'
  cases hstep'
  have hcurrent : s.state.currentStep = "item" := (Machine.step?_id hstep).symm
  rw [hcurrent] at he
  refine ⟨s, t, seen.state, value, hs, takes, accepted, hends, he, ?_⟩
  -- The loop has had no turn yet, so whenever the submission looked, nothing was entered since.
  have hnone : ∀ n < 4, (fresh.run (past ++ .ask "s" (.answer (.string "pen")) ::
      before.take n)).entered "s" (before.drop n) = [] := by decide +kernel
  have hentered := hnone earlier.length (by
    have := congrArg List.length hbefore
    simp only [List.length_append, List.length_cons, before, List.length_nil] at this
    omega)
  rw [hbefore, List.take_left' rfl, List.drop_left' rfl] at hentered
  rcases hvisit with ⟨-, -, hpasses⟩ | hlast
  · exact hpasses
  · rw [List.append_nil] at hlast
    rw [show (fresh.run past).jobCount = 2 from rfl] at hentered hlast
    rw [hentered] at hlast
    cases hlast

/-- Two submissions are about to look at the first visit of the question. -/
def looking : List Move :=
  [.create "s" inventoryMachine [], .ask "s" (.answer (.string "pen")),
    .ask "s" (.answer (.string "ink")), .turn 2, .turn 3]

/-- Both look, and both answers are queued. -/
def lookedTwice : List Move := [.turn 2, .turn 3, .turn 2, .turn 3]

/-- The session takes the first answer, and asks again. -/
def askedAgain : List Move := [.turn 0, .turn 0, .turn 0, .turn 0]

/-- Two submissions look at one visit of the question. The first answer is recorded and the question
is asked again; then the second answer, which was judged in the visit that is over, is accepted in
the new one and takes the place of the first. -/
theorem accepted_answer_crosses :
    let e : Envelope := { event := .answer (.string "ink") (some "item"), ticket := some 1 }
    Machine.build Registry.standard.kinds inventory = .ok inventoryMachine ∧
    (fresh.run looking).job? 2 = some ⟨2, "s", .call (.judge (.string "pen") "item")⟩ ∧
    (fresh.run looking).job? 3 = some ⟨3, "s", .call (.judge (.string "ink") "item")⟩ ∧
    (fresh.run (looking ++ [.turn 2, .turn 3])).job? 3 =
      some ⟨3, "s", .call (.submit e.event .submission)⟩ ∧
    (fresh.run looking).entered "s" lookedTwice = [] ∧
    (fresh.run looking).entered "s" (lookedTwice ++ askedAgain) = ["item"] ∧
    ∃ s t, (fresh.run (looking ++ lookedTwice ++ askedAgain)).session? "s" = some s ∧
      s.Takes e ∧ (s.state.context.responses.get? "item").bind Json.string? = some "pen" ∧
      s.machine.transition s.state e.event = .ok t ∧
      (t.state.context.responses.get? "item").bind Json.string? = some "ink" ∧
      t.log.entered = ["item"] := by
  intro e
  obtain ⟨s, t, hs, takes, accepted⟩ := takes_of_observed
    (fresh.run (looking ++ lookedTwice ++ askedAgain)) "s" e (by decide +kernel)
    (by with_unfolding_all rfl)
    (by decide +kernel)
  have hrecorded : ((fresh.run (looking ++ lookedTwice ++ askedAgain)).session? "s").map
      (fun s => (s.state.context.responses.get? "item").bind Json.string?) =
        some (some "pen") := by decide +kernel
  have hreplaced : (((fresh.run (looking ++ lookedTwice ++ askedAgain)).session? "s").bind
      fun s => (s.machine.transition s.state e.event).toOption).map
      (fun t => ((t.state.context.responses.get? "item").bind Json.string?, t.log.entered)) =
        some (some "ink", ["item"]) := by decide +kernel
  rw [hs, Option.map_some] at hrecorded
  rw [hs, Option.bind_some, accepted] at hreplaced
  obtain ⟨hink, hentered⟩ := Prod.mk.inj (Option.some.inj hreplaced)
  exact ⟨build_inventory, rfl, rfl, rfl, by decide +kernel, by decide +kernel, s, t, hs, takes,
    Option.some.inj hrecorded, accepted, hink, hentered⟩

end World

end Dialogue
