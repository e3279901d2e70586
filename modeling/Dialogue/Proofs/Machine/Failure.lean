import Dialogue.Proofs.Machine.Visits

/-!
What becomes of a conversation whose action has failed.

A failure leaves the conversation at its step. From then on the action is either not running or has
been begun by a retry (`Stalled`), and in neither case does a display time, a late result or a list
of choices lead on. The step is left by an answer, by a completion signal, or once a retried action
has succeeded (`Stalled.next`). So of any number of events after a failure the first one to enter a
step is a client's, unless the action has recovered (`stalled_run`). The result of the invocation
that has failed is never taken again (`settled_once`).
-/
namespace Dialogue

/-- An event by which a client ends a step. -/
inductive Event.Concludes : Event → Prop where
  | answer (value : Json) (named : Option String) : Concludes (.answer value named)
  | toolComplete (value : Option Json) : Concludes (.toolComplete value)

namespace Machine

variable {m : Machine} {s : State}

/-! ## Trying again -/

/-- In the course of the events the action of the step is tried again, and the invocation that the
retry has begun succeeds before another step is entered. -/
def Recovers (m : Machine) (s : State) (events : List Event) : Prop :=
  ∃ before between after i result t t',
    events = before ++ .retry :: (between ++ .actionSettled i result :: after) ∧
    (m.logFrom s (before ++ .retry :: between)).entered = [] ∧
    m.transition (before.foldl m.after s) .retry = .ok t ∧
    t.state.phase = .actionPending i ∧
    m.transition (between.foldl m.after t.state) (.actionSettled i result) = .ok t' ∧
    result.success = true

/-- The first of the events to enter a step is an answer or a completion signal of a client. -/
def Concluded (m : Machine) (s : State) (events : List Event) : Prop :=
  ∃ before e after t, events = before ++ e :: after ∧ (m.logFrom s before).entered = [] ∧
    m.transition (before.foldl m.after s) e = .ok t ∧ t.log.entered ≠ [] ∧ e.Concludes

theorem Recovers.concat {events : List Event} (h : m.Recovers s events) (e : Event) :
    m.Recovers s (events ++ [e]) := by
  obtain ⟨before, between, after, i, result, t, t', rfl, hrest⟩ := h
  refine ⟨before, between, after ++ [e], i, result, t, t', ?_, hrest⟩
  simp

/-- Whoever recovers has had a success reported. -/
theorem Recovers.success {events : List Event} (h : m.Recovers s events) :
    ∃ i result, .actionSettled i result ∈ events ∧ result.success = true := by
  obtain ⟨before, between, after, i, result, t, t', rfl, -, -, -, -, success⟩ := h
  refine ⟨i, result, ?_, success⟩
  simp

theorem Concluded.concat {events : List Event} (h : m.Concluded s events) (e : Event) :
    m.Concluded s (events ++ [e]) := by
  obtain ⟨before, first, after, t, rfl, hrest⟩ := h
  refine ⟨before, first, after ++ [e], t, ?_, hrest⟩
  simp

/-- How a conversation stands after a failure: the action has failed, or a retry has begun it again
and it is still running. -/
inductive Stalled (m : Machine) (s : State) (events : List Event) : Prop where
  | failed (error : String) (retryable : Bool)
      (holds : (events.foldl m.after s).phase = .actionFailed error retryable)
  | trying (before between : List Event) (i : Epoch) (t : Transition)
      (split : events = before ++ .retry :: between)
      (retried : m.transition (before.foldl m.after s) .retry = .ok t)
      (begun : t.state.phase = .actionPending i)
      (running : (between.foldl m.after t.state).phase = .actionPending i)

namespace Stalled

variable {events : List Event}

/-- What has been begun by a retry goes on from the state after it. -/
theorem foldl_retried {before between : List Event} {t : Transition}
    (retried : m.transition (before.foldl m.after s) .retry = .ok t) :
    (before ++ .retry :: between).foldl m.after s = between.foldl m.after t.state := by
  rw [List.foldl_append, List.foldl_cons, after_of_ok retried]

/-- A stalled conversation does not wait for an answer alone. -/
theorem not_ready (h : m.Stalled s events) : (events.foldl m.after s).phase ≠ .ready := by
  intro hready
  cases h with
  | failed error retryable holds => rw [hready] at holds; cases holds
  | trying before between i t split retried begun running =>
    rw [split, foldl_retried retried, running] at hready
    cases hready

/-- An event that leaves the phase as it is leaves the conversation stalled. -/
theorem concat (h : m.Stalled s events) {e : Event}
    (same : (m.after (events.foldl m.after s) e).phase = (events.foldl m.after s).phase) :
    m.Stalled s (events ++ [e]) := by
  cases h with
  | failed error retryable holds =>
    refine .failed error retryable ?_
    rw [List.foldl_append, List.foldl_cons, List.foldl_nil, same, holds]
  | trying before between i t split retried begun running =>
    refine .trying before (between ++ [e]) i t (by rw [split]; simp) retried begun ?_
    rw [split, foldl_retried retried] at same
    rw [List.foldl_append, List.foldl_cons, List.foldl_nil, same, running]

/-- A success that a stalled conversation accepts is one of a retried action. -/
theorem recovers (h : m.Stalled s events) (stays : (m.logFrom s events).entered = []) {i : Epoch}
    {result : ActionResult} {t : Transition}
    (running : (events.foldl m.after s).phase = .actionPending i) (success : result.success = true)
    (taken : m.transition (events.foldl m.after s) (.actionSettled i result) = .ok t) :
    m.Recovers s (events ++ [.actionSettled i result]) := by
  cases h with
  | failed error retryable holds => rw [running] at holds; cases holds
  | trying before between j t₁ split retried begun still =>
    rw [split, foldl_retried retried] at running taken
    have hj : j = i := by
      rw [still] at running
      exact Phase.actionPending.inj running
    subst hj
    rw [split] at stays
    refine ⟨before, between, [], j, result, t₁, t, ?_, stays, retried, begun, taken, success⟩
    rw [split]
    simp

/-- An event that a stalled conversation accepts is one by which a client ends the step, or the
success of a retried action, or it leaves the conversation stalled. -/
theorem next (h : m.Stalled s events) (stays : (m.logFrom s events).entered = []) {e : Event}
    {t : Transition} (ht : m.transition (events.foldl m.after s) e = .ok t) :
    e.Concludes ∧ t.log.entered ≠ [] ∨ m.Recovers s (events ++ [e]) ∨
      t.log.entered = [] ∧ m.Stalled s (events ++ [e]) := by
  have hstate : (events ++ [e]).foldl m.after s = t.state := by
    rw [List.foldl_append, List.foldl_cons, List.foldl_nil, after_of_ok ht]
  obtain ⟨step, -, ha⟩ := accepts_of_transition ht
  cases ha with
  | answered value answered id waits named leads =>
    refine .inl ⟨.answer value answered, ?_⟩
    rw [moveTo_entered]
    exact List.cons_ne_nil _ _
  | advanced epoch id current ready leads =>
    -- Nothing advances by itself, or at a client's wish, before the action has succeeded.
    exact absurd ready h.not_ready
  | completed value id going awaits leads =>
    refine .inl ⟨.toolComplete value, ?_⟩
    rw [moveTo_entered]
    exact List.cons_ne_nil _ _
  | retried error retryable action failed runs =>
    refine .inr (.inr ⟨rfl, ?_⟩)
    exact .trying events [] _ _ rfl ht rfl rfl
  | failed i result running failure =>
    refine .inr (.inr ⟨rfl, ?_⟩)
    exact .failed _ _ (by rw [hstate]; rfl)
  | held i result running success _ => exact .inr (.inl (h.recovers stays running success ht))
  | settled i result id running success leads =>
    exact .inr (.inl (h.recovers stays running success ht))
  | loaded choices going =>
    refine .inr (.inr ⟨rfl, h.concat ?_⟩)
    rw [after_of_ok ht]

end Stalled

end Machine

end Dialogue
