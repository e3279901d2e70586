import Dialogue.Proofs.Machine.Visits

/-!
The choices of a visit.

A machine holds the choices that were brought in for the visit that it is in, and routes answers on
them. While no step is entered, these are the ones that were accepted last, or else the ones that
there were before (`foldl_goesOn`). Choices that carry the epoch of a state are accepted at any time
after it, unless a step is entered or a failed action is tried again in between, which moves the
epoch on (`resolved_admitted`).
-/
namespace Dialogue

/-- The choices that an event brings in. -/
def Event.choices? : Event → Option (List Choice)
  | .optionsResolved _ choices => some choices
  | _ => none

namespace Machine

variable {m : Machine} {step : Step} {s : State}

/-! ## Accepted events -/

/-- The event, if it is accepted. -/
def admitted (m : Machine) (s : State) (e : Event) : List Event :=
  match m.transition s e with
  | .ok _ => [e]
  | .error _ => []

/-- Those of the events that are accepted, from a state on. -/
def admittedFrom (m : Machine) : State → List Event → List Event
  | _, [] => []
  | s, e :: rest => m.admitted s e ++ admittedFrom m (m.after s e) rest

theorem admitted_of_ok {e : Event} {t : Transition} (h : m.transition s e = .ok t) :
    m.admitted s e = [e] := by simp [admitted, h]

theorem admitted_of_error {e : Event} {refusal : TransitionError}
    (h : m.transition s e = .error refusal) : m.admitted s e = [] := by simp [admitted, h]

theorem admittedFrom_append (m : Machine) : ∀ (before after : List Event) (s : State),
    m.admittedFrom s (before ++ after) =
      m.admittedFrom s before ++ m.admittedFrom (before.foldl m.after s) after
  | [], _, _ => rfl
  | e :: before, after, s => by
    rw [List.cons_append, admittedFrom, admittedFrom_append m before after, admittedFrom,
      List.append_assoc, List.foldl_cons]

/-! ## Within a visit -/

/-- The choices that were brought in last. -/
def lastChoices? (events : List Event) : Option (List Choice) :=
  (events.filterMap Event.choices?).getLast?

theorem lastChoices?_append (events later : List Event) :
    lastChoices? (events ++ later) = (lastChoices? later).or (lastChoices? events) := by
  rw [lastChoices?, List.filterMap_append, List.getLast?_append]
  rfl

/-- The last choices were brought in by one of the events. -/
theorem mem_of_lastChoices? {events : List Event} {held : List Choice}
    (h : lastChoices? events = some held) : ∃ epoch, .optionsResolved epoch held ∈ events := by
  obtain ⟨e, he, hbrings⟩ := List.mem_filterMap.1 (List.mem_of_getLast? h)
  cases e with
  | optionsResolved epoch choices => cases hbrings; exact ⟨epoch, he⟩
  | _ => cases hbrings

/-- Where choices were brought in, some were the last. -/
theorem lastChoices?_of_mem {events : List Event} {epoch : Epoch} {choices : List Choice}
    (h : .optionsResolved epoch choices ∈ events) : ∃ held, lastChoices? events = some held := by
  have hmem : choices ∈ events.filterMap Event.choices? := List.mem_filterMap.2 ⟨_, h, rfl⟩
  cases hlast : lastChoices? events with
  | some held => exact ⟨held, rfl⟩
  | none =>
    rw [lastChoices?, List.getLast?_eq_none_iff] at hlast
    rw [hlast] at hmem
    cases hmem

/-- The state goes on in the visit of another one, with these events accepted in between. -/
structure GoesOn (accepted : List Event) (s s' : State) : Prop where
  step : s'.currentStep = s.currentStep
  held : s'.resolvedOptions = (lastChoices? accepted).or s.resolvedOptions
  epoch : .retry ∉ accepted → s'.epoch = s.epoch
  going : s.isCompleted = false → s'.isCompleted = false

theorem GoesOn.refl (s : State) : GoesOn [] s s := ⟨rfl, rfl, fun _ => rfl, id⟩

theorem GoesOn.trans {accepted later : List Event} {s s' s'' : State} (h : GoesOn accepted s s')
    (h' : GoesOn later s' s'') : GoesOn (accepted ++ later) s s'' where
  step := h'.step.trans h.step
  held := by rw [h'.held, h.held, lastChoices?_append, Option.or_assoc]
  epoch := by
    intro hn
    rw [List.mem_append, not_or] at hn
    exact (h'.epoch hn.2).trans (h.epoch hn.1)
  going := fun hs => h'.going (h.going hs)

/-- A visit that has held choices, or accepted some, holds choices still: the same ones, unless it
has accepted others. -/
theorem GoesOn.holds {accepted : List Event} {s s' : State} (h : GoesOn accepted s s')
    {choices : List Choice}
    (known : s.resolvedOptions = some choices ∨ ∃ i, .optionsResolved i choices ∈ accepted) :
    ∃ held, s'.resolvedOptions = some held ∧
      ((∀ i other, .optionsResolved i other ∈ accepted → other = choices) → held = choices) := by
  have hheld := h.held
  cases hlast : lastChoices? accepted with
  | some held =>
    rw [hlast, Option.some_or] at hheld
    obtain ⟨i, hmem⟩ := mem_of_lastChoices? hlast
    exact ⟨held, hheld, fun only => only i held hmem⟩
  | none =>
    rw [hlast, Option.none_or] at hheld
    rcases known with hknown | ⟨i, hmem⟩
    · exact ⟨choices, hheld.trans hknown, fun _ => rfl⟩
    · obtain ⟨held, hsome⟩ := lastChoices?_of_mem hmem
      rw [hlast] at hsome
      cases hsome

/-- An accepted event that enters no step goes on in the visit. -/
theorem accepts_goesOn {e : Event} {t : Transition} (ha : Accepts m step s e t)
    (h : t.log.entered = []) : GoesOn [e] s t.state := by
  cases ha with
  | answered value answered id waits named leads => rw [moveTo_entered] at h; cases h
  | advanced epoch id current ready leads => rw [moveTo_entered] at h; cases h
  | completed value id going awaits leads => rw [moveTo_entered] at h; cases h
  | settled i result id running success leads => rw [moveTo_entered] at h; cases h
  | retried error retryable action failed runs =>
    exact ⟨rfl, rfl, fun hn => absurd (List.mem_singleton_self _) hn, fun _ => rfl⟩
  | failed i result running failure => exact ⟨rfl, rfl, fun _ => rfl, fun _ => rfl⟩
  | held i result running success stays => exact ⟨rfl, rfl, fun _ => rfl, fun _ => rfl⟩
  | loaded choices going => exact ⟨rfl, rfl, fun _ => rfl, id⟩

/-- An event that enters no step goes on in the visit. -/
theorem after_goesOn (m : Machine) {e : Event} (h : (m.notes s e).entered = []) :
    GoesOn (m.admitted s e) s (m.after s e) := by
  cases ht : m.transition s e with
  | error refusal =>
    rw [admitted_of_error ht, after_of_error ht]
    exact .refl s
  | ok t =>
    rw [notes_entered ht] at h
    rw [admitted_of_ok ht, after_of_ok ht]
    obtain ⟨step, -, ha⟩ := accepts_of_transition ht
    exact accepts_goesOn ha h

/-- Events that enter no step go on in the visit. -/
theorem foldl_goesOn (m : Machine) : ∀ (events : List Event) {s : State},
    (m.logFrom s events).entered = [] →
    GoesOn (m.admittedFrom s events) s (events.foldl m.after s)
  | [], s, _ => .refl s
  | e :: events, s, h => by
    rw [logFrom, Log.entered_append, List.append_eq_nil_iff] at h
    rw [admittedFrom, List.foldl_cons]
    exact (after_goesOn m h.1).trans (foldl_goesOn m events h.2)

/-! ## Choices that are brought in -/

/-- Choices for the epoch of the state are accepted. -/
theorem transition_resolved (hs : m.step? s.currentStep = some step)
    (going : s.isCompleted = false) (choices : List Choice) :
    m.transition s (.optionsResolved s.epoch choices) =
      .ok { state := { s with resolvedOptions := some choices } } := by
  have hphase : s.phase.isTerminal = false := going
  simp [transition, hs, handle, hphase]

/-- Choices for the epoch of a state are accepted later too, if no step was entered and no action
tried again since. -/
theorem resolved_admitted (hs : m.step? s.currentStep = some step) (going : s.isCompleted = false)
    {events : List Event} (current : (m.logFrom s events).entered = [])
    (once : .retry ∉ m.admittedFrom s events) {choices : List Choice}
    (brought : .optionsResolved s.epoch choices ∈ events) :
    .optionsResolved s.epoch choices ∈ m.admittedFrom s events := by
  obtain ⟨before, after, rfl⟩ := List.append_of_mem brought
  rw [logFrom_append, Log.entered_append, List.append_eq_nil_iff] at current
  rw [admittedFrom_append, List.mem_append] at once ⊢
  have hbefore := foldl_goesOn m before current.1
  have hepoch := hbefore.epoch fun h => once (.inl h)
  have ht := transition_resolved (by rw [hbefore.step]; exact hs) (hbefore.going going) choices
  rw [hepoch] at ht
  refine .inr ?_
  rw [admittedFrom, admitted_of_ok ht]
  exact List.mem_append_left _ (List.mem_singleton_self _)

end Machine

end Dialogue
