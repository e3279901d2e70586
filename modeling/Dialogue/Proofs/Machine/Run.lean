import Dialogue.Machine.Transition

/-!
Runs of a machine.

A run starts at the first step and takes one event after another; an event that is refused leaves
the state as it was. What holds at the start and is kept by every transition holds in every state of
every run (`run_induction`).
-/
namespace Dialogue

namespace Machine

variable {m : Machine}

/-- The state after an event, which a refused event leaves as it was. -/
def after (m : Machine) (s : State) (e : Event) : State :=
  match m.transition s e with
  | .ok t => t.state
  | .error _ => s

/-- The state after the events of a run. -/
def run (m : Machine) (metadata : Json.Fields) (events : List Event) : State :=
  events.foldl m.after (m.start metadata).state

theorem after_of_ok {s : State} {e : Event} {t : Transition} (h : m.transition s e = .ok t) :
    m.after s e = t.state := by simp [after, h]

theorem after_of_error {s : State} {e : Event} {refusal : TransitionError}
    (h : m.transition s e = .error refusal) : m.after s e = s := by simp [after, h]

/-- What every transition keeps, any number of events keep. -/
theorem foldl_after {P : State → Prop}
    (keep : ∀ s e t, P s → m.transition s e = .ok t → P t.state) :
    ∀ (events : List Event) (s : State), P s → P (events.foldl m.after s)
  | [], _, hs => hs
  | e :: events, s, hs => by
    refine foldl_after keep events (m.after s e) ?_
    cases ht : m.transition s e with
    | ok t => rw [after_of_ok ht]; exact keep s e t hs ht
    | error refusal => rw [after_of_error ht]; exact hs

theorem run_induction {P : State → Prop} {metadata : Json.Fields}
    (start : P (m.start metadata).state)
    (keep : ∀ s e t, P s → m.transition s e = .ok t → P t.state) (events : List Event) :
    P (m.run metadata events) :=
  foldl_after keep events _ start

end Machine

end Dialogue
