import Dialogue.Action.ApiCall
import Dialogue.Action.Execute
import Dialogue.Action.Navigate
import Dialogue.Action.Storage
import Dialogue.Input.Handler
import Dialogue.Options.Load
import Dialogue.Rule.Check

/-!
The registry: the action handlers, functions, input handlers and validators that flows name.

It is filled before any conversation starts. A later entry replaces an earlier one of its name.
-/
namespace Dialogue

/-- What flows may name. -/
structure Registry where
  actions : Entries ActionHandler := []
  functions : Entries OptionFunction := []
  inputs : Entries InputHandler := []
  validators : Entries Validator := []

namespace Registry

/-- Nothing: steps of the built-in kinds still compile. -/
def empty : Registry := {}

/-- The built-in actions and input handlers. -/
def standard : Registry where
  actions := [("api_call", ApiCall.run), ("storage", StorageCall.run),
    ("navigation", Navigation.run)]
  inputs := StepKind.builtin.map fun kind => (kind.name, InputHandler.builtin kind)

/-- The capabilities of a kind of step with an input handler. -/
def kinds (r : Registry) (kind : String) : Option Capabilities :=
  (r.inputs.get? kind).map InputHandler.capabilities

/-- The kinds of actions, sorted. -/
def actionKinds (r : Registry) : List String := r.actions.keys.mergeSort fun a b => a ≤ b

end Registry

end Dialogue
