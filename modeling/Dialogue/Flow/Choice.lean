import Dialogue.Json.Decode
import Dialogue.Expr.Eval

/-!
Choices and guarded edges.

A condition leads to its target when its expression holds. Of several conditions the one with the
highest priority is taken, and of equal ones the first.
-/
namespace Dialogue

/-- A guarded edge to a step. -/
structure Condition where
  expression : String
  target : String
  priority : Int

namespace Condition

/-- What is read so far. -/
structure Draft where
  expression : Option String := none
  target : Option String := none
  priority : Int := 0

open Decode in
def Draft.slots : List (Slot Draft) := [
  slot "expression" .required string (fun a d => { d with expression := some a }) ["condition"],
  slot "target" .required string (fun a d => { d with target := some a }) ["nextStep"],
  slot "priority" .defaulted int64 (fun a d => { d with priority := a })]

def decode : Decoder Condition :=
  Decode.record "ConditionalTransition" Draft.slots {} fun d => do
    .ok ⟨← Decode.need "expression" d.expression, ← Decode.need "target" d.target, d.priority⟩

def toJson (c : Condition) : Json :=
  .object [("expression", .string c.expression), ("target", .string c.target),
    ("priority", .ofInt c.priority)]

end Condition

/-- Items from the highest priority to the lowest; equal ones keep their order. -/
def byPriority (priority : α → Int) (items : List α) : List α :=
  items.mergeSort fun a b => priority b ≤ priority a

/-- The target of the first condition, by priority, that holds. -/
def Condition.route (conditions : List Condition) (scope : Json) : Option String :=
  ((byPriority Condition.priority conditions).find? fun c =>
    Expr.sourceHolds c.expression scope).map Condition.target

/-- An answer that can be chosen at a step. -/
structure Choice where
  value : Json
  label : Option String := none
  nextStep : Option String := none
  conditions : List Condition := []
  metadata : Option Json := none

namespace Choice

/-- What is read so far. -/
structure Draft where
  value : Option Json := none
  label : Option String := none
  nextStep : Option String := none
  conditions : List Condition := []
  metadata : Option Json := none

open Decode in
def Draft.slots : List (Slot Draft) := [
  slot "value" .required any (fun a d => { d with value := some a }),
  slot "label" .defaulted (option string) (fun a d => { d with label := a }),
  slot "nextStep" .defaulted (option string) (fun a d => { d with nextStep := a }),
  slot "conditions" .defaulted (list Condition.decode) (fun a d => { d with conditions := a }),
  slot "metadata" .defaulted (option any) (fun a d => { d with metadata := a })]

def decode : Decoder Choice :=
  Decode.record "FlowOption" Draft.slots {} fun d => do
    .ok ⟨← Decode.need "value" d.value, d.label, d.nextStep, d.conditions, d.metadata⟩

def toJson (c : Choice) : Json :=
  .object (("value", c.value) ::
    (Json.field? "label" .string c.label ++ Json.field? "nextStep" .string c.nextStep ++
    (if c.conditions.isEmpty then []
      else [("conditions", .array (c.conditions.map Condition.toJson))]) ++
    Json.field? "metadata" id c.metadata))

/-- The label, or the value as a text. -/
def displayLabel (c : Choice) : String := c.label.getD c.value.display

/-- A choice of a value under a label. -/
def labelled (value : Json) (label : String) : Choice := { value, label := some label }

end Choice

end Dialogue
