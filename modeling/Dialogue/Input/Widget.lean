import Dialogue.Flow.Document

/-!
What is drawn for a step.
-/
namespace Dialogue

/-- A choice as it is drawn. -/
structure DrawnChoice where
  value : Json
  label : String
  metadata : Option Json

namespace DrawnChoice

/-- A choice as it is drawn. -/
def ofChoice (c : Choice) : DrawnChoice := ⟨c.value, c.displayLabel, c.metadata⟩

def toJson (c : DrawnChoice) : Json :=
  .object ([("value", c.value), ("label", .string c.label)] ++ Json.field? "metadata" id c.metadata)

end DrawnChoice

/-- What a user answers with. -/
inductive Widget where
  | none
  | buttons (choices : List DrawnChoice)
  | cards (choices : List DrawnChoice)
  | text (placeholder : Option String)
  | amount (placeholder : Option String) (min max : Option Binary64) (presets : List DrawnChoice)
  | number (placeholder : Option String) (min max : Option Binary64)
  | slider (slider : Slider)
  /-- Nothing: an action or a completion signal is awaited. -/
  | progress

namespace Widget

/-- The name of a widget. -/
def name : Widget → String
  | .none => "none"
  | .buttons _ => "buttons"
  | .cards _ => "cards"
  | .text _ => "text"
  | .amount .. => "amount"
  | .number .. => "number"
  | .slider _ => "slider"
  | .progress => "progress"

/-- Choices as they are drawn. -/
def drawn (choices : List DrawnChoice) : Json := .array (choices.map DrawnChoice.toJson)

/-- The fields of hints on a number. -/
def hints (placeholder : Option String) (min max : Option Binary64) : Json.Fields :=
  Json.field? "placeholder" .string placeholder ++ Json.field? "min" .ofBinary64 min ++
    Json.field? "max" .ofBinary64 max

/-- What is told of a widget beside its name. -/
def fields : Widget → Json.Fields
  | .none => []
  | .buttons choices => [("choices", drawn choices)]
  | .cards choices => [("choices", drawn choices)]
  | .text placeholder => Json.field? "placeholder" .string placeholder
  | .amount placeholder min max presets => hints placeholder min max ++ [("presets", drawn presets)]
  | .number placeholder min max => hints placeholder min max
  | .slider s => (s.toJson.fields?).getD []
  | .progress => []

def toJson (w : Widget) : Json := .object (("widget", .string w.name) :: w.fields)

/-- What is drawn for a kind that no input handler is registered for. -/
def fallback (c : Capabilities) (choices : List Choice) : Widget :=
  if !choices.isEmpty then .buttons (choices.map .ofChoice)
  else if c.producesValue then .text Option.none
  else if c.awaitsCompletion then .progress
  else .none

end Widget

end Dialogue
