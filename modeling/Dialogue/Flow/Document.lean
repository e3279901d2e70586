import Dialogue.Flow.Source
import Dialogue.Rule.Basic
import Dialogue.Action.Definition

/-!
Flow documents.

A document holds the steps of a conversation in order. It may be written with its body under `flow`
or as the body alone. What a step's kind can do is fixed by `StepKind.capabilities?` for the kinds
that are built in; other kinds ask the registry.
-/
namespace Dialogue

/-- What a kind of step can do. -/
structure Capabilities where
  canAutoAdvance : Bool := false
  requiresValidation : Bool := false
  producesValue : Bool := false
  awaitsCompletion : Bool := false
  deriving DecidableEq, Repr

def Capabilities.toJson (c : Capabilities) : Json :=
  .object [("canAutoAdvance", .bool c.canAutoAdvance),
    ("requiresValidation", .bool c.requiresValidation),
    ("producesValue", .bool c.producesValue), ("awaitsCompletion", .bool c.awaitsCompletion)]

/-- A kind of step. -/
inductive StepKind where
  | message
  | buttonSelect
  | textInput
  | amountInput
  | numberInput
  | sliderSelect
  | toolCalls
  | system
  | confirmation
  | projectSelect
  | custom (name : String)
  deriving DecidableEq, Repr

namespace StepKind

/-- The name of a kind. -/
def name : StepKind → String
  | .message => "message"
  | .buttonSelect => "button_select"
  | .textInput => "text_input"
  | .amountInput => "amount_input"
  | .numberInput => "number_input"
  | .sliderSelect => "slider_select"
  | .toolCalls => "tool_calls"
  | .system => "system"
  | .confirmation => "confirmation"
  | .projectSelect => "project_select"
  | .custom name => name

/-- The built-in kinds. -/
def builtin : List StepKind :=
  [.message, .buttonSelect, .textInput, .amountInput, .numberInput, .sliderSelect, .toolCalls,
    .system, .confirmation, .projectSelect]

/-- The kind with a name. -/
def ofName (name : String) : StepKind :=
  (builtin.find? fun k => k.name = name).getD (.custom name)

/-- The capabilities of a built-in kind. -/
def capabilities? : StepKind → Option Capabilities
  | .message => some { canAutoAdvance := true }
  | .buttonSelect | .confirmation | .projectSelect => some { producesValue := true }
  | .textInput | .amountInput | .numberInput | .sliderSelect =>
    some { requiresValidation := true, producesValue := true }
  | .toolCalls | .system => some { awaitsCompletion := true }
  | .custom _ => none

end StepKind

/-- The range and the labels of a slider. -/
structure Slider where
  min : Binary64
  max : Binary64
  step : Binary64 := .ofNat 1
  leftLabel : Option String := none
  rightLabel : Option String := none
  defaultValue : Option Binary64 := none

namespace Slider

/-- What is read so far. -/
structure Draft where
  min : Option Binary64 := none
  max : Option Binary64 := none
  step : Binary64 := .ofNat 1
  leftLabel : Option String := none
  rightLabel : Option String := none
  defaultValue : Option Binary64 := none

open Decode in
def Draft.slots : List (Slot Draft) := [
  slot "min" .required real (fun a d => { d with min := some a }),
  slot "max" .required real (fun a d => { d with max := some a }),
  slot "step" .defaulted real (fun a d => { d with step := a }),
  slot "leftLabel" .defaulted (option string) (fun a d => { d with leftLabel := a }),
  slot "rightLabel" .defaulted (option string) (fun a d => { d with rightLabel := a }),
  slot "defaultValue" .defaulted (option real) (fun a d => { d with defaultValue := a })]

def decode : Decoder Slider :=
  Decode.record "SliderConfig" Draft.slots {} fun d => do
    .ok ⟨← Decode.need "min" d.min, ← Decode.need "max" d.max, d.step, d.leftLabel, d.rightLabel,
      d.defaultValue⟩

def toJson (s : Slider) : Json :=
  .object ([("min", .ofBinary64 s.min), ("max", .ofBinary64 s.max), ("step", .ofBinary64 s.step)] ++
    Json.field? "leftLabel" .string s.leftLabel ++ Json.field? "rightLabel" .string s.rightLabel ++
    Json.field? "defaultValue" .ofBinary64 s.defaultValue)

end Slider

/-- The options of a step. -/
inductive StepOptions where
  | list (choices : List Choice)
  | dynamic (config : SourceConfig)
  | slider (slider : Slider)

/-- The first reading of the options that succeeds: a list, a source, a slider. -/
def StepOptions.decode (v : Json) : Except DecodeError StepOptions :=
  match Decode.list Choice.decode v with
  | .ok choices => .ok (.list choices)
  | .error _ =>
    match SourceConfig.decode v with
    | .ok config => .ok (.dynamic config)
    | .error _ =>
      match Slider.decode v with
      | .ok s => .ok (.slider s)
      | .error _ => .error (.noVariant "StepOptions")

/-- A step of a flow, as the document writes it. -/
structure StepDef where
  id : Option String := none
  message : Option String := none
  kind : StepKind := .message
  options : Option StepOptions := none
  dynamicOptions : Option SourceConfig := none
  conditions : List Condition := []
  validation : List Rule := []
  action : Option Action := none
  nextStep : Option String := none
  isTerminal : Bool := false
  placeholder : Option String := none
  min : Option Binary64 := none
  max : Option Binary64 := none

namespace StepDef

open Decode in
def slots : List (Slot StepDef) := [
  slot "id" .defaulted (option string) (fun a d => { d with id := a }),
  slot "message" .defaulted (option string) (fun a d => { d with message := a }),
  slot "type" .defaulted string (fun a d => { d with kind := .ofName a }) ["kind"],
  slot "options" .defaulted (option StepOptions.decode) (fun a d => { d with options := a }),
  slot "dynamicOptions" .defaulted (option SourceConfig.decode)
    (fun a d => { d with dynamicOptions := a }),
  slot "conditions" .defaulted (list Condition.decode) (fun a d => { d with conditions := a }),
  slot "validation" .defaulted Rule.decodeList (fun a d => { d with validation := a })
    ["validationRules"],
  slot "action" .defaulted Action.decodeOptional (fun a d => { d with action := a }),
  slot "nextStep" .defaulted (option string) (fun a d => { d with nextStep := a }),
  slot "isTerminal" .defaulted bool (fun a d => { d with isTerminal := a }) ["isEnd"],
  slot "placeholder" .defaulted (option string) (fun a d => { d with placeholder := a }),
  slot "min" .defaulted (option real) (fun a d => { d with min := a }),
  slot "max" .defaulted (option real) (fun a d => { d with max := a })]

def decode : Decoder StepDef := Decode.record "StepDefinition" slots {} .ok

/-- The choices written in the step itself. -/
def staticChoices (d : StepDef) : List Choice :=
  match d.options with
  | some (.list choices) => choices
  | _ => []

/-- The source of further choices. -/
def source? (d : StepDef) : Option SourceConfig :=
  d.dynamicOptions <|>
    match d.options with
    | some (.dynamic config) => some config
    | _ => none

/-- The slider that is written for a step. -/
def slider? (d : StepDef) : Option Slider :=
  match d.options with
  | some (.slider slider) => some slider
  | _ => none

end StepDef

/-- The body of a flow: its steps by id, in order. -/
structure FlowBody where
  initialStep : Option String := none
  steps : Entries StepDef

/-- A flow document. -/
structure FlowDocument where
  version : Json := .null
  flow : FlowBody
  metadata : Json.Fields := []

/-- Why a file cannot be read. -/
inductive FileError where
  | notFound
  | isFolder
  deriving DecidableEq, Repr

/-- Why a document cannot be used. -/
inductive FlowError where
  | unreadable (e : FileError)
  /-- The value has the wrong shape. -/
  | shape (e : DecodeError)
  /-- The text is not JSON. -/
  | text (e : ReadError)
  | noSteps

namespace FlowError

def message : FlowError → String
  | .unreadable .notFound => "Flow document not found"
  | .unreadable .isFolder => "Flow document is a folder"
  | .shape e => "Invalid flow document: " ++ e.message
  | .text _ => "Invalid flow document"
  | .noSteps => "Flow document declares no steps"

end FlowError

namespace FlowBody

/-- What is read so far. -/
structure Draft where
  initialStep : Option String := none
  steps : Option (Entries StepDef) := none

open Decode in
def decode : Decoder FlowBody :=
  record "FlowBody" [
    slot "initialStep" .defaulted (option string)
      (fun a (d : Draft) => { d with initialStep := a }),
    slot "steps" .required (entries StepDef.decode) (fun a d => { d with steps := some a })]
    {} fun d => do .ok ⟨d.initialStep, ← need "steps" d.steps⟩

end FlowBody

namespace FlowDocument

/-- What is read so far. -/
structure Draft where
  version : Json := .null
  flow : Option FlowBody := none
  metadata : Json.Fields := []

open Decode in
def decode : Decoder FlowDocument :=
  record "FlowDocument" [
    slot "version" .defaulted any (fun a (d : Draft) => { d with version := a }),
    slot "flow" .required FlowBody.decode (fun a d => { d with flow := some a }),
    slot "metadata" .defaulted fields (fun a d => { d with metadata := a })]
    {} fun d => do .ok ⟨d.version, ← need "flow" d.flow, d.metadata⟩

/-- A body alone, as a document. -/
def wrap : Json → Json
  | .object fields =>
    if !Entries.has fields "flow" && Entries.has fields "steps" then
      .object [("flow", .object fields)]
    else .object fields
  | v => v

/-- The document that a value is. -/
def ofJson (v : Json) : Except FlowError FlowDocument :=
  match decode (wrap v) with
  | .ok d => .ok d
  | .error e => .error (.shape e)

/-- Reads a document from its text. -/
def ofText (text : String) : Except FlowError FlowDocument :=
  match Json.read text with
  | .ok v => ofJson v
  | .error e => .error (.text e)

/-- The version as a text. -/
def versionLabel (d : FlowDocument) : String :=
  match d.version with
  | .null => "unversioned"
  | .string s => s
  | v => v.text

end FlowDocument

end Dialogue
