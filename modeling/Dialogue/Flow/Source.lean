import Dialogue.Flow.Choice
import Dialogue.Template

/-!
Sources of choices.

A step may take its choices from a list, from a registered function or from an HTTP endpoint. The
raw items of the last two become choices by `Transform.choiceOf`, a filter keeps those for which an
expression holds, and lists may be kept in a cache under `SourceConfig.cacheKey`.
-/
namespace Dialogue

/-- Where choices come from. -/
inductive ChoiceSource where
  | static (choices : List Choice)
  | function (name : String) (params : Json)
  | api (url method : String) (headers : List (String × String)) (body : Option Json)
      (timeoutMs : Option Nat)

def ChoiceSource.name : ChoiceSource → String
  | .static _ => "static"
  | .function .. => "function"
  | .api .. => "api"

/-- The fields of a raw item that make up a choice. -/
structure Transform where
  valueField : Option String := none
  labelField : Option String := none
  metadataFields : List String := []

open Decode in
def Transform.decode : Decoder Transform :=
  record "TransformConfig" [
    slot "valueField" .defaulted (option string)
      (fun a (d : Transform) => { d with valueField := a }),
    slot "labelField" .defaulted (option string) (fun a d => { d with labelField := a }),
    slot "metadataFields" .defaulted (list string) (fun a d => { d with metadataFields := a })]
    {} .ok

/-- Whether and how long lists are kept; without a lifetime, until they are invalidated. -/
structure CachePolicy where
  enabled : Bool := true
  ttlMs : Option Nat := none
  key : Option String := none

open Decode in
def CachePolicy.decode : Decoder CachePolicy :=
  record "CacheConfig" [
    slot "enabled" .defaulted bool (fun a (d : CachePolicy) => { d with enabled := a }),
    slot "ttl" .defaulted (option nat64) (fun a d => { d with ttlMs := a }),
    slot "key" .defaulted (option string) (fun a d => { d with key := a })]
    {} .ok

/-- A source with what happens to its items. -/
structure SourceConfig where
  source : ChoiceSource
  filter : Option String := none
  transform : Option Transform := none
  cache : Option CachePolicy := none

namespace SourceConfig

/-- The fields of a source as a document writes it. -/
structure Draft where
  source : Option String := none
  params : Json.Fields := []
  apiUrl : Option String := none
  apiMethod : Option String := none
  apiHeaders : Option Json.Fields := none
  functionName : Option String := none
  staticOptions : Option (List Choice) := none
  filter : Option String := none
  transform : Option Transform := none
  cache : Option CachePolicy := none
  timeout : Option Nat := none

open Decode in
def Draft.slots : List (Slot Draft) := [
  slot "source" .required string (fun a d => { d with source := some a }),
  slot "sourceParams" .defaulted fields (fun a d => { d with params := a }),
  slot "apiUrl" .optional (option string) (fun a d => { d with apiUrl := a }),
  slot "apiMethod" .optional (option string) (fun a d => { d with apiMethod := a }),
  slot "apiHeaders" .optional (option fields) (fun a d => { d with apiHeaders := a }),
  slot "functionName" .optional (option string) (fun a d => { d with functionName := a }),
  slot "staticOptions" .optional (option (list Choice.decode))
    (fun a d => { d with staticOptions := a }),
  slot "filter" .optional (option string) (fun a d => { d with filter := a }),
  slot "transform" .optional (option Transform.decode) (fun a d => { d with transform := a }),
  slot "cache" .optional (option CachePolicy.decode) (fun a d => { d with cache := a }),
  slot "timeout" .optional (option nat64) (fun a d => { d with timeout := a })]

/-- A parameter that is a string. -/
def Draft.stringParam? (d : Draft) (key : String) : Option String :=
  (d.params.get? key).bind Json.string?

/-- The list of choices that was read. -/
def Draft.static (d : Draft) : Except DecodeError ChoiceSource :=
  match d.staticOptions, d.params.get? "options" with
  | some choices, _ => .ok (.static choices)
  | none, none => .ok (.static [])
  | none, some v =>
    match Decode.list Choice.decode v with
    | .ok choices => .ok (.static choices)
    | .error e => .error (.invalid ("invalid static options: " ++ e.message))

/-- A function source; without `params` of its own, its parameters are all but its name. -/
def Draft.function (d : Draft) : Except DecodeError ChoiceSource :=
  match d.functionName <|> d.stringParam? "name" <|> d.stringParam? "functionName" with
  | none => .error (.invalid "function source needs a function name")
  | some name =>
    let rest := (d.params.swapRemove "name").swapRemove "functionName"
    .ok (.function name ((d.params.get? "params").getD (.object rest)))

/-- The address that was read. -/
def Draft.api (d : Draft) : Except DecodeError ChoiceSource :=
  match d.apiUrl <|> d.stringParam? "url" with
  | none => .error (.invalid "api source needs a url")
  | some url =>
    let headers := (d.apiHeaders <|> (d.params.get? "headers").bind Json.fields?).getD []
    .ok (.api url ((d.apiMethod <|> d.stringParam? "method").getD "GET")
      (headers.map fun (name, v) => (name, v.display)) (d.params.get? "body")
      (d.timeout <|> (d.params.get? "timeout").bind Json.nat64?))

/-- The source of a kind, from what was read. -/
def Draft.toSource (d : Draft) (kind : String) : Except DecodeError ChoiceSource :=
  match kind with
  | "static" => d.static
  | "function" => d.function
  | "api" => d.api
  | other => .error (.invalid ("unknown option source: " ++ other))

def decode : Decoder SourceConfig :=
  Decode.record "RawDynamicOptions" Draft.slots {} fun d => do
    let kind ← Decode.need "source" d.source
    .ok ⟨← d.toSource kind, d.filter, d.transform, d.cache⟩

/-- The cache policy, if caching is on. -/
def activeCache? (c : SourceConfig) : Option CachePolicy := c.cache.filter CachePolicy.enabled

/-- The key of the cached list: the filled-in key of the policy, or the kind of source with what
names it. -/
def cacheKey (c : SourceConfig) (scope : Json) : String :=
  match c.cache.bind CachePolicy.key with
  | some key => Template.interpolatePaths key scope
  | none =>
    match c.source with
    | .static _ => "static"
    | .function name _ => "function:" ++ name
    | .api url .. => "api:" ++ Template.interpolatePaths url scope

end SourceConfig

/-- A field of an item that is there and not `null`. -/
def presentField? (item : Json) (key : String) : Option Json :=
  (item.get? key).filter fun v => !v.isNull

/-- The metadata that named fields of an item make up. -/
def pickFields (item : Json) (names : List String) : Json :=
  .object (Entries.setAll [] (names.filterMap fun name => (item.get? name).map fun v => (name, v)))

/-- The choice that a raw item stands for. -/
def Transform.choiceOf (transform : Option Transform) (item : Json) : Choice :=
  let value := (presentField? item ((transform.bind valueField).getD "value")).getD item
  let label := (presentField? item ((transform.bind labelField).getD "label")).getD value
  let picked := (transform.map metadataFields).getD []
  let conditions := (item.get? "conditions").bind fun v =>
    (Decode.list Condition.decode v).toOption
  { value
    label := some label.display
    nextStep := (item.get? "nextStep").bind Json.string?
    conditions := conditions.getD []
    metadata := if picked.isEmpty then item.get? "metadata" else some (pickFields item picked) }

/-- The scope of a filter: the caller's, with the choice and its parts. -/
def Choice.filterScope (scope : Json) (c : Choice) : Json :=
  .object (Entries.setAll ((scope.fields?).getD []) [
    ("option", c.toJson), ("value", c.value), ("label", .string c.displayLabel),
    ("metadata", c.metadata.getD (.object []))])

/-- The choices for which a filter holds; a filter that cannot be read keeps none. -/
def applyFilter (filter : Option String) (scope : Json) (choices : List Choice) : List Choice :=
  match filter with
  | none => choices
  | some source =>
    match Expr.parse source with
    | .error _ => []
    | .ok e => choices.filter fun c => e.holds (c.filterScope scope)

end Dialogue
