import Dialogue.Flow.Source
import Dialogue.Work.Basic

/-!
Loading choices from their source.

With caching on, a list that is in the cache is taken from there, and one that was fetched is put
there before it is filtered; so one entry serves loads with different filters. A failed load gives
no choices and leaves the cache as it is.
-/
namespace Dialogue

/-- A registered function: given its parameters and the scope, it gives raw items or an error. -/
abbrev OptionFunction := (params scope : Json) → Work (Except String (List Json))

/-- What a load gave. -/
structure LoadResult where
  choices : List Choice
  error : Option String := none
  fromCache : Bool := false

namespace LoadResult

/-- Whether the choices were loaded. -/
def success (r : LoadResult) : Bool := r.error.isNone

def toJson (r : LoadResult) : Json :=
  .object ([("success", .bool r.success), ("options", .array (r.choices.map Choice.toJson))] ++
    Json.field? "error" .string r.error ++ [("fromCache", .bool r.fromCache)])

end LoadResult

/-- Why a list cannot be fetched. -/
inductive FetchError where
  | unknownFunction (name : String)
  | function (message : String)
  | http (cause : HttpError)
  | status (code : Nat)
  | noArray (body : Json)

def FetchError.message : FetchError → String
  | .unknownFunction name => "Unknown option function: " ++ name
  | .function message => message
  | .http cause => cause.message
  | .status code => "HTTP error! status: " ++ toString code
  | .noArray body => "Expected an array of options, got " ++ body.typeName

namespace SourceConfig

/-- How long a reply is waited for if the configuration does not say. -/
def defaultTimeoutMs : Nat := 30000

/-- The raw items in a response. -/
def itemsOf : Except HttpError HttpResponse → Except FetchError (List Json)
  | .error e => .error (.http e)
  | .ok response =>
    if response.isSuccess then
      match response.body with
      | .array items => .ok items
      | body => .error (.noArray body)
    else .error (.status response.status)

/-- Fetches the choices of a source, unfiltered. -/
def fetch (functions : Entries OptionFunction) (c : SourceConfig) (scope : Json) :
    Work (Except FetchError (List Choice)) :=
  let choices (items : List Json) := items.map (Transform.choiceOf c.transform)
  match c.source with
  | .static choices => .done (.ok choices)
  | .function name params =>
    match functions.get? name with
    | none => .done (.error (.unknownFunction name))
    | some f => do
      match ← f params scope with
      | .ok items => .done (.ok (choices items))
      | .error message => .done (.error (.function message))
  | .api url method headers body timeoutMs => do
    let request : HttpRequest := {
      method
      url := Template.interpolatePaths url scope
      headers := headers.map fun (name, v) => (name, Template.interpolatePaths v scope)
      body := body.map (Template.interpolateDeep scope) }
    let response ← Work.send request (timeoutMs.getD defaultTimeoutMs)
    .done ((itemsOf response).map choices)

/-- Fetches a list and, under a key, puts it into the cache. -/
def fetchAndKeep (functions : Entries OptionFunction) (c : SourceConfig) (scope : Json)
    (key : Option String) : Work LoadResult := do
  match ← c.fetch functions scope with
  | .error e => .done { choices := [], error := some e.message }
  | .ok choices =>
    let result : LoadResult := { choices := applyFilter c.filter scope choices }
    match key with
    | none => .done result
    | some key => .ask (.keep key choices) fun _ => .done result

/-- Loads the choices of a source. -/
def load (functions : Entries OptionFunction) (c : SourceConfig) (scope : Json) : Work LoadResult :=
  match c.activeCache? with
  | none => c.fetchAndKeep functions scope none
  | some policy =>
    let key := c.cacheKey scope
    .ask (.lookUp key policy.ttlMs) fun
      | some choices => .done { choices := applyFilter c.filter scope choices, fromCache := true }
      | none => c.fetchAndKeep functions scope (some key)

end SourceConfig

end Dialogue
