import Dialogue.Action.Definition
import Dialogue.Template
import Dialogue.Text.Casing
import Dialogue.Work.Basic

/-!
The action `api_call`: a request to another system.

The URL, the values of the headers and the body are filled in from the scope. The headers hold each
name once, in any case, with its last spelling and value; `Content-Type` comes first and is
`application/json` unless the configuration says otherwise.
-/
namespace Dialogue

/-- The configuration of an `api_call`. -/
structure ApiCall where
  url : String
  method : String := "GET"
  headers : Entries String := []
  body : Option Json := none
  timeoutMs : Option Nat := none

namespace ApiCall

/-- What is read so far. -/
structure Draft where
  url : Option String := none
  method : String := "GET"
  headers : Entries String := []
  body : Option Json := none
  timeoutMs : Option Nat := none

open Decode in
def decode : Decoder ApiCall :=
  record "ApiCallInput" [
    slot "url" .required string (fun a (d : Draft) => { d with url := some a }),
    slot "method" .defaulted string (fun a d => { d with method := a }),
    slot "headers" .defaulted (entries string) (fun a d => { d with headers := a }),
    slot "body" .defaulted (option any) (fun a d => { d with body := a }),
    slot "timeout" .defaulted (option nat64) (fun a d => { d with timeoutMs := a })]
    {} fun d => do .ok ⟨← need "url" d.url, d.method, d.headers, d.body, d.timeoutMs⟩

/-- How long a reply is waited for if the configuration does not say. -/
def defaultTimeoutMs : Nat := 30000

/-- Sets a header in the place of the one of that name in any case, or at the end. -/
def setHeader : List (String × String) → String → String → List (String × String)
  | [], name, value => [(name, value)]
  | (n, v) :: rest, name, value =>
    if Text.sameIgnoringAsciiCase n name then (name, value) :: rest
    else (n, v) :: setHeader rest name value

/-- The headers of a request. -/
def headersFor (scope : Json) (configured : Entries String) : List (String × String) :=
  configured.foldl (fun headers (name, value) =>
    setHeader headers name (Template.interpolatePaths value scope))
    [("Content-Type", "application/json")]

/-- The request that a configuration stands for. -/
def request (scope : Json) (c : ApiCall) : HttpRequest where
  method := Text.upper c.method
  url := Template.interpolatePaths c.url scope
  headers := headersFor scope c.headers
  body := (c.body.filter fun v => !v.isNull).map (Template.interpolateDeep scope)

/-- The result of a call that came out so, or was given up. -/
def resultOf : Option (Except HttpError HttpResponse) → ActionResult
  | none => .cancelled
  | some (.ok response) =>
    if response.isSuccess then .done (some response.body)
    else .retryableFailure ("HTTP " ++ toString response.status)
  | some (.error e) => { ActionResult.failure e.message with retryable := e.isRetryable }

/-- Calls the other system, with what a scope fills in. -/
def run (config scope : Json) : Work ActionResult :=
  match decode config with
  | .error e => .done (.failure ("Invalid api_call config: " ++ e.message))
  | .ok c => do
    let timeoutMs := c.timeoutMs.getD defaultTimeoutMs
    .done (resultOf (← Work.sendUnlessCancelled (c.request scope) timeoutMs))

end ApiCall

end Dialogue
