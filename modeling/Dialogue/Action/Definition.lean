import Dialogue.Json.Decode
import Dialogue.Json.Reader
import Dialogue.Text.Blank

/-!
Actions of steps, as documents write them.

An action is an object or a text in short form: the text of such an object, a URL to call, or the
name of a registered handler.
-/
namespace Dialogue

/-- How often and with which waits an action is tried again, as far as a document says. -/
structure RetryConfig where
  maxAttempts : Option Nat := none
  delayMs : Option Nat := none
  multiplier : Option Binary64 := none

open Decode in
def RetryConfig.decode : Decoder RetryConfig :=
  record "RetryConfig" [
    slot "maxAttempts" .defaulted (option nat32)
      (fun a (d : RetryConfig) => { d with maxAttempts := a }),
    slot "delayMs" .defaulted (option nat64) (fun a d => { d with delayMs := a }) ["delay"],
    slot "backoffMultiplier" .defaulted (option real) (fun a d => { d with multiplier := a })]
    {} .ok

/-- An action. -/
structure Action where
  kind : String
  config : Json := .null
  retry : Option RetryConfig := none
  /-- The step to go to once the action succeeds, before the step's own. -/
  nextStep : Option String := none

namespace Action

/-- What is read so far. -/
structure Draft where
  kind : Option String := none
  config : Json := .null
  retry : Option RetryConfig := none
  nextStep : Option String := none

open Decode in
def Draft.slots : List (Slot Draft) := [
  slot "type" .required string (fun a d => { d with kind := some a }) ["kind"],
  slot "config" .defaulted any (fun a d => { d with config := a }),
  slot "retry" .defaulted (option RetryConfig.decode) (fun a d => { d with retry := a })
    ["retryConfig"],
  slot "nextStep" .defaulted (option string) (fun a d => { d with nextStep := a })]

def decode : Decoder Action :=
  Decode.record "ActionDefinition" Draft.slots {} fun d => do
    .ok ⟨← Decode.need "type" d.kind, d.config, d.retry, d.nextStep⟩

/-- The name of the handler: the kind, or what the configuration of a custom action names. -/
def handlerName (a : Action) : String :=
  if a.kind = "custom" then
    ((a.config.get? "name" <|> a.config.get? "handler").bind Json.string?).getD a.kind
  else a.kind

/-- An action with nothing but a configuration of one field. -/
def simple (kind key value : String) : Action :=
  { kind, config := .object [(key, .string value)] }

/-- The action that a JSON text describes. -/
def ofText (text : String) : Except String Action :=
  match Json.readRaw text with
  | .error _ => .error "invalid action JSON"
  | .ok v =>
    match decode v with
    | .error _ => .error "invalid action JSON"
    | .ok a => .ok { a with config := a.config.collapse }

/-- The action that a text in short form stands for. -/
def ofShorthand (text : String) : Except String Action :=
  let trimmed := Text.trim text
  if trimmed.startsWith "\x7b" then ofText trimmed
  else if Text.containsText trimmed "://" || trimmed.startsWith "/" then
    .ok (simple "api_call" "url" trimmed)
  else if trimmed.isEmpty then .error "empty action"
  else .ok (simple "custom" "name" trimmed)

/-- An action in either form, or none. -/
def decodeOptional : Decoder (Option Action)
  | .null => .ok none
  | .string text =>
    match ofShorthand text with
    | .ok a => .ok (some a)
    | .error message => .error (.invalid message)
  | v => (decode v).map some

end Action

end Dialogue
