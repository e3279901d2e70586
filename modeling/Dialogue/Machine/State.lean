import Dialogue.Machine.Basic

/-!
The state of a conversation.

`Context` is what the conversation has gathered, and `Context.scope` the view of it that
expressions, templates and actions have. The epoch grows with every entry of a step and every
invocation of an action, so that what belongs to an earlier visit can be told.
-/
namespace Dialogue

/-- A count of step entries and action invocations. -/
abbrev Epoch := UInt64

/-- What a conversation has gathered. -/
structure Context where
  responses : Json.Fields := []
  toolResults : Json.Fields := []
  errors : Json.Fields := []
  currentStep : String
  metadata : Json.Fields := []

namespace Context

/-- The view that expressions, templates and actions have. -/
def scopeFields (c : Context) : Json.Fields := [
  ("responses", .object c.responses), ("toolResults", .object c.toolResults),
  ("errors", .object c.errors), ("metadata", .object c.metadata),
  ("currentStep", .string c.currentStep)]

/-- The view as a value. -/
def scope (c : Context) : Json := .object c.scopeFields

/-- The view with a submitted value as `currentValue`. -/
def scopeWith (c : Context) (value : Json) : Json :=
  .object (c.scopeFields ++ [("currentValue", value)])

/-- Records the answer to a step. -/
def recordResponse (c : Context) (step : String) (value : Json) : Context :=
  { c with responses := c.responses.set step value }

/-- Records an output, which clears the step's error. -/
def recordToolResult (c : Context) (step : String) (output : Json) : Context :=
  { c with toolResults := c.toolResults.set step output, errors := c.errors.swapRemove step }

/-- Records the failure of a step. -/
def recordError (c : Context) (step message : String) : Context :=
  { c with errors := c.errors.set step (.string message) }

/-- Forgets the failure of a step. -/
def clearError (c : Context) (step : String) : Context :=
  { c with errors := c.errors.swapRemove step }

/-- The failure recorded for a step. -/
def errorFor (c : Context) (step : String) : Option String := (c.errors.get? step).bind Json.string?

def toJson (c : Context) : Json := .object [
  ("responses", .object c.responses), ("toolResults", .object c.toolResults),
  ("errors", .object c.errors), ("currentStep", .string c.currentStep),
  ("metadata", .object c.metadata)]

/-- What is read so far. -/
structure Draft where
  responses : Option Json.Fields := none
  toolResults : Option Json.Fields := none
  errors : Option Json.Fields := none
  currentStep : Option String := none
  metadata : Json.Fields := []

open Decode in
def decode : Decoder Context :=
  record "ConversationContext" [
    slot "responses" .required fields (fun a (d : Draft) => { d with responses := some a }),
    slot "toolResults" .required fields (fun a d => { d with toolResults := some a }),
    slot "errors" .required fields (fun a d => { d with errors := some a }),
    slot "currentStep" .required string (fun a d => { d with currentStep := some a }),
    slot "metadata" .defaulted fields (fun a d => { d with metadata := a })]
    {} fun d => do
      .ok ⟨← need "responses" d.responses, ← need "toolResults" d.toolResults,
        ← need "errors" d.errors, ← need "currentStep" d.currentStep, d.metadata⟩

end Context

/-- Where a step is in its course. -/
inductive Phase where
  /-- Waiting for an answer or a completion. -/
  | ready
  /-- The entry action is running. -/
  | actionPending (invocation : Epoch)
  /-- The entry action failed; the step stays until it is tried again or answered. -/
  | actionFailed (error : String) (retryable : Bool)
  /-- A terminal step was reached. -/
  | completed
  deriving DecidableEq, Repr

namespace Phase

/-- Whether the course is at its end. -/
def isTerminal : Phase → Bool
  | .completed => true
  | _ => false

def toJson : Phase → Json
  | .ready => .object [("type", .string "ready")]
  | .actionPending invocation =>
    .object [("type", .string "action_pending"), ("invocation", .ofNat invocation.toNat)]
  | .actionFailed error retryable =>
    .object [("type", .string "action_failed"), ("error", .string error),
      ("retryable", .bool retryable)]
  | .completed => .object [("type", .string "completed")]

/-- What is read so far of a failed phase. -/
structure FailedDraft where
  error : Option String := none
  retryable : Option Bool := none

open Decode in
def decodePending : Decoder Phase :=
  shaped (.variant "Phase" "ActionPending")
    [slot "invocation" .required nat64 (fun a (_ : Option Nat) => some a)] none
    fun d => do .ok (.actionPending (.ofNat (← need "invocation" d)))

open Decode in
def decodeFailed : Decoder Phase :=
  shaped (.variant "Phase" "ActionFailed") [
    slot "error" .required string (fun a (d : FailedDraft) => { d with error := some a }),
    slot "retryable" .required bool (fun a d => { d with retryable := some a })]
    {} fun d => do .ok (.actionFailed (← need "error" d.error) (← need "retryable" d.retryable))

def decode : Decoder Phase :=
  Decode.tagged "Phase" [("ready", Decode.bare .ready), ("action_pending", decodePending),
    ("action_failed", decodeFailed), ("completed", Decode.bare .completed)]

end Phase

/-- The state of a conversation. -/
structure State where
  context : Context
  phase : Phase := .ready
  epoch : Epoch := 0
  /-- The choices that were loaded during this visit of the step. -/
  resolvedOptions : Option (List Choice) := none

namespace State

/-- The step that the conversation is at. -/
def currentStep (s : State) : String := s.context.currentStep

/-- Whether the conversation is at its end. -/
def isCompleted (s : State) : Bool := s.phase.isTerminal

def toJson (s : State) : Json :=
  .object ([("context", s.context.toJson), ("phase", s.phase.toJson),
    ("epoch", .ofNat s.epoch.toNat)] ++
    Json.field? "resolvedOptions" (fun cs => .array (cs.map Choice.toJson)) s.resolvedOptions)

/-- What is read so far. -/
structure Draft where
  context : Option Context := none
  phase : Option Phase := none
  epoch : Option Nat := none
  resolvedOptions : Option (List Choice) := none

open Decode in
def decode : Decoder State :=
  record "SessionState" [
    slot "context" .required Context.decode (fun a (d : Draft) => { d with context := some a }),
    slot "phase" .required Phase.decode (fun a d => { d with phase := some a }),
    slot "epoch" .required nat64 (fun a d => { d with epoch := some a }),
    slot "resolvedOptions" .defaulted (option (list Choice.decode))
      (fun a d => { d with resolvedOptions := a })]
    {} fun d => do
      .ok ⟨← need "context" d.context, ← need "phase" d.phase, .ofNat (← need "epoch" d.epoch),
        d.resolvedOptions⟩

end State

end Dialogue
