import Dialogue.Machine.State
import Dialogue.Action.Result

/-!
What drives a conversation, and what it asks for in return.

Clients send answers, completions, retries and skips. The settlement of an action, the choices that
were loaded and the display timer come from the conversation's own surroundings and name the visit
they belong to.
-/
namespace Dialogue

/-- An event. -/
inductive Event where
  /-- An answer, perhaps for a named step. -/
  | answer (value : Json) (step : Option String)
  /-- The end of the display time of a visit, or a client's wish to go on. -/
  | autoAdvance (epoch : Option Epoch)
  | toolComplete (value : Option Json)
  | retry
  | actionSettled (invocation : Epoch) (result : ActionResult)
  | optionsResolved (epoch : Epoch) (choices : List Choice)

def Event.name : Event → String
  | .answer .. => "ANSWER"
  | .autoAdvance _ => "AUTO_ADVANCE"
  | .toolComplete _ => "TOOL_COMPLETE"
  | .retry => "RETRY"
  | .actionSettled .. => "ACTION_SETTLED"
  | .optionsResolved .. => "OPTIONS_RESOLVED"

/-- An event as clients send it. -/
inductive ClientEvent where
  | answer (value : Json) (step : Option String)
  | autoAdvance
  | toolComplete (value : Option Json)
  | retry

namespace ClientEvent

/-- The event that a client has sent. -/
def toEvent : ClientEvent → Event
  | .answer value step => .answer value step
  | .autoAdvance => .autoAdvance none
  | .toolComplete value => .toolComplete value
  | .retry => .retry

def toJson : ClientEvent → Json
  | .answer value step =>
    .object ([("type", .string "ANSWER"), ("value", value)] ++ Json.field? "step" .string step)
  | .autoAdvance => .object [("type", .string "AUTO_ADVANCE")]
  | .toolComplete value =>
    .object (("type", .string "TOOL_COMPLETE") :: Json.field? "value" id value)
  | .retry => .object [("type", .string "RETRY")]

/-- What is read so far of an answer. -/
structure AnswerDraft where
  value : Json := .null
  step : Option String := none

open Decode in
def decodeAnswer : Decoder ClientEvent :=
  shaped (.variant "ClientEvent" "Answer") [
    slot "value" .defaulted any (fun a (d : AnswerDraft) => { d with value := a }),
    slot "step" .defaulted (option string) (fun a d => { d with step := a }) ["stepId"]]
    {} fun d => .ok (.answer d.value d.step)

open Decode in
def decodeComplete : Decoder ClientEvent :=
  shaped (.variant "ClientEvent" "ToolComplete")
    [slot "value" .defaulted (option any) (fun a (_ : Option Json) => a)] none
    fun d => .ok (.toolComplete d)

/-- The events by their tags. -/
def variants : List (String × Decoder ClientEvent) := [
  ("ANSWER", decodeAnswer), ("AUTO_ADVANCE", Decode.bare .autoAdvance),
  ("TOOL_COMPLETE", decodeComplete), ("RETRY", Decode.bare .retry)]

def decode : Decoder ClientEvent := Decode.tagged "ClientEvent" variants

end ClientEvent

/-- What a transition asks its surroundings to do. -/
inductive Effect where
  | stepEntered (step : String) (previous : Option String)
  | invokeAction (step : String) (invocation : Epoch) (action : Action)
  | cancelAction (invocation : Epoch)
  | scheduleAutoAdvance (step : String) (epoch : Epoch)
  | actionFailed (step error : String) (retryable : Bool)
  | completed (step : String)

end Dialogue
