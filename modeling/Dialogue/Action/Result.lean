import Dialogue.Json.Decode

/-!
Results of actions.
-/
namespace Dialogue

/-- What running an action gave. -/
structure ActionResult where
  success : Bool
  data : Option Json := none
  error : Option String := none
  /-- Whether a failure may be tried again. -/
  retryable : Bool := false

namespace ActionResult

/-- A success. -/
def done (data : Option Json) : ActionResult := { success := true, data }

/-- A failure for good. -/
def failure (message : String) : ActionResult := { success := false, error := some message }

/-- A failure that may be tried again. -/
def retryableFailure (message : String) : ActionResult :=
  { success := false, error := some message, retryable := true }

/-- The result of what was cancelled. -/
def cancelled : ActionResult := failure "Action cancelled"

/-- The output that a success records. -/
def output (r : ActionResult) : Json := r.data.getD .null

/-- What a failure says. -/
def errorMessage (r : ActionResult) : String := r.error.getD "Action failed"

/-- What is read so far. -/
structure Draft where
  success : Option Bool := none
  data : Option Json := none
  error : Option String := none
  retryable : Bool := false

open Decode in
def decode : Decoder ActionResult :=
  record "ActionResult" [
    slot "success" .required bool (fun a (d : Draft) => { d with success := some a }),
    slot "data" .defaulted (option any) (fun a d => { d with data := a }),
    slot "error" .defaulted (option string) (fun a d => { d with error := a }),
    slot "retryable" .defaulted bool (fun a d => { d with retryable := a })]
    {} fun d => do .ok ⟨← need "success" d.success, d.data, d.error, d.retryable⟩

def toJson (r : ActionResult) : Json :=
  .object ([("success", .bool r.success)] ++ Json.field? "data" id r.data ++
    Json.field? "error" .string r.error ++ [("retryable", .bool r.retryable)])

end ActionResult

end Dialogue
