import Dialogue.Action.Definition
import Dialogue.Template
import Dialogue.Work.Basic

/-!
The action `storage`: reading, writing and clearing the stores of the conversation.

Key and value are filled in from the scope. Reading gives the value, or `null` if there is none; the
other operations give nothing.
-/
namespace Dialogue

/-- What a `storage` action does. -/
inductive StorageVerb where
  | get
  | set
  | remove
  | clear
  deriving DecidableEq, Repr

/-- The verbs by name. -/
def StorageVerb.named : List (String × StorageVerb) :=
  [("get", .get), ("set", .set), ("remove", .remove), ("clear", .clear)]

/-- The configuration of a `storage` action. -/
structure StorageCall where
  verb : StorageVerb
  key : Option String := none
  value : Json := .null
  scope : StoreScope := .durable

namespace StorageCall

/-- What is read so far. -/
structure Draft where
  verb : Option StorageVerb := none
  key : Option String := none
  value : Json := .null
  scope : StoreScope := .durable

open Decode in
def decode : Decoder StorageCall :=
  record "StorageInput" [
    slot "action" .required (oneOf StorageVerb.named)
      (fun a (d : Draft) => { d with verb := some a }) ["operation"],
    slot "key" .defaulted (option string) (fun a d => { d with key := a }),
    slot "value" .defaulted any (fun a d => { d with value := a }),
    slot "storage" .defaulted StoreScope.decode (fun a d => { d with scope := a }) ["scope"]]
    {} fun d => do .ok ⟨← need "action" d.verb, d.key, d.value, d.scope⟩

/-- The filled-in key, if there is one. -/
def keyIn (scope : Json) (a : StorageCall) : Option String :=
  (a.key.filter fun key => !key.isEmpty).map (Template.interpolatePaths · scope)

/-- The operation that a configuration stands for; all but `clear` need a key. -/
def operation? (scope : Json) (a : StorageCall) : Option StoreOp :=
  match a.verb with
  | .clear => some .clear
  | .get => (a.keyIn scope).map .get
  | .set => (a.keyIn scope).map fun key => .set key (Template.interpolateDeep scope a.value)
  | .remove => (a.keyIn scope).map .remove

/-- The result of an operation that came out so. -/
def resultOf (verb : StorageVerb) : Except StoreError (Option Json) → ActionResult
  | .error e => .failure e.message
  | .ok found => .done (if verb = .get then some (found.getD .null) else none)

/-- Does to the store what a configuration says. -/
def run (config scope : Json) : Work ActionResult :=
  match decode config with
  | .error e => .done (.failure ("Invalid storage config: " ++ e.message))
  | .ok a =>
    match a.operation? scope with
    | none => .done (.failure "Storage action requires a key")
    | some op => .ask (.store a.scope op) fun found => .done (resultOf a.verb found)

end StorageCall

end Dialogue
