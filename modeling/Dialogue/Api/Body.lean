import Dialogue.Json.Decode
import Dialogue.Json.Reader
import Dialogue.Machine.Event

/-!
Bodies of requests.

A body is decoded while it is read, so of two faults the one that stands first counts: text that is
not JSON, or a value of the wrong shape. A value that has to be no array or object is refused at its
first character. What follows the first value of a body is not looked at.
-/
namespace Dialogue

/-- Why a body is refused. -/
inductive BodyFault where
  | notJson
  | wrongShape (e : DecodeError)

/-- A place in the outermost object or array of a body. -/
inductive Place where
  | field (name : String)
  | item (index : Nat)
  deriving DecidableEq

/-- How the members of a body are read into a draft. -/
structure BodyReader (σ : Type) where
  /-- Refuses a member before its value is read. -/
  accept : σ → Place → Except BodyFault Unit
  /-- Whether the value of a member may open with a bracket or brace. -/
  mayOpen : Place → Char → Bool
  take : σ → Place → Json → Except BodyFault σ

namespace Body

open Json (skipBlanks)

/-- Whether a character opens an array or an object. -/
def isOpening (c : Char) : Bool := c = '[' || c = '\x7b'

/-- A value of the kind that a character opens. -/
def opened (c : Char) : Json := if c = '[' then .array [] else .object []

/-- What a reading step of JSON gave, or that the text is not JSON. -/
def orNotJson (r : Except Json.Fault (α × List Char)) : Except BodyFault (α × List Char) :=
  match r with
  | .ok x => .ok x
  | .error _ => .error .notJson

/-- A value at the front of the text, below the outermost level. -/
def readValue (cs : List Char) : Except BodyFault (Json × List Char) :=
  orNotJson (Json.readValue (Json.depthLimit - 1) (2 * cs.length + 2) cs)

variable {σ : Type}

/-- Reads the value of a member into the draft. -/
def readMember (r : BodyReader σ) (draft : σ) (place : Place) (cs : List Char) :
    Except BodyFault (σ × List Char) := do
  r.accept draft place
  match (skipBlanks cs).head?.filter fun c => isOpening c && !r.mayOpen place c with
  | some c => .error (.wrongShape (.wrongType (opened c) "a scalar"))
  | none =>
    let (v, rest) ← readValue cs
    .ok (← r.take draft place v.collapse, rest)

/-- The key of a field and the rest after its colon. -/
def readKey (cs : List Char) : Except BodyFault (String × List Char) :=
  match skipBlanks cs with
  | '"' :: rest =>
    match Json.readChars [] (rest.length + 1) rest with
    | .error _ => .error .notJson
    | .ok (key, rest) =>
      match skipBlanks rest with
      | ':' :: rest => .ok (key, rest)
      | _ => .error .notJson
  | _ => .error .notJson

/-- Reads one or more fields and the closing brace. -/
def readFields (r : BodyReader σ) : Nat → σ → List Char → Except BodyFault σ
  | 0, _, _ => .error .notJson
  | fuel + 1, draft, cs => do
    let (key, rest) ← readKey cs
    let (draft, rest) ← readMember r draft (.field key) rest
    match skipBlanks rest with
    | '\x7d' :: _ => .ok draft
    | ',' :: rest => readFields r fuel draft rest
    | _ => .error .notJson

/-- Reads one or more items from the given index on and the closing bracket. -/
def readItems (r : BodyReader σ) : Nat → Nat → σ → List Char → Except BodyFault σ
  | 0, _, _, _ => .error .notJson
  | fuel + 1, index, draft, cs => do
    let (draft, rest) ← readMember r draft (.item index) cs
    match skipBlanks rest with
    | ']' :: _ => .ok draft
    | ',' :: rest => readItems r fuel (index + 1) draft rest
    | _ => .error .notJson

/-- The form of a body. -/
inductive Form where
  | object
  | array

/-- Reads a body that has to be an object or an array. -/
def read (r : BodyReader σ) (want : String) (draft : σ) (text : String) :
    Except BodyFault (Form × σ) :=
  match skipBlanks text.toList with
  | '\x7b' :: rest =>
    match skipBlanks rest with
    | '\x7d' :: _ => .ok (.object, draft)
    | rest => (readFields r (rest.length + 1) draft rest).map fun draft => (.object, draft)
  | '[' :: rest =>
    match skipBlanks rest with
    | ']' :: _ => .ok (.array, draft)
    | rest => (readItems r (rest.length + 1) 0 draft rest).map fun draft => (.array, draft)
  | cs => do
    let (v, _) ← readValue cs
    .error (.wrongShape (.wrongType v want))

/-- A decoded part of a body. -/
def decoded (r : Except DecodeError α) : Except BodyFault α :=
  match r with
  | .ok a => .ok a
  | .error e => .error (.wrongShape e)

end Body

/-- The wish to start a session: on a flow of the catalog or on a document. -/
structure CreateRequest where
  flowId : Option String := none
  flow : Option Json := none
  metadata : Json.Fields := []

namespace CreateRequest

open Decode in
def slots : List (Slot CreateRequest) := [
  slot "flowId" .defaulted (option string) (fun a d => { d with flowId := a }),
  slot "flow" .defaulted (option any) (fun a d => { d with flow := a }),
  slot "metadata" .defaulted fields (fun a d => { d with metadata := a })]

/-- The field at a place, if the place has a meaning. -/
def slotAt? : Place → Option (Decode.Slot CreateRequest)
  | .field name => slots.find? (·.isNamed name)
  | .item index => slots[index]?

/-- Refuses a field that was there before, and an item too many. -/
def accept (seen : List String) (place : Place) : Except BodyFault Unit :=
  match slotAt? place, place with
  | some s, .field name =>
    if seen.contains s.name then .error (.wrongShape (.duplicateField name)) else .ok ()
  | none, .item _ => .error .notJson
  | _, _ => .ok ()

/-- Which values of a field may be arrays or objects. -/
def mayOpen (place : Place) (c : Char) : Bool :=
  match (slotAt? place).map Decode.Slot.name with
  | some "flowId" => false
  | some "metadata" => c = '\x7b'
  | _ => true

def reader : BodyReader (List String × CreateRequest) where
  accept state place := accept state.1 place
  mayOpen := mayOpen
  take state place v :=
    match slotAt? place with
    | none => .ok state
    | some s => Body.decoded ((s.read v state.2).map fun d => (s.name :: state.1, d))

def ofText (text : String) : Except BodyFault CreateRequest :=
  (Body.read reader "struct CreateSessionRequest" ([], {}) text).map fun (_, _, d) => d

end CreateRequest

namespace ClientEvent

/-- The members of an event read so far, the last first, and the decoder that the tag names. -/
structure Members where
  decode : Option (Decoder ClientEvent) := none
  fields : List (String × Json) := []
  items : List Json := []

/-- Whether the tag stands at a place. -/
def isTag (place : Place) : Bool := place = .field "type" || place = .item 0

def reader : BodyReader Members where
  accept m place :=
    if isTag place && m.decode.isSome then .error (.wrongShape (.duplicateField "type")) else .ok ()
  mayOpen place _ := !isTag place
  take m place v :=
    if isTag place then
      Body.decoded ((Decode.variantNamed variants v).map fun d => { m with decode := some d })
    else
      match place with
      | .field name => .ok { m with fields := (name, v) :: m.fields }
      | .item _ => .ok { m with items := v :: m.items }

def ofText (text : String) : Except BodyFault ClientEvent := do
  let (form, m) ← Body.read reader "internally tagged enum ClientEvent" {} text
  let decode ← Body.decoded (Decode.need "type" m.decode)
  Body.decoded (match form with
    | .object => decode (.object m.fields.reverse)
    | .array => decode (.array m.items.reverse))

end ClientEvent

end Dialogue
