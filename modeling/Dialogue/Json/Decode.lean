import Dialogue.Json.Printer
import Dialogue.Text.Quoted

/-!
Decoding JSON values into records.

A decoder gives a value or the first problem it meets. The fields of a record are read in the order
in which the document has them; a field under two of its spellings is a duplicate, fields without a
meaning are ignored, and a field that is missing is reported after all that are there. A record may
also be written as an array of its fields in the order of their declaration.
-/
namespace Dialogue

/-- Why a JSON value does not decode. -/
inductive DecodeError where
  | missingField (name : String)
  | duplicateField (name : String)
  | wrongType (got : Json) (want : String)
  | outOfRange (got : Json) (want : String)
  | wrongLength (length : Nat) (want : String)
  | unknownVariant (name : String) (known : List String)
  | noVariant (type : String)
  /-- A problem found in the meaning of the decoded value. -/
  | invalid (text : String)

namespace DecodeError

/-- How a message names a value that was found. -/
def describe : Json → String
  | .null => "null"
  | .bool b => "boolean `" ++ (if b then "true" else "false") ++ "`"
  | .number (.whole i) => "integer `" ++ toString i ++ "`"
  | .number (.real x) => "floating point `" ++ Number.realText x ++ "`"
  | .string s => "string " ++ Text.quoted s
  | .array _ => "sequence"
  | .object _ => "map"

def ticked (s : String) : String := "`" ++ s ++ "`"

/-- The expected names, as a message lists them. -/
def alternatives : List String → String
  | [] => "there are no variants"
  | [a] => "expected " ++ ticked a
  | [a, b] => "expected " ++ ticked a ++ " or " ++ ticked b
  | known => "expected one of " ++ ", ".intercalate (known.map ticked)

def message : DecodeError → String
  | .missingField name => "missing field " ++ ticked name
  | .duplicateField name => "duplicate field " ++ ticked name
  | .wrongType got want => "invalid type: " ++ describe got ++ ", expected " ++ want
  | .outOfRange got want => "invalid value: " ++ describe got ++ ", expected " ++ want
  | .wrongLength length want => "invalid length " ++ toString length ++ ", expected " ++ want
  | .unknownVariant name known => "unknown variant " ++ ticked name ++ ", " ++ alternatives known
  | .noVariant type => "data did not match any variant of untagged enum " ++ type
  | .invalid text => text

end DecodeError

/-- A decoder of JSON values. -/
abbrev Decoder (α : Type) := Json → Except DecodeError α

namespace Decode

def any : Decoder Json := .ok

def string : Decoder String
  | .string s => .ok s
  | v => .error (.wrongType v "a string")

def bool : Decoder Bool
  | .bool b => .ok b
  | v => .error (.wrongType v "a boolean")

def real : Decoder Binary64
  | .number n => .ok n.toBinary64
  | v => .error (.wrongType v "f64")

/-- A whole number from `least` to `greatest`, of the named type. -/
def whole (type : String) (least greatest : Int) : Decoder Int
  | .number (.whole i) =>
    if least ≤ i ∧ i ≤ greatest then .ok i else .error (.outOfRange (.number (.whole i)) type)
  | v => .error (.wrongType v type)

/-- A natural number of the given width, of the named type. -/
def natural (type : String) (bits : Nat) (v : Json) : Except DecodeError Nat :=
  (whole type 0 (twoTo bits - 1 : Int) v).map Int.toNat

def nat64 : Decoder Nat := natural "u64" 64

def nat32 : Decoder Nat := natural "u32" 32

def size : Decoder Nat := natural "usize" 64

def int64 : Decoder Int := whole "i64" (-signedLimit) (signedLimit - 1)

/-- `null` stands for no value. -/
def option (decode : Decoder α) : Decoder (Option α)
  | .null => .ok none
  | v => (decode v).map some

def list (decode : Decoder α) : Decoder (List α)
  | .array items => items.mapM decode
  | v => .error (.wrongType v "a sequence")

def fields : Decoder Json.Fields
  | .object fields => .ok fields
  | v => .error (.wrongType v "a map")

/-- An object all of whose values decode alike; the first that does not is reported. -/
def entries (decode : Decoder α) : Decoder (Entries α)
  | .object fields => fields.mapM fun (key, v) => do .ok (key, ← decode v)
  | v => .error (.wrongType v "a map")

/-- One of several names. An object with that name and `null` means the same. -/
def oneOf (named : List (String × α)) (v : Json) : Except DecodeError α :=
  let find (name : String) : Except DecodeError α :=
    match named.lookup name with
    | some a => .ok a
    | none => .error (.unknownVariant name (named.map Prod.fst))
  match v with
  | .string name => find name
  | .object [(name, content)] => do
    let a ← find name
    match content with
    | .null => .ok a
    | v => .error (.wrongType v "unit")
  | .object fields => .error (.outOfRange (.object fields) "map with a single key")
  | v => .error (.wrongType v "string or map")

/-- Whether a field has to be there: in any form, only in the array form, or never. -/
inductive Presence where
  | required
  | optional
  | defaulted
  deriving DecidableEq

/-- A field of a record that is being read into a draft. -/
structure Slot (σ : Type) where
  name : String
  aliases : List String
  presence : Presence
  read : Json → σ → Except DecodeError σ

/-- A field whose value decodes to an `α` and is put into the draft. -/
def slot (name : String) (presence : Presence) (decode : Decoder α) (put : α → σ → σ)
    (aliases : List String := []) : Slot σ :=
  ⟨name, aliases, presence, fun v draft => (decode v).map fun a => put a draft⟩

/-- Whether a key is a spelling of the field. -/
def Slot.isNamed (s : Slot σ) (key : String) : Bool := s.name = key || s.aliases.contains key

/-- Reads fields in order into a draft; `seen` holds the fields read before. -/
def readFields (slots : List (Slot σ)) (seen : List String) (draft : σ) :
    List (String × Json) → Except DecodeError σ
  | [] => .ok draft
  | (key, v) :: rest =>
    match slots.find? (·.isNamed key) with
    | none => readFields slots seen draft rest
    | some s =>
      if seen.contains s.name then .error (.duplicateField s.name)
      else do readFields slots (s.name :: seen) (← s.read v draft) rest

/-- How messages speak of a record in array form: its name, and the error for items left over, from
the number of items and the number of fields. -/
structure Shape where
  name : String
  tooLong : Nat → Nat → DecodeError

/-- A record on its own. -/
def Shape.record (type : String) : Shape :=
  ⟨"struct " ++ type, fun items _ => .wrongLength items "fewer elements in array"⟩

def counted (n : Nat) : String := toString n ++ (if n = 1 then " element" else " elements")

/-- A variant of a tagged type. -/
def Shape.variant (type variant : String) : Shape :=
  ⟨"struct variant " ++ type ++ "::" ++ variant,
    fun items fields => .wrongLength items (counted fields ++ " in sequence")⟩

/-- Reads the items of an array as the fields in order; `index` is the place of the first slot, and
`total` the number of fields. -/
def readItems (shape : Shape) (total index : Nat) (draft : σ) :
    List (Slot σ) → List Json → Except DecodeError σ
  | [], [] => .ok draft
  | [], more => .error (shape.tooLong (total + more.length) total)
  | s :: slots, [] =>
    if s.presence = .defaulted then readItems shape total (index + 1) draft slots []
    else .error (.wrongLength index (shape.name ++ " with " ++ counted total))
  | s :: slots, v :: rest => do readItems shape total (index + 1) (← s.read v draft) slots rest

/-- A field that has to be there. -/
def need (name : String) : Option α → Except DecodeError α
  | some a => .ok a
  | none => .error (.missingField name)

/-- Decodes a record in either form: its fields are read into a draft, and `finish` makes the record
of it. -/
def shaped (shape : Shape) (slots : List (Slot σ)) (start : σ)
    (finish : σ → Except DecodeError α) (v : Json) : Except DecodeError α :=
  match v with
  | .object fields => do finish (← readFields slots [] start fields)
  | .array items => do finish (← readItems shape slots.length 0 start slots items)
  | v => .error (.wrongType v shape.name)

/-- Decodes a record of the named type. -/
def record (type : String) (slots : List (Slot σ)) (start : σ)
    (finish : σ → Except DecodeError α) : Decoder α := shaped (.record type) slots start finish

/-- The variant that a tag names, among decoders of what goes with it. -/
def variantNamed (variants : List (String × Decoder α)) : Json → Except DecodeError (Decoder α)
  | .string name =>
    match variants.lookup name with
    | some decode => .ok decode
    | none => .error (.unknownVariant name (variants.map Prod.fst))
  | v => .error (.wrongType v "variant identifier")

/-- Finds the tag among the fields, and the other fields in order. -/
def splitTag (variants : List (String × Decoder α)) (found : Option (Decoder α))
    (others : List (String × Json)) :
    List (String × Json) → Except DecodeError (Option (Decoder α) × List (String × Json))
  | [] => .ok (found, others.reverse)
  | (key, v) :: rest =>
    if key = "type" then
      match found with
      | some _ => .error (.duplicateField "type")
      | none => do splitTag variants (some (← variantNamed variants v)) others rest
    else splitTag variants found ((key, v) :: others) rest

/-- Decodes a value of one of several variants, of which the field `type`, or the first item, names
the one. -/
def tagged (type : String) (variants : List (String × Decoder α)) (v : Json) :
    Except DecodeError α :=
  match v with
  | .object fields => do
    match ← splitTag variants none [] fields with
    | (some decode, others) => decode (.object others)
    | (none, _) => .error (.missingField "type")
  | .array [] => .error (.missingField "type")
  | .array (tag :: rest) => do (← variantNamed variants tag) (.array rest)
  | v => .error (.wrongType v ("internally tagged enum " ++ type))

/-- A variant without fields of its own. -/
def bare (a : α) : Decoder α
  | .array (v :: rest) =>
    .error (.wrongLength (rest.length + [v].length) (counted 0 ++ " in sequence"))
  | _ => .ok a

end Decode

end Dialogue
