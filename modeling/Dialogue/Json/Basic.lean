import Dialogue.Number.Decimal

/-!
JSON values whose objects keep the order of their fields.

A number is either a whole number or a binary64 number, and stays what it was written as: `1` and
`1.0` are two values. `Entries` holds the operations on field lists: setting a field that is there
keeps its place, and `swapRemove` puts the last field into the place of the one removed.
-/
namespace Dialogue

/-- Named values in order, as in a JSON object. -/
abbrev Entries (α : Type) := List (String × α)

namespace Entries

variable {α : Type}

/-- The value of a key. -/
def get? : Entries α → String → Option α
  | [], _ => none
  | (k, v) :: rest, key => if k = key then some v else get? rest key

/-- Whether there is an entry for a key. -/
def has (fields : Entries α) (key : String) : Bool := (fields.get? key).isSome

/-- The keys, in order. -/
def keys (fields : Entries α) : List String := fields.map Prod.fst

/-- Sets a field: in its place if it is there, else at the end. -/
def set : Entries α → String → α → Entries α
  | [], key, value => [(key, value)]
  | (k, v) :: rest, key, value =>
    if k = key then (k, value) :: rest else (k, v) :: set rest key value

/-- Sets the fields of `more` one after another. -/
def setAll (fields more : Entries α) : Entries α :=
  more.foldl (fun acc (k, v) => acc.set k v) fields

/-- Removes a field; the last field takes its place. -/
def swapRemove : Entries α → String → Entries α
  | [], _ => []
  | (k, v) :: rest, key =>
    if k = key then
      match rest.getLast? with
      | none => []
      | some last => last :: rest.dropLast
    else (k, v) :: swapRemove rest key

/-- What is found after an entry was set. -/
theorem get?_set (fields : Entries α) (key other : String) (value : α) :
    (fields.set key value).get? other = if other = key then some value else fields.get? other := by
  induction fields with
  | nil => by_cases h : key = other <;> simp [set, get?, h, eq_comm]
  | cons field rest ih =>
    obtain ⟨k, v⟩ := field
    by_cases hk : k = key
    · subst hk
      by_cases h : k = other
      · simp [set, get?, h]
      · simp [set, get?, h, Ne.symm h]
    · by_cases h : k = other
      · subst h
        simp [set, get?, hk]
      · simp [set, get?, hk, h, ih]

/-- The entry that was set is found. -/
theorem get?_set_self (fields : Entries α) (key : String) (value : α) :
    (fields.set key value).get? key = some value := by simp [get?_set]

end Entries

/-- A JSON number: whole, or a binary64 number. -/
inductive Number where
  | whole (i : Int)
  | real (x : Binary64)
  deriving DecidableEq, Repr, Inhabited

namespace Number

/-- The number as a binary64 number. -/
def toBinary64 : Number → Binary64
  | .whole i => .ofInt i
  | .real x => x

/-- Equality of two numbers of one form; a whole number never equals a binary64 one. -/
def same : Number → Number → Bool
  | .whole i, .whole j => i = j
  | .real x, .real y => x.same y
  | _, _ => false

/-- The number as a signed 64-bit integer, if it is a whole one in that range. -/
def toInt64? : Number → Option Int
  | .whole i => if -signedLimit ≤ i ∧ i < signedLimit then some i else none
  | .real _ => none

/-- The number as an unsigned 64-bit integer, if it is a whole one in that range. -/
def toNat64? : Number → Option Nat
  | .whole i => if 0 ≤ i ∧ i < unsignedLimit then some i.toNat else none
  | .real _ => none

end Number

/-- A JSON value. -/
inductive Json where
  | null
  | bool (b : Bool)
  | number (n : Number)
  | string (s : String)
  | array (items : List Json)
  | object (fields : List (String × Json))
  deriving Repr, Inhabited

namespace Json

/-- The fields of a JSON object. -/
abbrev Fields := Entries Json

def ofInt (i : Int) : Json := .number (.whole i)

def ofNat (n : Nat) : Json := .number (.whole n)

def ofBinary64 (x : Binary64) : Json := .number (.real x)

def ofOption (f : α → Json) : Option α → Json
  | none => .null
  | some a => f a

/-- A field that is written only when it has a value. -/
def field? (key : String) (f : α → Json) : Option α → Fields
  | none => []
  | some a => [(key, f a)]

/-- Whether a value is `null`. -/
def isNull : Json → Bool
  | .null => true
  | _ => false

def string? : Json → Option String
  | .string s => some s
  | _ => none

def number? : Json → Option Number
  | .number n => some n
  | _ => none

def bool? : Json → Option Bool
  | .bool b => some b
  | _ => none

def items? : Json → Option (List Json)
  | .array items => some items
  | _ => none

def fields? : Json → Option Fields
  | .object fields => some fields
  | _ => none

def int64? (v : Json) : Option Int := v.number?.bind Number.toInt64?

def nat64? (v : Json) : Option Nat := v.number?.bind Number.toNat64?

/-- A field of an object; none of a value that is no object. -/
def get? (v : Json) (key : String) : Option Json := v.fields?.bind (Entries.get? · key)

/-- A field, or `null`. -/
def getD (v : Json) (key : String) : Json := (v.get? key).getD .null

mutual

/-- Equality of values; the order of an object's fields does not count. -/
def same : Json → Json → Bool
  | .null, .null => true
  | .bool a, .bool b => a = b
  | .number m, .number n => m.same n
  | .string s, .string t => s = t
  | .array xs, .array ys => sameItems xs ys
  | .object xs, .object ys => xs.length = ys.length && sameFields xs ys
  | _, _ => false

def sameItems : List Json → List Json → Bool
  | [], [] => true
  | x :: xs, y :: ys => same x y && sameItems xs ys
  | _, _ => false

/-- Each field of the first list has an equal one in the second. -/
def sameFields : List (String × Json) → List (String × Json) → Bool
  | [], _ => true
  | (key, x) :: xs, ys =>
    (match Entries.get? ys key with
      | some y => same x y
      | none => false) && sameFields xs ys

end

mutual

/-- The number of levels of arrays and objects. -/
def depth : Json → Nat
  | .array items => depthItems items + 1
  | .object fields => depthFields fields + 1
  | _ => 0

def depthItems : List Json → Nat
  | [] => 0
  | v :: rest => max (depth v) (depthItems rest)

def depthFields : List (String × Json) → Nat
  | [] => 0
  | (_, v) :: rest => max (depth v) (depthFields rest)

end

mutual

/-- Every object with each key once: at its first place, with its last value. -/
def collapse : Json → Json
  | .array items => .array (collapseItems items)
  | .object fields => .object (collapseFields [] fields)
  | v => v

def collapseItems : List Json → List Json
  | [] => []
  | v :: rest => collapse v :: collapseItems rest

def collapseFields : List (String × Json) → List (String × Json) → List (String × Json)
  | acc, [] => acc
  | acc, (key, v) :: rest => collapseFields (Entries.set acc key (collapse v)) rest

end

end Json

end Dialogue
