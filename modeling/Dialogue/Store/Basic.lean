import Dialogue.Json.Printer
import Dialogue.Json.Reader

/-!
Key-value stores.

A store keeps values as JSON texts under string keys. Clearing by prefix removes the keys that start
with it; a store in a database finds them with the text functions of SQL, which end a text at its
first NUL. `StoreOp.within` narrows an operation to the keys of one owner, so that owners share a
store without seeing each other: the mark of an owner leads with its length, and no owner's mark
starts another's.
-/
namespace Dialogue

/-- How a store finds the keys with a prefix. -/
inductive StoreBackend where
  | memory
  | sql
  deriving DecidableEq, Repr

/-- A store: its keys with the texts of their values. -/
structure Store where
  backend : StoreBackend := .memory
  entries : Entries String := []

/-- Why a value cannot be had. -/
inductive StoreError where
  | corrupt (cause : ReadError)
  deriving DecidableEq, Repr

namespace StoreError

/-- The cause of a text that cannot be read; a stored text is one line. -/
def causeText : ReadError → String
  | .tooDeep column => "recursion limit exceeded at line 1 column " ++ toString column
  | .malformed => "malformed text"
  | .endOfText => "unexpected end of text"

def message : StoreError → String
  | .corrupt cause => "Stored value is not valid JSON: " ++ causeText cause

end StoreError

/-- An operation on a store. -/
inductive StoreOp where
  | get (key : String)
  | set (key : String) (value : Json)
  | remove (key : String)
  | clear
  | clearPrefix (start : String)

namespace Store

/-- Whether a text starts with another. -/
def startsWith (key start : String) : Bool := start.toList.isPrefixOf key.toList

/-- The characters before the first NUL. -/
def untilNul (s : String) : List Char := s.toList.takeWhile (· ≠ '\x00')

/-- The comparison `substr(key, 1, length(start)) = start` of SQL. -/
def sqlStartsWith (key start : String) : Bool :=
  (untilNul key).take (untilNul start).length = start.toList

/-- Whether clearing by prefix removes a key. -/
def covers (backend : StoreBackend) (key start : String) : Bool :=
  match backend with
  | .memory => startsWith key start
  | .sql => sqlStartsWith key start

/-- How many entries there are. -/
def size (s : Store) : Nat := s.entries.length

/-- The value of a key, read from its text. -/
def get? (s : Store) (key : String) : Except StoreError (Option Json) :=
  match s.entries.get? key with
  | none => .ok none
  | some text =>
    match Json.read text with
    | .ok v => .ok (some v)
    | .error e => .error (.corrupt e)

/-- Keeps the entries whose keys pass a test. -/
def filterKeys (s : Store) (keep : String → Bool) : Store :=
  { s with entries := s.entries.filter fun (key, _) => keep key }

/-- Carries out an operation; only `get` has a value. -/
def apply (s : Store) : StoreOp → Except StoreError (Option Json) × Store
  | .get key => (s.get? key, s)
  | .set key value => (.ok none, { s with entries := s.entries.set key value.text })
  | .remove key => (.ok none, s.filterKeys (· ≠ key))
  | .clear => (.ok none, { s with entries := [] })
  | .clearPrefix start => (.ok none, s.filterKeys fun key => !covers s.backend key start)

end Store

/-- What the keys of an owner start with. -/
def ownerMark (owner : String) : String := toString owner.utf8ByteSize ++ ":" ++ owner ++ "/"

/-- The operation on a shared store that stands for one on an owner's keys. -/
def StoreOp.within (owner : String) : StoreOp → StoreOp
  | .get key => .get (ownerMark owner ++ key)
  | .set key value => .set (ownerMark owner ++ key) value
  | .remove key => .remove (ownerMark owner ++ key)
  | .clear => .clearPrefix (ownerMark owner)
  | .clearPrefix start => .clearPrefix (ownerMark owner ++ start)

/-- Which of the stores that a conversation reaches. -/
inductive StoreScope where
  /-- Lives as long as the conversation. -/
  | session
  /-- The owner's part of the store that outlives conversations. -/
  | durable
  deriving DecidableEq, Repr

end Dialogue
