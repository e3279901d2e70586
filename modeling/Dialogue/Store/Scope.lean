import Dialogue.Store.Basic
import Dialogue.Json.Decode

/-!
The stores of a conversation: one of its own, and its owner's part of a shared one.
-/
namespace Dialogue

namespace StoreScope

/-- The names of the scopes; the durable one has two. -/
def named : List (String × StoreScope) :=
  [("session", .session), ("durable", .durable), ("local", .durable)]

def decode : Decoder StoreScope := Decode.oneOf named

end StoreScope

/-- The stores that a conversation reaches. -/
structure Stores where
  own : Store := {}
  shared : Store := {}
  owner : String

namespace Stores

/-- Carries out an operation in one of the scopes. -/
def apply (s : Stores) (scope : StoreScope) (op : StoreOp) :
    Except StoreError (Option Json) × Stores :=
  match scope with
  | .session =>
    let (result, own) := s.own.apply op
    (result, { s with own })
  | .durable =>
    let (result, shared) := s.shared.apply (op.within s.owner)
    (result, { s with shared })

end Stores

end Dialogue
