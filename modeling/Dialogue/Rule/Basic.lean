import Dialogue.Json.Decode
import Dialogue.Expr.Eval

/-!
Validation rules: what a rule asks of a value, and how a document writes it.

A document gives rules as a list of rules, a single rule, an object of flags
(`required`, `minLength`, `min`, …) or a text in short form (`required|min:1000`), nested at will.
In the short form all lower and upper bounds of one kind go into one rule, whose place is noted when
its first bound is read, and `pattern:` takes the rest of the text.
-/
namespace Dialogue

/-- What a rule asks. -/
inductive Rule.Kind where
  | required
  | pattern (pattern : String)
  | length (least most : Option Nat)
  | range (least most : Option Binary64)
  | expression (source : String)
  /-- The named validator decides; without one the rule always holds. -/
  | custom (name : Option String) (params : Json)
  /-- A kind without a meaning, which always holds. -/
  | unknown (kind : String)

/-- A rule, perhaps with a message of its own. -/
structure Rule where
  kind : Rule.Kind
  message : Option String := none

namespace Rule

/-- The code that a failure of the rule is reported under. -/
def Kind.code : Kind → String
  | .required => "required"
  | .pattern _ => "pattern"
  | .length .. => "length"
  | .range .. => "range"
  | .expression _ => "expression"
  | .custom .. => "custom"
  | .unknown kind => kind

/-! ## Rules written as objects -/

/-- The fields of a rule object. -/
structure Draft where
  kind : Option String := none
  message : Option String := none
  errorMessage : Option String := none
  pattern : Option String := none
  minLength : Option Nat := none
  maxLength : Option Nat := none
  min : Option Binary64 := none
  max : Option Binary64 := none
  expression : Option String := none
  name : Option String := none
  params : Json := .null

open Decode in
def Draft.slots : List (Slot Draft) := [
  slot "type" .required string (fun a d => { d with kind := some a }) ["kind"],
  slot "message" .optional (option string) (fun a d => { d with message := a }),
  slot "errorMessage" .optional (option string) (fun a d => { d with errorMessage := a }),
  slot "pattern" .optional (option string) (fun a d => { d with pattern := a }),
  slot "minLength" .optional (option size) (fun a d => { d with minLength := a }),
  slot "maxLength" .optional (option size) (fun a d => { d with maxLength := a }),
  slot "min" .optional (option real) (fun a d => { d with min := a }),
  slot "max" .optional (option real) (fun a d => { d with max := a }),
  slot "expression" .optional (option string) (fun a d => { d with expression := a }),
  slot "name" .optional (option string) (fun a d => { d with name := a }) ["validator"],
  slot "params" .defaulted any (fun a d => { d with params := a })]

/-- A bound on the length from a number: cut to a whole one, and none if it is negative. -/
def lengthOf? (x : Binary64) : Option Nat :=
  if (Binary64.ofNat 0).le x then some (min x.truncate.toNat (unsignedLimit - 1)) else none

/-- A rule that always holds. -/
def anything : Kind := .custom none .null

/-- The rule that the fields of an object give. -/
def Draft.kindNamed (d : Draft) (kind : String) : Kind :=
  match kind with
  | "required" => .required
  | "pattern" => (d.pattern.map .pattern).getD anything
  | "length" =>
    .length (d.minLength <|> d.min.bind lengthOf?) (d.maxLength <|> d.max.bind lengthOf?)
  | "range" => .range d.min d.max
  | "expression" => (d.expression.map .expression).getD anything
  | "custom" => .custom d.name d.params
  | other => .unknown other

def decode : Decoder Rule :=
  Decode.record "RawRule" Draft.slots {} fun d => do
    let kind ← Decode.need "type" d.kind
    .ok ⟨d.kindNamed kind, d.message <|> d.errorMessage⟩

/-! ## Rules written as flags -/

/-- A rule for two bounds, if there is either. -/
def bounded? (make : Option α → Option α → Kind) (least most : Option α) : List Kind :=
  if least.isNone && most.isNone then [] else [make least most]

/-- The rules that an object of flags gives, in a fixed order. -/
def ofFlags (fields : Json.Fields) : List Rule :=
  let string? (key : String) := (Entries.get? fields key).bind Json.string?
  let nat? (key : String) := (Entries.get? fields key).bind Json.nat64?
  let real? (key : String) := ((Entries.get? fields key).bind Json.number?).map Number.toBinary64
  let required := (Entries.get? fields "required").bind Json.bool? = some true
  let kinds :=
    (if required then [Kind.required] else []) ++
    (string? "pattern").toList.map .pattern ++
    bounded? .length (nat? "minLength") (nat? "maxLength") ++
    bounded? .range (real? "min") (real? "max") ++
    (string? "expression").toList.map .expression
  kinds.map fun kind => ⟨kind, string? "message"⟩

/-! ## Rules in short form -/

/-- The ready-made rules, by name. -/
def preset? (name : String) : Option Rule :=
  match name with
  | "email" =>
    some ⟨.pattern "^[^\\s@]+@[^\\s@]+\\.[^\\s@]+$", some "有効なメールアドレスを入力してください"⟩
  | "phone" => some ⟨.pattern "^[0-9-]+$", some "有効な電話番号を入力してください"⟩
  | "url" => some ⟨.pattern "^https?://[^\\s]+$", some "有効なURLを入力してください"⟩
  | "number" => some ⟨.pattern "^[0-9]+$", some "数値を入力してください"⟩
  | "numeric" => some ⟨.pattern "^[0-9]+$", some "数値を入力してください"⟩
  | "positiveNumber" =>
    some ⟨.expression "currentValue > 0", some "0より大きい数値を入力してください"⟩
  | "positive_number" =>
    some ⟨.expression "currentValue > 0", some "0より大きい数値を入力してください"⟩
  | _ => none

/-- Which end of an interval a bound is for. -/
inductive Side where
  | least
  | most
  deriving DecidableEq

/-- The kind with one bound of its range set; a kind without a range has none to set. -/
def Kind.withRange (side : Side) (x : Binary64) : Kind → Kind
  | .range least most =>
    match side with
    | .least => .range (some x) most
    | .most => .range least (some x)
  | kind => kind

/-- The kind with one bound of its length set; a kind without a length has none to set. -/
def Kind.withLength (side : Side) (n : Nat) : Kind → Kind
  | .length least most =>
    match side with
    | .least => .length (some n) most
    | .most => .length least (some n)
  | kind => kind

/-- What a token of the short form says. -/
inductive Part where
  | rule (rule : Rule)
  | range (side : Side) (bound : Binary64)
  | length (side : Side) (bound : Nat)

/-- What is made of a text in short form: the rules, and the places of the range rule and of the
length rule among them, once there is one. -/
structure Reading where
  rules : List Rule := []
  rangeAt : Option Nat := none
  lengthAt : Option Nat := none

/-- The rules with the one at a place changed. Without a place, `blank` is added and changed. The
place comes first. -/
def changeAt (place : Option Nat) (blank : Kind) (change : Kind → Kind) (rules : List Rule) :
    Nat × List Rule :=
  let (i, rules) : Nat × List Rule :=
    match place with
    | some i => (i, rules)
    | none => (rules.length, rules ++ [{ kind := blank }])
  (i, rules.modify i fun r => { r with kind := change r.kind })

namespace Reading

/-- Sets one bound of the range rule. -/
def setRange (r : Reading) (side : Side) (x : Binary64) : Reading :=
  let (i, rules) := changeAt r.rangeAt (.range none none) (.withRange side x) r.rules
  { r with rules := rules, rangeAt := some i }

/-- Sets one bound of the length rule. -/
def setLength (r : Reading) (side : Side) (n : Nat) : Reading :=
  let (i, rules) := changeAt r.lengthAt (.length none none) (.withLength side n) r.rules
  { r with rules := rules, lengthAt := some i }

/-- Adds what a token says. -/
def take (r : Reading) : Part → Reading
  | .rule rule => { r with rules := r.rules ++ [rule] }
  | .range side x => r.setRange side x
  | .length side n => r.setLength side n

end Reading

/-- The text before the first `sep` and the text after it, if there is one. -/
def splitOnce (sep : Char) (cs : List Char) : List Char × Option (List Char) :=
  match cs.dropWhile (· ≠ sep) with
  | [] => (cs, none)
  | _ :: rest => (cs.takeWhile (· ≠ sep), some rest)

/-- What a token says. A bound that is no number says nothing. -/
def part? (token : List Char) : Option Part :=
  let (name, arg) := splitOnce ':' token
  let name := String.ofList (Text.trimChars name)
  let arg := arg.map Text.trimChars
  let range (side : Side) (arg : List Char) : Option Part :=
    (Binary64.ofText? (String.ofList arg)).map (.range side)
  let length (side : Side) (arg : List Char) : Option Part :=
    (Decimal.natural64? arg).map (.length side)
  match name, arg with
  | "required", none => some (.rule ⟨.required, none⟩)
  | "min", some arg => range .least arg
  | "max", some arg => range .most arg
  | "minLength", some arg => length .least arg
  | "maxLength", some arg => length .most arg
  | name, none => some (.rule ((preset? name).getD ⟨.unknown name, none⟩))
  | name, some _ => some (.rule ⟨.unknown name, none⟩)

def patternMark : List Char := ['p', 'a', 't', 't', 'e', 'r', 'n', ':']

/-- What the tokens between bars say. -/
def readParts : Nat → List Char → List Part
  | 0, _ => []
  | fuel + 1, cs =>
    if cs.isEmpty then []
    else if patternMark.isPrefixOf cs then
      [.rule ⟨.pattern (String.ofList (cs.drop patternMark.length)), none⟩]
    else
      let (token, rest) := splitOnce '|' cs
      let rest := Text.trimFront (rest.getD [])
      let token := Text.trimChars token
      (if token.isEmpty then none else part? token).toList ++ readParts fuel rest

/-- The rules that a text in short form gives. -/
def ofShorthand (text : String) : List Rule :=
  let cs := Text.trimChars text.toList
  ((readParts (cs.length + 1) cs).foldl Reading.take {}).rules

/-! ## Rules in any form -/

mutual

/-- The rules that a value gives, in whichever form; the error is a text. -/
def ofJson : Json → Except String (List Rule)
  | .null => .ok []
  | .string s => .ok (ofShorthand s)
  | .array items => ofItems items
  | .object fields =>
    if Entries.has fields "type" || Entries.has fields "kind" then
      match decode (.object fields) with
      | .ok rule => .ok [rule]
      | .error e => .error ("invalid validation rule: " ++ e.message)
    else .ok (ofFlags fields)
  | v => .error ("unsupported validation rules: " ++ v.text)

def ofItems : List Json → Except String (List Rule)
  | [] => .ok []
  | v :: rest => do
    let rules ← ofJson v
    let more ← ofItems rest
    .ok (rules ++ more)

end

/-- Rules as a field of a record. -/
def decodeList (v : Json) : Except DecodeError (List Rule) :=
  match ofJson v with
  | .ok rules => .ok rules
  | .error text => .error (.invalid text)

end Rule

end Dialogue
