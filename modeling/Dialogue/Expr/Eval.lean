import Dialogue.Expr.Parser

/-!
Evaluating expressions over a scope.

Numbers are compared and computed as binary64 numbers, and a whole result below 2^53 is a whole
number again. Nothing is converted, except that `+` with a string on either side joins texts.
`and` and `or` evaluate their right side only if it decides, and give a truth value.

`Expr.evaluateSource` reads and evaluates a source; its error is then one of reading or one of
evaluating.
-/
namespace Dialogue

namespace Json

/-- The name of a value's type. -/
def typeName : Json → String
  | .null => "null"
  | .bool _ => "boolean"
  | .number _ => "number"
  | .string _ => "string"
  | .array _ => "array"
  | .object _ => "object"

/-- False are `null`, `false`, zero and the empty string. -/
def isTruthy : Json → Bool
  | .null => false
  | .bool b => b
  | .number n => !n.toBinary64.isZero
  | .string s => !s.isEmpty
  | .array _ => true
  | .object _ => true

/-- `2 ^ 53`: below it every whole binary64 number is a whole number without neighbours between. -/
def wholeLimit : Rat := 9007199254740992

/-- The JSON number of a finite binary64 number: whole if it has no fraction and is below the
limit. -/
def ofWholeOrReal (limit : Rat) (x : Binary64) : Json :=
  if x.isWhole ∧ x.abs.value < limit then .ofInt x.truncate else .ofBinary64 x

/-- A value as it appears in a text: a string as it is, a whole number without a point, and all else
as JSON. -/
def display : Json → String
  | .string s => s
  | .number (.real x) =>
    if x.isFinite && x.isWhole then (ofWholeOrReal wholeLimit x).text else (Number.real x).text
  | v => v.text

/-- Equality without conversion: two numbers by magnitude, all else as values. -/
def strictEquals : Json → Json → Bool
  | .number m, .number n => m.toBinary64.same n.toBinary64
  | v, w => v.same w

/-- The order of two numbers, or of two strings by code points. -/
def compare? : Json → Json → Option Ordering
  | .number m, .number n => m.toBinary64.compare? n.toBinary64
  | .string s, .string t => some (if s < t then .lt else if s = t then .eq else .gt)
  | _, _ => none

end Json

/-- Why an expression has no value. -/
inductive EvalError where
  | undefinedVariable (name : String)
  | missingProperty (name : String)
  | outOfBounds (index : Number)
  | notNegatable (operand : String)
  | noProperties (name type : String)
  | notIndexable (target index : String)
  | notComparable (op : BinaryOp) (left right : String)
  | notArithmetic (op : BinaryOp) (left right : String)
  | divisionByZero
  | notFinite
  deriving Repr

namespace EvalError

def message : EvalError → String
  | .undefinedVariable name => "undefined variable: " ++ name
  | .missingProperty name => "property '" ++ name ++ "' is not defined"
  | .outOfBounds index => "index " ++ index.text ++ " is out of bounds"
  | .notNegatable operand => "type error: cannot negate " ++ operand
  | .noProperties name type => "type error: cannot read property '" ++ name ++ "' of " ++ type
  | .notIndexable target index => "type error: cannot index " ++ target ++ " with " ++ index
  | .notComparable op left right =>
    "type error: cannot compare " ++ left ++ " " ++ op.symbol ++ " " ++ right
  | .notArithmetic op left right =>
    "type error: cannot apply '" ++ op.symbol ++ "' to " ++ left ++ " and " ++ right
  | .divisionByZero => "division by zero"
  | .notFinite => "result is not a finite number"

end EvalError

namespace Expr

/-- A property of a value: a field of an object, or the length of an array or a string. -/
def property (target : Json) (name : String) : Except EvalError Json :=
  match target with
  | .object fields =>
    match Entries.get? fields name with
    | some v => .ok v
    | none => .error (.missingProperty name)
  | .array items =>
    if name = "length" then .ok (.ofNat items.length) else .error (.noProperties name "array")
  | .string s =>
    if name = "length" then .ok (.ofNat s.length) else .error (.noProperties name "string")
  | v => .error (.noProperties name v.typeName)

/-- An element of an array by its position, or a field of an object by its name. -/
def element (target index : Json) : Except EvalError Json :=
  match target, index with
  | .object _, .string key => property target key
  | .array items, .number n =>
    match n.toNat64?.bind (items[·]?) with
    | some v => .ok v
    | none => .error (.outOfBounds n)
  | _, _ => .error (.notIndexable target.typeName index.typeName)

/-- The value of an arithmetic result. -/
def numberResult (x : Binary64) : Except EvalError Json :=
  if x.isFinite then .ok (Json.ofWholeOrReal Json.wholeLimit x) else .error .notFinite

/-- The value with the sign changed. -/
def negate : Json → Except EvalError Json
  | .number n => numberResult n.toBinary64.neg
  | v => .error (.notNegatable v.typeName)

/-- Applies an arithmetic operation to two numbers. -/
def arithmetic (op : BinaryOp) (f : Binary64 → Binary64 → Except EvalError Binary64)
    (left right : Json) : Except EvalError Json :=
  match left, right with
  | .number m, .number n => do numberResult (← f m.toBinary64 n.toBinary64)
  | _, _ => .error (.notArithmetic op left.typeName right.typeName)

/-- Division and remainder, by anything but zero. -/
def unlessZero (f : Binary64 → Binary64 → Binary64) (x y : Binary64) : Except EvalError Binary64 :=
  if y.isZero then .error .divisionByZero else .ok (f x y)

/-- A comparison of two values that have an order. -/
def comparison (op : BinaryOp) (holds : Ordering → Bool) (left right : Json) :
    Except EvalError Json :=
  match left.compare? right with
  | some o => .ok (.bool (holds o))
  | none => .error (.notComparable op left.typeName right.typeName)

def isString : Json → Bool
  | .string _ => true
  | _ => false

/-- The value of a binary operation on two values. -/
def apply (op : BinaryOp) (left right : Json) : Except EvalError Json :=
  match op with
  | .or => .ok (.bool (left.isTruthy || right.isTruthy))
  | .and => .ok (.bool (left.isTruthy && right.isTruthy))
  | .eq => .ok (.bool (left.strictEquals right))
  | .ne => .ok (.bool !(left.strictEquals right))
  | .lt => comparison .lt (· == .lt) left right
  | .le => comparison .le (· != .gt) left right
  | .gt => comparison .gt (· == .gt) left right
  | .ge => comparison .ge (· != .lt) left right
  | .add =>
    if isString left || isString right then .ok (.string (left.display ++ right.display))
    else arithmetic .add (fun x y => .ok (x + y)) left right
  | .sub => arithmetic .sub (fun x y => .ok (x - y)) left right
  | .mul => arithmetic .mul (fun x y => .ok (x * y)) left right
  | .div => arithmetic .div (unlessZero Binary64.div) left right
  | .rem => arithmetic .rem (unlessZero Binary64.rem) left right

/-- The value of an expression in a scope. -/
def eval (scope : Json) : Expr → Except EvalError Json
  | .literal v => .ok v
  | .ident name =>
    match scope.get? name with
    | some v => .ok v
    | none => .error (.undefinedVariable name)
  | .member target name => do property (← eval scope target) name
  | .index target position => do
    let t ← eval scope target
    let i ← eval scope position
    element t i
  | .unary .not operand => do
    let v ← eval scope operand
    .ok (.bool !v.isTruthy)
  | .unary .neg operand => do negate (← eval scope operand)
  | .binary .and left right => do
    let l ← eval scope left
    if l.isTruthy then
      let r ← eval scope right
      .ok (.bool r.isTruthy)
    else .ok (.bool false)
  | .binary .or left right => do
    let l ← eval scope left
    if l.isTruthy then .ok (.bool true)
    else
      let r ← eval scope right
      .ok (.bool r.isTruthy)
  | .binary op left right => do
    let l ← eval scope left
    let r ← eval scope right
    apply op l r
  | .conditional test yes no => do
    let t ← eval scope test
    if t.isTruthy then eval scope yes else eval scope no

/-- Why a source has no value: it is no expression, or the expression has none. -/
inductive SourceError where
  | parse (e : ParseError)
  | eval (e : EvalError)

def SourceError.message : SourceError → String
  | .parse e => "parse error: " ++ e.description
  | .eval e => e.message

/-- The value of a source text. -/
def evaluateSource (source : String) (scope : Json) : Except SourceError Json :=
  match parse source with
  | .error e => .error (.parse e)
  | .ok e =>
    match eval scope e with
    | .error e => .error (.eval e)
    | .ok v => .ok v

/-- Whether a result is a true value; a failure counts as false. -/
def isTrue : Except ε Json → Bool
  | .ok v => v.isTruthy
  | .error _ => false

/-- Whether an expression holds in a scope. -/
def holds (e : Expr) (scope : Json) : Bool := isTrue (e.eval scope)

/-- Whether a source text holds in a scope. -/
def sourceHolds (source : String) (scope : Json) : Bool := isTrue (evaluateSource source scope)

end Expr

end Dialogue
