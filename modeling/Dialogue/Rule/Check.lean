import Dialogue.Rule.Basic
import Dialogue.Pattern.Reader

/-!
Checking values against rules.

Every rule is checked, and each failure is reported with the rule's code and its own message or a
default one. A pattern that cannot be read fails every value.
-/
namespace Dialogue

/-- A problem with a value, perhaps tagged with the field it belongs to. -/
structure Problem where
  field : Option String := none
  message : String
  code : String
  deriving DecidableEq, Repr

namespace Problem

def toJson (p : Problem) : Json :=
  .object (Json.field? "field" .string p.field ++
    [("message", .string p.message), ("code", .string p.code)])

/-- A problem with the field that it is about. -/
def tag (p : Problem) (field : String) : Problem := { p with field := some field }

end Problem

/-- A validator of values, given its parameters and the scope; it says what is wrong. -/
abbrev Validator := (value params scope : Json) → Except String Unit

namespace Rule

/-- Whether a required value is missing. -/
def isMissing : Json → Bool
  | .null => true
  | .string s => s.isEmpty
  | _ => false

/-- The text that patterns and lengths are about. -/
def subject : Json → String
  | .null => ""
  | v => v.display

/-- The number that a range is about. -/
def numeric? : Json → Option Binary64
  | .number n => some n.toBinary64
  | .string s => (Binary64.ofText? (Text.trim s)).filter Binary64.isFinite
  | _ => none

/-- A bound as a message shows it. -/
def boundText (x : Binary64) : String :=
  if x.isFinite then (Json.ofBinary64 x).display else "null"

/-- The scope of a rule's expression: the caller's, with the conversation's maps always there, and
the value itself as `currentValue`. -/
def expressionScope (value : Json) (scope : Option Json) : Json :=
  let fields := (scope.bind Json.fields?).getD []
  let withDefault (fields : Json.Fields) (key : String) : Json.Fields :=
    if Entries.has fields key then fields else fields ++ [(key, .object [])]
  let fields := ["responses", "toolResults", "metadata"].foldl withDefault fields
  .object (Entries.set fields "currentValue" value)

/-- The default messages of the failures of a rule on a value. -/
def failures (validators : Entries Validator) (scope : Option Json) (value : Json) :
    Kind → List String
  | .required => if isMissing value then ["この項目は必須です"] else []
  | .pattern p =>
    let found := match Pattern.read? p with
      | some p => p.occursIn (subject value)
      | none => false
    if found then [] else ["入力形式が正しくありません"]
  | .length least most =>
    let n := (subject value).length
    (least.filter (n < ·)).toList.map (fun b => toString b ++ "文字以上で入力してください") ++
      (most.filter (· < n)).toList.map fun b => toString b ++ "文字以内で入力してください"
  | .range least most =>
    match numeric? value with
    | none => ["数値を入力してください"]
    | some x =>
      (least.filter x.lt).toList.map (fun b => boundText b ++ "以上の値を入力してください") ++
        (most.filter (·.lt x)).toList.map fun b => boundText b ++ "以下の値を入力してください"
  | .expression source =>
    match Expr.evaluateSource source (expressionScope value scope) with
    | .error e => ["バリデーションエラー: " ++ e.message]
    | .ok v => if v.isTruthy then [] else ["入力値が条件を満たしていません"]
  | .custom name params =>
    match name.bind validators.get? with
    | none => []
    | some validator =>
      match validator value params (scope.getD (.object [])) with
      | .ok () => []
      | .error text => [text]
  | .unknown _ => []

/-- The problems of a value with one rule. -/
def check (validators : Entries Validator) (scope : Option Json) (value : Json) (r : Rule) :
    List Problem :=
  (failures validators scope value r.kind).map fun text =>
    { message := r.message.getD text, code := r.kind.code }

/-- The problems of a value with a list of rules. -/
def checkAll (validators : Entries Validator) (scope : Option Json) (value : Json)
    (rules : List Rule) : List Problem :=
  rules.flatMap (check validators scope value)

/-- The problems of named values with the rules of their fields; a value that is not there counts as
`null`. -/
def checkFields (scope : Option Json) (values : Json.Fields) (rules : Entries (List Rule)) :
    List Problem :=
  rules.flatMap fun (field, rules) =>
    (checkAll [] scope ((values.get? field).getD .null) rules).map (·.tag field)

end Rule

end Dialogue
