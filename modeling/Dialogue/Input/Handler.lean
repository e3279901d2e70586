import Dialogue.Input.Amount
import Dialogue.Input.Widget

/-!
Input handlers: how the steps of a kind are drawn, and what a raw answer becomes.

An answer is normalized before it is checked. Amounts and numbers become JSON numbers, whole ones
without a point, and a blank answer to them becomes the empty text, so that a `required` rule can
report it. The bounds of a step are rules of their own.
-/
namespace Dialogue

/-- How steps of a kind are drawn and answered. -/
structure InputHandler where
  capabilities : Capabilities
  render : StepDef → List Choice → Widget
  /-- The value that a raw answer stands for, or what is wrong with it. -/
  normalize : StepDef → Json → Except String Json := fun _ raw => .ok raw
  /-- The rules that come with the step's hints. -/
  implicitRules : StepDef → List Rule := fun _ => []

namespace InputHandler

/-- What is said of an answer that is no amount. -/
def badAmount : String := "金額は半角数字で入力してください"

/-- What is said of an answer that is no number. -/
def badNumber : String := "数値を入力してください"

/-- `null` or a text of blanks. -/
def isBlank : Json → Bool
  | .null => true
  | .string s => Text.isBlankText s
  | _ => false

/-- The rule for a least and a greatest value, if there is either. -/
def rangeRule (least most : Option Binary64) : List Rule :=
  if least.isNone && most.isNone then [] else [{ kind := .range least most }]

/-- The bounds of a step. -/
def stepRange (d : StepDef) : List Rule := rangeRule d.min d.max

/-- The slider of a step: the written one, or one over the step's bounds. -/
def sliderOf (d : StepDef) : Slider :=
  d.slider?.getD { min := d.min.getD (.ofNat 0), max := d.max.getD (.ofNat 100) }

/-- The buttons of a confirmation without choices of its own. -/
def yesAndNo : List Choice := [.labelled (.bool true) "はい", .labelled (.bool false) "いいえ"]

/-- A choice of an amount: a whole amount without a label is shown as yen. -/
def preset (c : Choice) : DrawnChoice :=
  match c.label, c.value.int64? with
  | none, some n => { DrawnChoice.ofChoice c with label := Amount.yen n }
  | _, _ => .ofChoice c

/-- The text of an answer, without the blanks around it. -/
def normalizeText : Json → String
  | .string s => Text.trim s
  | .null => ""
  | v => v.display

/-- The amount that an answer stands for. -/
def normalizeAmount (raw : Json) : Except String Json :=
  if isBlank raw then .ok (.string "")
  else
    match (Amount.ofJson? Amount.currencySigns raw).filter Binary64.isWhole with
    | some x => .ok (Amount.toJson x)
    | none => .error badAmount

/-- The number that an answer stands for, without the characters that do not count. -/
def normalizeNumeric (ignored : List Char) (raw : Json) : Except String Json :=
  match Amount.ofJson? ignored raw with
  | some x => .ok (Amount.toJson x)
  | none => .error badNumber

/-- The number that an answer stands for, with or without commas. -/
def normalizeNumber (raw : Json) : Except String Json :=
  if isBlank raw then .ok (.string "") else normalizeNumeric Amount.groupingSigns raw

/-- What is drawn for a step of a built-in kind. -/
def draw (kind : StepKind) (d : StepDef) (choices : List Choice) : Widget :=
  match kind with
  | .buttonSelect => .buttons (choices.map .ofChoice)
  | .confirmation => .buttons ((if choices.isEmpty then yesAndNo else choices).map .ofChoice)
  | .projectSelect => .cards (choices.map .ofChoice)
  | .textInput => .text d.placeholder
  | .amountInput => .amount d.placeholder d.min d.max (choices.map preset)
  | .numberInput => .number d.placeholder d.min d.max
  | .sliderSelect => .slider (sliderOf d)
  | .toolCalls => .progress
  | .system => .progress
  | .message => .none
  | .custom _ => .none

/-- The value of a raw answer to a step of a built-in kind. -/
def normalized (kind : StepKind) (raw : Json) : Except String Json :=
  match kind with
  | .textInput => .ok (.string (normalizeText raw))
  | .amountInput => normalizeAmount raw
  | .numberInput => normalizeNumber raw
  | .sliderSelect => normalizeNumeric [] raw
  | _ => .ok raw

/-- The rules that a step of a built-in kind implies. -/
def implied (kind : StepKind) (d : StepDef) : List Rule :=
  match kind with
  | .amountInput => stepRange d
  | .numberInput => stepRange d
  | .sliderSelect => rangeRule (some (sliderOf d).min) (some (sliderOf d).max)
  | _ => []

/-- The handler of a built-in kind. -/
def builtin (kind : StepKind) : InputHandler where
  capabilities := kind.capabilities?.getD {}
  render := draw kind
  normalize _ raw := normalized kind raw
  implicitRules := implied kind

end InputHandler

end Dialogue
