import Dialogue.Expr.Eval
import Dialogue.Text.Blank

/-!
Amounts and numbers as people write them.

A number may have full-width digits, and blanks and signs of grouping or currency are left out
before it is read. `yen` writes an amount in groups of three digits.
-/
namespace Dialogue.Amount

/-- A full-width digit as an ASCII one. -/
def narrow (c : Char) : Char :=
  if 0xFF10 ≤ c.toNat ∧ c.toNat ≤ 0xFF19 then Char.ofNat (c.toNat - 0xFF10 + 0x30) else c

/-- The characters of a number without blanks and the ignored ones. -/
def cleaned (ignored : List Char) (s : String) : List Char :=
  ((Text.trimChars s.toList).map narrow).filter fun c => !Text.isBlank c && !ignored.contains c

/-- The finite number that a text denotes. -/
def ofText? (ignored : List Char) (s : String) : Option Binary64 :=
  (Binary64.ofText? (String.ofList (cleaned ignored s))).filter Binary64.isFinite

/-- The number that a number or a text denotes. -/
def ofJson? (ignored : List Char) : Json → Option Binary64
  | .number n => some n.toBinary64
  | .string s => ofText? ignored s
  | _ => none

/-- Whole numbers below this magnitude are kept as whole numbers. -/
def wholeLimit : Rat := 9000000000000000

def toJson (x : Binary64) : Json := Json.ofWholeOrReal wholeLimit x

/-- What is left out of an amount: signs of grouping and of the currency. -/
def currencySigns : List Char := [',', '，', '円', '¥', '￥']

/-- What is left out of a number. -/
def groupingSigns : List Char := [',']

/-- Digits in groups of three from the right, with commas between. -/
def grouped : List Char → List Char
  | [] => []
  | c :: rest =>
    if rest.length % 3 = 0 && !rest.isEmpty then c :: ',' :: grouped rest else c :: grouped rest

/-- An amount of yen as it is shown: `3,000円`. -/
def yen (n : Int) : String :=
  let digits := String.ofList (grouped (toString n.natAbs).toList)
  (if n < 0 then "-" else "") ++ digits ++ "円"

end Dialogue.Amount
