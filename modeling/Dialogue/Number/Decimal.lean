import Dialogue.Number.Binary64

/-!
Decimal texts of binary64 numbers.

* `ofDecimal` is the number nearest to `digits · 10 ^ exponent`, and `ofText?` reads a decimal text
  (also `inf`, `infinity` and `nan` in any case).
* `shortest` is the decimal with the fewest digits that reads back as the same number, and of those
  the nearest to it. For 1, 2, … 17 digits it tests the two neighbours of the number on that decimal
  grid; the first grid on which one of them lies within the interval of reals that round to the
  number wins.
* `positional` and `scientific` write a decimal.
-/
namespace Dialogue

/-- The decimal `digits · 10 ^ exponent`. -/
structure Decimal where
  digits : Nat
  exponent : Int
  deriving DecidableEq, Repr

namespace Decimal

/-- How many decimal digits a natural has; zero has one. -/
def countDigits (n : Nat) : Nat := (Nat.toDigits 10 n).length

/-- Moves trailing zeros of the digits into the exponent. -/
def stripZeros (d : Decimal) : Nat → Decimal
  | 0 => d
  | fuel + 1 =>
    if d.digits ≠ 0 ∧ d.digits % 10 = 0 then stripZeros ⟨d.digits / 10, d.exponent + 1⟩ fuel else d

/-- The power of ten of the first digit. -/
def leading (d : Decimal) : Int := d.exponent + countDigits d.digits - 1

def digitText (d : Decimal) : String := toString d.digits

/-- `n` zeros. -/
def zeros (n : Nat) : String := "".pushn '0' n

/-- Positional text; with `keepPoint`, a whole number ends in `.0`. -/
def positional (d : Decimal) (keepPoint : Bool) : String :=
  let text := d.digitText
  let count : Int := text.length
  if 0 ≤ d.exponent then
    text ++ zeros d.exponent.toNat ++ (if keepPoint then ".0" else "")
  else if 0 < count + d.exponent then
    let whole := (count + d.exponent).toNat
    (text.take whole).toString ++ "." ++ (text.drop whole).toString
  else
    "0." ++ zeros (-(count + d.exponent)).toNat ++ text

/-- One digit before the point, and the power of ten with its sign after `e`. -/
def scientific (d : Decimal) : String :=
  let text := d.digitText
  let head := (text.take 1).toString
  let tail := (text.drop 1).toString
  let power := d.leading
  let sign := if power < 0 then "-" else "+"
  head ++ (if tail.isEmpty then "" else "." ++ tail) ++ "e" ++ sign ++ toString power.natAbs

end Decimal

namespace Binary64

/-- The number nearest to `± digits · 10 ^ exponent`. Beyond `10 ^ 310` all is infinite and
below `10 ^ -330` all is zero, so no larger power is ever computed. -/
def ofDecimal (negative : Bool) (d : Decimal) : Binary64 :=
  if d.digits = 0 then zero negative
  else if 310 < d.leading then .infinite negative
  else if d.leading < -330 then zero negative
  else if 0 ≤ d.exponent then ofRatio negative (d.digits * tenTo d.exponent.toNat) 1
  else ofRatio negative d.digits (tenTo (-d.exponent).toNat)

/-- The lower end of the reals that round to `m · 2 ^ e`, the number itself, and the upper end, in
units of `2 ^ (e - 2)`; below a power of two the gap is half as wide. -/
def roundingInterval (m : Nat) (e : Int) : Nat × Nat × Nat :=
  let low := if m = leastNormal ∧ leastExponent < e then 4 * m - 1 else 4 * m - 2
  (low, 4 * m, 4 * m + 2)

/-- The power of ten of the first digit of `n / d`. -/
def floorLog10 (n d : Nat) : Int :=
  let k : Int := (Decimal.countDigits n : Int) - Decimal.countDigits d
  let reached := if 0 ≤ k then d * tenTo k.toNat ≤ n else d ≤ n * tenTo (-k).toNat
  if reached then k else k - 1

/-- The nearest decimal of `count` digits to `m · 2 ^ e` that rounds to it, if there is one. -/
def onGrid? (m : Nat) (e : Int) (count : Nat) : Option Decimal :=
  let (low, mid, high) := roundingInterval m e
  let unit := e - 2
  let up := twoTo unit.toNat
  let down := twoTo (-unit).toNat
  let place := floorLog10 (mid * up) down - (count - 1 : Int)
  let (scaleUp, scaleDown) :=
    if 0 ≤ place then (up, down * tenTo place.toNat) else (up * tenTo (-place).toNat, down)
  -- a grid point g stands for g · scaleDown, the interval for its ends · scaleUp
  let g := mid * scaleUp / scaleDown
  let within (g : Nat) : Bool :=
    let x := g * scaleDown
    if m % 2 = 0 then low * scaleUp ≤ x && x ≤ high * scaleUp
    else low * scaleUp < x && x < high * scaleUp
  let target := mid * scaleUp
  match within g, within (g + 1) with
  | false, false => none
  | true, false => some ⟨g, place⟩
  | false, true => some ⟨g + 1, place⟩
  | true, true =>
    let below := target - g * scaleDown
    let above := (g + 1) * scaleDown - target
    some ⟨if below < above then g else if above < below then g + 1 else g + g % 2, place⟩

/-- The first grid, from `count` digits on, that has a decimal for `m · 2 ^ e`. -/
def firstGrid (m : Nat) (e : Int) (count : Nat) : Nat → Decimal
  | 0 => ⟨m, 0⟩
  | fuel + 1 =>
    match onGrid? m e count with
    | some d => d.stripZeros 20
    | none => firstGrid m e (count + 1) fuel

/-- The shortest decimal that reads back as the magnitude `m · 2 ^ e`. -/
def shortest (m : Nat) (e : Int) : Decimal :=
  if m = 0 then ⟨0, 0⟩ else firstGrid m e 1 17

/-- Positional text without an exponent and without a needless point, as messages show it. -/
def display : Binary64 → String
  | .nan => "NaN"
  | .infinite negative => if negative then "-inf" else "inf"
  | .finite negative m e =>
    (if negative then "-" else "") ++ (shortest m e).positional false

/-- The natural that a run of digits denotes, after the digits already read. -/
def digitsValue (cs : List Char) : Nat :=
  cs.foldl (fun n c => n * 10 + (c.toNat - '0'.toNat)) 0

/-- Splits off the leading decimal digits. -/
def spanDigits (cs : List Char) : List Char × List Char :=
  (cs.takeWhile Char.isDigit, cs.dropWhile Char.isDigit)

/-- The power of ten after `e`, if the text is one to its end. Beyond a million every power acts
alike, so longer ones are cut there. -/
def exponentOf? : List Char → Option Int
  | [] => some 0
  | c :: rest =>
    if c = 'e' || c = 'E' then
      let (negative, digits) := match rest with
        | '-' :: r => (true, r)
        | '+' :: r => (false, r)
        | r => (false, r)
      if digits.isEmpty || !digits.all Char.isDigit then none
      else
        let n := min (digitsValue digits) 1000000
        some (if negative then -(n : Int) else n)
    else none

/-- Reads an unsigned decimal text: digits with an optional point, at least one digit, and an
optional exponent. -/
def magnitudeOf? (negative : Bool) (cs : List Char) : Option Binary64 :=
  let (whole, rest) := spanDigits cs
  let (fraction, rest) := match rest with
    | '.' :: r => spanDigits r
    | r => ([], r)
  if whole.isEmpty && fraction.isEmpty then none
  else (exponentOf? rest).map fun e =>
    ofDecimal negative ⟨digitsValue (whole ++ fraction), e - fraction.length⟩

/-- Reads a number from its whole text. -/
def ofText? (text : String) : Option Binary64 :=
  let (negative, cs) := match text.toList with
    | '-' :: r => (true, r)
    | '+' :: r => (false, r)
    | r => (false, r)
  let word := String.ofList (cs.map Char.toLower)
  if word = "inf" || word = "infinity" then some (.infinite negative)
  else if word = "nan" then some .nan
  else magnitudeOf? negative cs

end Binary64

/-- The natural below `2 ^ 64` that a whole text of digits denotes; a plus may stand before it. -/
def Decimal.natural64? (text : List Char) : Option Nat :=
  let digits := match text with
    | '+' :: rest => rest
    | rest => rest
  let n := Binary64.digitsValue digits
  if !digits.isEmpty && digits.all Char.isDigit && n < unsignedLimit then some n else none

end Dialogue
