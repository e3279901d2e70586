import Dialogue.Number.Power

/-!
Binary64 numbers in exact arithmetic.

A finite number is `± mantissa · 2 ^ exponent`, and every operation is the exact rational operation
followed by one rounding to the nearest binary64 number, a tie going to the even mantissa. Nothing
here rests on the machine's own floating point, so each result can be computed and reasoned about as
a fact on natural numbers.

* `ofRatio` rounds a quotient of two naturals; its results are in lowest position: either the
  mantissa has 53 bits or the exponent is the least one, `-1074`.
* `value` is the rational a finite number denotes.
-/
namespace Dialogue

/-- A binary64 number: no number, a signed infinity, or `± mantissa · 2 ^ exponent`. -/
inductive Binary64 where
  | nan
  | infinite (negative : Bool)
  | finite (negative : Bool) (mantissa : Nat) (exponent : Int)
  deriving DecidableEq, Repr, Inhabited

namespace Binary64

/-- The least exponent: the place of the last bit of a subnormal number. -/
def leastExponent : Int := -1074

/-- The greatest exponent that a 53-bit mantissa may have. -/
def greatestExponent : Int := 971

/-- `2 ^ 52`, the least mantissa of 53 bits. -/
def leastNormal : Nat := 4503599627370496

/-- Zero, with its sign. -/
def zero (negative : Bool) : Binary64 := .finite negative 0 leastExponent

/-- The quotient `n / d` rounded to the nearest natural, a tie to the even one. -/
def roundDiv (n d : Nat) : Nat :=
  let q := n / d
  let r := 2 * (n % d)
  if r < d then q else if d < r then q + 1 else q + q % 2

/-- The exponent `k` with `2 ^ k ≤ n / d < 2 ^ (k + 1)`, for positive `n` and `d`. -/
def floorLog2 (n d : Nat) : Int :=
  let k : Int := (n.log2 : Int) - d.log2
  let reached := if 0 ≤ k then d * twoTo k.toNat ≤ n else d ≤ n * twoTo (-k).toNat
  if reached then k else k - 1

/-- The quotient `n / d` in units of `2 ^ e`, rounded. -/
def inUnits (n d : Nat) (e : Int) : Nat :=
  if 0 ≤ e then roundDiv n (d * twoTo e.toNat) else roundDiv (n * twoTo (-e).toNat) d

/-- The nearest binary64 number to `± n / d`, for a positive `d`. -/
def ofRatio (negative : Bool) (n d : Nat) : Binary64 :=
  if n = 0 then zero negative
  else
    let e := max leastExponent (floorLog2 n d - 52)
    let m := inUnits n d e
    let (m, e) := if m = 2 * leastNormal then (leastNormal, e + 1) else (m, e)
    if greatestExponent < e then .infinite negative else .finite negative m e

/-- The nearest binary64 number to a rational; `negative` is the sign that a zero takes. -/
def ofRat (negative : Bool) (q : Rat) : Binary64 :=
  if q.num = 0 then zero negative else ofRatio (q.num < 0) q.num.natAbs q.den

/-- The number nearest to a whole one. -/
def ofInt (i : Int) : Binary64 := ofRatio (i < 0) i.natAbs 1

/-- The number nearest to a whole one. -/
def ofNat (n : Nat) : Binary64 := ofRatio false n 1

/-- The rational that a finite number denotes (zero for the others). -/
def value : Binary64 → Rat
  | .finite negative m e =>
    let s : Int := if negative then -m else m
    if 0 ≤ e then ((s * twoTo e.toNat : Int) : Rat) else mkRat s (twoTo (-e).toNat)
  | _ => 0

/-- Whether it is a number proper. -/
def isFinite : Binary64 → Bool
  | .finite .. => true
  | _ => false

def isNegative : Binary64 → Bool
  | .nan => false
  | .infinite negative => negative
  | .finite negative _ _ => negative

def isZero : Binary64 → Bool
  | .finite _ 0 _ => true
  | _ => false

/-- The number with the other sign. -/
def neg : Binary64 → Binary64
  | .nan => .nan
  | .infinite negative => .infinite !negative
  | .finite negative m e => .finite (!negative) m e

/-- The number without its sign. -/
def abs : Binary64 → Binary64
  | .nan => .nan
  | .infinite _ => .infinite false
  | .finite _ m e => .finite false m e

/-- The sum, rounded. -/
def add : Binary64 → Binary64 → Binary64
  | .nan, _ => .nan
  | _, .nan => .nan
  | .infinite s, .infinite t => if s = t then .infinite s else .nan
  | .infinite s, _ => .infinite s
  | _, .infinite t => .infinite t
  | x, y => ofRat (x.isNegative && y.isNegative) (x.value + y.value)

/-- The difference, rounded. -/
def sub (x y : Binary64) : Binary64 := x.add y.neg

/-- The product, rounded. -/
def mul (x y : Binary64) : Binary64 :=
  let s := x.isNegative != y.isNegative
  match x, y with
  | .nan, _ => .nan
  | _, .nan => .nan
  | .infinite _, y => if y.isZero then .nan else .infinite s
  | x, .infinite _ => if x.isZero then .nan else .infinite s
  | x, y => ofRat s (x.value * y.value)

/-- The quotient, rounded. -/
def div (x y : Binary64) : Binary64 :=
  let s := x.isNegative != y.isNegative
  match x, y with
  | .nan, _ => .nan
  | _, .nan => .nan
  | .infinite _, .infinite _ => .nan
  | .infinite _, _ => .infinite s
  | _, .infinite _ => zero s
  | x, y =>
    if y.isZero then (if x.isZero then .nan else .infinite s)
    else ofRat s (x.value / y.value)

/-- The integer part of a rational, towards zero. -/
def truncRat (q : Rat) : Int := q.num.tdiv q.den

/-- The remainder of the division whose quotient is cut towards zero; it has the dividend's sign. -/
def rem : Binary64 → Binary64 → Binary64
  | .nan, _ => .nan
  | _, .nan => .nan
  | .infinite _, _ => .nan
  | x, .infinite _ => x
  | x, y =>
    if y.isZero then .nan
    else ofRat x.isNegative (x.value - truncRat (x.value / y.value) * y.value)

/-- The integer part, towards zero, of a finite number. -/
def truncate (x : Binary64) : Int := truncRat x.value

/-- A finite number without a fraction. -/
def isWhole : Binary64 → Bool
  | .finite _ m e => 0 ≤ e || m % twoTo (-e).toNat = 0
  | _ => false

/-- The order of two numbers, if both are numbers; the zeros are equal. -/
def compare? : Binary64 → Binary64 → Option Ordering
  | .nan, _ => none
  | _, .nan => none
  | .infinite s, .infinite t => some (if s = t then .eq else if s then .lt else .gt)
  | .infinite s, _ => some (if s then .lt else .gt)
  | _, .infinite t => some (if t then .gt else .lt)
  | x, y => some (if x.value < y.value then .lt else if y.value < x.value then .gt else .eq)

/-- Whether one number is below another; what is no number is below none. -/
def lt (x y : Binary64) : Bool := x.compare? y = some .lt

/-- Whether one number is at most another; what is no number is at most none. -/
def le (x y : Binary64) : Bool :=
  match x.compare? y with
  | some .lt => true
  | some .eq => true
  | _ => false

/-- Equality as numbers: the two zeros are equal, and no number is equal to `nan`. -/
def same (x y : Binary64) : Bool := x.compare? y = some .eq

/-- `x ^ n` by squaring from the low bit, rounding after every product. -/
def powLoop (acc x : Binary64) (n : Nat) : Binary64 :=
  if h : n = 0 then acc
  else
    let acc := if n % 2 = 1 then acc.mul x else acc
    powLoop acc (x.mul x) (n / 2)
termination_by n
decreasing_by omega

/-- A power, by squaring. -/
def pow (x : Binary64) (n : Nat) : Binary64 := powLoop (ofNat 1) x n

instance : Add Binary64 := ⟨add⟩
instance : Sub Binary64 := ⟨sub⟩
instance : Mul Binary64 := ⟨mul⟩
instance : Div Binary64 := ⟨div⟩
instance : Neg Binary64 := ⟨neg⟩

end Binary64

end Dialogue
