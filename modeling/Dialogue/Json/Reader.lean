import Dialogue.Json.Basic
import Dialogue.Text.Bytes
import Dialogue.Text.Hex

/-!
Reading JSON text.

`Json.readRaw` keeps every field of an object, also those that repeat a key; `Json.read` leaves each
key once. Arrays and objects nest at most 127 deep. A text that ends too early and a text that is
malformed are told apart.

A whole number in the 64-bit ranges stays whole, except `-0`. Any other number is the binary64
number of its first digits (as many as fit 64 bits) scaled by one power of ten, each step rounded;
for long or far-scaled digits that may be a neighbour of the nearest one.
-/
namespace Dialogue

/-- Why a text is not JSON: it ends too early, it is malformed, or it nests too deeply at the given
one-based byte column. -/
inductive ReadError where
  | endOfText
  | malformed
  | tooDeep (column : Nat)
  deriving DecidableEq, Repr

namespace Number

/-- The greatest power of ten that scales in one step. -/
def greatestStep : Int := 308

/-- `10 ^ k` as a binary64 number. -/
def powerOfTen (k : Int) : Binary64 := .ofDecimal false ⟨1, k⟩

/-- Scales by `10 ^ e` in one step; smaller numbers first go down by steps of `10 ^ 308`. Too large
a number is refused. -/
def scale? (x : Binary64) (e : Int) : Nat → Option Binary64
  | 0 => some x
  | fuel + 1 =>
    if e.natAbs ≤ 308 then
      if 0 ≤ e then
        let y := x.mul (powerOfTen e)
        if y.isFinite then some y else none
      else some (x.div (powerOfTen (-e)))
    else if x.isZero then some x
    else if 0 ≤ e then none
    else scale? (x.div (powerOfTen greatestStep)) (e + greatestStep) fuel

/-- The number `± significand · 10 ^ e`. -/
def ofParts? (negative : Bool) (significand : Nat) (e : Int) : Option Binary64 :=
  (scale? (.ofNat significand) e 12).map fun x => if negative then x.neg else x

/-- Digits taken into a 64-bit significand while they fit: the significand, how many were taken,
and the digits left over. -/
def takeDigits (significand : Nat) : List Char → Nat × Nat × List Char
  | [] => (significand, 0, [])
  | c :: rest =>
    let next := significand * 10 + (c.toNat - '0'.toNat)
    if next < unsignedLimit then
      let (s, n, left) := takeDigits next rest
      (s, n + 1, left)
    else (significand, 0, c :: rest)

/-- The written parts of a number: sign, whole digits, digits after the point if there is one, and
the signed exponent digits if there are any. -/
structure Written where
  negative : Bool
  whole : List Char
  fraction : Option (List Char)
  exponent : Option (Bool × List Char)

/-- The number that the parts denote; none if it is too large. An exponent from `2 ^ 31` on makes it
zero or too large whatever its digits. -/
def Written.number? (w : Written) : Option Number :=
  let (s, _, left) := takeDigits 0 w.whole
  match w.fraction, w.exponent with
  | none, none =>
    if left.isEmpty then
      if !w.negative then some (.whole s)
      else if s ≠ 0 ∧ s ≤ signedLimit then some (.whole (-(s : Int)))
      else some (.real (Binary64.ofNat s).neg)
    else (ofParts? w.negative s left.length).map .real
  | fraction, exponent =>
    let (s, taken, _) := takeDigits s (fraction.getD [])
    let start : Int := (left.length : Int) - taken
    match exponent with
    | none => (ofParts? w.negative s start).map .real
    | some (down, digits) =>
      let n := Binary64.digitsValue digits
      if 2147483648 ≤ n then
        if s ≠ 0 ∧ !down then none else some (.real (Binary64.zero w.negative))
      else (ofParts? w.negative s (if down then start - n else start + n)).map .real

end Number

namespace Json

/-- How deep arrays and objects may nest. -/
def depthLimit : Nat := 127

/-- An error, with the text at which it was found. A reading step gives what it read and the rest
of the text, or a fault. -/
abbrev Fault := ReadError × List Char

def fail (e : ReadError) (rest : List Char) : Except Fault (α × List Char) := .error (e, rest)

/-- Blanks between tokens. -/
def isBlank (c : Char) : Bool := c = ' ' || c = '\n' || c = '\t' || c = '\r'

def skipBlanks (cs : List Char) : List Char := cs.dropWhile isBlank

/-- The rest after a fixed word. -/
def readWord : List Char → List Char → Except Fault (Unit × List Char)
  | [], cs => .ok ((), cs)
  | _ :: _, [] => fail .endOfText []
  | w :: word, c :: cs => if w = c then readWord word cs else fail .malformed (c :: cs)

/-- Four hexadecimal digits. The text ends too early if fewer than four bytes are left. -/
def readHex : List Char → Except Fault (Nat × List Char)
  | a :: b :: c :: d :: rest =>
    match Text.hexValue? a, Text.hexValue? b, Text.hexValue? c, Text.hexValue? d with
    | some a, some b, some c, some d => .ok (((a * 16 + b) * 16 + c) * 16 + d, rest)
    | _, _, _, _ => fail .malformed rest
  | rest => if Text.byteCount rest < 4 then fail .endOfText [] else fail .malformed rest

/-- The character of a `\u` escape; a pair of surrogates gives one character. -/
def readUnicode (cs : List Char) : Except Fault (Char × List Char) := do
  let (n, rest) ← readHex cs
  if 0xDC00 ≤ n ∧ n ≤ 0xDFFF then fail .malformed rest
  else if 0xD800 ≤ n ∧ n ≤ 0xDBFF then
    let ((), rest) ← readWord ['\\', 'u'] rest
    let (low, rest) ← readHex rest
    if 0xDC00 ≤ low ∧ low ≤ 0xDFFF then
      .ok (Char.ofNat (0x10000 + (n - 0xD800) * 1024 + (low - 0xDC00)), rest)
    else fail .malformed rest
  else .ok (Char.ofNat n, rest)

/-- The character of a one-letter escape. -/
def simpleEscape? (c : Char) : Option Char :=
  if c = '"' || c = '\\' || c = '/' then some c
  else if c = 'b' then some '\x08'
  else if c = 'f' then some '\x0c'
  else if c = 'n' then some '\n'
  else if c = 'r' then some '\r'
  else if c = 't' then some '\t'
  else none

/-- The rest of a string after its opening quote; `acc` holds the characters read, last first. -/
def readChars (acc : List Char) : Nat → List Char → Except Fault (String × List Char)
  | 0, rest => fail .malformed rest
  | _, [] => fail .endOfText []
  | fuel + 1, c :: rest =>
    if c = '"' then .ok (String.ofList acc.reverse, rest)
    else if c.toNat < 32 then fail .malformed rest
    else if c = '\\' then
      match rest with
      | [] => fail .endOfText []
      | 'u' :: rest => do
        let (c, rest) ← readUnicode rest
        readChars (c :: acc) fuel rest
      | e :: rest =>
        match simpleEscape? e with
        | some c => readChars (c :: acc) fuel rest
        | none => fail .malformed rest
    else readChars (c :: acc) fuel rest

/-- The digits at the front, at least one. -/
def readDigits (cs : List Char) : Except Fault (List Char × List Char) :=
  match Binary64.spanDigits cs with
  | ([], []) => fail .endOfText []
  | ([], rest) => fail .malformed rest
  | (digits, rest) => .ok (digits, rest)

/-- The digits before the point: one zero, or a run that does not start with zero. -/
def readWholeDigits (cs : List Char) : Except Fault (List Char × List Char) := do
  let (digits, rest) ← readDigits cs
  match digits with
  | '0' :: _ :: _ => fail .malformed rest
  | _ => .ok (digits, rest)

def readFraction : List Char → Except Fault (Option (List Char) × List Char)
  | '.' :: rest => do
    let (digits, rest) ← readDigits rest
    .ok (some digits, rest)
  | rest => .ok (none, rest)

/-- The exponent: whether it is negative, and its digits. -/
def readExponent : List Char → Except Fault (Option (Bool × List Char) × List Char)
  | [] => .ok (none, [])
  | c :: rest =>
    if c = 'e' || c = 'E' then
      let (negative, rest) := match rest with
        | '-' :: r => (true, r)
        | '+' :: r => (false, r)
        | r => (false, r)
      do
        let (digits, rest) ← readDigits rest
        .ok (some (negative, digits), rest)
    else .ok (none, c :: rest)

def readNumber (cs : List Char) : Except Fault (Number × List Char) := do
  let (negative, rest) := match cs with
    | '-' :: r => (true, r)
    | r => (false, r)
  let (whole, rest) ← readWholeDigits rest
  let (fraction, rest) ← readFraction rest
  let (exponent, rest) ← readExponent rest
  match Number.Written.number? ⟨negative, whole, fraction, exponent⟩ with
  | some n => .ok (n, rest)
  | none => fail .malformed rest

mutual

/-- A value at the front of the text; `depth` is how many more levels may open. -/
def readValue (depth : Nat) : Nat → List Char → Except Fault (Json × List Char)
  | 0, rest => fail .malformed rest
  | fuel + 1, cs =>
    match skipBlanks cs with
    | [] => fail .endOfText []
    | c :: rest =>
      if c = 'n' then do
        let ((), rest) ← readWord ['u', 'l', 'l'] rest
        .ok (.null, rest)
      else if c = 't' then do
        let ((), rest) ← readWord ['r', 'u', 'e'] rest
        .ok (.bool true, rest)
      else if c = 'f' then do
        let ((), rest) ← readWord ['a', 'l', 's', 'e'] rest
        .ok (.bool false, rest)
      else if c = '"' then do
        let (s, rest) ← readChars [] (rest.length + 1) rest
        .ok (.string s, rest)
      else if c = '-' || c.isDigit then do
        let (n, rest) ← readNumber (c :: rest)
        .ok (.number n, rest)
      else if c = '[' then
        match depth with
        | 0 => fail (.tooDeep 0) (c :: rest)
        | depth + 1 =>
          match skipBlanks rest with
          | [] => fail .endOfText []
          | ']' :: rest => .ok (.array [], rest)
          | rest => do
            let (items, rest) ← readItems depth fuel rest
            .ok (.array items, rest)
      else if c = '\x7b' then
        match depth with
        | 0 => fail (.tooDeep 0) (c :: rest)
        | depth + 1 =>
          match skipBlanks rest with
          | [] => fail .endOfText []
          | '\x7d' :: rest => .ok (.object [], rest)
          | rest => do
            let (fields, rest) ← readFields depth fuel rest
            .ok (.object fields, rest)
      else fail .malformed (c :: rest)

/-- One or more values with commas between them, and the closing bracket. -/
def readItems (depth : Nat) : Nat → List Char → Except Fault (List Json × List Char)
  | 0, rest => fail .malformed rest
  | fuel + 1, cs => do
    let (v, rest) ← readValue depth fuel cs
    match skipBlanks rest with
    | [] => fail .endOfText []
    | ']' :: rest => .ok ([v], rest)
    | ',' :: rest =>
      let (items, rest) ← readItems depth fuel rest
      .ok (v :: items, rest)
    | rest => fail .malformed rest

/-- One or more fields with commas between them, and the closing brace. -/
def readFields (depth : Nat) : Nat → List Char → Except Fault (List (String × Json) × List Char)
  | 0, rest => fail .malformed rest
  | fuel + 1, cs => do
    let (key, rest) ← match skipBlanks cs with
      | [] => fail .endOfText []
      | '"' :: rest => readChars [] (rest.length + 1) rest
      | rest => fail .malformed rest
    let rest ← match skipBlanks rest with
      | [] => .error (.endOfText, [])
      | ':' :: rest => .ok rest
      | rest => .error (.malformed, rest)
    let (v, rest) ← readValue depth fuel rest
    match skipBlanks rest with
    | [] => fail .endOfText []
    | '\x7d' :: rest => .ok ([(key, v)], rest)
    | ',' :: rest =>
      let (fields, rest) ← readFields depth fuel rest
      .ok ((key, v) :: fields, rest)
    | rest => fail .malformed rest

end

/-- The one-based byte column in its line of the first character of `rest`, an end of `text`. -/
def columnOf (text rest : List Char) : Nat :=
  let before := text.take (text.length - rest.length)
  Text.byteCount (before.reverse.takeWhile (· ≠ '\n')) + 1

/-- The first value of a text, and what follows it. -/
def readFirst (text : String) : Except ReadError (Json × List Char) :=
  let cs := text.toList
  match readValue depthLimit (2 * cs.length + 2) cs with
  | .ok r => .ok r
  | .error (.tooDeep _, rest) => .error (.tooDeep (columnOf cs rest))
  | .error (e, _) => .error e

/-- Reads a whole text, keeping repeated keys. -/
def readRaw (text : String) : Except ReadError Json := do
  let (v, rest) ← readFirst text
  if (skipBlanks rest).isEmpty then .ok v else .error .malformed

/-- Reads a whole text. -/
def read (text : String) : Except ReadError Json := (readRaw text).map collapse

end Json

end Dialogue
