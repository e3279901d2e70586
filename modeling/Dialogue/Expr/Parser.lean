import Dialogue.Expr.Basic
import Dialogue.Text.Blank
import Dialogue.Text.Bytes
import Dialogue.Text.Letter

/-!
Reading expressions.

From the loosest to the tightest, the forms are

* `c ? a : b`, where `a` and `b` are again of this form,
* `||` and `or`, then `&&` and `and`, then `===` `!==` `==` `!=`, then `<=` `>=` `<` `>`,
  then `+` `-`, then `*` `/` `%`, all to the left,
* `!` `not` `-` before an operand of this form,
* `.name` and `[c]` after a primary,
* numbers, strings, `true`, `false`, `null`, identifiers and `(c)`.

Blanks (space, tab, carriage return, line feed) may stand before each token. A reserved word is no
identifier, except after a point. Brackets, branches and unary operators nest at most 64 deep, and a
source has at most 1024 bytes.

A form that does not fit is passed over, and reading goes on without it; an unclosed string and too
deep nesting end reading at once. `Level` ties the knot between the forms: the forms at one depth
are built from those one level deeper, so the nesting budget is what the recursion runs on.
-/
namespace Dialogue

/-- Why a text is no expression. Offsets count bytes. -/
inductive ParseError where
  | empty
  | tooLong
  | unclosedString (offset : Nat)
  | tooDeep (offset : Nat)
  /-- No expression begins where one has to; `found` is the character there. -/
  | expressionExpected (found : Option Char) (offset : Nat)
  /-- Text is left over. -/
  | unexpected (found : Option Char) (offset : Nat)
  deriving DecidableEq, Repr

namespace Expr

/-- How deep parentheses, indexes, branches and unary operators may nest. -/
def maxNesting : Nat := 64

/-- How many bytes a source may have. -/
def maxSourceBytes : Nat := 1024

end Expr

namespace ParseError

def foundText : Option Char → String
  | some c => "unexpected '" ++ c.toString ++ "'"
  | none => "unexpected end of expression"

def message : ParseError → String
  | .empty => "empty expression"
  | .tooLong => "expression longer than " ++ toString Expr.maxSourceBytes ++ " bytes"
  | .unclosedString _ => "unterminated string"
  | .tooDeep _ => "expression nested too deeply"
  | .expressionExpected found _ => foundText found ++ ", expected expression"
  | .unexpected found _ => foundText found

def offset : ParseError → Nat
  | .empty => 0
  | .tooLong => Expr.maxSourceBytes
  | .unclosedString offset => offset
  | .tooDeep offset => offset
  | .expressionExpected _ offset => offset
  | .unexpected _ offset => offset

/-- The message with the place. -/
def description (e : ParseError) : String := e.message ++ " at offset " ++ toString e.offset

end ParseError

namespace Expr.Parser

/-- What ends reading at once. -/
inductive Breakdown where
  | unclosedString
  | tooDeep
  deriving DecidableEq, Repr

/-- What a reading step gives: a result and the rest of the text, the place at which an expression
was wanted, or the place of a breakdown. -/
inductive Outcome (α : Type) where
  | done (a : α) (rest : List Char)
  | wanted (place : List Char)
  | broken (cause : Breakdown) (place : List Char)

/-- A reader of one form. -/
abbrev Reader := List Char → Outcome Expr

/-- A reader of an operator, which never breaks down. -/
abbrev OpReader := List Char → Option (BinaryOp × List Char)

/-- The blanks between tokens. -/
def isBlank (c : Char) : Bool := c = ' ' || c = '\t' || c = '\r' || c = '\n'

/-- What follows the blanks. -/
def skip (cs : List Char) : List Char := cs.dropWhile isBlank

/-- A character that can begin a name. -/
def isIdentStart (c : Char) : Bool := Text.isAlphabetic c || c = '_' || c = '$'

/-- A character that can go on with a name. -/
def isIdentChar (c : Char) : Bool := Text.isAlphanumeric c || c = '_' || c = '$'

/-- Words that are no identifiers. -/
def reserved : List String := ["true", "false", "null", "and", "or", "not"]

/-- The rest after a symbol. -/
def symbol? : List Char → List Char → Option (List Char)
  | [], cs => some cs
  | _ :: _, [] => none
  | w :: word, c :: cs => if w = c then symbol? word cs else none

/-- The rest after a word that no identifier character follows. -/
def word? (word : List Char) (cs : List Char) : Option (List Char) :=
  match symbol? word cs with
  | some (c :: rest) => if isIdentChar c then none else some (c :: rest)
  | r => r

/-- The first operator of a list that stands at the front. -/
def firstOf (ops : List (BinaryOp × (List Char → Option (List Char)))) : OpReader := fun cs =>
  ops.findSome? fun (op, read) => (read (skip cs)).map fun rest => (op, rest)

def orOp : OpReader := firstOf [(.or, symbol? ['|', '|']), (.or, word? ['o', 'r'])]

def andOp : OpReader := firstOf [(.and, symbol? ['&', '&']), (.and, word? ['a', 'n', 'd'])]

def equalityOp : OpReader :=
  firstOf [(.eq, symbol? ['=', '=', '=']), (.ne, symbol? ['!', '=', '=']),
    (.eq, symbol? ['=', '=']), (.ne, symbol? ['!', '='])]

def comparisonOp : OpReader :=
  firstOf [(.le, symbol? ['<', '=']), (.ge, symbol? ['>', '=']), (.lt, symbol? ['<']),
    (.gt, symbol? ['>'])]

def additiveOp : OpReader := firstOf [(.add, symbol? ['+']), (.sub, symbol? ['-'])]

def multiplicativeOp : OpReader :=
  firstOf [(.mul, symbol? ['*']), (.div, symbol? ['/']), (.rem, symbol? ['%'])]

/-- Operators and operands after a first operand, to the left. An operator without an operand is
left in the text. -/
def chain (operand : Reader) (op : OpReader) : Nat → Expr → List Char → Outcome Expr
  | 0, left, cs => .done left cs
  | fuel + 1, left, cs =>
    match op cs with
    | none => .done left cs
    | some (o, rest) =>
      match operand rest with
      | .done right rest => chain operand op fuel (.binary o left right) rest
      | .wanted _ => .done left cs
      | .broken cause place => .broken cause place

/-- One level of binary operators. -/
def binaryLevel (operand : Reader) (op : OpReader) : Reader := fun cs =>
  match operand cs with
  | .done first rest => chain operand op (rest.length + 1) first rest
  | failure => failure

/-- The levels of binary operators above the unary forms, tightest first. -/
def binaryLevels (unary : Reader) : Reader :=
  [multiplicativeOp, additiveOp, comparisonOp, equalityOp, andOp, orOp].foldl binaryLevel unary

/-- A test, perhaps with two branches; an incomplete pair of branches is left in the text. -/
def conditionalOf (unary deeper : Reader) : Reader := fun cs =>
  match binaryLevels unary cs with
  | .done test rest =>
    match symbol? ['?'] (skip rest) with
    | none => .done test rest
    | some branch =>
      match deeper branch with
      | .wanted _ => .done test rest
      | .broken cause place => .broken cause place
      | .done yes after =>
        match symbol? [':'] (skip after) with
        | none => .done test rest
        | some branch =>
          match deeper branch with
          | .wanted _ => .done test rest
          | .broken cause place => .broken cause place
          | .done no after => .done (.conditional test yes no) after
  | failure => failure

/-- The operator before an operand. -/
def unaryOp? (cs : List Char) : Option (UnaryOp × List Char) :=
  match symbol? ['!'] (skip cs) with
  | some rest => some (.not, rest)
  | none =>
    match word? ['n', 'o', 't'] (skip cs) with
    | some rest => some (.not, rest)
    | none => (symbol? ['-'] (skip cs)).map fun rest => (.neg, rest)

/-- An operator and its operand, or a postfix form. -/
def unaryOf (deeper postfixForm : Reader) : Reader := fun cs =>
  match unaryOp? cs with
  | none => postfixForm cs
  | some (op, rest) =>
    match deeper rest with
    | .done operand rest => .done (.unary op operand) rest
    | .wanted _ => postfixForm cs
    | .broken cause place => .broken cause place

/-- The text of an identifier at the front. -/
def identText? : List Char → Option (String × List Char)
  | [] => none
  | c :: rest =>
    if isIdentStart c then
      some (String.ofList (c :: rest.takeWhile isIdentChar), rest.dropWhile isIdentChar)
    else none

/-- The value of digits without a point: whole if it fits 63 bits. -/
def wholeLiteral? (digits : List Char) : Option Json :=
  let n := Binary64.digitsValue digits
  if n < signedLimit then some (.ofNat n)
  else
    let x := Binary64.ofNat n
    if x.isFinite then some (.ofBinary64 x) else none

/-- The value of digits with a fraction. -/
def fractionLiteral? (whole fraction : List Char) : Option Json :=
  let x := Binary64.ofDecimal false ⟨Binary64.digitsValue (whole ++ fraction), -fraction.length⟩
  if x.isFinite then some (.ofBinary64 x) else none

/-- A number at the front; a point without digits after it is left in the text. -/
def number? (cs : List Char) : Option (Json × List Char) :=
  let (whole, rest) := Binary64.spanDigits cs
  if whole.isEmpty then none
  else
    let plain := (wholeLiteral? whole).map fun v => (v, rest)
    match rest with
    | '.' :: after =>
      let (fraction, after) := Binary64.spanDigits after
      if fraction.isEmpty then plain else (fractionLiteral? whole fraction).map fun v => (v, after)
    | _ => plain

def unescape (c : Char) : Char :=
  if c = 'n' then '\n' else if c = 't' then '\t' else if c = 'r' then '\r' else c

/-- The rest of a string after its opening quote; `none` if it is not closed. -/
def stringRest? (quote : Char) : List Char → Option (List Char × List Char)
  | [] => none
  | c :: rest =>
    if c = '\\' then
      match rest with
      | [] => none
      | e :: rest => (stringRest? quote rest).map fun (text, rest) => (unescape e :: text, rest)
    else if c = quote then some ([], rest)
    else (stringRest? quote rest).map fun (text, rest) => (c :: text, rest)

def string (cs : List Char) : Outcome Expr :=
  match cs with
  | [] => .wanted cs
  | quote :: rest =>
    if quote = '"' || quote = '\'' then
      match stringRest? quote rest with
      | some (text, rest) => .done (.literal (.string (String.ofList text))) rest
      | none => .broken .unclosedString cs
    else .wanted cs

/-- A literal word or an identifier. -/
def wordForm? (cs : List Char) : Option (Expr × List Char) :=
  match identText? cs with
  | none => none
  | some (name, rest) =>
    if name = "true" then some (.literal (.bool true), rest)
    else if name = "false" then some (.literal (.bool false), rest)
    else if name = "null" then some (.literal .null, rest)
    else if reserved.contains name then none
    else some (.ident name, rest)

/-- An expression in parentheses. -/
def parenthesised (deeper : Reader) (cs : List Char) : Outcome Expr :=
  match symbol? ['('] cs with
  | none => .wanted cs
  | some inner =>
    match deeper inner with
    | .done e rest =>
      match symbol? [')'] (skip rest) with
      | some rest => .done e rest
      | none => .wanted (skip rest)
    | failure => failure

/-- A primary form. -/
def primaryOf (deeper : Reader) : Reader := fun cs =>
  let cs := skip cs
  match number? cs with
  | some (v, rest) => .done (.literal v) rest
  | none =>
    match string cs with
    | .wanted _ =>
      match wordForm? cs with
      | some (e, rest) => .done e rest
      | none => parenthesised deeper cs
    | outcome => outcome

/-- A name after a point. -/
def member? (cs : List Char) : Option (String × List Char) :=
  match symbol? ['.'] (skip cs) with
  | some rest => identText? (skip rest)
  | none => none

/-- Accesses after a primary form; an incomplete one is left in the text. -/
def accesses (deeper : Reader) : Nat → Expr → List Char → Outcome Expr
  | 0, target, cs => .done target cs
  | fuel + 1, target, cs =>
    match member? cs with
    | some (name, rest) => accesses deeper fuel (.member target name) rest
    | none =>
      match symbol? ['['] (skip cs) with
      | none => .done target cs
      | some inner =>
        match deeper inner with
        | .broken cause place => .broken cause place
        | .wanted _ => .done target cs
        | .done position rest =>
          match symbol? [']'] (skip rest) with
          | none => .done target cs
          | some rest => accesses deeper fuel (.index target position) rest

/-- Reads an operand and the accesses and calls after it. -/
def postfixOf (deeper : Reader) : Reader := fun cs =>
  match primaryOf deeper cs with
  | .done base rest => accesses deeper (rest.length + 1) base rest
  | failure => failure

/-- The readers of the two forms that nest. -/
structure Level where
  unary : Reader
  conditional : Reader

/-- Below the nesting limit nothing is read. -/
def Level.bottom : Level := ⟨.broken .tooDeep, .broken .tooDeep⟩

/-- The forms at a depth, from those one level deeper. -/
def Level.above (deeper : Level) : Level :=
  let unary := unaryOf deeper.unary (postfixOf deeper.conditional)
  ⟨unary, conditionalOf unary deeper.conditional⟩

/-- The forms that may nest `budget` levels more. -/
def level : Nat → Level
  | 0 => Level.bottom.above
  | budget + 1 => (level budget).above

/-- Reads a source within the limits of length, as characters. -/
def readChars (cs : List Char) : Except ParseError Expr :=
  let offset (place : List Char) : Nat := Text.byteCount cs - Text.byteCount place
  match (level Expr.maxNesting).conditional cs with
  | .done e rest =>
    match skip rest with
    | [] => .ok e
    | c :: left => .error (.unexpected (some c) (offset (c :: left)))
  | .wanted place => .error (.expressionExpected place.head? (offset place))
  | .broken .unclosedString place => .error (.unclosedString (offset place))
  | .broken .tooDeep place => .error (.tooDeep (offset place))

end Expr.Parser

/-- Reads an expression. -/
def Expr.parse (source : String) : Except ParseError Expr :=
  if Text.isBlankText source then .error .empty
  else if Expr.maxSourceBytes < source.utf8ByteSize then .error .tooLong
  else Expr.Parser.readChars source.toList

end Dialogue
