import Dialogue.Expr.Parser

/-!
The grammar of expressions.

```
conditional    := or ( "?" conditional ":" conditional )?
or             := and ( ("||" | "or") and )*
and            := equality ( ("&&" | "and") equality )*
equality       := comparison ( ("===" | "!==" | "==" | "!=") comparison )*
comparison     := additive ( ("<=" | ">=" | "<" | ">") additive )*
additive       := multiplicative ( ("+" | "-") multiplicative )*
multiplicative := unary ( ("*" | "/" | "%") unary )*
unary          := ("!" | "not" | "-") unary | path
path           := primary ( "." name | "[" conditional "]" )*
primary        := number | string | "true" | "false" | "null" | name | "(" conditional ")"
```

`Derives n form cs e rest` says that `cs` begins with a text of the form, that its tree is `e`, that
no path through the text nests more than `n` parentheses, indexes, branches and unary operators, and
that `rest` is the text after it. There is one constructor for each alternative above. Nothing here
says how a text is read, or which alternative is tried first.

Blanks may stand before a token. A word operator and a name end where no identifier character
follows; otherwise a token may be followed by anything.
-/
namespace Dialogue.Expr

open Expr.Parser

/-! ## Tokens -/

/-- Blanks lead up to `front`. -/
def Spaced (cs front : List Char) : Prop :=
  ∃ blanks : List Char, (∀ b ∈ blanks, isBlank b = true) ∧ cs = blanks ++ front

/-- The text does not begin with a character of a class. -/
def Stops (p : Char → Bool) (rest : List Char) : Prop :=
  ∀ c after, rest = c :: after → p c = false

/-- The text does not begin with an identifier character. -/
def Apart (rest : List Char) : Prop := Stops isIdentChar rest

/-- A token of one spelling. -/
inductive Token where
  | symbol (text : List Char)
  | word (text : List Char)

def Token.text : Token → List Char
  | .symbol text => text
  | .word text => text

/-- The token may end where `rest` begins. -/
def Token.Ends : Token → List Char → Prop
  | .symbol _, _ => True
  | .word _, rest => Apart rest

/-- The token is next in `cs`, and `rest` follows it. -/
structure Token.Stands (t : Token) (cs rest : List Char) : Prop where
  spaced : Spaced cs (t.text ++ rest)
  ends : t.Ends rest

/-- A name with all its characters, and the text after it. -/
inductive Name : String → List Char → List Char → Prop
  | mk {first : Char} {more rest : List Char} :
    isIdentStart first = true → (∀ c ∈ more, isIdentChar c = true) → Apart rest →
    Name (String.ofList (first :: more)) (first :: (more ++ rest)) rest

/-- The number that digits without a point stand for: a whole one if it fits 63 bits. -/
def wholeValue (digits : List Char) : Json :=
  let n := Binary64.digitsValue digits
  if n < signedLimit then .ofNat n else .ofBinary64 (Binary64.ofNat n)

/-- The number nearest to digits with a point. -/
def pointValue (whole fraction : List Char) : Binary64 :=
  Binary64.ofDecimal false ⟨Binary64.digitsValue (whole ++ fraction), -fraction.length⟩

/-- One or more decimal digits. -/
def Digits (cs : List Char) : Prop := cs ≠ [] ∧ ∀ d ∈ cs, d.isDigit = true

/-- Digits, perhaps with a fraction, whose value is finite, and the text after them. -/
inductive Numeral : Json → List Char → List Char → Prop
  | whole {digits rest : List Char} :
    Digits digits → (Binary64.ofNat (Binary64.digitsValue digits)).isFinite = true →
    Numeral (wholeValue digits) (digits ++ rest) rest
  | point {whole fraction rest : List Char} :
    Digits whole → Digits fraction → (pointValue whole fraction).isFinite = true →
    Numeral (.ofBinary64 (pointValue whole fraction)) (whole ++ '.' :: (fraction ++ rest)) rest

/-- The characters of a string between its opening quote and the text after its closing one. -/
inductive Quoted (quote : Char) : List Char → List Char → List Char → Prop
  | close {rest : List Char} : Quoted quote [] (quote :: rest) rest
  | plain {c : Char} {text cs rest : List Char} :
    c ≠ '\\' → c ≠ quote → Quoted quote text cs rest → Quoted quote (c :: text) (c :: cs) rest
  | escaped {c : Char} {text cs rest : List Char} :
    Quoted quote text cs rest → Quoted quote (unescape c :: text) ('\\' :: c :: cs) rest

/-! ## Forms -/

/-- The binary operators by level, the tightest level first. -/
def operators : Nat → List (BinaryOp × Token)
  | 0 => [(.mul, .symbol ['*']), (.div, .symbol ['/']), (.rem, .symbol ['%'])]
  | 1 => [(.add, .symbol ['+']), (.sub, .symbol ['-'])]
  | 2 => [(.le, .symbol ['<', '=']), (.ge, .symbol ['>', '=']), (.lt, .symbol ['<']),
      (.gt, .symbol ['>'])]
  | 3 => [(.eq, .symbol ['=', '=', '=']), (.ne, .symbol ['!', '=', '=']), (.eq, .symbol ['=', '=']),
      (.ne, .symbol ['!', '='])]
  | 4 => [(.and, .symbol ['&', '&']), (.and, .word ['a', 'n', 'd'])]
  | 5 => [(.or, .symbol ['|', '|']), (.or, .word ['o', 'r'])]
  | _ => []

/-- The operators before one operand. -/
def unaryOperators : List (UnaryOp × Token) :=
  [(.not, .symbol ['!']), (.not, .word ['n', 'o', 't']), (.neg, .symbol ['-'])]

/-- The names that stand for a value. -/
def literalWords : List (String × Json) :=
  [("true", .bool true), ("false", .bool false), ("null", .null)]

/-- The forms of the grammar, and the two repetitions in it. The operands of level `k` have the form
`binary k`, so `binary 0` are the unary forms and `binary 6` is `or`. -/
inductive Form where
  | conditional
  | binary (level : Nat)
  /-- What may follow the operand `left` at a level. -/
  | more (level : Nat) (left : Expr)
  | unary
  | path
  /-- What may follow the primary form or path `target`. -/
  | accesses (target : Expr)
  | primary

/-- A text begins with a form; the number bounds how deep the text nests. -/
inductive Derives : Nat → Form → List Char → Expr → List Char → Prop
  | test {n : Nat} {cs rest : List Char} {e : Expr} :
    Derives n (.binary 6) cs e rest → Derives n .conditional cs e rest
  | choice {n : Nat} {cs mark yesText colon noText rest : List Char} {test yes no : Expr} :
    Derives (n + 1) (.binary 6) cs test mark → (Token.symbol ['?']).Stands mark yesText →
    Derives n .conditional yesText yes colon → (Token.symbol [':']).Stands colon noText →
    Derives n .conditional noText no rest →
    Derives (n + 1) .conditional cs (.conditional test yes no) rest
  | tightest {n : Nat} {cs rest : List Char} {e : Expr} :
    Derives n .unary cs e rest → Derives n (.binary 0) cs e rest
  | joined {n k : Nat} {cs mid rest : List Char} {first e : Expr} :
    Derives n (.binary k) cs first mid → Derives n (.more k first) mid e rest →
    Derives n (.binary (k + 1)) cs e rest
  | noMore {n k : Nat} {left : Expr} {rest : List Char} : Derives n (.more k left) rest left rest
  | operator {n k : Nat} {op : BinaryOp} {t : Token} {cs operand mid rest : List Char}
    {left right e : Expr} :
    (op, t) ∈ operators k → t.Stands cs operand → Derives n (.binary k) operand right mid →
    Derives n (.more k (.binary op left right)) mid e rest → Derives n (.more k left) cs e rest
  | negated {n : Nat} {op : UnaryOp} {t : Token} {cs operand rest : List Char} {e : Expr} :
    (op, t) ∈ unaryOperators → t.Stands cs operand → Derives n .unary operand e rest →
    Derives (n + 1) .unary cs (.unary op e) rest
  | bare {n : Nat} {cs rest : List Char} {e : Expr} :
    Derives n .path cs e rest → Derives n .unary cs e rest
  | path {n : Nat} {cs mid rest : List Char} {base e : Expr} :
    Derives n .primary cs base mid → Derives n (.accesses base) mid e rest →
    Derives n .path cs e rest
  | noAccess {n : Nat} {target : Expr} {rest : List Char} :
    Derives n (.accesses target) rest target rest
  | member {n : Nat} {name : String} {cs gap front mid rest : List Char} {target e : Expr} :
    (Token.symbol ['.']).Stands cs gap → Spaced gap front → Name name front mid →
    Derives n (.accesses (.member target name)) mid e rest → Derives n (.accesses target) cs e rest
  | index {n : Nat} {cs inner close mid rest : List Char} {target position e : Expr} :
    (Token.symbol ['[']).Stands cs inner → Derives n .conditional inner position close →
    (Token.symbol [']']).Stands close mid →
    Derives (n + 1) (.accesses (.index target position)) mid e rest →
    Derives (n + 1) (.accesses target) cs e rest
  | number {n : Nat} {v : Json} {cs front rest : List Char} :
    Spaced cs front → Numeral v front rest → Derives n .primary cs (.literal v) rest
  | string {n : Nat} {quote : Char} {text cs inside rest : List Char} :
    quote = '"' ∨ quote = '\'' → Spaced cs (quote :: inside) → Quoted quote text inside rest →
    Derives n .primary cs (.literal (.string (String.ofList text))) rest
  | word {n : Nat} {name : String} {v : Json} {cs front rest : List Char} :
    Spaced cs front → Name name front rest → (name, v) ∈ literalWords →
    Derives n .primary cs (.literal v) rest
  | ident {n : Nat} {name : String} {cs front rest : List Char} :
    Spaced cs front → Name name front rest → name ∉ reserved →
    Derives n .primary cs (.ident name) rest
  | parentheses {n : Nat} {cs inner close rest : List Char} {e : Expr} :
    (Token.symbol ['(']).Stands cs inner → Derives n .conditional inner e close →
    (Token.symbol [')']).Stands close rest → Derives (n + 1) .primary cs e rest

/-- An expression that may nest `n` deep, with nothing but blanks after it. -/
def Denotes (n : Nat) (cs : List Char) (e : Expr) : Prop :=
  ∃ trailing, Derives n .conditional cs e trailing ∧ Spaced trailing []

end Dialogue.Expr
