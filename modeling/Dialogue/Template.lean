import Dialogue.Expr.Eval

/-!
Texts with places to fill in.

Three kinds of tokens are filled: `$` and an expression in braces (`renderTemplate`), a dotted path
in doubled braces (`interpolatePaths`), and in step messages a path in braces or an expression in
braces after `$` (`renderMessage`). A token that has no value stays as it is.

`pieces` cuts a text into characters and tokens from the left: each token begins at the first place
at which one can begin, and the search goes on behind it.
-/
namespace Dialogue.Template

/-- A token at the front of a text: how many characters it has, and what it holds. -/
structure Token where
  length : Nat
  body : List Char
  /-- Whether the body is an expression and not a path. -/
  isExpression : Bool

/-- A character of a text or a token in it. -/
inductive Piece where
  | char (c : Char)
  | token (whole : List Char) (t : Token)

/-- Cuts a text into pieces; the first `skip` characters belong to the token before. -/
def piecesFrom (tokenAt? : List Char → Option Token) : Nat → List Char → List Piece
  | _, [] => []
  | skip + 1, _ :: rest => piecesFrom tokenAt? skip rest
  | 0, c :: rest =>
    match tokenAt? (c :: rest) with
    | some t => .token ((c :: rest).take t.length) t :: piecesFrom tokenAt? (t.length - 1) rest
    | none => .char c :: piecesFrom tokenAt? 0 rest

/-- A text as literal pieces and tokens. -/
def pieces (tokenAt? : List Char → Option Token) (cs : List Char) : List Piece :=
  piecesFrom tokenAt? 0 cs

/-- Writes the pieces, with the values of the tokens that have one. -/
def fill (value? : Token → Option String) (ps : List Piece) : String :=
  ps.foldl (fun acc p =>
    match p with
    | .char c => acc.push c
    | .token whole t => acc ++ (value? t).getD (String.ofList whole)) ""

/-- A non-empty body of characters that satisfy `inside`, up to a closing brace. -/
def braced? (inside : Char → Bool) (isExpression : Bool) (before : Nat) (cs : List Char) :
    Option Token :=
  let body := cs.takeWhile inside
  match cs.dropWhile inside with
  | '\x7d' :: _ =>
    if body.isEmpty then none else some ⟨before + body.length + 1, body, isExpression⟩
  | _ => none

/-- A character that does not close a token. -/
def notClosing (c : Char) : Bool := c ≠ '\x7d'

/-- A character that is no brace. -/
def notBrace (c : Char) : Bool := c ≠ '\x7b' && c ≠ '\x7d'

/-- An expression in braces after `$`. -/
def expressionToken? : List Char → Option Token
  | '$' :: '\x7b' :: rest => braced? notClosing true 2 rest
  | _ => none

/-- A path in doubled braces, without the blanks around it. -/
def pathToken? : List Char → Option Token
  | '\x7b' :: '\x7b' :: rest =>
    let body := rest.takeWhile notBrace
    match rest.dropWhile notBrace with
    | '\x7d' :: '\x7d' :: _ =>
      if body.isEmpty then none else some ⟨body.length + 4, Text.trimChars body, false⟩
    | _ => none
  | _ => none

/-- A path in braces, or an expression in braces after `$`. -/
def messageToken? : List Char → Option Token
  | '$' :: '\x7b' :: rest => braced? notBrace true 2 rest
  | '\x7b' :: rest => braced? notBrace false 1 rest
  | _ => none

/-- One step down a value. -/
def descend (v : Json) (segment : List Char) : Option Json :=
  match v with
  | .object fields => Entries.get? fields (String.ofList segment)
  | .array items => (Decimal.natural64? segment).bind (items[·]?)
  | _ => none

/-- The value at a dotted path, given as characters. -/
def lookupChars (scope : Json) (path : List Char) : Option Json :=
  let path := Text.trimChars path
  if path.isEmpty then none else (Text.splitChars '.' path).foldlM descend scope

/-- The value at a dotted path. -/
def lookupPath (scope : Json) (path : String) : Option Json := lookupChars scope path.toList

/-- Whether a path leads to something other than `null` and the empty string. -/
def hasValue (scope : Json) (path : String) : Bool :=
  match lookupPath scope path with
  | none => false
  | some .null => false
  | some (.string s) => !s.isEmpty
  | some _ => true

/-- The text of an expression's value, if it has one. -/
def expressionText? (scope : Json) (body : List Char) : Option String :=
  match Expr.evaluateSource (String.ofList body) scope with
  | .ok v => some v.display
  | .error _ => none

/-- The text that a token stands for. -/
def tokenText? (scope : Json) (t : Token) : Option String :=
  if t.isExpression then expressionText? scope t.body
  else (lookupChars scope t.body).map Json.display

/-- Fills the expressions in braces after `$`. -/
def renderTemplate (text : String) (scope : Json) : String :=
  fill (tokenText? scope) (pieces expressionToken? text.toList)

/-- Fills the paths in doubled braces. -/
def interpolatePaths (text : String) (scope : Json) : String :=
  fill (tokenText? scope) (pieces pathToken? text.toList)

/-- Fills a step message. -/
def renderMessage (text : String) (scope : Json) : String :=
  fill (tokenText? scope) (pieces messageToken? text.toList)

/-- A string within a document: a string that is one path token as a whole becomes the value at that
path, and any other is interpolated. -/
def interpolateString (s : String) (scope : Json) : Json :=
  let whole? := do
    let t ← pathToken? s.toList
    if t.length = s.length then lookupChars scope t.body else none
  whole?.getD (.string (interpolatePaths s scope))

mutual

/-- Interpolates every string within a document. -/
def interpolateDeep (scope : Json) : Json → Json
  | .string s => interpolateString s scope
  | .array items => .array (interpolateItems scope items)
  | .object fields => .object (interpolateFields scope fields)
  | v => v

def interpolateItems (scope : Json) : List Json → List Json
  | [] => []
  | v :: rest => interpolateDeep scope v :: interpolateItems scope rest

def interpolateFields (scope : Json) : List (String × Json) → List (String × Json)
  | [] => []
  | (key, v) :: rest => (key, interpolateDeep scope v) :: interpolateFields scope rest

end

end Dialogue.Template
