import Dialogue.Json.Printer

/-!
Expressions over a JSON scope: the syntax tree.

`Expr.form` writes a tree in fully bracketed prefix form, so two trees with one form are the same
expression. `Expr.height` is the number of nodes on the longest path from the root.
-/
namespace Dialogue

/-- Operators before one operand. -/
inductive UnaryOp where
  | not
  | neg
  deriving DecidableEq, Repr

/-- Equality is strict: no operand is converted. -/
inductive BinaryOp where
  | or
  | and
  | eq
  | ne
  | lt
  | le
  | gt
  | ge
  | add
  | sub
  | mul
  | div
  | rem
  deriving DecidableEq, Repr

/-- How an operator is written. -/
def UnaryOp.name : UnaryOp → String
  | .not => "not"
  | .neg => "neg"

/-- How an operator is written. -/
def BinaryOp.symbol : BinaryOp → String
  | .or => "or"
  | .and => "and"
  | .eq => "==="
  | .ne => "!=="
  | .lt => "<"
  | .le => "<="
  | .gt => ">"
  | .ge => ">="
  | .add => "+"
  | .sub => "-"
  | .mul => "*"
  | .div => "/"
  | .rem => "%"

/-- An expression. -/
inductive Expr where
  | literal (value : Json)
  | ident (name : String)
  | member (target : Expr) (name : String)
  | index (target position : Expr)
  | unary (op : UnaryOp) (operand : Expr)
  | binary (op : BinaryOp) (left right : Expr)
  | conditional (test yes no : Expr)
  deriving Repr

namespace Expr

/-- The tree in bracketed prefix form. -/
def form : Expr → String
  | .literal v => v.text
  | .ident name => name
  | .member target name => "(. " ++ target.form ++ " " ++ name ++ ")"
  | .index target position => "([] " ++ target.form ++ " " ++ position.form ++ ")"
  | .unary op operand => "(" ++ op.name ++ " " ++ operand.form ++ ")"
  | .binary op left right => "(" ++ op.symbol ++ " " ++ left.form ++ " " ++ right.form ++ ")"
  | .conditional test yes no => "(? " ++ test.form ++ " " ++ yes.form ++ " " ++ no.form ++ ")"

/-- The number of nodes on the longest path from the root. -/
def height : Expr → Nat
  | .literal _ => 1
  | .ident _ => 1
  | .member target _ => target.height + 1
  | .index target position => max target.height position.height + 1
  | .unary _ operand => operand.height + 1
  | .binary _ left right => max left.height right.height + 1
  | .conditional test yes no => max test.height (max yes.height no.height) + 1

/-- No expression is of height zero. -/
theorem height_pos (e : Expr) : 0 < e.height := by cases e <;> simp [height]

end Expr

end Dialogue
