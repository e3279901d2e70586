import Mathlib.Data.String.Basic
import Dialogue.Expr.Eval
import Dialogue.Proofs.Expr.Follow

/-!
How high the trees of expressions are, and how deep their evaluation goes.

The nesting budget of the parser does not count binary operators and accesses, each of which makes
the tree one level higher. What bounds the height is the text: every level has a character of its
own in it, whichever forms the levels are of (`Derives.height_le`).

An evaluation calls itself for the parts of an expression. `evalNode` is one such call, with the
calls that it makes left open, so that `eval` is `evalNode` with calls of itself (`eval_node`), and
`evalWithin` is the same evaluation with room for so many calls inside one another. Room for the
height is enough (`evalWithin_eval`), and so is room for the bytes of the source
(`parse_height_le`).
-/
namespace Dialogue

/-- A character has one byte at least. -/
theorem Text.length_le_utf8ByteSize (s : String) : s.toList.length ≤ s.utf8ByteSize := by
  have hbytes : ∀ cs : List Char, cs.length ≤ String.utf8Len cs := by
    intro cs
    induction cs with
    | nil => exact Nat.zero_le _
    | cons c cs ih =>
      have hpos := c.utf8Size_pos
      rw [String.utf8Len_cons, List.length_cons]
      omega
  calc s.toList.length ≤ String.utf8Len s.toList := hbytes s.toList
    _ = s.utf8ByteSize := by rw [← String.utf8ByteSize_ofList, String.ofList_toList]

namespace Expr

open Expr.Parser

/-! ## Characters of tokens -/

theorem Numeral.length_lt {v : Json} {cs rest : List Char} (h : Numeral v cs rest) :
    rest.length < cs.length := by
  cases h with
  | whole hdigits hfinite =>
    have hpos := List.length_pos_iff.mpr hdigits.1
    rw [List.length_append]
    omega
  | point hwhole hfraction hfinite =>
    rw [List.length_append, List.length_cons, List.length_append]
    omega

theorem Token.Stands.length_lt_of_operator {k : Nat} {op : BinaryOp} {t : Token}
    {cs rest : List Char} (h : t.Stands cs rest) (hop : (op, t) ∈ operators k) :
    rest.length < cs.length := by
  obtain ⟨c, text, htext, -⟩ := operators_head hop
  exact h.length_lt (by simp [htext])

theorem Token.Stands.length_lt_of_unaryOperator {op : UnaryOp} {t : Token} {cs rest : List Char}
    (h : t.Stands cs rest) (hop : (op, t) ∈ unaryOperators) : rest.length < cs.length := by
  obtain ⟨c, text, htext, -⟩ := unaryOperators_head hop
  exact h.length_lt (by simp [htext])

/-! ## Heights -/

/-- The height of the tree that a form goes on with. -/
def Form.begun : Form → Nat
  | .more _ left => left.height
  | .accesses target => target.height
  | _ => 0

/-- Every level of a tree has a character of its own in the text that the tree is read from. -/
theorem Derives.height_le {n : Nat} {form : Form} {cs rest : List Char} {e : Expr}
    (h : Derives n form cs e rest) : e.height + rest.length ≤ form.begun + cs.length := by
  -- Where two parts are joined, the sign between them has the character for the new level.
  induction h with
  | test h ih => exact ih
  | choice htest hmark hyes hcolon hno ihtest ihyes ihno =>
    have hmark := hmark.length_lt (List.cons_ne_nil _ _)
    have hcolon := hcolon.length_lt (List.cons_ne_nil _ _)
    simp only [Form.begun, height] at *
    omega
  | tightest h ih => exact ih
  | joined hfirst hmore ihfirst ihmore =>
    simp only [Form.begun] at *
    omega
  | noMore => exact Nat.le_refl _
  | operator hop hstands hright hmore ihright ihmore =>
    have hstands := hstands.length_lt_of_operator hop
    simp only [Form.begun, height] at *
    omega
  | negated hop hstands hoperand ih =>
    have hstands := hstands.length_lt_of_unaryOperator hop
    simp only [Form.begun, height] at *
    omega
  | bare h ih => exact ih
  | path hbase haccesses ihbase ihaccesses =>
    simp only [Form.begun] at *
    omega
  | noAccess => exact Nat.le_refl _
  | member hpoint hgap hname haccesses ih =>
    have hpoint := hpoint.length_le
    have hgap := hgap.length_le
    have hname := hname.length_lt
    simp only [Form.begun, height] at *
    omega
  | index hopen hposition hclose haccesses ihposition ihaccesses =>
    have hopen := hopen.length_lt (List.cons_ne_nil _ _)
    have hclose := hclose.length_le
    simp only [Form.begun, height] at *
    omega
  | number hspaced hnumeral =>
    have hspaced := hspaced.length_le
    have hnumeral := hnumeral.length_lt
    simp only [Form.begun, height]
    omega
  | string hquote hspaced hquoted =>
    have hspaced := hspaced.length_le
    have hquoted := hquoted.length_lt
    simp only [Form.begun, List.length_cons, height] at *
    omega
  | word hspaced hname hliteral =>
    have hspaced := hspaced.length_le
    have hname := hname.length_lt
    simp only [Form.begun, height]
    omega
  | ident hspaced hname hfree =>
    have hspaced := hspaced.length_le
    have hname := hname.length_lt
    simp only [Form.begun, height]
    omega
  | parentheses hopen hinner hclose ih =>
    have hopen := hopen.length_le
    have hclose := hclose.length_le
    simp only [Form.begun] at *
    omega

theorem Denotes.height_le {n : Nat} {cs : List Char} {e : Expr} (h : Denotes n cs e) :
    e.height ≤ cs.length := by
  obtain ⟨trailing, hderives, -⟩ := h
  have hlevels := hderives.height_le
  simp only [Form.begun] at hlevels
  omega

/-- What is read is within the limits of length. -/
theorem readChars_of_parse {source : String} {e : Expr} (h : parse source = .ok e) :
    source.utf8ByteSize ≤ maxSourceBytes ∧ readChars source.toList = .ok e := by
  unfold parse at h
  split at h
  · cases h
  · split at h
    · cases h
    · next hlong => exact ⟨Nat.le_of_not_lt hlong, h⟩

/-! ## Calls -/

section Node

variable {m : Type → Type} [Monad m] [MonadExceptOf EvalError m]

/-- One call of the evaluation; the parts of the expression are evaluated by `call`. -/
def evalNode (scope : Json) (call : Expr → m Json) : Expr → m Json
  | .literal v => pure v
  | .ident name =>
    match scope.get? name with
    | some v => pure v
    | none => throw (.undefinedVariable name)
  | .member target name => do liftExcept (property (← call target) name)
  | .index target position => do
    let t ← call target
    let i ← call position
    liftExcept (element t i)
  | .unary .not operand => do
    let v ← call operand
    pure (.bool !v.isTruthy)
  | .unary .neg operand => do liftExcept (negate (← call operand))
  | .binary .and left right => do
    let l ← call left
    if l.isTruthy then
      let r ← call right
      pure (.bool r.isTruthy)
    else pure (.bool false)
  | .binary .or left right => do
    let l ← call left
    if l.isTruthy then pure (.bool true)
    else
      let r ← call right
      pure (.bool r.isTruthy)
  | .binary op left right => do
    let l ← call left
    let r ← call right
    liftExcept (apply op l r)
  | .conditional test yes no => do
    let t ← call test
    if t.isTruthy then call yes else call no

end Node

theorem liftExcept_eq {α : Type} (x : Except EvalError α) : liftExcept x = x := by
  cases x <;> rfl

/-- An evaluation is a call that evaluates the parts in the same way. -/
theorem eval_node (scope : Json) (e : Expr) : eval scope e = evalNode scope (eval scope) e := by
  cases e with
  | literal v => rfl
  | ident name => rfl
  | member target name => simp only [eval, evalNode, liftExcept_eq]
  | index target position => simp only [eval, evalNode, liftExcept_eq]
  | unary op operand => cases op <;> simp only [eval, evalNode, liftExcept_eq, pure, Except.pure]
  | binary op left right =>
    cases op <;> simp only [eval, evalNode, liftExcept_eq, pure, Except.pure]
  | conditional test yes no => simp only [eval, evalNode]

/-- The evaluation with room for so many calls inside one another; `none` if it needs more. -/
def evalWithin (scope : Json) : Nat → Expr → ExceptT EvalError Option Json
  | 0 => fun _ => (none : Option (Except EvalError Json))
  | room + 1 => evalNode scope (evalWithin scope room)

/-- A result that there was room for. -/
def roomFor {α : Type} (x : Except EvalError α) : ExceptT EvalError Option α := ExceptT.mk (some x)

theorem pure_roomFor {α : Type} (a : α) :
    (pure a : ExceptT EvalError Option α) = roomFor (pure a) := rfl

theorem liftExcept_roomFor {α : Type} (x : Except EvalError α) :
    (liftExcept x : ExceptT EvalError Option α) = roomFor (liftExcept x) := by
  cases x <;> rfl

theorem roomFor_bind {α β : Type} (x : Except EvalError α) (f : α → Except EvalError β) :
    (roomFor x >>= fun a => roomFor (f a)) = roomFor (x >>= f) := by
  cases x <;> rfl

/-- Where there is room for the parts, there is room for the expression. -/
theorem evalNode_roomFor (scope : Json) {e : Expr} {call : Expr → ExceptT EvalError Option Json}
    {value : Expr → Except EvalError Json}
    (h : ∀ part : Expr, part.height < e.height → call part = roomFor (value part)) :
    evalNode scope call e = roomFor (evalNode scope value e) := by
  cases e with
  | literal v => rfl
  | ident name =>
    simp only [evalNode]
    cases scope.get? name <;> rfl
  | member target name =>
    have htarget := h target (by simp only [height]; omega)
    simp only [evalNode, htarget, liftExcept_roomFor, roomFor_bind]
  | index target position =>
    have htarget := h target (by simp only [height]; omega)
    have hposition := h position (by simp only [height]; omega)
    simp only [evalNode, htarget, hposition, liftExcept_roomFor, roomFor_bind]
  | unary op operand =>
    have hoperand := h operand (by simp only [height]; omega)
    cases op <;> simp only [evalNode, hoperand, liftExcept_roomFor, pure_roomFor, roomFor_bind]
  | binary op left right =>
    have hleft := h left (by simp only [height]; omega)
    have hright := h right (by simp only [height]; omega)
    cases op <;> simp only [evalNode, hleft, hright, liftExcept_roomFor, pure_roomFor,
      roomFor_bind, ← apply_ite roomFor]
  | conditional test yes no =>
    have htest := h test (by simp only [height]; omega)
    have hyes := h yes (by simp only [height]; omega)
    have hno := h no (by simp only [height]; omega)
    simp only [evalNode, htest, hyes, hno, roomFor_bind, ← apply_ite roomFor]

/-- Room for the height of the tree is enough. -/
theorem evalWithin_eval (scope : Json) {room : Nat} {e : Expr} (h : e.height ≤ room) :
    (evalWithin scope room e).run = some (eval scope e) := by
  induction room generalizing e with
  | zero =>
    have hpos := e.height_pos
    omega
  | succ room ih =>
    have hparts : ∀ part : Expr, part.height < e.height →
        evalWithin scope room part = roomFor (eval scope part) :=
      fun part hpart => ih (by omega)
    rw [eval_node]
    exact evalNode_roomFor scope hparts

/-- The tree of an expression is no higher than its source has bytes, at most 1024; and in every
scope, room for that many calls is enough to evaluate it. -/
theorem parse_height_le {source : String} {e : Expr} (h : parse source = .ok e) :
    e.height ≤ source.utf8ByteSize ∧ source.utf8ByteSize ≤ 1024 ∧
      ∀ scope room, e.height ≤ room → (evalWithin scope room e).run = some (eval scope e) := by
  obtain ⟨hshort, hread⟩ := readChars_of_parse h
  have hheight : e.height ≤ source.utf8ByteSize := calc
    e.height ≤ source.toList.length := (readChars_sound hread).height_le
    _ ≤ source.utf8ByteSize := Text.length_le_utf8ByteSize source
  exact ⟨hheight, hshort, fun scope room hroom => evalWithin_eval scope hroom⟩

/-- A chain of accesses and operators, none of which nests. -/
theorem parse_height_le_price :
    let source := "cart.items[0].price * 2 - discount"
    ∃ e, parse source = .ok e ∧ e.form = "(- (* (. ([] (. cart items) 0) price) 2) discount)" ∧
      e.height = 6 ∧ e.height ≤ source.utf8ByteSize ∧ source.utf8ByteSize ≤ 1024 ∧
      ∀ scope room, e.height ≤ room → (evalWithin scope room e).run = some (eval scope e) := by
  intro source
  have hread : (parse source).toOption.map (fun e => (e.form, e.height)) =
      some ("(- (* (. ([] (. cart items) 0) price) 2) discount)", 6) := by decide +kernel
  obtain ⟨e, hfound, htree⟩ := Option.map_eq_some_iff.mp hread
  obtain ⟨hform, hheight⟩ := Prod.mk.inj htree
  have hparse : parse source = .ok e := by
    cases hresult : parse source with
    | error cause => rw [hresult] at hfound; cases hfound
    | ok found => rw [hresult] at hfound; cases hfound; rfl
  exact ⟨e, hparse, hform, hheight, parse_height_le hparse⟩

/-- Two operators and their operand are three calls inside one another. -/
example :
    let e : Expr := .unary .not (.unary .not (.literal .null))
    (evalWithin .null 2 e).run = none ∧ (evalWithin .null 3 e).run = some (.ok (.bool false)) :=
  ⟨rfl, rfl⟩

end Expr

end Dialogue
