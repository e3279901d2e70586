import Dialogue.Machine.Transition
import Dialogue.Proofs.Number.Whole
import Mathlib.Order.Compare

/-!
Comparisons of integers.

Two numbers are compared as binary64 numbers, so that two integers are compared after rounding
(`compare?_integers`). As rounding keeps the order, a comparison goes wrong only where it makes one
number of two integers: these are then equal, neither is below the other, and an answer that is the
one selects a choice that is the other (`integers_compared`). Integers of 64 bits become one only
from `2 ^ 53` on, and if they are close.
-/
namespace Dialogue

open Binary64 (rounded InWord)

variable {i j : Int}

/-! ## Values -/

/-- Integers have the order that they have after rounding. -/
theorem compare?_integers (hi : InWord i) (hj : InWord j) :
    (Json.ofInt i).compare? (.ofInt j) = some (compare (rounded i) (rounded j)) := by
  obtain ⟨hfinite, hvalue⟩ := Binary64.ofInt_whole hi.small
  obtain ⟨hfinite', hvalue'⟩ := Binary64.ofInt_whole hj.small
  show (Binary64.ofInt i).compare? (.ofInt j) = _
  rw [Binary64.compare?_of_finite hfinite hfinite', hvalue, hvalue']
  simp only [Int.cast_lt]
  rcases Int.lt_trichotomy (rounded i) (rounded j) with h | h | h
  · rw [if_pos h, compare_lt_iff_lt.mpr h]
  · rw [if_neg h.not_lt, if_neg h.not_gt, compare_eq_iff_eq.mpr h]
  · rw [if_neg h.not_gt, if_pos h, compare_gt_iff_gt.mpr h]

theorem strictEquals_integers (hi : InWord i) (hj : InWord j) :
    (Json.ofInt i).strictEquals (.ofInt j) = decide (rounded i = rounded j) := by
  show decide ((Json.ofInt i).compare? (.ofInt j) = some .eq) = _
  rw [compare?_integers hi hj]
  simp only [Option.some.injEq, compare_eq_iff_eq]

/-! ## Comparisons -/

namespace Expr

/-- A source that names two values is evaluated by applying its operation to them. -/
theorem evaluateSource_names (op : BinaryOp) {source x y : String}
    (hparse : parse source = .ok (.binary op (.ident x) (.ident y))) (hand : op ≠ .and)
    (hor : op ≠ .or) {scope v w : Json} (hv : scope.get? x = some v) (hw : scope.get? y = some w)
    {result : Json} (happly : apply op v w = .ok result) :
    evaluateSource source scope = .ok result := by
  have heval : eval scope (.binary op (.ident x) (.ident y)) = apply op v w := by
    cases op with
    | and => exact absurd rfl hand
    | or => exact absurd rfl hor
    | _ => simp [eval, hv, hw, bind, Except.bind]
  rw [evaluateSource, hparse]
  simp only [heval, happly]

/-- An order comparison of integers is one of what they are rounded to. -/
theorem comparison_integers (hi : InWord i) (hj : InWord j) (op : BinaryOp)
    {holds : Ordering → Bool} {p : Prop} [Decidable p]
    (hp : holds (compare (rounded i) (rounded j)) = true ↔ p) :
    comparison op holds (.ofInt i) (.ofInt j) = .ok (.bool p) := by
  rw [comparison, compare?_integers hi hj]
  simp only [Bool.decide_congr hp.symm, Bool.decide_eq_true]

/-- Of two integers in a scope, a comparison says what it would say of the integers themselves,
unless they become one number when they are rounded to 53 bits. Then they are equal, and an answer
that is the one selects the choices of the other. This takes two integers from `2 ^ 53` on that are
no further apart than `2 ^ 11`. -/
theorem integers_compared {a b : Int} (ha : InWord a) (hb : InWord b) {scope : Json}
    (hscope : scope.get? "a" = some (.ofInt a)) (hscope' : scope.get? "b" = some (.ofInt b)) :
    evaluateSource "a < b" scope = .ok (.bool (a < b ∧ rounded a ≠ rounded b)) ∧
    evaluateSource "a <= b" scope = .ok (.bool (a ≤ b ∨ rounded a = rounded b)) ∧
    evaluateSource "a > b" scope = .ok (.bool (b < a ∧ rounded a ≠ rounded b)) ∧
    evaluateSource "a >= b" scope = .ok (.bool (b ≤ a ∨ rounded a = rounded b)) ∧
    evaluateSource "a == b" scope = .ok (.bool (rounded a = rounded b)) ∧
    evaluateSource "a != b" scope = .ok (.bool (rounded a ≠ rounded b)) ∧
    (∀ (m : Machine) step s (c : ChoiceEdges), c.value = .ofInt a →
      (c ∈ m.chosen step s (.ofInt b) ↔ rounded a = rounded b ∧
        c ∈ step.choices ++ (s.resolvedOptions.getD []).map m.resolvedEdges)) ∧
    (rounded a = rounded b →
      a = b ∨ (2 ^ 53 ≤ a.natAbs ∧ 2 ^ 53 ≤ b.natAbs ∧ (a - b).natAbs ≤ 2 ^ 11)) := by
  have hsame := strictEquals_integers ha hb
  refine ⟨?_, ?_, ?_, ?_, ?_, ?_, ?_, ha.eq_cases hb⟩
  · refine evaluateSource_names .lt rfl (by decide) (by decide) hscope hscope' ?_
    apply comparison_integers ha hb
    rw [beq_iff_eq, compare_lt_iff_lt, Binary64.rounded_lt_iff]
  · refine evaluateSource_names .le rfl (by decide) (by decide) hscope hscope' ?_
    apply comparison_integers ha hb
    rw [bne_iff_ne, compare_le_iff_le, Binary64.rounded_le_iff]
  · refine evaluateSource_names .gt rfl (by decide) (by decide) hscope hscope' ?_
    apply comparison_integers ha hb
    rw [beq_iff_eq, compare_gt_iff_gt, Binary64.rounded_lt_iff, ne_comm]
  · refine evaluateSource_names .ge rfl (by decide) (by decide) hscope hscope' ?_
    apply comparison_integers ha hb
    rw [bne_iff_ne, compare_ge_iff_ge, Binary64.rounded_le_iff, @eq_comm _ (rounded b)]
  · refine evaluateSource_names .eq rfl (by decide) (by decide) hscope hscope' ?_
    rw [apply, hsame]
  · refine evaluateSource_names .ne rfl (by decide) (by decide) hscope hscope' ?_
    rw [apply, hsame]
    simp
  · intro m step s c hc
    rw [Machine.chosen, List.mem_filter, hc, hsame, decide_eq_true_eq, and_comm]

/-- Two dates, in seconds, are compared as they are. -/
theorem integers_compared_dates :
    let a : Int := 1700000000
    let b : Int := 1700000001
    let scope : Json := .object [("a", .ofInt a), ("b", .ofInt b)]
    InWord a ∧ InWord b ∧ scope.get? "a" = some (.ofInt a) ∧ scope.get? "b" = some (.ofInt b) ∧
    evaluateSource "a < b" scope = .ok (.bool true) ∧
    evaluateSource "a == b" scope = .ok (.bool false) := by
  intro a b scope
  have ha : InWord a := Binary64.inWord_of_lt (by decide)
  have hb : InWord b := Binary64.inWord_of_lt (by decide)
  have hscope : scope.get? "a" = some (.ofInt a) := rfl
  have hscope' : scope.get? "b" = some (.ofInt b) := rfl
  obtain ⟨hlt, -, -, -, heq, -⟩ := integers_compared ha hb hscope hscope'
  have hbelow : a < b ∧ rounded a ≠ rounded b := by decide +kernel
  rw [decide_eq_true hbelow] at hlt
  rw [decide_eq_false hbelow.2] at heq
  exact ⟨ha, hb, hscope, hscope', hlt, heq⟩

/-- From `2 ^ 53` on, two integers are equal that are not the same, and an answer that is the one
selects the choices of the other. -/
theorem integers_not_told_apart :
    let a : Int := 9007199254740993
    let b : Int := 9007199254740992
    let scope : Json := .object [("a", .ofInt a), ("b", .ofInt b)]
    a ≠ b ∧ InWord a ∧ InWord b ∧
    evaluateSource "a == b" scope = .ok (.bool true) ∧
    evaluateSource "a > b" scope = .ok (.bool false) ∧
    ∀ (m : Machine) step s, ∀ c ∈ step.choices, c.value = .ofInt b →
      c ∈ m.chosen step s (.ofInt a) := by
  intro a b scope
  have hscope : scope.get? "a" = some (.ofInt a) := rfl
  have hscope' : scope.get? "b" = some (.ofInt b) := rfl
  have hsame : (Json.ofInt a).strictEquals (.ofInt b) = true := by decide +kernel
  have horder : (Json.ofInt a).compare? (.ofInt b) = some .eq := by decide +kernel
  have hselected : (Json.ofInt b).strictEquals (.ofInt a) = true := by decide +kernel
  have ha : InWord a := Binary64.inWord_of_lt (by decide)
  have hb : InWord b := Binary64.inWord_of_lt (by decide)
  refine ⟨by decide, ha, hb, ?_, ?_, ?_⟩
  · refine evaluateSource_names .eq rfl (by decide) (by decide) hscope hscope' ?_
    rw [apply, hsame]
  · refine evaluateSource_names .gt rfl (by decide) (by decide) hscope hscope' ?_
    rw [apply, comparison, horder]
    rfl
  · intro m step s c hc hvalue
    rw [Machine.chosen, List.mem_filter, hvalue]
    exact ⟨List.mem_append_left _ hc, hselected⟩

end Expr

end Dialogue
