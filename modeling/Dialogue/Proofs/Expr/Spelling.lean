import Dialogue.Expr.Eval
import Dialogue.Proofs.Number.Whole

/-!
Whole numbers in either spelling.

A whole number below `2 ^ 53` may be stored as an integer or as a binary64 number, and zero has two
signs beside. Two binary64 numbers are alike if they come to one JSON number: they are the same, or
both are one such whole number (`alike_cases`). Negation, the four operations and the remainder make
alike numbers of alike ones, and so does the order not tell them apart.
-/
namespace Dialogue

namespace Binary64

variable {x x' y y' : Binary64} {i : Int}

/-! ## Small whole numbers -/

/-- The number is a whole one below `2 ^ 53`. -/
structure IsSmall (x : Binary64) (i : Int) : Prop where
  isFinite : x.isFinite = true
  value : x.value = i
  bound : |(i : Rat)| < Json.wholeLimit

theorem isSmall_iff : (∃ i, x.IsSmall i) ↔ x.isWhole = true ∧ x.abs.value < Json.wholeLimit := by
  constructor
  · rintro ⟨i, hfinite, hvalue, hbound⟩
    refine ⟨(isWhole_iff hfinite).mpr ⟨i, hvalue⟩, ?_⟩
    rwa [value_abs, hvalue]
  · rintro ⟨hwhole, hbound⟩
    have hfinite : x.isFinite = true := by
      cases x with
      | finite => rfl
      | nan => cases hwhole
      | infinite => cases hwhole
    obtain ⟨i, hvalue⟩ := (isWhole_iff hfinite).mp hwhole
    rw [value_abs, hvalue] at hbound
    exact ⟨i, hfinite, hvalue, hbound⟩

/-- A small whole number is an integer of JSON, and no other number is. -/
theorem ofWholeOrReal_eq_ofInt :
    Json.ofWholeOrReal Json.wholeLimit x = .ofInt i ↔ x.IsSmall i := by
  rw [Json.ofWholeOrReal]
  constructor
  · intro h
    split at h
    · next hsmall =>
      obtain ⟨j, hj⟩ := isSmall_iff.mpr hsmall
      rw [truncate_eq hj.value] at h
      cases h
      exact hj
    · cases h
  · intro h
    rw [if_pos (isSmall_iff.mp ⟨i, h⟩), truncate_eq h.value]

theorem ofWholeOrReal_eq_real (h : ∀ i, ¬ x.IsSmall i) :
    Json.ofWholeOrReal Json.wholeLimit x = .ofBinary64 x := by
  rw [Json.ofWholeOrReal, if_neg]
  intro hsmall
  obtain ⟨i, hi⟩ := isSmall_iff.mpr hsmall
  exact h i hi

theorem isSmall_zero (negative : Bool) : (zero negative).IsSmall 0 where
  isFinite := rfl
  value := by rw [value_zero, Int.cast_zero]
  bound := by norm_num [Json.wholeLimit]

/-- An integer below `2 ^ 53` is stored without a loss. -/
theorem isSmall_ofInt (h : |(i : Rat)| < Json.wholeLimit) : (ofInt i).IsSmall i := by
  have hbelow : i.natAbs < 2 ^ 53 := by
    rw [← Int.cast_abs, Int.abs_eq_natAbs, Json.wholeLimit] at h
    exact_mod_cast h
  obtain ⟨hfinite, hvalue⟩ := ofInt_exact hbelow.le
  exact ⟨hfinite, hvalue, h⟩

theorem value_neg (x : Binary64) : x.neg.value = -x.value := by
  cases x with
  | nan => exact neg_zero.symm
  | infinite negative => exact neg_zero.symm
  | finite negative m e =>
    rw [neg, value_finite, value_finite]
    cases negative <;> simp

theorem IsSmall.neg (h : x.IsSmall i) : x.neg.IsSmall (-i) where
  isFinite := by
    obtain ⟨s, m, e, rfl⟩ := eq_of_isFinite h.isFinite
    rfl
  value := by rw [value_neg, h.value, Int.cast_neg]
  bound := by simpa using h.bound

theorem isZero_iff (h : x.isFinite = true) : x.isZero = true ↔ x.value = 0 := by
  obtain ⟨s, m, e, rfl⟩ := eq_of_isFinite h
  have hpos : (2 : Rat) ^ e ≠ 0 := by positivity
  rw [value_finite, mul_eq_zero, or_iff_left hpos]
  cases m with
  | zero => cases s <;> simp [isZero]
  | succ m =>
    have hm : ((m + 1 : Nat) : Rat) ≠ 0 := by positivity
    cases s <;> simp only [isZero, Bool.false_eq_true, if_true, if_false, neg_eq_zero, hm]

/-- A number that is not zero has the sign of its value. -/
theorem isNegative_iff (h : x.isFinite = true) (hzero : x.isZero = false) :
    x.isNegative = true ↔ x.value < 0 := by
  obtain ⟨s, m, e, rfl⟩ := eq_of_isFinite h
  have hm : (0 : Rat) < m := by
    cases m with
    | zero => cases hzero
    | succ m => positivity
  have hpos : (0 : Rat) < m * 2 ^ e := by positivity
  rw [value_finite]
  cases s with
  | true => simpa [isNegative] using hpos
  | false => simpa [isNegative] using hpos.le

/-! ## Alike numbers -/

/-- The numbers come to one JSON number. -/
def Alike (x y : Binary64) : Prop :=
  Json.ofWholeOrReal Json.wholeLimit x = Json.ofWholeOrReal Json.wholeLimit y

theorem IsSmall.alike (hx : x.IsSmall i) (hy : y.IsSmall i) : Alike x y :=
  (ofWholeOrReal_eq_ofInt.mpr hx).trans (ofWholeOrReal_eq_ofInt.mpr hy).symm

theorem alike_cases (h : Alike x y) : x = y ∨ ∃ i, x.IsSmall i ∧ y.IsSmall i := by
  by_cases hx : ∃ i, x.IsSmall i
  · obtain ⟨i, hi⟩ := hx
    have hy := h.symm.trans (ofWholeOrReal_eq_ofInt.mpr hi)
    exact .inr ⟨i, hi, ofWholeOrReal_eq_ofInt.mp hy⟩
  · have hreal := ofWholeOrReal_eq_real (not_exists.mp hx)
    have hy : ∀ i, ¬ y.IsSmall i := fun i hi =>
      hx ⟨i, ofWholeOrReal_eq_ofInt.mp (h.trans (ofWholeOrReal_eq_ofInt.mpr hi))⟩
    rw [Alike, hreal, ofWholeOrReal_eq_real hy] at h
    cases h
    exact .inl rfl

/-- Of two results that are rounded from one rational, a zero may have either sign, and this makes
no difference. -/
theorem alike_of_rounded {q r : Rat} (hx : ∃ s, x = ofRat s q) (hy : ∃ s, y = ofRat s r)
    (h : q = r) : Alike x y := by
  obtain ⟨s, rfl⟩ := hx
  obtain ⟨t, rfl⟩ := hy
  rw [ofRat, ofRat, h]
  split
  · exact (isSmall_zero s).alike (isSmall_zero t)
  · rfl

/-- An operation makes alike numbers of alike ones if it does so where one operand is a small whole
number and the other stays as it is. -/
theorem Alike.both {f : Binary64 → Binary64 → Binary64} (hx : Alike x x') (hy : Alike y y')
    (left : ∀ i, x.IsSmall i → x'.IsSmall i → Alike (f x y) (f x' y))
    (right : ∀ i, y.IsSmall i → y'.IsSmall i → Alike (f x' y) (f x' y')) :
    Alike (f x y) (f x' y') := by
  have hleft : Alike (f x y) (f x' y) := by
    rcases alike_cases hx with rfl | ⟨i, h, h'⟩
    · rfl
    · exact left i h h'
  rcases alike_cases hy with rfl | ⟨i, h, h'⟩
  · exact hleft
  · exact hleft.trans (right i h h')

theorem Alike.neg (h : Alike x y) : Alike x.neg y.neg := by
  rcases alike_cases h with rfl | ⟨i, hx, hy⟩
  · rfl
  · exact hx.neg.alike hy.neg

theorem Alike.isFinite (h : Alike x y) : x.isFinite = y.isFinite := by
  rcases alike_cases h with rfl | ⟨i, hx, hy⟩
  · rfl
  · rw [hx.isFinite, hy.isFinite]

theorem Alike.isZero (h : Alike x y) : x.isZero = y.isZero := by
  rcases alike_cases h with rfl | ⟨i, hx, hy⟩
  · rfl
  · rw [Bool.eq_iff_iff, isZero_iff hx.isFinite, isZero_iff hy.isFinite, hx.value, hy.value]

/-- Alike numbers that are not zero have one sign. -/
theorem Alike.isNegative (h : Alike x y) (hzero : x.isZero = false) :
    x.isNegative = y.isNegative := by
  have hzero' : y.isZero = false := h.isZero ▸ hzero
  rcases alike_cases h with rfl | ⟨i, hx, hy⟩
  · rfl
  · rw [Bool.eq_iff_iff, isNegative_iff hx.isFinite hzero, isNegative_iff hy.isFinite hzero',
      hx.value, hy.value]

/-! ## Operations on alike numbers -/

theorem add_swap (x y : Binary64) : x.add y = y.add x := by
  cases x with
  | nan => cases y <;> rfl
  | infinite s =>
    cases y with
    | infinite t => cases s <;> cases t <;> rfl
    | _ => rfl
  | finite s m e =>
    cases y with
    | finite t n f => simp only [add, Bool.and_comm, add_comm]
    | _ => rfl

theorem mul_swap (x y : Binary64) : x.mul y = y.mul x := by
  have hsign : (x.isNegative != y.isNegative) = (y.isNegative != x.isNegative) := bne_comm
  cases x with
  | nan => cases y <;> rfl
  | infinite s =>
    cases y with
    | infinite t => cases s <;> cases t <;> rfl
    | nan => rfl
    | finite t n f => simp only [mul, hsign]
  | finite s m e =>
    cases y with
    | nan => rfl
    | infinite t => simp only [mul, hsign]
    | finite t n f => simp only [mul, hsign, mul_comm]

theorem IsSmall.add (h : x.IsSmall i) (h' : x'.IsSmall i) (y : Binary64) :
    Alike (x.add y) (x'.add y) := by
  cases hy : y.isFinite with
  | true =>
    exact alike_of_rounded (add_of_finite h.isFinite hy) (add_of_finite h'.isFinite hy)
      (by rw [h.value, h'.value])
  | false =>
    obtain ⟨_, _, _, rfl⟩ := eq_of_isFinite h.isFinite
    obtain ⟨_, _, _, rfl⟩ := eq_of_isFinite h'.isFinite
    cases y with
    | finite => cases hy
    | nan => rfl
    | infinite t => rfl

theorem Alike.add (hx : Alike x x') (hy : Alike y y') : Alike (x.add y) (x'.add y') := by
  refine hx.both hy (fun i h h' => h.add h' y) fun i h h' => ?_
  rw [add_swap x' y, add_swap x' y']
  exact h.add h' x'

theorem Alike.sub (hx : Alike x x') (hy : Alike y y') : Alike (x.sub y) (x'.sub y') :=
  hx.add hy.neg

theorem IsSmall.mul (h : x.IsSmall i) (h' : x'.IsSmall i) (y : Binary64) :
    Alike (x.mul y) (x'.mul y) := by
  cases hy : y.isFinite with
  | true =>
    exact alike_of_rounded (mul_of_finite h.isFinite hy) (mul_of_finite h'.isFinite hy)
      (by rw [h.value, h'.value])
  | false =>
    have hzero := (h.alike h').isZero
    have hnegative := (h.alike h').isNegative
    obtain ⟨_, _, _, rfl⟩ := eq_of_isFinite h.isFinite
    obtain ⟨_, _, _, rfl⟩ := eq_of_isFinite h'.isFinite
    cases y with
    | finite => cases hy
    | nan => rfl
    | infinite t =>
      -- An infinite factor sees whether the other one is zero, and its sign if it is not.
      simp only [Binary64.mul]
      rw [← hzero]
      split
      · rfl
      · next hne => rw [hnegative (Bool.eq_false_of_not_eq_true hne)]; rfl

theorem Alike.mul (hx : Alike x x') (hy : Alike y y') : Alike (x.mul y) (x'.mul y') := by
  refine hx.both hy (fun i h h' => h.mul h' y) fun i h h' => ?_
  rw [mul_swap x' y, mul_swap x' y']
  exact h.mul h' x'

/-- Division, by anything but zero. -/
theorem Alike.div (hx : Alike x x') (hy : Alike y y') (hzero : y.isZero = false) :
    Alike (x.div y) (x'.div y') := by
  have hzero' : y'.isZero = false := hy.isZero ▸ hzero
  apply hx.both hy
  · intro i h h'
    cases hfinite : y.isFinite with
    | true =>
      exact alike_of_rounded (div_of_finite h.isFinite hfinite hzero)
        (div_of_finite h'.isFinite hfinite hzero) (by rw [h.value, h'.value])
    | false =>
      obtain ⟨_, _, _, rfl⟩ := eq_of_isFinite h.isFinite
      obtain ⟨_, _, _, rfl⟩ := eq_of_isFinite h'.isFinite
      cases y with
      | finite => cases hfinite
      | nan => rfl
      | infinite t =>
        -- The quotient is a zero, whose sign the dividend gives.
        exact (isSmall_zero _).alike (isSmall_zero _)
  · intro i h h'
    cases hfinite : x'.isFinite with
    | true =>
      exact alike_of_rounded (div_of_finite hfinite h.isFinite hzero)
        (div_of_finite hfinite h'.isFinite hzero') (by rw [h.value, h'.value])
    | false =>
      have hnegative := hy.isNegative hzero
      obtain ⟨_, _, _, rfl⟩ := eq_of_isFinite h.isFinite
      obtain ⟨_, _, _, rfl⟩ := eq_of_isFinite h'.isFinite
      cases x' with
      | finite => cases hfinite
      | nan => rfl
      | infinite t =>
        -- An infinite dividend sees the sign of the divisor alone.
        simp only [Binary64.div, hnegative]
        rfl

theorem rem_of_finite (hx : x.isFinite = true) (hy : y.isFinite = true)
    (hzero : y.isZero = false) :
    ∃ s, x.rem y = ofRat s (x.value - truncRat (x.value / y.value) * y.value) := by
  obtain ⟨_, _, _, rfl⟩ := eq_of_isFinite hx
  obtain ⟨_, _, _, rfl⟩ := eq_of_isFinite hy
  exact ⟨_, by simp only [rem, hzero]; rfl⟩

/-- The remainder, by anything but zero. -/
theorem Alike.rem (hx : Alike x x') (hy : Alike y y') (hzero : y.isZero = false) :
    Alike (x.rem y) (x'.rem y') := by
  have hzero' : y'.isZero = false := hy.isZero ▸ hzero
  apply hx.both hy
  · intro i h h'
    cases hfinite : y.isFinite with
    | true =>
      exact alike_of_rounded (rem_of_finite h.isFinite hfinite hzero)
        (rem_of_finite h'.isFinite hfinite hzero) (by rw [h.value, h'.value])
    | false =>
      obtain ⟨_, _, _, rfl⟩ := eq_of_isFinite h.isFinite
      obtain ⟨_, _, _, rfl⟩ := eq_of_isFinite h'.isFinite
      cases y with
      | finite => cases hfinite
      | nan => rfl
      | infinite t =>
        -- The remainder is the dividend itself.
        exact hx
  · intro i h h'
    cases hfinite : x'.isFinite with
    | true =>
      exact alike_of_rounded (rem_of_finite hfinite h.isFinite hzero)
        (rem_of_finite hfinite h'.isFinite hzero') (by rw [h.value, h'.value])
    | false =>
      obtain ⟨_, _, _, rfl⟩ := eq_of_isFinite h.isFinite
      obtain ⟨_, _, _, rfl⟩ := eq_of_isFinite h'.isFinite
      cases x' with
      | finite => cases hfinite
      | nan => rfl
      | infinite t => rfl

theorem IsSmall.compare? (hx : x.IsSmall i) (hx' : x'.IsSmall i) (y : Binary64) :
    x.compare? y = x'.compare? y ∧ y.compare? x = y.compare? x' := by
  cases hy : y.isFinite with
  | true =>
    rw [compare?_of_finite hx.isFinite hy, compare?_of_finite hx'.isFinite hy,
      compare?_of_finite hy hx.isFinite, compare?_of_finite hy hx'.isFinite, hx.value, hx'.value]
    exact ⟨rfl, rfl⟩
  | false =>
    obtain ⟨_, _, _, rfl⟩ := eq_of_isFinite hx.isFinite
    obtain ⟨_, _, _, rfl⟩ := eq_of_isFinite hx'.isFinite
    cases y with
    | finite => cases hy
    | nan => exact ⟨rfl, rfl⟩
    | infinite t => exact ⟨rfl, rfl⟩

theorem Alike.compare? (hx : Alike x x') (hy : Alike y y') : x.compare? y = x'.compare? y' := by
  have hleft : x.compare? y = x'.compare? y := by
    rcases alike_cases hx with rfl | ⟨i, h, h'⟩
    · rfl
    · exact (h.compare? h' y).1
  rcases alike_cases hy with rfl | ⟨i, h, h'⟩
  · exact hleft
  · exact hleft.trans (h.compare? h' x').2

/-- A number that is equal to a small whole one is the same whole number. -/
theorem IsSmall.of_same (h : x.IsSmall i) (hsame : x.same y = true) : y.IsSmall i := by
  have horder : x.compare? y = some .eq := of_decide_eq_true hsame
  cases hy : y.isFinite with
  | true =>
    rw [compare?_of_finite h.isFinite hy] at horder
    refine ⟨hy, ?_, h.bound⟩
    by_contra hne
    rcases lt_or_gt_of_ne hne with hless | hless
    · rw [h.value, if_neg hless.not_gt, if_pos hless] at horder
      cases horder
    · rw [h.value, if_pos hless] at horder
      cases horder
  | false =>
    obtain ⟨_, _, _, rfl⟩ := eq_of_isFinite h.isFinite
    cases y with
    | finite => cases hy
    | nan => cases horder
    | infinite t => cases t <;> cases horder

theorem same_swap (h : x.same y = true) : y.same x = true := by
  have horder : x.compare? y = some .eq := of_decide_eq_true h
  apply decide_eq_true
  cases x with
  | nan => cases horder
  | infinite s =>
    cases y with
    | nan => cases horder
    | infinite t => cases s <;> cases t <;> first | rfl | cases horder
    | finite => cases s <;> cases horder
  | finite s m e =>
    cases y with
    | nan => cases horder
    | infinite t => cases t <;> cases horder
    | finite t n f =>
      rw [compare?_of_finite rfl rfl] at horder ⊢
      split at horder
      · cases horder
      · split at horder
        · cases horder
        · next hnot hnot' => rw [if_neg hnot', if_neg hnot]

end Binary64

end Dialogue
