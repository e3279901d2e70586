import Dialogue.Number.Binary64
import Mathlib.Algebra.Order.Field.Power
import Mathlib.Algebra.Order.Field.Rat
import Mathlib.Algebra.Order.Ring.Pow
import Mathlib.Tactic.FieldSimp
import Mathlib.Tactic.Linarith
import Mathlib.Tactic.NormNum
import Mathlib.Tactic.Positivity
import Mathlib.Tactic.Ring

/-!
How far rounding can raise a result.

A quotient is rounded to a multiple of a power of two, and goes up by half of that at most
(`roundDiv_le`, `inUnits_le`). As the multiple has 53 bits or the power is the least one, a bound on
the exact result that is not below `2 ^ -1022`, times `slack`, bounds the rounded one
(`ofRat_atMost`); and a result is infinite only if the bound reaches `2 ^ 1023`.

`Binary64.AtMost` states both at once of a number that is not negative. Each operation multiplies
the bounds and one `slack`, and a power by squaring comes to one `slack` for each factor
(`powLoop_atMost`).
-/
namespace Dialogue

namespace Binary64

/-! ## Rounding a quotient -/

theorem cast_twoTo (n : Nat) : ((twoTo n : Nat) : Rat) = 2 ^ n := by
  show ((2 ^ n : Nat) : Rat) = 2 ^ n
  push_cast
  rfl

theorem twoTo_pos (n : Nat) : 0 < twoTo n := Nat.pow_pos (by decide)

/-- A rounded quotient is at most half a unit above the exact one. -/
theorem roundDiv_le (n : Nat) {d : Nat} (hd : 0 < d) :
    (roundDiv n d : Rat) ≤ (n : Rat) / d + 1 / 2 := by
  have hsplit : d * (n / d) + n % d = n := Nat.div_add_mod n d
  have hrest : n % d < d := Nat.mod_lt n hd
  have hhalf : 2 * (d * roundDiv n d) ≤ 2 * n + d := by
    simp only [roundDiv]
    split
    · omega
    · split
      · rw [Nat.mul_add]
        omega
      · have htie : d * (n / d + n / d % 2) ≤ d * (n / d + 1) :=
          Nat.mul_le_mul_left d (by omega)
        rw [Nat.mul_add d (n / d) 1] at htie
        omega
  have hpos : (0 : Rat) < d := by exact_mod_cast hd
  have hcast : 2 * ((d : Rat) * roundDiv n d) ≤ 2 * n + d := by exact_mod_cast hhalf
  rw [div_add_div _ _ hpos.ne' two_ne_zero, le_div_iff₀ (by positivity)]
  linarith

theorem inUnits_le (n : Nat) {d : Nat} (hd : 0 < d) (e : Int) :
    (inUnits n d e : Rat) ≤ (n : Rat) / d / 2 ^ e + 1 / 2 := by
  by_cases he : 0 ≤ e
  · obtain ⟨k, rfl⟩ := Int.eq_ofNat_of_zero_le he
    have h := roundDiv_le n (Nat.mul_pos hd (twoTo_pos k))
    simp only [inUnits, he, if_true, Int.toNat_natCast]
    push_cast [cast_twoTo] at h
    rwa [zpow_natCast, div_div]
  · obtain ⟨k, hk⟩ := Int.eq_ofNat_of_zero_le (by omega : 0 ≤ -e)
    have he' : e = -(k : Int) := by omega
    subst he'
    have h := roundDiv_le (n * twoTo k) hd
    simp only [inUnits, he, if_false, Int.neg_neg, Int.toNat_natCast]
    push_cast [cast_twoTo] at h
    rwa [zpow_neg, zpow_natCast, div_inv_eq_mul, div_mul_eq_mul_div]

/-- The power of two with the exponent `floorLog2` is not above the quotient. -/
theorem floorLog2_le {n d : Nat} (hn : 0 < n) (hd : 0 < d) :
    (2 : Rat) ^ floorLog2 n d ≤ (n : Rat) / d := by
  have hpos : (0 : Rat) < d := by exact_mod_cast hd
  rw [le_div_iff₀ hpos]
  simp only [floorLog2]
  generalize hk : (n.log2 : Int) - d.log2 = k
  -- The exponent of the logarithms is taken if it is reached; one less is reached in any case.
  have hless : (2 : Rat) ^ (k - 1) * d ≤ n := by
    have hlow : (2 : Rat) ^ n.log2 ≤ n := by exact_mod_cast Nat.log2_self_le hn.ne'
    have hhigh : (d : Rat) ≤ 2 ^ (d.log2 + 1) := by exact_mod_cast Nat.lt_log2_self.le
    calc (2 : Rat) ^ (k - 1) * d
        ≤ 2 ^ (k - 1) * 2 ^ (d.log2 + 1) := mul_le_mul_of_nonneg_left hhigh (by positivity)
      _ = 2 ^ (n.log2 : Int) := by
        rw [← zpow_natCast, ← zpow_add₀ two_ne_zero]
        congr 1
        push_cast
        omega
      _ ≤ n := by rwa [zpow_natCast]
  by_cases hsign : 0 ≤ k
  · obtain ⟨j, rfl⟩ := Int.eq_ofNat_of_zero_le hsign
    simp only [hsign, if_true, Int.toNat_natCast]
    split
    · next hreached =>
      have hcast : (d : Rat) * 2 ^ j ≤ n := by exact_mod_cast hreached
      rwa [zpow_natCast, mul_comm]
    · exact hless
  · obtain ⟨j, hj⟩ := Int.eq_ofNat_of_zero_le (by omega : 0 ≤ -k)
    simp only [hsign, if_false, hj, Int.toNat_natCast]
    split
    · next hreached =>
      have hcast : (d : Rat) ≤ n * 2 ^ j := by exact_mod_cast hreached
      have hk' : k = -(j : Int) := by omega
      rw [hk', zpow_neg, zpow_natCast, inv_mul_le_iff₀ (by positivity), mul_comm]
      exact hcast
    · exact hless

/-! ## Values -/

theorem value_finite (negative : Bool) (m : Nat) (e : Int) :
    (finite negative m e).value = (if negative then -(m : Rat) else m) * 2 ^ e := by
  have hsign : (((if negative then -(m : Int) else m : Int)) : Rat) =
      if negative then -(m : Rat) else m := by
    cases negative <;> simp
  by_cases he : 0 ≤ e
  · obtain ⟨k, rfl⟩ := Int.eq_ofNat_of_zero_le he
    simp only [value, he, if_true, Int.toNat_natCast, zpow_natCast]
    rw [← hsign]
    push_cast [cast_twoTo]
    rfl
  · obtain ⟨k, hk⟩ := Int.eq_ofNat_of_zero_le (by omega : 0 ≤ -e)
    have he' : e = -(k : Int) := by omega
    simp only [value, he, if_false, hk, Int.toNat_natCast]
    rw [he', zpow_neg, zpow_natCast, ← hsign, Rat.mkRat_eq_div, cast_twoTo, div_eq_mul_inv]

theorem value_zero (negative : Bool) : (zero negative).value = 0 := by
  rw [zero, value_finite]
  cases negative <;> simp

/-! ## Bounds -/

/-- The factor by which rounding raises a bound. -/
def slack : Rat := 1 + 1 / 2 ^ 53

/-- The least number of 53 bits: from it on the error is relative. -/
def normal : Rat := 2 ^ (-1022 : Int)

/-- The number is not negative and at most `b`. What is no number proper has outgrown the finite
ones, and so has its bound. -/
structure AtMost (x : Binary64) (b : Rat) : Prop where
  value_nonneg : 0 ≤ x.value
  value_le : x.value ≤ b
  great : x.isFinite = false → 2 ^ 1023 ≤ b

theorem slack_pos : 0 < slack := by norm_num [slack]

theorem one_le_slack : 1 ≤ slack := by norm_num [slack]

theorem normal_le_one : normal ≤ 1 := zpow_le_one_of_nonpos₀ one_le_two (by norm_num)

theorem le_mul_slack {b : Rat} (h : 0 ≤ b) : b ≤ b * slack := le_mul_of_one_le_right h one_le_slack

theorem AtMost.mono {x : Binary64} {b b' : Rat} (h : x.AtMost b) (hb : b ≤ b') : x.AtMost b' where
  value_nonneg := h.value_nonneg
  value_le := h.value_le.trans hb
  great := fun hx => (h.great hx).trans hb

theorem AtMost.nonneg {x : Binary64} {b : Rat} (h : x.AtMost b) : 0 ≤ b :=
  h.value_nonneg.trans h.value_le

theorem AtMost.isFinite {x : Binary64} {b : Rat} (h : x.AtMost b) (hb : b < 2 ^ 1023) :
    x.isFinite = true := by
  by_contra hx
  exact absurd (h.great (Bool.eq_false_of_not_eq_true hx)) (not_le_of_gt hb)

/-- Bounds that a computation comes to stay far below `2 ^ 1023`. -/
theorem AtMost.isFinite_of_le {x : Binary64} {b : Rat} (h : x.AtMost b) (hb : b ≤ 2 ^ 128) :
    x.isFinite = true :=
  h.isFinite (hb.trans_lt (pow_lt_pow_right₀ one_lt_two (by decide)))

theorem atMost_zero (negative : Bool) {b : Rat} (hb : 0 ≤ b) : (zero negative).AtMost b where
  value_nonneg := (value_zero negative).ge
  value_le := (value_zero negative).le.trans hb
  great := fun h => absurd h (by simp [zero, Binary64.isFinite])

theorem atMost_of_not_finite {x : Binary64} {b : Rat} (hx : x.isFinite = false)
    (hb : 2 ^ 1023 ≤ b) : x.AtMost b := by
  have hvalue : x.value = 0 := by
    cases x with
    | finite negative m e => cases hx
    | nan => rfl
    | infinite negative => rfl
  have hpos : (0 : Rat) ≤ 2 ^ 1023 := by positivity
  exact ⟨hvalue.ge, hvalue.le.trans (hpos.trans hb), fun _ => hb⟩

theorem atMost_of_value {m : Nat} {e : Int} {v b : Rat} (hvalue : (finite false m e).value = v)
    (hv : 0 ≤ v) (hb : v ≤ b) : (finite false m e).AtMost b where
  value_nonneg := hv.trans hvalue.ge
  value_le := hvalue.le.trans hb
  great := fun h => absurd h (by simp [Binary64.isFinite])

/-- The unit of a rounded quotient is small beside a bound: half of it is `2 ^ -53` of the bound. -/
theorem half_unit_le {n d : Nat} (hn : 0 < n) (hd : 0 < d) {b : Rat} (hb : (n : Rat) / d ≤ b)
    (hnormal : normal ≤ b) :
    (2 : Rat) ^ max leastExponent (floorLog2 n d - 52) / 2 ≤ b / 2 ^ 53 := by
  have hunit : ∀ k : Int, (2 : Rat) ^ (k - 52) / 2 = 2 ^ k / 2 ^ 53 := by
    intro k
    rw [zpow_sub₀ two_ne_zero]
    norm_num
    ring
  rcases max_choice leastExponent (floorLog2 n d - 52) with h | h
  · rw [h, show leastExponent = -1022 - 52 from rfl, hunit]
    exact div_le_div_of_nonneg_right hnormal (by positivity)
  · rw [h, hunit]
    exact div_le_div_of_nonneg_right ((floorLog2_le hn hd).trans hb) (by positivity)

theorem inUnits_mul_le {n d : Nat} (hn : 0 < n) (hd : 0 < d) {b : Rat} (hb : (n : Rat) / d ≤ b)
    (hnormal : normal ≤ b) {e : Int} (he : e = max leastExponent (floorLog2 n d - 52)) :
    (inUnits n d e : Rat) * 2 ^ e ≤ b * slack := by
  have hpos : (0 : Rat) < 2 ^ e := by positivity
  have hhalf : (2 : Rat) ^ e / 2 ≤ b / 2 ^ 53 := he ▸ half_unit_le hn hd hb hnormal
  calc (inUnits n d e : Rat) * 2 ^ e
      ≤ ((n : Rat) / d / 2 ^ e + 1 / 2) * 2 ^ e :=
        mul_le_mul_of_nonneg_right (inUnits_le n hd e) hpos.le
    _ = (n : Rat) / d + 2 ^ e / 2 := by
        rw [add_mul, div_mul_cancel₀ _ hpos.ne']
        ring
    _ ≤ b + b / 2 ^ 53 := add_le_add hb hhalf
    _ = b * slack := by rw [slack]; ring

/-- A quotient in the range of infinity is beyond every smaller bound. -/
theorem le_of_great {n d : Nat} (hn : 0 < n) (hd : 0 < d) {b : Rat} (hb : (n : Rat) / d ≤ b)
    (hgreat : greatestExponent ≤ max leastExponent (floorLog2 n d - 52)) : 2 ^ 1023 ≤ b := by
  have hexponent : 1023 ≤ floorLog2 n d := by
    simp only [greatestExponent, leastExponent] at hgreat
    omega
  calc (2 : Rat) ^ 1023 = 2 ^ (1023 : Int) := by norm_num
    _ ≤ 2 ^ floorLog2 n d := zpow_le_zpow_right₀ one_le_two hexponent
    _ ≤ (n : Rat) / d := floorLog2_le hn hd
    _ ≤ b := hb

/-- What a quotient is rounded to: the multiple of the unit, or infinity, which a unit that is the
greatest one at least may lead to. -/
theorem ofRatio_cases (negative : Bool) {n : Nat} (hn : n ≠ 0) (d : Nat) {e : Int}
    (he : e = max leastExponent (floorLog2 n d - 52)) :
    (ofRatio negative n d = .infinite negative ∧ greatestExponent ≤ e) ∨
      ∃ m e', ofRatio negative n d = .finite negative m e' ∧
        (m : Rat) * 2 ^ e' = inUnits n d e * 2 ^ e := by
  simp only [ofRatio, hn, if_false, ← he]
  -- A mantissa of 54 bits is a power of two, and is carried into the exponent.
  by_cases hcarry : inUnits n d e = 2 * leastNormal
  · simp only [hcarry, if_true]
    by_cases hover : greatestExponent < e + 1
    · rw [if_pos hover]
      exact .inl ⟨rfl, Int.lt_add_one_iff.mp hover⟩
    · rw [if_neg hover]
      refine .inr ⟨_, _, rfl, ?_⟩
      rw [zpow_add_one₀ two_ne_zero]
      push_cast
      ring
  · simp only [hcarry, if_false]
    by_cases hover : greatestExponent < e
    · rw [if_pos hover]
      exact .inl ⟨rfl, hover.le⟩
    · rw [if_neg hover]
      exact .inr ⟨_, _, rfl, rfl⟩

theorem ofRatio_atMost (n : Nat) {d : Nat} (hd : 0 < d) {b : Rat} (hb : (n : Rat) / d ≤ b)
    (hnormal : n ≠ 0 → normal ≤ b) : (ofRatio false n d).AtMost (b * slack) := by
  have hpos : 0 ≤ b := le_trans (by positivity) hb
  by_cases hn : n = 0
  · rw [ofRatio, if_pos hn]
    exact atMost_zero false (mul_nonneg hpos slack_pos.le)
  · have hn' : 0 < n := Nat.pos_of_ne_zero hn
    rcases ofRatio_cases false hn d rfl with ⟨h, hgreat⟩ | ⟨m, e, h, hvalue⟩
    · rw [h]
      exact atMost_of_not_finite rfl ((le_of_great hn' hd hb hgreat).trans (le_mul_slack hpos))
    · rw [h]
      refine atMost_of_value (v := m * 2 ^ e) ?_ (by positivity) ?_
      · rw [value_finite]
        simp only [Bool.false_eq_true, if_false]
      · rw [hvalue]
        exact inUnits_mul_le hn' hd hb (hnormal hn) rfl

/-- Rounding raises a bound by the factor `slack`, if the bound is not below the numbers of 53
bits. -/
theorem ofRat_atMost (negative : Bool) {q b : Rat} (hq : 0 ≤ q) (hb : q ≤ b)
    (hnormal : q ≠ 0 → normal ≤ b) : (ofRat negative q).AtMost (b * slack) := by
  have hnum : 0 ≤ q.num := Rat.num_nonneg.mpr hq
  by_cases hzero : q.num = 0
  · rw [ofRat, if_pos hzero]
    exact atMost_zero negative (mul_nonneg (hq.trans hb) slack_pos.le)
  · have hquotient : ((q.num.natAbs : Nat) : Rat) / q.den = q := by
      have habs : ((q.num.natAbs : Nat) : Rat) = q.num := by
        rw [← Int.cast_natCast, Int.natAbs_of_nonneg hnum]
      rw [habs, Rat.num_div_den]
    have hsign : decide (q.num < 0) = false := decide_eq_false (not_lt_of_ge hnum)
    rw [ofRat, if_neg hzero, hsign]
    apply ofRatio_atMost _ q.den_pos (hquotient.le.trans hb)
    exact fun _ => hnormal fun h => hzero (h ▸ Rat.num_zero)

theorem ofNat_atMost (n : Nat) : (ofNat n).AtMost (n * slack) := by
  apply ofRatio_atMost n Nat.one_pos (by simp)
  intro hn
  have hone : (1 : Rat) ≤ n := by exact_mod_cast Nat.pos_of_ne_zero hn
  exact normal_le_one.trans hone

/-! ## Operations -/

theorem eq_of_isFinite {x : Binary64} (hx : x.isFinite = true) : ∃ s m e, x = .finite s m e := by
  cases x with
  | finite s m e => exact ⟨s, m, e, rfl⟩
  | nan => cases hx
  | infinite negative => cases hx

theorem compare?_of_finite {x y : Binary64} (hx : x.isFinite = true) (hy : y.isFinite = true) :
    x.compare? y =
      some (if x.value < y.value then .lt else if y.value < x.value then .gt else .eq) := by
  obtain ⟨_, _, _, rfl⟩ := eq_of_isFinite hx
  obtain ⟨_, _, _, rfl⟩ := eq_of_isFinite hy
  rfl

theorem add_of_finite {x y : Binary64} (hx : x.isFinite = true) (hy : y.isFinite = true) :
    ∃ s, x.add y = ofRat s (x.value + y.value) := by
  obtain ⟨_, _, _, rfl⟩ := eq_of_isFinite hx
  obtain ⟨_, _, _, rfl⟩ := eq_of_isFinite hy
  exact ⟨_, rfl⟩

theorem mul_of_finite {x y : Binary64} (hx : x.isFinite = true) (hy : y.isFinite = true) :
    ∃ s, x.mul y = ofRat s (x.value * y.value) := by
  obtain ⟨_, _, _, rfl⟩ := eq_of_isFinite hx
  obtain ⟨_, _, _, rfl⟩ := eq_of_isFinite hy
  exact ⟨_, rfl⟩

theorem div_of_finite {x y : Binary64} (hx : x.isFinite = true) (hy : y.isFinite = true)
    (hzero : y.isZero = false) : ∃ s, x.div y = ofRat s (x.value / y.value) := by
  obtain ⟨_, _, _, rfl⟩ := eq_of_isFinite hx
  obtain ⟨_, _, _, rfl⟩ := eq_of_isFinite hy
  exact ⟨_, by simp only [div, hzero]; rfl⟩

theorem isFinite_mul {x y : Binary64} (h : x.isFinite = false ∨ y.isFinite = false) :
    (x.mul y).isFinite = false := by
  have hchoice : ∀ c s : Bool, (if c then nan else infinite s).isFinite = false := by
    intro c s
    cases c <;> rfl
  cases x with
  | nan => rfl
  | infinite s =>
    cases y with
    | nan => rfl
    | infinite t => rfl
    | finite t m e => exact hchoice _ _
  | finite s m e =>
    cases y with
    | nan => rfl
    | infinite t => exact hchoice _ _
    | finite t m' e' => exact absurd h (by simp [isFinite])

theorem add_atMost_of_finite {x y : Binary64} {b b' : Rat} (hx : x.AtMost b) (hy : y.AtMost b')
    (fx : x.isFinite = true) (fy : y.isFinite = true) (hnormal : normal ≤ b + b') :
    (x.add y).AtMost ((b + b') * slack) := by
  obtain ⟨s, hs⟩ := add_of_finite fx fy
  rw [hs]
  apply ofRat_atMost s (add_nonneg hx.value_nonneg hy.value_nonneg) _ fun _ => hnormal
  exact add_le_add hx.value_le hy.value_le

theorem mul_atMost_of_finite {x y : Binary64} {b b' : Rat} (hx : x.AtMost b) (hy : y.AtMost b')
    (fx : x.isFinite = true) (fy : y.isFinite = true) (hnormal : normal ≤ b * b') :
    (x.mul y).AtMost (b * b' * slack) := by
  obtain ⟨s, hs⟩ := mul_of_finite fx fy
  rw [hs]
  apply ofRat_atMost s (mul_nonneg hx.value_nonneg hy.value_nonneg) _ fun _ => hnormal
  exact mul_le_mul hx.value_le hy.value_le hy.value_nonneg hx.nonneg

theorem mul_atMost {x y : Binary64} {b b' : Rat} (hx : x.AtMost b) (hy : y.AtMost b')
    (hb : 1 ≤ b) (hb' : 1 ≤ b') : (x.mul y).AtMost (b * b' * slack) := by
  have hproduct : 1 ≤ b * b' := one_le_mul_of_one_le_of_one_le hb hb'
  have hraised : b * b' ≤ b * b' * slack := le_mul_slack (zero_le_one.trans hproduct)
  by_cases fx : x.isFinite = true
  · by_cases fy : y.isFinite = true
    · exact mul_atMost_of_finite hx hy fx fy (normal_le_one.trans hproduct)
    · have hy' := hy.great (Bool.eq_false_of_not_eq_true fy)
      apply atMost_of_not_finite (isFinite_mul (.inr (Bool.eq_false_of_not_eq_true fy)))
      exact (hy'.trans (le_mul_of_one_le_left hy.nonneg hb)).trans hraised
  · have hx' := hx.great (Bool.eq_false_of_not_eq_true fx)
    apply atMost_of_not_finite (isFinite_mul (.inl (Bool.eq_false_of_not_eq_true fx)))
    exact (hx'.trans (le_mul_of_one_le_right hx.nonneg hb')).trans hraised

/-- A power by squaring is raised by one rounding for each factor at most. -/
theorem powLoop_atMost {acc x : Binary64} {a b : Rat} (hacc : acc.AtMost a) (hx : x.AtMost b)
    (ha : 1 ≤ a) (hb : 1 ≤ b) (n : Nat) : (powLoop acc x n).AtMost (a * (b * slack) ^ n) := by
  induction n using Nat.strongRecOn generalizing acc x a b with
  | ind n ih =>
    rw [powLoop]
    split
    · next hn => rw [hn, pow_zero, mul_one]; exact hacc
    · next hn =>
      -- A square has one slack of its own, so that its bound is that of two factors.
      have hhalf : n / 2 < n := Nat.div_lt_self (Nat.pos_of_ne_zero hn) (by decide)
      have hsquare := mul_atMost hx hx hb hb
      have hb' : 1 ≤ b * slack := one_le_mul_of_one_le_of_one_le hb one_le_slack
      have hsquare' : 1 ≤ b * b * slack :=
        one_le_mul_of_one_le_of_one_le (one_le_mul_of_one_le_of_one_le hb hb) one_le_slack
      have hpower : (b * b * slack * slack) ^ (n / 2) = (b * slack) ^ (2 * (n / 2)) := by
        rw [pow_mul]
        congr 1
        ring
      rcases Nat.mod_two_eq_zero_or_one n with heven | hodd
      · simp only [heven, Nat.zero_ne_one, if_false]
        have h := ih (n / 2) hhalf hacc hsquare ha hsquare'
        rw [hpower] at h
        rwa [show 2 * (n / 2) = n by omega] at h
      · simp only [hodd, if_true]
        have hproduct : 1 ≤ a * b * slack :=
          one_le_mul_of_one_le_of_one_le (one_le_mul_of_one_le_of_one_le ha hb) one_le_slack
        have h := ih (n / 2) hhalf (mul_atMost hacc hx ha hb) hsquare hproduct hsquare'
        rw [hpower] at h
        have hjoined : a * b * slack * (b * slack) ^ (2 * (n / 2)) = a * (b * slack) ^ n := by
          rw [mul_assoc a, mul_assoc a, ← pow_succ']
          congr 2
          omega
        rwa [hjoined] at h

end Binary64

end Dialogue
