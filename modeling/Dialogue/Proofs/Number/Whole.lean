import Dialogue.Proofs.Number.Rounding

/-!
Whole numbers as binary64 numbers.

Of a natural that has more than 53 bits, the places below the 53rd are rounded away: `nearest` is
what is left, and it is what the nearest binary64 number denotes, unless that is infinite
(`ofRatio_whole`). Rounding keeps the order (`nearest_mono`), changes nothing up to `2 ^ 53`
(`nearest_of_le`), and changes no natural by more than half of its last place (`nearest_close`).

`rounded` is the same for whole numbers with a sign. Two of them are the same number after rounding
only if both reach `2 ^ 53` and they are no further apart than their last places allow
(`rounded_eq_cases`).
-/
namespace Dialogue

namespace Binary64

/-! ## Rounding to a multiple -/

/-- A quotient is rounded down if the rest is at most half of the divisor, and up if it is at least
half. -/
theorem roundDiv_cases (n d : Nat) :
    (roundDiv n d = n / d ∧ 2 * (n % d) ≤ d) ∨ (roundDiv n d = n / d + 1 ∧ d ≤ 2 * (n % d)) := by
  simp only [roundDiv]
  split
  · exact .inl ⟨rfl, by omega⟩
  · split
    · exact .inr ⟨rfl, by omega⟩
    · rcases Nat.mod_two_eq_zero_or_one (n / d) with h | h
      · exact .inl ⟨by omega, by omega⟩
      · exact .inr ⟨by omega, by omega⟩

theorem roundDiv_mul (q : Nat) {d : Nat} (hd : 0 < d) : roundDiv (q * d) d = q := by
  have hquotient : q * d / d = q := Nat.mul_div_cancel q hd
  have hrest : q * d % d = 0 := Nat.mul_mod_left q d
  simp [roundDiv, hquotient, hrest, hd]

theorem roundDiv_mono {n n' : Nat} (h : n ≤ n') (d : Nat) : roundDiv n d ≤ roundDiv n' d := by
  have hquotient : n / d ≤ n' / d := Nat.div_le_div_right h
  rcases Nat.lt_or_eq_of_le hquotient with hless | heq
  · -- The next multiple is between the two.
    rcases roundDiv_cases n d with ⟨hn, -⟩ | ⟨hn, -⟩ <;>
      rcases roundDiv_cases n' d with ⟨hn', -⟩ | ⟨hn', -⟩ <;> omega
  · have hrest : n % d ≤ n' % d := by
      have hn := Nat.div_add_mod n d
      have hn' := Nat.div_add_mod n' d
      rw [heq] at hn
      omega
    simp only [roundDiv, heq]
    split_ifs <;> omega

/-- A number that is rounded to a multiple is no further from it than half of the divisor. -/
theorem roundDiv_close (n : Nat) {d : Nat} (hd : 0 < d) :
    2 * (roundDiv n d * d) ≤ 2 * n + d ∧ 2 * n ≤ 2 * (roundDiv n d * d) + d := by
  have hsplit := Nat.div_add_mod n d
  rw [Nat.mul_comm] at hsplit
  rcases roundDiv_cases n d with ⟨h, hrest⟩ | ⟨h, hrest⟩
  · rw [h]
    omega
  · have hless := Nat.mod_lt n hd
    rw [h, Nat.add_mul, Nat.one_mul]
    omega

/-! ## Naturals -/

/-- How many places of a natural are below its 53 first ones. -/
def place (n : Nat) : Nat := n.log2 - 52

/-- The natural with its places below the 53rd rounded away. -/
def nearest (n : Nat) : Nat := roundDiv n (twoTo (place n)) * twoTo (place n)

theorem nearest_of_lt {n : Nat} (h : n < 2 ^ 53) : nearest n = n := by
  have hplace : place n = 0 := by
    by_cases hn : n = 0
    · rw [hn]
      rfl
    · have hlog := (Nat.log2_lt hn).mpr h
      rw [place]
      omega
  have hround := roundDiv_mul n Nat.one_pos
  rw [Nat.mul_one] at hround
  rw [nearest, hplace, show twoTo 0 = 1 from rfl, hround, Nat.mul_one]

/-- From `2 ^ 52` on a natural has 53 places and those below them. -/
theorem twoTo_place_le {n : Nat} (h : 2 ^ 52 ≤ n) : twoTo (place n) * 2 ^ 52 ≤ n := by
  have hn : n ≠ 0 := by
    rintro rfl
    exact absurd h (by decide)
  have hlog : 52 ≤ n.log2 := (Nat.le_log2 hn).mpr h
  calc twoTo (place n) * 2 ^ 52 = 2 ^ (place n + 52) := (Nat.pow_add 2 _ _).symm
    _ = 2 ^ n.log2 := by rw [place, Nat.sub_add_cancel hlog]
    _ ≤ n := Nat.log2_self_le hn

/-- A power of two is a multiple of each smaller one. -/
theorem roundDiv_pow_mul {k p : Nat} (h : p ≤ k) :
    roundDiv (2 ^ k) (twoTo p) * twoTo p = 2 ^ k := by
  have hfactor : 2 ^ (k - p) * twoTo p = 2 ^ k := by
    rw [show twoTo p = 2 ^ p from rfl, ← Nat.pow_add, Nat.sub_add_cancel h]
  conv_lhs => rw [← hfactor]
  rw [roundDiv_mul _ (twoTo_pos p), hfactor]

/-- Rounding keeps the order. -/
theorem nearest_mono {n n' : Nat} (h : n ≤ n') : nearest n ≤ nearest n' := by
  by_cases hn : n = 0
  · rw [hn]
    exact Nat.zero_le _
  have hn' : n' ≠ 0 := by omega
  have hlog : n.log2 ≤ n'.log2 :=
    (Nat.le_log2 hn').mpr ((Nat.log2_self_le hn).trans h)
  rcases Nat.lt_or_eq_of_le hlog with hless | heq
  · -- Between the two there is a power of two, and rounding crosses none.
    have hbelow : n ≤ 2 ^ n'.log2 :=
      Nat.lt_log2_self.le.trans (Nat.pow_le_pow_right (by decide) hless)
    calc nearest n ≤ roundDiv (2 ^ n'.log2) (twoTo (place n)) * twoTo (place n) :=
          Nat.mul_le_mul_right _ (roundDiv_mono hbelow _)
      _ = 2 ^ n'.log2 := roundDiv_pow_mul ((Nat.sub_le _ _).trans hlog)
      _ = roundDiv (2 ^ n'.log2) (twoTo (place n')) * twoTo (place n') :=
          (roundDiv_pow_mul (Nat.sub_le _ _)).symm
      _ ≤ nearest n' := Nat.mul_le_mul_right _ (roundDiv_mono (Nat.log2_self_le hn') _)
  · rw [nearest, nearest, place, place, heq]
    exact Nat.mul_le_mul_right _ (roundDiv_mono h _)

theorem nearest_of_le {n : Nat} (h : n ≤ 2 ^ 53) : nearest n = n := by
  rcases Nat.lt_or_eq_of_le h with hless | heq
  · exact nearest_of_lt hless
  · rw [heq]
    decide

/-- Rounding moves a natural by half of its last place at most. -/
theorem nearest_close (n : Nat) :
    2 * nearest n ≤ 2 * n + twoTo (place n) ∧ 2 * n ≤ 2 * nearest n + twoTo (place n) :=
  roundDiv_close n (twoTo_pos _)

/-- The error of rounding is small beside the number. -/
theorem nearest_error (n : Nat) :
    2 ^ 53 * nearest n ≤ 2 ^ 53 * n + n ∧ 2 ^ 53 * n ≤ 2 ^ 53 * nearest n + n := by
  by_cases h : n ≤ 2 ^ 53
  · rw [nearest_of_le h]
    omega
  · have hclose := nearest_close n
    have hplace : twoTo (place n) * 2 ^ 52 ≤ n := twoTo_place_le (by omega)
    omega

/-! ## The number nearest to a natural -/

theorem floorLog2_one {n : Nat} (hn : n ≠ 0) : floorLog2 n 1 = n.log2 := by
  have hone : Nat.log2 1 = 0 := by decide
  have hreached : 2 ^ n.log2 ≤ n := Nat.log2_self_le hn
  simp [floorLog2, hone, hreached]

/-- In its units, a natural is rounded to the nearest one. -/
theorem inUnits_whole {n : Nat} (hn : n ≠ 0) {e : Int}
    (he : e = max leastExponent (floorLog2 n 1 - 52)) :
    (inUnits n 1 e : Rat) * 2 ^ e = nearest n := by
  rw [floorLog2_one hn] at he
  have he : e = (n.log2 : Int) - 52 := by
    simp only [leastExponent] at he
    omega
  by_cases hlarge : 52 ≤ n.log2
  · obtain rfl : e = (place n : Int) := by
      rw [he, place]
      omega
    simp only [inUnits, Int.natCast_nonneg, if_true, Int.toNat_natCast, Nat.one_mul, zpow_natCast,
      nearest]
    push_cast [cast_twoTo]
    rfl
  · -- A smaller one is a multiple of its unit.
    obtain ⟨k, hk⟩ := Int.eq_ofNat_of_zero_le (by omega : 0 ≤ -e)
    have hsign : ¬ 0 ≤ e := by omega
    have hsmall : nearest n = n := by
      apply nearest_of_lt
      exact (Nat.log2_lt hn).mp (by omega)
    have hround := roundDiv_mul (n * twoTo k) Nat.one_pos
    rw [Nat.mul_one] at hround
    have he' : e = -(k : Int) := by omega
    simp only [inUnits, hsign, if_false, hk, Int.toNat_natCast, hround, hsmall]
    rw [he', zpow_neg, zpow_natCast]
    push_cast [cast_twoTo]
    exact mul_inv_cancel_right₀ (by positivity) _

/-- A natural is rounded to what is left of it, or to infinity, if it reaches `2 ^ 1023`. -/
theorem ofRatio_whole (negative : Bool) (n : Nat) :
    (ofRatio negative n 1 = .infinite negative ∧ 2 ^ 1023 ≤ n) ∨
      ((ofRatio negative n 1).isFinite = true ∧
        (ofRatio negative n 1).value = if negative then -(nearest n : Rat) else nearest n) := by
  by_cases hn : n = 0
  · refine .inr ?_
    rw [hn, ofRatio, if_pos rfl, value_zero, nearest_of_le (Nat.zero_le _)]
    exact ⟨rfl, by simp⟩
  · rcases ofRatio_cases negative hn 1 rfl with ⟨h, hgreat⟩ | ⟨m, e, h, hvalue⟩
    · refine .inl ⟨h, ?_⟩
      have hone : ((n : Rat)) / (1 : Nat) ≤ n := by simp
      exact_mod_cast le_of_great (Nat.pos_of_ne_zero hn) Nat.one_pos hone hgreat
    · refine .inr ?_
      rw [h, value_finite, ← inUnits_whole hn rfl, ← hvalue]
      refine ⟨rfl, ?_⟩
      cases negative <;> simp

/-! ## Whole numbers -/

/-- The whole number with the places of its magnitude below the 53rd rounded away. -/
def rounded (i : Int) : Int := if i < 0 then -(nearest i.natAbs : Int) else nearest i.natAbs

theorem rounded_natCast (n : Nat) : rounded n = nearest n := by
  rw [rounded, if_neg (by omega), Int.natAbs_natCast]

theorem rounded_neg (i : Int) : rounded (-i) = -rounded i := by
  rcases Int.lt_trichotomy i 0 with h | rfl | h
  · rw [rounded, rounded, if_neg (by omega), if_pos h, Int.natAbs_neg, Int.neg_neg]
  · decide
  · rw [rounded, rounded, if_pos (by omega), if_neg (by omega), Int.natAbs_neg]

/-- A whole number below `2 ^ 1023` is rounded to a number proper. -/
theorem ofInt_whole {i : Int} (h : i.natAbs < 2 ^ 1023) :
    (ofInt i).isFinite = true ∧ (ofInt i).value = rounded i := by
  rcases ofRatio_whole (i < 0) i.natAbs with ⟨-, hgreat⟩ | ⟨hfinite, hvalue⟩
  · exact absurd hgreat (by omega)
  · refine ⟨hfinite, ?_⟩
    rw [ofInt, hvalue, rounded]
    by_cases hsign : i < 0 <;> simp [hsign]

theorem rounded_of_le {i : Int} (h : i.natAbs ≤ 2 ^ 53) : rounded i = i := by
  rw [rounded, nearest_of_le h]
  split <;> omega

/-- Up to `2 ^ 53` a whole number is stored without a loss. -/
theorem ofInt_exact {i : Int} (h : i.natAbs ≤ 2 ^ 53) :
    (ofInt i).isFinite = true ∧ (ofInt i).value = i := by
  have hsmall : i.natAbs < 2 ^ 1023 := h.trans_lt (pow_lt_pow_right₀ one_lt_two (by decide))
  obtain ⟨hfinite, hvalue⟩ := ofInt_whole hsmall
  rw [rounded_of_le h] at hvalue
  exact ⟨hfinite, hvalue⟩

/-- Rounding keeps the order. -/
theorem rounded_mono {i j : Int} (h : i ≤ j) : rounded i ≤ rounded j := by
  simp only [rounded]
  by_cases hi : i < 0
  · rw [if_pos hi]
    by_cases hj : j < 0
    · rw [if_pos hj]
      have hmono : nearest j.natAbs ≤ nearest i.natAbs := nearest_mono (by omega)
      omega
    · rw [if_neg hj]
      omega
  · rw [if_neg hi, if_neg (by omega)]
    have hmono : nearest i.natAbs ≤ nearest j.natAbs := nearest_mono (by omega)
    omega

theorem rounded_lt_iff {i j : Int} : rounded i < rounded j ↔ i < j ∧ rounded i ≠ rounded j := by
  constructor
  · intro h
    refine ⟨?_, h.ne⟩
    by_contra hnot
    have hmono := rounded_mono (Int.not_lt.mp hnot)
    omega
  · rintro ⟨h, hne⟩
    exact lt_of_le_of_ne (rounded_mono h.le) hne

theorem rounded_le_iff {i j : Int} : rounded i ≤ rounded j ↔ i ≤ j ∨ rounded i = rounded j := by
  rw [← Int.not_lt, rounded_lt_iff]
  omega

theorem rounded_natAbs (i : Int) : (rounded i).natAbs = nearest i.natAbs := by
  rw [rounded]
  split <;> omega

/-- The error of rounding is small beside the number. -/
theorem rounded_error (i : Int) : 2 ^ 53 * (rounded i - i).natAbs ≤ i.natAbs := by
  have herror := nearest_error i.natAbs
  rw [rounded]
  split <;> omega

theorem rounded_close (i : Int) : 2 * (rounded i - i).natAbs ≤ twoTo (place i.natAbs) := by
  have hclose := nearest_close i.natAbs
  rw [rounded]
  split <;> omega

/-- Two whole numbers that are rounded to one are the same, or both reach `2 ^ 53` and are no
further apart than their last places allow. -/
theorem rounded_eq_cases {i j : Int} (h : rounded i = rounded j) :
    i = j ∨ (2 ^ 53 ≤ i.natAbs ∧ 2 ^ 53 ≤ j.natAbs ∧
      2 * (i - j).natAbs ≤ twoTo (place i.natAbs) + twoTo (place j.natAbs)) := by
  have hreach : ∀ {k : Int}, 2 ^ 53 ≤ k.natAbs → 2 ^ 53 ≤ (rounded k).natAbs := by
    intro k hk
    rw [rounded_natAbs]
    exact (nearest_of_le le_rfl).ge.trans (nearest_mono hk)
  have hi := rounded_close i
  have hj := rounded_close j
  by_cases hfar : 2 ^ 53 ≤ i.natAbs ∧ 2 ^ 53 ≤ j.natAbs
  · exact .inr ⟨hfar.1, hfar.2, by omega⟩
  · -- One of them is as it was, so that the other one does not reach `2 ^ 53` either.
    refine .inl ?_
    have hsmall : i.natAbs < 2 ^ 53 ∧ j.natAbs < 2 ^ 53 := by
      by_cases hnear : i.natAbs < 2 ^ 53
      · refine ⟨hnear, ?_⟩
        by_contra hj'
        have hfinal : 2 ^ 53 ≤ (rounded j).natAbs := hreach (by omega)
        rw [← h, rounded_of_le hnear.le] at hfinal
        omega
      · have hnear' : j.natAbs < 2 ^ 53 := by omega
        have hfinal : 2 ^ 53 ≤ (rounded i).natAbs := hreach (by omega)
        rw [h, rounded_of_le hnear'.le] at hfinal
        omega
    rwa [rounded_of_le hsmall.1.le, rounded_of_le hsmall.2.le] at h

/-! ## Integers of 64 bits -/

/-- An integer of 64 bits, signed or unsigned: one that a JSON text can hold. -/
def InWord (i : Int) : Prop := -signedLimit ≤ i ∧ i < unsignedLimit

theorem inWord_of_lt {i : Int} (h : i.natAbs < signedLimit) : InWord i := by
  simp only [InWord, signedLimit, unsignedLimit] at h ⊢
  omega

theorem InWord.natAbs_lt {i : Int} (h : InWord i) : i.natAbs < unsignedLimit := by
  simp only [InWord, signedLimit, unsignedLimit] at h ⊢
  omega

theorem InWord.small {i : Int} (h : InWord i) : i.natAbs < 2 ^ 1023 := by
  have hword := h.natAbs_lt
  rw [show unsignedLimit = 2 ^ 64 from rfl] at hword
  exact hword.trans (pow_lt_pow_right₀ one_lt_two (by decide))

/-- Eleven places are rounded away at most. -/
theorem InWord.twoTo_place {i : Int} (h : InWord i) : twoTo (place i.natAbs) ≤ 2 ^ 11 := by
  apply Nat.pow_le_pow_right (by decide)
  by_cases hn : i.natAbs = 0
  · rw [hn]
    decide
  · have hlog : i.natAbs.log2 < 64 := (Nat.log2_lt hn).mpr h.natAbs_lt
    rw [place]
    omega

/-- Two integers of 64 bits that are rounded to one are the same, or both reach `2 ^ 53` and they
are no further apart than `2 ^ 11`. -/
theorem InWord.eq_cases {i j : Int} (hi : InWord i) (hj : InWord j) (h : rounded i = rounded j) :
    i = j ∨ (2 ^ 53 ≤ i.natAbs ∧ 2 ^ 53 ≤ j.natAbs ∧ (i - j).natAbs ≤ 2 ^ 11) := by
  refine (rounded_eq_cases h).imp_right fun ⟨hi', hj', hclose⟩ => ⟨hi', hj', ?_⟩
  have hplace := hi.twoTo_place
  have hplace' := hj.twoTo_place
  omega

/-! ## Whole values -/

theorem value_abs (x : Binary64) : x.abs.value = |x.value| := by
  cases x with
  | nan => exact abs_zero.symm
  | infinite negative => exact abs_zero.symm
  | finite negative m e =>
    have hpos : (0 : Rat) ≤ m * 2 ^ e := by positivity
    rw [abs, value_finite, value_finite]
    cases negative with
    | true => simp [abs_of_nonneg hpos]
    | false => simp [abs_of_nonneg hpos]

theorem truncate_eq {x : Binary64} {i : Int} (h : x.value = i) : x.truncate = i := by
  rw [truncate, truncRat, h, Rat.num_intCast, Rat.den_intCast]
  exact Int.tdiv_one i

/-- A number is whole if its value is. -/
theorem isWhole_iff {x : Binary64} (hx : x.isFinite = true) :
    x.isWhole = true ↔ ∃ i : Int, x.value = i := by
  obtain ⟨negative, m, e, rfl⟩ := eq_of_isFinite hx
  have hvalue := value_finite negative m e
  by_cases he : 0 ≤ e
  · obtain ⟨k, rfl⟩ := Int.eq_ofNat_of_zero_le he
    refine iff_of_true (by simp [isWhole]) ⟨(if negative then -(m : Int) else m) * 2 ^ k, ?_⟩
    rw [hvalue, zpow_natCast]
    cases negative <;> simp
  · obtain ⟨k, hk⟩ := Int.eq_ofNat_of_zero_le (by omega : 0 ≤ -e)
    have hwhole : (finite negative m e).isWhole = true ↔ twoTo k ∣ m := by
      simp [isWhole, he, hk, Nat.dvd_iff_mod_eq_zero]
    have hpos : (0 : Rat) < 2 ^ k := by positivity
    rw [show e = -(k : Int) by omega, zpow_neg, zpow_natCast] at hvalue
    rw [hwhole]
    constructor
    · rintro ⟨q, rfl⟩
      refine ⟨if negative then -(q : Int) else q, ?_⟩
      rw [show e = -(k : Int) by omega, hvalue]
      push_cast [cast_twoTo]
      cases negative <;> field_simp <;> simp
    · rintro ⟨i, hi⟩
      rw [show e = -(k : Int) by omega, hvalue] at hi
      have hscaled : (if negative then -(m : Rat) else m) = i * 2 ^ k := by
        rw [← hi, inv_mul_cancel_right₀ hpos.ne']
      have hm : m = i.natAbs * twoTo k := by
        have hint : (if negative then -(m : Int) else m) = i * twoTo k := by
          cases negative <;> simp only [if_true, if_false, Bool.false_eq_true] at hscaled ⊢ <;>
            exact_mod_cast hscaled
        have habs := congrArg Int.natAbs hint
        rw [Int.natAbs_mul, Int.natAbs_natCast] at habs
        rw [← habs]
        cases negative <;> simp
      exact Dvd.intro_left _ hm.symm

end Binary64

end Dialogue
