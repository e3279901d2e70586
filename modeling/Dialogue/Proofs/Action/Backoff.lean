import Dialogue.Action.Retry
import Dialogue.Proofs.Number.Rounding

/-!
When a wait between attempts is the longest span.

The seconds of a span are rounded three times (`Duration.inSeconds_atMost`), a power once for each
factor, and their product once. A number of seconds that gives the longest span, or none at all, is
at `2 ^ 64` (`Duration.limit_le_of_longest`). So the longest span comes of an exact product that
reaches `2 ^ 64` seconds when it is raised by all these roundings (`limit_le_of_longest`). That
holds for a factor beyond the finite numbers too, as the product with any delay is then far beyond
the limit; but with no delay it is not: nothing times infinity is no number, and counts as the
longest span (`delayBefore_of_zero`). `delayBefore_longest` joins the two.
-/
namespace Dialogue

open Binary64

namespace Duration

/-- The span in seconds, without rounding. -/
def exactSeconds (d : Duration) : Rat := (d.nanos : Rat) / 10 ^ 9

theorem exactSeconds_eq (d : Duration) :
    d.exactSeconds = d.seconds + (d.fraction : Rat) / 10 ^ 9 := by
  have hsplit : 1000000000 * d.seconds + d.fraction = d.nanos := Nat.div_add_mod d.nanos 1000000000
  have hcast : (1000000000 : Rat) * d.seconds + d.fraction = d.nanos := by exact_mod_cast hsplit
  rw [exactSeconds, ← hcast]
  ring

theorem exactSeconds_nonneg (d : Duration) : 0 ≤ d.exactSeconds := by
  rw [exactSeconds]
  positivity

theorem exactSeconds_le {d : Duration} (short : d.nanos ≤ unsignedLimit * 1000000) :
    d.exactSeconds ≤ 2 ^ 64 / 10 ^ 3 := by
  have hcast : (d.nanos : Rat) ≤ 2 ^ 64 * 10 ^ 6 := by exact_mod_cast short
  calc d.exactSeconds ≤ 2 ^ 64 * 10 ^ 6 / 10 ^ 9 := div_le_div_of_nonneg_right hcast (by positivity)
    _ = 2 ^ 64 / 10 ^ 3 := by norm_num

theorem value_billion : (ofNat 1000000000).value = 10 ^ 9 := by
  have h : ofNat 1000000000 = .finite false 8388608000000000 (-23) := by decide +kernel
  rw [h, value_finite]
  norm_num

/-- A nanosecond is far above the numbers of fewer than 53 bits. -/
theorem normal_le_nano : normal ≤ 1 / 10 ^ 9 := by
  calc normal ≤ (2 : Rat) ^ (-30 : Int) := zpow_le_zpow_right₀ one_le_two (by norm_num)
    _ ≤ 1 / 10 ^ 9 := by norm_num

theorem nano_le_exactSeconds {d : Duration} (lasts : 0 < d.nanos) :
    1 / 10 ^ 9 ≤ d.exactSeconds := by
  have hone : (1 : Rat) ≤ d.nanos := by exact_mod_cast lasts
  exact div_le_div_of_nonneg_right hone (by positivity)

/-- The fraction of a second, rounded once as a number and once as a fraction. -/
theorem fraction_atMost (d : Duration) :
    ((ofNat d.fraction).div (ofNat 1000000000)).AtMost
      ((d.fraction : Rat) / 10 ^ 9 * slack * slack) := by
  have hsmall : d.fraction < 10 ^ 9 := Nat.mod_lt d.nanos (by decide)
  have hcast : (d.fraction : Rat) < 10 ^ 9 := by exact_mod_cast hsmall
  have hfraction := ofNat_atMost d.fraction
  have hfinite : (ofNat d.fraction).isFinite = true := by
    apply hfraction.isFinite_of_le
    calc (d.fraction : Rat) * slack
        ≤ 10 ^ 9 * slack := (mul_lt_mul_of_pos_right hcast slack_pos).le
      _ ≤ 2 ^ 128 := by norm_num [slack]
  have hbillion : (ofNat 1000000000).isFinite = true ∧ (ofNat 1000000000).isZero = false := by
    decide +kernel
  obtain ⟨s, hs⟩ := div_of_finite hfinite hbillion.1 hbillion.2
  rw [hs, value_billion]
  apply ofRat_atMost s (div_nonneg hfraction.value_nonneg (by positivity))
  · calc (ofNat d.fraction).value / 10 ^ 9
        ≤ d.fraction * slack / 10 ^ 9 :=
          div_le_div_of_nonneg_right hfraction.value_le (by positivity)
      _ = (d.fraction : Rat) / 10 ^ 9 * slack := by ring
  · intro hnonzero
    have hfull : d.fraction ≠ 0 := by
      intro h
      rw [h] at hfraction hnonzero
      apply hnonzero
      rw [show (ofNat 0).value = 0 from value_zero false, zero_div]
    have hone : (1 : Rat) ≤ d.fraction := by exact_mod_cast Nat.pos_of_ne_zero hfull
    calc normal ≤ 1 / 10 ^ 9 := normal_le_nano
      _ ≤ (d.fraction : Rat) / 10 ^ 9 := div_le_div_of_nonneg_right hone (by positivity)
      _ ≤ (d.fraction : Rat) / 10 ^ 9 * slack := le_mul_slack (by positivity)

/-- The seconds of a span are rounded three times. -/
theorem inSeconds_atMost {d : Duration} (lasts : 0 < d.nanos) (short : d.nanos ≤ longest.nanos) :
    d.inSeconds.AtMost (d.exactSeconds * slack ^ 3) := by
  have hwhole := ofNat_atMost d.seconds
  have hfraction := fraction_atMost d
  have hseconds : (d.seconds : Rat) ≤ 2 ^ 64 := by
    have h : d.seconds ≤ 2 ^ 64 := by
      simp only [seconds, longest, unsignedLimit] at short ⊢
      omega
    exact_mod_cast h
  have hpart : (d.fraction : Rat) / 10 ^ 9 ≤ 1 := by
    have h : d.fraction ≤ 10 ^ 9 := (Nat.mod_lt d.nanos (by decide)).le
    rw [div_le_one (by positivity)]
    exact_mod_cast h
  have hwholeFinite : (ofNat d.seconds).isFinite = true := by
    apply hwhole.isFinite_of_le
    calc (d.seconds : Rat) * slack
        ≤ 2 ^ 64 * slack := mul_le_mul_of_nonneg_right hseconds slack_pos.le
      _ ≤ 2 ^ 128 := by norm_num [slack]
  have hfractionFinite : ((ofNat d.fraction).div (ofNat 1000000000)).isFinite = true := by
    apply hfraction.isFinite_of_le
    calc (d.fraction : Rat) / 10 ^ 9 * slack * slack
        ≤ 1 * slack * slack := by gcongr <;> exact slack_pos.le
      _ ≤ 2 ^ 128 := by norm_num [slack]
  have hbound : (d.seconds : Rat) * slack + (d.fraction : Rat) / 10 ^ 9 * slack * slack ≤
      d.exactSeconds * slack ^ 2 := by
    calc (d.seconds : Rat) * slack + (d.fraction : Rat) / 10 ^ 9 * slack * slack
        ≤ d.seconds * slack * slack + (d.fraction : Rat) / 10 ^ 9 * slack * slack :=
          add_le_add (le_mul_slack (mul_nonneg (Nat.cast_nonneg d.seconds) slack_pos.le)) le_rfl
      _ = d.exactSeconds * slack ^ 2 := by
          rw [exactSeconds_eq]
          ring
  have hleast : 1 / 10 ^ 9 ≤
      (d.seconds : Rat) * slack + (d.fraction : Rat) / 10 ^ 9 * slack * slack := by
    calc 1 / 10 ^ 9 ≤ d.exactSeconds := nano_le_exactSeconds lasts
      _ = d.seconds + (d.fraction : Rat) / 10 ^ 9 := exactSeconds_eq d
      _ ≤ d.seconds * slack + (d.fraction : Rat) / 10 ^ 9 * slack * slack := by
          apply add_le_add
          · exact le_mul_slack (Nat.cast_nonneg d.seconds)
          · have hpart : 0 ≤ (d.fraction : Rat) / 10 ^ 9 := by positivity
            exact (le_mul_slack hpart).trans (le_mul_slack (mul_nonneg hpart slack_pos.le))
  have hsum := add_atMost_of_finite hwhole hfraction hwholeFinite hfractionFinite
    (normal_le_nano.trans hleast)
  apply hsum.mono
  calc ((d.seconds : Rat) * slack + (d.fraction : Rat) / 10 ^ 9 * slack * slack) * slack
      ≤ d.exactSeconds * slack ^ 2 * slack := mul_le_mul_of_nonneg_right hbound slack_pos.le
    _ = d.exactSeconds * slack ^ 3 := by ring

/-- The nanoseconds that `m · 2 ^ e` seconds are rounded to. -/
def nanosOf (m : Nat) (e : Int) : Nat :=
  if 0 ≤ e then m * twoTo e.toNat * 1000000000
  else roundDiv (m * 1000000000) (twoTo (-e).toNat)

theorem ofSeconds?_finite (negative : Bool) (m : Nat) (e : Int) :
    ofSeconds? (.finite negative m e) = if negative && m ≠ 0 then none
      else if nanosOf m e ≤ longest.nanos then some ⟨nanosOf m e⟩ else none := rfl

theorem nanosOf_le (m : Nat) (e : Int) :
    (nanosOf m e : Rat) ≤ (m : Rat) * 2 ^ e * 10 ^ 9 + 1 / 2 := by
  by_cases he : 0 ≤ e
  · obtain ⟨k, rfl⟩ := Int.eq_ofNat_of_zero_le he
    simp only [nanosOf, he, if_true, Int.toNat_natCast, zpow_natCast]
    push_cast [cast_twoTo]
    norm_num
  · obtain ⟨k, hk⟩ := Int.eq_ofNat_of_zero_le (by omega : 0 ≤ -e)
    have he' : e = -(k : Int) := by omega
    have h := roundDiv_le (m * 1000000000) (twoTo_pos k)
    push_cast [cast_twoTo] at h
    simp only [nanosOf, he, if_false, hk, Int.toNat_natCast]
    calc (roundDiv (m * 1000000000) (twoTo k) : Rat)
        ≤ (m : Rat) * 1000000000 / 2 ^ k + 1 / 2 := h
      _ = (m : Rat) * 2 ^ e * 10 ^ 9 + 1 / 2 := by
        rw [he', zpow_neg, zpow_natCast]
        ring

/-- A number of seconds gives the longest span, or none, only if it comes to `2 ^ 64` when it is
raised by one rounding. -/
theorem limit_le_of_longest {x : Binary64} {b : Rat} (h : x.AtMost b)
    (long : (ofSeconds? x).getD longest = longest) : 2 ^ 64 ≤ b * slack := by
  have houtgrown : x.isFinite = false → 2 ^ 64 ≤ b * slack := fun hx =>
    ((pow_le_pow_right₀ one_le_two (by decide)).trans (h.great hx)).trans (le_mul_slack h.nonneg)
  cases x with
  | nan => exact houtgrown rfl
  | infinite negative => exact houtgrown rfl
  | finite negative m e =>
    have hpos : (0 : Rat) < 2 ^ e := by positivity
    have hvalue := value_finite negative m e
    -- A number below zero has no bound; so the sign does not count.
    have hseconds : (negative && m ≠ 0) = false ∧ (m : Rat) * 2 ^ e ≤ b := by
      cases negative with
      | false => exact ⟨rfl, by simpa [hvalue] using h.value_le⟩
      | true =>
        have hnonneg : 0 ≤ -(m : Rat) * 2 ^ e := by simpa [hvalue] using h.value_nonneg
        have hm : m = 0 := by
          by_contra hm
          have hone : (1 : Rat) ≤ m := by exact_mod_cast Nat.pos_of_ne_zero hm
          nlinarith
        exact ⟨by simp [hm], by simpa [hm] using h.nonneg⟩
    have hnanos : longest.nanos ≤ nanosOf m e := by
      by_contra hless
      have hle : nanosOf m e ≤ longest.nanos := (Nat.lt_of_not_le hless).le
      rw [ofSeconds?_finite, hseconds.1, if_neg Bool.false_ne_true, if_pos hle] at long
      exact hless (congrArg Duration.nanos long).ge
    have hcast : (2 : Rat) ^ 64 * 10 ^ 9 - 1 ≤ nanosOf m e := by
      have hlongest : (longest.nanos : Rat) = 2 ^ 64 * 10 ^ 9 - 1 := by
        norm_num [longest, unsignedLimit]
      rw [← hlongest]
      exact_mod_cast hnanos
    have hrounded := nanosOf_le m e
    rw [slack]
    linarith [hseconds.2]

end Duration

namespace RetryPolicy

/-- The factor that the delay is multiplied by before an attempt. -/
def factorBefore (p : RetryPolicy) (attempt : Nat) : Binary64 :=
  p.multiplier.pow (min (attempt - 2) greatestPower)

/-- The seconds to wait before an attempt, without rounding. -/
def exactBefore (p : RetryPolicy) (attempt : Nat) : Rat :=
  p.delay.exactSeconds * p.multiplier.value ^ (attempt - 2)

theorem delayBefore_eq (p : RetryPolicy) {attempt : Nat} (later : 2 ≤ attempt) :
    p.delayBefore attempt =
      (Duration.ofSeconds? (p.delay.inSeconds.mul (p.factorBefore attempt))).getD .longest :=
  if_neg (by omega)

/-! ## What a configuration gives -/

theorem atMost_of_isFactor {x : Binary64} (h : isFactor x = true) : x.AtMost x.value := by
  simp only [isFactor, Bool.and_eq_true] at h
  obtain ⟨s, m, e, rfl⟩ := eq_of_isFinite h.1
  have hnonneg : 0 ≤ (finite s m e).value := by
    by_contra hneg
    have hbelow : (finite s m e).value < (ofNat 0).value := by
      rw [show (ofNat 0).value = 0 from value_zero false]
      exact lt_of_not_ge hneg
    have horder : (ofNat 0).compare? (finite s m e) = some .gt := by
      rw [compare?_of_finite rfl rfl, if_neg (not_lt_of_ge hbelow.le), if_pos hbelow]
    have hle := h.2
    rw [le, horder] at hle
    exact absurd hle (by simp)
  exact ⟨hnonneg, le_refl _, fun hx => absurd hx (by simp [isFinite])⟩

theorem multiplier_isFactor (config : Option RetryConfig) :
    isFactor (ofConfig config).multiplier = true := by
  cases config with
  | none => show isFactor (.ofNat 2) = true; decide +kernel
  | some c =>
    show isFactor ((c.multiplier.filter isFactor).getD (.ofNat 2)) = true
    cases hfilter : c.multiplier.filter isFactor with
    | none => show isFactor (.ofNat 2) = true; decide +kernel
    | some x => exact (Option.filter_eq_some_iff.mp hfilter).2

/-- No configuration asks for a first wait of `2 ^ 55` seconds. -/
theorem delay_le (config : Option RetryConfig)
    (fits : ∀ c ∈ config, ∀ ms ∈ c.delayMs, ms < unsignedLimit) :
    (ofConfig config).delay.nanos ≤ unsignedLimit * 1000000 := by
  have hdefault : (Duration.ofMillis 1000).nanos ≤ unsignedLimit * 1000000 := by decide
  cases config with
  | none => exact hdefault
  | some c =>
    show ((c.delayMs.map Duration.ofMillis).getD (.ofMillis 1000)).nanos ≤ _
    cases hdelay : c.delayMs with
    | none => exact hdefault
    | some ms => exact Nat.mul_le_mul_right 1000000 (fits c rfl ms hdelay).le

/-! ## Without a delay -/

theorem delayBefore_of_zero {p : RetryPolicy} (still : p.delay = .zero) {attempt : Nat}
    (later : 2 ≤ attempt) :
    p.delayBefore attempt =
      if (p.factorBefore attempt).isFinite then .zero else .longest := by
  have hseconds : Duration.zero.inSeconds = Binary64.zero false := by decide +kernel
  rw [delayBefore_eq p later, still, hseconds]
  -- Zero times a finite factor is zero, and times any other is no number.
  cases p.factorBefore attempt with
  | nan => rfl
  | infinite negative => rfl
  | finite negative m e =>
    obtain ⟨s, hs⟩ := mul_of_finite (x := Binary64.zero false) (y := .finite negative m e) rfl rfl
    rw [hs, value_zero, zero_mul,
      if_pos (show (Binary64.finite negative m e).isFinite = true from rfl)]
    cases s <;> decide +kernel

/-! ## With a delay -/

theorem slack_pow_le {k : Nat} (h : k ≤ 2 ^ 31) : slack ^ k ≤ 2 := by
  -- Bernoulli's inequality for the inverse.
  have hinverse : 1 + (k : Rat) * (1 / slack - 1) ≤ (1 / slack) ^ k := by
    have h := one_add_mul_le_pow (show -2 ≤ 1 / slack - 1 by norm_num [slack]) k
    rwa [add_sub_cancel] at h
  have hsmall : -(1 / 2 ^ 53 : Rat) ≤ 1 / slack - 1 := by norm_num [slack]
  have hk : (k : Rat) ≤ 2 ^ 31 := by exact_mod_cast h
  have hhalf : (1 / 2 : Rat) ≤ (1 / slack) ^ k := by
    have hproduct : -((2 : Rat) ^ 31 * (1 / 2 ^ 53)) ≤ (k : Rat) * (1 / slack - 1) := by
      have hnonneg : (0 : Rat) ≤ k := Nat.cast_nonneg k
      nlinarith only [hnonneg, hk, hsmall]
    have hnumber : (1 / 2 : Rat) ≤ 1 - 2 ^ 31 * (1 / 2 ^ 53) := by norm_num
    linarith
  rw [one_div_pow, le_div_iff₀ (pow_pos slack_pos k)] at hhalf
  linarith

theorem factorBefore_atMost {p : RetryPolicy} (factor : isFactor p.multiplier = true)
    (attempt : Nat) :
    (p.factorBefore attempt).AtMost
      ((max 1 p.multiplier.value * slack) ^ min (attempt - 2) greatestPower) := by
  have hone : (ofNat 1).AtMost 1 := by
    have h : ofNat 1 = .finite false leastNormal (-52) := by decide +kernel
    have hvalue : (finite false leastNormal (-52)).value = 1 := by
      rw [value_finite]
      norm_num [leastNormal]
    rw [h]
    exact atMost_of_value hvalue zero_le_one le_rfl
  have hmultiplier := (atMost_of_isFactor factor).mono (le_max_right 1 p.multiplier.value)
  have hpower := powLoop_atMost hone hmultiplier le_rfl (le_max_left _ _)
    (min (attempt - 2) greatestPower)
  rwa [one_mul] at hpower

section

variable {p : RetryPolicy} {attempt : Nat} (short : p.delay.nanos ≤ unsignedLimit * 1000000)
  (lasts : 0 < p.delay.nanos) (later : 2 ≤ attempt) (long : p.delayBefore attempt = .longest)

include short lasts later long

/-- A wait that comes of a finite factor is the longest span only for a product at the limit. -/
theorem limit_le_of_finite {g : Rat} (hg : 1 ≤ g) (hfactor : (p.factorBefore attempt).AtMost g)
    (hfinite : (p.factorBefore attempt).isFinite = true) :
    2 ^ 64 ≤ p.delay.exactSeconds * g * slack ^ 5 := by
  have hseconds : p.delay.inSeconds.AtMost (p.delay.exactSeconds * slack ^ 3) :=
    Duration.inSeconds_atMost lasts (short.trans (by decide))
  have hsecondsFinite : p.delay.inSeconds.isFinite = true := by
    apply hseconds.isFinite_of_le
    calc p.delay.exactSeconds * slack ^ 3
        ≤ 2 ^ 64 / 10 ^ 3 * slack ^ 3 :=
          mul_le_mul_of_nonneg_right (Duration.exactSeconds_le short) (pow_pos slack_pos 3).le
      _ ≤ 2 ^ 128 := by norm_num [slack]
  have hnormal : normal ≤ p.delay.exactSeconds * slack ^ 3 * g := by
    calc normal ≤ 1 / 10 ^ 9 := Duration.normal_le_nano
      _ ≤ p.delay.exactSeconds := Duration.nano_le_exactSeconds lasts
      _ ≤ p.delay.exactSeconds * slack ^ 3 :=
        le_mul_of_one_le_right (Duration.exactSeconds_nonneg _) (one_le_pow₀ one_le_slack)
      _ ≤ p.delay.exactSeconds * slack ^ 3 * g := le_mul_of_one_le_right hseconds.nonneg hg
  have hproduct := mul_atMost_of_finite hseconds hfactor hsecondsFinite hfinite hnormal
  rw [delayBefore_eq p later] at long
  calc (2 : Rat) ^ 64
      ≤ p.delay.exactSeconds * slack ^ 3 * g * slack * slack :=
        Duration.limit_le_of_longest hproduct long
    _ = p.delay.exactSeconds * g * slack ^ 5 := by ring

/-- A factor that does not grow brings no delay of a configuration to the longest span. -/
theorem grows_of_longest (factor : isFactor p.multiplier = true) : 1 < p.multiplier.value := by
  by_contra hshrinks
  have hfactor : (p.factorBefore attempt).AtMost 2 := by
    have h := factorBefore_atMost factor attempt
    rw [max_eq_left (le_of_not_gt hshrinks), one_mul] at h
    exact h.mono (slack_pow_le ((Nat.min_le_right _ _).trans (by decide)))
  have hlimit := limit_le_of_finite short lasts later long one_le_two hfactor
    (hfactor.isFinite_of_le (by norm_num))
  -- The longest delay is a thousandth of the limit, which leaves room for twice of it.
  have hbelow : p.delay.exactSeconds * 2 * slack ^ 5 < 2 ^ 64 := by
    calc p.delay.exactSeconds * 2 * slack ^ 5
        ≤ 2 ^ 64 / 10 ^ 3 * 2 * slack ^ 5 := by
          apply mul_le_mul_of_nonneg_right _ (pow_pos slack_pos 5).le
          exact mul_le_mul_of_nonneg_right (Duration.exactSeconds_le short) two_pos.le
      _ < 2 ^ 64 := by norm_num [slack]
  exact absurd hlimit (not_le_of_gt hbelow)

/-- The longest span comes of a product that is at the limit once it is raised by the roundings. -/
theorem limit_le_of_longest (factor : isFactor p.multiplier = true) :
    2 ^ 64 ≤ p.exactBefore attempt * slack ^ (attempt + 3) := by
  have hgrows := (grows_of_longest short lasts later long factor).le
  have hbase : 1 ≤ p.multiplier.value * slack :=
    one_le_mul_of_one_le_of_one_le hgrows one_le_slack
  have hfactor : (p.factorBefore attempt).AtMost
      ((p.multiplier.value * slack) ^ (attempt - 2)) := by
    have h := factorBefore_atMost factor attempt
    rw [max_eq_right hgrows] at h
    exact h.mono (pow_le_pow_right₀ hbase (Nat.min_le_left _ _))
  have hexponent : attempt + 3 = (attempt - 2) + 5 := by omega
  have hbound : p.exactBefore attempt * slack ^ (attempt + 3) =
      p.delay.exactSeconds * (p.multiplier.value * slack) ^ (attempt - 2) * slack ^ 5 := by
    rw [exactBefore, mul_pow, hexponent, pow_add]
    ring
  rw [hbound]
  by_cases hfinite : (p.factorBefore attempt).isFinite = true
  · exact limit_le_of_finite short lasts later long (one_le_pow₀ hbase) hfactor hfinite
  · -- Beyond the finite numbers the factor alone outweighs the least delay.
    have hgreat := hfactor.great (Bool.eq_false_of_not_eq_true hfinite)
    calc (2 : Rat) ^ 64 ≤ 1 / 10 ^ 9 * 2 ^ 100 * 1 := by norm_num
      _ ≤ 1 / 10 ^ 9 * 2 ^ 1023 * 1 := by
        gcongr
        · exact one_le_two
        · decide
      _ ≤ p.delay.exactSeconds * (p.multiplier.value * slack) ^ (attempt - 2) * slack ^ 5 :=
        mul_le_mul
          (mul_le_mul (Duration.nano_le_exactSeconds lasts) hgreat (by positivity)
            (Duration.exactSeconds_nonneg _))
          (one_le_pow₀ one_le_slack) zero_le_one
          (mul_nonneg (Duration.exactSeconds_nonneg _) (pow_nonneg (zero_le_one.trans hbase) _))

end

/-- The waits of a configuration saturate at the longest span for two reasons only: there is no
delay, and its factor is beyond all finite numbers; or the exact product comes to `2 ^ 64` seconds
once it is raised by the roundings. Without a delay the first reason is the only one, and all other
waits are none. -/
theorem delayBefore_longest (config : Option RetryConfig)
    (fits : ∀ c ∈ config, ∀ ms ∈ c.delayMs, ms < unsignedLimit) {attempt : Nat}
    (later : 2 ≤ attempt) :
    let p := ofConfig config
    (p.delayBefore attempt = .longest →
      p.delay = .zero ∧ (p.factorBefore attempt).isFinite = false ∨
      2 ^ 64 ≤ p.exactBefore attempt * (1 + 1 / 2 ^ 53) ^ (attempt + 3)) ∧
    (p.delay = .zero → p.delayBefore attempt =
      if (p.factorBefore attempt).isFinite then .zero else .longest) := by
  intro p
  refine ⟨fun long => ?_, fun still => delayBefore_of_zero still later⟩
  by_cases still : p.delay = .zero
  · refine .inl ⟨still, ?_⟩
    rw [delayBefore_of_zero still later] at long
    by_contra hfinite
    rw [if_pos (Bool.eq_true_of_not_eq_false hfinite)] at long
    exact absurd long (by decide)
  · have lasts : 0 < p.delay.nanos := Nat.pos_of_ne_zero fun h => still (congrArg Duration.mk h)
    exact .inr (limit_le_of_longest (delay_le config fits) lasts later long
      (multiplier_isFactor config))

/-- A day's delay that grows a thousandfold each time is past the longest span at the seventh
attempt. -/
theorem delayBefore_longest_daily :
    let config : RetryConfig := { delayMs := some 86400000, multiplier := some (.ofNat 1000) }
    let p := ofConfig (some config)
    (∀ c ∈ some config, ∀ ms ∈ c.delayMs, ms < unsignedLimit) ∧ 2 ≤ 7 ∧
    p.delayBefore 7 = .longest ∧ 2 ^ 64 ≤ p.exactBefore 7 * (1 + 1 / 2 ^ 53) ^ 10 := by
  intro config p
  have fits : ∀ c ∈ some config, ∀ ms ∈ c.delayMs, ms < unsignedLimit := by
    intro c hc ms hms
    cases hc
    cases hms
    decide
  have long : p.delayBefore 7 = .longest := by decide +kernel
  have later : 2 ≤ 7 := by decide
  rcases (delayBefore_longest (some config) fits later).1 long with ⟨still, -⟩ | hlimit
  · exact absurd still (by decide)
  · exact ⟨fits, later, long, hlimit⟩

/-- Without a delay there is nothing to multiply; and yet, once the factor has outgrown the finite
numbers, the wait is the longest span. -/
theorem delayBefore_zero_longest :
    let config : RetryConfig :=
      { delayMs := some 0, multiplier := some (.ofDecimal false ⟨1, 300⟩) }
    let p := ofConfig (some config)
    p.delay = .zero ∧ p.delayBefore 3 = .zero ∧ p.delayBefore 4 = .longest ∧
    p.exactBefore 4 = 0 := by
  intro config p
  have still : p.delay = .zero := rfl
  refine ⟨still, by decide +kernel, by decide +kernel, ?_⟩
  rw [exactBefore, still, Duration.exactSeconds, Duration.zero, Nat.cast_zero, zero_div, zero_mul]

end RetryPolicy

end Dialogue
