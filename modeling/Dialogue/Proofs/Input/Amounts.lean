import Dialogue.Input.Handler
import Dialogue.Number.Decimal
import Dialogue.Proofs.Number.Whole
import Mathlib.Data.List.TakeWhile

/-!
Integers as answers to steps that ask for amounts and numbers.

A JSON integer and a text of digits stand for an integer (`Amount.Denotes`). An answer is read as a
binary64 number, so that what a handler makes of it is the integer after rounding: the integer
itself up to `2 ^ 53`, and from there on one that is close (`integer_normalized`). Every integer
below `2 ^ 1023` is taken.
-/
namespace Dialogue

open Binary64 (rounded InWord nearest)

/-! ## Texts of digits -/

namespace Binary64

/-- A run of digits that is not empty. -/
structure IsDigits (ds : List Char) : Prop where
  some : ds ≠ []
  all : ∀ c ∈ ds, c.isDigit = true

theorem toLower_digit {c : Char} (h : c.isDigit = true) : c.toLower = c := by
  simp only [Char.isDigit, Bool.and_eq_true, decide_eq_true_eq] at h
  refine dif_neg fun hupper => ?_
  have hlow := UInt32.le_iff_toNat_le.mp hupper.1
  have hhigh := UInt32.le_iff_toNat_le.mp h.2
  simp at hlow hhigh
  omega

/-- Digits are no word. -/
theorem word_ne {ds : List Char} (h : IsDigits ds) (word : String) {c : Char} {rest : List Char}
    (hword : word.toList = c :: rest) (hc : c.isDigit = false) :
    String.ofList (ds.map Char.toLower) ≠ word := by
  rintro rfl
  rw [String.toList_ofList] at hword
  cases ds with
  | nil => exact h.some rfl
  | cons d ds =>
    have hd := h.all d (List.mem_cons_self ..)
    rw [List.map_cons, toLower_digit hd] at hword
    rw [(List.cons.inj hword).1, hc] at hd
    cases hd

theorem magnitudeOf?_digits {ds : List Char} (h : IsDigits ds) (negative : Bool) :
    magnitudeOf? negative ds = some (ofDecimal negative ⟨digitsValue ds, 0⟩) := by
  have hspan : spanDigits ds = (ds, []) := by
    rw [spanDigits, List.takeWhile_eq_self_iff.mpr h.all, List.dropWhile_eq_nil_iff.mpr h.all]
  have hsome : ds.isEmpty = false := by simpa using h.some
  simp [magnitudeOf?, hspan, hsome, exponentOf?]

/-- What a text of digits with a sign before it is read as. -/
theorem ofText?_signed {ds : List Char} (h : IsDigits ds) (negative : Bool) :
    ofText? (String.ofList (if negative then '-' :: ds else ds)) =
      some (ofDecimal negative ⟨digitsValue ds, 0⟩) := by
  have hinf := word_ne h "inf" rfl (by decide)
  have hinfinity := word_ne h "infinity" rfl (by decide)
  have hnan := word_ne h "nan" rfl (by decide)
  cases negative with
  | true => simp [ofText?, hinf, hinfinity, hnan, magnitudeOf?_digits h]
  | false =>
    cases ds with
    | nil => exact absurd rfl h.some
    | cons d ds =>
      have hd := h.all d (List.mem_cons_self ..)
      have hminus : d ≠ '-' := by rintro rfl; cases hd
      have hplus : d ≠ '+' := by rintro rfl; cases hd
      simp [ofText?, hminus, hplus, hinf, hinfinity, hnan, magnitudeOf?_digits h, -List.map_cons,
        -String.ofList_cons]

/-- A whole decimal is rounded to what is left of it, or to infinity, if it reaches `2 ^ 1023`. -/
theorem ofDecimal_whole (negative : Bool) (n : Nat) :
    (ofDecimal negative ⟨n, 0⟩ = .infinite negative ∧ 2 ^ 1023 ≤ n) ∨
      ((ofDecimal negative ⟨n, 0⟩).isFinite = true ∧
        (ofDecimal negative ⟨n, 0⟩).value =
          if negative then -(nearest n : Rat) else nearest n) := by
  have hleading : Decimal.leading ⟨n, 0⟩ = (Nat.toDigits 10 n).length - 1 := by
    simp [Decimal.leading, Decimal.countDigits]
  by_cases hzero : n = 0
  · rw [hzero]
    exact ofRatio_whole negative 0
  by_cases hlong : 310 < Decimal.leading ⟨n, 0⟩
  · refine .inl ⟨?_, ?_⟩
    · simp only [ofDecimal, hzero, if_false, hlong, if_true]
    · -- More than 311 digits.
      have hdigits : 10 ^ 311 ≤ n := by
        rw [← Nat.not_lt, ← Nat.length_toDigits_le_iff (by decide) (by decide)]
        omega
      have hpower : 2 ^ 1023 ≤ 10 ^ 311 := by decide +kernel
      exact hpower.trans hdigits
  · have hratio : ofDecimal negative ⟨n, 0⟩ = ofRatio negative n 1 := by
      have hshort : ¬ Decimal.leading ⟨n, 0⟩ < -330 := by omega
      simp [ofDecimal, hzero, hlong, hshort]
    rw [hratio]
    exact ofRatio_whole negative n

end Binary64

/-! ## Values -/

namespace Number

/-- The rational that a number denotes. -/
def value : Number → Rat
  | .whole i => i
  | .real x => x.value

/-- Whether it is a number proper. -/
def isFinite : Number → Bool
  | .whole _ => true
  | .real x => x.isFinite

end Number

namespace Amount

/-- The integer that a raw answer stands for, when the characters that do not count are left out: a
JSON integer, or a text that comes down to digits, perhaps with a minus sign before them. -/
inductive Denotes (ignored : List Char) : Json → Int → Prop where
  | integer (i : Int) (fits : InWord i) : Denotes ignored (.ofInt i) i
  | digits (s : String) (ds : List Char) (digits : Binary64.IsDigits ds)
      (text : cleaned ignored s = ds) :
      Denotes ignored (.string s) (Binary64.digitsValue ds)
  | minus (s : String) (ds : List Char) (digits : Binary64.IsDigits ds)
      (text : cleaned ignored s = '-' :: ds) :
      Denotes ignored (.string s) (-(Binary64.digitsValue ds))

variable {ignored : List Char} {raw : Json} {i : Int}

/-- A text of digits is read as the number that they are rounded to, unless it is out of reach. -/
theorem ofText?_whole {s : String} {ds : List Char} (digits : Binary64.IsDigits ds)
    (negative : Bool) (text : cleaned ignored s = if negative then '-' :: ds else ds)
    (hi : i = if negative then -(Binary64.digitsValue ds : Int) else Binary64.digitsValue ds) :
    (ofText? ignored s = none ∧ 2 ^ 1023 ≤ i.natAbs) ∨
      ∃ x, ofText? ignored s = some x ∧ x.isFinite = true ∧ x.value = rounded i := by
  rw [ofText?, text, Binary64.ofText?_signed digits]
  rcases Binary64.ofDecimal_whole negative (Binary64.digitsValue ds) with
    ⟨h, hgreat⟩ | ⟨hfinite, hvalue⟩
  · refine .inl ⟨?_, ?_⟩
    · rw [h]
      rfl
    · rw [hi]
      cases negative with
      | true => rwa [if_pos rfl, Int.natAbs_neg, Int.natAbs_natCast]
      | false => rwa [if_neg Bool.false_ne_true, Int.natAbs_natCast]
  · refine .inr ⟨_, Option.filter_some_pos hfinite, hfinite, ?_⟩
    rw [hvalue, hi]
    cases negative <;> simp [Binary64.rounded_neg, Binary64.rounded_natCast]

/-- An integer is read as the number that it is rounded to, unless it is out of reach. -/
theorem ofJson?_integer (h : Denotes ignored raw i) :
    (ofJson? ignored raw = none ∧ 2 ^ 1023 ≤ i.natAbs) ∨
      ∃ x, ofJson? ignored raw = some x ∧ x.isFinite = true ∧ x.value = rounded i := by
  cases h with
  | integer i fits => exact .inr ⟨_, rfl, Binary64.ofInt_whole fits.small⟩
  | digits s ds digits text => exact ofText?_whole digits false text rfl
  | minus s ds digits text => exact ofText?_whole digits true text rfl

/-- The JSON number of a number with a whole value: the value itself, if it is below the limit. -/
theorem toJson_whole {x : Binary64} (hfinite : x.isFinite = true) (hvalue : x.value = i) :
    toJson x = if i.natAbs < 9000000000000000 then .ofInt i else .ofBinary64 x := by
  have hwhole : x.isWhole = true := (Binary64.isWhole_iff hfinite).mpr ⟨i, hvalue⟩
  have habs : x.abs.value < wholeLimit ↔ i.natAbs < 9000000000000000 := by
    rw [Binary64.value_abs, hvalue, ← Int.cast_abs, wholeLimit, Int.abs_eq_natAbs]
    norm_cast
  rw [toJson, Json.ofWholeOrReal, Binary64.truncate_eq hvalue]
  simp only [hwhole, true_and, habs]

/-- What is left out of answers to steps of a kind. -/
def ignored? : StepKind → Option (List Char)
  | .amountInput => some currencySigns
  | .numberInput => some groupingSigns
  | _ => none

/-- Of a blank text nothing is left. -/
theorem cleaned_blank {s : String} (h : Text.isBlankText s = true) : cleaned ignored s = [] := by
  have hfront : Text.trimFront s.toList = [] :=
    List.dropWhile_eq_nil_iff.mpr (List.all_eq_true.mp h)
  rw [cleaned, Text.trimChars, hfront]
  rfl

theorem Denotes.not_blank (h : Denotes ignored raw i) : InputHandler.isBlank raw = false := by
  have hsome : ∀ {s : String}, cleaned ignored s ≠ [] →
      InputHandler.isBlank (.string s) = false := by
    intro s hs
    exact Bool.eq_false_of_not_eq_true fun hblank => hs (cleaned_blank hblank)
  cases h with
  | integer i fits => rfl
  | digits s ds digits text =>
    apply hsome
    rw [text]
    exact digits.some
  | minus s ds digits text =>
    apply hsome
    rw [text]
    exact List.cons_ne_nil _ _

/-- What the handlers of amounts and numbers make of an integer. -/
theorem normalized_integer {kind : StepKind} (hkind : ignored? kind = some ignored)
    (h : Denotes ignored raw i) :
    ((∃ message, InputHandler.normalized kind raw = .error message) ∧ 2 ^ 1023 ≤ i.natAbs) ∨
      ∃ x, InputHandler.normalized kind raw = .ok (toJson x) ∧ x.isFinite = true ∧
        x.value = rounded i := by
  have hblank := h.not_blank
  cases kind with
  | amountInput =>
    cases hkind
    rcases ofJson?_integer h with ⟨hnone, hgreat⟩ | ⟨x, hx, hfinite, hvalue⟩
    · refine .inl ⟨⟨InputHandler.badAmount, ?_⟩, hgreat⟩
      simp [InputHandler.normalized, InputHandler.normalizeAmount, hblank, hnone]
    · refine .inr ⟨x, ?_, hfinite, hvalue⟩
      have hwhole : x.isWhole = true := (Binary64.isWhole_iff hfinite).mpr ⟨_, hvalue⟩
      simp [InputHandler.normalized, InputHandler.normalizeAmount, hblank, hx, Option.filter,
        hwhole]
  | numberInput =>
    cases hkind
    rcases ofJson?_integer h with ⟨hnone, hgreat⟩ | ⟨x, hx, hfinite, hvalue⟩
    · refine .inl ⟨⟨InputHandler.badNumber, ?_⟩, hgreat⟩
      simp [InputHandler.normalized, InputHandler.normalizeNumber, InputHandler.normalizeNumeric,
        hblank, hnone]
    · refine .inr ⟨x, ?_, hfinite, hvalue⟩
      simp [InputHandler.normalized, InputHandler.normalizeNumber, InputHandler.normalizeNumeric,
        hblank, hx]
  | _ => cases hkind

/-- An integer that is given for an amount or a number is taken, if it is below `2 ^ 1023`, and what
becomes of it is the integer after rounding to 53 bits: the integer itself up to `2 ^ 53`, and in no
case further from it than by its `2 ^ -53`. -/
theorem integer_normalized {kind : StepKind} (hkind : ignored? kind = some ignored) (d : StepDef)
    (h : Denotes ignored raw i) :
    (i.natAbs < 2 ^ 1023 → ∃ v, (InputHandler.builtin kind).normalize d raw = .ok v) ∧
    ∀ v, (InputHandler.builtin kind).normalize d raw = .ok v →
      ∃ n : Number, v = .number n ∧ n.isFinite = true ∧ n.value = rounded i ∧
        (i.natAbs < 9000000000000000 → n = .whole i) ∧ (i.natAbs ≤ 2 ^ 53 → n.value = i) ∧
        2 ^ 53 * (rounded i - i).natAbs ≤ i.natAbs := by
  show (_ → ∃ v, InputHandler.normalized kind raw = .ok v) ∧
    ∀ v, InputHandler.normalized kind raw = .ok v → _
  rcases normalized_integer hkind h with ⟨⟨message, hx⟩, hgreat⟩ | ⟨x, hx, hfinite, hvalue⟩
  · rw [hx]
    exact ⟨fun hreach => absurd hgreat (Nat.not_le_of_lt hreach), fun v hv => by cases hv⟩
  · refine ⟨fun _ => ⟨_, hx⟩, fun v hv => ?_⟩
    cases hx.symm.trans hv
    have hexact : i.natAbs ≤ 2 ^ 53 → (rounded i : Rat) = i := fun hsmall => by
      rw [Binary64.rounded_of_le hsmall]
    rw [toJson_whole hfinite hvalue]
    by_cases hlimit : (rounded i).natAbs < 9000000000000000
    · rw [if_pos hlimit]
      refine ⟨.whole (rounded i), rfl, rfl, rfl, fun hsmall => ?_, hexact, Binary64.rounded_error i⟩
      rw [Binary64.rounded_of_le (by omega)]
    · rw [if_neg hlimit]
      refine ⟨.real x, rfl, hfinite, hvalue, fun hsmall => ?_, ?_, Binary64.rounded_error i⟩
      · rw [Binary64.rounded_of_le (by omega)] at hlimit
        exact absurd hsmall hlimit
      · intro hsmall
        exact hvalue.trans (hexact hsmall)

/-- Three thousand yen, as people write them, are the number 3000. -/
theorem integer_normalized_yen :
    let raw : Json := .string "３,000 円"
    ignored? .amountInput = some currencySigns ∧ Denotes currencySigns raw 3000 ∧
    (InputHandler.builtin .amountInput).normalize {} raw = .ok (.ofInt 3000) := by
  intro raw
  have hkind : ignored? .amountInput = some currencySigns := rfl
  have h : Denotes currencySigns raw 3000 :=
    .digits _ "3000".toList ⟨by decide, List.all_eq_true.mp (by decide)⟩ (by decide +kernel)
  have hsmall : InWord 3000 := Binary64.inWord_of_lt (by decide)
  obtain ⟨htaken, hvalue⟩ := integer_normalized hkind {} h
  obtain ⟨v, hv⟩ := htaken hsmall.small
  obtain ⟨n, rfl, -, -, hwhole, -⟩ := hvalue v hv
  rw [hwhole (by decide)] at hv
  exact ⟨hkind, h, hv⟩

/-- From `2 ^ 53` on an integer may become another one. -/
theorem integer_changed :
    let i : Int := 9007199254740993
    Denotes currencySigns (.ofInt i) i ∧
    ∃ n : Number, (InputHandler.builtin .amountInput).normalize {} (.ofInt i) = .ok (.number n) ∧
      n.value = 9007199254740992 ∧ n.value ≠ i := by
  intro i
  have hword : InWord i := Binary64.inWord_of_lt (by decide)
  have h : Denotes currencySigns (.ofInt i) i := .integer i hword
  have hkind : ignored? .amountInput = some currencySigns := rfl
  rcases normalized_integer hkind h with ⟨-, hgreat⟩ | ⟨x, hx, hfinite, hvalue⟩
  · exact absurd hgreat (Nat.not_le_of_lt hword.small)
  · have hrounded : rounded i = 9007199254740992 := by decide +kernel
    rw [hrounded] at hvalue
    rw [toJson_whole hfinite hvalue, if_neg (by decide)] at hx
    refine ⟨h, .real x, hx, hvalue, ?_⟩
    rw [Number.value, hvalue]
    decide +kernel

end Amount

end Dialogue
