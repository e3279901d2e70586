import Dialogue.Number.Decimal
import Dialogue.Text.Blank

/-!
The characters of numbers.

A text that is read as a number is not empty, and has letters, digits, points and signs in it and
nothing else (`ofText?_chars`, `natural64?_chars`). So there is no blank and no separator in it. The
texts that decimals are written as have no other characters either (`positional_numeric`,
`scientific_numeric`).
-/
namespace Dialogue

/-- A character that the text of a number may have. -/
def isNumberChar (c : Char) : Bool := c.isAlphanum || c = '.' || c = '+' || c = '-'

theorem isNumberChar_of_isDigit {c : Char} (h : c.isDigit = true) : isNumberChar c = true := by
  simp [isNumberChar, Char.isAlphanum, h]

theorem isBlank_of_isNumberChar {c : Char} (h : isNumberChar c = true) :
    Text.isBlank c = false := by
  cases hblank : Text.isBlank c with
  | false => rfl
  | true =>
    have hclass : ∀ n ∈ Text.blankPoints, isNumberChar (Char.ofNat n) = false := by decide
    have hnone := hclass _ (Text.toNat_mem_blankPoints hblank)
    rw [Char.ofNat_toNat, h] at hnone
    cases hnone

/-- A letter is one in either case. -/
theorem isAlpha_of_toLower {c : Char} (h : c.toLower.isAlpha = true) : c.isAlpha = true := by
  by_cases hupper : c.isUpper = true
  · exact Bool.or_eq_true_iff.mpr (.inl hupper)
  · have hrange : ¬ (c.val ≥ 'A'.val ∧ c.val ≤ 'Z'.val) := fun hin => hupper (decide_eq_true hin)
    have hsame : c.toLower = c := dif_neg hrange
    rwa [hsame] at h

/-- Digits may stand before characters of a number. -/
theorem chars_of_dropWhile {cs : List Char}
    (h : ∀ c ∈ cs.dropWhile Char.isDigit, isNumberChar c = true) :
    ∀ c ∈ cs, isNumberChar c = true := by
  intro c hc
  rw [← List.takeWhile_append_dropWhile (p := Char.isDigit) (l := cs), List.mem_append] at hc
  rcases hc with hc | hc
  · exact isNumberChar_of_isDigit (List.all_eq_true.mp List.all_takeWhile c hc)
  · exact h c hc

theorem chars_cons {c : Char} {cs : List Char} (hc : isNumberChar c = true)
    (h : ∀ d ∈ cs, isNumberChar d = true) : ∀ d ∈ c :: cs, isNumberChar d = true := by
  intro d hd
  rcases List.mem_cons.mp hd with rfl | hd
  · exact hc
  · exact h d hd

namespace Binary64

/-- A number may be a word. -/
theorem word_chars {cs : List Char} {word : String} (h : String.ofList (cs.map Char.toLower) = word)
    (hword : ∀ c ∈ word.toList, c.isAlpha = true) : ∀ c ∈ cs, isNumberChar c = true := by
  intro c hc
  have hlower : c.toLower ∈ word.toList := by
    rw [← h, String.toList_ofList]
    exact List.mem_map_of_mem hc
  simp [isNumberChar, Char.isAlphanum, isAlpha_of_toLower (hword _ hlower)]

theorem exponentOf?_chars {cs : List Char} {e : Int} (h : exponentOf? cs = some e) :
    ∀ c ∈ cs, isNumberChar c = true := by
  cases cs with
  | nil => simp
  | cons c rest =>
    unfold exponentOf? at h
    dsimp only at h
    split at h
    · next hmark =>
      have hdigits : ∀ (negative : Bool) (digits : List Char),
          (if digits.isEmpty || !digits.all Char.isDigit then none
          else
            let n := min (digitsValue digits) 1000000
            some (if negative then -(n : Int) else n)) = some e →
          ∀ d ∈ digits, isNumberChar d = true := by
        intro negative digits h d hd
        split at h
        · cases h
        · next hall =>
          simp only [Bool.or_eq_true, Bool.not_eq_true', not_or, Bool.not_eq_false] at hall
          exact isNumberChar_of_isDigit (List.all_eq_true.mp hall.2 d hd)
      apply chars_cons
      · simp only [Bool.or_eq_true, decide_eq_true_eq] at hmark
        rcases hmark with rfl | rfl <;> decide
      · split at h
        · exact chars_cons (by decide) (hdigits true _ h)
        · exact chars_cons (by decide) (hdigits false _ h)
        · exact hdigits false _ h
    · cases h

theorem magnitudeOf?_chars {negative : Bool} {cs : List Char} {x : Binary64}
    (h : magnitudeOf? negative cs = some x) : cs ≠ [] ∧ ∀ c ∈ cs, isNumberChar c = true := by
  constructor
  · rintro rfl
    cases h
  · unfold magnitudeOf? at h
    split at h
    next whole rest hspan =>
    obtain ⟨-, rfl⟩ := Prod.mk.inj hspan.symm
    apply chars_of_dropWhile
    split at h
    next fraction after hfraction =>
    split at h
    · cases h
    · obtain ⟨e, he, -⟩ := Option.map_eq_some_iff.mp h
      have hafter := exponentOf?_chars he
      split at hfraction
      · next r hpoint =>
        rw [hpoint]
        obtain ⟨-, rfl⟩ := Prod.mk.inj hfraction.symm
        exact chars_cons (by decide) (chars_of_dropWhile hafter)
      · cases hfraction
        exact hafter

theorem ofText?_chars {text : String} {x : Binary64} (h : ofText? text = some x) :
    text.toList ≠ [] ∧ ∀ c ∈ text.toList, isNumberChar c = true := by
  have hunsigned : ∀ (negative : Bool) (cs : List Char),
      (let word := String.ofList (cs.map Char.toLower)
      if word = "inf" || word = "infinity" then some (.infinite negative)
      else if word = "nan" then some .nan
      else magnitudeOf? negative cs) = some x →
      cs ≠ [] ∧ ∀ c ∈ cs, isNumberChar c = true := by
    intro negative cs h
    dsimp only at h
    have hword : ∀ {word : String}, String.ofList (cs.map Char.toLower) = word → word ≠ "" →
        (∀ c ∈ word.toList, c.isAlpha = true) → cs ≠ [] ∧ ∀ c ∈ cs, isNumberChar c = true := by
      intro word hsame hne halpha
      refine ⟨?_, word_chars hsame halpha⟩
      rintro rfl
      exact hne hsame.symm
    split at h
    · next hinf =>
      simp only [Bool.or_eq_true, decide_eq_true_eq] at hinf
      rcases hinf with hinf | hinf
      · exact hword hinf (by decide) (List.all_eq_true.mp (by decide))
      · exact hword hinf (by decide) (List.all_eq_true.mp (by decide))
    · split at h
      · next hnan => exact hword hnan (by decide) (List.all_eq_true.mp (by decide))
      · exact magnitudeOf?_chars h
  unfold ofText? at h
  split at h
  next hsign =>
  have hrest := hunsigned _ _ h
  split at hsign
  · next hminus =>
    rw [hminus]
    cases hsign
    exact ⟨by simp, chars_cons (by decide) hrest.2⟩
  · next hplus =>
    rw [hplus]
    cases hsign
    exact ⟨by simp, chars_cons (by decide) hrest.2⟩
  · cases hsign
    exact hrest

end Binary64

theorem Decimal.natural64?_chars {cs : List Char} {n : Nat} (h : Decimal.natural64? cs = some n) :
    cs ≠ [] ∧ ∀ c ∈ cs, isNumberChar c = true := by
  have hdigits : ∀ digits : List Char,
      (let n := Binary64.digitsValue digits
      if !digits.isEmpty && digits.all Char.isDigit && n < unsignedLimit then some n else none) =
        some n → digits ≠ [] ∧ ∀ c ∈ digits, isNumberChar c = true := by
    intro digits h
    dsimp only at h
    split at h
    · next hall =>
      simp only [Bool.and_eq_true, Bool.not_eq_true', List.isEmpty_eq_false_iff] at hall
      exact ⟨hall.1.1, fun c hc => isNumberChar_of_isDigit (List.all_eq_true.mp hall.1.2 c hc)⟩
    · cases h
  unfold Decimal.natural64? at h
  have hrest := hdigits _ h
  split at hrest
  · exact ⟨by simp, chars_cons (by decide) hrest.2⟩
  · exact hrest

theorem Decimal.natural64?_lt {cs : List Char} {n : Nat} (h : Decimal.natural64? cs = some n) :
    n < unsignedLimit := by
  simp only [Decimal.natural64?, Option.ite_none_right_eq_some, Bool.and_eq_true,
    decide_eq_true_eq, Option.some.injEq] at h
  obtain ⟨⟨-, hlt⟩, rfl⟩ := h
  exact hlt

/-! ## Texts that are written -/

/-- The text has characters of numbers only. -/
def Numeric (s : String) : Prop := ∀ c ∈ s.toList, isNumberChar c = true

instance (s : String) : Decidable (Numeric s) :=
  decidable_of_iff (s.toList.all isNumberChar = true) List.all_eq_true

theorem Numeric.append {s t : String} (hs : Numeric s) (ht : Numeric t) : Numeric (s ++ t) := by
  intro c hc
  rw [String.toList_append, List.mem_append] at hc
  exact hc.elim (hs c) (ht c)

theorem Numeric.ite {s t : String} {p : Prop} [Decidable p] (hs : Numeric s) (ht : Numeric t) :
    Numeric (if p then s else t) := by
  split
  · exact hs
  · exact ht

theorem Numeric.take {s : String} (h : Numeric s) (n : Nat) : Numeric (s.take n).toString := by
  intro c hc
  rw [String.Slice.toString_eq, String.toList_copy_take] at hc
  exact h c (List.mem_of_mem_take hc)

theorem Numeric.drop {s : String} (h : Numeric s) (n : Nat) : Numeric (s.drop n).toString := by
  intro c hc
  rw [String.Slice.toString_eq, String.toList_copy_drop] at hc
  exact h c (List.mem_of_mem_drop hc)

theorem numeric_toString (n : Nat) : Numeric (toString n) := by
  intro c hc
  have hdigits : (toString n).toList = Nat.toDigits 10 n := Nat.toList_repr
  rw [hdigits] at hc
  exact isNumberChar_of_isDigit (Nat.isDigit_of_mem_toDigits (by decide) (by decide) hc)

namespace Decimal

theorem zeros_numeric (n : Nat) : Numeric (zeros n) := by
  induction n with
  | zero => exact fun c hc => absurd hc List.not_mem_nil
  | succ n ih =>
    intro c hc
    have hpush : zeros (n + 1) = (zeros n).push '0' := rfl
    rw [hpush, String.toList_push, List.mem_append, List.mem_singleton] at hc
    rcases hc with hc | rfl
    · exact ih c hc
    · decide

theorem positional_numeric (d : Decimal) (keepPoint : Bool) :
    Numeric (d.positional keepPoint) := by
  have hempty : Numeric "" := by decide
  have hpoint : Numeric "." := by decide
  have hwhole : Numeric ".0" := by decide
  have hzero : Numeric "0." := by decide
  have hdigits : Numeric d.digitText := numeric_toString d.digits
  refine .ite ((hdigits.append (zeros_numeric _)).append (.ite hwhole hempty)) (.ite ?_ ?_)
  · exact ((hdigits.take _).append hpoint).append (hdigits.drop _)
  · exact (hzero.append (zeros_numeric _)).append hdigits

theorem scientific_numeric (d : Decimal) : Numeric d.scientific := by
  have hempty : Numeric "" := by decide
  have hpoint : Numeric "." := by decide
  have hmark : Numeric "e" := by decide
  have hminus : Numeric "-" := by decide
  have hplus : Numeric "+" := by decide
  have hdigits : Numeric d.digitText := numeric_toString d.digits
  have htail : Numeric (d.digitText.drop 1).toString := hdigits.drop 1
  exact ((((hdigits.take 1).append (.ite hempty (hpoint.append htail))).append hmark).append
    (.ite hminus hplus)).append (numeric_toString _)

end Decimal

end Dialogue
