import Dialogue.Proofs.Input.Amounts
import Dialogue.Proofs.Json.Scalars
import Dialogue.Proofs.Number.Texts
import Dialogue.Proofs.Text.Trimming

/-!
Amounts as they are shown.

An amount is shown by its decimal digits in groups of three (`InGroups`), with a minus sign before
it if it is negative and the sign of the currency after it. The handler of amounts leaves the commas
and the sign of the currency out again (`cleaned_yen`), so that it reads what is shown as the
amount, below the limit of whole numbers (`yen_normalized`).
-/
namespace Dialogue.Amount

/-! ## Groups of digits -/

/-- The text shows the digits in groups of three, each with a comma before it; the first group has
none and may have one or two digits. -/
def InGroups (digits text : List Char) : Prop :=
  ∃ (first : List Char) (groups : List (List Char)), digits = first ++ groups.flatten ∧
    text = first ++ groups.flatMap (',' :: ·) ∧ 1 ≤ first.length ∧ first.length ≤ 3 ∧
    ∀ group ∈ groups, group.length = 3

theorem length_groups {groups : List (List Char)} (h : ∀ group ∈ groups, group.length = 3) :
    groups.flatten.length = 3 * groups.length := by
  rw [List.length_flatten, List.map_congr_left h, List.map_const', List.sum_replicate_nat,
    Nat.mul_comm]

theorem grouped_inGroups {digits : List Char} (h : digits ≠ []) :
    InGroups digits (grouped digits) := by
  induction digits with
  | nil => exact absurd rfl h
  | cons c rest ih =>
    by_cases hrest : rest = []
    · rw [hrest]
      have hnone : ∀ group ∈ ([] : List (List Char)), group.length = 3 :=
        fun group hgroup => absurd hgroup List.not_mem_nil
      exact ⟨[c], [], rfl, rfl, by simp, by simp, hnone⟩
    · obtain ⟨first, groups, hdigits, htext, hleast, hmost, hthree⟩ := ih hrest
      have hlength : rest.length = first.length + 3 * groups.length := by
        rw [hdigits, List.length_append, length_groups hthree]
      have hsome : rest.isEmpty = false := by simpa using hrest
      rw [grouped, htext]
      by_cases hfull : first.length = 3
      · -- The first group is full, so that a comma comes before it.
        have hcomma : rest.length % 3 = 0 := by omega
        refine ⟨[c], first :: groups, ?_, ?_, by simp, by simp, ?_⟩
        · simp [hdigits]
        · simp [hcomma, hsome]
        · exact List.forall_mem_cons.mpr ⟨hfull, hthree⟩
      · have hnone : rest.length % 3 ≠ 0 := by omega
        refine ⟨c :: first, groups, ?_, ?_, by simp, ?_, hthree⟩
        · simp [hdigits]
        · simp [hnone]
        · rw [List.length_cons]
          omega

theorem mem_grouped {digits : List Char} {c : Char} (h : c ∈ grouped digits) :
    c ∈ digits ∨ c = ',' := by
  induction digits with
  | nil => exact absurd h List.not_mem_nil
  | cons d rest ih =>
    rw [grouped] at h
    split at h
    · grind
    · grind

/-- Without the commas the digits are left. -/
theorem filter_grouped {keep : Char → Bool} (hcomma : keep ',' = false) {digits : List Char}
    (hdigits : ∀ c ∈ digits, keep c = true) : (grouped digits).filter keep = digits := by
  induction digits with
  | nil => rfl
  | cons d rest ih =>
    obtain ⟨hd, hrest⟩ := List.forall_mem_cons.mp hdigits
    rw [grouped]
    split
    · rw [List.filter_cons_of_pos hd, List.filter_cons_of_neg (by simp [hcomma]), ih hrest]
    · rw [List.filter_cons_of_pos hd, ih hrest]

/-! ## Texts of amounts -/

/-- The decimal digits of a natural number, without leading zeros. -/
structure Decimals (ds : List Char) (n : Nat) : Prop where
  digits : Binary64.IsDigits ds
  value : Binary64.digitsValue ds = n
  noZero : ds.head? = some '0' → ds = ['0']

theorem digitsValue_toDigits (n : Nat) : Binary64.digitsValue (Nat.toDigits 10 n) = n := by
  have hfold : ∀ (ds : List Char) (s : Nat),
      ds.foldl (fun n c => n * 10 + (c.toNat - '0'.toNat)) s = Nat.ofDigitChars 10 ds s := by
    intro ds
    induction ds with
    | nil => exact fun s => rfl
    | cons d ds ih =>
      intro s
      rw [Nat.ofDigitChars_cons, List.foldl_cons, ih, Nat.mul_comm]
  rw [Binary64.digitsValue, hfold]
  exact Nat.ofDigitChars_toDigits (by decide) (by decide)

theorem toDigits_decimals (n : Nat) : Decimals (Nat.toDigits 10 n) n where
  digits := {
    some := List.length_pos_iff.mp Nat.length_toDigits_pos
    all := fun _ hc => Nat.isDigit_of_mem_toDigits (by decide) (by decide) hc }
  value := digitsValue_toDigits n
  noZero := by
    intro hzero
    rcases Nat.eq_zero_or_pos n with rfl | hpos
    · rfl
    · exact absurd hzero (Number.toDigits_head n hpos)

/-- The sign that stands before a negative number. -/
def minus (n : Int) : List Char := if n < 0 then ['-'] else []

theorem yen_toList (n : Int) :
    (yen n).toList = minus n ++ (grouped (Nat.toDigits 10 n.natAbs) ++ ['円']) := by
  have hdigits : (toString n.natAbs).toList = Nat.toDigits 10 n.natAbs := Nat.toList_repr
  simp only [yen, String.toList_append, String.toList_ofList, hdigits, minus, List.append_assoc]
  split <;> rfl

/-- A character that amounts are shown with. -/
def IsShown (c : Char) : Prop := c.isDigit = true ∨ c ∈ ['-', ',', '円']

theorem mem_yen {n : Int} {c : Char} (h : c ∈ (yen n).toList) : IsShown c := by
  rw [yen_toList, List.mem_append, List.mem_append] at h
  rcases h with h | h | h
  · rw [minus] at h
    split at h
    · obtain rfl := List.mem_singleton.mp h
      exact .inr (by decide)
    · exact absurd h List.not_mem_nil
  · rcases mem_grouped h with h | rfl
    · exact .inl ((toDigits_decimals _).digits.all c h)
    · exact .inr (by decide)
  · obtain rfl := List.mem_singleton.mp h
    exact .inr (by decide)

theorem IsShown.not_blank {c : Char} (h : IsShown c) : Text.isBlank c = false := by
  rcases h with h | h
  · exact isBlank_of_isNumberChar (isNumberChar_of_isDigit h)
  · have hsigns : (['-', ',', '円'].all fun d => !Text.isBlank d) = true := by decide
    simpa using List.all_eq_true.mp hsigns c h

theorem narrow_digit {c : Char} (h : c.isDigit = true) : narrow c = c := by
  simp only [Char.isDigit, Bool.and_eq_true, decide_eq_true_eq] at h
  have hhigh : c.toNat ≤ 57 := UInt32.le_iff_toNat_le.mp h.2
  exact if_neg fun hwide => by omega

theorem IsShown.narrow {c : Char} (h : IsShown c) : Amount.narrow c = c := by
  rcases h with h | h
  · exact narrow_digit h
  · have hsigns : (['-', ',', '円'].all fun d => Amount.narrow d = d) = true := by decide
    exact of_decide_eq_true (List.all_eq_true.mp hsigns c h)

/-- When the handler has left out what does not count, the sign and the digits are left. -/
theorem cleaned_yen (n : Int) :
    cleaned currencySigns (yen n) = minus n ++ Nat.toDigits 10 n.natAbs := by
  have htrim : Text.trimChars (yen n).toList = (yen n).toList :=
    Text.trimChars_of_plain fun c hc => (mem_yen hc).not_blank
  have hnarrow : (yen n).toList.map narrow = (yen n).toList :=
    (List.map_congr_left fun c hc => (mem_yen hc).narrow).trans (List.map_id _)
  have hdigits : ∀ c ∈ Nat.toDigits 10 n.natAbs,
      (!Text.isBlank c && !currencySigns.contains c) = true := by
    intro c hc
    have hdigit := (toDigits_decimals _).digits.all c hc
    have hblank := isBlank_of_isNumberChar (isNumberChar_of_isDigit hdigit)
    have hsigns : (currencySigns.all fun d => !d.isDigit) = true := by decide
    have hnone : c ∉ currencySigns := fun hmem => by
      have hsign := List.all_eq_true.mp hsigns c hmem
      rw [hdigit] at hsign
      cases hsign
    simp [hblank, hnone]
  have hminus : (minus n).filter (fun c => !Text.isBlank c && !currencySigns.contains c) =
      minus n := by
    rw [minus]
    split <;> decide
  rw [cleaned, htrim, hnarrow, yen_toList, List.filter_append, List.filter_append, hminus,
    filter_grouped (by decide) hdigits, List.filter_cons_of_neg (by decide), List.filter_nil,
    List.append_nil]

/-- What is shown of an amount stands for it. -/
theorem denotes_yen (n : Int) : Denotes currencySigns (.string (yen n)) n := by
  have hcleaned := cleaned_yen n
  by_cases hsign : n < 0
  · rw [minus, if_pos hsign, List.singleton_append] at hcleaned
    have h := Denotes.minus _ _ (toDigits_decimals n.natAbs).digits hcleaned
    rwa [digitsValue_toDigits, show -(n.natAbs : Int) = n by omega] at h
  · rw [minus, if_neg hsign, List.nil_append] at hcleaned
    have h := Denotes.digits _ _ (toDigits_decimals n.natAbs).digits hcleaned
    rwa [digitsValue_toDigits, show (n.natAbs : Int) = n by omega] at h

/-- An amount is shown by a minus sign if it is negative, its decimal digits in groups, and the sign
of the currency; and what is shown of an amount below the limit is taken as that amount. -/
theorem yen_normalized (d : StepDef) (n : Int) :
    (∃ digits text, Decimals digits n.natAbs ∧ InGroups digits text ∧
      (yen n).toList = minus n ++ (text ++ ['円'])) ∧
    (n.natAbs < 9000000000000000 →
      (InputHandler.builtin .amountInput).normalize d (.string (yen n)) = .ok (.ofInt n)) := by
  have hdecimals := toDigits_decimals n.natAbs
  have hkind : ignored? .amountInput = some currencySigns := rfl
  refine ⟨⟨_, _, hdecimals, grouped_inGroups hdecimals.digits.some, yen_toList n⟩, fun hsmall => ?_⟩
  rcases normalized_integer hkind (denotes_yen n) with ⟨-, hgreat⟩ | ⟨x, hx, hfinite, hvalue⟩
  · have hword : Binary64.InWord n := Binary64.inWord_of_lt (hsmall.trans (by decide))
    exact absurd hgreat (Nat.not_le_of_lt hword.small)
  · rw [Binary64.rounded_of_le (hsmall.le.trans (by decide))] at hvalue
    rw [toJson_whole hfinite hvalue, if_pos hsmall] at hx
    exact hx

/-- The greatest amount that is read back with certainty. -/
theorem yen_normalized_greatest :
    let n : Int := -8999999999999999
    n.natAbs < 9000000000000000 ∧ yen n = "-8,999,999,999,999,999円" ∧
    (InputHandler.builtin .amountInput).normalize {} (.string (yen n)) = .ok (.ofInt n) := by
  intro n
  have hsmall : n.natAbs < 9000000000000000 := by decide
  exact ⟨hsmall, by decide +kernel, (yen_normalized {} n).2 hsmall⟩

end Dialogue.Amount
