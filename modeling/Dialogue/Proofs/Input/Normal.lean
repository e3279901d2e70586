import Dialogue.Proofs.Input.Bounds
import Dialogue.Proofs.Json.RoundTrip
import Dialogue.Proofs.Number.Texts
import Dialogue.Proofs.Text.Trimming

/-!
Answers that are given again.

What the handler of a built-in kind makes of a raw answer is in normal form (`normalized_normal`):
a text without blanks around it, or the JSON number that its own binary64 number is written as, or
the empty text for a blank answer. An answer in normal form is left as it is (`Normal.normalized`).
So an answer that was recorded may be given again: it is judged as the raw answer is that it came
from, and if it passes, the same value is recorded (`normalize_normalized`).
-/
namespace Dialogue

/-! ## Texts without blanks around them -/

namespace Text

/-- No blanks stand around the text. -/
def Trimmed (s : String) : Prop := trim s = s

instance (s : String) : Decidable (Trimmed s) := inferInstanceAs (Decidable (trim s = s))

theorem trim_trimmed (s : String) : Trimmed (trim s) := by
  rw [Trimmed, trim, trim, String.toList_ofList, trimChars_trimChars]

theorem trimmed_of_toList {s : String} (h : trimChars s.toList = s.toList) : Trimmed s := by
  rw [Trimmed, trim, h, String.ofList_toList]

/-- A text between brackets or quotes has no blanks around it, whatever is between. -/
theorem trimmed_enclosed {s : String} {c d : Char} {cs : List Char}
    (h : s.toList = c :: (cs ++ [d])) (hc : isBlank c = false) (hd : isBlank d = false) :
    Trimmed s := by
  have hnone : Blanks [] := fun e he => absurd he List.not_mem_nil
  have hfront : BeginsPlain s.toList := by
    rw [h]
    rintro e he
    cases he
    exact hc
  have hback : EndsPlain s.toList := by
    rw [h]
    have hlast : EndsPlain [d] := by
      rintro e he
      cases he
      exact hd
    exact hlast.append (List.cons_ne_nil _ _) (c :: cs)
  have hpadded := trimChars_padded hfront hback hnone hnone
  rw [List.nil_append, List.append_nil] at hpadded
  exact trimmed_of_toList hpadded

end Text

open Text (Trimmed)

theorem Numeric.trimmed {s : String} (h : Numeric s) : Trimmed s :=
  Text.trimmed_of_toList (Text.trimChars_of_plain fun c hc => isBlank_of_isNumberChar (h c hc))

namespace Number

theorem realText_numeric (x : Binary64) : Numeric (realText x) := by
  have hminus : Numeric "-" := by decide
  have hnull : Numeric "null" := by decide
  cases x with
  | nan => exact hnull
  | infinite negative => exact hnull
  | finite negative m e =>
    have hdigits : ∀ d : Decimal, Numeric
        (if leastPositional ≤ d.leading ∧ d.leading ≤ greatestPositional then d.positional true
        else d.scientific) :=
      fun d => .ite (d.positional_numeric true) d.scientific_numeric
    exact .ite (hminus.append (hdigits _)) (hdigits _)

theorem text_numeric (n : Number) : Numeric n.text := by
  cases n with
  | whole i =>
    have hminus : Numeric "-" := by decide
    cases i with
    | ofNat n => exact numeric_toString n
    | negSucc n => exact hminus.append (numeric_toString (n + 1))
  | real x => exact realText_numeric x

end Number

namespace Json

theorem text_trimmed (v : Json) : Trimmed v.text := by
  cases v with
  | null => decide
  | bool b => cases b <;> decide
  | number n => exact n.text_numeric.trimmed
  | string s => exact Text.trimmed_enclosed (quote_toList s) (by decide) (by decide)
  | array items =>
    cases items with
    | nil => decide
    | cons v rest => exact Text.trimmed_enclosed (text_array v rest) (by decide) (by decide)
  | object fields =>
    cases fields with
    | nil => decide
    | cons field rest =>
      exact Text.trimmed_enclosed (text_object field rest) (by decide) (by decide)

/-- Only texts keep the blanks around them when they are displayed. -/
theorem display_trimmed {v : Json} (h : v.string? = none) : Trimmed v.display := by
  cases v with
  | string s => cases h
  | number n =>
    cases n with
    | whole i => exact text_trimmed _
    | real x =>
      rw [display]
      split
      · exact text_trimmed _
      · exact (Number.text_numeric _).trimmed
  | _ => exact text_trimmed _

end Json

/-! ## Numbers that are written once more -/

theorem Binary64.isFinite_of_isWhole {x : Binary64} (h : x.isWhole = true) : x.isFinite = true := by
  cases x with
  | finite => rfl
  | _ => cases h

namespace Amount

/-- Below the limit, an integer is written as itself. -/
theorem toJson_ofInt {i : Int} (h : i.natAbs < 9000000000000000) :
    (Binary64.ofInt i).isWhole = true ∧ toJson (.ofInt i) = .ofInt i := by
  obtain ⟨hfinite, hvalue⟩ := Binary64.ofInt_exact (h.le.trans (by decide))
  exact ⟨(Binary64.isWhole_iff hfinite).mpr ⟨i, hvalue⟩,
    (toJson_whole hfinite hvalue).trans (if_pos h)⟩

/-- A number is written as an integer below the limit, or as it is. -/
theorem toJson_cases (x : Binary64) :
    (∃ i : Int, i.natAbs < 9000000000000000 ∧ toJson x = .ofInt i) ∨
      toJson x = .ofBinary64 x := by
  by_cases hwhole : x.isWhole = true
  · have hfinite := Binary64.isFinite_of_isWhole hwhole
    obtain ⟨i, hi⟩ := (Binary64.isWhole_iff hfinite).mp hwhole
    by_cases hsmall : i.natAbs < 9000000000000000
    · exact .inl ⟨i, hsmall, (toJson_whole hfinite hi).trans (if_pos hsmall)⟩
    · exact .inr ((toJson_whole hfinite hi).trans (if_neg hsmall))
  · exact .inr (if_neg fun h => hwhole h.1)

/-- What a number is written as is read and written again as the same, and it stays whole. -/
theorem toJson_settled (x : Binary64) :
    ∃ n : Number, toJson x = .number n ∧ toJson n.toBinary64 = .number n ∧
      (x.isWhole = true → n.toBinary64.isWhole = true) := by
  rcases toJson_cases x with ⟨i, hsmall, hx⟩ | hx
  · obtain ⟨hkept, hagain⟩ := toJson_ofInt hsmall
    exact ⟨.whole i, hx, hagain, fun _ => hkept⟩
  · exact ⟨.real x, hx, hx, id⟩

end Amount

/-! ## Normal forms -/

namespace InputHandler

variable {kind : StepKind} {raw v : Json}

theorem normalizeText_trimmed (raw : Json) : Trimmed (normalizeText raw) := by
  cases raw with
  | string s => exact Text.trim_trimmed s
  | null => decide
  | _ => exact Json.display_trimmed rfl

/-- The handlers of the other kinds take an answer as it is. -/
theorem normalized_asIs (htext : kind ≠ .textInput) (hnumeric : kind ∉ numericKinds) (raw : Json) :
    normalized kind raw = .ok raw := by
  cases kind with
  | textInput => exact absurd rfl htext
  | amountInput => exact absurd (by decide) hnumeric
  | numberInput => exact absurd (by decide) hnumeric
  | sliderSelect => exact absurd (by decide) hnumeric
  | _ => rfl

/-- The normal forms of the answers to the steps of a kind. -/
inductive Normal (kind : StepKind) : Json → Prop where
  | text (asks : kind = .textInput) (s : String) (trimmed : Trimmed s) : Normal kind (.string s)
  | blank (numeric : kind ∈ numericKinds) (noSlider : kind ≠ .sliderSelect) :
      Normal kind (.string "")
  | number (numeric : kind ∈ numericKinds) (n : Number)
      (settled : Amount.toJson n.toBinary64 = .number n)
      (whole : kind = .amountInput → n.toBinary64.isWhole = true) : Normal kind (.number n)
  | asIs (noText : kind ≠ .textInput) (noNumber : kind ∉ numericKinds) (v : Json) : Normal kind v

theorem normalized_normal (h : normalized kind raw = .ok v) : Normal kind v := by
  by_cases htext : kind = .textInput
  · subst htext
    cases h
    exact .text rfl _ (normalizeText_trimmed raw)
  by_cases hnumeric : kind ∈ numericKinds
  · rcases normalized_numeric hnumeric h with ⟨rfl, hslider, -⟩ | ⟨ignored, x, -, rfl, hwhole⟩
    · exact .blank hnumeric hslider
    · obtain ⟨n, hn, hsettled, hkept⟩ := Amount.toJson_settled x
      rw [hn]
      exact .number hnumeric n hsettled fun hamount => hkept (hwhole hamount)
  · rw [normalized_asIs htext hnumeric] at h
    cases h
    exact .asIs htext hnumeric raw

/-- An answer in normal form is left as it is. -/
theorem Normal.normalized (h : Normal kind v) : InputHandler.normalized kind v = .ok v := by
  cases h with
  | text asks s trimmed =>
    rw [asks]
    exact congrArg (fun s => Except.ok (Json.string s)) trimmed
  | blank numeric noSlider =>
    rcases mem_numericKinds.mp numeric with rfl | rfl | rfl
    · rfl
    · rfl
    · exact absurd rfl noSlider
  | number numeric n settled whole =>
    have hnumeric : ∀ ignored, normalizeNumeric ignored (.number n) = .ok (.number n) :=
      fun ignored => congrArg Except.ok settled
    rcases mem_numericKinds.mp numeric with rfl | rfl | rfl
    · have hread : (Amount.ofJson? Amount.currencySigns (.number n)).filter Binary64.isWhole =
          some n.toBinary64 := Option.filter_some_pos (whole rfl)
      simp [InputHandler.normalized, normalizeAmount, isBlank, hread, settled]
    · exact hnumeric Amount.groupingSigns
    · exact hnumeric []
  | asIs noText noNumber v => exact normalized_asIs noText noNumber v

end InputHandler

/-! ## Answers given again -/

/-- An answer to the current step is judged. -/
theorem Call.judged_current {r : Registry} {m : Machine} {s : State} {step : Step}
    (hstep : m.step? s.currentStep = some step) (raw : Json) :
    Call.judged r m s raw s.currentStep =
      match step.judge r s raw with
      | .error problems => .close (.submission (.invalid problems))
      | .ok value => .submit (.answer value (some s.currentStep)) .submission := by
  have hcurrent : (m.step? s.currentStep).filter (fun _ => s.currentStep = s.currentStep) =
      some step := by
    rw [hstep]
    exact Option.filter_some_pos (decide_eq_true rfl)
  unfold Call.judged
  split
  · next hnone => cases hcurrent.symm.trans hnone
  · next found hfound =>
    cases hcurrent.symm.trans hfound
    rfl

/-- An accepted answer is recorded. -/
theorem Machine.answer_recorded {m : Machine} {s : State} {value : Json} {named : Option String}
    {t : Transition} (h : m.transition s (.answer value named) = .ok t) :
    t.state.context.responses = s.context.responses.set s.currentStep value := by
  obtain ⟨step, hstep, haccepts⟩ := accepts_of_transition h
  cases haccepts with
  | answered value named id => rw [← step?_id hstep]; rfl

namespace InputHandler

variable {kind : StepKind} {raw v : Json}

/-- What the handler of a built-in kind makes of a raw answer is in normal form, and the handler
takes it again and leaves it as it is. So it may be given as the answer again at a step with that
handler: it is judged as the raw answer is, and if it is accepted, it is what is recorded. -/
theorem normalize_normalized (d : StepDef) (h : (builtin kind).normalize d raw = .ok v) :
    Normal kind v ∧ (builtin kind).normalize d v = .ok v ∧
    ∀ (r : Registry) (m : Machine) (s : State) (step : Step), m.step? s.currentStep = some step →
      r.inputs.get? step.kind.name = some (.builtin kind) →
      Call.judged r m s v s.currentStep = Call.judged r m s raw s.currentStep ∧
      ∀ e purpose t, Call.judged r m s v s.currentStep = .submit e purpose →
        m.transition s e = .ok t →
        t.state.context.responses = s.context.responses.set s.currentStep v := by
  have hnormal : Normal kind v := normalized_normal h
  have hv : normalized kind v = .ok v := hnormal.normalized
  refine ⟨hnormal, hv, fun r m s step hstep hhandler => ?_⟩
  have hraw : step.normalize r raw = .ok v := by
    rw [Step.normalize, hhandler]
    exact h
  have hagain : step.normalize r v = .ok v := by
    rw [Step.normalize, hhandler]
    exact hv
  have hjudge : step.judge r s v = step.judge r s raw := by
    rw [Step.judge, Step.judge, hraw, hagain]
  constructor
  · rw [Call.judged_current hstep, Call.judged_current hstep, hjudge]
  · intro e purpose t hsubmit haccepted
    obtain ⟨value, rfl, ⟨step', hstep', -, hpasses⟩ | ⟨rfl, -⟩⟩ := Call.judged_submit hsubmit
    · cases hstep.symm.trans hstep'
      cases hagain.symm.trans hpasses.normalized
      exact Machine.answer_recorded haccepted
    · exact Machine.answer_recorded haccepted

/-- Three thousand yen that were donated are donated again as the number that was recorded. -/
theorem normalize_normalized_donation :
    let s : State := { donationMachine.run [] [] with
      context := { currentStep := "amount", responses := [("amount", .ofInt 3000)] } }
    let raw : Json := .string "3,000円"
    (builtin .amountInput).normalize amountQuestion raw = .ok (.ofInt 3000) ∧
    Normal .amountInput (.ofInt 3000) ∧
    (builtin .amountInput).normalize amountQuestion (.ofInt 3000) = .ok (.ofInt 3000) ∧
    Call.judged Registry.standard donationMachine s (.ofInt 3000) s.currentStep =
      .submit (.answer (.ofInt 3000) (some "amount")) .submission ∧
    ∃ t, donationMachine.transition s (.answer (.ofInt 3000) (some "amount")) = .ok t ∧
      t.state.context.responses = [("amount", .ofInt 3000)] := by
  intro s raw
  have h : (builtin .amountInput).normalize amountQuestion raw = .ok (.ofInt 3000) := by
    with_unfolding_all rfl
  have hstep : donationMachine.step? s.currentStep = some
      (Build.step donation.flow.steps.has Registry.standard.kinds "amount" amountQuestion) := rfl
  have hraw : Call.judged Registry.standard donationMachine s raw s.currentStep =
      .submit (.answer (.ofInt 3000) (some "amount")) .submission := by
    with_unfolding_all rfl
  obtain ⟨hnormal, hagain, hsteps⟩ := normalize_normalized amountQuestion h
  obtain ⟨hjudged, hrecorded⟩ := hsteps Registry.standard donationMachine s _ hstep rfl
  have hsubmit := hjudged.trans hraw
  obtain ⟨t, ht⟩ : ∃ t, donationMachine.transition s (.answer (.ofInt 3000) (some "amount")) =
      .ok t := by
    with_unfolding_all exact ⟨_, rfl⟩
  exact ⟨h, hnormal, hagain, hsubmit, t, ht, hrecorded _ _ t hsubmit ht⟩

end InputHandler

end Dialogue
