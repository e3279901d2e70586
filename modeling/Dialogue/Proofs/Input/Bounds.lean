import Dialogue.Machine.Build
import Dialogue.Proofs.Input.Amounts
import Dialogue.Proofs.Machine.Run
import Dialogue.Proofs.Session.Submission

/-!
Numeric answers and their bounds.

An answer to a step that asks for an amount, a number or a place on a slider is normalized to a
number, or to the empty text if it is blank (`normalized_numeric`). A number is checked by the rule
that the bounds in force imply, and it is the normalized number that is compared with them
(`within_of_checked`); the empty text is checked by the step's own rules only. So what is submitted
to the machine is a number within the bounds, or blank, and then no rule of the step objects to that
(`Call.judged_in_range`).
-/
namespace Dialogue

/-! ## Bounds -/

namespace Binary64

/-- The number is at most the rational. -/
def IsLe : Binary64 → Rat → Prop
  | .nan, _ => False
  | .infinite negative, _ => negative = true
  | x@(.finite ..), q => x.value ≤ q

/-- The number is at least the rational. -/
def IsGe : Binary64 → Rat → Prop
  | .nan, _ => False
  | .infinite negative, _ => negative = false
  | x@(.finite ..), q => q ≤ x.value

variable {x b : Binary64}

theorem isLe_of_not_lt (hx : x.isFinite = true) (hb : b ≠ .nan) (h : x.lt b = false) :
    b.IsLe x.value := by
  obtain ⟨s, m, e, rfl⟩ := eq_of_isFinite hx
  cases b with
  | nan => exact absurd rfl hb
  | infinite negative =>
    cases negative with
    | true => exact rfl
    | false => cases h
  | finite s' m' e' =>
    rw [lt, compare?_of_finite rfl rfl] at h
    by_contra hless
    rw [IsLe, not_le] at hless
    simp [hless] at h

theorem isGe_of_not_lt (hx : x.isFinite = true) (hb : b ≠ .nan) (h : b.lt x = false) :
    b.IsGe x.value := by
  obtain ⟨s, m, e, rfl⟩ := eq_of_isFinite hx
  cases b with
  | nan => exact absurd rfl hb
  | infinite negative =>
    cases negative with
    | true => cases h
    | false => exact rfl
  | finite s' m' e' =>
    rw [lt, compare?_of_finite rfl rfl] at h
    by_contra hless
    rw [IsGe, not_le] at hless
    simp [hless] at h

end Binary64

namespace Number

/-- A number that a JSON text can hold. -/
def Proper : Number → Prop
  | .whole i => Binary64.InWord i
  | .real x => x.isFinite = true

theorem Proper.isFinite {n : Number} (h : n.Proper) : n.toBinary64.isFinite = true := by
  cases n with
  | whole i => exact (Binary64.ofInt_whole (Binary64.InWord.small h)).1
  | real x => exact h

/-- The number is within the bounds that there are. -/
structure Within (n : Number) (least most : Option Binary64) : Prop where
  least : ∀ b, least = some b → b ≠ .nan → b.IsLe n.value
  most : ∀ b, most = some b → b ≠ .nan → b.IsGe n.value

end Number

/-! ## What a raw answer becomes -/

/-- The JSON number of a number has its value, exactly. -/
theorem Amount.toJson_exact {x : Binary64} (hx : x.isFinite = true) :
    ∃ n : Number, toJson x = .number n ∧ n.isFinite = true ∧ n.value = x.value ∧
      n.toBinary64.isFinite = true ∧ n.toBinary64.value = x.value := by
  by_cases hwhole : x.isWhole = true
  · obtain ⟨i, hi⟩ := (Binary64.isWhole_iff hx).mp hwhole
    rw [toJson_whole hx hi]
    by_cases hsmall : i.natAbs < 9000000000000000
    · obtain ⟨hfinite, hvalue⟩ := Binary64.ofInt_exact (hsmall.le.trans (by decide))
      rw [if_pos hsmall]
      exact ⟨.whole i, rfl, rfl, hi.symm, hfinite, hvalue.trans hi.symm⟩
    · rw [if_neg hsmall]
      exact ⟨.real x, rfl, hx, rfl, hx, rfl⟩
  · refine ⟨.real x, ?_, hx, rfl, hx, rfl⟩
    rw [toJson, Json.ofWholeOrReal, if_neg fun h => hwhole h.1]
    rfl

theorem Amount.ofJson?_isFinite {ignored : List Char} {raw : Json} {x : Binary64}
    (proper : ∀ n, raw = .number n → n.Proper) (h : ofJson? ignored raw = some x) :
    x.isFinite = true := by
  cases raw with
  | number n => cases h; exact (proper n rfl).isFinite
  | string s =>
    rw [ofJson?, ofText?] at h
    exact (Option.filter_eq_some_iff.mp h).2
  | _ => cases h

namespace InputHandler

/-- The kinds of steps that ask for a number. -/
def numericKinds : List StepKind := [.amountInput, .numberInput, .sliderSelect]

/-- The bounds in force at a step: those of the step, or of the slider. -/
def bounds (kind : StepKind) (d : StepDef) : Option Binary64 × Option Binary64 :=
  match kind with
  | .sliderSelect => (some (sliderOf d).min, some (sliderOf d).max)
  | _ => (d.min, d.max)

variable {kind : StepKind} {raw value : Json}

theorem mem_numericKinds :
    kind ∈ numericKinds ↔ kind = .amountInput ∨ kind = .numberInput ∨ kind = .sliderSelect := by
  simp only [numericKinds, List.mem_cons, List.not_mem_nil, or_false]

theorem normalizeNumeric_ok {ignored : List Char} (h : normalizeNumeric ignored raw = .ok value) :
    ∃ x, Amount.ofJson? ignored raw = some x ∧ value = Amount.toJson x := by
  unfold normalizeNumeric at h
  split at h
  · next x hx => cases h; exact ⟨x, hx, rfl⟩
  · cases h

/-- A raw answer becomes the number that it is read as, and that is a whole one for an amount; a
blank one becomes the empty text, but not for a slider. -/
theorem normalized_numeric (hkind : kind ∈ numericKinds) (h : normalized kind raw = .ok value) :
    (value = .string "" ∧ kind ≠ .sliderSelect ∧ isBlank raw = true) ∨
      ∃ ignored x, Amount.ofJson? ignored raw = some x ∧ value = Amount.toJson x ∧
        (kind = .amountInput → x.isWhole = true) := by
  rcases mem_numericKinds.mp hkind with rfl | rfl | rfl
  · simp only [normalized, normalizeAmount] at h
    split at h
    · next hblank => cases h; exact .inl ⟨rfl, by decide, hblank⟩
    · split at h
      · next x hx =>
        cases h
        obtain ⟨hx, hwhole⟩ := Option.filter_eq_some_iff.mp hx
        exact .inr ⟨_, x, hx, rfl, fun _ => hwhole⟩
      · cases h
  · simp only [normalized, normalizeNumber] at h
    split at h
    · next hblank => cases h; exact .inl ⟨rfl, by decide, hblank⟩
    · obtain ⟨x, hx, rfl⟩ := normalizeNumeric_ok h
      exact .inr ⟨_, x, hx, rfl, fun hamount => by cases hamount⟩
  · obtain ⟨x, hx, rfl⟩ := normalizeNumeric_ok h
    exact .inr ⟨_, x, hx, rfl, fun hamount => by cases hamount⟩

/-! ## The check of the bounds -/

theorem implied_numeric (hkind : kind ∈ numericKinds) (d : StepDef) :
    implied kind d = rangeRule (bounds kind d).1 (bounds kind d).2 := by
  rcases mem_numericKinds.mp hkind with rfl | rfl | rfl <;> rfl

theorem failures_of_checked {validators : Entries Validator} {scope : Option Json}
    {least most : Option Binary64}
    (h : Rule.checkAll validators scope value (rangeRule least most) = [])
    (some : (least.isNone && most.isNone) = false) :
    Rule.failures validators scope value (.range least most) = [] := by
  rw [rangeRule, some, if_neg Bool.false_ne_true] at h
  simpa [Rule.checkAll, Rule.check] using h

/-- A number that passes the rule of the bounds is on the right side of each of them. -/
theorem range_failures {validators : Entries Validator} {scope : Option Json} {n : Number}
    {least most : Option Binary64}
    (h : Rule.failures validators scope (.number n) (.range least most) = []) :
    (∀ b, least = some b → n.toBinary64.lt b = false) ∧
      ∀ b, most = some b → b.lt n.toBinary64 = false := by
  obtain ⟨hleast, hmost⟩ := List.append_eq_nil_iff.mp h
  constructor
  · rintro b rfl
    cases hlt : n.toBinary64.lt b with
    | false => rfl
    | true => simp [Option.filter, hlt] at hleast
  · rintro b rfl
    cases hlt : b.lt n.toBinary64 with
    | false => rfl
    | true => simp [Option.filter, hlt] at hmost

/-- A number that passes the rule that the bounds imply is within them. -/
theorem within_of_checked {validators : Entries Validator} {scope : Option Json} {n : Number}
    {least most : Option Binary64} (hfinite : n.toBinary64.isFinite = true)
    (hvalue : n.toBinary64.value = n.value)
    (h : Rule.checkAll validators scope (.number n) (rangeRule least most) = []) :
    n.Within least most := by
  constructor
  · rintro b rfl hnan
    have hlt := (range_failures (failures_of_checked h rfl)).1 b rfl
    exact hvalue ▸ Binary64.isLe_of_not_lt hfinite hnan hlt
  · rintro b rfl hnan
    have hlt := (range_failures (failures_of_checked h (Bool.and_false _))).2 b rfl
    exact hvalue ▸ Binary64.isGe_of_not_lt hfinite hnan hlt

end InputHandler

/-! ## Submitted answers -/

/-- What an answer to a step of a numeric kind is forwarded as: blank, with no rule against that, or
a number within the bounds, and a whole one for an amount. -/
inductive Step.Forwards (r : Registry) (step : Step) (s : State) (raw : Json) : Json → Prop where
  | blank (kind : step.kind ≠ .sliderSelect) (blank : InputHandler.isBlank raw = true)
      (allowed : Rule.checkAll r.validators (some (s.context.scopeWith (.string ""))) (.string "")
        step.definition.validation = []) :
      Forwards r step s raw (.string "")
  | number (n : Number) (finite : n.isFinite = true)
      (whole : step.kind = .amountInput → ∃ i : Int, n.value = i)
      (within : n.Within (InputHandler.bounds step.kind step.definition).1
        (InputHandler.bounds step.kind step.definition).2) :
      Forwards r step s raw (.number n)

/-- What passes at a step of a numeric kind with its standard handler. -/
theorem Step.Passes.forwards {r : Registry} {step : Step} {s : State} {raw value : Json}
    (hkind : step.kind ∈ InputHandler.numericKinds)
    (hhandler : r.inputs.get? step.kind.name = some (.builtin step.kind))
    (proper : ∀ n, raw = .number n → n.Proper) (h : step.Passes r s raw value) :
    step.Forwards r s raw value := by
  have hnormalized : InputHandler.normalized step.kind raw = .ok value := by
    have hvalue := h.normalized
    rw [Step.normalize, hhandler] at hvalue
    exact hvalue
  have hchecked := h.checked
  rw [Step.rulesFor, hhandler] at hchecked
  rcases InputHandler.normalized_numeric hkind hnormalized with
    ⟨rfl, hslider, hblank⟩ | ⟨ignored, x, hread, rfl, hwhole⟩
  · exact .blank hslider hblank hchecked
  · have hx := Amount.ofJson?_isFinite proper hread
    obtain ⟨n, hn, hfinite, hvalue, hread, hreadValue⟩ := Amount.toJson_exact hx
    rw [hn] at hchecked ⊢
    refine .number n hfinite ?_ ?_
    · intro hamount
      obtain ⟨i, hi⟩ := (Binary64.isWhole_iff hx).mp (hwhole hamount)
      exact ⟨i, hvalue.trans hi⟩
    · apply InputHandler.within_of_checked hread (hreadValue.trans hvalue.symm)
      rw [← InputHandler.implied_numeric hkind]
      exact (List.append_eq_nil_iff.mp ((List.flatMap_append ..).symm.trans hchecked)).1

/-- At a step that asks for an amount, a number or a place on a slider, whatever is submitted to the
machine for a raw answer is blank, if no rule of the step objects to that, or it is a number within
the bounds in force, and a whole one for an amount. -/
theorem Call.judged_in_range {r : Registry} {m : Machine} {s : State} {step : Step}
    (hstep : m.step? s.currentStep = some step) (hkind : step.kind ∈ InputHandler.numericKinds)
    (hhandler : r.inputs.get? step.kind.name = some (.builtin step.kind)) {raw : Json}
    (proper : ∀ n, raw = .number n → n.Proper) {e : Event} {purpose : Purpose}
    (h : Call.judged r m s raw s.currentStep = .submit e purpose) :
    ∃ value, e = .answer value (some s.currentStep) ∧ step.Forwards r s raw value := by
  obtain ⟨value, rfl, ⟨step', hstep', -, hpasses⟩ | ⟨-, hnone⟩⟩ := Call.judged_submit h
  · cases hstep.symm.trans hstep'
    exact ⟨value, rfl, hpasses.forwards hkind hhandler proper⟩
  · rw [hnone rfl] at hstep
    cases hstep

/-- A question for an amount of at least 1000 and at most 50000. -/
def amountQuestion : StepDef where
  kind := .amountInput
  min := some (.ofNat 1000)
  max := some (.ofNat 50000)
  nextStep := some "thanks"

/-- A donation. -/
def donation : FlowDocument where
  flow := {
    initialStep := some "amount"
    steps := [("amount", amountQuestion), ("thanks", { isTerminal := true })] }

/-- The donation, compiled. -/
def donationMachine : Machine := .compiled Registry.standard.kinds donation "amount"

/-- Three thousand yen are submitted as the number 3000, which is within the bounds. -/
theorem judged_in_range_donation :
    let s := donationMachine.run [] []
    let step := Build.step donation.flow.steps.has Registry.standard.kinds "amount" amountQuestion
    let raw : Json := .string "3,000円"
    Machine.build Registry.standard.kinds donation = .ok donationMachine ∧
    donationMachine.step? s.currentStep = some step ∧ step.kind ∈ InputHandler.numericKinds ∧
    Registry.standard.inputs.get? step.kind.name = some (.builtin step.kind) ∧
    (∀ n, raw = .number n → n.Proper) ∧
    Call.judged Registry.standard donationMachine s raw s.currentStep =
      .submit (.answer (.ofInt 3000) (some s.currentStep)) .submission ∧
    (Number.whole 3000).Within (some (.ofNat 1000)) (some (.ofNat 50000)) := by
  intro s step raw
  have hstep : donationMachine.step? s.currentStep = some step := rfl
  have hkind : step.kind ∈ InputHandler.numericKinds := List.mem_cons_self ..
  have hhandler : Registry.standard.inputs.get? step.kind.name = some (.builtin step.kind) := rfl
  have proper : ∀ n, raw = .number n → n.Proper := fun n h => Json.noConfusion h
  have hjudged : Call.judged Registry.standard donationMachine s raw s.currentStep =
      .submit (.answer (.ofInt 3000) (some s.currentStep)) .submission := by
    with_unfolding_all rfl
  obtain ⟨value, hevent, hforwards⟩ := Call.judged_in_range hstep hkind hhandler proper hjudged
  have hvalue : value = .ofInt 3000 := by
    injection hevent with hvalue
    exact hvalue.symm
  rw [hvalue] at hforwards
  cases hforwards with
  | number n finite whole within =>
    exact ⟨rfl, hstep, hkind, hhandler, proper, hjudged, within⟩

end Dialogue
