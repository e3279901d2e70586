import Dialogue.Proofs.Expr.Spelling

/-!
Values in another spelling.

`plain` stores every whole number below `2 ^ 53` as an integer, so that two values with one plain
form differ in the spelling of whole numbers alone, at any depth (`Respelled`). Such values have one
type, are both true or both false, and have one place in the order. What is not made of other values
has one text as well (`Respelled.display`) and equals the same values (`Respelled.strictEquals`),
but inside arrays and objects equality looks at the spelling (`EqualIfPlain`).
-/
namespace Dialogue

namespace Json

mutual

/-- The value with every whole number below `2 ^ 53` stored as an integer. -/
def plain : Json → Json
  | .number (.real x) => ofWholeOrReal wholeLimit x
  | .array items => .array (plainItems items)
  | .object fields => .object (plainFields fields)
  | v => v

def plainItems : List Json → List Json
  | [] => []
  | v :: rest => plain v :: plainItems rest

def plainFields : List (String × Json) → List (String × Json)
  | [] => []
  | (key, v) :: rest => (key, plain v) :: plainFields rest

end

/-! ## Plain values -/

variable {v w v' w' : Json}

/-- The plain form of an integer that is stored as a float. -/
theorem plain_ofInt {i : Int} (h : |(i : Rat)| < wholeLimit) :
    (ofBinary64 (.ofInt i)).plain = .ofInt i :=
  Binary64.ofWholeOrReal_eq_ofInt.mpr (Binary64.isSmall_ofInt h)

/-- Two numbers with one plain form are alike. -/
theorem alike_of_plain {m n : Number} (h : (number m).plain = (number n).plain) :
    m.toBinary64.Alike n.toBinary64 := by
  have hsmall : ∀ {i : Int} {x : Binary64}, (number (.whole i)).plain = (number (.real x)).plain →
      (Binary64.ofInt i).Alike x := by
    intro i x h
    have hx : x.IsSmall i := Binary64.ofWholeOrReal_eq_ofInt.mp h.symm
    exact (Binary64.isSmall_ofInt hx.bound).alike hx
  cases m with
  | whole i =>
    cases n with
    | whole j =>
      cases h
      rfl
    | real y => exact hsmall h
  | real x =>
    cases n with
    | whole j => exact (hsmall h.symm).symm
    | real y => exact h

theorem length_plainItems (items : List Json) : (plainItems items).length = items.length := by
  induction items with
  | nil => rfl
  | cons v rest ih => rw [plainItems, List.length_cons, ih, List.length_cons]

/-- Arrays with one plain form have one length. -/
theorem length_of_plainItems {xs ys : List Json} (h : plainItems xs = plainItems ys) :
    xs.length = ys.length := by
  rw [← length_plainItems xs, h, length_plainItems]

theorem getElem?_plainItems (items : List Json) (i : Nat) :
    (plainItems items)[i]? = items[i]?.map plain := by
  induction items generalizing i with
  | nil => rfl
  | cons v rest ih =>
    cases i with
    | zero => rfl
    | succ i => exact ih i

theorem length_plainFields (fields : Fields) : (plainFields fields).length = fields.length := by
  induction fields with
  | nil => rfl
  | cons field rest ih => rw [plainFields, List.length_cons, ih, List.length_cons]

theorem get?_plainFields (fields : Fields) (key : String) :
    Entries.get? (plainFields fields) key = (Entries.get? fields key).map plain := by
  induction fields with
  | nil => rfl
  | cons field rest ih =>
    rw [plainFields, Entries.get?, Entries.get?]
    split
    · rfl
    · exact ih

theorem plain_number (m : Number) : ∃ n, (number m).plain = number n := by
  cases m with
  | whole i => exact ⟨.whole i, rfl⟩
  | real x =>
    show ∃ n, ofWholeOrReal wholeLimit x = number n
    rw [ofWholeOrReal]
    split
    · exact ⟨.whole x.truncate, rfl⟩
    · exact ⟨.real x, rfl⟩

/-- Two values with one plain form are the same, or two numbers that are alike, or they are made of
values with one plain form. -/
theorem plain_cases (h : v.plain = w.plain) :
    v = w ∨ (∃ m n, v = .number m ∧ w = .number n ∧ m.toBinary64.Alike n.toBinary64) ∨
      (∃ xs ys, v = .array xs ∧ w = .array ys ∧ plainItems xs = plainItems ys) ∨
      ∃ fs gs, v = .object fs ∧ w = .object gs ∧ plainFields fs = plainFields gs := by
  by_cases hv : ∃ m, v = .number m
  · obtain ⟨m, rfl⟩ := hv
    obtain ⟨k, hk⟩ := plain_number m
    have hw := h.symm.trans hk
    cases w with
    | number n => exact .inr (.inl ⟨m, n, rfl, rfl, alike_of_plain h⟩)
    | _ => cases hw
  · by_cases hw : ∃ n, w = .number n
    · obtain ⟨n, rfl⟩ := hw
      obtain ⟨k, hk⟩ := plain_number n
      have hv' := h.trans hk
      cases v with
      | number m => exact absurd ⟨m, rfl⟩ hv
      | _ => cases hv'
    · cases v with
      | number m => exact absurd ⟨m, rfl⟩ hv
      | array xs =>
        cases w with
        | number n => exact absurd ⟨n, rfl⟩ hw
        | array ys => exact .inr (.inr (.inl ⟨xs, ys, rfl, rfl, array.inj h⟩))
        | _ => cases h
      | object fs =>
        cases w with
        | number n => exact absurd ⟨n, rfl⟩ hw
        | object gs => exact .inr (.inr (.inr ⟨fs, gs, rfl, rfl, object.inj h⟩))
        | _ => cases h
      | _ =>
        cases w with
        | number n => exact absurd ⟨n, rfl⟩ hw
        | array ys => cases h
        | object gs => cases h
        | _ => exact .inl h

/-- The values differ in the spelling of whole numbers below `2 ^ 53` alone. -/
def Respelled (v w : Json) : Prop := v.plain = w.plain

/-- Whether a value is made of values. -/
def isNested : Json → Bool
  | .array _ => true
  | .object _ => true
  | _ => false

/-- Where one thing is looked for in two spellings, both find a value or neither does. -/
theorem found_cases {o o' : Option Json} (h : o.map plain = o'.map plain) :
    (o = none ∧ o' = none) ∨ ∃ v w, o = some v ∧ o' = some w ∧ Respelled v w := by
  cases o with
  | none => exact .inl ⟨rfl, Option.map_eq_none_iff.mp h.symm⟩
  | some v =>
    obtain ⟨w, hw, hplain⟩ := Option.map_eq_some_iff.mp h.symm
    exact .inr ⟨v, w, rfl, hw, hplain.symm⟩

/-! ## What is seen of a value -/

namespace Respelled

/-- Either value is a number, or neither is. -/
theorem number (h : Respelled v w) :
    (∃ m n, v = .number m ∧ w = .number n ∧ m.toBinary64.Alike n.toBinary64) ∨
      ((∀ m, v ≠ .number m) ∧ ∀ n, w ≠ .number n) := by
  rcases plain_cases h with rfl | hnumber | ⟨_, _, rfl, rfl, -⟩ | ⟨_, _, rfl, rfl, -⟩
  · cases v with
    | number m => exact .inl ⟨m, m, rfl, rfl, rfl⟩
    | _ => exact .inr ⟨nofun, nofun⟩
  · exact .inl hnumber
  · exact .inr ⟨nofun, nofun⟩
  · exact .inr ⟨nofun, nofun⟩

theorem isString (h : Respelled v w) : Expr.isString v = Expr.isString w := by
  rcases plain_cases h with
    rfl | ⟨_, _, rfl, rfl, -⟩ | ⟨_, _, rfl, rfl, -⟩ | ⟨_, _, rfl, rfl, -⟩ <;> rfl

theorem isNested (h : Respelled v w) : v.isNested = w.isNested := by
  rcases plain_cases h with
    rfl | ⟨_, _, rfl, rfl, -⟩ | ⟨_, _, rfl, rfl, -⟩ | ⟨_, _, rfl, rfl, -⟩ <;> rfl

theorem isTruthy (h : Respelled v w) : v.isTruthy = w.isTruthy := by
  rcases plain_cases h with
    rfl | ⟨_, _, rfl, rfl, halike⟩ | ⟨_, _, rfl, rfl, -⟩ | ⟨_, _, rfl, rfl, -⟩
  · rfl
  · rw [Json.isTruthy, Json.isTruthy, halike.isZero]
  · rfl
  · rfl

/-- A field is there in both values or in neither. -/
theorem get? (h : Respelled v w) (key : String) :
    (v.get? key = none ∧ w.get? key = none) ∨
      ∃ u t, v.get? key = some u ∧ w.get? key = some t ∧ Respelled u t := by
  apply found_cases
  rcases plain_cases h with
    rfl | ⟨_, _, rfl, rfl, -⟩ | ⟨_, _, rfl, rfl, -⟩ | ⟨fs, gs, rfl, rfl, hfields⟩
  · rfl
  · rfl
  · rfl
  · show (Entries.get? fs key).map plain = (Entries.get? gs key).map plain
    rw [← get?_plainFields, hfields, get?_plainFields]

/-- A string is spelled in one way. -/
theorem eq_of_isString (h : Respelled v w) (hv : Expr.isString v = true) : v = w := by
  rcases plain_cases h with rfl | ⟨_, _, rfl, rfl, -⟩ | ⟨_, _, rfl, rfl, -⟩ | ⟨_, _, rfl, rfl, -⟩
  · rfl
  · cases hv
  · cases hv
  · cases hv

end Respelled

/-- A value that is not made of others is shown as its plain form is. -/
theorem display_plain (h : v.isNested = false) : v.plain.display = v.display := by
  cases v with
  | array items => cases h
  | object fields => cases h
  | number n =>
    cases n with
    | whole i => rfl
    | real x =>
      show (ofWholeOrReal wholeLimit x).display = _
      by_cases hsmall : ∃ i, x.IsSmall i
      · obtain ⟨i, hi⟩ := hsmall
        have hwhole := (Binary64.isSmall_iff.mp ⟨i, hi⟩).1
        rw [display, hi.isFinite, hwhole, Binary64.ofWholeOrReal_eq_ofInt.mpr hi]
        rfl
      · rw [Binary64.ofWholeOrReal_eq_real (not_exists.mp hsmall)]
        rfl
  | _ => rfl

namespace Respelled

theorem display (h : Respelled v w) (hflat : v.isNested = false) : v.display = w.display := by
  rw [← display_plain hflat, h, display_plain (h.isNested ▸ hflat)]

/-- The order does not look at the spelling. -/
theorem compare? (hv : Respelled v v') (hw : Respelled w w') : v.compare? w = v'.compare? w' := by
  rcases hv.number with ⟨m, m', rfl, rfl, hm⟩ | ⟨hnot, hnot'⟩
  · rcases hw.number with ⟨n, n', rfl, rfl, hn⟩ | ⟨hnot, hnot'⟩
    · exact hm.compare? hn
    · have hnone : ∀ {m : Number} {u : Json}, (∀ n, u ≠ .number n) →
          (Json.number m).compare? u = none := by
        intro m u hu
        cases u with
        | number n => exact absurd rfl (hu n)
        | _ => rfl
      rw [hnone hnot, hnone hnot']
  · -- What is no number is compared only if it is a string.
    cases hstring : Expr.isString v with
    | true =>
      obtain rfl := hv.eq_of_isString hstring
      cases hstring' : Expr.isString w with
      | true =>
        obtain rfl := hw.eq_of_isString hstring'
        rfl
      | false =>
        have hnone : ∀ {u : Json}, Expr.isString u = false → v.compare? u = none := by
          intro u hu
          cases v with
          | string s => cases u <;> first | rfl | cases hu
          | _ => cases hstring
        rw [hnone hstring', hnone (hw.isString ▸ hstring')]
    | false =>
      have hnone : ∀ {u t : Json}, (∀ n, u ≠ .number n) → Expr.isString u = false →
          u.compare? t = none := by
        intro u t hu hs
        cases u with
        | number n => exact absurd rfl (hu n)
        | string s => cases hs
        | _ => cases t <;> rfl
      rw [hnone hnot hstring, hnone hnot' (hv.isString ▸ hstring)]

end Respelled

/-! ## Equality -/

/-- Numbers that are equal in one spelling are so in their plain form. -/
theorem same_plain_number {m n : Number} (h : m.same n = true) :
    (number m).plain.same (number n).plain = true := by
  cases m with
  | whole i =>
    cases n with
    | whole j => exact h
    | real y => cases h
  | real x =>
    cases n with
    | whole j => cases h
    | real y =>
      show (ofWholeOrReal wholeLimit x).same (ofWholeOrReal wholeLimit y) = true
      by_cases hx : ∃ i, x.IsSmall i
      · obtain ⟨i, hi⟩ := hx
        rw [Binary64.ofWholeOrReal_eq_ofInt.mpr hi,
          Binary64.ofWholeOrReal_eq_ofInt.mpr (hi.of_same h)]
        exact decide_eq_true rfl
      · have hy : ∀ i, ¬ y.IsSmall i := fun i hi =>
          hx ⟨i, hi.of_same (Binary64.same_swap h)⟩
        rw [Binary64.ofWholeOrReal_eq_real (not_exists.mp hx), Binary64.ofWholeOrReal_eq_real hy]
        exact h

mutual

/-- Values that are equal in one spelling are so in their plain form. -/
theorem same_plain : ∀ v w : Json, v.same w = true → v.plain.same w.plain = true
  | .null, w, h => by cases w <;> first | rfl | cases h
  | .bool b, w, h => by
    cases w with
    | bool c => exact h
    | _ => cases h
  | .number m, w, h => by
    cases w with
    | number n => exact same_plain_number h
    | _ => cases h
  | .string s, w, h => by
    cases w with
    | string t => exact h
    | _ => cases h
  | .array xs, w, h => by
    cases w with
    | array ys => exact sameItems_plain xs ys h
    | _ => cases h
  | .object fs, w, h => by
    cases w with
    | object gs =>
      obtain ⟨hlength, hfields⟩ := Bool.and_eq_true_iff.mp h
      show (decide ((plainFields fs).length = (plainFields gs).length) &&
        sameFields (plainFields fs) (plainFields gs)) = true
      rw [length_plainFields, length_plainFields, hlength, Bool.true_and]
      exact sameFields_plain fs gs hfields
    | _ => cases h

theorem sameItems_plain : ∀ xs ys : List Json, sameItems xs ys = true →
    sameItems (plainItems xs) (plainItems ys) = true
  | [], [], _ => rfl
  | [], _ :: _, h => nomatch h
  | _ :: _, [], h => nomatch h
  | v :: xs, w :: ys, h => by
    obtain ⟨hfirst, hrest⟩ := Bool.and_eq_true_iff.mp h
    exact Bool.and_eq_true_iff.mpr ⟨same_plain v w hfirst, sameItems_plain xs ys hrest⟩

theorem sameFields_plain : ∀ fs gs : Fields, sameFields fs gs = true →
    sameFields (plainFields fs) (plainFields gs) = true
  | [], _, _ => rfl
  | (key, v) :: fs, gs, h => by
    obtain ⟨hfirst, hrest⟩ := Bool.and_eq_true_iff.mp h
    refine Bool.and_eq_true_iff.mpr ⟨?_, sameFields_plain fs gs hrest⟩
    rw [get?_plainFields]
    split at hfirst
    · next w hw =>
      rw [hw]
      exact same_plain v w hfirst
    · cases hfirst

end

/-- The values are made of others and equal only in their plain form. -/
def EqualIfPlain (v w : Json) : Prop :=
  v.isNested = true ∧ v.plain.same w.plain = true ∧ v.same w = false

theorem same_eq_plain (hnested : v.isNested = true) (h : ¬ EqualIfPlain v w) :
    v.same w = v.plain.same w.plain := by
  cases hsame : v.same w with
  | true => exact (same_plain v w hsame).symm
  | false =>
    cases hplain : v.plain.same w.plain with
    | true => exact absurd ⟨hnested, hplain, hsame⟩ h
    | false => rfl

theorem strictEquals_of_not_number (h : ∀ m, v ≠ .number m) : v.strictEquals w = v.same w := by
  cases v with
  | number m => exact absurd rfl (h m)
  | _ => rfl

/-- Equality does not look at the spelling, but inside values that are made of others. -/
theorem Respelled.strictEquals (hv : Respelled v v') (hw : Respelled w w')
    (h : ¬ EqualIfPlain v w) (h' : ¬ EqualIfPlain v' w') :
    v.strictEquals w = v'.strictEquals w' := by
  rcases hv.number with ⟨m, m', rfl, rfl, hm⟩ | ⟨hnot, hnot'⟩
  · rcases hw.number with ⟨n, n', rfl, rfl, hn⟩ | ⟨hnot, hnot'⟩
    · show m.toBinary64.same n.toBinary64 = m'.toBinary64.same n'.toBinary64
      rw [Binary64.same, Binary64.same, hm.compare? hn]
    · have hnone : ∀ {m : Number} {u : Json}, (∀ n, u ≠ .number n) →
          (Json.number m).strictEquals u = false := by
        intro m u hu
        cases u with
        | number n => exact absurd rfl (hu n)
        | _ => rfl
      rw [hnone hnot, hnone hnot']
  · rw [strictEquals_of_not_number hnot, strictEquals_of_not_number hnot']
    cases hnested : v.isNested with
    | true =>
      rw [same_eq_plain hnested h, same_eq_plain (hv.isNested ▸ hnested) h', hv, hw]
    | false =>
      -- There is one spelling of the first value, and it equals no number, array or object.
      obtain rfl : v = v' := by
        rcases plain_cases hv with rfl | ⟨m, _, rfl, -⟩ | ⟨_, _, rfl, -⟩ | ⟨_, _, rfl, -⟩
        · rfl
        · exact absurd rfl (hnot m)
        · cases hnested
        · cases hnested
      rcases plain_cases hw with
        rfl | ⟨_, _, rfl, rfl, -⟩ | ⟨_, _, rfl, rfl, -⟩ | ⟨_, _, rfl, rfl, -⟩
      · rfl
      · cases v with
        | number m => exact absurd rfl (hnot m)
        | _ => rfl
      · cases v with
        | array xs => cases hnested
        | _ => rfl
      · cases v with
        | object fs => cases hnested
        | _ => rfl

end Json

end Dialogue
