import Dialogue.Proofs.Json.Entries
import Dialogue.Proofs.Rule.Shorthand
import Dialogue.Rule.Check

/-!
Rules as flags, and the short form of them.

An object of flags gives the rules of its flags, in whichever order its fields are
(`Flags.ofFlags`). A text in short form that says the same gives the same rules, up to their order
(`ofShorthand_perm`), so that the two find the same problems with a value (`ofJson_short_flags`).
-/
namespace Dialogue.Rule

open Text (Blanks EndsPlain)

/-! ## Flags -/

/-- A choice of flags and their values. -/
structure Flags where
  required : Bool := false
  minLength : Option Nat := none
  maxLength : Option Nat := none
  min : Option Number := none
  max : Option Number := none
  pattern : Option String := none

namespace Flags

variable (F : Flags)

/-- The parts of a text in short form that stand for the flags, apart from the pattern. -/
def parts : List Part :=
  (if F.required then [.rule ⟨.required, none⟩] else []) ++
    F.minLength.toList.map (.length .least) ++ F.maxLength.toList.map (.length .most) ++
    (F.min.map Number.toBinary64).toList.map (.range .least) ++
    (F.max.map Number.toBinary64).toList.map (.range .most)

/-- The fields of the object of flags. -/
def fields : Json.Fields :=
  Json.field? "required" .bool (if F.required then some true else none) ++
    (Json.field? "minLength" .ofNat F.minLength ++ (Json.field? "maxLength" .ofNat F.maxLength ++
      (Json.field? "min" .number F.min ++ (Json.field? "max" .number F.max ++
        Json.field? "pattern" .string F.pattern))))

/-- The rules that the flags come to. -/
def rules : List Rule :=
  ((if F.required then [Kind.required] else []) ++ F.pattern.toList.map Kind.pattern ++
    bounded? .length F.minLength F.maxLength ++
    bounded? .range (F.min.map Number.toBinary64) (F.max.map Number.toBinary64)).map
      fun kind => ⟨kind, none⟩

end Flags

theorem nat64?_ofNat {n : Nat} (h : n < unsignedLimit) : (Json.ofNat n).nat64? = some n := by
  have hrange : (0 : Int) ≤ n ∧ (n : Int) < unsignedLimit :=
    ⟨Int.natCast_nonneg n, Int.ofNat_lt.mpr h⟩
  rw [Json.nat64?, Json.ofNat, Json.number?, Option.bind_some, Number.toNat64?, if_pos hrange,
    Int.toNat_natCast]

theorem get?_field? {α : Type} (k : String) (f : α → Json) (o : Option α) (rest : Json.Fields)
    (key : String) :
    Entries.get? (Json.field? k f o ++ rest) key =
      if k = key then (o.map f).or (Entries.get? rest key) else Entries.get? rest key := by
  cases o with
  | none => simp [Json.field?]
  | some a =>
    simp only [Json.field?, List.singleton_append, Entries.get?]
    split <;> rfl

namespace Flags

variable (F : Flags)

theorem nodup_keys : F.fields.keys.Nodup := by
  have hfield : ∀ {α : Type} (k : String) (f : α → Json) (o : Option α),
      (Entries.keys (Json.field? k f o)).Sublist [k] := by
    intro α k f o
    cases o with
    | none => exact List.nil_sublist _
    | some a => exact .refl _
  have hkeys : F.fields.keys.Sublist (["required"] ++ (["minLength"] ++ (["maxLength"] ++
      (["min"] ++ (["max"] ++ ["pattern"]))))) := by
    simp only [fields, Entries.keys, List.map_append]
    exact (hfield ..).append <| (hfield ..).append <| (hfield ..).append <| (hfield ..).append <|
      (hfield ..).append (hfield ..)
  exact List.Sublist.nodup hkeys (by decide)

/-- A field of an object of flags is found in whichever order the fields are. -/
theorem get?_fields {fields : Json.Fields} (h : fields.Perm F.fields) (key : String) :
    Entries.get? fields key = Entries.get? (F.fields ++ []) key := by
  rw [List.append_nil, Entries.get?_perm F.nodup_keys h.symm]

/-- An object of flags does not name the type of a rule. -/
theorem no_type {fields : Json.Fields} (h : fields.Perm F.fields) :
    (Entries.has fields "type" || Entries.has fields "kind") = false := by
  have hget := F.get?_fields h
  simp only [Flags.fields, List.append_assoc] at hget
  simp only [Entries.has, hget, get?_field?, String.reduceEq, if_false, Entries.get?]
  rfl

/-- An object of flags gives the rules of the flags. -/
theorem ofFlags {fields : Json.Fields} (h : fields.Perm F.fields)
    (hleast : ∀ n ∈ F.minLength, n < unsignedLimit) (hmost : ∀ n ∈ F.maxLength, n < unsignedLimit) :
    Rule.ofFlags fields = F.rules := by
  have hget := F.get?_fields h
  have hnat : ∀ o : Option Nat, (∀ n ∈ o, n < unsignedLimit) →
      (o.map Json.ofNat).bind Json.nat64? = o := by
    intro o ho
    cases o with
    | none => rfl
    | some n => rw [Option.map_some, Option.bind_some, nat64?_ofNat (ho n rfl)]
  have hreal : ∀ o : Option Number, ((o.map Json.number).bind Json.number?) = o := by
    intro o
    cases o <;> rfl
  have hstring : ∀ o : Option String, ((o.map Json.string).bind Json.string?) = o := by
    intro o
    cases o <;> rfl
  have hbool : ((if F.required then some true else none).map Json.bool).bind Json.bool? =
      if F.required then some true else none := by
    cases F.required <;> rfl
  simp only [Flags.fields, List.append_assoc] at hget
  simp only [Rule.ofFlags, hget, get?_field?]
  simp only [String.reduceEq, if_true, if_false, Entries.get?, Option.or_none, hbool, hstring,
    hreal, hnat _ hleast, hnat _ hmost]
  rw [Flags.rules, show (none : Option Json).bind Json.string? = none from rfl, Option.toList_none,
    List.map_nil, List.append_nil]
  cases F.required <;> rfl

end Flags

/-! ## The two forms -/

/-- Each bound that is set once is the bound that is left, whichever is set first. -/
theorem lastBounds_perm {α : Type} {least most : Option α} {bounds : List (Side × α)}
    (h : bounds.Perm (least.toList.map (Prod.mk Side.least) ++ most.toList.map (Prod.mk .most))) :
    lastBounds bounds = if least.isNone && most.isNone then none else some (least, most) := by
  cases least with
  | none =>
    cases most with
    | none =>
      obtain rfl : bounds = [] := List.perm_nil.mp h
      rfl
    | some b =>
      obtain rfl : bounds = [(.most, b)] := List.perm_singleton.mp h
      rfl
  | some a =>
    cases most with
    | none =>
      obtain rfl : bounds = [(.least, a)] := List.perm_singleton.mp h
      rfl
    | some b =>
      obtain ⟨x, y, rfl⟩ := List.length_eq_two.mp h.length_eq
      rcases List.mem_pair.mp (h.mem_iff.mp List.mem_cons_self) with rfl | rfl
      · obtain rfl : y = (.most, b) := List.singleton_perm_singleton.mp h.cons_inv
        rfl
      · obtain rfl : y = (.least, a) :=
          List.singleton_perm_singleton.mp (h.trans (.swap _ _ [])).cons_inv
        rfl

theorem bounded?_eq {α : Type} {make : Option α → Option α → Kind} (least most : Option α) :
    (bounded? make least most).map (fun kind => (⟨kind, none⟩ : Rule)) =
      ((if least.isNone && most.isNone then none else some (least, most)).map
        fun bounds => (⟨make bounds.1 bounds.2, none⟩ : Rule)).toList := by
  rw [bounded?]
  split <;> rfl

variable {F : Flags} {ps : List Part}

theorem Flags.rule?_parts (F : Flags) : (F.parts ++ patternParts F.pattern).filterMap Part.rule? =
    ((if F.required then [Kind.required] else []) ++ F.pattern.toList.map Kind.pattern).map
      fun kind => ⟨kind, none⟩ := by
  cases hrequired : F.required <;>
    simp [Flags.parts, hrequired, patternParts, List.filterMap_map, Function.comp_def, Part.rule?]

theorem Flags.length?_parts (F : Flags) :
    (F.parts ++ patternParts F.pattern).filterMap Part.length? =
      F.minLength.toList.map (Prod.mk .least) ++ F.maxLength.toList.map (Prod.mk .most) := by
  cases hrequired : F.required <;>
    simp [Flags.parts, hrequired, patternParts, List.filterMap_cons, List.filterMap_map,
      Function.comp_def, Part.length?]

theorem Flags.range?_parts (F : Flags) :
    (F.parts ++ patternParts F.pattern).filterMap Part.range? =
      (F.min.map Number.toBinary64).toList.map (Prod.mk .least) ++
        (F.max.map Number.toBinary64).toList.map (Prod.mk .most) := by
  cases hrequired : F.required <;>
    simp [Flags.parts, hrequired, patternParts, List.filterMap_cons, List.filterMap_map,
      Function.comp_def, Part.range?]

/-- A text in short form that says what some flags say, in any order, comes to their rules, up to
the order. -/
theorem ofShorthand_perm {cs blanks : List Char} {text : String} (hparts : ps.Perm F.parts)
    (hwritten : Written ps F.pattern cs) (hblanks : Blanks blanks)
    (htext : text.toList = cs ++ blanks) : (ofShorthand text).Perm F.rules := by
  have hperm : (ps ++ patternParts F.pattern).Perm (F.parts ++ patternParts F.pattern) :=
    hparts.append_right _
  have hlengths := hperm.filterMap Part.length?
  have hranges := hperm.filterMap Part.range?
  rw [F.length?_parts] at hlengths
  rw [F.range?_parts] at hranges
  refine (ofShorthand_written hwritten hblanks htext rfl).trans ?_
  rw [lastBounds_perm hlengths, lastBounds_perm hranges, Flags.rules, List.map_append,
    List.map_append, bounded?_eq, bounded?_eq, ← F.rule?_parts]
  exact ((hperm.filterMap Part.rule?).append_right _).append_right _

theorem Written.spells {pattern : Option String} {cs : List Char} (h : Written ps pattern cs) :
    ∀ p ∈ ps, ∃ token, Spells p token := by
  have hsegment : ∀ {p : Option Part} {cs : List Char}, Segment p cs →
      ∀ q ∈ p.toList, ∃ token, Spells q token := by
    intro p cs segment q hq
    cases segment with
    | blank h => cases hq
    | token spells =>
      obtain rfl := List.mem_singleton.mp hq
      exact ⟨_, spells⟩
  induction h with
  | last segment => exact hsegment segment
  | pattern p hbefore hend => exact fun q hq => absurd hq List.not_mem_nil
  | more segment written ih =>
    intro q hq
    rcases List.mem_append.mp hq with hq | hq
    · exact hsegment segment q hq
    · exact ih q hq

/-- A text in short form and an object of flags that say the same find the same problems with every
value in every scope, up to their order. In whichever order the text has the tokens, with blanks and
empty tokens between the bars, the bounds of one kind come to one rule. -/
theorem ofJson_short_flags {cs blanks : List Char} {text : String} {fields : Json.Fields}
    (hparts : ps.Perm F.parts) (hwritten : Written ps F.pattern cs) (hblanks : Blanks blanks)
    (htext : text.toList = cs ++ blanks) (hfields : fields.Perm F.fields) :
    ∃ short flags, ofJson (.string text) = .ok short ∧ ofJson (.object fields) = .ok flags ∧
      (∀ validators scope value,
        (checkAll validators scope value short).Perm (checkAll validators scope value flags) ∧
        (checkAll validators scope value short = [] ↔
          checkAll validators scope value flags = [])) ∧
      short.countP (·.kind.isLength) ≤ 1 ∧ short.countP (·.kind.isRange) ≤ 1 := by
  have hlimit : ∀ side n, Part.length side n ∈ F.parts → n < unsignedLimit := by
    intro side n hn
    obtain ⟨token, spells⟩ := hwritten.spells _ (hparts.mem_iff.mpr hn)
    cases spells with
    | length reads => exact Decimal.natural64?_lt reads
  have hleast : ∀ n ∈ F.minLength, n < unsignedLimit := fun n hn =>
    hlimit .least n (by simp [Flags.parts, Option.mem_def.mp hn])
  have hmost : ∀ n ∈ F.maxLength, n < unsignedLimit := fun n hn =>
    hlimit .most n (by simp [Flags.parts, Option.mem_def.mp hn])
  refine ⟨ofShorthand text, F.rules, by rw [ofJson], ?_, ?_,
    ofShorthand_once _⟩
  · rw [ofJson, F.no_type hfields, if_neg Bool.false_ne_true, F.ofFlags hfields hleast hmost]
  · intro validators scope value
    have hproblems : (checkAll validators scope value _).Perm
        (checkAll validators scope value F.rules) :=
      (ofShorthand_perm hparts hwritten hblanks htext).flatMap_right _
    refine ⟨hproblems, ?_, ?_⟩
    · intro hnone
      exact List.perm_nil.mp (hnone ▸ hproblems.symm)
    · intro hnone
      exact List.perm_nil.mp (hnone ▸ hproblems)

/-- Five flags, with the bounds of the range apart and an empty token between them. -/
theorem ofJson_short_flags_amount :
    ∃ short flags,
      ofJson (.string " max: 5e4 || minLength:2 |required|min:1000| pattern:^(a|b)$  ") =
          .ok short ∧
      ofJson (.object [("pattern", .string "^(a|b)$"), ("max", .number (.whole 50000)),
        ("min", .number (.whole 1000)), ("minLength", .ofNat 2), ("required", .bool true)]) =
          .ok flags ∧
      (∀ validators scope value,
        (checkAll validators scope value short).Perm (checkAll validators scope value flags) ∧
        (checkAll validators scope value short = [] ↔
          checkAll validators scope value flags = [])) ∧
      short.countP (·.kind.isLength) ≤ 1 ∧ short.countP (·.kind.isRange) ≤ 1 := by
  let F : Flags :=
    { required := true, minLength := some 2, min := some (.whole 1000), max := some (.whole 50000),
      pattern := some "^(a|b)$" }
  have hnone : Blanks [] := fun c hc => absurd hc List.not_mem_nil
  have hone : Blanks [' '] := by
    intro c hc
    obtain rfl := List.mem_singleton.mp hc
    decide
  have htwo : Blanks [' ', ' '] := by
    intro c hc
    obtain rfl | rfl := List.mem_pair.mp hc <;> decide
  have most : Spells (.range .most (.ofInt 50000)) _ :=
    .range (by decide +kernel : Binary64.ofText? (String.ofList ['5', 'e', '4']) = _) hnone hone
  have least : Spells (.range .least (.ofInt 1000)) _ :=
    .range (by decide +kernel : Binary64.ofText? (String.ofList ['1', '0', '0', '0']) = _)
      hnone hnone
  have shortest : Spells (.length .least 2) _ :=
    .length (by decide : Decimal.natural64? ['2'] = _) hnone hnone
  have hend : EndsPlain "^(a|b)$".toList := fun c hc => Option.some.inj hc ▸ by decide
  have hwritten := Written.more (.token most hone hone) <| .more (.blank hnone) <|
    .more (.token shortest hone hone) <| .more (.token .required hnone hnone) <|
    .more (.token least hnone hnone) (.pattern "^(a|b)$" hone hend)
  have hparts : List.Perm ([.range .most (.ofInt 50000)] ++
      [.length .least 2, .rule ⟨.required, none⟩, .range .least (.ofInt 1000)]) F.parts :=
    List.perm_append_comm.trans (.swap _ _ _)
  exact ofJson_short_flags (F := F) hparts hwritten htwo (by decide +kernel)
    (List.reverse_perm F.fields)

end Dialogue.Rule
