import Dialogue.Proofs.Expr.Comparison
import Dialogue.Proofs.Expr.Respelling

/-!
Evaluations in two spellings.

The operations of expressions make values that differ in the spelling alone of values that do, or
fail for both. Three kinds of steps are exceptions: a float for a position of an array, a comparison
of arrays or objects that are equal only in their plain form, and a text joined to an array or an
object that is spelled otherwise (`Step.Sensitive`). Two evaluations over scopes that differ in the
spelling take the same steps until there is one of these (`alongside_eval`). So they have the same
outcome, but for the spelling, where they have no such steps (`evaluateSource_respelled`), and not
always where they do (`evaluateSource_spelling_seen`).
-/
namespace Dialogue

/-! ## Operations -/

/-- Both fail, or both give a value, and the values are related. -/
inductive SameOutcome {ε α : Type} (R : α → α → Prop) : Except ε α → Except ε α → Prop where
  | ok {a b : α} (h : R a b) : SameOutcome R (.ok a) (.ok b)
  | error (e e' : ε) : SameOutcome R (.error e) (.error e')

namespace Expr

open Json (Respelled EqualIfPlain)

variable {v w v' w' : Json}

/-- Both fail, or both give a value, and the values differ in the spelling alone. -/
abbrev Agree {ε : Type} : Except ε Json → Except ε Json → Prop := SameOutcome Respelled

theorem Agree.refl {ε : Type} (a : Except ε Json) : Agree a a := by
  cases a with
  | ok v => exact .ok rfl
  | error e => exact .error e e

theorem agree_numberResult {x x' : Binary64} (h : x.Alike x') :
    Agree (numberResult x) (numberResult x') := by
  rw [numberResult, numberResult, h.isFinite]
  split
  · apply SameOutcome.ok
    rw [Respelled, h]
  · exact .error _ _

theorem agree_property (h : Respelled v w) (name : String) :
    Agree (property v name) (property w name) := by
  rcases Json.plain_cases h with
    rfl | ⟨m, n, rfl, rfl, -⟩ | ⟨xs, ys, rfl, rfl, hitems⟩ | ⟨fs, gs, rfl, rfl, hfields⟩
  · exact .refl _
  · exact .error _ _
  · rw [property, property, Json.length_of_plainItems hitems]
    split
    · exact .ok rfl
    · exact .error _ _
  · rw [property, property]
    rcases h.get? name with ⟨hf, hg⟩ | ⟨u, t, hf, hg, hfound⟩
    · rw [show Entries.get? fs name = none from hf, show Entries.get? gs name = none from hg]
      exact .error _ _
    · rw [show Entries.get? fs name = some u from hf, show Entries.get? gs name = some t from hg]
      exact .ok hfound

theorem agree_negate (h : Respelled v w) : Agree (negate v) (negate w) := by
  rcases h.number with ⟨m, n, rfl, rfl, halike⟩ | ⟨hnot, hnot'⟩
  · exact agree_numberResult halike.neg
  · have hfail : ∀ {u : Json}, (∀ n, u ≠ .number n) →
        negate u = .error (.notNegatable u.typeName) := by
      intro u hu
      cases u with
      | number n => exact absurd rfl (hu n)
      | _ => rfl
    rw [hfail hnot, hfail hnot']
    exact .error _ _

theorem agree_arithmetic (op : BinaryOp) {f : Binary64 → Binary64 → Except EvalError Binary64}
    (hf : ∀ {x x' y y' : Binary64}, x.Alike x' → y.Alike y' →
      SameOutcome Binary64.Alike (f x y) (f x' y'))
    (hv : Respelled v v') (hw : Respelled w w') :
    Agree (arithmetic op f v w) (arithmetic op f v' w') := by
  have hfail : ∀ {u t : Json}, ((∀ m, u ≠ .number m) ∨ ∀ n, t ≠ .number n) →
      arithmetic op f u t = .error (.notArithmetic op u.typeName t.typeName) := by
    intro u t h
    cases u with
    | number m =>
      cases t with
      | number n => exact absurd rfl (h.resolve_left (fun h => h m rfl) n)
      | _ => rfl
    | _ => rfl
  rcases hv.number with ⟨m, m', rfl, rfl, hm⟩ | ⟨hnot, hnot'⟩
  · rcases hw.number with ⟨n, n', rfl, rfl, hn⟩ | ⟨hnot, hnot'⟩
    · rw [arithmetic, arithmetic]
      have hresult := hf hm hn
      generalize f m.toBinary64 n.toBinary64 = a, f m'.toBinary64 n'.toBinary64 = b at hresult ⊢
      cases hresult with
      | ok h => exact agree_numberResult h
      | error e e' => exact .error e e'
    · rw [hfail (.inr hnot), hfail (.inr hnot')]
      exact .error _ _
  · rw [hfail (.inl hnot), hfail (.inl hnot')]
    exact .error _ _

theorem agree_comparison (op : BinaryOp) (holds : Ordering → Bool) (hv : Respelled v v')
    (hw : Respelled w w') : Agree (comparison op holds v w) (comparison op holds v' w') := by
  rw [comparison, comparison, hv.compare? hw]
  split
  · exact .ok rfl
  · exact .error _ _

theorem outcome_unlessZero {f : Binary64 → Binary64 → Binary64}
    (hf : ∀ {x x' y y' : Binary64}, x.Alike x' → y.Alike y' → y.isZero = false →
      (f x y).Alike (f x' y'))
    {x x' y y' : Binary64} (hx : x.Alike x') (hy : y.Alike y') :
    SameOutcome Binary64.Alike (unlessZero f x y) (unlessZero f x' y') := by
  rw [unlessZero, unlessZero, ← hy.isZero]
  split
  · exact .error _ _
  · next hzero => exact .ok (hf hx hy (Bool.eq_false_of_not_eq_true hzero))

/-! ## Steps -/

/-- What an evaluation does to values that it has: it looks up an element, or applies an
operation. -/
inductive Step where
  | element (target index : Json)
  | apply (op : BinaryOp) (left right : Json)

/-- The steps whose result depends on the spelling, where another evaluation takes the step beside
it. -/
inductive Step.Sensitive : Step → Step → Prop where
  /-- A position of an array is given as a float. -/
  | position {items : List Json} {x : Binary64} {i : Nat} (other : Step) (h : i < items.length)
      (hplain : (Json.ofBinary64 x).plain = .ofNat i) :
      Sensitive (.element (.array items) (.ofBinary64 x)) other
  /-- Two arrays or two objects are compared that are equal only in their plain form. -/
  | equality {op : BinaryOp} {left right : Json} (other : Step) (hop : op = .eq ∨ op = .ne)
      (h : EqualIfPlain left right) : Sensitive (.apply op left right) other
  /-- A text is joined to an array or an object that is spelled otherwise in the other
  evaluation. -/
  | joinRight {left right left' right' : Json} (hleft : isString left = true)
      (hnested : right.isNested = true) (h : right ≠ right') :
      Sensitive (.apply .add left right) (.apply .add left' right')
  /-- An array or an object that is spelled otherwise in the other evaluation is joined to a
  text. -/
  | joinLeft {left right left' right' : Json} (hright : isString right = true)
      (hnested : left.isNested = true) (h : left ≠ left') :
      Sensitive (.apply .add left right) (.apply .add left' right')

/-- Neither of two steps depends on the spelling. -/
def Step.Steady (s s' : Step) : Prop := ¬ s.Sensitive s' ∧ ¬ s'.Sensitive s

theorem element_real (items : List Json) (x : Binary64) :
    element (.array items) (.ofBinary64 x) = .error (.outOfBounds (.real x)) := rfl

/-- An integer for a position finds nothing where a float for the position would. -/
theorem element_whole {items : List Json} {i : Int} {x : Binary64}
    (hplain : (Json.ofBinary64 x).plain = .ofInt i)
    (h : ∀ k < items.length, (Json.ofBinary64 x).plain ≠ .ofNat k) :
    element (.array items) (.ofInt i) = .error (.outOfBounds (.whole i)) := by
  have hnone : (Number.whole i).toNat64?.bind (items[·]?) = none := by
    rw [Number.toNat64?]
    split
    · next hrange =>
      obtain ⟨k, rfl⟩ := Int.eq_ofNat_of_zero_le hrange.1
      rw [Option.bind_some, Int.toNat_natCast, List.getElem?_eq_none_iff]
      by_contra hlt
      exact h k (Nat.lt_of_not_le hlt) hplain
    · rfl
  rw [Json.ofInt, element, hnone]

/-- An array of respelled values, and a position in either spelling. -/
theorem agree_position {xs ys : List Json} (hitems : Json.plainItems xs = Json.plainItems ys)
    {m n : Number} (hindex : Respelled (.number m) (.number n))
    (h : Step.Steady (.element (.array xs) (.number m)) (.element (.array ys) (.number n))) :
    Agree (element (.array xs) (.number m)) (element (.array ys) (.number n)) := by
  have hlength : xs.length = ys.length := Json.length_of_plainItems hitems
  cases m with
  | real x =>
    cases n with
    | real y => exact .error _ _
    | whole j =>
      have hfail : element (.array ys) (.ofInt j) = _ := element_whole (x := x) hindex
        fun k hk hplain => h.1 (.position _ (hlength ▸ hk) hplain)
      show Agree (element (.array xs) (.ofBinary64 x)) (element (.array ys) (.ofInt j))
      rw [hfail, element_real]
      exact .error _ _
  | whole i =>
    cases n with
    | real y =>
      have hfail : element (.array xs) (.ofInt i) = _ := element_whole (x := y) hindex.symm
        fun k hk hplain => h.2 (.position _ (hlength ▸ hk) hplain)
      show Agree (element (.array xs) (.ofInt i)) (element (.array ys) (.ofBinary64 y))
      rw [hfail, element_real]
      exact .error _ _
    | whole j =>
      cases hindex
      have hget : ∀ k : Nat, (xs[k]?).map Json.plain = (ys[k]?).map Json.plain := fun k => by
        rw [← Json.getElem?_plainItems, hitems, Json.getElem?_plainItems]
      rw [element, element]
      cases (Number.whole i).toNat64? with
      | none => exact .error _ _
      | some k =>
        rw [Option.bind_some, Option.bind_some]
        rcases Json.found_cases (hget k) with ⟨hx, hy⟩ | ⟨u, t, hx, hy, hfound⟩
        · rw [hx, hy]
          exact .error _ _
        · rw [hx, hy]
          exact .ok hfound

theorem agree_element {i i' : Json} (hv : Respelled v v') (hi : Respelled i i')
    (h : Step.Steady (.element v i) (.element v' i')) : Agree (element v i) (element v' i') := by
  rcases hi.number with ⟨m, n, rfl, rfl, -⟩ | ⟨hnot, hnot'⟩
  · rcases Json.plain_cases hv with
      rfl | ⟨_, _, rfl, rfl, -⟩ | ⟨xs, ys, rfl, rfl, hitems⟩ | ⟨_, _, rfl, rfl, -⟩
    · cases v with
      | array items => exact agree_position rfl hi h
      | _ => exact .error _ _
    · exact .error _ _
    · exact agree_position hitems hi h
    · exact .error _ _
  · cases hstring : isString i with
    | true =>
      obtain rfl := hi.eq_of_isString hstring
      cases i with
      | string key =>
        rcases Json.plain_cases hv with
          rfl | ⟨_, _, rfl, rfl, -⟩ | ⟨_, _, rfl, rfl, -⟩ | ⟨_, _, rfl, rfl, -⟩
        · exact .refl _
        · exact .error _ _
        · exact .error _ _
        · exact agree_property hv key
      | _ => cases hstring
    | false =>
      have hfail : ∀ {u t : Json}, (∀ n, t ≠ .number n) → isString t = false →
          element u t = .error (.notIndexable u.typeName t.typeName) := by
        intro u t ht hs
        cases t with
        | number n => exact absurd rfl (ht n)
        | string key => cases hs
        | _ => cases u <;> rfl
      rw [hfail hnot hstring, hfail hnot' (hi.isString ▸ hstring)]
      exact .error _ _

/-- What is joined to a text is shown alike. -/
theorem display_joined (hv : Respelled v v') (h : v.isNested = true → v = v') :
    v.display = v'.display := by
  cases hnested : v.isNested with
  | true => rw [h hnested]
  | false => exact hv.display hnested

theorem agree_add (hv : Respelled v v') (hw : Respelled w w')
    (h : Step.Steady (.apply .add v w) (.apply .add v' w')) :
    Agree (apply .add v w) (apply .add v' w') := by
  rw [apply, apply, ← hv.isString, ← hw.isString]
  split
  · next hstring =>
    have hjoined : v.display ++ w.display = v'.display ++ w'.display := by
      rcases Bool.or_eq_true_iff.mp hstring with hleft | hright
      · rw [hv.eq_of_isString hleft, display_joined hw fun hnested => by
          by_contra hne
          exact h.1 (.joinRight hleft hnested hne)]
      · rw [hw.eq_of_isString hright, display_joined hv fun hnested => by
          by_contra hne
          exact h.1 (.joinLeft hright hnested hne)]
    rw [hjoined]
    exact .ok rfl
  · exact agree_arithmetic .add (fun hx hy => .ok (hx.add hy)) hv hw

theorem agree_apply {op : BinaryOp} (hv : Respelled v v') (hw : Respelled w w')
    (h : Step.Steady (.apply op v w) (.apply op v' w')) :
    Agree (apply op v w) (apply op v' w') := by
  have hequals : op = .eq ∨ op = .ne → v.strictEquals w = v'.strictEquals w' := fun hop =>
    hv.strictEquals hw (fun hne => h.1 (.equality _ hop hne)) (fun hne => h.2 (.equality _ hop hne))
  cases op with
  | or =>
    rw [apply, apply, hv.isTruthy, hw.isTruthy]
    exact .ok rfl
  | and =>
    rw [apply, apply, hv.isTruthy, hw.isTruthy]
    exact .ok rfl
  | eq =>
    rw [apply, apply, hequals (.inl rfl)]
    exact .ok rfl
  | ne =>
    rw [apply, apply, hequals (.inr rfl)]
    exact .ok rfl
  | lt => exact agree_comparison .lt _ hv hw
  | le => exact agree_comparison .le _ hv hw
  | gt => exact agree_comparison .gt _ hv hw
  | ge => exact agree_comparison .ge _ hv hw
  | add => exact agree_add hv hw h
  | sub => exact agree_arithmetic .sub (fun hx hy => .ok (hx.sub hy)) hv hw
  | mul => exact agree_arithmetic .mul (fun hx hy => .ok (hx.mul hy)) hv hw
  | div => exact agree_arithmetic .div (outcome_unlessZero Binary64.Alike.div) hv hw
  | rem => exact agree_arithmetic .rem (outcome_unlessZero Binary64.Alike.rem) hv hw

/-! ## Evaluations -/

/-- The steps that follow a result, if there is one. -/
def after {ε α : Type} (a : Except ε α) (f : α → List Step) : List Step :=
  match a with
  | .ok v => f v
  | .error _ => []

/-- The steps of an evaluation, one after another. -/
def steps (scope : Json) : Expr → List Step
  | .literal _ => []
  | .ident _ => []
  | .member target _ => steps scope target
  | .index target position =>
    steps scope target ++ after (eval scope target) fun t =>
      steps scope position ++ after (eval scope position) fun i => [.element t i]
  | .unary _ operand => steps scope operand
  | .binary .and left right =>
    steps scope left ++ after (eval scope left) fun l =>
      if l.isTruthy then steps scope right else []
  | .binary .or left right =>
    steps scope left ++ after (eval scope left) fun l =>
      if l.isTruthy then [] else steps scope right
  | .binary op left right =>
    steps scope left ++ after (eval scope left) fun l =>
      steps scope right ++ after (eval scope right) fun r => [.apply op l r]
  | .conditional test yes no =>
    steps scope test ++ after (eval scope test) fun t =>
      if t.isTruthy then steps scope yes else steps scope no

/-- Of the steps that two evaluations take side by side, none depends on the spelling. -/
def SteadySteps : List Step → List Step → Prop
  | s :: ss, t :: ts => s.Steady t ∧ SteadySteps ss ts
  | _, _ => True

variable {ss ts ss' ts' : List Step} {a b : Except EvalError Json}

theorem SteadySteps.left (h : SteadySteps (ss ++ ss') (ts ++ ts')) : SteadySteps ss ts := by
  induction ss generalizing ts with
  | nil => trivial
  | cons s ss ih =>
    cases ts with
    | nil => trivial
    | cons t ts => exact ⟨h.1, ih h.2⟩

theorem SteadySteps.right (h : SteadySteps (ss ++ ss') (ts ++ ts'))
    (hlength : ss.length = ts.length) : SteadySteps ss' ts' := by
  induction ss generalizing ts with
  | nil =>
    obtain rfl := List.length_eq_zero_iff.mp hlength.symm
    exact h
  | cons s ss ih =>
    cases ts with
    | nil => cases hlength
    | cons t ts => exact ih h.2 (Nat.succ.inj hlength)

/-- Two evaluations with these steps and results: where no step depends on the spelling, they take
as many steps and agree. -/
def Alongside (ss ts : List Step) (a b : Except EvalError Json) : Prop :=
  SteadySteps ss ts → Agree a b ∧ ss.length = ts.length

theorem Alongside.bind {f g : Json → Except EvalError Json} {F G : Json → List Step}
    (h : Alongside ss ts a b)
    (hnext : ∀ v w, Respelled v w → Alongside (F v) (G w) (f v) (g w)) :
    Alongside (ss ++ after a F) (ts ++ after b G) (a >>= f) (b >>= g) := by
  intro hsteady
  obtain ⟨hagree, hlength⟩ := h hsteady.left
  cases hagree with
  | error e e' => exact ⟨.error e e', by simp [after, hlength]⟩
  | @ok v w hvalues =>
    obtain ⟨hresult, hlater⟩ := hnext v w hvalues (hsteady.right hlength)
    exact ⟨hresult, by simp only [after, List.length_append, hlength, hlater]⟩

theorem Alongside.map {f g : Json → Except EvalError Json} (h : Alongside ss ts a b)
    (hnext : ∀ v w, Respelled v w → Agree (f v) (g w)) :
    Alongside ss ts (a >>= f) (b >>= g) := by
  intro hsteady
  obtain ⟨hagree, hlength⟩ := h hsteady
  cases hagree with
  | error e e' => exact ⟨.error e e', hlength⟩
  | ok hvalues => exact ⟨hnext _ _ hvalues, hlength⟩

/-- A step that does not depend on the spelling. -/
theorem Alongside.step {s t : Step} (h : s.Steady t → Agree a b) : Alongside [s] [t] a b :=
  fun hsteady => ⟨h hsteady.1, rfl⟩

theorem Alongside.pure (h : Agree a b) : Alongside [] [] a b := fun _ => ⟨h, rfl⟩

theorem agree_truth {v w : Json} (h : Respelled v w) :
    Agree (.ok (.bool v.isTruthy) : Except EvalError Json) (.ok (.bool w.isTruthy)) := by
  rw [h.isTruthy]
  exact .refl _

/-- Two evaluations over scopes that differ in the spelling go side by side as long as no step
depends on it. -/
theorem alongside_eval {scope other : Json} (h : Respelled scope other) (e : Expr) :
    Alongside (e.steps scope) (e.steps other) (e.eval scope) (e.eval other) := by
  -- The values that decide where the evaluations go on are true in both or in neither.
  induction e with
  | literal v => exact .pure (.refl _)
  | ident name =>
    apply Alongside.pure
    rw [eval, eval]
    rcases h.get? name with ⟨hs, ho⟩ | ⟨u, t, hs, ho, hfound⟩
    · rw [hs, ho]
      exact .error _ _
    · rw [hs, ho]
      exact .ok hfound
  | member target name ih => exact ih.map fun v w hvalues => agree_property hvalues name
  | index target position ihtarget ihposition =>
    exact ihtarget.bind fun v w hvalues => ihposition.bind fun i j hindices =>
      .step fun hsteady => agree_element hvalues hindices hsteady
  | unary op operand ih =>
    cases op with
    | not =>
      refine ih.map fun v w hvalues => ?_
      rw [hvalues.isTruthy]
      exact .refl _
    | neg => exact ih.map fun v w hvalues => agree_negate hvalues
  | binary op left right ihleft ihright =>
    cases op with
    | and =>
      refine ihleft.bind fun v w hvalues => ?_
      rw [hvalues.isTruthy]
      split
      · exact ihright.map fun v w hvalues => agree_truth hvalues
      · exact .pure (.refl _)
    | or =>
      refine ihleft.bind fun v w hvalues => ?_
      rw [hvalues.isTruthy]
      split
      · exact .pure (.refl _)
      · exact ihright.map fun v w hvalues => agree_truth hvalues
    | _ =>
      exact ihleft.bind fun v w hvalues => ihright.bind fun v' w' hvalues' =>
        .step fun hsteady => agree_apply hvalues hvalues' hsteady
  | conditional test yes no ihtest ihyes ihno =>
    refine ihtest.bind fun v w hvalues => ?_
    rw [hvalues.isTruthy]
    split
    · exact ihyes
    · exact ihno

/-- The outcome of a source is the same, but for the spelling, over two scopes that differ in the
spelling of whole numbers below `2 ^ 53` alone, if no step of the evaluations depends on it. So a
condition holds over both or over neither. -/
theorem evaluateSource_respelled {source : String} {e : Expr} (hparse : parse source = .ok e)
    {scope other : Json} (h : Respelled scope other)
    (hsteady : SteadySteps (e.steps scope) (e.steps other)) :
    Agree (evaluateSource source scope) (evaluateSource source other) ∧
      sourceHolds source scope = sourceHolds source other ∧ e.holds scope = e.holds other := by
  obtain ⟨hagree, -⟩ := alongside_eval h e hsteady
  simp only [sourceHolds, holds, evaluateSource, hparse]
  generalize e.eval scope = a, e.eval other = b at hagree ⊢
  cases hagree with
  | error e e' => exact ⟨.error _ _, rfl, rfl⟩
  | ok hvalues => exact ⟨.ok hvalues, hvalues.isTruthy, hvalues.isTruthy⟩

/-- Two arrays that are spelled alike, one way or the other. -/
theorem evaluateSource_respelled_alike :
    let one : Json := .ofBinary64 (.ofInt 1)
    let scope : Json := .object [("a", .array [.ofInt 1]), ("b", .array [.ofInt 1])]
    let other : Json := .object [("a", .array [one]), ("b", .array [one])]
    Respelled scope other ∧ Agree (evaluateSource "a == b" scope) (evaluateSource "a == b" other) ∧
      sourceHolds "a == b" scope = sourceHolds "a == b" other := by
  intro one scope other
  have hone : one.plain = .ofInt 1 := Json.plain_ofInt (by norm_num [Json.wholeLimit])
  have h : Respelled scope other := by
    simp only [Respelled, scope, other, Json.plain, Json.plainFields, Json.plainItems, hone]
    rfl
  have hsame : ∀ v ∈ [Json.ofInt 1, one],
      ¬ EqualIfPlain (.array [v]) (.array [v]) := by
    rintro v hv ⟨-, -, hne⟩
    have hself : (Json.array [v]).same (.array [v]) = true := by
      rcases List.mem_pair.mp hv with rfl | rfl <;> decide +kernel
    rw [hself] at hne
    cases hne
  have hsteady : SteadySteps [.apply .eq (.array [.ofInt 1]) (.array [.ofInt 1])]
      [.apply .eq (.array [one]) (.array [one])] := by
    refine ⟨⟨?_, ?_⟩, trivial⟩
    · rintro (- | ⟨-, -, heq⟩)
      exact hsame _ List.mem_cons_self heq
    · rintro (- | ⟨-, -, heq⟩)
      exact hsame _ (List.mem_cons_of_mem _ List.mem_cons_self) heq
  have hparse : parse "a == b" = .ok (.binary .eq (.ident "a") (.ident "b")) := rfl
  obtain ⟨hagree, hholds, -⟩ := evaluateSource_respelled hparse h hsteady
  exact ⟨h, hagree, hholds⟩

/-- Inside an array, equality looks at the spelling, and so does a text that the array is joined
to. -/
theorem evaluateSource_spelling_seen :
    let scope : Json := .object [("a", .array [.ofInt 1]), ("b", .array [.ofInt 1])]
    let other : Json :=
      .object [("a", .array [.ofInt 1]), ("b", .array [.ofBinary64 (.ofInt 1)])]
    Respelled scope other ∧ evaluateSource "a == b" scope = .ok (.bool true) ∧
      evaluateSource "a == b" other = .ok (.bool false) ∧
      evaluateSource "'' + b" scope = .ok (.string "[1]") ∧
      evaluateSource "'' + b" other = .ok (.string "[1.0]") := by
  intro scope other
  have hparse : parse "'' + b" = .ok (.binary .add (.literal (.string "")) (.ident "b")) := rfl
  have hjoin : ∀ (s : Json) (v : Json) (text : String), s.get? "b" = some v → v.display = text →
      evaluateSource "'' + b" s = .ok (.string text) := by
    intro s v text hget htext
    have happly : apply .add (.string "") v = .ok (.string text) := by
      rw [apply, htext, show (Json.string "").display = "" from rfl, String.empty_append]
      rfl
    rw [evaluateSource, hparse]
    simp only [eval, hget, bind, Except.bind, happly]
  have hone : (Json.ofBinary64 (.ofInt 1)).plain = .ofInt 1 :=
    Json.plain_ofInt (by norm_num [Json.wholeLimit])
  refine ⟨?_, ?_, ?_, ?_, ?_⟩
  · simp only [Respelled, scope, other, Json.plain, Json.plainFields, Json.plainItems, hone]
    rfl
  · exact evaluateSource_names .eq rfl (by decide) (by decide) rfl rfl rfl
  · exact evaluateSource_names .eq rfl (by decide) (by decide) rfl rfl rfl
  · exact hjoin scope (.array [.ofInt 1]) "[1]" rfl (by decide +kernel)
  · exact hjoin other (.array [.ofBinary64 (.ofInt 1)]) "[1.0]" rfl (by decide +kernel)

end Expr

end Dialogue
