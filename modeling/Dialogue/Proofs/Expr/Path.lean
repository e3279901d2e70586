import Dialogue.Proofs.Expr.Completeness
import Dialogue.Proofs.Text.Trimming
import Dialogue.Template

/-!
A dotted path read as a place in a scope and read as an expression.

`lookupPath` cuts the text of a path at its dots and goes down the scope one piece at a time; the
parser reads the same text as a name and member accesses, and the evaluator goes down the scope by
those. `lookupPath_dotted` and `evaluateSource_dotted` bring both to one walk over the names. The
two walks take the same steps, except that a member access also reads the length of an array or a
string, and below a length there is nothing. So the expression has every value that the path leads
to, and one more only at the end of a path (`lookupPath_evaluateSource`).
-/
namespace Dialogue.Expr

open Expr.Parser

/-! ## Names -/

/-- A text that is one name and nothing else. -/
def IsName (s : String) : Prop := Name s s.toList []

/-- A path of names. -/
def dotted (names : List String) : String := ".".intercalate names

/-- The expression of a path. -/
def ofPath (first : String) (more : List String) : Expr := more.foldl .member (.ident first)

theorem Name.chars {s : String} {cs rest : List Char} (h : Name s cs rest) :
    ∃ c more, s = String.ofList (c :: more) ∧ isIdentStart c = true ∧
      ∀ d ∈ more, isIdentChar d = true := by
  cases h with
  | mk hfirst hmore _ => exact ⟨_, _, rfl, hfirst, hmore⟩

theorem IsName.before {s : String} (h : IsName s) {rest : List Char} (hrest : Apart rest) :
    Name s (s.toList ++ rest) rest := by
  obtain ⟨c, cs, rfl, hfirst, hmore⟩ := Name.chars h
  rw [String.toList_ofList]
  exact Name.mk hfirst hmore hrest

theorem isIdentChar_of_isIdentStart {c : Char} (h : isIdentStart c = true) :
    isIdentChar c = true := by
  simp only [isIdentStart, isIdentChar, Text.isAlphanumeric, Bool.or_eq_true] at h ⊢
  rcases h with (h | h) | h
  · exact .inl (.inl (.inl h))
  · exact .inl (.inr h)
  · exact .inr h

theorem IsName.isIdentChar {s : String} (h : IsName s) : ∀ c ∈ s.toList, isIdentChar c = true := by
  obtain ⟨c, cs, rfl, hfirst, hmore⟩ := Name.chars h
  rw [String.toList_ofList]
  intro d hd
  rcases List.mem_cons.mp hd with rfl | hd
  · exact isIdentChar_of_isIdentStart hfirst
  · exact hmore d hd

/-- No character of a name is a blank. -/
theorem isBlank_of_isIdentChar {c : Char} (h : isIdentChar c = true) : Text.isBlank c = false := by
  cases hblank : Text.isBlank c with
  | false => rfl
  | true =>
    have hlow : c ≠ '_' := ne_of_class hblank (by decide)
    have hdollar : c ≠ '$' := ne_of_class hblank (by decide)
    simp [isIdentChar, Text.isAlphanumeric_of_isBlank hblank, hlow, hdollar] at h

/-! ## The text of a path -/

theorem dotted_toList (first : String) (more : List String) :
    (dotted (first :: more)).toList =
      first.toList ++ more.flatMap fun name => '.' :: name.toList := by
  induction more generalizing first with
  | nil => simp [dotted]
  | cons name more ih =>
    have hrest := ih name
    simp only [dotted] at hrest ⊢
    rw [String.intercalate_cons_cons, String.toList_append, String.toList_append, hrest]
    simp

/-- What follows a name in a path does not go on with it. -/
theorem apart_tail (more : List String) :
    Apart (more.flatMap fun name => '.' :: name.toList) := by
  cases more with
  | nil => exact stops_nil _
  | cons name more => exact stops_cons.mpr (by decide)

/-- Cutting after a run without the separator leaves the run as the first piece. -/
theorem splitChars_run {sep : Char} {run : List Char} (h : ∀ c ∈ run, c ≠ sep)
    (rest : List Char) :
    Text.splitChars sep (run ++ sep :: rest) = run :: Text.splitChars sep rest := by
  induction run with
  | nil => simp [Text.splitChars]
  | cons c run ih =>
    have hc : c ≠ sep := h c List.mem_cons_self
    simp [Text.splitChars, hc, ih fun d hd => h d (List.mem_cons_of_mem c hd)]

theorem splitChars_whole {sep : Char} {run : List Char} (h : ∀ c ∈ run, c ≠ sep) :
    Text.splitChars sep run = [run] := by
  induction run with
  | nil => rfl
  | cons c run ih =>
    have hc : c ≠ sep := h c List.mem_cons_self
    simp [Text.splitChars, hc, ih fun d hd => h d (List.mem_cons_of_mem c hd)]

theorem IsName.no_dot {s : String} (h : IsName s) : ∀ c ∈ s.toList, c ≠ '.' :=
  fun _ hc => ne_of_class (h.isIdentChar _ hc) (by decide)

/-- The pieces of a path between its dots are its names. -/
theorem splitChars_dotted {first : String} {more : List String}
    (h : ∀ name ∈ first :: more, IsName name) :
    Text.splitChars '.' (dotted (first :: more)).toList = (first :: more).map String.toList := by
  rw [dotted_toList]
  induction more generalizing first with
  | nil => simpa using splitChars_whole (h first List.mem_cons_self).no_dot
  | cons name more ih =>
    rw [List.flatMap_cons, List.cons_append, splitChars_run (h first List.mem_cons_self).no_dot,
      ih fun other hother => h other (List.mem_cons_of_mem first hother)]
    rfl

/-! ## Down the scope by the text -/

theorem dotted_unblank {first : String} {more : List String}
    (h : ∀ name ∈ first :: more, IsName name) :
    ∀ c ∈ (dotted (first :: more)).toList, Text.isBlank c = false := by
  intro c hc
  rw [dotted_toList, List.mem_append, List.mem_flatMap] at hc
  have hname : ∀ name ∈ first :: more, ∀ d ∈ name.toList, Text.isBlank d = false :=
    fun name hin d hd => isBlank_of_isIdentChar ((h name hin).isIdentChar d hd)
  rcases hc with hc | ⟨name, hin, hc⟩
  · exact hname first List.mem_cons_self c hc
  · rcases List.mem_cons.mp hc with rfl | hc
    · decide
    · exact hname name (List.mem_cons_of_mem first hin) c hc

/-- A name is no position in an array. -/
theorem IsName.natural64?_eq_none {s : String} (h : IsName s) :
    Decimal.natural64? s.toList = none := by
  obtain ⟨c, cs, rfl, hfirst, -⟩ := Name.chars h
  have hplus : c ≠ '+' := ne_of_class hfirst (by decide)
  have hdigit : c.isDigit = false := by
    cases hc : c.isDigit with
    | false => rfl
    | true => rw [isIdentStart_of_isDigit hc] at hfirst; exact absurd hfirst (by decide)
  rw [String.toList_ofList, Decimal.natural64?]
  · simp [hdigit]
  · intro rest heq
    exact hplus (List.cons.inj heq).1

theorem descend_name {s : String} (h : IsName s) (v : Json) :
    Template.descend v s.toList = v.get? s := by
  cases v with
  | object fields => simp [Template.descend, Json.get?, Json.fields?]
  | array items => simp [Template.descend, h.natural64?_eq_none, Json.get?, Json.fields?]
  | _ => rfl

theorem foldlM_descend {names : List String} (h : ∀ name ∈ names, IsName name) (v : Json) :
    (names.map String.toList).foldlM Template.descend v = names.foldlM Json.get? v := by
  induction names generalizing v with
  | nil => rfl
  | cons name names ih =>
    rw [List.map_cons, List.foldlM_cons, List.foldlM_cons, descend_name (h name List.mem_cons_self)]
    exact bind_congr fun w => ih (fun other hother => h other (List.mem_cons_of_mem name hother)) w

/-- A path of names leads down by their fields. -/
theorem lookupPath_dotted {first : String} {more : List String}
    (h : ∀ name ∈ first :: more, IsName name) (scope : Json) :
    Template.lookupPath scope (dotted (first :: more)) =
      (first :: more).foldlM Json.get? scope := by
  have hfull : (dotted (first :: more)).toList.isEmpty = false := by
    rw [dotted_toList]
    obtain ⟨c, cs, rfl, -, -⟩ := Name.chars (h first List.mem_cons_self)
    simp
  have htrim := Text.trimChars_of_plain (dotted_unblank h)
  simp only [Template.lookupPath, Template.lookupChars, htrim, hfull, splitChars_dotted h]
  exact foldlM_descend h scope

/-! ## Down the scope by the expression -/

/-- The accesses of a path, from any expression on. -/
theorem derives_accesses {n : Nat} {more : List String} (h : ∀ name ∈ more, IsName name)
    (target : Expr) :
    Derives n (.accesses target) (more.flatMap fun name => '.' :: name.toList)
      (more.foldl .member target) [] := by
  -- Each access takes the tree so far as its target, so the claim is for any target.
  induction more generalizing target with
  | nil => exact .noAccess
  | cons name more ih =>
    have hdot : (Token.symbol ['.']).Stands
        ('.' :: (name.toList ++ more.flatMap fun name => '.' :: name.toList))
        (name.toList ++ more.flatMap fun name => '.' :: name.toList) := ⟨Spaced.refl _, trivial⟩
    exact .member hdot (Spaced.refl _) ((h name List.mem_cons_self).before (apart_tail more))
      (ih (fun other hother => h other (List.mem_cons_of_mem name hother)) _)

/-- A path of the grammar has the form of every level. -/
theorem Derives.conditional_of_path {n : Nat} {cs rest : List Char} {e : Expr}
    (h : Derives n .path cs e rest) : Derives n .conditional cs e rest := by
  have hlevel : ∀ k, Derives n (.binary k) cs e rest := by
    intro k
    induction k with
    | zero => exact .tightest (.bare h)
    | succ k ih => exact .joined ih .noMore
  exact .test (hlevel 6)

theorem denotes_dotted {first : String} {more : List String}
    (h : ∀ name ∈ first :: more, IsName name) (free : first ∉ reserved) (n : Nat) :
    Denotes n (dotted (first :: more)).toList (ofPath first more) := by
  rw [dotted_toList]
  have hfirst := (h first List.mem_cons_self).before (apart_tail more)
  have hpath := Derives.path (n := n) (.ident (Spaced.refl _) hfirst free)
    (derives_accesses (fun name hname => h name (List.mem_cons_of_mem first hname)) _)
  exact ⟨[], hpath.conditional_of_path, Spaced.refl []⟩

theorem parse_dotted {first : String} {more : List String}
    (h : ∀ name ∈ first :: more, IsName name) (free : first ∉ reserved)
    (short : (dotted (first :: more)).utf8ByteSize ≤ 1024) :
    parse (dotted (first :: more)) = .ok (ofPath first more) := by
  have hfull : Text.isBlankText (dotted (first :: more)) = false := by
    obtain ⟨c, cs, hc, -, -⟩ := Name.chars (h first List.mem_cons_self)
    have hin : c ∈ (dotted (first :: more)).toList := by
      rw [dotted_toList, hc, String.toList_ofList]
      exact List.mem_append_left _ List.mem_cons_self
    rw [Text.isBlankText, List.all_eq_false]
    exact ⟨c, hin, by simp [dotted_unblank h c hin]⟩
  have hshort : ¬ maxSourceBytes < (dotted (first :: more)).utf8ByteSize := Nat.not_lt.mpr short
  rw [parse, hfull, if_neg Bool.false_ne_true, if_neg hshort]
  exact readChars_complete (denotes_dotted h free maxNesting)

theorem eval_accesses (scope : Json) (target : Expr) (more : List String) :
    eval scope (more.foldl .member target) =
      eval scope target >>= fun v => more.foldlM property v := by
  induction more generalizing target with
  | nil => simp
  | cons name more ih =>
    rw [List.foldl_cons, ih, eval, bind_assoc]
    simp only [List.foldlM_cons]

/-- A path of names leads down by its properties, after a name of the scope. -/
theorem evaluateSource_dotted {first : String} {more : List String}
    (h : ∀ name ∈ first :: more, IsName name) (free : first ∉ reserved)
    (short : (dotted (first :: more)).utf8ByteSize ≤ 1024) {scope v : Json} :
    evaluateSource (dotted (first :: more)) scope = .ok v ↔
      ∃ base, scope.get? first = some base ∧ more.foldlM property base = .ok v := by
  have heval : eval scope (ofPath first more) = .ok v ↔
      ∃ base, scope.get? first = some base ∧ more.foldlM property base = .ok v := by
    rw [ofPath, eval_accesses, eval]
    cases scope.get? first with
    | none => simp [bind, Except.bind]
    | some base => simp [bind, Except.bind]
  rw [evaluateSource, parse_dotted h free short, ← heval]
  cases hvalue : eval scope (ofPath first more) with
  | error e => simp [hvalue]
  | ok w => simp [hvalue]

/-! ## The two walks -/

/-- The number of elements of an array, or of characters of a string. -/
def length? : Json → Option Nat
  | .array items => some items.length
  | .string s => some s.length
  | _ => none

theorem property_of_get? {target v : Json} {name : String} (h : target.get? name = some v) :
    property target name = .ok v := by
  cases target with
  | object fields =>
    have hfield : Entries.get? fields name = some v := h
    simp [property, hfield]
  | _ => exact absurd h (by simp [Json.get?, Json.fields?])

theorem property_cases {target v : Json} {name : String} (h : property target name = .ok v) :
    target.get? name = some v ∨ target.get? name = none ∧ name = "length" ∧
      ∃ n, length? target = some n ∧ v = .ofNat n := by
  cases target with
  | object fields =>
    refine .inl ?_
    show Entries.get? fields name = some v
    cases hfield : Entries.get? fields name with
    | none => simp [property, hfield] at h
    | some w => simpa [property, hfield] using h
  | array items =>
    by_cases hname : name = "length"
    · refine .inr ⟨rfl, hname, items.length, rfl, ?_⟩
      simpa [property, hname, eq_comm] using h
    · simp [property, hname] at h
  | string s =>
    by_cases hname : name = "length"
    · refine .inr ⟨rfl, hname, s.length, rfl, ?_⟩
      simpa [property, hname, eq_comm] using h
    · simp [property, hname] at h
  | _ => simp [property] at h

/-- The values that fields lead to are reached by properties. -/
theorem properties_of_fields {names : List String} {base v : Json}
    (h : names.foldlM Json.get? base = some v) : names.foldlM property base = .ok v := by
  induction names generalizing base with
  | nil => exact congrArg Except.ok (Option.some.inj h)
  | cons name names ih =>
    rw [List.foldlM_cons] at h ⊢
    obtain ⟨next, hnext, hrest⟩ := Option.bind_eq_some_iff.mp h
    rw [property_of_get? hnext]
    exact ih hrest

/-- What only properties reach is the length of what fields reach: a length is a number, and nothing
is below a number. -/
theorem length_of_properties {names : List String} {base v : Json}
    (h : names.foldlM property base = .ok v) (hnone : names.foldlM Json.get? base = none) :
    ∃ before, names = before ++ ["length"] ∧ ∃ target n,
      before.foldlM Json.get? base = some target ∧ length? target = some n ∧ v = .ofNat n := by
  induction names generalizing base with
  | nil => exact absurd hnone (by simp)
  | cons name names ih =>
    rw [List.foldlM_cons] at h hnone
    cases hproperty : property base name with
    | error e => rw [hproperty] at h; exact absurd h (by simp [bind, Except.bind])
    | ok next =>
      rw [hproperty] at h
      have hrest : names.foldlM property next = .ok v := h
      rcases property_cases hproperty with hfield | ⟨hfield, hname, n, hlength, rfl⟩
      · rw [hfield] at hnone
        obtain ⟨before, hnames, target, n, hbefore, hlength⟩ := ih hrest hnone
        refine ⟨name :: before, by rw [hnames]; rfl, target, n, ?_, hlength⟩
        rw [List.foldlM_cons, hfield]
        exact hbefore
      · -- Here the walks part: a length is found, but below it there is no property to go on with.
        cases names with
        | nil => exact ⟨[], by rw [hname]; rfl, base, n, rfl, hlength, (Except.ok.inj hrest).symm⟩
        | cons other names =>
          have hnumber : property (.ofNat n) other = .error (.noProperties other "number") := rfl
          rw [List.foldlM_cons, hnumber] at hrest
          exact absurd hrest (by simp [bind, Except.bind])

/-- A path of names has the same value as a place in a scope and as an expression, if its first name
is free. It leads nowhere and yet has a value only if its last name is `length`, and the rest of it
leads to an array or a string, whose length is the value. -/
theorem lookupPath_evaluateSource {first : String} {more : List String}
    (names : ∀ name ∈ first :: more, IsName name) (free : first ∉ reserved)
    (short : (dotted (first :: more)).utf8ByteSize ≤ 1024) (scope : Json) :
    let path := dotted (first :: more)
    (∀ v, Template.lookupPath scope path = some v → evaluateSource path scope = .ok v) ∧
    (∀ v, evaluateSource path scope = .ok v → Template.lookupPath scope path = none →
      ∃ before, first :: more = before ++ ["length"] ∧ ∃ target n,
        Template.lookupPath scope (dotted before) = some target ∧
          length? target = some n ∧ v = .ofNat n) := by
  intro path
  have hlookup : Template.lookupPath scope path =
      (scope.get? first).bind fun base => more.foldlM Json.get? base := by
    rw [lookupPath_dotted names, List.foldlM_cons]
    rfl
  constructor
  · intro v hv
    rw [hlookup] at hv
    obtain ⟨base, hbase, hmore⟩ := Option.bind_eq_some_iff.mp hv
    exact (evaluateSource_dotted names free short).mpr ⟨base, hbase, properties_of_fields hmore⟩
  · intro v hv hnone
    obtain ⟨base, hbase, hmore⟩ := (evaluateSource_dotted names free short).mp hv
    rw [hlookup, hbase, Option.bind_some] at hnone
    obtain ⟨before, rfl, target, n, hbefore, hlength⟩ := length_of_properties hmore hnone
    refine ⟨first :: before, rfl, target, n, ?_, hlength⟩
    have hnames : ∀ name ∈ first :: before, IsName name := fun name hname =>
      names name (List.mem_append_left ["length"] hname)
    rw [lookupPath_dotted hnames, List.foldlM_cons, hbase]
    exact hbefore

theorem isName_ofList {c : Char} {cs : List Char} (hc : isIdentStart c = true)
    (hcs : cs.all isIdentChar = true) : IsName (String.ofList (c :: cs)) := by
  have h := Name.mk hc (List.all_eq_true.mp hcs) (stops_nil isIdentChar)
  rw [List.append_nil] at h
  rwa [IsName, String.toList_ofList]

/-- Two answers, and how many they are: only the expression knows. -/
theorem lookupPath_evaluateSource_answers :
    let answers : Json := .array [.string "yes", .null]
    let scope : Json := .object [("responses", .object [("null", answers)])]
    (∀ name ∈ ["responses", "null", "length"], IsName name) ∧ "responses" ∉ reserved ∧
    (dotted ["responses", "null", "length"]).utf8ByteSize ≤ 1024 ∧
    evaluateSource "responses.null" scope = .ok answers ∧
    Template.lookupPath scope "responses.null.length" = none ∧
    ∃ before, ["responses", "null", "length"] = before ++ ["length"] ∧ ∃ target n,
      Template.lookupPath scope (dotted before) = some target ∧ length? target = some n ∧
        (Json.ofNat 2) = .ofNat n := by
  intro answers scope
  have names : ∀ name ∈ ["responses", "null", "length"], IsName name := by
    intro name hname
    simp only [List.mem_cons, List.not_mem_nil, or_false] at hname
    rcases hname with rfl | rfl | rfl <;> exact isName_ofList (by decide) (by decide)
  have free : "responses" ∉ reserved := by decide
  have short : (dotted ["responses", "null", "length"]).utf8ByteSize ≤ 1024 := by decide +kernel
  have hnone : Template.lookupPath scope "responses.null.length" = none := by rfl
  have heval : evaluateSource "responses.null.length" scope = .ok (.ofNat 2) := by rfl
  have hshort : (dotted ["responses", "null"]).utf8ByteSize ≤ 1024 := by decide +kernel
  have names' : ∀ name ∈ ["responses", "null"], IsName name := fun name hname =>
    names name (List.mem_append_left ["length"] hname)
  exact ⟨names, free, short, (lookupPath_evaluateSource names' free hshort scope).1 answers rfl,
    hnone, (lookupPath_evaluateSource names free short scope).2 _ heval hnone⟩

end Dialogue.Expr
