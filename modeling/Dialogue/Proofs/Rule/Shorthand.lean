import Dialogue.Proofs.Number.Texts
import Dialogue.Proofs.Rule.Merging
import Dialogue.Proofs.Text.Trimming

/-!
Rules in short form.

`Written` is the notation of the short form: segments between bars, each of them a token with blanks
around it or nothing but blanks, and perhaps a pattern up to the end. Reading gives the parts that
the tokens say, whatever blanks there are (`Written.readParts`). What the rules come to is up to
the parts alone (`ofShorthand_written`), and of each merged kind every text has one rule at most
(`ofShorthand_once`).
-/
namespace Dialogue.Rule

open Text (Blanks BeginsPlain EndsPlain)

/-! ## The notation -/

/-- The name of a bound on the length. -/
def lengthName : Side → List Char
  | .least => "minLength".toList
  | .most => "maxLength".toList

/-- The name of a bound on a number. -/
def rangeName : Side → List Char
  | .least => "min".toList
  | .most => "max".toList

theorem lengthName_chars (side : Side) : ∀ c ∈ lengthName side, isNumberChar c = true := by
  cases side <;> exact List.all_eq_true.mp (by decide)

theorem rangeName_chars (side : Side) : ∀ c ∈ rangeName side, isNumberChar c = true := by
  cases side <;> exact List.all_eq_true.mp (by decide)

/-- A bound under its name, with blanks before and after the colon. -/
def boundToken (name before after bound : List Char) : List Char :=
  name ++ before ++ ':' :: (after ++ bound)

/-- The tokens that say a part: `required`, and a bound by any text that is read as the bound. -/
inductive Spells : Part → List Char → Prop where
  | required : Spells (.rule ⟨.required, none⟩) "required".toList
  | length {side : Side} {n : Nat} {before after bound : List Char}
      (reads : Decimal.natural64? bound = some n) (hbefore : Blanks before)
      (hafter : Blanks after) :
      Spells (.length side n) (boundToken (lengthName side) before after bound)
  | range {side : Side} {x : Binary64} {before after bound : List Char}
      (reads : Binary64.ofText? (String.ofList bound) = some x) (hbefore : Blanks before)
      (hafter : Blanks after) :
      Spells (.range side x) (boundToken (rangeName side) before after bound)

/-- What may stand between two bars: a token with blanks around it, or nothing but blanks. -/
inductive Segment : Option Part → List Char → Prop where
  | blank {cs : List Char} (h : Blanks cs) : Segment none cs
  | token {p : Part} {token before after : List Char} (spells : Spells p token)
      (hbefore : Blanks before) (hafter : Blanks after) :
      Segment (some p) (before ++ (token ++ after))

/-- A text in short form that says the parts one after another, and a pattern at its end, if there
is one. -/
inductive Written : List Part → Option String → List Char → Prop where
  | last {p : Option Part} {cs : List Char} (segment : Segment p cs) : Written p.toList none cs
  | pattern (p : String) {before : List Char} (hbefore : Blanks before)
      (hend : EndsPlain p.toList) : Written [] (some p) (before ++ (patternMark ++ p.toList))
  | more {p : Option Part} {ps : List Part} {pattern : Option String} {cs rest : List Char}
      (segment : Segment p cs) (written : Written ps pattern rest) :
      Written (p.toList ++ ps) pattern (cs ++ '|' :: rest)

/-! ## Reading tokens -/

theorem splitOnce_run {sep : Char} {run : List Char} (h : ∀ c ∈ run, c ≠ sep)
    (rest : List Char) : splitOnce sep (run ++ sep :: rest) = (run, some rest) := by
  have hrun : ∀ c ∈ run, decide (c ≠ sep) = true := fun c hc => decide_eq_true (h c hc)
  rw [splitOnce, List.dropWhile_append_of_pos hrun, List.takeWhile_append_of_pos hrun]
  simp

theorem splitOnce_whole {sep : Char} {run : List Char} (h : ∀ c ∈ run, c ≠ sep) :
    splitOnce sep run = (run, none) := by
  have hnone : run.dropWhile (· ≠ sep) = [] :=
    List.dropWhile_eq_nil_iff.mpr fun c hc => decide_eq_true (h c hc)
  rw [splitOnce, hnone]

/-- The name and the bound of a token are found again. -/
theorem splitOnce_boundToken {name before : List Char} (after bound : List Char)
    (hname : ∀ c ∈ name, isNumberChar c = true) (hbefore : Blanks before) :
    splitOnce ':' (boundToken name before after bound) =
      (name ++ before, some (after ++ bound)) := by
  apply splitOnce_run
  rintro c hc rfl
  rcases List.mem_append.mp hc with hc | hc
  · exact absurd (hname _ hc) (by decide)
  · exact absurd (hbefore _ hc) (by decide)

/-- Blanks behind a name are trimmed, and those before a number. -/
theorem trimChars_boundToken {name before after bound : List Char}
    (hname : ∀ c ∈ name, isNumberChar c = true) (hbefore : Blanks before)
    (hafter : Blanks after) (hbound : ∀ c ∈ bound, isNumberChar c = true) :
    Text.trimChars (name ++ before) = name ∧ Text.trimChars (after ++ bound) = bound := by
  have hnone : Blanks [] := fun c hc => absurd hc List.not_mem_nil
  constructor
  · apply Text.trimChars_padded ?_ ?_ hnone hbefore
    · exact fun c hc => isBlank_of_isNumberChar (hname c (List.mem_of_mem_head? hc))
    · exact fun c hc => isBlank_of_isNumberChar (hname c (List.mem_of_getLast? hc))
  · have hplain := Text.trimChars_padded
      (fun c hc => isBlank_of_isNumberChar (hbound c (List.mem_of_mem_head? hc)))
      (fun c hc => isBlank_of_isNumberChar (hbound c (List.mem_of_getLast? hc))) hafter hnone
    rwa [List.append_nil] at hplain

theorem Spells.part? {p : Part} {token : List Char} (h : Spells p token) :
    part? token = some p := by
  cases h with
  | required => rfl
  | @length side n before after bound reads hbefore hafter =>
    obtain ⟨hname, hbound⟩ :=
      trimChars_boundToken (lengthName_chars side) hbefore hafter (Decimal.natural64?_chars reads).2
    rw [Rule.part?, splitOnce_boundToken after bound (lengthName_chars side) hbefore]
    dsimp only
    rw [Option.map_some, hname, hbound]
    cases side with
    | least =>
      show (Decimal.natural64? bound).map (Part.length .least) = _
      rw [reads, Option.map_some]
    | most =>
      show (Decimal.natural64? bound).map (Part.length .most) = _
      rw [reads, Option.map_some]
  | @range side x before after bound reads hbefore hafter =>
    have hchars := (Binary64.ofText?_chars reads).2
    rw [String.toList_ofList] at hchars
    obtain ⟨hname, hbound⟩ := trimChars_boundToken (rangeName_chars side) hbefore hafter hchars
    rw [Rule.part?, splitOnce_boundToken after bound (rangeName_chars side) hbefore]
    dsimp only
    rw [Option.map_some, hname, hbound]
    cases side with
    | least =>
      show (Binary64.ofText? (String.ofList bound)).map (Part.range .least) = _
      rw [reads, Option.map_some]
    | most =>
      show (Binary64.ofText? (String.ofList bound)).map (Part.range .most) = _
      rw [reads, Option.map_some]

/-- A token begins with a character that is no blank and does not begin a pattern. -/
def Opens (token : List Char) : Prop :=
  ∃ c rest, token = c :: rest ∧ Text.isBlank c = false ∧ c ≠ 'p'

theorem Opens.append {token : List Char} (h : Opens token) (rest : List Char) :
    Opens (token ++ rest) := by
  obtain ⟨c, more, rfl, hc⟩ := h
  exact ⟨c, more ++ rest, rfl, hc⟩

theorem Opens.beginsPlain {token : List Char} (h : Opens token) : BeginsPlain token := by
  obtain ⟨c, rest, rfl, hc, -⟩ := h
  exact fun d hd => Option.some.inj hd ▸ hc

theorem Opens.not_pattern {token : List Char} (h : Opens token) :
    patternMark.isPrefixOf token = false := by
  obtain ⟨c, rest, rfl, -, hc⟩ := h
  simp [patternMark, List.isPrefixOf, Ne.symm hc]

/-- A bound token opens with its name and ends with its bound, and there is no bar in it. -/
theorem boundToken_shape {name before after bound : List Char} (hopens : Opens name)
    (hname : ∀ c ∈ name, isNumberChar c = true) (hbefore : Blanks before) (hafter : Blanks after)
    (hbound : bound ≠ []) (hchars : ∀ c ∈ bound, isNumberChar c = true) :
    Opens (boundToken name before after bound) ∧ EndsPlain (boundToken name before after bound) ∧
      ∀ c ∈ boundToken name before after bound, c ≠ '|' := by
  refine ⟨?_, ?_, ?_⟩
  · rw [boundToken, List.append_assoc]
    exact hopens.append _
  · intro c hc
    rw [boundToken, ← List.cons_append, ← List.append_assoc,
      List.getLast?_append_of_ne_nil _ hbound] at hc
    exact isBlank_of_isNumberChar (hchars c (List.mem_of_getLast? hc))
  · rintro c hc rfl
    simp only [boundToken, List.mem_append, List.mem_cons] at hc
    rcases hc with (hc | hc) | hc | hc | hc
    · exact absurd (hname _ hc) (by decide)
    · exact absurd (hbefore _ hc) (by decide)
    · exact absurd hc (by decide)
    · exact absurd (hafter _ hc) (by decide)
    · exact absurd (hchars _ hc) (by decide)

theorem Spells.shape {p : Part} {token : List Char} (h : Spells p token) :
    Opens token ∧ EndsPlain token ∧ ∀ c ∈ token, c ≠ '|' := by
  cases h with
  | required =>
    refine ⟨⟨'r', "equired".toList, rfl, by decide, by decide⟩, ?_,
      fun c hc => ne_of_mem_of_not_mem hc (by decide)⟩
    intro c hc
    obtain rfl : 'd' = c := Option.some.inj hc
    decide
  | @length side n before after bound reads hbefore hafter =>
    obtain ⟨hne, hchars⟩ := Decimal.natural64?_chars reads
    refine boundToken_shape ?_ (lengthName_chars side) hbefore hafter hne hchars
    cases side with
    | least => exact ⟨'m', "inLength".toList, rfl, by decide, by decide⟩
    | most => exact ⟨'m', "axLength".toList, rfl, by decide, by decide⟩
  | @range side x before after bound reads hbefore hafter =>
    obtain ⟨hne, hchars⟩ := Binary64.ofText?_chars reads
    rw [String.toList_ofList] at hne hchars
    refine boundToken_shape ?_ (rangeName_chars side) hbefore hafter hne hchars
    cases side with
    | least => exact ⟨'m', "in".toList, rfl, by decide, by decide⟩
    | most => exact ⟨'m', "ax".toList, rfl, by decide, by decide⟩

/-! ## Reading segments -/

/-- What a segment is once the blanks before it are skipped: nothing, or a token with blanks behind
it. -/
theorem Segment.front {p : Option Part} {cs : List Char} (h : Segment p cs) :
    (p = none ∧ Text.trimFront cs = []) ∨
      ∃ q token after, p = some q ∧ Spells q token ∧ Blanks after ∧
        Text.trimFront cs = token ++ after := by
  cases h with
  | blank h => exact .inl ⟨rfl, List.dropWhile_eq_nil_iff.mpr h⟩
  | @token q token before after spells hbefore hafter =>
    refine .inr ⟨q, token, after, rfl, spells, hafter, ?_⟩
    rw [Text.trimFront_append hbefore]
    exact Text.trimFront_of_beginsPlain (spells.shape.1.append after).beginsPlain

/-- A segment is read as its token, whether a bar follows it or nothing. -/
theorem Segment.reads {p : Option Part} {cs : List Char} (h : Segment p cs) :
    (∀ c ∈ Text.trimFront cs, c ≠ '|') ∧
      (if (Text.trimChars (Text.trimFront cs)).isEmpty then none
        else Rule.part? (Text.trimChars (Text.trimFront cs))) = p := by
  rcases h.front with ⟨rfl, hnil⟩ | ⟨q, token, after, rfl, spells, hafter, hfront⟩
  · rw [hnil]
    exact ⟨fun c hc => absurd hc List.not_mem_nil, rfl⟩
  · obtain ⟨hopens, hends, hbar⟩ := spells.shape
    rw [hfront]
    constructor
    · intro c hc
      rcases List.mem_append.mp hc with hc | hc
      · exact hbar c hc
      · rintro rfl
        exact absurd (hafter _ hc) (by decide)
    · have htrim := Text.trimChars_padded hopens.beginsPlain hends
        (fun c hc => absurd hc List.not_mem_nil : Blanks []) hafter
      rw [List.nil_append] at htrim
      obtain ⟨c, rest, rfl, -⟩ := hopens
      rw [htrim, spells.part?]
      rfl

theorem readParts_nil (fuel : Nat) : readParts fuel [] = [] := by
  cases fuel <;> rfl

/-- A segment up to a bar is read as its token, and then what follows the bar. -/
theorem readParts_segment {p : Option Part} {cs : List Char} (h : Segment p cs)
    (rest : List Char) (fuel : Nat) :
    readParts (fuel + 1) (Text.trimFront cs ++ '|' :: rest) =
      p.toList ++ readParts fuel (Text.trimFront rest) := by
  have hmark : patternMark.isPrefixOf (Text.trimFront cs ++ '|' :: rest) = false := by
    rcases h.front with ⟨-, hnil⟩ | ⟨q, token, after, -, spells, -, hfront⟩
    · rw [hnil]
      rfl
    · rw [hfront, List.append_assoc]
      exact (spells.shape.1.append _).not_pattern
  obtain ⟨hbar, hreads⟩ := h.reads
  rw [readParts, if_neg (by simp), hmark, if_neg Bool.false_ne_true, splitOnce_run hbar]
  dsimp only [Option.getD_some]
  rw [hreads]

/-- A segment up to the end is read as its token. -/
theorem readParts_last {p : Option Part} {cs : List Char} (h : Segment p cs) (fuel : Nat) :
    readParts (fuel + 1) (Text.trimFront cs) = p.toList := by
  obtain ⟨hbar, hreads⟩ := h.reads
  rcases h.front with ⟨rfl, hnil⟩ | ⟨q, token, after, -, spells, -, hfront⟩
  · rw [hnil, readParts_nil]
    rfl
  · have hopens := spells.shape.1.append after
    rw [← hfront] at hopens
    have hne : ¬ (Text.trimFront cs).isEmpty = true := by
      obtain ⟨c, rest, hcons, -⟩ := hopens
      rw [hcons]
      exact Bool.false_ne_true
    rw [readParts, if_neg hne, hopens.not_pattern, if_neg Bool.false_ne_true,
      splitOnce_whole hbar]
    dsimp only [Option.getD_none]
    rw [hreads, show Text.trimFront [] = [] from rfl, readParts_nil, List.append_nil]

/-- The rule for a pattern, if there is one. -/
def patternParts (pattern : Option String) : List Part :=
  pattern.toList.map fun p => .rule ⟨.pattern p, none⟩

/-- A text in the notation is read as the parts that it says. -/
theorem Written.readParts {ps : List Part} {pattern : Option String} {cs : List Char}
    (h : Written ps pattern cs) :
    ∀ fuel, (Text.trimFront cs).length < fuel →
      readParts fuel (Text.trimFront cs) = ps ++ patternParts pattern := by
  induction h with
  | last segment =>
    intro fuel hfuel
    obtain ⟨fuel, rfl⟩ := Nat.exists_eq_add_one_of_ne_zero (Nat.ne_zero_of_lt hfuel)
    rw [readParts_last segment, patternParts, Option.toList_none, List.map_nil, List.append_nil]
  | @pattern p before hbefore hend =>
    intro fuel hfuel
    obtain ⟨fuel, rfl⟩ := Nat.exists_eq_add_one_of_ne_zero (Nat.ne_zero_of_lt hfuel)
    have hfront : Text.trimFront (before ++ (patternMark ++ p.toList)) =
        patternMark ++ p.toList := by
      rw [Text.trimFront_append hbefore]
      exact Text.trimFront_of_beginsPlain fun c hc => Option.some.inj hc ▸ by decide
    rw [hfront, Rule.readParts, if_neg (by simp [patternMark]),
      if_pos (List.isPrefixOf_iff_prefix.mpr (List.prefix_append _ _)), List.drop_left,
      String.ofList_toList]
    rfl
  | @more p ps pattern cs rest segment written ih =>
    intro fuel hfuel
    obtain ⟨fuel, rfl⟩ := Nat.exists_eq_add_one_of_ne_zero (Nat.ne_zero_of_lt hfuel)
    rw [Text.trimFront_append_cons (by decide)] at hfuel ⊢
    have hshort : (Text.trimFront rest).length < fuel := by
      have hle : (Text.trimFront rest).length ≤ rest.length := List.length_dropWhile_le _ _
      rw [List.length_append, List.length_cons] at hfuel
      omega
    rw [readParts_segment segment, ih fuel hshort, List.append_assoc]

/-- Blanks at the end of a text in the notation do not belong to what it says. -/
theorem Written.trimBack {ps : List Part} {pattern : Option String} {cs : List Char}
    (h : Written ps pattern cs) : Written ps pattern (Text.trimBack cs) := by
  have hnone : Blanks [] := fun c hc => absurd hc List.not_mem_nil
  induction h with
  | last segment =>
    cases segment with
    | blank h =>
      rw [Text.trimBack_eq, List.rdropWhile_eq_nil_iff.mpr h]
      exact .last (.blank hnone)
    | @token p token before after spells hbefore hafter =>
      obtain ⟨hopens, hends, -⟩ := spells.shape
      have hne : token ≠ [] := by
        obtain ⟨c, rest, rfl, -⟩ := hopens
        exact List.cons_ne_nil c rest
      rw [← List.append_assoc, Text.trimBack_append hafter,
        Text.trimBack_of_endsPlain (hends.append hne before)]
      have segment := Segment.token spells hbefore hnone
      rw [List.append_nil] at segment
      exact .last segment
  | @pattern p before hbefore hend =>
    have hplain : EndsPlain (patternMark ++ p.toList) := by
      by_cases hne : p.toList = []
      · rw [hne]
        exact fun c hc => Option.some.inj hc ▸ by decide
      · exact hend.append hne patternMark
    rw [Text.trimBack_of_endsPlain (hplain.append (by simp [patternMark]) before)]
    exact .pattern p hbefore hend
  | more segment written ih =>
    rw [Text.trimBack_append_cons (by decide)]
    exact .more segment ih

/-- A text in short form comes to the rules among its parts, the length rule and the range rule. -/
theorem ofShorthand_written {ps all : List Part} {pattern : Option String}
    {cs blanks : List Char} {text : String} (h : Written ps pattern cs) (hblanks : Blanks blanks)
    (htext : text.toList = cs ++ blanks) (hall : ps ++ patternParts pattern = all) :
    (ofShorthand text).Perm (all.filterMap Part.rule? ++
      ((lastBounds (all.filterMap Part.length?)).map lengthRule).toList ++
      ((lastBounds (all.filterMap Part.range?)).map rangeRule).toList) := by
  have htrim : Text.trimChars (cs ++ blanks) = Text.trimFront (Text.trimBack cs) := by
    rw [← Text.trimFront_trimBack, Text.trimBack_append hblanks]
  rw [ofShorthand, htext, htrim, h.trimBack.readParts _ (Nat.lt_succ_self _), hall]
  exact (merged_holds all).perm

/-! ## One rule of a kind -/

/-- A rule about the length of a value. -/
def Kind.isLength : Kind → Bool
  | .length .. => true
  | _ => false

/-- A rule about the range of a value. -/
def Kind.isRange : Kind → Bool
  | .range .. => true
  | _ => false

/-- No token says a rule about a length or a range, but only a bound of it. -/
theorem part?_rule {token : List Char} {p : Part} {r : Rule} (h : part? token = some p)
    (hr : p.rule? = some r) : r.kind.isLength = false ∧ r.kind.isRange = false := by
  have hpreset : ∀ name, ((preset? name).getD ⟨.unknown name, none⟩).kind.isLength = false ∧
      ((preset? name).getD ⟨.unknown name, none⟩).kind.isRange = false := by
    intro name
    unfold preset?
    split <;> exact ⟨rfl, rfl⟩
  unfold Rule.part? at h
  dsimp only at h
  split at h
  · cases h
    cases hr
    exact ⟨rfl, rfl⟩
  · obtain ⟨x, -, rfl⟩ := Option.map_eq_some_iff.mp h
    cases hr
  · obtain ⟨x, -, rfl⟩ := Option.map_eq_some_iff.mp h
    cases hr
  · obtain ⟨x, -, rfl⟩ := Option.map_eq_some_iff.mp h
    cases hr
  · obtain ⟨x, -, rfl⟩ := Option.map_eq_some_iff.mp h
    cases hr
  · cases h
    cases hr
    exact hpreset _
  · cases h
    cases hr
    exact ⟨rfl, rfl⟩

theorem readParts_rule (fuel : Nat) (cs : List Char) {r : Rule}
    (h : r ∈ (readParts fuel cs).filterMap Part.rule?) :
    r.kind.isLength = false ∧ r.kind.isRange = false := by
  induction fuel generalizing cs with
  | zero => cases h
  | succ fuel ih =>
    rw [Rule.readParts] at h
    split at h
    · cases h
    · split at h
      · obtain rfl := List.mem_singleton.mp h
        exact ⟨rfl, rfl⟩
      · dsimp only at h
        rw [List.filterMap_append, List.mem_append] at h
        rcases h with h | h
        · obtain ⟨p, hp, hr⟩ := List.mem_filterMap.mp h
          rw [Option.mem_toList] at hp
          split at hp
          · cases hp
          · exact part?_rule hp hr
        · exact ih _ h

/-- Among the rules of one kind that was merged and the rule of the other kind, there is at most one
of a kind. -/
theorem countP_merged {keep : Rule → Bool} {others : List Rule} {merged other : Option Rule}
    (hothers : ∀ r ∈ others, keep r = false) (hother : ∀ r ∈ other, keep r = false) :
    (others ++ merged.toList ++ other.toList).countP keep ≤ 1 := by
  have hnone : others.countP keep = 0 :=
    List.countP_eq_zero.mpr fun r hr => by simp [hothers r hr]
  have hfew : other.toList.countP keep = 0 :=
    List.countP_eq_zero.mpr fun r hr => by simp [hother r (Option.mem_toList.mp hr)]
  have hone : merged.toList.countP keep ≤ 1 := by
    refine List.countP_le_length.trans ?_
    cases merged with
    | none => exact Nat.zero_le 1
    | some r => exact Nat.le_refl 1
  rw [List.countP_append, List.countP_append, hnone, hfew, Nat.zero_add, Nat.add_zero]
  exact hone

/-- A text in short form gives one rule about the length at most and one about the range, however
many bounds it has and wherever they stand. -/
theorem ofShorthand_once (text : String) :
    (ofShorthand text).countP (·.kind.isLength) ≤ 1 ∧
      (ofShorthand text).countP (·.kind.isRange) ≤ 1 := by
  have hperm := (merged_holds (readParts ((Text.trimChars text.toList).length + 1)
    (Text.trimChars text.toList))).perm
  constructor
  · rw [ofShorthand, hperm.countP_eq]
    apply countP_merged fun r hr => (readParts_rule _ _ hr).1
    intro r hr
    obtain ⟨bounds, -, rfl⟩ := Option.map_eq_some_iff.mp hr
    rfl
  · -- The range rule is put before the length rule.
    rw [ofShorthand, hperm.countP_eq, List.append_assoc,
      (List.perm_append_comm.append_left _).countP_eq, ← List.append_assoc]
    apply countP_merged fun r hr => (readParts_rule _ _ hr).2
    intro r hr
    obtain ⟨bounds, -, rfl⟩ := Option.map_eq_some_iff.mp hr
    rfl

end Dialogue.Rule
