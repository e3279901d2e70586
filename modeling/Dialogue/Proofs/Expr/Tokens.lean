import Dialogue.Proofs.Expr.Grammar
import Dialogue.Proofs.Number.Whole

/-!
Scanners and tokens.

Each scanner of the parser finds the token of the grammar that it is for, and it finds every such
token that the text after it lets end: a symbol and a string may end anywhere, a name and a word
where the grammar has them end, and a number where neither a digit follows nor a point with a digit.
-/
namespace Dialogue.Expr

open Expr.Parser

theorem stops_nil (p : Char → Bool) : Stops p [] := fun _ _ h => absurd h (by simp)

theorem stops_cons {p : Char → Bool} {c : Char} {cs : List Char} :
    Stops p (c :: cs) ↔ p c = false :=
  ⟨fun h => h c cs rfl, fun h _ _ he => (List.cons.inj he).1 ▸ h⟩

theorem stops_dropWhile (p : Char → Bool) (cs : List Char) : Stops p (cs.dropWhile p) := by
  intro c after h
  have hhead := List.head?_dropWhile_not p cs
  rw [h] at hhead
  simpa using hhead

theorem takeWhile_stop {p : Char → Bool} {rest : List Char} (hstop : Stops p rest) :
    rest.takeWhile p = [] := by
  cases rest with
  | nil => rfl
  | cons c after => simp [stops_cons.mp hstop]

/-- A run of characters of a class is taken as a whole if the text after it stops the class. -/
theorem takeWhile_run {p : Char → Bool} {run rest : List Char} (hrun : ∀ c ∈ run, p c = true)
    (hstop : Stops p rest) : (run ++ rest).takeWhile p = run := by
  rw [List.takeWhile_append_of_pos hrun, takeWhile_stop hstop, List.append_nil]

theorem dropWhile_run {p : Char → Bool} {run rest : List Char} (hrun : ∀ c ∈ run, p c = true)
    (hstop : Stops p rest) : (run ++ rest).dropWhile p = rest := by
  rw [List.dropWhile_append_of_pos hrun]
  cases rest with
  | nil => simp
  | cons c after => simp [stops_cons.mp hstop]

theorem of_mem_takeWhile {p : Char → Bool} {c : Char} {cs : List Char}
    (h : c ∈ cs.takeWhile p) : p c = true :=
  List.all_eq_true.mp List.all_takeWhile c h

/-- A character of a class is none that is not of the class. -/
theorem ne_of_class {p : Char → Bool} {c d : Char} (hc : p c = true) (hd : p d = false) :
    c ≠ d := by
  rintro rfl
  rw [hc] at hd
  exact absurd hd (by simp)

/-! ## Blanks -/

/-- A class without the four blanks has no blank in it. -/
theorem isBlank_of_class {p : Char → Bool} {c : Char} (hc : p c = true)
    (hspace : p ' ' = false) (htab : p '\t' = false) (hreturn : p '\r' = false)
    (hfeed : p '\n' = false) : isBlank c = false := by
  simp [isBlank, ne_of_class hc hspace, ne_of_class hc htab, ne_of_class hc hreturn,
    ne_of_class hc hfeed]

theorem isBlank_of_isIdentStart {c : Char} (h : isIdentStart c = true) : isBlank c = false :=
  isBlank_of_class h (by decide) (by decide) (by decide) (by decide)

theorem isBlank_of_isDigit {c : Char} (h : c.isDigit = true) : isBlank c = false :=
  isBlank_of_class h (by decide) (by decide) (by decide) (by decide)

theorem Spaced.refl (cs : List Char) : Spaced cs cs := ⟨[], by simp, rfl⟩

/-- Skipping stops somewhere behind blanks. -/
theorem spaced_skip (cs : List Char) : Spaced cs (skip cs) :=
  ⟨cs.takeWhile isBlank, fun _ h => of_mem_takeWhile h, List.takeWhile_append_dropWhile.symm⟩

/-- Blanks make no difference to skipping. -/
theorem Spaced.skip_eq {cs front : List Char} (h : Spaced cs front) : skip cs = skip front := by
  obtain ⟨blanks, hblanks, rfl⟩ := h
  exact List.dropWhile_append_of_pos hblanks

/-- Skipping stops at the first character that is no blank. -/
theorem Spaced.skip_cons {cs front : List Char} {c : Char} (h : Spaced cs (c :: front))
    (hc : isBlank c = false) : skip cs = c :: front := by
  rw [h.skip_eq]
  simp [skip, hc]

/-- A text is no shorter than what follows its blanks. -/
theorem Spaced.length_le {cs front : List Char} (h : Spaced cs front) :
    front.length ≤ cs.length := by
  obtain ⟨blanks, -, rfl⟩ := h
  simp

/-! ## Symbols and words -/

theorem symbol?_eq_some : ∀ {text cs rest : List Char},
    symbol? text cs = some rest ↔ cs = text ++ rest
  | [], cs, rest => by simp [symbol?]
  | w :: text, [], rest => by simp [symbol?]
  | w :: text, c :: cs, rest => by
    by_cases hwc : w = c
    · subst hwc
      simp [symbol?, symbol?_eq_some]
    · simp [symbol?, hwc, Ne.symm hwc]

theorem symbol?_eq_none {c : Char} {text cs : List Char} (h : ∀ after, cs ≠ c :: after) :
    symbol? (c :: text) cs = none := by
  rw [Option.eq_none_iff_forall_not_mem]
  intro rest hrest
  exact h _ (symbol?_eq_some.mp hrest)

theorem word?_eq_some {text cs rest : List Char} :
    word? text cs = some rest ↔ cs = text ++ rest ∧ Apart rest := by
  have hsymbol : symbol? text cs = some rest ↔ cs = text ++ rest := symbol?_eq_some
  rw [← hsymbol, word?]
  split
  · next c after hfound =>
    rw [hfound]
    by_cases hc : isIdentChar c = true
    · simp only [hc, if_true, reduceCtorEq, Option.some.injEq, false_iff, not_and]
      rintro rfl hapart
      have hstop : isIdentChar c = false := stops_cons.mp hapart
      rw [hc] at hstop
      exact absurd hstop (by simp)
    · simp only [hc, Bool.false_eq_true, if_false, Option.some.injEq, iff_self_and]
      rintro rfl
      exact stops_cons.mpr (by simpa using hc)
  · next found hfound =>
    refine iff_self_and.mpr fun hrest => ?_
    cases rest with
    | nil => exact stops_nil _
    | cons c after => exact absurd hrest (hfound c after)

/-- The scanner of a token. -/
def Token.read? : Token → List Char → Option (List Char)
  | .symbol text => symbol? text
  | .word text => word? text

theorem Token.read?_eq_some {t : Token} {cs rest : List Char} :
    t.read? cs = some rest ↔ cs = t.text ++ rest ∧ t.Ends rest := by
  cases t with
  | symbol text => simp [read?, symbol?_eq_some, Token.text, Token.Ends]
  | word text => exact word?_eq_some

theorem Token.stands_of_read? {t : Token} {cs rest : List Char}
    (h : t.read? (skip cs) = some rest) : t.Stands cs rest := by
  obtain ⟨hskip, hends⟩ := Token.read?_eq_some.mp h
  exact ⟨hskip ▸ spaced_skip cs, hends⟩

theorem Token.stands_of_symbol? {text cs rest : List Char}
    (h : symbol? text (skip cs) = some rest) : (Token.symbol text).Stands cs rest :=
  Token.stands_of_read? h

/-- Where a token stands that begins with no blank, skipping stops at it. -/
theorem Token.Stands.skip_eq {t : Token} {c : Char} {text cs rest : List Char}
    (h : t.Stands cs rest) (htext : t.text = c :: text) (hc : isBlank c = false) :
    skip cs = c :: (text ++ rest) := by
  have hspaced := h.spaced
  rw [htext] at hspaced
  exact hspaced.skip_cons hc

theorem Token.Stands.symbol? {c : Char} {text cs rest : List Char}
    (h : (Token.symbol (c :: text)).Stands cs rest) (hc : isBlank c = false) :
    symbol? (c :: text) (skip cs) = some rest := by
  rw [h.skip_eq rfl hc]
  exact symbol?_eq_some.mpr rfl

theorem Token.Stands.length_le {t : Token} {cs rest : List Char} (h : t.Stands cs rest) :
    rest.length ≤ cs.length := by
  have hle := h.spaced.length_le
  rw [List.length_append] at hle
  omega

theorem Token.Stands.length_lt {t : Token} {cs rest : List Char} (h : t.Stands cs rest)
    (ht : t.text ≠ []) : rest.length < cs.length := by
  have hle := h.spaced.length_le
  have hpos : 0 < t.text.length := List.length_pos_iff.mpr ht
  rw [List.length_append] at hle
  omega

/-- The first operator of a list whose token is next. -/
def nextOperator? {α : Type} (ops : List (α × Token)) (cs : List Char) :
    Option (α × List Char) :=
  ops.findSome? fun (op, t) => (t.read? (skip cs)).map fun rest => (op, rest)

theorem nextOperator?_sound {α : Type} {ops : List (α × Token)} {op : α} {cs rest : List Char}
    (h : nextOperator? ops cs = some (op, rest)) : ∃ t, (op, t) ∈ ops ∧ t.Stands cs rest := by
  obtain ⟨⟨_, t⟩, hmem, hread⟩ := List.exists_of_findSome?_eq_some h
  simp only [Option.map_eq_some_iff, Prod.mk.injEq] at hread
  obtain ⟨_, hread, rfl, rfl⟩ := hread
  exact ⟨t, hmem, Token.stands_of_read? hread⟩

theorem unaryOp?_eq (cs : List Char) : unaryOp? cs = nextOperator? unaryOperators cs := by
  simp only [unaryOp?, nextOperator?, unaryOperators, List.findSome?_cons, Token.read?]
  split
  · next hbang => simp [hbang]
  · next hbang =>
    simp only [hbang, Option.map_none]
    split
    · next hnot => simp [hnot]
    · next hnot =>
      simp only [hnot, Option.map_none]
      cases symbol? ['-'] (skip cs) <;> rfl

/-! ## Names -/

/-- No name begins with a digit. -/
theorem isIdentStart_of_isDigit {c : Char} (h : c.isDigit = true) : isIdentStart c = false := by
  have hrange : 48 ≤ c.toNat ∧ c.toNat ≤ 57 := by
    simpa [Char.isDigit, UInt32.le_iff_toNat_le] using h
  have hascii : c.toNat < 128 := by omega
  have halpha : c.isAlpha = false := by
    have hupper : c.isUpper = false := by
      show decide (65 ≤ c.val ∧ c.val ≤ 90) = false
      simp only [UInt32.le_iff_toNat_le, Char.toNat_val]
      simp
      omega
    have hlower : c.isLower = false := by
      show (decide (97 ≤ c.val) && decide (c.val ≤ 122)) = false
      simp only [UInt32.le_iff_toNat_le, Char.toNat_val]
      simp
      omega
    show (c.isUpper || c.isLower) = false
    rw [hupper, hlower]
    rfl
  have hlow : c ≠ '_' := ne_of_class h (by decide)
  have hdollar : c ≠ '$' := ne_of_class h (by decide)
  simp [isIdentStart, Text.isAlphabetic, hascii, halpha, hlow, hdollar]

theorem identText?_eq_some {name : String} {cs rest : List Char} :
    identText? cs = some (name, rest) ↔ Name name cs rest := by
  constructor
  · intro h
    cases cs with
    | nil => simp [identText?] at h
    | cons c cs =>
      by_cases hc : isIdentStart c = true
      · simp only [identText?, hc, if_true, Option.some.injEq, Prod.mk.injEq] at h
        obtain ⟨rfl, rfl⟩ := h
        have hmore : ∀ d ∈ cs.takeWhile isIdentChar, isIdentChar d = true :=
          fun d hd => of_mem_takeWhile hd
        have hname := Name.mk hc hmore (stops_dropWhile isIdentChar cs)
        rwa [List.takeWhile_append_dropWhile] at hname
      · simp [identText?, hc] at h
  · rintro ⟨hfirst, hmore, hapart⟩
    simp [identText?, hfirst, takeWhile_run hmore hapart, dropWhile_run hmore hapart]

/-- One text begins with one name. -/
theorem Name.unique {name other : String} {cs rest left : List Char} (h : Name name cs rest)
    (h' : Name other cs left) : name = other := by
  have heq := (identText?_eq_some.mpr h).symm.trans (identText?_eq_some.mpr h')
  exact (Prod.mk.inj (Option.some.inj heq)).1

theorem Name.length_lt {name : String} {cs rest : List Char} (h : Name name cs rest) :
    rest.length < cs.length := by
  cases h with
  | mk =>
    simp only [List.length_cons, List.length_append]
    omega

/-- A name stands for a value or for itself, if it is one of the reserved words for no more than a
value. -/
theorem wordForm?_eq_some {e : Expr} {cs rest : List Char} :
    wordForm? cs = some (e, rest) ↔ ∃ name, Name name cs rest ∧
      ((∃ v, (name, v) ∈ literalWords ∧ e = .literal v) ∨ (name ∉ reserved ∧ e = .ident name)) := by
  constructor
  · intro h
    cases hname : identText? cs with
    | none => simp [wordForm?, hname] at h
    | some found =>
      obtain ⟨name, left⟩ := found
      have hleft : left = rest ∧ ((∃ v, (name, v) ∈ literalWords ∧ e = .literal v) ∨
          (name ∉ reserved ∧ e = .ident name)) := by
        simp only [wordForm?, hname] at h
        split at h
        · next htrue => simp_all [literalWords]
        · next htrue =>
          split at h
          · next hfalse => simp_all [literalWords]
          · next hfalse =>
            split at h
            · next hnull => simp_all [literalWords]
            · next hnull =>
              split at h
              · simp at h
              · next hfree => simp_all
      obtain ⟨rfl, hmeaning⟩ := hleft
      exact ⟨name, identText?_eq_some.mp hname, hmeaning⟩
  · rintro ⟨name, hname, hmeaning⟩
    have hname := identText?_eq_some.mpr hname
    rcases hmeaning with ⟨v, hword, rfl⟩ | ⟨hfree, rfl⟩
    · simp only [literalWords, List.mem_cons, Prod.mk.injEq, List.not_mem_nil, or_false] at hword
      rcases hword with ⟨rfl, rfl⟩ | ⟨rfl, rfl⟩ | ⟨rfl, rfl⟩ <;> simp [wordForm?, hname]
    · simp only [reserved, List.mem_cons, List.not_mem_nil, or_false, not_or] at hfree
      simp [wordForm?, hname, hfree, reserved]

/-! ## Numbers -/

/-- Every whole number of 63 bits is finite. -/
theorem isFinite_ofNat {n : Nat} (h : n < signedLimit) : (Binary64.ofNat n).isFinite = true := by
  have hsmall : n < 2 ^ 1023 := (Binary64.inWord_of_lt (i := n) h).small
  rcases Binary64.ofRatio_whole false n with ⟨-, hgreat⟩ | ⟨hfinite, -⟩
  · exact absurd hgreat (Nat.not_le_of_lt hsmall)
  · exact hfinite

theorem wholeLiteral?_eq_some {digits : List Char} {v : Json} :
    wholeLiteral? digits = some v ↔
      (Binary64.ofNat (Binary64.digitsValue digits)).isFinite = true ∧ wholeValue digits = v := by
  by_cases hsmall : Binary64.digitsValue digits < signedLimit
  · simp [wholeLiteral?, wholeValue, hsmall, isFinite_ofNat hsmall]
  · simp [wholeLiteral?, wholeValue, hsmall]

theorem fractionLiteral?_eq_some {whole fraction : List Char} {v : Json} :
    fractionLiteral? whole fraction = some v ↔
      (pointValue whole fraction).isFinite = true ∧
        .ofBinary64 (pointValue whole fraction) = v := by
  simp [fractionLiteral?, pointValue]

/-- The text goes on with no digit, and with no point that has a digit behind it. -/
structure Unnumbered (rest : List Char) : Prop where
  digit : Stops Char.isDigit rest
  point : ∀ after, rest = '.' :: after → Stops Char.isDigit after

theorem digits_takeWhile {cs : List Char} (h : (cs.takeWhile Char.isDigit).isEmpty = false) :
    Digits (cs.takeWhile Char.isDigit) :=
  ⟨by simpa using h, fun _ hd => of_mem_takeWhile hd⟩

theorem number?_sound {v : Json} {cs rest : List Char} (h : number? cs = some (v, rest)) :
    Numeral v cs rest := by
  have hsplit : cs.takeWhile Char.isDigit ++ cs.dropWhile Char.isDigit = cs :=
    List.takeWhile_append_dropWhile
  cases hwhole : (cs.takeWhile Char.isDigit).isEmpty with
  | true => simp [number?, Binary64.spanDigits, hwhole] at h
  | false =>
    have hdigits : Digits (cs.takeWhile Char.isDigit) := digits_takeWhile hwhole
    -- a number is whole wherever its digits are not followed by a fraction
    have plain : (wholeLiteral? (cs.takeWhile Char.isDigit)).map
        (fun v => (v, cs.dropWhile Char.isDigit)) = some (v, rest) → Numeral v cs rest := by
      intro hplain
      simp only [Option.map_eq_some_iff, Prod.mk.injEq] at hplain
      obtain ⟨_, hvalue, rfl, rfl⟩ := hplain
      obtain ⟨hfinite, rfl⟩ := wholeLiteral?_eq_some.mp hvalue
      have hnumeral : Numeral (wholeValue (cs.takeWhile Char.isDigit))
          (cs.takeWhile Char.isDigit ++ cs.dropWhile Char.isDigit) (cs.dropWhile Char.isDigit) :=
        .whole hdigits hfinite
      rwa [hsplit] at hnumeral
    simp only [number?, Binary64.spanDigits, hwhole, Bool.false_eq_true, if_false] at h
    split at h
    · next after hpoint =>
      cases hfraction : (after.takeWhile Char.isDigit).isEmpty with
      | true =>
        simp only [hfraction, if_true] at h
        exact plain h
      | false =>
        simp only [hfraction, Bool.false_eq_true, if_false, Option.map_eq_some_iff,
          Prod.mk.injEq] at h
        obtain ⟨_, hvalue, rfl, rfl⟩ := h
        obtain ⟨hfinite, rfl⟩ := fractionLiteral?_eq_some.mp hvalue
        have hfractional : after.takeWhile Char.isDigit ++ after.dropWhile Char.isDigit = after :=
          List.takeWhile_append_dropWhile
        have htext : cs.takeWhile Char.isDigit ++
            '.' :: (after.takeWhile Char.isDigit ++ after.dropWhile Char.isDigit) = cs := by
          rw [hfractional, ← hpoint, hsplit]
        have hnumeral : Numeral (.ofBinary64 (pointValue (cs.takeWhile Char.isDigit)
            (after.takeWhile Char.isDigit))) (cs.takeWhile Char.isDigit ++
              '.' :: (after.takeWhile Char.isDigit ++ after.dropWhile Char.isDigit))
            (after.dropWhile Char.isDigit) :=
          .point hdigits (digits_takeWhile hfraction) hfinite
        rwa [htext] at hnumeral
    · exact plain h

theorem number?_complete {v : Json} {cs rest : List Char} (h : Numeral v cs rest)
    (hrest : Unnumbered rest) : number? cs = some (v, rest) := by
  cases h with
  | @whole digits _ hdigits hfinite =>
    have hempty : digits.isEmpty = false := by simpa using hdigits.1
    have hvalue : wholeLiteral? digits = some (wholeValue digits) :=
      wholeLiteral?_eq_some.mpr ⟨hfinite, rfl⟩
    simp only [number?, Binary64.spanDigits, takeWhile_run hdigits.2 hrest.digit,
      dropWhile_run hdigits.2 hrest.digit, hempty, Bool.false_eq_true, if_false, hvalue]
    split
    · next after =>
      have hnone : after.takeWhile Char.isDigit = [] :=
        takeWhile_stop (hrest.point after rfl)
      simp [hnone]
    · simp
  | @point whole fraction _ hwhole hfraction hfinite =>
    have hempty : whole.isEmpty = false := by simpa using hwhole.1
    have hempty' : fraction.isEmpty = false := by simpa using hfraction.1
    have hpoint : Stops Char.isDigit ('.' :: (fraction ++ rest)) := stops_cons.mpr (by decide)
    have hvalue := fractionLiteral?_eq_some.mpr ⟨hfinite, rfl⟩
    simp only [number?, Binary64.spanDigits, takeWhile_run hwhole.2 hpoint,
      dropWhile_run hwhole.2 hpoint, takeWhile_run hfraction.2 hrest.digit,
      dropWhile_run hfraction.2 hrest.digit, hempty, hempty', Bool.false_eq_true, if_false, hvalue,
      Option.map_some]

/-- Only a digit begins a number. -/
theorem number?_eq_none {cs : List Char} (h : Stops Char.isDigit cs) : number? cs = none := by
  have hspan : cs.takeWhile Char.isDigit = [] := takeWhile_stop h
  simp [number?, Binary64.spanDigits, hspan]

theorem Numeral.head {v : Json} {cs rest : List Char} (h : Numeral v cs rest) :
    ∃ d after, cs = d :: after ∧ d.isDigit = true ∧ rest.length ≤ after.length := by
  cases h with
  | @whole digits _ hdigits =>
    obtain ⟨hne, hall⟩ := hdigits
    obtain ⟨d, more, rfl⟩ := List.exists_cons_of_ne_nil hne
    exact ⟨d, more ++ rest, rfl, hall d List.mem_cons_self, by simp⟩
  | @point whole fraction _ hwhole =>
    obtain ⟨hne, hall⟩ := hwhole
    obtain ⟨d, more, rfl⟩ := List.exists_cons_of_ne_nil hne
    exact ⟨d, more ++ '.' :: (fraction ++ rest), rfl, hall d List.mem_cons_self, by simp; omega⟩

/-! ## Strings -/

theorem stringRest?_escaped (quote c : Char) (cs : List Char) :
    stringRest? quote ('\\' :: c :: cs) =
      (stringRest? quote cs).map fun (text, rest) => (unescape c :: text, rest) := by
  simp [stringRest?]

theorem stringRest?_unescaped {quote c : Char} (hc : c ≠ '\\') (cs : List Char) :
    stringRest? quote (c :: cs) = if c = quote then some ([], cs) else
      (stringRest? quote cs).map fun (text, rest) => (c :: text, rest) := by
  cases cs <;> simp [stringRest?, hc]

theorem stringRest?_eq_some {quote : Char} (hquote : quote ≠ '\\') {text cs rest : List Char} :
    stringRest? quote cs = some (text, rest) ↔ Quoted quote text cs rest := by
  constructor
  · intro h
    induction cs using stringRest?.induct quote generalizing text with
    | case1 => simp [stringRest?] at h
    | case2 => simp [stringRest?] at h
    | case3 c cs ih =>
      rw [stringRest?_escaped] at h
      simp only [Option.map_eq_some_iff, Prod.mk.injEq] at h
      obtain ⟨⟨inner, _⟩, hinner, rfl, rfl⟩ := h
      exact .escaped (ih hinner)
    | case4 cs =>
      rw [stringRest?_unescaped hquote] at h
      simp only [if_true, Option.some.injEq, Prod.mk.injEq] at h
      obtain ⟨rfl, rfl⟩ := h
      exact .close
    | case5 c cs hback hne ih =>
      rw [stringRest?_unescaped hback] at h
      simp only [hne, if_false, Option.map_eq_some_iff, Prod.mk.injEq] at h
      obtain ⟨⟨inner, _⟩, hinner, rfl, rfl⟩ := h
      exact .plain hback hne (ih hinner)
  · intro h
    induction h with
    | close => rw [stringRest?_unescaped hquote, if_pos rfl]
    | plain hback hne _ ih => rw [stringRest?_unescaped hback, if_neg hne, ih]; rfl
    | escaped _ ih => rw [stringRest?_escaped, ih]; rfl

theorem Quoted.length_lt {quote : Char} {text cs rest : List Char} (h : Quoted quote text cs rest) :
    rest.length < cs.length := by
  induction h with
  | close => simp
  | plain _ _ _ ih => simp only [List.length_cons]; omega
  | escaped _ ih => simp only [List.length_cons]; omega

/-- The scanner of strings gives the strings of the grammar. -/
theorem string_eq_done {e : Expr} {cs rest : List Char} :
    Parser.string cs = .done e rest ↔ ∃ quote inside text, (quote = '"' ∨ quote = '\'') ∧
      cs = quote :: inside ∧ Quoted quote text inside rest ∧
      e = .literal (.string (String.ofList text)) := by
  have hback : ∀ {quote : Char}, quote = '"' ∨ quote = '\'' → quote ≠ '\\' := by
    rintro _ (rfl | rfl) <;> decide
  constructor
  · intro h
    cases cs with
    | nil => simp [Parser.string] at h
    | cons quote inside =>
      by_cases hquote : quote = '"' ∨ quote = '\''
      · cases hrest : stringRest? quote inside with
        | none => simp [Parser.string, hquote, hrest] at h
        | some found =>
          obtain ⟨text, left⟩ := found
          simp only [Parser.string, Bool.or_eq_true, decide_eq_true_eq, hquote, if_true, hrest,
            Outcome.done.injEq] at h
          obtain ⟨rfl, rfl⟩ := h
          have hquoted := (stringRest?_eq_some (hback hquote)).mp hrest
          exact ⟨quote, inside, text, hquote, rfl, hquoted, rfl⟩
      · simp [Parser.string, hquote] at h
  · rintro ⟨quote, inside, text, hquote, rfl, hquoted, rfl⟩
    have hrest := (stringRest?_eq_some (hback hquote)).mpr hquoted
    simp [Parser.string, hquote, hrest]

/-- Only a quote begins a string. -/
theorem string_eq_wanted {c : Char} {cs : List Char} (h : c ≠ '"') (h' : c ≠ '\'') :
    Parser.string (c :: cs) = .wanted (c :: cs) := by
  simp [Parser.string, h, h']

end Dialogue.Expr
