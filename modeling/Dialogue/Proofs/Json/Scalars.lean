import Mathlib.Data.List.TakeWhile
import Dialogue.Json.Printer
import Dialogue.Json.Reader

/-!
Strings and numbers read back from their texts.

A quoted string is read back whatever follows it (`readChars_quoted`). A number is read back from
its text as part of a longer one if it is from its text alone (`Number.Exact`), and if what follows
cannot be part of a number (`readNumber_append`): digits, a point and an exponent are taken as far
as they go. Whole numbers in the 64-bit ranges are exact (`Number.whole_exact`).
-/
namespace Dialogue

theorem Text.hexValue?_hexDigit : ∀ n < 16, Text.hexValue? (Text.hexDigit n) = some n := by decide

namespace Json

/-! ## Strings -/

/-- The characters of a string between its quotes. -/
def escaped (cs : List Char) : List Char := cs.flatMap fun c => (escapeChar c).toList

theorem quote_toList (s : String) : (quote s).toList = '"' :: (escaped s.toList ++ ['"']) := by
  have hfold (acc : String) (cs : List Char) :
      (cs.foldl (fun acc c => acc ++ escapeChar c) acc).toList = acc.toList ++ escaped cs := by
    induction cs generalizing acc with
    | nil => simp [escaped]
    | cons c cs ih => simp [escaped, ih]
  have hquote : ("\"" : String).toList = ['"'] := rfl
  rw [quote, String.foldl_eq_foldl_toList]
  simp [String.toList_append, hfold, hquote]

theorem readHex_escape (n : Nat) (h : n < 32) (rest : List Char) :
    readHex ('0' :: '0' :: Text.hexDigit (n / 16) :: Text.hexDigit (n % 16) :: rest) =
      .ok (n, rest) := by
  have hzero : Text.hexValue? '0' = some 0 := rfl
  have hhigh := Text.hexValue?_hexDigit (n / 16) (by omega)
  have hlow := Text.hexValue?_hexDigit (n % 16) (by omega)
  have hvalue : n / 16 * 16 + n % 16 = n := by omega
  simp [readHex, hzero, hhigh, hlow, hvalue]

/-- The text of a character is read as that character. -/
theorem readChars_escapeChar (acc : List Char) (fuel : Nat) (c : Char) (rest : List Char) :
    readChars acc (fuel + 1) ((escapeChar c).toList ++ rest) = readChars (c :: acc) fuel rest := by
  unfold escapeChar
  -- The one-letter escapes.
  iterate 7
    split
    · subst_vars; rfl
  split
  · next hcontrol =>
    have htext (a b : Char) : ("\\u00" ++ String.ofList [a, b]).toList =
        '\\' :: 'u' :: '0' :: '0' :: [a, b] := by
      have hends : (String.ofList [a, b]).toList = [a, b] := String.toList_ofList
      rw [String.toList_append, hends]
      rfl
    have hvalue : readUnicode ('0' :: '0' :: Text.hexDigit (c.toNat / 16) ::
        Text.hexDigit (c.toNat % 16) :: rest) = .ok (c, rest) := by
      have hlow : ¬ (0xDC00 ≤ c.toNat ∧ c.toNat ≤ 0xDFFF) := by omega
      have hhigh : ¬ (0xD800 ≤ c.toNat ∧ c.toNat ≤ 0xDBFF) := by omega
      rw [readUnicode, readHex_escape c.toNat hcontrol rest]
      show (if _ then _ else if _ then _ else _) = _
      rw [if_neg hlow, if_neg hhigh, Char.ofNat_toNat]
    rw [htext]
    simp only [readChars, List.cons_append, List.nil_append, Char.reduceEq, if_false, if_true,
      Char.reduceToNat, Nat.reduceLT, hvalue]
    rfl
  · next hquote hslash _ _ _ _ _ hprinted =>
    have htext : c.toString.toList = [c] := String.toList_singleton c
    rw [htext]
    simp [readChars, hquote, hslash, hprinted]

theorem length_le_escaped (cs : List Char) : cs.length ≤ (escaped cs).length := by
  induction cs with
  | nil => exact Nat.le_refl 0
  | cons c cs ih =>
    have hchar : 0 < (escapeChar c).toList.length := by
      unfold escapeChar
      iterate 8
        split
        · simp
      simp
    simp only [escaped, List.flatMap_cons, List.length_append, List.length_cons] at ih ⊢
    omega

/-- A quoted string is read back. -/
theorem readChars_quoted (s : String) (rest : List Char) {fuel : Nat}
    (hfuel : s.toList.length < fuel) :
    readChars [] fuel (escaped s.toList ++ '"' :: rest) = .ok (s, rest) := by
  have hread (cs acc : List Char) : ∀ fuel, cs.length < fuel →
      readChars acc fuel (escaped cs ++ '"' :: rest) =
        .ok (String.ofList (acc.reverse ++ cs), rest) := by
    induction cs generalizing acc with
    | nil =>
      intro fuel hfuel
      obtain ⟨fuel, rfl⟩ : ∃ k, fuel = k + 1 := ⟨fuel - 1, by omega⟩
      simp [escaped, readChars]
    | cons c cs ih =>
      intro fuel hfuel
      simp only [List.length_cons] at hfuel
      obtain ⟨fuel, rfl⟩ : ∃ k, fuel = k + 1 := ⟨fuel - 1, by omega⟩
      have htext : escaped (c :: cs) ++ '"' :: rest =
          (escapeChar c).toList ++ (escaped cs ++ '"' :: rest) := by simp [escaped]
      rw [htext, readChars_escapeChar, ih (c :: acc) fuel (by omega)]
      simp
  have hs := hread s.toList [] fuel hfuel
  rw [List.reverse_nil, List.nil_append, String.ofList_toList] at hs
  exact hs

/-- The reader lets a string be as long as the text that is left. -/
theorem readChars_closed (s : String) (rest : List Char) :
    readChars [] ((escaped s.toList ++ '"' :: rest).length + 1) (escaped s.toList ++ '"' :: rest) =
      .ok (s, rest) := by
  have hlength := length_le_escaped s.toList
  apply readChars_quoted
  rw [List.length_append, List.length_cons]
  omega

/-! ## Numbers -/

/-- What can follow a value inside a text. -/
def Follows (rest : List Char) : Prop :=
  ∀ c tail, rest = c :: tail → c = ',' ∨ c = ']' ∨ c = '\x7d'

theorem follows_nil : Follows [] := by
  intro c tail h
  cases h

theorem follows_cons {c : Char} (h : c = ',' ∨ c = ']' ∨ c = '\x7d') (tail : List Char) :
    Follows (c :: tail) := by
  rintro _ _ ⟨⟩
  exact h

/-- What the reader takes from a text it takes from a longer one, if a value can end in between. -/
def Local {α : Type} (f : List Char → Except Fault (α × List Char)) : Prop :=
  ∀ {rest : List Char}, Follows rest → ∀ {cs : List Char} {a : α} {left : List Char},
    f cs = .ok (a, left) → f (cs ++ rest) = .ok (a, left ++ rest)

theorem Local.bind {α β : Type} {f : List Char → Except Fault (α × List Char)}
    {g : α → List Char → Except Fault (β × List Char)} (hf : Local f) (hg : ∀ a, Local (g a)) :
    Local fun cs => (f cs).bind fun (a, left) => g a left := by
  intro rest hrest cs b left h
  cases hcs : f cs with
  | error e => simp only [hcs, Except.bind] at h; cases h
  | ok r =>
    obtain ⟨a, mid⟩ := r
    simp only [hcs, Except.bind] at h
    simp only [hf hrest hcs, Except.bind]
    exact hg a hrest h

theorem spanDigits_append {rest : List Char} (hrest : Follows rest) (cs : List Char) :
    Binary64.spanDigits (cs ++ rest) =
      ((Binary64.spanDigits cs).1, (Binary64.spanDigits cs).2 ++ rest) := by
  induction cs with
  | nil =>
    cases rest with
    | nil => rfl
    | cons c tail =>
      have hc : c.isDigit = false := by
        rcases hrest c tail rfl with rfl | rfl | rfl <;> rfl
      simp [Binary64.spanDigits, hc]
  | cons c cs ih =>
    simp only [Binary64.spanDigits, Prod.mk.injEq] at ih ⊢
    cases hc : c.isDigit with
    | true => simp [hc, ih]
    | false => simp [hc]

theorem readDigits_local : Local readDigits := by
  intro rest hrest cs digits left h
  rw [readDigits] at h ⊢
  rw [spanDigits_append hrest]
  generalize Binary64.spanDigits cs = span at h ⊢
  obtain ⟨ds, mid⟩ := span
  cases ds with
  | nil => cases mid <;> cases h
  | cons d ds =>
    cases h
    rfl

/-- Digits that do not begin with a needless zero. -/
def plainDigits (digits left : List Char) : Except Fault (List Char × List Char) :=
  match digits with
  | '0' :: _ :: _ => fail .malformed left
  | _ => .ok (digits, left)

theorem plainDigits_ok {left ds : List Char} {r : List Char × List Char}
    (h : plainDigits ds left = .ok r) : r = (ds, left) ∧ ∀ d tail, ds ≠ '0' :: d :: tail := by
  unfold plainDigits at h
  split at h
  · cases h
  · next hzero =>
    cases h
    exact ⟨rfl, hzero⟩

theorem plainDigits_of_head (left : List Char) {ds : List Char}
    (h : ∀ d tail, ds ≠ '0' :: d :: tail) : plainDigits ds left = .ok (ds, left) := by
  unfold plainDigits
  split
  · exact absurd rfl (h _ _)
  · rfl

theorem readWholeDigits_eq (cs : List Char) : readWholeDigits cs =
    (readDigits cs).bind fun (digits, left) => plainDigits digits left := rfl

theorem readWholeDigits_local : Local readWholeDigits := by
  refine readDigits_local.bind (g := plainDigits) fun digits => ?_
  intro rest hrest cs a left h
  obtain ⟨hr, hzero⟩ := plainDigits_ok h
  cases hr
  exact plainDigits_of_head _ hzero

theorem readFraction_local : Local readFraction := by
  intro rest hrest cs a left h
  cases cs with
  | nil =>
    cases h
    cases rest with
    | nil => rfl
    | cons c tail => rcases hrest c tail rfl with rfl | rfl | rfl <;> rfl
  | cons c cs =>
    by_cases hpoint : c = '.'
    · subst hpoint
      exact (readDigits_local.bind (g := fun digits left => .ok (some digits, left))
        (fun digits => by rintro rest - cs a left ⟨⟩; rfl)) hrest h
    · have hplain (tail : List Char) : readFraction (c :: tail) = .ok (none, c :: tail) := by
        rw [readFraction]
        rintro _ ⟨⟩
        exact hpoint rfl
      rw [hplain] at h
      cases h
      exact hplain (cs ++ rest)

/-- The sign of an exponent, and what follows it. -/
def exponentSign : List Char → Bool × List Char
  | '-' :: rest => (true, rest)
  | '+' :: rest => (false, rest)
  | rest => (false, rest)

/-- The sign of a number, and what follows it. -/
def minusSign : List Char → Bool × List Char
  | '-' :: rest => (true, rest)
  | rest => (false, rest)

theorem exponentSign_append {cs : List Char} (h : cs ≠ []) (rest : List Char) :
    exponentSign (cs ++ rest) = ((exponentSign cs).1, (exponentSign cs).2 ++ rest) := by
  cases cs with
  | nil => exact absurd rfl h
  | cons c cs =>
    by_cases hminus : c = '-'
    · subst hminus
      rfl
    by_cases hplus : c = '+'
    · subst hplus
      rfl
    simp [exponentSign, hminus, hplus]

theorem minusSign_append {cs : List Char} (h : cs ≠ []) (rest : List Char) :
    minusSign (cs ++ rest) = ((minusSign cs).1, (minusSign cs).2 ++ rest) := by
  cases cs with
  | nil => exact absurd rfl h
  | cons c cs =>
    by_cases hminus : c = '-'
    · subst hminus
      rfl
    simp [minusSign, hminus]

theorem readExponent_cons (c : Char) (cs : List Char) : readExponent (c :: cs) =
    if c = 'e' || c = 'E' then
      (readDigits (exponentSign cs).2).bind fun (digits, left) =>
        .ok (some ((exponentSign cs).1, digits), left)
    else .ok (none, c :: cs) := rfl

theorem readNumber_eq (cs : List Char) : readNumber cs =
    (readWholeDigits (minusSign cs).2).bind fun (whole, left) =>
      (readFraction left).bind fun (fraction, left) =>
        (readExponent left).bind fun (exponent, left) =>
          match Number.Written.number? ⟨(minusSign cs).1, whole, fraction, exponent⟩ with
          | some n => .ok (n, left)
          | none => fail .malformed left := rfl

theorem readExponent_local : Local readExponent := by
  intro rest hrest cs a left h
  cases cs with
  | nil =>
    cases h
    cases rest with
    | nil => rfl
    | cons c tail => rcases hrest c tail rfl with rfl | rfl | rfl <;> rfl
  | cons c cs =>
    rw [readExponent_cons] at h
    rw [List.cons_append, readExponent_cons]
    split at h
    · next hmark =>
      have hcs : cs ≠ [] := by
        rintro rfl
        cases h
      rw [if_pos hmark, exponentSign_append hcs]
      exact (readDigits_local.bind (g := fun digits left =>
        .ok (some ((exponentSign cs).1, digits), left))
        (fun digits => by rintro rest - cs a left ⟨⟩; rfl)) hrest h
    · next hmark =>
      cases h
      rw [if_neg hmark]
      rfl

theorem readNumber_local : Local readNumber := by
  intro rest hrest cs n left h
  have hcs : cs ≠ [] := by
    rintro rfl
    cases h
  rw [readNumber_eq] at h ⊢
  rw [minusSign_append hcs]
  refine readWholeDigits_local.bind (fun whole => readFraction_local.bind fun fraction =>
    readExponent_local.bind (g := fun exponent left =>
      match Number.Written.number? ⟨(minusSign cs).1, whole, fraction, exponent⟩ with
      | some n => .ok (n, left)
      | none => fail .malformed left) fun exponent => ?_) hrest h
  intro rest hrest cs n left h
  split at h
  · cases h
    rfl
  · cases h

/-- A number that is read begins with a minus or a digit. -/
theorem readNumber_head {cs left : List Char} {n : Number} (h : readNumber cs = .ok (n, left)) :
    ∃ c tail, cs = c :: tail ∧ (c = '-' || c.isDigit) = true := by
  cases cs with
  | nil => cases h
  | cons c tail =>
    refine ⟨c, tail, rfl, ?_⟩
    by_cases hminus : c = '-'
    · simp [hminus]
    cases hdigit : c.isDigit with
    | true => simp
    | false =>
      have hsign : minusSign (c :: tail) = (false, c :: tail) := by simp [minusSign, hminus]
      have hspan : readDigits (c :: tail) = fail .malformed (c :: tail) := by
        simp [readDigits, Binary64.spanDigits, hdigit]
      rw [readNumber_eq, hsign, readWholeDigits, hspan] at h
      cases h

end Json

namespace Number

/-- The reader gets the number back from its text. -/
def Exact (n : Number) : Prop := Json.readNumber n.text.toList = .ok (n, [])

/-! ### Whole numbers -/

/-- Only the digits of zero begin with a zero. -/
theorem toDigits_head (n : Nat) (h : 0 < n) : (Nat.toDigits 10 n).head? ≠ some '0' := by
  induction n using Nat.strongRecOn with
  | ind n ih =>
    rw [Nat.toDigits_eq_if (by omega)]
    split
    · next hsmall =>
      have hdigit : ∀ k < 10, 0 < k → k.digitChar ≠ '0' := by decide
      simpa using hdigit n hsmall h
    · next hlarge =>
      have hhead := ih (n / 10) (by omega) (by omega)
      have hne : Nat.toDigits 10 (n / 10) ≠ [] := by
        rw [← List.length_pos_iff]
        exact Nat.length_toDigits_pos
      obtain ⟨d, ds, hds⟩ := List.exists_cons_of_ne_nil hne
      rw [hds] at hhead ⊢
      exact hhead

theorem le_ofDigitChars (ds : List Char) (s : Nat) : s ≤ Nat.ofDigitChars 10 ds s := by
  induction ds generalizing s with
  | nil => exact Nat.le_refl s
  | cons d ds ih =>
    rw [Nat.ofDigitChars_cons]
    exact Nat.le_trans (by omega) (ih (10 * s + (d.toNat - '0'.toNat)))

/-- Digits whose value fits 64 bits are all taken. -/
theorem takeDigits_eq (ds : List Char) (s : Nat) (h : Nat.ofDigitChars 10 ds s < unsignedLimit) :
    takeDigits s ds = (Nat.ofDigitChars 10 ds s, ds.length, []) := by
  induction ds generalizing s with
  | nil => rfl
  | cons d ds ih =>
    rw [Nat.ofDigitChars_cons, Nat.mul_comm] at h
    have hnext := Nat.lt_of_le_of_lt (le_ofDigitChars ds _) h
    rw [takeDigits, if_pos hnext, ih _ h, Nat.ofDigitChars_cons, Nat.mul_comm]
    rfl

theorem readWholeDigits_toDigits (n : Nat) :
    Json.readWholeDigits (Nat.toDigits 10 n) = .ok (Nat.toDigits 10 n, []) := by
  have hspan : Binary64.spanDigits (Nat.toDigits 10 n) = (Nat.toDigits 10 n, []) := by
    have hdigits : ∀ c ∈ Nat.toDigits 10 n, c.isDigit = true := fun c hc =>
      Nat.isDigit_of_mem_toDigits (by omega) (by omega) hc
    rw [Binary64.spanDigits, List.takeWhile_eq_self_iff.mpr hdigits,
      List.dropWhile_eq_nil_iff.mpr hdigits]
  have hzero : ∀ d ds, Nat.toDigits 10 n ≠ '0' :: d :: ds := by
    intro d ds h
    cases n with
    | zero => cases h
    | succ n => exact toDigits_head (n + 1) (by omega) (by rw [h]; rfl)
  have hread : Json.readDigits (Nat.toDigits 10 n) = .ok (Nat.toDigits 10 n, []) := by
    have hne : Nat.toDigits 10 n ≠ [] := by
      rw [← List.length_pos_iff]
      exact Nat.length_toDigits_pos
    obtain ⟨d, ds, hds⟩ := List.exists_cons_of_ne_nil hne
    rw [Json.readDigits, hspan, hds]
  rw [Json.readWholeDigits_eq, hread]
  exact Json.plainDigits_of_head [] hzero

theorem takeDigits_toDigits {n : Nat} (h : n < unsignedLimit) :
    takeDigits 0 (Nat.toDigits 10 n) = (n, (Nat.toDigits 10 n).length, []) := by
  have hvalue : Nat.ofDigitChars 10 (Nat.toDigits 10 n) 0 = n :=
    Nat.ofDigitChars_toDigits (by omega) (by omega)
  rw [takeDigits_eq _ 0 (by rw [hvalue]; exact h), hvalue]

theorem minusSign_toDigits (n : Nat) :
    Json.minusSign (Nat.toDigits 10 n) = (false, Nat.toDigits 10 n) := by
  cases hdigits : Nat.toDigits 10 n with
  | nil => rfl
  | cons c cs =>
    have hdigit : c.isDigit = true :=
      Nat.isDigit_of_mem_toDigits (b := 10) (n := n) (by omega) (by omega) (by simp [hdigits])
    have hminus : c ≠ '-' := by
      rintro rfl
      cases hdigit
    simp [Json.minusSign, hminus]

theorem whole_exact {i : Int} (hlow : -signedLimit ≤ i) (hhigh : i < unsignedLimit) :
    (Number.whole i).Exact := by
  cases i with
  | ofNat n =>
    have hn : n < unsignedLimit := Int.ofNat_lt.mp hhigh
    have htext : (Number.whole (.ofNat n)).text.toList = Nat.toDigits 10 n := Nat.toList_repr
    rw [Exact, htext, Json.readNumber_eq, minusSign_toDigits, readWholeDigits_toDigits]
    simp [Except.bind, Json.readFraction, Json.readExponent, Written.number?,
      takeDigits_toDigits hn]
  | negSucc n =>
    have hn : n + 1 ≤ signedLimit := by
      simp only [signedLimit] at hlow ⊢
      omega
    have hfits : n + 1 < unsignedLimit := Nat.lt_of_le_of_lt hn (by decide)
    have htext : (Number.whole (.negSucc n)).text.toList = '-' :: Nat.toDigits 10 (n + 1) := by
      show ("-" ++ (n + 1).repr).toList = _
      rw [String.toList_append, Nat.toList_repr]
      rfl
    have hsign : Json.minusSign ('-' :: Nat.toDigits 10 (n + 1)) =
        (true, Nat.toDigits 10 (n + 1)) := rfl
    have hnumber : Written.number? ⟨true, Nat.toDigits 10 (n + 1), none, none⟩ =
        some (.whole (.negSucc n)) := by
      have hbounds : n + 1 ≠ 0 ∧ n + 1 ≤ signedLimit := ⟨by omega, hn⟩
      simp only [Written.number?, takeDigits_toDigits hfits, List.isEmpty_nil, Bool.not_true,
        Bool.false_eq_true, if_true, if_false, if_pos hbounds]
      rfl
    rw [Exact, htext, Json.readNumber_eq, hsign, readWholeDigits_toDigits]
    simp only [Except.bind, Json.readFraction, Json.readExponent, hnumber]

end Number

end Dialogue
