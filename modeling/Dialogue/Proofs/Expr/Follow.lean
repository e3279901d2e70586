import Dialogue.Proofs.Expr.Soundness

/-!
What follows a form.

The parser never goes back over a form that it has read, so it has to be shown that it stops where a
derivation does. `Follow r rest` says that what comes next joins more loosely than a form of rank
`r`, so that no reader of such a form takes it up. Each part of a derivation has such a text after
it: an operand of a level is followed by an operator of that level or by what follows the whole form
(`Derives.follow_more`), and a primary form by an access or by what follows the whole path
(`Derives.unnumbered`).
-/
namespace Dialogue.Expr

open Expr.Parser

/-! ## What may follow -/

/-- How loosely a token that begins with the character joins what stands before it. -/
def looseness (c : Char) : Nat :=
  if c.isDigit then 0
  else
    match c with
    | '.' | '[' => 1
    | '*' | '/' | '%' => 2
    | '+' | '-' => 3
    | '<' | '>' => 4
    | '=' | '!' => 5
    | '&' | 'a' => 6
    | '|' | 'o' => 7
    | '?' => 8
    | _ => 9

/-- What comes next joins more loosely than `r`. -/
def Follow (r : Nat) (rest : List Char) : Prop :=
  ∀ c after, skip rest = c :: after → r < looseness c

theorem Follow.mono {r r' : Nat} {rest : List Char} (h : Follow r rest) (hr : r' ≤ r) :
    Follow r' rest :=
  fun c after hskip => Nat.lt_of_le_of_lt hr (h c after hskip)

theorem follow_of_skip {r : Nat} {c : Char} {rest after : List Char} (h : skip rest = c :: after)
    (hc : r < looseness c) : Follow r rest := by
  intro d after' hd
  rw [h] at hd
  rwa [← (List.cons.inj hd).1]

/-- What follows does not begin with a symbol that joins as tightly. -/
theorem Follow.symbol? {r : Nat} {c : Char} {text rest : List Char} (h : Follow r rest)
    (hc : looseness c ≤ r) : symbol? (c :: text) (skip rest) = none := by
  rw [Option.eq_none_iff_forall_not_mem]
  intro left hleft
  have hskip : skip rest = c :: (text ++ left) := symbol?_eq_some.mp hleft
  have hlt := h c _ hskip
  omega

/-- The rank of a form: it is followed by what joins more loosely than that. -/
def Form.rank : Form → Nat
  | .primary | .unary | .path | .accesses _ => 1
  | .binary k => k + 1
  | .more k _ => k + 2
  | .conditional => 8

/-- The text may follow the form: after a number, at once, neither a digit nor a fraction. -/
def Form.Admits : Form → List Char → Prop
  | .primary, rest => Unnumbered rest
  | form, rest => Follow form.rank rest

/-! ## Operators -/

theorem operators_head {k : Nat} {op : BinaryOp} {t : Token} (h : (op, t) ∈ operators k) :
    ∃ c text, t.text = c :: text ∧ isBlank c = false ∧ looseness c = k + 2 := by
  rcases k with _ | _ | _ | _ | _ | _ | k <;>
    simp only [operators, List.mem_cons, Prod.mk.injEq, List.not_mem_nil, or_false] at h
  · rcases h with ⟨-, rfl⟩ | ⟨-, rfl⟩ | ⟨-, rfl⟩ <;> exact ⟨_, _, rfl, by decide, by decide⟩
  · rcases h with ⟨-, rfl⟩ | ⟨-, rfl⟩ <;> exact ⟨_, _, rfl, by decide, by decide⟩
  · rcases h with ⟨-, rfl⟩ | ⟨-, rfl⟩ | ⟨-, rfl⟩ | ⟨-, rfl⟩ <;>
      exact ⟨_, _, rfl, by decide, by decide⟩
  · rcases h with ⟨-, rfl⟩ | ⟨-, rfl⟩ | ⟨-, rfl⟩ | ⟨-, rfl⟩ <;>
      exact ⟨_, _, rfl, by decide, by decide⟩
  · rcases h with ⟨-, rfl⟩ | ⟨-, rfl⟩ <;> exact ⟨_, _, rfl, by decide, by decide⟩
  · rcases h with ⟨-, rfl⟩ | ⟨-, rfl⟩ <;> exact ⟨_, _, rfl, by decide, by decide⟩

/-- An operator of a level is found unless its operand begins so that a longer one stands there. -/
theorem operatorAt_complete {k : Nat} {op : BinaryOp} {t : Token} {cs operand : List Char}
    (hmem : (op, t) ∈ operators k) (h : t.Stands cs operand)
    (heq : ∀ after, operand ≠ '=' :: after) : operatorAt k cs = some (op, operand) := by
  obtain ⟨c, text, htext, hc, -⟩ := operators_head hmem
  have hskip := h.skip_eq htext hc
  have hread : t.read? (skip cs) = some operand :=
    Token.read?_eq_some.mpr ⟨by rw [hskip, htext]; rfl, h.ends⟩
  -- of two operators that begin alike the longer one is tried first, and goes on with this sign
  have hnone : symbol? ['='] operand = none := symbol?_eq_none heq
  rcases k with _ | _ | _ | _ | _ | _ | k <;>
    simp only [operators, List.mem_cons, Prod.mk.injEq, List.not_mem_nil, or_false] at hmem
  · rcases hmem with ⟨rfl, rfl⟩ | ⟨rfl, rfl⟩ | ⟨rfl, rfl⟩ <;> cases htext <;>
      simp [operatorAt, nextOperator?, operators, hskip, Token.read?, symbol?]
  · rcases hmem with ⟨rfl, rfl⟩ | ⟨rfl, rfl⟩ <;> cases htext <;>
      simp [operatorAt, nextOperator?, operators, hskip, Token.read?, symbol?]
  · rcases hmem with ⟨rfl, rfl⟩ | ⟨rfl, rfl⟩ | ⟨rfl, rfl⟩ | ⟨rfl, rfl⟩ <;> cases htext <;>
      simp [operatorAt, nextOperator?, operators, hskip, Token.read?, symbol?, hnone]
  · rcases hmem with ⟨rfl, rfl⟩ | ⟨rfl, rfl⟩ | ⟨rfl, rfl⟩ | ⟨rfl, rfl⟩ <;> cases htext <;>
      simp [operatorAt, nextOperator?, operators, hskip, Token.read?, symbol?, hnone]
  · rcases hmem with ⟨rfl, rfl⟩ | ⟨rfl, rfl⟩ <;> cases htext <;>
      simp_all [operatorAt, nextOperator?, operators, Token.read?, symbol?]
  · rcases hmem with ⟨rfl, rfl⟩ | ⟨rfl, rfl⟩ <;> cases htext <;>
      simp_all [operatorAt, nextOperator?, operators, Token.read?, symbol?]

/-- No operator of a level stands before what joins more loosely. -/
theorem operatorAt_none {k : Nat} {cs : List Char} (h : Follow (k + 2) cs) :
    operatorAt k cs = none := by
  rw [Option.eq_none_iff_forall_not_mem]
  rintro ⟨op, operand⟩ hfound
  obtain ⟨t, hmem, hstands⟩ := nextOperator?_sound hfound
  obtain ⟨c, text, htext, hc, hrank⟩ := operators_head hmem
  have hlt : k + 2 < looseness c := h c _ (hstands.skip_eq htext hc)
  omega

theorem unaryOperators_head {op : UnaryOp} {t : Token} (h : (op, t) ∈ unaryOperators) :
    ∃ c text, t.text = c :: text ∧ isBlank c = false ∧ c ≠ '=' := by
  simp only [unaryOperators, List.mem_cons, Prod.mk.injEq, List.not_mem_nil, or_false] at h
  rcases h with ⟨-, rfl⟩ | ⟨-, rfl⟩ | ⟨-, rfl⟩ <;> exact ⟨_, _, rfl, by decide, by decide⟩

theorem unaryOp?_complete {op : UnaryOp} {t : Token} {cs operand : List Char}
    (hmem : (op, t) ∈ unaryOperators) (h : t.Stands cs operand) :
    unaryOp? cs = some (op, operand) := by
  obtain ⟨c, text, htext, hc, -⟩ := unaryOperators_head hmem
  have hskip := h.skip_eq htext hc
  have hread : t.read? (skip cs) = some operand :=
    Token.read?_eq_some.mpr ⟨by rw [hskip, htext]; rfl, h.ends⟩
  simp only [unaryOperators, List.mem_cons, Prod.mk.injEq, List.not_mem_nil, or_false] at hmem
  rw [unaryOp?_eq]
  rcases hmem with ⟨rfl, rfl⟩ | ⟨rfl, rfl⟩ | ⟨rfl, rfl⟩ <;> cases htext <;>
    simp_all [nextOperator?, unaryOperators, Token.read?, symbol?, word?]

/-! ## How a form begins -/

/-- A name is found behind the blanks. -/
theorem Name.skip_eq {name : String} {cs front rest : List Char} (h : Name name front rest)
    (hspaced : Spaced cs front) :
    skip cs = front ∧ ∃ c after, front = c :: after ∧ isIdentStart c = true := by
  cases h with
  | @mk first more _ hfirst =>
    exact ⟨hspaced.skip_cons (isBlank_of_isIdentStart hfirst), first, more ++ rest, rfl, hfirst⟩

/-- The forms that are operands or hold them; the repetitions may be empty. -/
def Form.Opens : Form → Prop
  | .more _ _ | .accesses _ => False
  | _ => True

/-- No operand begins with an equals sign. -/
theorem Derives.head {n : Nat} {form : Form} {cs rest : List Char} {e : Expr}
    (h : Derives n form cs e rest) (hform : form.Opens) :
    ∃ c after, skip cs = c :: after ∧ c ≠ '=' := by
  induction h with
  | test _ ih => exact ih trivial
  | choice _ _ _ _ _ ih => exact ih trivial
  | tightest _ ih => exact ih trivial
  | joined _ _ ih => exact ih trivial
  | noMore => exact hform.elim
  | operator => exact hform.elim
  | negated hmem hstands =>
    obtain ⟨c, text, htext, hc, hne⟩ := unaryOperators_head hmem
    exact ⟨c, _, hstands.skip_eq htext hc, hne⟩
  | bare _ ih => exact ih trivial
  | path _ _ ih => exact ih trivial
  | noAccess => exact hform.elim
  | member => exact hform.elim
  | index => exact hform.elim
  | number hspaced hnumeral =>
    obtain ⟨d, after, rfl, hd, -⟩ := hnumeral.head
    exact ⟨d, after, hspaced.skip_cons (isBlank_of_isDigit hd), ne_of_class hd (by decide)⟩
  | string hquote hspaced =>
    rcases hquote with rfl | rfl <;> exact ⟨_, _, hspaced.skip_cons (by decide), by decide⟩
  | word hspaced hname =>
    obtain ⟨hskip, c, after, rfl, hc⟩ := hname.skip_eq hspaced
    exact ⟨c, after, hskip, ne_of_class hc (by decide)⟩
  | ident hspaced hname =>
    obtain ⟨hskip, c, after, rfl, hc⟩ := hname.skip_eq hspaced
    exact ⟨c, after, hskip, ne_of_class hc (by decide)⟩
  | parentheses hopen => exact ⟨_, _, hopen.skip_eq rfl (by decide), by decide⟩

theorem Derives.not_equals {n : Nat} {form : Form} {cs rest : List Char} {e : Expr}
    (h : Derives n form cs e rest) (hform : form.Opens) : ∀ after, cs ≠ '=' :: after := by
  rintro after rfl
  obtain ⟨c, left, hskip, hc⟩ := h.head hform
  have hkept : skip ('=' :: after) = '=' :: after := (Spaced.refl _).skip_cons (by decide)
  rw [hkept] at hskip
  exact hc (List.cons.inj hskip).1.symm

theorem Name.start {name : String} {c : Char} {cs rest : List Char} (h : Name name (c :: cs) rest) :
    isIdentStart c = true := by
  generalize hfront : c :: cs = front at h
  cases h with
  | mk hfirst => exact (List.cons.inj hfront).1 ▸ hfirst

/-- A primary form begins with no operator: neither with a sign nor with the word. -/
theorem Derives.primary_head {n : Nat} {cs rest : List Char} {e : Expr}
    (h : Derives n .primary cs e rest) : ∃ c after, skip cs = c :: after ∧ c ≠ '!' ∧ c ≠ '-' ∧
      ∀ left, ¬ Name "not" (skip cs) left := by
  -- a character that begins no name settles the last part
  have noName : ∀ {c : Char} {after : List Char}, isIdentStart c = false → skip cs = c :: after →
      ∀ left, ¬ Name "not" (skip cs) left := by
    intro c after hc hskip left hname
    rw [hskip] at hname
    rw [hname.start] at hc
    exact absurd hc (by simp)
  -- a name other than the word settles all
  have otherName : ∀ {name : String} {front : List Char}, Spaced cs front → Name name front rest →
      name ≠ "not" → ∃ c after, skip cs = c :: after ∧ c ≠ '!' ∧ c ≠ '-' ∧
        ∀ left, ¬ Name "not" (skip cs) left := by
    intro name front hspaced hname hne
    obtain ⟨hskip, c, after, rfl, hc⟩ := hname.skip_eq hspaced
    refine ⟨c, after, hskip, ne_of_class hc (by decide), ne_of_class hc (by decide), ?_⟩
    intro left hnot
    rw [hskip] at hnot
    exact hne (hname.unique hnot)
  cases h with
  | number hspaced hnumeral =>
    obtain ⟨d, after, rfl, hd, -⟩ := hnumeral.head
    have hskip := hspaced.skip_cons (isBlank_of_isDigit hd)
    exact ⟨d, after, hskip, ne_of_class hd (by decide), ne_of_class hd (by decide),
      noName (isIdentStart_of_isDigit hd) hskip⟩
  | string hquote hspaced =>
    rcases hquote with rfl | rfl
    · have hskip := hspaced.skip_cons (by decide)
      exact ⟨_, _, hskip, by decide, by decide, noName (by decide) hskip⟩
    · have hskip := hspaced.skip_cons (by decide)
      exact ⟨_, _, hskip, by decide, by decide, noName (by decide) hskip⟩
  | word hspaced hname hliteral =>
    refine otherName hspaced hname ?_
    rintro rfl
    simp [literalWords] at hliteral
  | ident hspaced hname hfree =>
    refine otherName hspaced hname ?_
    rintro rfl
    exact hfree (by simp [reserved])
  | parentheses hopen =>
    have hskip := hopen.skip_eq rfl (by decide)
    exact ⟨_, _, hskip, by decide, by decide, noName (by decide) hskip⟩

theorem Derives.unaryOp?_none {n : Nat} {cs rest : List Char} {e : Expr}
    (h : Derives n .primary cs e rest) : unaryOp? cs = none := by
  rw [Option.eq_none_iff_forall_not_mem, unaryOp?_eq]
  rintro ⟨op, operand⟩ hfound
  obtain ⟨t, hmem, hstands⟩ := nextOperator?_sound hfound
  obtain ⟨c, after, hskip, hbang, hminus, hnot⟩ := h.primary_head
  simp only [unaryOperators, List.mem_cons, Prod.mk.injEq, List.not_mem_nil, or_false] at hmem
  rcases hmem with ⟨-, rfl⟩ | ⟨-, rfl⟩ | ⟨-, rfl⟩
  · rw [hstands.skip_eq rfl (by decide)] at hskip
    exact hbang (List.cons.inj hskip).1.symm
  · have hname : Name "not" (skip cs) operand := by
      rw [hstands.skip_eq rfl (by decide)]
      have hmore : ∀ c ∈ ['o', 't'], isIdentChar c = true :=
        List.all_eq_true.mp (by decide)
      have hstart : isIdentStart 'n' = true := by decide
      exact Name.mk hstart hmore hstands.ends
    exact hnot operand hname
  · rw [hstands.skip_eq rfl (by decide)] at hskip
    exact hminus (List.cons.inj hskip).1.symm

/-! ## Lengths -/

/-- What is left over is no longer than the text. -/
theorem Derives.length_le {n : Nat} {form : Form} {cs rest : List Char} {e : Expr}
    (h : Derives n form cs e rest) : rest.length ≤ cs.length := by
  induction h with
  | test _ ih => exact ih
  | choice _ hmark _ hcolon _ htest hyes hno =>
    have hfirst := hmark.length_le
    have hsecond := hcolon.length_le
    omega
  | tightest _ ih => exact ih
  | joined _ _ hfirst hmore => exact Nat.le_trans hmore hfirst
  | noMore => exact Nat.le_refl _
  | operator _ hstands _ _ hright hmore =>
    have htoken := hstands.length_le
    omega
  | negated _ hstands _ ih => exact Nat.le_trans ih hstands.length_le
  | bare _ ih => exact ih
  | path _ _ hbase hmore => exact Nat.le_trans hmore hbase
  | noAccess => exact Nat.le_refl _
  | member hpoint hgap hname _ ih =>
    have htoken := hpoint.length_le
    have hfront := hgap.length_le
    have hrest := hname.length_lt
    omega
  | index hopen _ hclose _ hposition hmore =>
    have hfirst := hopen.length_le
    have hsecond := hclose.length_le
    omega
  | number hspaced hnumeral =>
    obtain ⟨d, after, rfl, -, hlength⟩ := hnumeral.head
    exact Nat.le_trans (Nat.le_succ_of_le hlength) hspaced.length_le
  | string _ hspaced hquoted =>
    exact Nat.le_trans (Nat.le_of_lt (Nat.lt_succ_of_lt hquoted.length_lt)) hspaced.length_le
  | word hspaced hname => exact Nat.le_trans (Nat.le_of_lt hname.length_lt) hspaced.length_le
  | ident hspaced hname => exact Nat.le_trans (Nat.le_of_lt hname.length_lt) hspaced.length_le
  | parentheses hopen _ hclose ih =>
    have hfirst := hopen.length_le
    have hsecond := hclose.length_le
    omega

/-! ## What follows a part -/

/-- An operand is followed by an operator of its level or by what follows the level. -/
theorem Derives.follow_more {n k : Nat} {left e : Expr} {cs rest : List Char}
    (h : Derives n (.more k left) cs e rest) (hrest : Follow (k + 2) rest) : Follow (k + 1) cs := by
  cases h with
  | noMore => exact hrest.mono (by omega)
  | operator hmem hstands =>
    obtain ⟨c, text, htext, hc, hrank⟩ := operators_head hmem
    exact follow_of_skip (hstands.skip_eq htext hc) (by omega)

/-- Behind blanks a class of characters is met only where it is met at once. -/
theorem Spaced.stops {p : Char → Bool} {cs front : List Char} (h : Spaced cs front)
    (hblank : ∀ b, isBlank b = true → p b = false) (hfront : Stops p front) : Stops p cs := by
  obtain ⟨blanks, hblanks, rfl⟩ := h
  cases blanks with
  | nil => exact hfront
  | cons b blanks => exact stops_cons.mpr (hblank b (hblanks b List.mem_cons_self))

theorem isDigit_of_isBlank (b : Char) (h : isBlank b = true) : b.isDigit = false := by
  rw [Bool.eq_false_iff]
  intro hdigit
  rw [isBlank_of_isDigit hdigit] at h
  exact absurd h (by simp)

/-- A text whose first token begins neither with a digit nor with a point goes on with no number. -/
theorem unnumbered_of_skip {cs : List Char}
    (h : ∀ c after, skip cs = c :: after → c.isDigit = false ∧ c ≠ '.') : Unnumbered cs := by
  constructor
  · refine (spaced_skip cs).stops isDigit_of_isBlank ?_
    intro c after hskip
    exact (h c after hskip).1
  · rintro after rfl
    have hkept : skip ('.' :: after) = '.' :: after := (Spaced.refl _).skip_cons (by decide)
    exact absurd rfl (h '.' after hkept).2

/-- What a primary form is followed by goes on with no number. -/
theorem Derives.unnumbered {n : Nat} {target e : Expr} {cs rest : List Char}
    (h : Derives n (.accesses target) cs e rest) (hrest : Follow 1 rest) : Unnumbered cs := by
  cases h with
  | noAccess =>
    refine unnumbered_of_skip fun c after hskip => ?_
    have hlt := hrest c after hskip
    constructor
    · rw [Bool.eq_false_iff]
      intro hdigit
      simp [looseness, hdigit] at hlt
    · rintro rfl
      exact absurd hlt (by decide)
  | member hpoint hgap hname =>
    have hskip := hpoint.skip_eq rfl (by decide)
    constructor
    · refine (spaced_skip cs).stops isDigit_of_isBlank ?_
      rw [hskip]
      exact stops_cons.mpr (by decide)
    · -- behind the point stands a name, perhaps after blanks
      rintro after rfl
      have hkept : skip ('.' :: after) = '.' :: after := (Spaced.refl _).skip_cons (by decide)
      rw [hkept] at hskip
      obtain rfl := (List.cons.inj hskip).2
      refine hgap.stops isDigit_of_isBlank ?_
      obtain ⟨-, c, left, rfl, hc⟩ := hname.skip_eq hgap
      refine stops_cons.mpr ?_
      rw [Bool.eq_false_iff]
      intro hdigit
      rw [isIdentStart_of_isDigit hdigit] at hc
      exact absurd hc (by simp)
  | index hopen =>
    have hskip := hopen.skip_eq rfl (by decide)
    refine unnumbered_of_skip fun c after hc => ?_
    rw [hskip] at hc
    obtain rfl := (List.cons.inj hc).1
    exact ⟨by decide, by decide⟩

end Dialogue.Expr
