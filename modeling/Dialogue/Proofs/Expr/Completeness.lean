import Dialogue.Proofs.Expr.Follow

/-!
What the grammar derives, the parser reads.

`Form.Reads` is what the reader of a form has to do with a derivation of it, and `Derives.reads`
finds it done wherever the text after the derivation may follow the form. The repetitions run on
fuel, of which a text needs no more than its length. With soundness this makes the parser the
recogniser of the grammar, within the limits of length and nesting (`parse_eq_ok_iff`).
-/
namespace Dialogue.Expr

open Expr.Parser

/-! ## One reader at a time -/

theorem primaryOf_number {deeper : Reader} {v : Json} {cs rest : List Char}
    (h : number? (skip cs) = some (v, rest)) : primaryOf deeper cs = .done (.literal v) rest := by
  simp only [primaryOf, h]

theorem primaryOf_string {deeper : Reader} {e : Expr} {cs rest : List Char}
    (hnumber : number? (skip cs) = none) (h : Parser.string (skip cs) = .done e rest) :
    primaryOf deeper cs = .done e rest := by
  simp only [primaryOf, hnumber, h]

theorem primaryOf_wordForm {deeper : Reader} {name : String} {e : Expr}
    {cs front rest : List Char} (hspaced : Spaced cs front) (hname : Name name front rest)
    (hmeaning : (∃ v, (name, v) ∈ literalWords ∧ e = .literal v) ∨
      (name ∉ reserved ∧ e = .ident name)) : primaryOf deeper cs = .done e rest := by
  obtain ⟨hskip, c, after, rfl, hc⟩ := hname.skip_eq hspaced
  have hnumber : number? (c :: after) = none := by
    refine number?_eq_none (stops_cons.mpr ?_)
    rw [Bool.eq_false_iff]
    intro hdigit
    rw [isIdentStart_of_isDigit hdigit] at hc
    exact absurd hc (by simp)
  have hstring : Parser.string (c :: after) = .wanted (c :: after) :=
    string_eq_wanted (ne_of_class hc (by decide)) (ne_of_class hc (by decide))
  have hword : wordForm? (c :: after) = some (e, rest) :=
    wordForm?_eq_some.mpr ⟨name, hname, hmeaning⟩
  simp only [primaryOf, hskip, hnumber, hstring, hword]

theorem primaryOf_parentheses {deeper : Reader} {e : Expr} {cs inside close rest : List Char}
    (hopen : (Token.symbol ['(']).Stands cs inside) (hinside : deeper inside = .done e close)
    (hclose : (Token.symbol [')']).Stands close rest) : primaryOf deeper cs = .done e rest := by
  have hskip := hopen.skip_eq rfl (by decide)
  have hnumber : number? ('(' :: inside) = none := number?_eq_none (stops_cons.mpr (by decide))
  have hstring : Parser.string ('(' :: inside) = .wanted ('(' :: inside) :=
    string_eq_wanted (by decide) (by decide)
  have hword : wordForm? ('(' :: inside) = none := by
    have hstart : isIdentStart '(' = false := by decide
    have hname : identText? ('(' :: inside) = none := by simp [identText?, hstart]
    simp [wordForm?, hname]
  have hend := hclose.symbol? (by decide)
  rw [List.nil_append] at hskip
  simp only [primaryOf, hskip, hnumber, hstring, hword, parenthesised, symbol?, if_true, hinside,
    hend]

theorem accesses_stop {deeper : Reader} {fuel : Nat} {target : Expr} {cs : List Char}
    (h : Follow 1 cs) : accesses deeper fuel target cs = .done target cs := by
  cases fuel with
  | zero => rfl
  | succ fuel =>
    have hpoint : symbol? ['.'] (skip cs) = none := h.symbol? (by decide)
    have hopen : symbol? ['['] (skip cs) = none := h.symbol? (by decide)
    simp only [accesses, member?, hpoint, hopen]

theorem accesses_member {deeper : Reader} {fuel : Nat} {target : Expr} {name : String}
    {cs gap front rest : List Char} (hpoint : (Token.symbol ['.']).Stands cs gap)
    (hgap : Spaced gap front) (hname : Name name front rest) :
    accesses deeper (fuel + 1) target cs = accesses deeper fuel (.member target name) rest := by
  have hread := hpoint.symbol? (by decide)
  obtain ⟨hskip, -⟩ := hname.skip_eq hgap
  have htext : identText? front = some (name, rest) := identText?_eq_some.mpr hname
  simp only [accesses, member?, hread, hskip, htext]

theorem accesses_index {deeper : Reader} {fuel : Nat} {target position : Expr}
    {cs inside close rest : List Char} (hopen : (Token.symbol ['[']).Stands cs inside)
    (hinside : deeper inside = .done position close)
    (hclose : (Token.symbol [']']).Stands close rest) :
    accesses deeper (fuel + 1) target cs = accesses deeper fuel (.index target position) rest := by
  have hpoint : symbol? ['.'] (skip cs) = none := by
    rw [hopen.skip_eq rfl (by decide)]
    rfl
  have hread := hopen.symbol? (by decide)
  have hend := hclose.symbol? (by decide)
  simp only [accesses, member?, hpoint, hread, hinside, hend]

theorem chain_stop {operand : Reader} {fuel k : Nat} {left : Expr} {cs : List Char}
    (h : Follow (k + 2) cs) : chain operand (operatorAt k) fuel left cs = .done left cs := by
  cases fuel with
  | zero => rfl
  | succ fuel => simp only [chain, operatorAt_none h]

theorem conditionalOf_test {unary deeper : Reader} {e : Expr} {cs rest : List Char}
    (h : atLevel unary 6 cs = .done e rest) (hrest : Follow 8 rest) :
    conditionalOf unary deeper cs = .done e rest := by
  have hmark : symbol? ['?'] (skip rest) = none := hrest.symbol? (by decide)
  simp only [conditionalOf, binaryLevels_eq, h, hmark]

theorem conditionalOf_choice {unary deeper : Reader} {test yes no : Expr}
    {cs mark yesText colon noText rest : List Char} (htest : atLevel unary 6 cs = .done test mark)
    (hmark : (Token.symbol ['?']).Stands mark yesText) (hyes : deeper yesText = .done yes colon)
    (hcolon : (Token.symbol [':']).Stands colon noText) (hno : deeper noText = .done no rest) :
    conditionalOf unary deeper cs = .done (.conditional test yes no) rest := by
  have hfirst := hmark.symbol? (by decide)
  have hsecond := hcolon.symbol? (by decide)
  simp only [conditionalOf, binaryLevels_eq, htest, hfirst, hyes, hsecond, hno]

/-! ## All readers -/

/-- The reader of a form gives this tree and leaves this text. -/
def Form.Reads (n : Nat) : Form → List Char → Expr → List Char → Prop
  | .conditional, cs, e, rest => (level n).conditional cs = .done e rest
  | .binary k, cs, e, rest => atLevel (level n).unary k cs = .done e rest
  | .more k left, cs, e, rest => ∀ fuel, cs.length < fuel →
    chain (atLevel (level n).unary k) (operatorAt k) fuel left cs = .done e rest
  | .unary, cs, e, rest => (level n).unary cs = .done e rest
  | .path, cs, e, rest => postfixOf (inner n).conditional cs = .done e rest
  | .accesses target, cs, e, rest => ∀ fuel, cs.length < fuel →
    Parser.accesses (inner n).conditional fuel target cs = .done e rest
  | .primary, cs, e, rest => primaryOf (inner n).conditional cs = .done e rest

theorem level_unary (n : Nat) :
    (level n).unary = unaryOf (inner n).unary (postfixOf (inner n).conditional) := by
  rw [level_eq]
  rfl

theorem level_conditional (n : Nat) :
    (level n).conditional = conditionalOf (level n).unary (inner n).conditional := by
  rw [level_unary, level_eq]
  rfl

/-- A derivation is what the reader of its form reads, if the text after it may follow the form. -/
theorem Derives.reads {n : Nat} {form : Form} {cs rest : List Char} {e : Expr}
    (h : Derives n form cs e rest) (hrest : form.Admits rest) : form.Reads n cs e rest := by
  induction h with
  | @test n cs rest e _ ih =>
    have hlevel : atLevel (level n).unary 6 cs = .done e rest := ih (hrest.mono (by decide))
    show (level n).conditional cs = .done e rest
    rw [level_conditional]
    exact conditionalOf_test hlevel hrest
  | @choice n cs mark yesText colon noText rest test yes no _ hmark _ hcolon _ htest hyes hno =>
    have hlevel : atLevel (level (n + 1)).unary 6 cs = .done test mark :=
      htest (follow_of_skip (hmark.skip_eq rfl (by decide)) (by decide))
    have hyes : (level n).conditional yesText = .done yes colon :=
      hyes (follow_of_skip (hcolon.skip_eq rfl (by decide)) (by decide))
    show (level (n + 1)).conditional cs = _
    rw [level_conditional]
    exact conditionalOf_choice hlevel hmark hyes hcolon (hno hrest)
  | tightest _ ih => exact ih hrest
  | @joined n k cs mid rest first e _ hmore hfirst hrun =>
    have hoperand : atLevel (level n).unary k cs = .done first mid :=
      hfirst (hmore.follow_more hrest)
    show binaryLevel _ _ cs = _
    simp only [binaryLevel, hoperand]
    exact hrun hrest _ (Nat.lt_succ_self _)
  | noMore => exact fun fuel _ => chain_stop hrest
  | @operator n k op t cs operand mid rest left right e hmem hstands hright hmore ih hrun =>
    intro fuel hfuel
    have hop : operatorAt k cs = some (op, operand) :=
      operatorAt_complete hmem hstands (hright.not_equals trivial)
    have hoperand : atLevel (level n).unary k operand = .done right mid :=
      ih (hmore.follow_more hrest)
    obtain ⟨c, text, htext, -⟩ := operators_head hmem
    have hshort : operand.length < cs.length := hstands.length_lt (by simp [htext])
    have hmid : mid.length ≤ operand.length := hright.length_le
    obtain ⟨fuel, rfl⟩ := Nat.exists_eq_add_of_lt (Nat.lt_of_le_of_lt (Nat.zero_le _) hfuel)
    rw [Nat.zero_add] at hfuel ⊢
    simp only [chain, hop, hoperand]
    exact hrun hrest fuel (by omega)
  | @negated n op t cs operand rest e hmem hstands _ ih =>
    have hoperand : (level n).unary operand = .done e rest := ih hrest
    show (level (n + 1)).unary cs = _
    rw [level_unary]
    simp only [unaryOf, unaryOp?_complete hmem hstands, inner, hoperand]
  | @bare n cs rest e hpath ih =>
    have hread : postfixOf (inner n).conditional cs = .done e rest := ih hrest
    have hnone : unaryOp? cs = none := by
      cases hpath with
      | path hbase _ => exact hbase.unaryOp?_none
    show (level n).unary cs = _
    rw [level_unary]
    simp only [unaryOf, hnone, hread]
  | @path n cs mid rest base e hbase hmore ih hrun =>
    have hprimary : primaryOf (inner n).conditional cs = .done base mid :=
      ih (hmore.unnumbered hrest)
    show postfixOf _ cs = _
    simp only [postfixOf, hprimary]
    exact hrun hrest _ (Nat.lt_succ_self _)
  | noAccess => exact fun fuel _ => accesses_stop hrest
  | @member n name cs gap front mid rest target e hpoint hgap hname _ ih =>
    intro fuel hfuel
    have hshort : gap.length < cs.length := hpoint.length_lt (by simp [Token.text])
    have hfront : front.length ≤ gap.length := hgap.length_le
    have hmid : mid.length < front.length := hname.length_lt
    obtain ⟨fuel, rfl⟩ := Nat.exists_eq_add_of_lt (Nat.lt_of_le_of_lt (Nat.zero_le _) hfuel)
    rw [Nat.zero_add] at hfuel ⊢
    rw [accesses_member hpoint hgap hname]
    exact ih hrest fuel (by omega)
  | @index n cs inside close mid rest target position e hopen hposition hclose _ hinside hrun =>
    intro fuel hfuel
    have hread : (level n).conditional inside = .done position close :=
      hinside (follow_of_skip (hclose.skip_eq rfl (by decide)) (by decide))
    have hshort : inside.length < cs.length := hopen.length_lt (by simp [Token.text])
    have hposition : close.length ≤ inside.length := hposition.length_le
    have hmid : mid.length < close.length := hclose.length_lt (by simp [Token.text])
    obtain ⟨fuel, rfl⟩ := Nat.exists_eq_add_of_lt (Nat.lt_of_le_of_lt (Nat.zero_le _) hfuel)
    rw [Nat.zero_add] at hfuel ⊢
    show accesses (level n).conditional (fuel + 1) target cs = _
    rw [accesses_index hopen hread hclose]
    exact hrun hrest fuel (by omega)
  | number hspaced hnumeral =>
    obtain ⟨d, after, rfl, hd, -⟩ := hnumeral.head
    refine primaryOf_number ?_
    rw [hspaced.skip_cons (isBlank_of_isDigit hd)]
    exact number?_complete hnumeral hrest
  | @string n quote text cs inside rest hquote hspaced hquoted =>
    have hskip : skip cs = quote :: inside := by
      rcases hquote with rfl | rfl <;> exact hspaced.skip_cons (by decide)
    refine primaryOf_string ?_ ?_
    · rw [hskip]
      refine number?_eq_none (stops_cons.mpr ?_)
      rcases hquote with rfl | rfl <;> decide
    · rw [hskip]
      exact string_eq_done.mpr ⟨quote, inside, text, hquote, rfl, hquoted, rfl⟩
  | word hspaced hname hliteral =>
    exact primaryOf_wordForm hspaced hname (.inl ⟨_, hliteral, rfl⟩)
  | ident hspaced hname hfree => exact primaryOf_wordForm hspaced hname (.inr ⟨hfree, rfl⟩)
  | @parentheses n cs inside close rest e hopen _ hclose ih =>
    have hread : (level n).conditional inside = .done e close :=
      ih (follow_of_skip (hclose.skip_eq rfl (by decide)) (by decide))
    exact primaryOf_parentheses hopen hread hclose

/-! ## Whole texts -/

/-- At the end of a text every form may end. -/
theorem follow_of_spaced {r : Nat} {rest : List Char} (h : Spaced rest []) : Follow r rest := by
  intro c after hskip
  rw [h.skip_eq] at hskip
  exact absurd hskip (by simp [skip])

theorem Denotes.reads {n : Nat} {cs : List Char} {e : Expr} (h : Denotes n cs e) :
    ∃ trailing, (level n).conditional cs = .done e trailing ∧ skip trailing = [] := by
  obtain ⟨trailing, hderives, hend⟩ := h
  exact ⟨trailing, hderives.reads (follow_of_spaced hend), hend.skip_eq⟩

/-- The grammar is unambiguous: one text has one tree. -/
theorem Denotes.unique {n : Nat} {cs : List Char} {e e' : Expr} (h : Denotes n cs e)
    (h' : Denotes n cs e') : e = e' := by
  obtain ⟨trailing, hread, -⟩ := h.reads
  obtain ⟨trailing', hread', -⟩ := h'.reads
  rw [hread] at hread'
  exact (Outcome.done.inj hread').1

theorem readChars_complete {cs : List Char} {e : Expr} (h : Denotes maxNesting cs e) :
    readChars cs = .ok e := by
  obtain ⟨trailing, hread, hend⟩ := h.reads
  simp only [readChars, hread, hend]

/-- The parser reads what the grammar derives, with the derivation's tree: a text is an expression
exactly if it is not blank, has at most 1024 bytes, and is one of the grammar that nests at most 64
deep. -/
theorem parse_eq_ok_iff (source : String) (e : Expr) :
    Expr.parse source = .ok e ↔ Text.isBlankText source = false ∧ source.utf8ByteSize ≤ 1024 ∧
      Denotes 64 source.toList e := by
  have hread : readChars source.toList = .ok e ↔ Denotes 64 source.toList e :=
    ⟨readChars_sound, readChars_complete⟩
  rw [← hread]
  by_cases hblank : Text.isBlankText source = true
  · simp [Expr.parse, hblank]
  · by_cases hlong : maxSourceBytes < source.utf8ByteSize
    · have hlong' : ¬ source.utf8ByteSize ≤ 1024 := Nat.not_le_of_lt hlong
      simp [Expr.parse, hblank, hlong, hlong']
    · have hshort : source.utf8ByteSize ≤ 1024 := Nat.le_of_not_lt hlong
      simp [Expr.parse, hblank, hlong, hshort]

/-- A word operator may follow a number at once, but not a name, which takes in its characters. -/
example : (Expr.parse "1or 2").toOption.map Expr.form = some "(or 1 2)" ∧
    (Expr.parse "aor b").toOption.map Expr.form = none := by decide +kernel

end Dialogue.Expr
