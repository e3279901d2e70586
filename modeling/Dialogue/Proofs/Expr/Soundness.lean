import Dialogue.Proofs.Expr.Tokens

/-!
What the parser reads, the grammar derives.

Each reader is sound at a nesting bound if the reader of the nested forms is sound below that bound.
The readers are composed level by level (`atLevel`) and depth by depth (`inner`), so soundness goes
up the levels of operators by recursion, and down the depths by induction on the budget.
-/
namespace Dialogue.Expr

open Expr.Parser

/-! ## The readers by level and by depth -/

/-- The reader of the operators of a level. -/
def operatorAt (k : Nat) : OpReader := nextOperator? (operators k)

/-- The reader of the form `binary k`, from that of the unary forms. -/
def atLevel (unary : Reader) : Nat → Reader
  | 0 => unary
  | k + 1 => binaryLevel (atLevel unary k) (operatorAt k)

theorem binaryLevels_eq (unary : Reader) : binaryLevels unary = atLevel unary 6 := rfl

/-- The readers of what is nested in the forms that may nest `n` deep. -/
def inner : Nat → Level
  | 0 => .bottom
  | n + 1 => level n

theorem level_eq (n : Nat) : level n = (inner n).above := by
  cases n <;> rfl

/-! ## One reader at a time -/

/-- What the reader reads has the form and nests at most `n` deep. -/
def Sound (n : Nat) (form : Form) (r : Reader) : Prop :=
  ∀ ⦃cs e rest⦄, r cs = .done e rest → Derives n form cs e rest

/-- What the reader reads has the form and nests less than `n` deep. -/
def SoundBelow (n : Nat) (form : Form) (r : Reader) : Prop :=
  ∀ ⦃cs e rest⦄, r cs = .done e rest → ∃ m, n = m + 1 ∧ Derives m form cs e rest

variable {n : Nat}

theorem parenthesised_sound {deeper : Reader} (hdeeper : SoundBelow n .conditional deeper)
    {cs : List Char} {e : Expr} {rest : List Char}
    (h : parenthesised deeper (skip cs) = .done e rest) : Derives n .primary cs e rest := by
  unfold parenthesised at h
  split at h
  · simp at h
  · next inside hopen =>
    split at h
    · next inner close hinner =>
      split at h
      · next after hclose =>
        simp only [Outcome.done.injEq] at h
        obtain ⟨rfl, rfl⟩ := h
        obtain ⟨m, rfl, hinner⟩ := hdeeper hinner
        exact .parentheses (Token.stands_of_symbol? hopen) hinner (Token.stands_of_symbol? hclose)
      · simp at h
    · next hfail => exact absurd h (hfail _ _)

theorem primaryOf_sound {deeper : Reader} (hdeeper : SoundBelow n .conditional deeper) :
    Sound n .primary (primaryOf deeper) := by
  intro cs e rest h
  have hspaced := spaced_skip cs
  simp only [primaryOf] at h
  split at h
  · next v after hnumber =>
    simp only [Outcome.done.injEq] at h
    obtain ⟨rfl, rfl⟩ := h
    exact .number hspaced (number?_sound hnumber)
  · next hnumber =>
    split at h
    · next hstring =>
      split at h
      · next found after hword =>
        simp only [Outcome.done.injEq] at h
        obtain ⟨rfl, rfl⟩ := h
        obtain ⟨name, hname, hmeaning⟩ := wordForm?_eq_some.mp hword
        rcases hmeaning with ⟨v, hliteral, rfl⟩ | ⟨hfree, rfl⟩
        · exact .word hspaced hname hliteral
        · exact .ident hspaced hname hfree
      · exact parenthesised_sound hdeeper h
    · next hstring =>
      obtain ⟨quote, inside, text, hquote, hskip, hquoted, rfl⟩ := string_eq_done.mp h
      exact .string hquote (hskip ▸ hspaced) hquoted

theorem accesses_sound {deeper : Reader} (hdeeper : SoundBelow n .conditional deeper)
    {e : Expr} {rest : List Char} : ∀ {fuel : Nat} {target : Expr} {cs : List Char},
    accesses deeper fuel target cs = .done e rest → Derives n (.accesses target) cs e rest
  | 0, target, cs, h => by
    simp only [accesses, Outcome.done.injEq] at h
    obtain ⟨rfl, rfl⟩ := h
    exact .noAccess
  | fuel + 1, target, cs, h => by
    have stop : Outcome.done target cs = .done e rest → Derives n (.accesses target) cs e rest := by
      intro hstop
      simp only [Outcome.done.injEq] at hstop
      obtain ⟨rfl, rfl⟩ := hstop
      exact .noAccess
    unfold accesses at h
    split at h
    · next name after hmember =>
      unfold member? at hmember
      split at hmember
      · next gap hpoint =>
        have hname : Name name (skip gap) after := identText?_eq_some.mp hmember
        exact .member (Token.stands_of_symbol? hpoint) (spaced_skip gap) hname
          (accesses_sound hdeeper h)
      · simp at hmember
    · split at h
      · exact stop h
      · next inside hopen =>
        split at h
        · simp at h
        · exact stop h
        · next position close hposition =>
          split at h
          · exact stop h
          · next after hclose =>
            have hmore := accesses_sound hdeeper h
            obtain ⟨m, rfl, hposition⟩ := hdeeper hposition
            exact .index (Token.stands_of_symbol? hopen) hposition
              (Token.stands_of_symbol? hclose) hmore

theorem postfixOf_sound {deeper : Reader} (hdeeper : SoundBelow n .conditional deeper) :
    Sound n .path (postfixOf deeper) := by
  intro cs e rest h
  unfold postfixOf at h
  split at h
  · next base after hbase =>
    exact .path (primaryOf_sound hdeeper hbase) (accesses_sound hdeeper h)
  · next hfail => exact absurd h (hfail _ _)

theorem unaryOf_sound {deeper postfixForm : Reader} (hdeeper : SoundBelow n .unary deeper)
    (hpath : Sound n .path postfixForm) : Sound n .unary (unaryOf deeper postfixForm) := by
  intro cs e rest h
  unfold unaryOf at h
  split at h
  · exact .bare (hpath h)
  · next op after hop =>
    split at h
    · next operand left hoperand =>
      simp only [Outcome.done.injEq] at h
      obtain ⟨rfl, rfl⟩ := h
      rw [unaryOp?_eq] at hop
      obtain ⟨t, hmem, hstands⟩ := nextOperator?_sound hop
      obtain ⟨m, rfl, hoperand⟩ := hdeeper hoperand
      exact .negated hmem hstands hoperand
    · exact .bare (hpath h)
    · simp at h

theorem chain_sound {k : Nat} {operand : Reader} (hoperand : Sound n (.binary k) operand)
    {e : Expr} {rest : List Char} : ∀ {fuel : Nat} {left : Expr} {cs : List Char},
    chain operand (operatorAt k) fuel left cs = .done e rest → Derives n (.more k left) cs e rest
  | 0, left, cs, h => by
    simp only [chain, Outcome.done.injEq] at h
    obtain ⟨rfl, rfl⟩ := h
    exact .noMore
  | fuel + 1, left, cs, h => by
    have stop : Outcome.done left cs = .done e rest → Derives n (.more k left) cs e rest := by
      intro hstop
      simp only [Outcome.done.injEq] at hstop
      obtain ⟨rfl, rfl⟩ := hstop
      exact .noMore
    unfold chain at h
    split at h
    · exact stop h
    · next op after hop =>
      split at h
      · next right mid hright =>
        obtain ⟨t, hmem, hstands⟩ := nextOperator?_sound hop
        exact .operator hmem hstands (hoperand hright) (chain_sound hoperand h)
      · exact stop h
      · simp at h

/-- Soundness goes up the levels of operators. -/
theorem atLevel_sound {unary : Reader} (hunary : Sound n .unary unary) :
    ∀ k, Sound n (.binary k) (atLevel unary k)
  | 0, _, _, _, h => .tightest (hunary h)
  | k + 1, cs, e, rest, h => by
    unfold atLevel binaryLevel at h
    split at h
    · next first mid hfirst =>
      exact .joined (atLevel_sound hunary k hfirst) (chain_sound (atLevel_sound hunary k) h)
    · next hfail => exact absurd h (hfail _ _)

theorem conditionalOf_sound {unary deeper : Reader} (hunary : Sound n .unary unary)
    (hdeeper : SoundBelow n .conditional deeper) :
    Sound n .conditional (conditionalOf unary deeper) := by
  intro cs e rest h
  unfold conditionalOf at h
  rw [binaryLevels_eq] at h
  split at h
  · next test mark htest =>
    have htest : Derives n (.binary 6) cs test mark := atLevel_sound hunary 6 htest
    have stop : Outcome.done test mark = .done e rest → Derives n .conditional cs e rest := by
      intro hstop
      simp only [Outcome.done.injEq] at hstop
      obtain ⟨rfl, rfl⟩ := hstop
      exact .test htest
    split at h
    · exact stop h
    · next yesText hmark =>
      split at h
      · exact stop h
      · simp at h
      · next yes colon hyes =>
        split at h
        · exact stop h
        · next noText hcolon =>
          split at h
          · exact stop h
          · simp at h
          · next no after hno =>
            simp only [Outcome.done.injEq] at h
            obtain ⟨rfl, rfl⟩ := h
            obtain ⟨m, rfl, hyes⟩ := hdeeper hyes
            obtain ⟨_, hm, hno⟩ := hdeeper hno
            obtain rfl := Nat.succ.inj hm
            exact .choice htest (Token.stands_of_symbol? hmark) hyes
              (Token.stands_of_symbol? hcolon) hno
  · next hfail => exact absurd h (hfail _ _)

/-! ## All readers -/

/-- Both readers of a level are sound if those of the nested forms are. -/
theorem above_sound {deeper : Level} (hunary : SoundBelow n .unary deeper.unary)
    (hconditional : SoundBelow n .conditional deeper.conditional) :
    Sound n .unary deeper.above.unary ∧ Sound n .conditional deeper.above.conditional := by
  have hu : Sound n .unary deeper.above.unary :=
    unaryOf_sound hunary (postfixOf_sound hconditional)
  exact ⟨hu, conditionalOf_sound hu hconditional⟩

theorem level_sound : ∀ n,
    Sound n .unary (level n).unary ∧ Sound n .conditional (level n).conditional
  | 0 => above_sound (fun _ _ _ h => nomatch h) (fun _ _ _ h => nomatch h)
  | n + 1 => by
    obtain ⟨hunary, hconditional⟩ := level_sound n
    exact above_sound (fun _ _ _ h => ⟨n, rfl, hunary h⟩) (fun _ _ _ h => ⟨n, rfl, hconditional h⟩)

theorem readChars_sound {cs : List Char} {e : Expr} (h : readChars cs = .ok e) :
    Denotes maxNesting cs e := by
  unfold readChars at h
  split at h
  · next found trailing hread =>
    split at h
    · next hblank =>
      obtain rfl := Except.ok.inj h
      have hend : Spaced trailing [] := hblank ▸ spaced_skip trailing
      exact ⟨trailing, (level_sound maxNesting).2 hread, hend⟩
    · simp at h
  · simp at h
  · simp at h
  · simp at h

end Dialogue.Expr
