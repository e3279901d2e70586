import Dialogue.Proofs.Expr.Tokens
import Dialogue.Template

/-!
Pieces and what they are written as.

A text is cut from the left: a character at which no token begins is a piece of its own
(`pieces_char`), and a token is one with all its characters (`pieces_token`). Filling writes one
piece after another (`fill_toList`), so that a text without tokens stays as it is
(`written_plain`).

`expressionToken?_eq_some` and `pathToken?_eq_some` say what the tokens look like.
-/
namespace Dialogue.Template

open Dialogue.Expr

/-- What a piece is written as: a token that has no value stands for itself. -/
def Piece.written (value? : Token → Option String) : Piece → List Char
  | .char c => [c]
  | .token whole t => ((value? t).map String.toList).getD whole

/-- What pieces are written as, one after another. -/
def written (value? : Token → Option String) (ps : List Piece) : List Char :=
  ps.flatMap (Piece.written value?)

variable {tokenAt? : List Char → Option Token} {value? : Token → Option String}

@[simp]
theorem written_nil : written value? [] = [] := rfl

@[simp]
theorem written_cons (p : Piece) (ps : List Piece) :
    written value? (p :: ps) = p.written value? ++ written value? ps := rfl

theorem written_char (c : Char) (ps : List Piece) :
    written value? (.char c :: ps) = c :: written value? ps := rfl

theorem fill_toList (ps : List Piece) : (fill value? ps).toList = written value? ps := by
  suffices h : ∀ acc : String, (ps.foldl (fun acc p =>
      match p with
      | .char c => acc.push c
      | .token whole t => acc ++ (value? t).getD (String.ofList whole)) acc).toList =
        acc.toList ++ written value? ps from h ""
  induction ps with
  | nil => intro acc; simp
  | cons p ps ih =>
    intro acc
    rw [List.foldl_cons, ih, written_cons, ← List.append_assoc]
    congr 1
    cases p with
    | char c => simp [Piece.written]
    | token whole t => cases h : value? t <;> simp [Piece.written, h]

/-! ## Cutting -/

/-- The characters of a token are passed over. -/
theorem piecesFrom_skip (skip : Nat) (cs : List Char) :
    piecesFrom tokenAt? skip cs = pieces tokenAt? (cs.drop skip) := by
  induction cs generalizing skip with
  | nil => cases skip <;> rfl
  | cons c rest ih =>
    cases skip with
    | zero => rfl
    | succ skip => exact ih skip

theorem pieces_char {c : Char} {rest : List Char} (h : tokenAt? (c :: rest) = none) :
    pieces tokenAt? (c :: rest) = .char c :: pieces tokenAt? rest := by
  simp [pieces, piecesFrom, h]

theorem pieces_token {whole rest : List Char} {t : Token} (h : tokenAt? (whole ++ rest) = some t)
    (hlength : t.length = whole.length) (hne : whole ≠ []) :
    pieces tokenAt? (whole ++ rest) = .token whole t :: pieces tokenAt? rest := by
  cases whole with
  | nil => exact absurd rfl hne
  | cons c more =>
    have hskip : t.length - 1 = more.length := by simp [hlength]
    have hwhole : (c :: (more ++ rest)).take t.length = c :: more := by simp [hlength]
    rw [List.cons_append] at h
    simp only [List.cons_append, pieces, piecesFrom, h, hwhole, hskip]
    rw [piecesFrom_skip, List.drop_left, pieces]

/-- A text in which no token begins stays as it is. -/
theorem written_plain {cs : List Char} (h : ∀ before after, cs = before ++ after →
    tokenAt? after = none) : written value? (pieces tokenAt? cs) = cs := by
  induction cs with
  | nil => rfl
  | cons c rest ih =>
    rw [pieces_char (h [] (c :: rest) rfl), written_char, ih]
    intro before after hrest
    exact h (c :: before) after (by rw [hrest, List.cons_append])

/-! ## Tokens -/

/-- An expression in braces after a dollar sign reaches up to the first closing brace, and there is
something in it. -/
theorem expressionToken?_eq_some {cs : List Char} {t : Token} :
    expressionToken? cs = some t ↔ ∃ body rest, body ≠ [] ∧ (∀ c ∈ body, notClosing c = true) ∧
      cs = '$' :: '\x7b' :: (body ++ '\x7d' :: rest) ∧ t = ⟨body.length + 3, body, true⟩ := by
  constructor
  · intro h
    unfold expressionToken? at h
    split at h
    · next rest =>
      simp only [braced?] at h
      split at h
      · next after hafter =>
        split at h
        · cases h
        · next hbody =>
          cases h
          refine ⟨rest.takeWhile notClosing, after, by simpa using hbody,
            fun c hc => of_mem_takeWhile hc, ?_, ?_⟩
          · rw [← hafter, List.takeWhile_append_dropWhile]
          · rw [Nat.add_comm 2]
      · cases h
    · cases h
  · rintro ⟨body, rest, hne, hbody, rfl, rfl⟩
    have hstop : Stops notClosing ('\x7d' :: rest) := stops_cons.mpr (by decide)
    have hfull : body.isEmpty = false := by simpa using hne
    rw [expressionToken?, braced?, takeWhile_run hbody hstop, dropWhile_run hbody hstop]
    simp [hfull, Nat.add_comm 2]

/-- A path in doubled braces has no brace in it, and there is something in it. -/
theorem pathToken?_eq_some {cs : List Char} {t : Token} :
    pathToken? cs = some t ↔ ∃ body rest, body ≠ [] ∧ (∀ c ∈ body, notBrace c = true) ∧
      cs = '\x7b' :: '\x7b' :: (body ++ '\x7d' :: '\x7d' :: rest) ∧
      t = ⟨body.length + 4, Text.trimChars body, false⟩ := by
  constructor
  · intro h
    unfold pathToken? at h
    split at h
    · next rest =>
      split at h
      · next after hafter =>
        dsimp only at h
        split at h
        · cases h
        · next hbody =>
          cases h
          refine ⟨rest.takeWhile notBrace, after, by simpa using hbody,
            fun c hc => of_mem_takeWhile hc, ?_, rfl⟩
          rw [← hafter, List.takeWhile_append_dropWhile]
      · cases h
    · cases h
  · rintro ⟨body, rest, hne, hbody, rfl, rfl⟩
    have hstop : Stops notBrace ('\x7d' :: '\x7d' :: rest) := stops_cons.mpr (by decide)
    have hfull : body.isEmpty = false := by simpa using hne
    rw [pathToken?, takeWhile_run hbody hstop, dropWhile_run hbody hstop]
    simp [hfull]

end Dialogue.Template
