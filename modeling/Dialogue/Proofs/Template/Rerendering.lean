import Dialogue.Proofs.Template.Filling

/-!
Rendering a text that was rendered.

A second rendering finds the tokens that the first one left in their places, and these have no value
now as before. It can find others only where something was filled in: within a text that was filled
in, or from a dollar sign right before one on. Where none of these has a value, the filling is
`Inert`, and rendering again changes nothing (`renderTemplate_rendered`). The texts that are filled
in may be anything, so that a text with a token in it is rendered in its turn
(`renderTemplate_revived`).
-/
namespace Dialogue.Template

open Dialogue.Expr

variable {value? : Token → Option String} {cs rest : List Char} {t : Token}

/-- What is filled in brings no token to life: a token that begins within a text that was filled in,
or with the character right before it, has no value. -/
def Inert (value? : Token → Option String) (ps : List Piece) : Prop :=
  ∀ before whole t after text, ps = before ++ .token whole t :: after → value? t = some text →
    ∀ lead start, written value? before ++ text.toList = lead ++ start → start ≠ [] →
      (written value? before).length ≤ lead.length + 1 →
        ∀ t', expressionToken? (start ++ written value? after) = some t' → value? t' = none

theorem Inert.tail {p : Piece} {ps : List Piece} (h : Inert value? (p :: ps)) :
    Inert value? ps := by
  intro before whole t after text hps hvalue lead start hsplit hstart hlead
  apply h (p :: before) whole t after text (by rw [hps, List.cons_append]) hvalue
    (p.written value? ++ lead) start
  · rw [written_cons, List.append_assoc, hsplit, List.append_assoc]
  · exact hstart
  · rw [written_cons, List.length_append, List.length_append]
    omega

/-! ## Texts that are written as they are -/

/-- The tokens of a text have no value, so that it is written as it is. -/
def Settled (value? : Token → Option String) (cs : List Char) : Prop :=
  written value? (pieces expressionToken? cs) = cs

/-- What follows the first closing brace is written as it is. A token ends there, wherever before it
may begin. -/
def Resumes (value? : Token → Option String) (cs : List Char) : Prop :=
  ∀ before after, cs = before ++ '\x7d' :: after → (∀ c ∈ before, notClosing c = true) →
    Settled value? after

theorem Resumes.cons {c : Char} (hsettled : Settled value? cs) (h : Resumes value? cs) :
    Resumes value? (c :: cs) := by
  intro before after hcs hbefore
  cases before with
  | nil =>
    rw [List.nil_append] at hcs
    exact (List.cons.inj hcs).2 ▸ hsettled
  | cons d before =>
    rw [List.cons_append] at hcs
    exact h before after (List.cons.inj hcs).2 fun c hc => hbefore c (List.mem_cons_of_mem d hc)

/-- The characters of an expression token. -/
def expressionChars (body : List Char) : List Char := '$' :: '\x7b' :: (body ++ ['\x7d'])

theorem expressionChars_append (body rest : List Char) :
    expressionChars body ++ rest = '$' :: '\x7b' :: (body ++ '\x7d' :: rest) := by
  simp [expressionChars]

theorem expressionToken?_whole {body : List Char} (hne : body ≠ [])
    (hbody : ∀ c ∈ body, notClosing c = true) (rest : List Char) :
    expressionToken? (expressionChars body ++ rest) = some ⟨body.length + 3, body, true⟩ :=
  expressionToken?_eq_some.mpr ⟨body, rest, hne, hbody, expressionChars_append body rest, rfl⟩

theorem pieces_whole {body : List Char} (hne : body ≠ [])
    (hbody : ∀ c ∈ body, notClosing c = true) (rest : List Char) :
    pieces expressionToken? (expressionChars body ++ rest) =
      .token (expressionChars body) ⟨body.length + 3, body, true⟩ ::
        pieces expressionToken? rest := by
  apply pieces_token (expressionToken?_whole hne hbody rest)
  · simp [expressionChars]
  · simp [expressionChars]

/-- A character stays as it is if the token that begins with it, if any, has no value. -/
theorem Settled.cons {c : Char} (h : ∀ t, expressionToken? (c :: cs) = some t → value? t = none)
    (hsettled : Settled value? cs) (hresumes : Resumes value? cs) :
    Settled value? (c :: cs) := by
  cases htoken : expressionToken? (c :: cs) with
  | none =>
    rw [Settled, pieces_char htoken, written_char, hsettled]
  | some t =>
    have hnone := h t htoken
    obtain ⟨body, after, hne, hbody, hcs, rfl⟩ := expressionToken?_eq_some.mp htoken
    have hafter : Settled value? after := by
      apply hresumes ('\x7b' :: body) after (by simpa using (List.cons.inj hcs).2)
      intro d hd
      rcases List.mem_cons.mp hd with rfl | hd
      · decide
      · exact hbody d hd
    rw [Settled, hcs, ← expressionChars_append, pieces_whole hne hbody, written_cons, hafter]
    simp [Piece.written, hnone]

/-! ## What rendering writes -/

/-- No token begins with a dollar sign and a brace if no brace closes them, or one does at once. -/
theorem expressionToken?_opened (h : expressionToken? ('$' :: '\x7b' :: cs) = none) :
    (∀ c ∈ cs, notClosing c = true) ∨ ∃ rest, cs = '\x7d' :: rest := by
  have hsplit := List.takeWhile_append_dropWhile (p := notClosing) (l := cs)
  have hstop := stops_dropWhile notClosing cs
  cases hrest : cs.dropWhile notClosing with
  | nil =>
    left
    intro c hc
    rw [hrest, List.append_nil] at hsplit
    rw [← hsplit] at hc
    exact of_mem_takeWhile hc
  | cons d rest =>
    right
    rw [hrest, stops_cons] at hstop
    obtain rfl : d = '\x7d' := by simpa [notClosing] using hstop
    by_cases hbody : cs.takeWhile notClosing = []
    · exact ⟨rest, by rw [← hsplit, hbody, hrest, List.nil_append]⟩
    · have hsome := expressionToken?_eq_some.mpr ⟨_, rest, hbody,
        fun c hc => of_mem_takeWhile hc, rfl, rfl⟩
      rw [← hrest, hsplit, h] at hsome
      cases hsome

/-- Without a closing brace there is no token. -/
theorem written_unclosed (h : ∀ c ∈ cs, notClosing c = true) :
    written value? (pieces expressionToken? cs) = cs := by
  apply written_plain
  intro before after hcs
  rw [Option.eq_none_iff_forall_not_mem]
  intro t ht
  obtain ⟨body, rest, -, -, hafter, -⟩ := expressionToken?_eq_some.mp ht
  have hclosing := h '\x7d' (by rw [hcs, hafter]; simp)
  exact absurd hclosing (by decide)

/-- Where no token began with a character, none that has a value begins with it after rendering. -/
theorem Inert.char {c : Char} (h : Inert value? (pieces expressionToken? (c :: rest)))
    (hnone : expressionToken? (c :: rest) = none) :
    ∀ t, expressionToken? (c :: written value? (pieces expressionToken? rest)) = some t →
      value? t = none := by
  intro t ht
  obtain ⟨body, after, hne, hbody, hwhole, -⟩ := expressionToken?_eq_some.mp ht
  obtain ⟨rfl, hcs⟩ := List.cons.inj hwhole
  cases rest with
  | nil => cases hcs
  | cons d rest =>
    cases htoken : expressionToken? (d :: rest) with
    | some t' =>
      obtain ⟨body', after', hne', hbody', hrest, rfl⟩ := expressionToken?_eq_some.mp htoken
      rw [hrest, ← expressionChars_append, pieces_whole hne' hbody'] at hcs ht
      rw [written_cons] at hcs ht
      cases hvalue : value? ⟨body'.length + 3, body', true⟩ with
      | none =>
        -- A token that stays begins with a dollar sign, and no brace.
        simp [Piece.written, hvalue, expressionChars] at hcs
      | some text =>
        rw [pieces_char hnone, hrest, ← expressionChars_append, pieces_whole hne' hbody'] at h
        apply h [.char '$'] _ _ _ text rfl hvalue [] ('$' :: text.toList) rfl (by simp)
          (by simp [Piece.written])
        simpa [Piece.written, hvalue] using ht
    | none =>
      rw [pieces_char htoken, written_char] at hcs
      obtain ⟨rfl, hbehind⟩ := List.cons.inj hcs
      rcases expressionToken?_opened hnone with hclosing | ⟨rest', rfl⟩
      · -- Nothing is filled in then, and nothing closes a token.
        rw [written_unclosed hclosing] at hbehind
        have hmem := hclosing '\x7d' (by rw [hbehind]; simp)
        exact absurd hmem (by decide)
      · have hbrace : expressionToken? ('\x7d' :: rest') = none := rfl
        rw [pieces_char hbrace, written_char] at hbehind
        cases body with
        | nil => exact absurd rfl hne
        | cons e body =>
          obtain ⟨rfl, -⟩ := List.cons.inj hbehind
          exact absurd (hbody _ List.mem_cons_self) (by decide)

/-- A text that was filled in stays as it is, together with what was written after it. -/
theorem settled_filled {text : List Char} (hsettled : Settled value? cs)
    (hresumes : Resumes value? cs)
    (h : ∀ lead start, text = lead ++ start → start ≠ [] →
      ∀ t, expressionToken? (start ++ cs) = some t → value? t = none) :
    Settled value? (text ++ cs) ∧ Resumes value? (text ++ cs) := by
  induction text with
  | nil => exact ⟨hsettled, hresumes⟩
  | cons c text ih =>
    obtain ⟨hrest, hafter⟩ := ih fun lead start htext hstart =>
      h (c :: lead) start (by rw [htext, List.cons_append]) hstart
    exact ⟨.cons (h [] (c :: text) rfl (by simp)) hrest hafter, hafter.cons hrest⟩

/-- A token that stays in its place is found there again. -/
theorem settled_kept {body : List Char} (hne : body ≠ [])
    (hbody : ∀ c ∈ body, notClosing c = true)
    (hvalue : value? ⟨body.length + 3, body, true⟩ = none) (hsettled : Settled value? cs) :
    Settled value? (expressionChars body ++ cs) ∧ Resumes value? (expressionChars body ++ cs) := by
  constructor
  · rw [Settled, pieces_whole hne hbody, written_cons, hsettled]
    simp [Piece.written, hvalue]
  · -- The first brace that closes something is the token's own.
    intro before after hcs hbefore
    have hopen : ∀ c ∈ '$' :: '\x7b' :: body, notClosing c = true := by
      intro c hc
      rcases List.mem_cons.mp hc with rfl | hc
      · decide
      · rcases List.mem_cons.mp hc with rfl | hc
        · decide
        · exact hbody c hc
    have hstop : ∀ ds, Stops notClosing ('\x7d' :: ds) := fun ds => stops_cons.mpr (by decide)
    rw [expressionChars_append, ← List.cons_append, ← List.cons_append] at hcs
    have hdrop := congrArg (List.dropWhile notClosing) hcs
    rw [dropWhile_run hopen (hstop cs), dropWhile_run hbefore (hstop after)] at hdrop
    exact (List.cons.inj hdrop).2 ▸ hsettled

/-- What rendering writes is written as it is when it is rendered again. -/
theorem rendered_settled (cs : List Char) (h : Inert value? (pieces expressionToken? cs)) :
    Settled value? (written value? (pieces expressionToken? cs)) ∧
      Resumes value? (written value? (pieces expressionToken? cs)) := by
  induction hlength : cs.length using Nat.strongRecOn generalizing cs with
  | ind n ih =>
    subst hlength
    cases cs with
    | nil =>
      refine ⟨rfl, fun before after hcs => ?_⟩
      cases before <;> cases hcs
    | cons c rest =>
      cases htoken : expressionToken? (c :: rest) with
      | none =>
        have hchar := h.char htoken
        rw [pieces_char htoken] at h ⊢
        obtain ⟨hsettled, hresumes⟩ := ih rest.length (by simp) rest h.tail rfl
        exact ⟨.cons hchar hsettled hresumes, hresumes.cons hsettled⟩
      | some t =>
        obtain ⟨body, after, hne, hbody, hcs, rfl⟩ := expressionToken?_eq_some.mp htoken
        rw [hcs, ← expressionChars_append] at h ⊢
        rw [pieces_whole hne hbody] at h ⊢
        have hshorter : after.length < (c :: rest).length := by
          rw [hcs]
          simp
          omega
        obtain ⟨hsettled, hresumes⟩ := ih after.length hshorter after h.tail rfl
        rw [written_cons]
        cases hvalue : value? ⟨body.length + 3, body, true⟩ with
        | none =>
          rw [show Piece.written value? (.token (expressionChars body) _) = expressionChars body by
            simp [Piece.written, hvalue]]
          exact settled_kept hne hbody hvalue hsettled
        | some text =>
          rw [show Piece.written value? (.token (expressionChars body) _) = text.toList by
            simp [Piece.written, hvalue]]
          apply settled_filled hsettled hresumes
          intro lead start htext hstart
          exact h [] _ _ _ text rfl hvalue lead start htext hstart (by simp)

/-! ## Texts without a dollar sign -/

/-- A token is cut out with its braces. -/
theorem whole_of_mem {cs whole : List Char} {t : Token}
    (h : .token whole t ∈ pieces expressionToken? cs) :
    ∃ body, whole = expressionChars body := by
  induction hlength : cs.length using Nat.strongRecOn generalizing cs with
  | ind n ih =>
    subst hlength
    cases cs with
    | nil => cases h
    | cons c rest =>
      cases htoken : expressionToken? (c :: rest) with
      | none =>
        rw [pieces_char htoken, List.mem_cons] at h
        rcases h with h | h
        · cases h
        · exact ih rest.length (by simp) h rfl
      | some t' =>
        obtain ⟨body, after, hne, hbody, hcs, -⟩ := expressionToken?_eq_some.mp htoken
        rw [hcs] at h ih
        rw [← expressionChars_append, pieces_whole hne hbody, List.mem_cons] at h
        rcases h with h | h
        · exact ⟨body, (Piece.token.inj h).1⟩
        · refine ih after.length ?_ h rfl
          simp
          omega

/-- A piece that ends in no dollar sign when it is written. -/
def Piece.Closed (value? : Token → Option String) (p : Piece) : Prop :=
  (p.written value?).getLast? ≠ some '$'

theorem written_closed {ps : List Piece} (h : ∀ p ∈ ps, p.Closed value?) :
    (written value? ps).getLast? ≠ some '$' := by
  induction ps with
  | nil => simp
  | cons p ps ih =>
    have hrest := ih fun q hq => h q (List.mem_cons_of_mem p hq)
    rw [written_cons, List.getLast?_append]
    cases hlast : (written value? ps).getLast? with
    | none => exact h p List.mem_cons_self
    | some c =>
      rw [hlast] at hrest
      exact hrest

/-- Texts without a dollar sign bring no token to life where each dollar sign of the template begins
a token. -/
theorem inert_of_plain (hdollar : .char '$' ∉ pieces expressionToken? cs)
    (hplain : ∀ whole t text, .token whole t ∈ pieces expressionToken? cs →
      value? t = some text → '$' ∉ text.toList) :
    Inert value? (pieces expressionToken? cs) := by
  have hclosed : ∀ p ∈ pieces expressionToken? cs, p.Closed value? := by
    intro p hp
    cases p with
    | char c =>
      intro hlast
      obtain rfl : c = '$' := by simpa [Piece.written] using hlast
      exact hdollar hp
    | token whole t =>
      intro hlast
      cases hvalue : value? t with
      | none =>
        obtain ⟨body, rfl⟩ := whole_of_mem hp
        have hend : (expressionChars body).getLast? = some '\x7d' := by
          rw [expressionChars, ← List.cons_append, ← List.cons_append, List.getLast?_concat]
        simp [Piece.written, hvalue, hend] at hlast
      | some text =>
        have hmem : '$' ∈ text.toList :=
          List.mem_of_getLast? (by simpa [Piece.written, hvalue] using hlast)
        exact hplain whole t text hp hvalue hmem
  intro before whole t after text hps hvalue lead start hsplit hstart hlead t' ht'
  obtain ⟨body, rest, -, -, hwhole, -⟩ := expressionToken?_eq_some.mp ht'
  cases start with
  | nil => exact absurd rfl hstart
  | cons c start =>
    obtain rfl : c = '$' := (List.cons.inj hwhole).1
    have htext : '$' ∉ text.toList := hplain whole t text (by rw [hps]; simp) hvalue
    have hbefore : (written value? before).getLast? ≠ some '$' :=
      written_closed fun p hp => hclosed p (by rw [hps]; exact List.mem_append_left _ hp)
    -- The dollar sign is within the text, or the last character before it.
    rcases List.append_eq_append_iff.mp hsplit with ⟨more, rfl, hmore⟩ | ⟨more, hmore, hafter⟩
    · exact absurd (by rw [hmore]; simp) htext
    · cases more with
      | nil => exact absurd (by rw [List.nil_append] at hafter; rw [← hafter]; simp) htext
      | cons d more =>
        obtain ⟨rfl, -⟩ := List.cons.inj hafter
        have hnil : more = [] := by
          rw [hmore] at hlead
          simpa using hlead
        rw [hmore, hnil] at hbefore
        exact absurd (by simp) hbefore

/-! ## Rendering twice -/

/-- Rendering a rendered text changes nothing, unless what was filled in brings a token to life. -/
theorem renderTemplate_rendered {scope : Json} {template : String}
    (h : Inert (tokenText? scope) (pieces expressionToken? template.toList)) :
    renderTemplate (renderTemplate template scope) scope = renderTemplate template scope := by
  have hsettled := (rendered_settled template.toList h).1
  rw [Settled, ← fill_toList (pieces expressionToken? template.toList)] at hsettled
  rw [← String.toList_inj]
  conv_lhs => rw [renderTemplate, fill_toList]
  exact hsettled

/-- A name is filled in, and an expression without a value stays as it is. -/
theorem renderTemplate_rendered_greeting :
    let scope : Json := .object [("name", .string "Aiko")]
    let template := "$\x7bname\x7d, $\x7bamount\x7d"
    Inert (tokenText? scope) (pieces expressionToken? template.toList) ∧
    renderTemplate template scope = "Aiko, $\x7bamount\x7d" ∧
    renderTemplate (renderTemplate template scope) scope = "Aiko, $\x7bamount\x7d" := by
  intro scope template
  have hpieces : pieces expressionToken? template.toList =
      [.token "$\x7bname\x7d".toList ⟨7, "name".toList, true⟩, .char ',', .char ' ',
        .token "$\x7bamount\x7d".toList ⟨9, "amount".toList, true⟩] := by
    simp [template, pieces, piecesFrom, expressionToken?, braced?, notClosing]
  have hname : tokenText? scope ⟨7, "name".toList, true⟩ = some "Aiko" := by decide +kernel
  have hamount : tokenText? scope ⟨9, "amount".toList, true⟩ = none := by decide +kernel
  have hinert : Inert (tokenText? scope) (pieces expressionToken? template.toList) := by
    apply inert_of_plain
    · rw [hpieces]
      simp
    · intro whole t text hmem hvalue
      rw [hpieces] at hmem
      simp only [List.mem_cons, Piece.token.injEq, reduceCtorEq, List.not_mem_nil, false_or,
        or_false] at hmem
      rcases hmem with ⟨-, rfl⟩ | ⟨-, rfl⟩
      · rw [hname] at hvalue
        cases hvalue
        decide
      · rw [hamount] at hvalue
        cases hvalue
  have honce : renderTemplate template scope = "Aiko, $\x7bamount\x7d" := by decide +kernel
  exact ⟨hinert, honce, (renderTemplate_rendered hinert).trans honce⟩

/-- A name with a token in it is filled in as it is, and the token is evaluated when the text is
rendered again. -/
theorem renderTemplate_revived :
    let scope : Json := .object [("name", .string "$\x7b1 + 1\x7d")]
    renderTemplate "$\x7bname\x7d" scope = "$\x7b1 + 1\x7d" ∧
    renderTemplate (renderTemplate "$\x7bname\x7d" scope) scope = "2" := by
  decide +kernel

end Dialogue.Template
