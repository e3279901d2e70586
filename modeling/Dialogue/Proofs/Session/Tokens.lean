import Dialogue.Proofs.Session.Flight

/-!
The tokens of actions.

A token is given out for one invocation. `Session.Issued` says so of a session: whatever else is in
flight, or is still to be begun, has a higher number. That goes on to hold as long as the epoch does
not wrap (`Issued.turn`). A result that is taken changes something only if an action with its number
is in flight and not cancelled (`Tracks.settled`), and an action stops running only by its own
result, or its token is cancelled next (`Tracks.leaves`).
-/
namespace Dialogue

namespace Session

variable {s s' : Session} {i : Epoch} {token : Nat}

/-! ## Beginning actions -/

theorem perform_started {e : Effect} {action : Action} {scope : Json}
    (h : (s.perform e).2 = some (.action token i action scope)) :
    (∃ step, e = .invokeAction step i action) ∧ token = s.tokens ∧
      (s.perform e).1.inFlight = some (i, token) := by
  cases e with
  | invokeAction step invocation action' =>
    cases h
    exact ⟨⟨step, rfl⟩, cancelInFlight_tokens s, rfl⟩
  | _ => cases h

/-- An effect puts nothing new in flight but what it starts. -/
theorem perform_inFlight {e : Effect} (h : (s.perform e).1.inFlight = some (i, token)) :
    s.inFlight = some (i, token) ∨
      ∃ action scope, (s.perform e).2 = some (.action token i action scope) := by
  cases e with
  | invokeAction step invocation action => cases h; exact .inr ⟨action, _, rfl⟩
  | cancelAction invocation =>
    simp only [perform] at h
    split at h
    · rw [cancelInFlight_none] at h; cases h
    · exact .inl h
  | actionFailed step error retryable => cases h
  | _ => exact .inl h

/-- An action is started by the deed that begins its invocation, with the next token. -/
theorem turn_started {action : Action} {scope : Json}
    (h : s.turn.2 = some (.action token i action scope)) :
    ∃ step rest, s.deeds = .effect (.invokeAction step i action) :: rest ∧ token = s.tokens ∧
      s.turn.1.inFlight = some (i, token) := by
  rcases turn_cases s with ⟨deed, rest, hd, ht⟩ | ⟨-, -, ht⟩ | ⟨e, rest, -, -, -, ht⟩ | ht
  · rw [ht] at h ⊢
    cases deed with
    | effect e =>
      obtain ⟨⟨step, rfl⟩, htoken, hflight⟩ := perform_started h
      exact ⟨step, rest, hd, htoken, hflight⟩
    | announce => cases h
    | reply ticket outcome => cases h
  · rw [ht] at h; cases h
  · rw [ht] at h; cases h
  · rw [ht] at h; cases h

@[simp] theorem giveReply_inFlight (s : Session) (ticket : Option Nat) (reply : Reply) :
    (s.giveReply ticket reply).inFlight = s.inFlight := by
  cases ticket <;> rfl

theorem handle_inFlight (s : Session) (e : Envelope) : (s.handle e).inFlight = s.inFlight := by
  unfold handle
  split
  · exact giveReply_inFlight _ _ _
  · rfl

theorem turn_inFlight (h : s.turn.1.inFlight = some (i, token)) :
    s.inFlight = some (i, token) ∨
      ∃ action scope, s.turn.2 = some (.action token i action scope) := by
  rcases turn_cases s with ⟨deed, rest, -, ht⟩ | ⟨-, -, ht⟩ | ⟨e, rest, -, -, -, ht⟩ | ht
  · rw [ht] at h ⊢
    cases deed with
    | effect e => exact perform_inFlight (s := { s with deeds := rest }) h
    | announce => exact .inl h
    | reply ticket outcome => exact .inl h
  · rw [ht] at h
    rw [show s.stop.inFlight = none from cancelInFlight_none s] at h
    cases h
  · rw [ht, handle_inFlight] at h; exact .inl h
  · rw [ht] at h; exact .inl h

theorem perform_tokens_le (s : Session) (e : Effect) : s.tokens ≤ (s.perform e).1.tokens := by
  cases e with
  | invokeAction step invocation action =>
    exact Nat.le_trans (Nat.le_of_eq (cancelInFlight_tokens s).symm) (Nat.le_succ _)
  | cancelAction invocation =>
    simp only [perform]
    split
    · exact Nat.le_of_eq (cancelInFlight_tokens s).symm
    · exact Nat.le_refl _
  | _ => exact Nat.le_refl _

theorem act_tokens_le (s : Session) (d : Deed) : s.tokens ≤ (s.act d).1.tokens := by
  cases d with
  | effect e => exact perform_tokens_le s e
  | announce => exact Nat.le_refl _
  | reply ticket outcome => exact Nat.le_refl _

/-! ## The invocation of a token -/

/-- The token was given out for this invocation, and whatever else is in flight or is still to be
begun has a higher number. -/
structure Issued (i : Epoch) (token : Nat) (s : Session) : Prop where
  given : token < s.tokens
  reached : i ≤ s.state.epoch
  inFlight : ∀ j other, s.inFlight = some (j, other) → other = token ∨ i < j
  deeds : ∀ j ∈ s.deeds.filterMap Deed.invoked?, i < j

theorem Keeps.issued (h : s.Keeps s') (hs : s.Issued i token) : s'.Issued i token where
  given := by rw [h.tokens]; exact hs.given
  reached := by rw [h.state]; exact hs.reached
  inFlight := by rw [h.inFlight]; exact hs.inFlight
  deeds := by rw [h.deeds]; exact hs.deeds

/-- The token of an action that is started is issued to its invocation. -/
theorem Tracks.issues (hs : s.Tracks) {action : Action} {scope : Json}
    (h : s.turn.2 = some (.action token i action scope)) : s.turn.1.Issued i token := by
  obtain ⟨step, rest, hd, rfl, hflight⟩ := turn_started h
  have hinvokes : (i :: rest.filterMap Deed.invoked?).Sublist [s.state.epoch] := by
    have h := hs.invokes
    rwa [hd] at h
  -- The deeds begin one invocation at most, and this is it.
  have hi : i = s.state.epoch := List.mem_singleton.1 (hinvokes.subset (.head _))
  have hrest : rest.filterMap Deed.invoked? = [] := by
    have hl := hinvokes.length_le
    exact List.eq_nil_of_length_eq_zero (by simpa using hl)
  rw [turn_of_deed hd] at hflight ⊢
  refine ⟨?_, ?_, fun j other ho => ?_, fun j hj => ?_⟩
  · change s.tokens < ({ s with deeds := rest } : Session).cancelInFlight.tokens + 1
    rw [cancelInFlight_tokens]
    exact Nat.lt_succ_self _
  · rw [act_state, hi]; exact UInt64.le_refl _
  · rw [hflight] at ho
    cases ho
    exact .inl rfl
  · rw [act_deeds] at hj
    rw [hrest] at hj
    cases hj

theorem Issued.act {deed : Deed} {rest : List Deed} (hs : s.Issued i token)
    (hd : s.deeds = deed :: rest) : ({ s with deeds := rest }.act deed).1.Issued i token where
  given := Nat.lt_of_lt_of_le hs.given (act_tokens_le { s with deeds := rest } deed)
  reached := by rw [act_state]; exact hs.reached
  inFlight := by
    intro j other ho
    rw [← turn_of_deed hd] at ho
    rcases turn_inFlight ho with ho | ⟨action, scope, hstarted⟩
    · exact hs.inFlight j other ho
    · obtain ⟨step, rest, hd, -, -⟩ := turn_started hstarted
      refine .inr (hs.deeds j ?_)
      rw [hd]
      exact .head _
  deeds := by
    intro j hj
    rw [act_deeds] at hj
    refine hs.deeds j ?_
    rw [hd]
    exact ((List.sublist_cons_self deed rest).filterMap _).subset hj

/-- The next epoch is above all invocations up to now, if it does not wrap. -/
theorem Issued.handle (hs : s.Issued i token) (fits : s.state.epoch.toNat + 1 < UInt64.size)
    (e : Envelope) : (s.handle e).Issued i token := by
  unfold Session.handle
  split
  · next refusal h => cases e.ticket <;> exact ⟨hs.given, hs.reached, hs.inFlight, hs.deeds⟩
  · next t h =>
    refine ⟨hs.given, ?_, hs.inFlight, fun j hj => ?_⟩
    · exact UInt64.le_trans hs.reached ((Machine.proceeds_of_transition h).rises fits).1
    · rw [invoked_deedsOf] at hj
      rw [(Machine.transition_invoked h).2 j hj]
      exact Epoch.lt_next fits hs.reached

theorem Issued.turn (hs : s.Issued i token)
    (fits : ∀ e, s.Takes e → s.state.epoch.toNat + 1 < UInt64.size) :
    s.turn.1.Issued i token := by
  rcases turn_cases s with ⟨deed, rest, hd, ht⟩ | ⟨hd, hshut, ht⟩ |
    ⟨e, rest, hd, hshut, hq, ht⟩ | ht
  · rw [ht]; exact hs.act hd
  · rw [ht]
    refine ⟨?_, ?_, fun j other ho => ?_, ?_⟩
    · exact Nat.lt_of_lt_of_eq hs.given (cancelInFlight_tokens s).symm
    · rw [show s.stop.state = s.state from cancelInFlight_state s]
      exact hs.reached
    · rw [show s.stop.inFlight = none from cancelInFlight_none s] at ho
      cases ho
    · rw [show s.stop.deeds = s.deeds from cancelInFlight_deeds s]
      exact hs.deeds
  · rw [ht]
    have hqueue : ({ s with queue := rest } : Session).Issued i token :=
      ⟨hs.given, hs.reached, hs.inFlight, hs.deeds⟩
    exact hqueue.handle (fits e ⟨hd, hshut, by rw [hq]; rfl⟩) e
  · rw [ht]; exact hs

/-! ## Cancellation -/

theorem isCancelled_of_mem (h : token ∈ s.cancelledTokens) : s.isCancelled token = true := by
  rw [isCancelled, List.contains_iff_mem.2 h, Bool.or_true]

theorem mem_of_isCancelled (hshut : s.shut = false) (h : s.isCancelled token = true) :
    token ∈ s.cancelledTokens := by
  rw [isCancelled, hshut, Bool.false_or] at h
  exact List.contains_iff_mem.1 h

theorem cancelInFlight_cancelled (s : Session) :
    s.cancelledTokens ⊆ s.cancelInFlight.cancelledTokens := by
  unfold cancelInFlight
  split
  · exact List.subset_append_left _ _
  · exact List.Subset.refl _

theorem perform_cancelled (s : Session) (e : Effect) :
    s.cancelledTokens ⊆ (s.perform e).1.cancelledTokens := by
  cases e with
  | invokeAction step invocation action => exact cancelInFlight_cancelled s
  | cancelAction invocation =>
    simp only [perform]
    split
    · exact cancelInFlight_cancelled s
    · exact List.Subset.refl _
  | _ => exact List.Subset.refl _

theorem turn_cancelled (s : Session) : s.cancelledTokens ⊆ s.turn.1.cancelledTokens := by
  rcases turn_cases s with ⟨deed, rest, -, ht⟩ | ⟨-, -, ht⟩ | ⟨e, rest, -, -, -, ht⟩ | ht
  · rw [ht]
    cases deed with
    | effect e => exact perform_cancelled { s with deeds := rest } e
    | announce => exact List.Subset.refl _
    | reply ticket outcome => exact List.Subset.refl _
  · rw [ht]; exact cancelInFlight_cancelled s
  · rw [ht]
    unfold Session.handle
    split
    · cases e.ticket <;> exact List.Subset.refl _
    · exact List.Subset.refl _
  · rw [ht]; exact List.Subset.refl _

/-- What is cancelled stays cancelled. -/
theorem Next.isCancelled (h : s.Next s') (hc : s.isCancelled token = true) :
    s'.isCancelled token = true := by
  rw [Session.isCancelled, Bool.or_eq_true] at hc
  rcases h.cases with rfl | h
  · rcases hc with hc | hc
    · rw [Session.isCancelled, turn_shut, hc, Bool.true_or]
    · exact isCancelled_of_mem (turn_cancelled s (List.contains_iff_mem.1 hc))
  · have hkeeps := h.keeps
    rcases hc with hc | hc
    · rw [Session.isCancelled, hkeeps.shut hc, Bool.true_or]
    · refine isCancelled_of_mem ?_
      rw [hkeeps.cancelledTokens]
      exact List.contains_iff_mem.1 hc

/-- The token is cancelled, or this is the next thing that is done. -/
def Doomed (i : Epoch) (token : Nat) (s : Session) : Prop :=
  s.isCancelled token = true ∨
    ∃ rest, s.deeds = .effect (.cancelAction i) :: rest ∧ s.inFlight = some (i, token)

theorem Next.doomed (h : s.Next s') (hs : s.Doomed i token) : s'.Doomed i token := by
  rcases hs with hc | ⟨rest, hd, hf⟩
  · exact .inl (h.isCancelled hc)
  · rcases h.cases with rfl | h
    · refine .inl (isCancelled_of_mem ?_)
      rw [turn_of_deed hd]
      simp [act, perform, cancelInFlight, hf]
    · exact .inr ⟨rest, by rw [h.keeps.deeds, hd], by rw [h.keeps.inFlight, hf]⟩

/-- A turn that ends the course of a running action takes its settlement, or dooms its token. -/
theorem Tracks.leaves (hs : s.Tracks) (hrun : s.stopped = false)
    (hp : s.state.phase = .actionPending i) (hq : s.turn.1.state.phase ≠ .actionPending i) :
    ∃ e, s.Takes e ∧ ((∃ result, e.event = .actionSettled i result) ∨
      ∃ token, s.inFlight = some (i, token) ∧ s.turn.1.Doomed i token) := by
  cases hn : s.next? with
  | none =>
    rw [turn_state, hn] at hq
    exact absurd hp hq
  | some e =>
    have htakes := next?_eq_some.1 hn
    have hrunning := hs.running hrun i hp
    rw [htakes.deeds] at hrunning
    obtain ⟨⟨j, token⟩, hf, rfl⟩ := Option.map_eq_some_iff.1 hrunning
    refine ⟨e, htakes, ?_⟩
    rw [htakes.turn] at hq ⊢
    unfold Session.handle at hq ⊢
    cases h : s.machine.transition s.state e.event with
    | error refusal =>
      simp only [h, giveReply_state] at hq
      exact absurd hp hq
    | ok t =>
      simp only [h] at hq ⊢
      rcases Machine.transition_leaves h hp hq with hsettled | ⟨rest, hcancels⟩
      · exact .inl hsettled
      · obtain ⟨more, hmore⟩ := deedsOf_of_effects hcancels e.ticket (.ofTransition s.state t)
        exact .inr ⟨token, hf, .inr ⟨more, hmore, hf⟩⟩

/-- The result of an action changes nothing when it is taken, unless an action with its number is in
flight, which is then not cancelled. -/
theorem Tracks.settled (hs : s.Tracks) (hrun : s.stopped = false) {e : Envelope}
    (htakes : s.Takes e) {result : ActionResult} (he : e.event = .actionSettled i result) :
    s.turn.1.state = s.state ∨
      ∃ token, s.inFlight = some (i, token) ∧ s.isCancelled token = false := by
  rw [htakes.turn, handle_state, he]
  by_cases hp : s.state.phase = .actionPending i
  · have hrunning := hs.running hrun i hp
    rw [htakes.deeds] at hrunning
    obtain ⟨⟨j, token⟩, hf, rfl⟩ := Option.map_eq_some_iff.1 hrunning
    refine .inr ⟨token, hf, Bool.eq_false_iff.2 fun hc => ?_⟩
    exact (hs.inFlight _ _ hf).2 (mem_of_isCancelled htakes.shut hc)
  · exact .inl (Machine.after_settled hp result)

end Session

end Dialogue
