import Dialogue.Proofs.Session.Taking

/-!
The action in flight.

Beside its state a session keeps a record of the action in flight, with the token by which the
action can be cancelled. A transition commits the new state at once, and only the deeds that it
leaves bring the record up to date, one by one, while timers, actions and clients go on.
`Session.Tracks` says that the record is right nevertheless: once the deeds are done, it names the
action that the state has running, with a token that is not cancelled. It holds at the start of a
session and after whatever becomes of it (`Next.tracks`).
-/
namespace Dialogue

/-! ## What effects do to the record -/

/-- The invocation in flight after an effect. -/
def Effect.flight (current : Option Epoch) : Effect → Option Epoch
  | .invokeAction _ invocation _ => some invocation
  | .cancelAction invocation => if current = some invocation then none else current
  | .actionFailed .. => none
  | _ => current

namespace Deed

/-- The invocation in flight after a deed. -/
def flight (current : Option Epoch) : Deed → Option Epoch
  | .effect e => e.flight current
  | _ => current

/-- The invocation that a deed begins. -/
def invoked? : Deed → Option Epoch
  | .effect e => (Note.effect e).invoked?
  | _ => none

end Deed

namespace Machine

variable {m : Machine} {s : State} {e : Event} {t : Transition} {i : Epoch}

theorem enter_flight {target : String} {previous : Option String}
    (hp : (m.enter s target previous).state.phase = .actionPending i) (current : Option Epoch) :
    (m.enter s target previous).effects.foldl Effect.flight current = some i := by
  cases hs : m.step? target with
  | none =>
    simp only [enter, hs] at hp
    cases hp
  | some step =>
    rw [enter_eq hs] at hp ⊢
    rcases onEntry_cases step (s.epoch + 1) with ⟨-, he⟩ | ⟨action, -, -, he⟩ | ⟨-, -, he⟩
    · rw [he] at hp; cases hp
    · rw [he] at hp ⊢
      cases hp
      rfl
    · rw [he] at hp; cases hp

theorem moveTo_flight {target : String}
    (hp : (m.moveTo s target).state.phase = .actionPending i) (current : Option Epoch) :
    (m.moveTo s target).effects.foldl Effect.flight current = some i := by
  rw [moveTo, List.foldl_append]
  exact enter_flight (by exact hp) _

/-- Where a transition leads to a running action, its effects put that action in flight, unless it
was running before and there are no effects. -/
theorem transition_flight (h : m.transition s e = .ok t) (hp : t.state.phase = .actionPending i) :
    (t.effects = [] ∧ s.phase = .actionPending i) ∨
      ∀ current, t.effects.foldl Effect.flight current = some i := by
  obtain ⟨step, -, ha⟩ := accepts_of_transition h
  cases ha with
  | answered value answered id waits named leads => exact .inr (moveTo_flight hp)
  | advanced epoch id current ready leads => exact .inr (moveTo_flight hp)
  | completed value id going awaits leads => exact .inr (moveTo_flight hp)
  | settled j result id running success leads => exact .inr (moveTo_flight hp)
  | retried error retryable action failed runs => cases hp; exact .inr fun _ => rfl
  | failed j result running failure => cases hp
  | held j result running success stays => cases hp
  | loaded choices going => exact .inl ⟨rfl, hp⟩

theorem moveTo_cancels {target : String} (hp : s.phase = .actionPending i) :
    ∃ rest, (m.moveTo s target).effects = .cancelAction i :: rest := by
  simp [moveTo, hp]

/-- A running action stops running by its settlement, or else its cancellation is the first effect
of the transition. -/
theorem transition_leaves (h : m.transition s e = .ok t) (hp : s.phase = .actionPending i)
    (hq : t.state.phase ≠ .actionPending i) :
    (∃ result, e = .actionSettled i result) ∨ ∃ rest, t.effects = .cancelAction i :: rest := by
  obtain ⟨step, -, ha⟩ := accepts_of_transition h
  cases ha with
  | answered value answered id waits named leads => exact .inr (moveTo_cancels hp)
  | advanced epoch id current ready leads => exact .inr (moveTo_cancels hp)
  | completed value id going awaits leads => exact .inr (moveTo_cancels (by simpa using hp))
  | retried error retryable action failed runs => rw [hp] at failed; cases failed
  | settled j result id running success leads =>
    rw [hp] at running; cases running; exact .inl ⟨result, rfl⟩
  | failed j result running failure => rw [hp] at running; cases running; exact .inl ⟨result, rfl⟩
  | held j result running success stays =>
    rw [hp] at running; cases running; exact .inl ⟨result, rfl⟩
  | loaded choices going => exact absurd hp hq

/-- A settlement of another action than the one that is running changes nothing. -/
theorem after_settled (hp : s.phase ≠ .actionPending i) (result : ActionResult) :
    m.after s (.actionSettled i result) = s := by
  cases h : m.transition s (.actionSettled i result) with
  | error refusal => exact after_of_error h
  | ok t =>
    obtain ⟨step, -, ha⟩ := accepts_of_transition h
    cases ha with
    | failed j result running failure => exact absurd running hp
    | held j result running success stays => exact absurd running hp
    | settled j result id running success leads => exact absurd running hp

theorem enter_invoked (m : Machine) (s : State) (target : String) (previous : Option String) :
    (m.enter s target previous).log.invoked.Sublist [s.epoch + 1] := by
  cases hs : m.step? target with
  | none =>
    simp only [enter, hs]
    exact List.nil_sublist _
  | some step =>
    rw [enter_eq hs]
    rcases onEntry_cases step (s.epoch + 1) with ⟨-, he⟩ | ⟨action, -, -, he⟩ | ⟨-, -, he⟩
    · simp [he, Transition.log, Log.invoked, Note.invoked?]
    · rw [he]; exact .refl [s.epoch + 1]
    · cases ha : step.autoAdvance <;> simp [he, ha, Transition.log, Log.invoked, Note.invoked?]

theorem moveTo_invoked {epoch : Epoch} (m : Machine) (he : s.epoch = epoch) (target : String) :
    (m.moveTo s target).log.invoked.Sublist [epoch + 1] := by
  subst he
  have h := enter_invoked m s target (some s.currentStep)
  rw [moveTo_log, Log.invoked, List.filterMap_append]
  cases s.phase.invocation? <;> exact h

/-- A transition begins nothing, or one invocation, which has the next epoch for its number. -/
theorem transition_invoked (h : m.transition s e = .ok t) :
    t.log.invoked.Sublist [t.state.epoch] ∧ ∀ i ∈ t.log.invoked, i = s.epoch + 1 := by
  obtain ⟨step, -, ha⟩ := accepts_of_transition h
  have hmoved {s' : State} (he : s'.epoch = s.epoch) (id : String) :
      (m.moveTo s' id).log.invoked.Sublist [(m.moveTo s' id).state.epoch] ∧
        ∀ i ∈ (m.moveTo s' id).log.invoked, i = s.epoch + 1 := by
    have hsub := moveTo_invoked m he id
    rw [moveTo_epoch, he]
    exact ⟨hsub, fun i hi => List.mem_singleton.1 (hsub.subset hi)⟩
  cases ha with
  | answered value answered id waits named leads => exact hmoved rfl id
  | advanced epoch id current ready leads => exact hmoved rfl id
  | completed value id going awaits leads => exact hmoved (by simp) id
  | settled j result id running success leads => exact hmoved (by simp) id
  | retried error retryable action failed runs =>
    exact ⟨.refl _, fun i hi => List.mem_singleton.1 hi⟩
  | failed j result running failure => simp [Transition.log, Log.invoked, Note.invoked?]
  | held j result running success stays => simp [Transition.log, Log.invoked]
  | loaded choices going => simp [Transition.log, Log.invoked]

end Machine

namespace Session

variable {s s' : Session} {i : Epoch} {token : Nat}

theorem perform_flight (s : Session) (e : Effect) :
    (s.perform e).1.inFlight.map Prod.fst = e.flight (s.inFlight.map Prod.fst) := by
  cases e with
  | cancelAction invocation =>
    cases hf : s.inFlight with
    | none => simp [perform, hf, Effect.flight]
    | some f =>
      obtain ⟨j, t⟩ := f
      by_cases hj : j = invocation
      · simp [perform, hf, hj, cancelInFlight, Effect.flight]
      · simp [perform, hf, hj, Effect.flight]
  | _ => rfl

theorem act_flight (s : Session) (d : Deed) :
    (s.act d).1.inFlight.map Prod.fst = d.flight (s.inFlight.map Prod.fst) := by
  cases d with
  | effect e => exact perform_flight s e
  | announce => rfl
  | reply ticket outcome => rfl

theorem performAll_flight : ∀ (effects : List Effect) (s : Session),
    (s.performAll effects).1.inFlight.map Prod.fst =
      effects.foldl Effect.flight (s.inFlight.map Prod.fst)
  | [], _ => rfl
  | e :: rest, s => by
    rw [List.foldl_cons, ← perform_flight s e]
    exact performAll_flight rest (s.perform e).1

theorem foldl_flight_deedsOf (t : Transition) (ticket : Option Nat) (outcome : Outcome)
    (current : Option Epoch) :
    (deedsOf t ticket outcome).foldl Deed.flight current =
      t.effects.foldl Effect.flight current := by
  simp only [deedsOf, List.foldl_append, List.foldl_map]
  cases ticket <;> rfl

theorem invoked_deedsOf (t : Transition) (ticket : Option Nat) (outcome : Outcome) :
    (deedsOf t ticket outcome).filterMap Deed.invoked? = t.log.invoked := by
  have hreply : (ticket.toList.map fun ticket => Deed.reply ticket outcome).filterMap
      Deed.invoked? = [] := by cases ticket <;> rfl
  rw [deedsOf, List.filterMap_append, List.filterMap_append, hreply, List.append_nil,
    List.filterMap_map, Transition.log, Log.invoked, List.filterMap_map]
  exact List.append_nil _

theorem deedsOf_of_effects {t : Transition} {e : Effect} {rest : List Effect}
    (h : t.effects = e :: rest) (ticket : Option Nat) (outcome : Outcome) :
    ∃ more, deedsOf t ticket outcome = .effect e :: more := by
  refine ⟨rest.map .effect ++ [.announce] ++ ticket.toList.map (.reply · outcome), ?_⟩
  rw [deedsOf, h]
  rfl

/-! ## Tokens -/

/-- Tokens were given out before they were cancelled, and the one in flight is not cancelled. -/
structure Tokened (s : Session) : Prop where
  cancelled : ∀ token ∈ s.cancelledTokens, token < s.tokens
  inFlight : ∀ i token, s.inFlight = some (i, token) →
    token < s.tokens ∧ token ∉ s.cancelledTokens

theorem cancelInFlight_none (s : Session) : s.cancelInFlight.inFlight = none := by
  unfold cancelInFlight
  split
  · rfl
  · next h => exact h

@[simp] theorem cancelInFlight_tokens (s : Session) : s.cancelInFlight.tokens = s.tokens := by
  unfold cancelInFlight
  split <;> rfl

theorem Tokened.cancelInFlight (h : s.Tokened) : s.cancelInFlight.Tokened := by
  refine ⟨?_, fun i token hf => ?_⟩
  · unfold Session.cancelInFlight
    split
    · next j token hf =>
      intro other ho
      rcases List.mem_append.1 ho with ho | ho
      · exact h.cancelled other ho
      · rw [List.mem_singleton.1 ho]
        exact (h.inFlight j token hf).1
    · exact h.cancelled
  · rw [cancelInFlight_none] at hf
    cases hf

theorem Tokened.perform (h : s.Tokened) (e : Effect) : (s.perform e).1.Tokened := by
  cases e with
  | invokeAction step invocation action =>
    have hc := h.cancelInFlight
    have hbound (token : Nat) (ht : token ∈ s.cancelInFlight.cancelledTokens) :
        token < s.tokens := by
      have := hc.cancelled token ht
      rwa [cancelInFlight_tokens] at this
    refine ⟨fun token ht => ?_, fun i token hf => ?_⟩
    · exact Nat.lt_of_lt_of_eq (Nat.lt_succ_of_lt (hbound token ht))
        (congrArg (· + 1) (cancelInFlight_tokens s).symm)
    · -- The token that is given out now is above all that were.
      cases hf
      refine ⟨Nat.lt_succ_self _, fun ht => ?_⟩
      have := hbound _ ht
      rw [cancelInFlight_tokens] at this
      exact Nat.lt_irrefl _ this
  | cancelAction invocation =>
    simp only [Session.perform]
    split
    · exact h.cancelInFlight
    · exact h
  | actionFailed step error retryable => exact ⟨h.cancelled, by rintro i token ⟨⟩⟩
  | stepEntered step previous => exact ⟨h.cancelled, h.inFlight⟩
  | scheduleAutoAdvance step epoch => exact ⟨h.cancelled, h.inFlight⟩
  | completed step => exact ⟨h.cancelled, h.inFlight⟩

theorem Tokened.act (h : s.Tokened) (d : Deed) : (s.act d).1.Tokened := by
  cases d with
  | effect e => exact h.perform e
  | announce => exact ⟨h.cancelled, h.inFlight⟩
  | reply ticket outcome => exact ⟨h.cancelled, h.inFlight⟩

theorem Tokened.performAll : ∀ (effects : List Effect) {s : Session}, s.Tokened →
    (s.performAll effects).1.Tokened
  | [], _, h => h
  | e :: rest, _, h => Tokened.performAll rest (h.perform e)

/-! ## Keeping track -/

/-- Once what is left to do is done, the record names the action that the state has running. -/
structure Tracks (s : Session) : Prop extends s.Tokened where
  running : s.stopped = false → ∀ i, s.state.phase = .actionPending i →
    s.deeds.foldl Deed.flight (s.inFlight.map Prod.fst) = some i
  invokes : (s.deeds.filterMap Deed.invoked?).Sublist [s.state.epoch]

theorem Keeps.tracks (h : s.Keeps s') (hs : s.Tracks) : s'.Tracks where
  cancelled := by rw [h.cancelledTokens, h.tokens]; exact hs.cancelled
  inFlight := by rw [h.inFlight, h.cancelledTokens, h.tokens]; exact hs.inFlight
  running := by rw [h.stopped, h.state, h.deeds, h.inFlight]; exact hs.running
  invokes := by rw [h.deeds, h.state]; exact hs.invokes

@[simp] theorem cancelInFlight_deeds (s : Session) : s.cancelInFlight.deeds = s.deeds := by
  unfold cancelInFlight
  split <;> rfl

@[simp] theorem perform_deeds (s : Session) (e : Effect) : (s.perform e).1.deeds = s.deeds := by
  cases e with
  | invokeAction step invocation action => exact cancelInFlight_deeds s
  | cancelAction invocation =>
    simp only [perform]
    split
    · exact cancelInFlight_deeds s
    · rfl
  | _ => rfl

@[simp] theorem act_deeds (s : Session) (d : Deed) : (s.act d).1.deeds = s.deeds := by
  cases d with
  | effect e => exact perform_deeds s e
  | announce => rfl
  | reply ticket outcome => rfl

@[simp] theorem performAll_deeds : ∀ (effects : List Effect) (s : Session),
    (s.performAll effects).1.deeds = s.deeds
  | [], _ => rfl
  | e :: rest, s => (performAll_deeds rest (s.perform e).1).trans (perform_deeds s e)

/-- A deed that is done brings the record on by what it does to it. -/
theorem Tracks.act {deed : Deed} {rest : List Deed} (hs : s.Tracks)
    (hd : s.deeds = deed :: rest) : ({ s with deeds := rest }.act deed).1.Tracks where
  toTokened := Tokened.act (s := { s with deeds := rest }) ⟨hs.cancelled, hs.inFlight⟩ deed
  running := by
    intro hstop i hp
    rw [(act_deals _ deed).stopped] at hstop
    rw [act_state] at hp
    have h := hs.running hstop i hp
    rw [hd, List.foldl_cons] at h
    rw [act_deeds, act_flight]
    exact h
  invokes := by
    have h := hs.invokes
    rw [hd] at h
    rw [act_deeds, act_state]
    refine List.Sublist.trans ?_ h
    exact (List.sublist_cons_self deed rest).filterMap _

theorem Tracks.stop (hs : s.Tracks) (hd : s.deeds = []) : s.stop.Tracks where
  toTokened := ⟨hs.toTokened.cancelInFlight.cancelled, hs.toTokened.cancelInFlight.inFlight⟩
  running := by rintro ⟨⟩
  invokes := by
    change (s.cancelInFlight.deeds.filterMap Deed.invoked?).Sublist _
    rw [cancelInFlight_deeds, hd]
    exact List.nil_sublist _

/-- An event that is handled leaves the deeds to do that the new state needs. -/
theorem Tracks.handle (hs : s.Tracks) (hd : s.deeds = []) (e : Envelope) :
    (s.handle e).Tracks := by
  unfold Session.handle
  split
  · next refusal h =>
    cases he : e.ticket with
    | none => exact hs
    | some ticket => exact ⟨⟨hs.cancelled, hs.inFlight⟩, hs.running, hs.invokes⟩
  · next t h =>
    refine ⟨⟨hs.cancelled, hs.inFlight⟩, fun hstop i hp => ?_, ?_⟩
    · rw [foldl_flight_deedsOf]
      rcases Machine.transition_flight h hp with ⟨hnone, hbefore⟩ | hflight
      · have := hs.running hstop i hbefore
        rw [hd] at this
        rw [hnone]
        exact this
      · exact hflight _
    · rw [invoked_deedsOf]
      exact (Machine.transition_invoked h).1

theorem Tracks.turn (hs : s.Tracks) : s.turn.1.Tracks := by
  rcases turn_cases s with ⟨deed, rest, hd, ht⟩ | ⟨hd, -, ht⟩ | ⟨e, rest, hd, -, -, ht⟩ | ht
  · rw [ht]; exact hs.act hd
  · rw [ht]; exact hs.stop hd
  · rw [ht]
    have hqueue : ({ s with queue := rest } : Session).Tracks :=
      ⟨⟨hs.cancelled, hs.inFlight⟩, hs.running, hs.invokes⟩
    exact hqueue.handle hd e
  · rw [ht]; exact hs

/-- Whatever becomes of a session is a turn of its own or happens beside it. -/
theorem Next.cases (h : s.Next s') : s' = s.turn.1 ∨ s.Beside s' := by
  cases h with
  | same => exact .inr .same
  | turned => exact .inl rfl
  | posted e => exact .inr (.posted e)
  | submitted e site takes => exact .inr (.submitted e site takes)
  | told step site => exact .inr (.told step site)
  | absorbed site => exact .inr (.absorbed site)
  | shut => exact .inr .shut

theorem Next.tracks (h : s.Next s') (hs : s.Tracks) : s'.Tracks := by
  rcases h.cases with rfl | h
  · exact hs.turn
  · exact h.keeps.tracks hs

theorem start_tracks (id : String) (m : Machine) (metadata : Json.Fields) :
    (start id m metadata).1.Tracks where
  toTokened := Tokened.performAll _ ⟨by simp, by simp⟩
  running := by
    intro _ i hp
    rw [start_state] at hp
    rw [start, performAll_deeds, performAll_flight]
    exact Machine.enter_flight hp none
  invokes := by
    rw [start, performAll_deeds]
    exact List.nil_sublist _

end Session

end Dialogue
