import Dialogue.Proofs.Session.Lookup

/-!
What becomes of a session.

From one moment to the next a session stays as it is, takes a turn, is handed an event, takes over
what work left behind, or is told to shut down. `Session.Next` has one case for each of these, and
`turnJob_session` says that a turn of a job does nothing else, and to no other session. All but its
own turns happen beside a session (`Session.Beside`) and leave what it has in hand (`Beside.keeps`).
-/
namespace Dialogue

/-- What one turn of a job can make of a session. -/
inductive Session.Next (s : Session) : Session → Prop where
  | same : Next s s
  | turned : Next s s.turn.1
  | posted (e : Event) : Next s (s.post e)
  | submitted (e : Event) (site : Site) (takes : s.stopped = false) :
      Next s ((s.submit e).2.absorbed site)
  | told (step : String) (site : Site) : Next s ((s.tell (.optionsLoading step)).absorbed site)
  | absorbed (site : Site) : Next s (s.absorbed site)
  | shut : Next s { s with shut := true }

/-- What can happen to a session beside its own turns. -/
inductive Session.Beside (s : Session) : Session → Prop where
  | same : Beside s s
  | posted (e : Event) : Beside s (s.post e)
  | submitted (e : Event) (site : Site) (takes : s.stopped = false) :
      Beside s ((s.submit e).2.absorbed site)
  | told (step : String) (site : Site) : Beside s ((s.tell (.optionsLoading step)).absorbed site)
  | absorbed (site : Site) : Beside s (s.absorbed site)
  | shut : Beside s { s with shut := true }

theorem Session.Beside.next {s s' : Session} (h : s.Beside s') : s.Next s' := by
  cases h with
  | same => exact .same
  | posted e => exact .posted e
  | submitted e site takes => exact .submitted e site takes
  | told step site => exact .told step site
  | absorbed site => exact .absorbed site
  | shut => exact .shut

/-! ## Turns of sessions -/

/-- The session is about to take this event from its queue. -/
structure Session.Takes (s : Session) (e : Envelope) : Prop where
  deeds : s.deeds = []
  shut : s.shut = false
  queue : s.queue.head? = some e

namespace Session

variable {s : Session}

theorem turn_of_deed {deed : Deed} {rest : List Deed} (hd : s.deeds = deed :: rest) :
    s.turn = { s with deeds := rest }.act deed := by
  simp only [turn, hd]

theorem turn_of_shut (hd : s.deeds = []) (hs : s.shut = true) : s.turn = (s.stop, none) := by
  simp only [turn, hd, hs, if_true]

theorem turn_of_event {e : Envelope} {rest : List Envelope} (hd : s.deeds = [])
    (hs : s.shut = false) (hq : s.queue = e :: rest) :
    s.turn = ({ s with queue := rest }.handle e, none) := by
  simp only [turn, hd, hs, hq, Bool.false_eq_true, if_false]

theorem Takes.turn {e : Envelope} (h : s.Takes e) :
    s.turn = ({ s with queue := s.queue.tail }.handle e, none) := by
  obtain ⟨rest, hq⟩ := List.head?_eq_some_iff.1 h.queue
  rw [turn_of_event h.deeds h.shut hq, hq, List.tail_cons]

theorem turn_of_idle (hd : s.deeds = []) (hs : s.shut = false) (hq : s.queue = []) :
    s.turn = (s, none) := by
  simp only [turn, hd, hs, hq, Bool.false_eq_true, if_false]

/-- A turn does the next deed, or stops, or takes the next event, or finds nothing to do. -/
theorem turn_cases (s : Session) :
    (∃ deed rest, s.deeds = deed :: rest ∧ s.turn = { s with deeds := rest }.act deed) ∨
    (s.deeds = [] ∧ s.shut = true ∧ s.turn = (s.stop, none)) ∨
    (∃ e rest, s.deeds = [] ∧ s.shut = false ∧ s.queue = e :: rest ∧
      s.turn = ({ s with queue := rest }.handle e, none)) ∨
    s.turn = (s, none) := by
  cases hd : s.deeds with
  | cons deed rest => exact .inl ⟨deed, rest, rfl, turn_of_deed hd⟩
  | nil =>
    cases hs : s.shut with
    | true => exact .inr (.inl ⟨rfl, rfl, turn_of_shut hd hs⟩)
    | false =>
      cases hq : s.queue with
      | cons e rest =>
        refine .inr (.inr (.inl ⟨e, rest, rfl, rfl, rfl, ?_⟩))
        rw [turn_of_event hd hs hq, hd, hs]
      | nil => exact .inr (.inr (.inr (turn_of_idle hd hs hq)))

end Session

/-! ## What a session keeps -/

/-- The parts of a session that never change. -/
structure Session.Same (s s' : Session) : Prop where
  id : s'.id = s.id
  machine : s'.machine = s.machine
  owner : s'.owner = s.owner

/-- The parts of a session that do not change while it handles events and does deeds. -/
structure Session.Deals (s s' : Session) : Prop extends s.Same s' where
  queue : s'.queue = s.queue
  tickets : s'.tickets = s.tickets
  shut : s'.shut = s.shut
  stopped : s'.stopped = s.stopped

namespace Session

theorem Same.refl (s : Session) : s.Same s := ⟨rfl, rfl, rfl⟩

theorem Same.trans {s s' s'' : Session} (h : s.Same s') (h' : s'.Same s'') : s.Same s'' :=
  ⟨h'.id.trans h.id, h'.machine.trans h.machine, h'.owner.trans h.owner⟩

theorem Deals.refl (s : Session) : s.Deals s := ⟨Same.refl s, rfl, rfl, rfl, rfl⟩

theorem giveReply_deals (s : Session) (ticket : Option Nat) (reply : Reply) :
    s.Deals (s.giveReply ticket reply) := by
  cases ticket <;> exact ⟨⟨rfl, rfl, rfl⟩, rfl, rfl, rfl, rfl⟩

theorem handle_deals (s : Session) (e : Envelope) : s.Deals (s.handle e) := by
  unfold handle
  split
  · exact giveReply_deals s _ _
  · exact ⟨⟨rfl, rfl, rfl⟩, rfl, rfl, rfl, rfl⟩

theorem cancelInFlight_deals (s : Session) : s.Deals s.cancelInFlight := by
  unfold cancelInFlight
  split <;> exact ⟨⟨rfl, rfl, rfl⟩, rfl, rfl, rfl, rfl⟩

theorem perform_deals (s : Session) (e : Effect) : s.Deals (s.perform e).1 := by
  cases e with
  | invokeAction step invocation action =>
    have h := cancelInFlight_deals s
    exact ⟨⟨h.id, h.machine, h.owner⟩, h.queue, h.tickets, h.shut, h.stopped⟩
  | cancelAction invocation =>
    simp only [perform]
    split
    · exact cancelInFlight_deals s
    · exact Deals.refl s
  | _ => exact ⟨⟨rfl, rfl, rfl⟩, rfl, rfl, rfl, rfl⟩

theorem act_deals (s : Session) (d : Deed) : s.Deals (s.act d).1 := by
  cases d with
  | effect e => exact perform_deals s e
  | announce => exact ⟨⟨rfl, rfl, rfl⟩, rfl, rfl, rfl, rfl⟩
  | reply ticket outcome => exact giveReply_deals s (some ticket) (.ok outcome)

theorem stop_same (s : Session) : s.Same s.stop := by
  have h := cancelInFlight_deals s
  exact ⟨h.id, h.machine, h.owner⟩

theorem turn_same (s : Session) : s.Same s.turn.1 := by
  rcases turn_cases s with ⟨deed, rest, -, ht⟩ | ⟨-, -, ht⟩ | ⟨e, rest, -, -, -, ht⟩ | ht
  · rw [ht]
    have h := act_deals { s with deeds := rest } deed
    exact ⟨h.id, h.machine, h.owner⟩
  · rw [ht]; exact stop_same s
  · rw [ht]
    have h := handle_deals { s with queue := rest } e
    exact ⟨h.id, h.machine, h.owner⟩
  · rw [ht]; exact Same.refl s

theorem turn_shut (s : Session) : s.turn.1.shut = s.shut := by
  rcases turn_cases s with ⟨deed, rest, -, ht⟩ | ⟨-, -, ht⟩ | ⟨e, rest, -, -, -, ht⟩ | ht
  · rw [ht]; exact (act_deals _ deed).shut
  · rw [ht]; exact (cancelInFlight_deals s).shut
  · rw [ht]; exact (handle_deals _ e).shut
  · rw [ht]

theorem post_same (s : Session) (e : Event) : s.Same (s.post e) := by
  unfold post
  split <;> exact ⟨rfl, rfl, rfl⟩

/-- What a session has in hand is as it was; it may have been told to shut down. -/
structure Keeps (s s' : Session) : Prop extends s.Same s' where
  state : s'.state = s.state
  deeds : s'.deeds = s.deeds
  inFlight : s'.inFlight = s.inFlight
  tokens : s'.tokens = s.tokens
  cancelledTokens : s'.cancelledTokens = s.cancelledTokens
  stopped : s'.stopped = s.stopped
  shut : s.shut = true → s'.shut = true

theorem Beside.keeps {s s' : Session} (h : s.Beside s') : s.Keeps s' := by
  cases h with
  | posted e =>
    unfold post
    split <;> exact ⟨⟨rfl, rfl, rfl⟩, rfl, rfl, rfl, rfl, rfl, rfl, fun h => h⟩
  | shut => exact ⟨⟨rfl, rfl, rfl⟩, rfl, rfl, rfl, rfl, rfl, rfl, fun _ => rfl⟩
  | _ => exact ⟨⟨rfl, rfl, rfl⟩, rfl, rfl, rfl, rfl, rfl, rfl, fun h => h⟩

theorem Next.toSame {s s' : Session} (h : s.Next s') : s.Same s' := by
  cases h with
  | turned => exact turn_same s
  | posted e => exact post_same s e
  | _ => exact ⟨rfl, rfl, rfl⟩

theorem performAll_deals : ∀ (effects : List Effect) (s : Session),
    s.Deals (s.performAll effects).1
  | [], s => Deals.refl s
  | e :: rest, s => by
    have h := perform_deals s e
    have h' := performAll_deals rest (s.perform e).1
    exact ⟨h.toSame.trans h'.toSame, h'.queue.trans h.queue, h'.tickets.trans h.tickets,
      h'.shut.trans h.shut, h'.stopped.trans h.stopped⟩

@[simp] theorem start_id (id : String) (m : Machine) (metadata : Json.Fields) :
    (start id m metadata).1.id = id :=
  (performAll_deals _ _).id

@[simp] theorem start_queue (id : String) (m : Machine) (metadata : Json.Fields) :
    (start id m metadata).1.queue = [] :=
  (performAll_deals _ _).queue

/-- How a change of a session shows in its queue: it loses events, or one is added that has no
ticket or the next one. -/
theorem Next.queue_cases {s s' : Session} (h : s.Next s') :
    (s'.tickets = s.tickets ∧ s'.queue.Sublist s.queue) ∨
    (∃ e, s'.tickets = s.tickets ∧ s'.queue = s.queue ++ [{ event := e }]) ∨
    ∃ e, s'.tickets = s.tickets + 1 ∧
      s'.queue = s.queue ++ [{ event := e, ticket := some s.tickets }] := by
  cases h with
  | turned =>
    -- A session adds nothing to its own queue: jobs post to it, and clients submit to it.
    refine .inl ?_
    rcases turn_cases s with ⟨deed, rest, -, ht⟩ | ⟨-, -, ht⟩ | ⟨e, rest, -, -, hq, ht⟩ | ht
    · rw [ht]
      have h := act_deals { s with deeds := rest } deed
      exact ⟨h.tickets, by simp [h.queue]⟩
    · rw [ht]
      have h := cancelInFlight_deals s
      exact ⟨h.tickets, List.nil_sublist _⟩
    · rw [ht]
      have h := handle_deals { s with queue := rest } e
      refine ⟨h.tickets, ?_⟩
      rw [h.queue, hq]
      exact List.sublist_cons_self e rest
    · rw [ht]; exact ⟨rfl, .refl _⟩
  | posted e =>
    unfold post
    split
    · exact .inl ⟨rfl, .refl _⟩
    · exact .inr (.inl ⟨e, rfl, rfl⟩)
  | submitted e site takes => exact .inr (.inr ⟨e, rfl, rfl⟩)
  | _ => exact .inl ⟨rfl, .refl _⟩

end Session

/-! ## Turns of jobs -/

/-- Whether the task is to take the events of the session. -/
def Task.isLoop : Task → Bool
  | .loop => true
  | _ => false

/-- A turn of a call leaves the session, tells its listeners that choices are loaded, or submits an
event. -/
theorem Call.turn_session (r : Registry) (site : Site) (s : Session) (c : Call) :
    (c.turn r site s).2.1 = s ∨
      (∃ step, (c.turn r site s).2.1 = s.tell (.optionsLoading step)) ∨
      ∃ e, s.stopped = false ∧ (c.turn r site s).2.1 = (s.submit e).2 := by
  unfold turn
  split
  · exact .inl rfl
  · exact .inr (.inl ⟨_, rfl⟩)
  · exact .inl rfl
  · exact .inl rfl
  · exact .inl rfl
  · exact .inl rfl
  · exact .inl rfl
  · next e purpose =>
    cases hs : s.stopped with
    | true => exact .inl rfl
    | false => exact .inr (.inr ⟨e, rfl, rfl⟩)
  · split <;> exact .inl rfl
  · exact .inl rfl
  · exact .inl rfl

theorem Call.turn_id (r : Registry) (site : Site) (s : Session) (c : Call) :
    (c.turn r site s).2.1.id = s.id := by
  rcases turn_session r site s c with h | ⟨step, h⟩ | ⟨e, -, h⟩ <;> rw [h] <;> rfl

namespace World

variable {w : World} {j : Job} {s : Session}

/-- Of all sessions only this one has been replaced. -/
def Replaces (w w' : World) (s s' : Session) : Prop :=
  ∀ id, w'.session? id = if id = s.id then some s' else w.session? id

theorem replaces_refl (hs : w.session? s.id = some s) : Replaces w w s s := by
  intro id
  by_cases hid : id = s.id
  · rw [if_pos hid, hid, hs]
  · rw [if_neg hid]

theorem replaces_putSession {s' : Session} (h : s'.id = s.id) :
    Replaces w (w.putSession s') s s' := by
  intro id
  rw [session?_putSession, h]

theorem replaces_absorb {s' : Session} (site : Site) (h : s'.id = s.id) :
    Replaces w (w.absorb s' site) s (s'.absorbed site) := by
  intro id
  rw [session?_absorb, h]

theorem turnAction_session (hs : w.session? s.id = some s) (token : Nat) (invocation : Epoch)
    (progress : Progress ActionResult) :
    ∃ s', s.Beside s' ∧ Replaces w (w.turnAction j s token invocation progress) s s' := by
  unfold turnAction
  split
  · split <;> exact ⟨s, .same, replaces_refl hs⟩
  · exact ⟨s, .same, replaces_refl hs⟩
  · exact ⟨_, .absorbed _, replaces_absorb _ rfl⟩

theorem turnDisplay_session (hs : w.session? s.id = some s) (epoch : Epoch) (untilMs : Nat) :
    ∃ s', s.Beside s' ∧ Replaces w (w.turnDisplay j s epoch untilMs) s s' := by
  unfold turnDisplay
  split
  · exact ⟨s, .same, replaces_refl hs⟩
  · split
    · exact ⟨_, .posted _, replaces_putSession (s.post_same _).id⟩
    · exact ⟨s, .same, replaces_refl hs⟩

theorem turnRetention_session (hs : w.session? s.id = some s) (untilMs : Option Nat) :
    ∃ s', s.Beside s' ∧ Replaces w (w.turnRetention j s untilMs) s s' := by
  unfold turnRetention
  split
  · exact ⟨s, .same, replaces_refl hs⟩
  · split
    · split <;> exact ⟨s, .same, replaces_refl hs⟩
    · split
      · exact ⟨_, .shut, fun id => session?_putSession _ _ id⟩
      · exact ⟨s, .same, replaces_refl hs⟩

theorem turnLoop_session : Replaces w (w.turnLoop j s) s s.turn.1 := by
  intro id
  have h := replaces_putSession (w := w) s.turn_same.id id
  simp only [turnLoop]
  split
  · rw [session?_endJob, session?_spawnStarted, h]
  · rw [session?_spawnStarted, h]

theorem turnCall_eq (w : World) (j : Job) (s : Session) (c : Call) :
    w.turnCall j s c =
      (w.absorb (c.turn w.registry (w.site s false) s).2.1
        (c.turn w.registry (w.site s false) s).2.2).setTask j.id
          (.call (c.turn w.registry (w.site s false) s).1) := rfl

theorem turnCall_session (c : Call) : ∃ s', s.Beside s' ∧ Replaces w (w.turnCall j s c) s s' := by
  refine ⟨(c.turn w.registry (w.site s false) s).2.1.absorbed
    (c.turn w.registry (w.site s false) s).2.2, ?_, fun id => ?_⟩
  · rcases Call.turn_session w.registry (w.site s false) s c with h | ⟨step, h⟩ | ⟨e, ht, h⟩
    · rw [h]; exact .absorbed _
    · rw [h]; exact .told step _
    · rw [h]; exact .submitted e _ ht
  · rw [turnCall_eq, session?_setTask]
    exact replaces_absorb _ (Call.turn_id _ _ _ _) id

/-- Whatever a job does in its turn, it does to its own session: a loop gives the session its turn,
and any other job does something beside it. -/
theorem turnJob_session (hs : w.session? s.id = some s) (j : Job) :
    ∃ s', (if j.task.isLoop then s' = s.turn.1 else s.Beside s') ∧
      Replaces w (w.turnJob j s) s s' := by
  obtain ⟨k, sid, task⟩ := j
  cases task with
  | loop => exact ⟨s.turn.1, rfl, turnLoop_session⟩
  | action token invocation progress => exact turnAction_session hs _ _ _
  | report invocation result => exact ⟨_, .posted _, replaces_putSession (s.post_same _).id⟩
  | display epoch untilMs => exact turnDisplay_session hs _ _
  | retention untilMs => exact turnRetention_session hs _
  | feed f => exact ⟨s, .same, replaces_refl hs⟩
  | call c => exact turnCall_session c

end World

end Dialogue
