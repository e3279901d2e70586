import Dialogue.Proofs.Session.Cancellation
import Dialogue.Proofs.Session.Listing
import Dialogue.Proofs.Session.Submission

/-!
How long a session can be found.

Each session has a retention of its own, which waits for the conversation to complete and then for a
time, and runs beside all else. `live_ledger` says that the list of sessions is exact nevertheless,
at every moment when nothing that was spawned can go on: it has the sessions that were created, not
dismissed since, and not completed for the time of the retention. These are open; all others have
stopped for good and turn down whoever still reaches them; and no dismissal touches another session.

The time of a completion is exact if the clock moves on only when nothing can go on before it does
(`World.isOrderly`). Whatever the clock does, a session is not forgotten before its time, and it is
in no list that is so much later than a quiet moment at which it had completed. A clock that is not
orderly can keep it in the list for longer, and a client that shuts a session down keeps it there
for good (`live_ledger_late`).
-/
namespace Dialogue

/-! ## Completed conversations -/

namespace Machine

variable {m : Machine} {s : State}

theorem phase_of_completed (hs : s.isCompleted = true) : s.phase = .completed := by
  cases hp : s.phase with
  | completed => rfl
  | _ => rw [State.isCompleted, hp] at hs; cases hs

/-- A completed conversation accepts nothing. -/
theorem after_completed (hs : s.isCompleted = true) (e : Event) : m.after s e = s := by
  cases ht : m.transition s e with
  | error refusal => exact after_of_error ht
  | ok t =>
    obtain ⟨step, -, ha⟩ := accepts_of_transition ht
    have hphase : s.phase = .completed := phase_of_completed hs
    cases ha with
    | answered value answered id waits named leads =>
      rcases waits with h | ⟨error, retryable, h⟩ <;> (rw [hphase] at h; cases h)
    | advanced epoch id current ready leads => rw [hphase] at ready; cases ready
    | completed value id going awaits leads => exact absurd hphase going
    | retried error retryable action failed runs => rw [hphase] at failed; cases failed
    | failed i result running failure => rw [hphase] at running; cases running
    | held i result running success stays => rw [hphase] at running; cases running
    | settled i result id running success leads => rw [hphase] at running; cases running
    | loaded choices going => exact absurd hphase going

theorem foldl_after_completed (hs : s.isCompleted = true) : ∀ events : List Event,
    events.foldl m.after s = s
  | [] => rfl
  | e :: rest => by
    rw [List.foldl_cons, after_completed hs]
    exact foldl_after_completed hs rest

end Machine

/-! ## Turns of one job -/

/-- Whether the move is a turn of the job. -/
def Move.isTurnOf (k : Nat) : Move → Bool
  | .turn job => job = k
  | _ => false

namespace World

variable {w : World} {sid : String} {mv : Move}

/-! ## Jobs of a session -/

/-- A spawned job changes in its own turns only. -/
theorem move_job (hw : w.Sound) {j : Job} {k : Nat} (hj : w.job? k = some j)
    (spawned : j.task.isClients = false) (hmv : mv ≠ .turn k) : (w.move mv).job? k = some j := by
  have hk : k < w.jobCount := job?_id hj ▸ hw.counted j (List.mem_of_find?_eq_some hj)
  by_cases hown : mv.job? = some k
  · cases mv with
    | turn k' => cases hown; exact absurd rfl hmv
    | drop k' =>
      cases hown
      simp only [World.move, hj, Option.any_some, spawned, Bool.false_eq_true, if_false]
    | _ => cases hown
  · rw [(w.move_spares mv).others k hk hown, hj]

/-- A session starts with a loop and a retention. -/
theorem create_jobs (hw : w.Sound) (id : String) (m : Machine) (metadata : Json.Fields) :
    (∃ k, (w.create id m metadata).job? k = some ⟨k, id, .loop⟩) ∧
      ∃ k, (w.create id m metadata).job? k = some ⟨k, id, .retention none⟩ := by
  let started := (w.putSession (Session.start id m metadata).1).spawnStarted id
    (Session.start id m metadata).2
  have hstarted : started.Counted := (spawnStarted_spares id none _ _).counted hw.counted
  have hlooped : (started.spawn id .loop).Counted := (spawn_spares _ id .loop none).counted hstarted
  refine ⟨⟨started.jobCount, ?_⟩, started.jobCount + 1, job?_spawn_new hlooped id _⟩
  refine (job?_spawn { started.spawn id .loop with live := _ } id (.retention none) _).trans ?_
  exact congrArg (Option.or · _) (job?_spawn_new hstarted id .loop)

/-- A loop goes on until its session has stopped. -/
theorem loop_turn (hw : w.Sound) {k : Nat} (hj : w.job? k = some ⟨k, sid, .loop⟩) {s : Session}
    (hs : w.session? sid = some s) : (w.turn k).job? k = some ⟨k, sid, .loop⟩ ∨
      ∃ s', (w.turn k).session? sid = some s' ∧ s'.stopped = true := by
  have hk : k < w.jobCount := hw.counted _ (List.mem_of_find?_eq_some hj)
  have hid : s.turn.1.id = sid := s.turn_same.id.trans (hw.keyed _ _ hs)
  unfold turn
  simp only [hj, hs]
  split
  · change (w.turnLoop _ s).job? k = _ ∨ ∃ s', (w.turnLoop _ s).session? sid = _ ∧ _
    simp only [turnLoop]
    split
    · next hstop =>
      refine .inr ⟨s.turn.1, ?_, hstop⟩
      rw [session?_endJob, session?_spawnStarted, session?_putSession, hid, if_pos rfl]
    · refine .inl ?_
      exact (job?_spawnStarted_of_lt _ _ (w.putSession _) hk).trans hj
  · exact .inl hj

/-- Every session that has not stopped has a loop. -/
def Looped (w : World) : Prop :=
  ∀ sid s, w.session? sid = some s → s.stopped = false → ∃ k, w.job? k = some ⟨k, sid, .loop⟩

theorem Looped.move (hw : w.Sound) (hl : w.Looped) (mv : Move) : (w.move mv).Looped := by
  intro sid s' hs' hrun
  cases hs : w.session? sid with
  | some s =>
    obtain ⟨t, ht, hn⟩ := move_session hw hs mv
    rw [hs'] at ht
    cases ht
    have hbefore : s.stopped = false :=
      Bool.eq_false_iff.2 fun h => by rw [hn.stopped h] at hrun; cases hrun
    obtain ⟨k, hk⟩ := hl sid s hs hbefore
    by_cases hmv : mv = .turn k
    · subst hmv
      rcases loop_turn hw hk hs with h | ⟨t, ht, hstop⟩
      · exact ⟨k, h⟩
      · rw [World.move, ht] at hs'
        cases hs'
        rw [hrun] at hstop
        cases hstop
    · exact ⟨k, move_job hw hk rfl hmv⟩
  | none =>
    rcases move_session_none hw hs mv with hn | ⟨m, metadata, rfl, -⟩
    · rw [hs'] at hn; cases hn
    · simp only [World.move, hs]
      exact (create_jobs hw sid m metadata).1

/-! ## Quiet moments -/

/-- Nothing that was spawned can go on; only clients can. -/
def isQuiet (w : World) : Bool := w.jobs.all fun j => j.task.isClients || !w.canTurn j

/-- Whether the clock moves on only when nothing that was spawned can go on. -/
def isOrderly : World → List Move → Bool
  | _, [] => true
  | w, mv :: rest => (!mv.isClock || w.isQuiet) && isOrderly (w.move mv) rest

theorem canTurn_of_quiet (h : w.isQuiet = true) {k : Nat} {j : Job} (hj : w.job? k = some j)
    (spawned : j.task.isClients = false) : w.canTurn j = false := by
  have hall := List.all_eq_true.1 h j (List.mem_of_find?_eq_some hj)
  rw [spawned, Bool.false_or, Bool.not_eq_true'] at hall
  exact hall

/-- In a quiet moment a session that was told to shut down has stopped. -/
theorem stopped_of_quiet (hl : w.Looped) (h : w.isQuiet = true) {s : Session}
    (hs : w.session? sid = some s) (hshut : s.shut = true) : s.stopped = true := by
  cases hrun : s.stopped with
  | true => rfl
  | false =>
    obtain ⟨k, hk⟩ := hl sid s hs hrun
    have hcan := canTurn_of_quiet h hk rfl
    simp [canTurn, hs, Session.canTurn, hrun, hshut] at hcan

/-! ## The time of a completion -/

/-- Whether a conversation has completed. -/
def completed (w : World) (sid : String) : Bool :=
  (w.session? sid).any fun s => s.state.isCompleted

theorem completed_iff : w.completed sid = true ↔
    ∃ s, w.session? sid = some s ∧ s.state.isCompleted = true := by
  rw [completed, Option.any_eq_true]

theorem completed_later (hw : w.Sound) (h : w.completed sid = true) (moves : List Move) :
    (w.run moves).completed sid = true := by
  obtain ⟨s, hs, hc⟩ := completed_iff.1 h
  obtain ⟨s', hs', -, hstate⟩ := run_state_later hw hs moves
  refine completed_iff.2 ⟨s', hs', ?_⟩
  rw [hstate, Machine.foldl_after_completed hc, hc]

/-- At an earlier moment the conversation had completed, and the time of the retention has passed
since. -/
structure Overdue (w : World) (sid : String) (moves before : List Move) : Prop where
  earlier : before <+: moves
  completed : (w.run before).completed sid = true
  passed : (w.run before).host.nowMs + w.retentionMs ≤ (w.run moves).host.nowMs

/-- The deadline is the time of the retention after a moment at which the conversation had
completed. -/
def DatedBy (w : World) (moves : List Move) (j : Job) : Prop :=
  ∀ t, j.task = .retention (some t) → ∃ before, before <+: moves ∧
    (w.run before).completed j.session = true ∧ t = (w.run before).host.nowMs + w.retentionMs

theorem run_datedBy (hw : w.Sound) (hjobs : w.jobs = []) (moves : List Move) :
    (w.run moves).JobsAll (w.DatedBy moves) := by
  induction moves using List.reverseRecOn with
  | nil =>
    intro k j hj
    rw [run_nil, job?, hjobs] at hj
    cases hj
  | append_singleton moves mv ih =>
    have hsound := run_sound hw moves
    have hbefore : (w.run moves).JobsAll (w.DatedBy (moves ++ [mv])) := by
      intro k j hj t ht
      obtain ⟨before, hp, h⟩ := ih k j hj t ht
      exact ⟨before, hp.trans (List.prefix_append _ _), h⟩
    rw [run_concat]
    refine hbefore.move (fun k sid task undated t ht => ?_) mv fun k sid hdates t ht => ?_
    · dsimp only at ht
      rw [ht] at undated
      cases undated
    · -- The deadline is counted from this moment.
      obtain ⟨s, hs, hc⟩ := hdates.completed
      cases ht
      refine ⟨moves, List.prefix_append _ _, completed_iff.2 ⟨s, hs, hc⟩, ?_⟩
      rw [run_retentionMs hw]

/-- A retention runs for the session. It has its deadline since the first quiet moment at which the
conversation had completed, if there was one. -/
def Watched (w : World) (moves : List Move) (sid : String) : Prop :=
  ∃ k untilMs, (w.run moves).job? k = some ⟨k, sid, .retention untilMs⟩ ∧
    ∀ before, before <+: moves → (w.run before).completed sid = true →
      (w.run before).isQuiet = true →
        ∃ t, untilMs = some t ∧ t ≤ (w.run before).host.nowMs + w.retentionMs

/-- A retention that waits in a quiet moment does not wait for the completion, and its deadline is
still to come. -/
theorem due_of_quiet {k : Nat} {untilMs : Option Nat} (hw : w.isQuiet = true)
    (hj : w.job? k = some ⟨k, sid, .retention untilMs⟩) (hc : w.completed sid = true) :
    ∃ t, untilMs = some t ∧ w.host.nowMs < t := by
  obtain ⟨s, hs, hc⟩ := completed_iff.1 hc
  have hcan := canTurn_of_quiet hw hj rfl
  cases untilMs with
  | none => simp [canTurn, hs, hc] at hcan
  | some t =>
    refine ⟨t, rfl, ?_⟩
    simp only [canTurn, hs, Bool.or_eq_false_iff, decide_eq_false_iff_not] at hcan
    omega

/-- What becomes of a retention in its own turn, if its session is not dismissed. -/
theorem retention_turn {k : Nat} {untilMs : Option Nat}
    (hj : w.job? k = some ⟨k, sid, .retention untilMs⟩) (hw : w.Sound)
    (hopen : (w.turn k).shut? sid = some false) :
    (w.turn k).job? k = some ⟨k, sid, .retention untilMs⟩ ∨ (untilMs = none ∧
      (w.turn k).job? k = some ⟨k, sid, .retention (some (w.host.nowMs + w.retentionMs))⟩) := by
  unfold turn at hopen ⊢
  simp only [hj] at hopen ⊢
  cases hs : w.session? sid with
  | none => exact .inl hj
  | some s =>
    simp only [hs] at hopen ⊢
    split
    · next hcan =>
      rw [if_pos hcan] at hopen
      change (w.turnRetention _ s untilMs).shut? sid = _ at hopen
      change (w.turnRetention _ s untilMs).job? k = _ ∨ _ ∧ (w.turnRetention _ s untilMs).job? k = _
      rcases turnRetention_cases w ⟨k, sid, .retention untilMs⟩ s untilMs with
        ⟨hshut, h⟩ | ⟨-, hnone, -, h⟩ | ⟨-, -, h⟩ | h
      · rw [h] at hopen
        have hsame := (w.endJob_steady k).shut sid
        rw [hsame, shut?, hs, Option.map_some, hshut] at hopen
        cases hopen
      · refine .inr ⟨hnone, ?_⟩
        rw [h, job?_setTask, hj]
        simp
      · rw [h, (endJob_steady _ k).shut, forget_shut?, if_pos (hw.keyed _ _ hs).symm] at hopen
        cases hopen
      · rw [h]; exact .inl hj
    · exact .inl hj

theorem watched_concat (hw : w.Empty) {moves : List Move} {k : Nat} {untilMs : Option Nat}
    (hj : (w.run (moves ++ [mv])).job? k = some ⟨k, sid, .retention untilMs⟩)
    (past : ∀ before, before <+: moves → (w.run before).completed sid = true →
      (w.run before).isQuiet = true →
        ∃ t, untilMs = some t ∧ t ≤ (w.run before).host.nowMs + w.retentionMs) :
    w.Watched (moves ++ [mv]) sid := by
  refine ⟨k, untilMs, hj, fun before hp hc hquiet => ?_⟩
  rcases List.prefix_concat_iff.1 hp with rfl | hp
  · obtain ⟨t, rfl, -⟩ := due_of_quiet hquiet hj hc
    obtain ⟨before, ⟨after, hbefore⟩, -, ht⟩ := run_datedBy hw.sound hw.jobs _ k _ hj t rfl
    have hnow := le_run_nowMs hw.sound before after
    rw [hbefore] at hnow
    exact ⟨t, rfl, by omega⟩
  · exact past before hp hc hquiet

/-- A session that can be found has a retention. -/
theorem run_watched (hw : w.Empty) (moves : List Move) :
    ∀ sid, (w.run moves).shut? sid = some false → w.Watched moves sid := by
  induction moves using List.reverseRecOn with
  | nil =>
    intro sid h
    rw [run_nil, shut?, session?, hw.sessions] at h
    cases h
  | append_singleton moves mv ih =>
    intro sid hopen
    have hsound := run_sound hw.sound moves
    cases hs : (w.run moves).session? sid with
    | none =>
      rcases move_session_none hsound hs mv with hn | ⟨m, metadata, rfl, -⟩
      · rw [run_concat, shut?, hn] at hopen; cases hopen
      · obtain ⟨k, hk⟩ := (create_jobs hsound sid m metadata).2
        have hretained : (w.run (moves ++ [.create sid m metadata])).job? k =
            some ⟨k, sid, .retention none⟩ := by
          rw [run_concat]
          simp only [World.move, hs]
          exact hk
        refine watched_concat hw hretained fun before hp hc _ => ?_
        -- A session that there was not before has not completed before.
        obtain ⟨after, rfl⟩ := hp
        have hlater := completed_later (run_sound hw.sound before) hc after
        rw [← run_append] at hlater
        obtain ⟨s, hsome, -⟩ := completed_iff.1 hlater
        rw [hs] at hsome
        cases hsome
    | some s =>
      obtain ⟨s', hs', hn⟩ := move_session hsound hs mv
      have hbefore : (w.run moves).shut? sid = some false := by
        rw [run_concat, shut?, hs', Option.map_some, Option.some.injEq] at hopen
        have hunshut : s.shut = false :=
          Bool.eq_false_iff.2 fun h => by rw [hn.keepsShut h] at hopen; cases hopen
        rw [shut?, hs, Option.map_some, hunshut]
      obtain ⟨k, untilMs, hk, past⟩ := ih sid hbefore
      by_cases hmv : mv = .turn k
      · subst hmv
        rw [run_concat] at hopen
        rcases retention_turn hk hsound hopen with h | ⟨rfl, h⟩
        · exact watched_concat hw (by rw [run_concat]; exact h) past
        · refine watched_concat hw (by rw [run_concat]; exact h) fun before hp hc hquiet => ?_
          obtain ⟨t, ht, -⟩ := past before hp hc hquiet
          cases ht
      · exact watched_concat hw (by rw [run_concat]; exact move_job hsound hk rfl hmv) past

theorem Overdue.concat (hw : w.Sound) {moves before : List Move}
    (h : w.Overdue sid moves before) (mv : Move) : w.Overdue sid (moves ++ [mv]) before :=
  ⟨h.earlier.trans (List.prefix_append _ _), h.completed,
    Nat.le_trans h.passed (le_run_nowMs hw moves [mv])⟩

/-- A session that was told to shut down was dismissed, or it had completed long ago. -/
theorem run_shut (hw : w.Empty) {moves : List Move} (unshut : ∀ id, .shutDown id ∉ moves)
    (hshut : (w.run moves).shut? sid = some true) :
    Dismissed sid moves ∨ ∃ before, w.Overdue sid moves before := by
  induction moves using List.reverseRecOn with
  | nil =>
    rw [run_nil, shut?, session?, hw.sessions] at hshut
    cases hshut
  | append_singleton moves mv ih =>
    have hsound := run_sound hw.sound moves
    rw [run_concat] at hshut
    cases hbefore : (w.run moves).shut? sid with
    | none =>
      have hs : (w.run moves).session? sid = none := Option.map_eq_none_iff.1 hbefore
      rcases move_session_none hsound hs mv with hn | ⟨m, metadata, -, hn⟩
      · rw [shut?, hn] at hshut; cases hshut
      · rw [shut?, hn, Option.map_some, Session.start_shut] at hshut; cases hshut
    | some shut =>
      cases shut with
      | true =>
        rcases ih (fun id h => unshut id (List.mem_append_left _ h)) hbefore with h | ⟨before, h⟩
        · exact .inl (h.concat mv)
        · exact .inr ⟨before, h.concat hw.sound mv⟩
      | false =>
        obtain ⟨s, hs, -⟩ := Option.map_eq_some_iff.1 hbefore
        have hmv (id : String) : mv ≠ .shutDown id := by
          rintro rfl
          exact unshut id (List.mem_append_right _ (List.mem_singleton_self _))
        rcases shut_cases hsound hbefore hshut hmv with h | ⟨k, j, t, hj, rfl, ht, hnow⟩
        · exact .inl ⟨moves, mv, [], rfl, (created_iff hw moves).2 ⟨s, hs⟩, h⟩
        · obtain ⟨before, hp, hc, hdate⟩ := run_datedBy hw.sound hw.jobs moves k j hj t ht
          have hover : w.Overdue j.session moves before := ⟨hp, hc, by omega⟩
          exact .inr ⟨before, hover.concat hw.sound mv⟩

/-! ## The clock between quiet moments -/

theorem isOrderly_append : ∀ (before after : List Move) (w : World),
    w.isOrderly (before ++ after) = (w.isOrderly before && (w.run before).isOrderly after)
  | [], _, _ => rfl
  | mv :: before, after, w => by
    rw [List.cons_append, isOrderly, isOrderly, isOrderly_append before after, Bool.and_assoc]
    rfl

/-- Where the clock is orderly, every moment is followed by a quiet one at the same time. -/
theorem quiet_later : ∀ (moves : List Move) {w : World}, w.Sound → w.isOrderly moves = true →
    (w.run moves).isQuiet = true → ∃ between, between <+: moves ∧
      (w.run between).isQuiet = true ∧ (w.run between).host.nowMs = w.host.nowMs
  | [], w, _, _, hquiet => ⟨[], List.prefix_refl _, hquiet, rfl⟩
  | mv :: rest, w, hw, horderly, hquiet => by
    rw [isOrderly, Bool.and_eq_true] at horderly
    cases hmv : mv.isClock with
    | true =>
      rw [hmv, Bool.not_true, Bool.false_or] at horderly
      exact ⟨[], List.nil_prefix, horderly.1, rfl⟩
    | false =>
      obtain ⟨between, hp, hbetween, hnow⟩ :=
        quiet_later rest (move_sound hw mv) horderly.2 hquiet
      exact ⟨mv :: between, List.cons_prefix_cons.2 ⟨rfl, hp⟩, hbetween,
        hnow.trans (move_timeless hw hmv).nowMs⟩

/-- Where the clock is orderly, what is overdue has been so since a quiet moment. -/
theorem Overdue.quiet (hw : w.Sound) {moves before : List Move} (h : w.Overdue sid moves before)
    (horderly : w.isOrderly moves = true) (hquiet : (w.run moves).isQuiet = true) :
    ∃ later, w.Overdue sid moves later ∧ (w.run later).isQuiet = true := by
  obtain ⟨after, rfl⟩ := h.earlier
  rw [isOrderly_append, Bool.and_eq_true] at horderly
  rw [run_append] at hquiet
  have hsound := run_sound hw before
  obtain ⟨between, ⟨rest, rfl⟩, hbetween, hnow⟩ :=
    quiet_later after hsound horderly.2 hquiet
  have hcompleted := completed_later hsound h.completed between
  have hpassed := h.passed
  rw [← run_append] at hbetween hnow hcompleted
  refine ⟨before ++ between, ⟨⟨rest, by simp⟩, hcompleted, ?_⟩, hbetween⟩
  rw [hnow]
  exact hpassed

/-! ## Reaching a session that has stopped -/

/-- How far a call has come after so many turns that meets a session that has stopped. -/
def turnedDown (e : Event) (purpose : Purpose) : Nat → Call → Prop
  | 0, c => c = .submit e purpose
  | 1, c => c = .close (.failed .closed)
  | _ + 2, c => ∃ snapshot, c = .finished (.failed .closed) snapshot

theorem turn_turnedDown {e : Event} {purpose : Purpose} {n : Nat} {c : Call} {r : Registry}
    {site : Site} {s : Session} (hstop : s.stopped = true) (h : turnedDown e purpose n c) :
    turnedDown e purpose (n + 1) (c.turn r site s).1 := by
  match n with
  | 0 =>
    rw [turnedDown] at h
    simp [h, Call.turn, hstop, turnedDown]
  | 1 =>
    rw [turnedDown] at h
    rw [h]
    exact ⟨_, rfl⟩
  | n + 2 =>
    obtain ⟨snapshot, rfl⟩ := h
    exact ⟨snapshot, rfl⟩

theorem turnedDown_ended {e : Event} {purpose : Purpose} {n : Nat} {c : Call} {site : Site}
    {s : Session} (hcan : c.canTurn site s = false) (h : turnedDown e purpose n c) :
    turnedDown e purpose (n + 1) c := by
  match n with
  | 0 => rw [turnedDown] at h; rw [h] at hcan; cases hcan
  | 1 => rw [turnedDown] at h; rw [h] at hcan; cases hcan
  | n + 2 => exact h

/-- A call that meets a session that has stopped is turned down, turn by turn. -/
theorem run_turnedDown (hw : w.Sound) {s : Session} (hs : w.session? sid = some s)
    (hstop : s.stopped = true) {k : Nat} {e : Event} {purpose : Purpose}
    (hk : w.job? k = some ⟨k, sid, .call (.submit e purpose)⟩) {moves : List Move}
    (kept : .drop k ∉ moves) : ∃ c, (w.run moves).job? k = some ⟨k, sid, .call c⟩ ∧
      turnedDown e purpose (moves.countP (·.isTurnOf k)) c := by
  induction moves using List.reverseRecOn with
  | nil => exact ⟨_, hk, rfl⟩
  | append_singleton moves mv ih =>
    obtain ⟨c, hc, hstage⟩ := ih fun h => kept (List.mem_append_left _ h)
    have hsound := run_sound hw moves
    obtain ⟨t, ht, hstopped⟩ := run_session_later (P := fun s => s.stopped = true)
      (fun _ _ h hn => hn.stopped h) moves hw hs hstop
    rw [run_concat, List.countP_append, List.countP_singleton]
    have hlt : k < (w.run moves).jobCount :=
      job?_id hc ▸ hsound.counted _ (List.mem_of_find?_eq_some hc)
    cases hmv : mv.isTurnOf k with
    | true =>
      cases mv with
      | turn job =>
        have hjob : job = k := of_decide_eq_true hmv
        subst hjob
        rcases turn_call hc ht (hsound.keyed _ _ ht) with ⟨hsame, hcan⟩ | ⟨hturned, -⟩
        · exact ⟨c, by rw [World.move, hsame, hc], turnedDown_ended hcan hstage⟩
        · exact ⟨_, hturned, turn_turnedDown hstopped hstage⟩
      | _ => cases hmv
    | false =>
      refine ⟨c, ?_, hstage⟩
      rw [((w.run moves).move_spares mv).others k hlt ?_, hc]
      cases mv with
      | turn job =>
        rintro ⟨⟩
        exact Bool.noConfusion (hmv.symm.trans (decide_eq_true rfl))
      | drop job =>
        rintro ⟨⟩
        exact kept (List.mem_append_right _ (List.mem_singleton_self _))
      | _ => rintro ⟨⟩

/-! ## The ledger -/

/-- A session that cannot be found any more: it has stopped for good, its actions are cancelled, and
whoever still reaches it is turned down after two turns. -/
structure Gone (w : World) (sid : String) (s : Session) : Prop extends s.Rests where
  session : w.session? sid = some s
  closed : s.isClosed = true
  cancelled : ∀ token, s.isCancelled token = true
  refuses : ∀ e moves, .drop w.jobCount ∉ moves → 2 ≤ moves.countP (·.isTurnOf w.jobCount) →
    ∃ snapshot, (w.run (.ask sid (.dispatch e) :: moves)).result? w.jobCount =
      some (.failed .closed, snapshot)

/-- What is right of a session in a quiet moment after the moves. -/
structure Entered (w : World) (moves : List Move) (sid : String) : Prop where
  /-- It can be found if it was created, not dismissed since, and not completed for so long. -/
  listed : w.isOrderly moves = true → (sid ∈ (w.run moves).live ↔
    Created sid moves ∧ ¬ Dismissed sid moves ∧ ∀ before, ¬ w.Overdue sid moves before)
  /-- Whatever the clock does, it can be found until its time has come. -/
  early : Created sid moves → ¬ Dismissed sid moves → (∀ before, ¬ w.Overdue sid moves before) →
    sid ∈ (w.run moves).live
  /-- Whatever the clock does, it cannot be found if it had completed in a quiet moment so long
  ago. -/
  late : sid ∈ (w.run moves).live → Created sid moves ∧ ¬ Dismissed sid moves ∧
    ∀ before, w.Overdue sid moves before → (w.run before).isQuiet = false
  found : sid ∈ (w.run moves).live → ∃ s, (w.run moves).session? sid = some s ∧ s.isClosed = false
  gone : Created sid moves → sid ∉ (w.run moves).live → ∃ s, (w.run moves).Gone sid s

theorem run_stopsIdle (hw : w.Empty) (moves : List Move) {s : Session}
    (hs : (w.run moves).session? sid = some s) : s.StopsIdle :=
  run_session Session.start_stopsIdle (fun _ _ h hn => hn.stopsIdle h) hw moves sid s hs

theorem run_looped (hw : w.Empty) (moves : List Move) : (w.run moves).Looped := by
  refine (run_induction (P := fun w => w.Sound ∧ w.Looped)
    (fun w mv h => ⟨move_sound h.1 mv, h.2.move h.1 mv⟩) moves w ⟨hw.sound, ?_⟩).2
  intro sid s hs
  rw [session?, hw.sessions] at hs
  cases hs

/-- A session that has stopped is gone. -/
theorem gone_of_stopped (hw : w.Sound) {s : Session} (hs : w.session? sid = some s)
    (hidle : s.StopsIdle) (hstop : s.stopped = true) : w.Gone sid s where
  toRests := hidle hstop
  session := hs
  closed := by rw [Session.isClosed, hstop, Bool.or_true]
  cancelled token := by rw [Session.isCancelled, (hidle hstop).shut, Bool.true_or]
  refuses := by
    intro e moves kept turns
    have hasked := ask_job hw.counted hs (.dispatch e)
    obtain ⟨s', hs', hn⟩ := move_session hw hs (.ask sid (.dispatch e))
    obtain ⟨c, hc, hstage⟩ :=
      run_turnedDown (move_sound hw _) hs' (hn.stopped hstop) hasked kept
    obtain ⟨n, hn⟩ := Nat.exists_eq_add_of_le' turns
    rw [hn] at hstage
    obtain ⟨snapshot, rfl⟩ := hstage
    refine ⟨snapshot, ?_⟩
    change (((w.move (.ask sid (.dispatch e))).run moves)).result? w.jobCount = _
    rw [result?, hc]

theorem not_overdue_of_live (hw : w.Empty) {moves : List Move} (hl : (w.run moves).Listed)
    (hquiet : (w.run moves).isQuiet = true) (hlive : sid ∈ (w.run moves).live)
    {before : List Move} (h : w.Overdue sid moves before) : (w.run before).isQuiet = false := by
  refine Bool.eq_false_iff.2 fun hbefore => ?_
  obtain ⟨k, untilMs, hk, hdue⟩ := run_watched hw moves sid ((hl.live sid).1 hlive)
  obtain ⟨t, rfl, ht⟩ := hdue before h.earlier h.completed hbefore
  -- The conversation is completed still, so the retention waits for its deadline.
  obtain ⟨after, hafter⟩ := h.earlier
  have hcompleted := completed_later (run_sound hw.sound before) h.completed after
  rw [← run_append, hafter] at hcompleted
  obtain ⟨t', ht', hnow⟩ := due_of_quiet hquiet hk hcompleted
  cases ht'
  have hpassed := h.passed
  omega

theorem run_entered (hw : w.Empty) (hlive : w.live = []) {moves : List Move}
    (unshut : ∀ id, .shutDown id ∉ moves) (hquiet : (w.run moves).isQuiet = true)
    (sid : String) : w.Entered moves sid := by
  have hl := run_listed hw hlive unshut
  have early (hcreated : Created sid moves) (hkept : ¬ Dismissed sid moves)
      (hfresh : ∀ before, ¬ w.Overdue sid moves before) : sid ∈ (w.run moves).live := by
    obtain ⟨s, hs⟩ := (created_iff hw moves).1 hcreated
    by_contra hout
    have hshut : (w.run moves).shut? sid = some true := by
      rw [shut?, hs, Option.map_some, hl.shut_of_not_mem hs hout]
    rcases run_shut hw unshut hshut with h | ⟨before, h⟩
    · exact hkept h
    · exact hfresh before h
  have late (h : sid ∈ (w.run moves).live) : Created sid moves ∧ ¬ Dismissed sid moves ∧
      ∀ before, w.Overdue sid moves before → (w.run before).isQuiet = false := by
    have hopen := (hl.live sid).1 h
    obtain ⟨s, hs, -⟩ := Option.map_eq_some_iff.1 hopen
    refine ⟨(created_iff hw moves).2 ⟨s, hs⟩, fun hd => ?_, fun before hover =>
      not_overdue_of_live hw hl hquiet h hover⟩
    rw [shut_of_dismissed hw hlive unshut hd] at hopen
    cases hopen
  have hstopped {s : Session} (hs : (w.run moves).session? sid = some s)
      (hshut : s.shut = true) : s.stopped = true :=
    stopped_of_quiet (run_looped hw moves) hquiet hs hshut
  refine ⟨fun horderly => ⟨fun h => ?_, fun h => early h.1 h.2.1 h.2.2⟩, early, late, ?_, ?_⟩
  · obtain ⟨hcreated, hkept, hover⟩ := late h
    refine ⟨hcreated, hkept, fun before hb => ?_⟩
    obtain ⟨later, hlater, hcalm⟩ := hb.quiet hw.sound horderly hquiet
    rw [hover later hlater] at hcalm
    cases hcalm
  · intro h
    obtain ⟨s, hs, hunshut⟩ := Option.map_eq_some_iff.1 ((hl.live sid).1 h)
    refine ⟨s, hs, ?_⟩
    have hrun : s.stopped = false :=
      Bool.eq_false_iff.2 fun hstop => by
        rw [(run_stopsIdle hw moves hs hstop).shut] at hunshut
        cases hunshut
    rw [Session.isClosed, hunshut, hrun, Bool.false_or]
  · intro hcreated hout
    obtain ⟨s, hs⟩ := (created_iff hw moves).1 hcreated
    exact ⟨s, gone_of_stopped (run_sound hw.sound moves) hs (run_stopsIdle hw moves hs)
      (hstopped hs (hl.shut_of_not_mem hs hout))⟩

/-- The retention of a session touches no other one. -/
theorem retention_within (hw : w.Sound) {k : Nat} {untilMs : Option Nat}
    (hj : w.job? k = some ⟨k, sid, .retention untilMs⟩) : Within sid w (w.turn k) := by
  unfold turn
  simp only [hj]
  cases hs : w.session? sid with
  | none => exact .refl sid w
  | some s =>
    dsimp only
    split
    · change Within sid w (w.turnRetention _ s untilMs)
      rcases turnRetention_cases w ⟨k, sid, .retention untilMs⟩ s untilMs with
        ⟨-, h⟩ | ⟨-, -, -, h⟩ | ⟨-, -, h⟩ | h
      · rw [h]; exact endJob_within hj rfl
      · rw [h]; exact setTask_within hj rfl _
      · have hforget := forget_within hw hs
        have hend : Within sid (w.forget s) ((w.forget s).endJob k) := endJob_within hj rfl
        rw [h]
        exact ⟨hforget.sessions, hforget.live, hend.jobs, rfl, rfl⟩
      · rw [h]; exact .refl sid w
    · exact .refl sid w

/-- The retention of a session that was removed before ends, and that is all. -/
theorem retention_idle (hl : w.Listed) {k : Nat} {untilMs : Option Nat}
    (hj : w.job? k = some ⟨k, sid, .retention untilMs⟩) (hout : sid ∉ w.live) :
    w.turn k = w ∨ w.turn k = w.endJob k := by
  unfold turn
  simp only [hj]
  cases hs : w.session? sid with
  | none => exact .inl rfl
  | some s =>
    dsimp only
    split
    · refine .inr ?_
      change w.turnRetention _ s untilMs = _
      unfold turnRetention
      exact if_pos (hl.shut_of_not_mem hs hout)
    · exact .inl rfl

/-- The ledger of the sessions. Whatever is created, asked, followed, removed and swept in any
order, and however the turns are interleaved: each session is in the list once at most; in every
quiet moment every entry is right, and every session that has left the list is gone; no removal and
no retention touches another session; and the retention of a session that has left before does
nothing but end. -/
theorem live_ledger (hw : w.Empty) (hlive : w.live = []) (moves : List Move)
    (unshut : ∀ id, .shutDown id ∉ moves) :
    (w.run moves).live.Nodup ∧
    ((w.run moves).isQuiet = true → ∀ sid, w.Entered moves sid) ∧
    (∀ sid, Within sid (w.run moves) (w.run (moves ++ [.remove sid]))) ∧
    ∀ k sid untilMs, (w.run moves).job? k = some ⟨k, sid, .retention untilMs⟩ →
      Within sid (w.run moves) (w.run (moves ++ [.turn k])) ∧
      (sid ∉ (w.run moves).live → w.run (moves ++ [.turn k]) = w.run moves ∨
        w.run (moves ++ [.turn k]) = (w.run moves).endJob k) := by
  have hsound := run_sound hw.sound moves
  have hlisted := run_listed hw hlive unshut
  refine ⟨hlisted.nodup, fun hquiet => run_entered hw hlive unshut hquiet, fun sid => ?_,
    fun k sid untilMs hj => ?_⟩
  · rw [run_concat]
    exact remove_within hsound sid
  · rw [run_concat]
    exact ⟨retention_within hsound hj, fun hout => retention_idle hlisted hj hout⟩

/-! ### Three sessions -/

/-- A farewell, which completes the conversation. -/
def farewell : FlowDocument where
  flow := { initialStep := some "end", steps := [("end", { isTerminal := true })] }

/-- The farewell, compiled. -/
def farewellMachine : Machine := .compiled Registry.empty.kinds farewell "end"

/-- A farewell and two polls begin. -/
def threeBegun : List Move :=
  [.create "a" farewellMachine [], .create "b" pollMachine [], .create "c" pollMachine []]

/-- The farewell is to be kept for a second. The first poll is removed while its action runs, and
the action of the second one fails. -/
def oneRemoved : List Move :=
  [.turn 1, .remove "b", .turn 3, .turn 2, .turn 4, .turn 5, .turn 5, .turn 6, .turn 6, .turn 6]

/-- The second has passed. -/
def oneForgotten : List Move := [.clock 1000, .turn 1, .turn 0]

/-- A world before the first session that keeps a completed one for a second. -/
def forgetful : World := { retentionMs := 1000 }

theorem forgetful_empty : forgetful.Empty := ⟨rfl, rfl⟩

/-- The farewell was completed a second ago, and the first poll was removed. Both are gone, and only
the second poll is in the list. -/
theorem live_ledger_three :
    let moves := threeBegun ++ oneRemoved ++ oneForgotten
    Machine.build Registry.empty.kinds farewell = .ok farewellMachine ∧
    (∀ id, .shutDown id ∉ moves) ∧ (forgetful.run moves).isQuiet = true ∧
    forgetful.isOrderly moves = true ∧ (forgetful.run moves).live = ["c"] ∧
    (∃ before, forgetful.Overdue "a" moves before) ∧
    (∃ s, (forgetful.run moves).Gone "a" s) ∧ (∃ s, (forgetful.run moves).Gone "b" s) ∧
    ∀ before, ¬ forgetful.Overdue "c" moves before := by
  intro moves
  have unshut : ∀ id, .shutDown id ∉ moves := by
    simp [moves, threeBegun, oneRemoved, oneForgotten]
  have hquiet : (forgetful.run moves).isQuiet = true := by decide +kernel
  have horderly : forgetful.isOrderly moves = true := by decide +kernel
  have hlist : (forgetful.run moves).live = ["c"] := by decide +kernel
  obtain ⟨-, entered, -⟩ := live_ledger forgetful_empty rfl moves unshut
  have hcreated (sid : String) (h : moves.any (·.creates sid) = true) : Created sid moves :=
    List.any_eq_true.1 h
  have hkept : ¬ Dismissed "a" moves := by
    rintro ⟨before, mv, after, hmoves, -, hdismisses⟩
    have hnone : moves.all (fun mv => !mv.dismisses "a") = true := by decide +kernel
    have hmv := List.all_eq_true.1 hnone mv (by rw [hmoves]; simp)
    rw [hdismisses] at hmv
    cases hmv
  refine ⟨rfl, unshut, hquiet, horderly, hlist, ?_, ?_, ?_, ?_⟩
  · by_contra hfresh
    have hmem := (entered hquiet "a").early (hcreated "a" (by decide +kernel)) hkept
      (not_exists.1 hfresh)
    rw [hlist] at hmem
    simp at hmem
  · exact (entered hquiet "a").gone (hcreated "a" (by decide +kernel)) (by rw [hlist]; simp)
  · exact (entered hquiet "b").gone (hcreated "b" (by decide +kernel)) (by rw [hlist]; simp)
  · exact (((entered hquiet "c").listed horderly).1 (by rw [hlist]; simp)).2.2

/-- A retention counts from the turn in which it finds the conversation completed. If the clock
moves on before that turn, the session can be found for longer. If a client shuts the session down,
the retention ends with it, and the session can be found for good. -/
theorem live_ledger_late :
    let begun : List Move := [.create "a" farewellMachine []]
    let late := begun ++ [.clock 5000, .turn 1]
    let left := begun ++ [.shutDown "a", .turn 0, .turn 1, .clock 1000]
    (∀ id, .shutDown id ∉ late) ∧ forgetful.isOrderly late = false ∧
    (∃ s, (forgetful.run left).session? "a" = some s ∧ s.isClosed = true) ∧
    ∀ moves ∈ [late, left], (forgetful.run moves).isQuiet = true ∧
      "a" ∈ (forgetful.run moves).live ∧ forgetful.Overdue "a" moves begun ∧
      ¬ ("a" ∈ (forgetful.run moves).live ↔
        Created "a" moves ∧ ¬ Dismissed "a" moves ∧
          ∀ before, ¬ forgetful.Overdue "a" moves before) := by
  intro begun late left
  have hclosed : ((forgetful.run left).session? "a").any (·.isClosed) = true := by decide +kernel
  have hruns : ∀ moves ∈ [late, left], begun <+: moves ∧ (forgetful.run moves).isQuiet = true ∧
      1000 ≤ (forgetful.run moves).host.nowMs ∧ "a" ∈ (forgetful.run moves).live := by
    refine List.forall_mem_cons.2 ⟨?_, List.forall_mem_singleton.2 ?_⟩
    · exact ⟨List.prefix_append _ _, by decide +kernel⟩
    · exact ⟨List.prefix_append _ _, by decide +kernel⟩
  refine ⟨by simp [late, begun], by decide +kernel, (Option.any_eq_true _ _).1 hclosed, ?_⟩
  intro moves hmoves
  obtain ⟨hbegun, hquiet, hnow, hlive⟩ := hruns moves hmoves
  have hover : forgetful.Overdue "a" moves begun := ⟨hbegun, by decide +kernel, hnow⟩
  exact ⟨hquiet, hlive, hover, fun h => (h.1 hlive).2.2 begun hover⟩

end World

end Dialogue
