import Dialogue.Proofs.Session.Tokens

/-!
Cancelled actions.

An action is a job of its own. It may end before or after its token is cancelled, and its result may
wait in the queue meanwhile. `World.Acts` says that an action is under way with a token for an
invocation. Such jobs come only of a turn of the loop of the session or of its start (`move_acts`),
so the token is issued to the invocation from then on (`begun_issued`), and the record of the
session names an action that was begun (`inFlight_begun`). With what every session keeps track of
that gives `cancelled_actions_inert`: in every run a session that has an action running holds the
token of the action, which is cancelled as soon as the action is passed over, and from then on the
result of the action changes nothing.
-/
namespace Dialogue

namespace Session

variable {s : Session} {i : Epoch} {token : Nat}

theorem performAll_cons (s : Session) (e : Effect) (rest : List Effect) :
    s.performAll (e :: rest) = (((s.perform e).1.performAll rest).1,
      (s.perform e).2.toList ++ ((s.perform e).1.performAll rest).2) := rfl

theorem performAll_inFlight : ∀ (effects : List Effect) {s : Session},
    (s.performAll effects).1.inFlight = some (i, token) → s.inFlight = some (i, token) ∨
      ∃ action scope, .action token i action scope ∈ (s.performAll effects).2
  | [], _, h => .inl h
  | e :: rest, s, h => by
    rw [performAll_cons]
    rcases performAll_inFlight rest (s := (s.perform e).1) h with h | ⟨action, scope, h⟩
    · rcases perform_inFlight h with h | ⟨action, scope, h⟩
      · exact .inl h
      · exact .inr ⟨action, scope, List.mem_append_left _ (by rw [h]; exact .head _)⟩
    · exact .inr ⟨action, scope, List.mem_append_right _ h⟩

theorem start_inFlight {id : String} {m : Machine} {metadata : Json.Fields}
    (h : (start id m metadata).1.inFlight = some (i, token)) :
    ∃ action scope, .action token i action scope ∈ (start id m metadata).2 := by
  rcases performAll_inFlight _ h with h | h
  · cases h
  · exact h

theorem start_eq {m : Machine} {step : Step} (hs : m.step? m.initial = some step) (id : String)
    (metadata : Json.Fields) :
    start id m metadata = performAll
      { id, machine := m, state := (m.start metadata).state, owner := ownerOf id metadata }
      (.stepEntered m.initial none :: (step.onEntry 1).2) := by
  rw [start, Machine.start, Machine.enter_eq hs]
  rfl

/-- The action of the first step has the first token. -/
theorem start_issued {id : String} {m : Machine} {metadata : Json.Fields} {action : Action}
    {scope : Json} (h : .action token i action scope ∈ (start id m metadata).2) :
    (start id m metadata).1.Issued i token := by
  cases hs : m.step? m.initial with
  | none => simp [start, Machine.start, Machine.enter, hs, performAll, perform] at h
  | some step =>
    rw [start_eq hs] at h ⊢
    rcases Machine.onEntry_cases step 1 with ⟨-, he⟩ | ⟨action, -, -, he⟩ | ⟨-, -, he⟩
    · simp [he, performAll, perform] at h
    · rw [he] at h ⊢
      obtain ⟨rfl, rfl⟩ : token = 0 ∧ i = 1 := by
        simp [performAll, perform, startAction, cancelInFlight, tell] at h
        exact ⟨h.1, h.2.1⟩
      refine ⟨Nat.zero_lt_one, UInt64.le_refl _, fun j other ho => ?_, by simp⟩
      cases ho
      exact .inl rfl
    · cases ha : step.autoAdvance <;> simp [he, ha, performAll, perform] at h

end Session

namespace World

variable {w : World} {sid : String} {token : Nat} {i : Epoch} {s s' : Session} {mv : Move}

/-! ## Actions under way -/

/-- An action of the session is under way with this token for this invocation. -/
def Acts (w : World) (sid : String) (token : Nat) (i : Epoch) : Prop :=
  ∃ k progress, w.job? k = some ⟨k, sid, .action token i progress⟩

theorem Acts.of_spawn {id : String} {task : Task} (h : (w.spawn id task).Acts sid token i) :
    w.Acts sid token i ∨ (id = sid ∧ ∃ progress, task = .action token i progress) := by
  obtain ⟨k, progress, h⟩ := h
  rw [job?_spawn] at h
  cases hj : w.job? k with
  | some j =>
    rw [hj, Option.some_or] at h
    exact .inl ⟨k, progress, by rw [hj, h]⟩
  | none =>
    rw [hj, Option.none_or] at h
    split at h
    · cases h; exact .inr ⟨rfl, progress, rfl⟩
    · cases h

theorem Acts.of_spawnStarted {id : String} : ∀ (started : List Started) {w : World},
    (w.spawnStarted id started).Acts sid token i → w.Acts sid token i ∨
      (id = sid ∧ ∃ action scope, .action token i action scope ∈ started)
  | [], _, h => .inl h
  | x :: rest, w, h => by
    rcases of_spawnStarted rest (w := w.spawn id (w.taskOf x)) h with h | ⟨hid, action, scope, h⟩
    · rcases h.of_spawn with h | ⟨hid, progress, h⟩
      · exact .inl h
      · cases x with
        | action token' invocation action scope =>
          cases h
          exact .inr ⟨hid, action, scope, .head _⟩
        | display epoch => cases h
    · exact .inr ⟨hid, action, scope, .tail _ h⟩

theorem Acts.of_setTask {k : Nat} {j : Job} {task : Task} (hj : w.job? k = some j)
    (h : (w.setTask k task).Acts sid token i) :
    w.Acts sid token i ∨ (j.session = sid ∧ ∃ progress, task = .action token i progress) := by
  obtain ⟨k', progress, h⟩ := h
  rw [job?_setTask] at h
  by_cases hk : k' = k
  · subst hk
    rw [hj] at h
    simp only [if_true, Option.map_some, Option.some.injEq, Job.mk.injEq] at h
    exact .inr ⟨h.2.1, progress, h.2.2⟩
  · simp only [if_neg hk, Option.map_id'] at h
    exact .inl ⟨k', progress, h⟩

theorem Acts.of_endJob {k : Nat} (h : (w.endJob k).Acts sid token i) : w.Acts sid token i := by
  obtain ⟨k', progress, h⟩ := h
  by_cases hk : k' = k
  · rw [hk, job?_endJob_self] at h; cases h
  · rw [job?_endJob_of_ne w hk] at h
    exact ⟨k', progress, h⟩

theorem turnLoop_acts {j : Job} (h : (w.turnLoop j s).Acts sid token i) :
    w.Acts sid token i ∨
      (s.id = sid ∧ ∃ action scope, s.turn.2 = some (.action token i action scope)) := by
  have hstarted : ((w.putSession s.turn.1).spawnStarted s.turn.1.id s.turn.2.toList).Acts
      sid token i := by
    simp only [turnLoop] at h
    split at h
    · exact h.of_endJob
    · exact h
  rcases Acts.of_spawnStarted _ hstarted with h | ⟨hid, action, scope, h⟩
  · exact .inl h
  · rw [s.turn_same.id] at hid
    exact .inr ⟨hid, action, scope, by simpa using h⟩

theorem turnAction_acts {j : Job} (hj : w.job? j.id = some j) {token' : Nat} {i' : Epoch}
    {progress : Progress ActionResult} (ht : j.task = .action token' i' progress)
    (h : (w.turnAction j s token' i' progress).Acts sid token i) : w.Acts sid token i := by
  unfold turnAction at h
  split at h
  · split at h
    · exact h.of_endJob
    · rcases h.of_setTask hj with h | ⟨-, progress, h⟩
      · exact h
      · cases h
  · exact h.of_endJob
  · rcases h.of_setTask (w := w.absorb s _) hj with h | ⟨hid, progress', h⟩
    · exact h
    · -- The job goes on with its token and its invocation.
      cases h
      subst hid
      exact ⟨j.id, progress, by rw [hj, ← ht]⟩

/-- A turn of a job begins no action, unless the job is the loop of the session. -/
theorem turnJob_acts {j : Job} (hj : w.job? j.id = some j)
    (h : (w.turnJob j s).Acts sid token i) :
    w.Acts sid token i ∨ (j.task.isLoop = true ∧ s.id = sid ∧
      ∃ action scope, s.turn.2 = some (.action token i action scope)) := by
  have hset {v : World} {task : Task} (hj : v.job? j.id = some j)
      (hn : ∀ progress, task ≠ .action token i progress)
      (h : (v.setTask j.id task).Acts sid token i) : v.Acts sid token i := by
    rcases h.of_setTask hj with h | ⟨-, progress, h⟩
    · exact h
    · exact absurd h (hn progress)
  unfold turnJob at h
  split at h
  · next ht =>
    rcases turnLoop_acts h with h | h
    · exact .inl h
    · exact .inr ⟨by rw [ht]; rfl, h⟩
  · next ht => exact .inl (turnAction_acts hj ht h)
  · exact .inl (Acts.of_endJob (w := w.putSession _) h)
  · unfold turnDisplay at h
    split at h
    · exact .inl h.of_endJob
    · split at h
      · exact .inl (Acts.of_endJob (w := w.putSession _) h)
      · exact .inl h
  · unfold turnRetention at h
    split at h
    · exact .inl h.of_endJob
    · split at h
      · split at h
        · exact .inl (hset hj (by simp) h)
        · exact .inl h
      · split at h
        · exact .inl (Acts.of_endJob (w := w.forget s) h)
        · exact .inl h
  · exact .inl (hset hj (by simp) h)
  · rw [turnCall_eq] at h
    exact .inl (hset (v := w.absorb _ _) hj (by simp) h)

/-- An action comes of a turn of the loop of its session or of the start of the session. -/
theorem move_acts (hw : w.Sound) (h : (w.move mv).Acts sid token i) :
    w.Acts sid token i ∨
    (w.loops sid mv = true ∧ ∃ s action scope, w.session? sid = some s ∧
      s.turn.2 = some (.action token i action scope)) ∨
    ∃ m metadata action scope,
      (w.move mv).session? sid = some (Session.start sid m metadata).1 ∧
      .action token i action scope ∈ (Session.start sid m metadata).2 := by
  have hshut (id : String) (w : World) (h : (w.shutDown id).Acts sid token i) :
      w.Acts sid token i := by
    unfold shutDown at h
    split at h <;> exact h
  cases mv with
  | turn job =>
    simp only [move, turn] at h
    split at h
    · exact .inl h
    · next j hj =>
      split at h
      · exact .inl h
      · next s hs =>
        split at h
        · next hc =>
          have hjob : w.job? j.id = some j := by rw [job?_id hj, hj]
          rcases turnJob_acts hjob h with h | ⟨hl, hid, action, scope, h⟩
          · exact .inl h
          · have hsid : j.session = sid := (hw.keyed _ _ hs).symm.trans hid
            refine .inr (.inl ⟨?_, s, action, scope, by rw [← hsid, hs], h⟩)
            simp [loops, hj, hsid, hl, hc]
        · exact .inl h
  | clock nowMs => exact .inl h
  | create id m metadata =>
    cases hs : w.session? id with
    | some s =>
      simp only [move, hs] at h
      exact .inl h
    | none =>
      simp only [move, hs] at h ⊢
      have hspawn {w : World} {task : Task} (hn : ∀ progress, task ≠ .action token i progress)
          (h : (w.spawn id task).Acts sid token i) : w.Acts sid token i := by
        rcases h.of_spawn with h | ⟨-, progress, h⟩
        · exact h
        · exact absurd h (hn progress)
      have hlooped := hspawn (by simp) h
      have hstarted := hspawn (w := (w.putSession _).spawnStarted id _) (by simp) hlooped
      rcases Acts.of_spawnStarted _ hstarted with h | ⟨rfl, action, scope, h⟩
      · exact .inl h
      · refine .inr (.inr ⟨m, metadata, action, scope, ?_, h⟩)
        rw [create_session, if_pos rfl]
  | ask id request =>
    simp only [move] at h
    split at h
    · rcases h.of_spawn with h | ⟨-, progress, h⟩
      · exact .inl h
      · cases h
    · exact .inl h
  | follow id =>
    simp only [move] at h
    split at h
    · rcases h.of_spawn with h | ⟨-, progress, h⟩
      · exact .inl h
      · cases h
    · exact .inl h
  | drop job =>
    simp only [move] at h
    split at h
    · exact .inl h.of_endJob
    · exact .inl h
  | shutDown id => exact .inl (hshut id w h)
  | remove id =>
    rcases remove_cases w id with he | he
    · rw [he] at h; exact .inl h
    · rw [he] at h; exact .inl (hshut id { w with live := w.live.filter (· ≠ id) } h)
  | shutDownAll =>
    have hall : ∀ (ids : List String) (w : World),
        (ids.foldl (fun w id => w.shutDown id) w).Acts sid token i → w.Acts sid token i := by
      intro ids
      induction ids with
      | nil => exact fun _ h => h
      | cons id rest ih => exact fun w h => hshut id w (ih _ h)
    exact .inl (hall w.live { w with live := [] } h)

/-- What is started becomes a job. -/
theorem spawnStarted_acts (id : String) {action : Action} {scope : Json} :
    ∀ (started : List Started) {w : World}, w.Counted →
      .action token i action scope ∈ started → ∃ k progress, w.jobCount ≤ k ∧
        (w.spawnStarted id started).job? k = some ⟨k, id, .action token i progress⟩
  | x :: rest, w, hc, h => by
    have hnext := (w.spawn_spares id (w.taskOf x) none).counted hc
    rcases List.mem_cons.1 h with rfl | h
    · have hnone : w.job? w.jobCount = none := by
        rw [job?, List.find?_eq_none]
        intro j hj
        simpa using Nat.ne_of_lt (hc j hj)
      refine ⟨w.jobCount, .running (action.execute w.registry.actions scope), Nat.le_refl _, ?_⟩
      rw [spawnStarted, List.foldl_cons]
      refine (job?_spawnStarted_of_lt id rest _ (Nat.lt_succ_self _)).trans ?_
      rw [job?_spawn, hnone, if_pos rfl, Option.none_or]
      rfl
    · obtain ⟨k, progress, hk, hjob⟩ := spawnStarted_acts id rest hnext h
      exact ⟨k, progress, Nat.le_of_succ_le hk, hjob⟩

theorem loops_acts (hw : w.Sound) (hs : w.session? sid = some s) (hl : w.loops sid mv = true)
    {action : Action} {scope : Json} (h : s.turn.2 = some (.action token i action scope)) :
    (w.move mv).Acts sid token i := by
  cases mv with
  | turn job =>
    simp only [loops, Option.any_eq_true, Bool.and_eq_true, decide_eq_true_eq] at hl
    obtain ⟨j, hj, ⟨hsid, htask⟩, hc⟩ := hl
    have hturn : w.move (.turn job) = w.turnLoop j s := by
      obtain ⟨k, id, task⟩ := j
      cases task with
      | loop => simp [move, turn, hj, show w.session? id = some s by rw [← hs, ← hsid], hc, turnJob]
      | _ => cases htask
    have hcounted : (w.putSession s.turn.1).Counted := hw.counted
    obtain ⟨k, progress, hk, hjob⟩ := spawnStarted_acts s.turn.1.id
      s.turn.2.toList hcounted (by rw [h]; exact .head _)
    have hid : s.turn.1.id = sid := s.turn_same.id.trans (hw.keyed _ _ hs)
    -- The loop is an older job than the action, and does not take it along when it ends.
    have hne : k ≠ j.id :=
      Nat.ne_of_gt (Nat.lt_of_lt_of_le (hw.counted j (List.mem_of_find?_eq_some hj)) hk)
    rw [hid] at hjob
    refine ⟨k, progress, ?_⟩
    rw [hturn]
    simp only [turnLoop]
    rw [hid]
    split
    · rw [job?_endJob_of_ne _ hne]; exact hjob
    · exact hjob
  | _ => cases hl

theorem create_acts (hw : w.Sound) {m : Machine} {metadata : Json.Fields} {action : Action}
    {scope : Json} (h : .action token i action scope ∈ (Session.start sid m metadata).2) :
    (w.create sid m metadata).Acts sid token i := by
  have hcounted : (w.putSession (Session.start sid m metadata).1).Counted := hw.counted
  obtain ⟨k, progress, -, hjob⟩ := spawnStarted_acts sid _ hcounted h
  have hspawn {w : World} {id : String} {task : Task} {j : Job} (hj : w.job? k = some j) :
      (w.spawn id task).job? k = some j := by
    rw [job?_spawn, hj, Option.some_or]
  exact ⟨k, progress, hspawn (w := { World.spawn _ sid .loop with live := _ }) (hspawn hjob)⟩

/-! ## Actions of a run -/

/-- In the course of the moves an action of the session was under way with this token for this
invocation. -/
def Begun (w : World) (sid : String) (moves : List Move) (token : Nat) (i : Epoch) : Prop :=
  ∃ earlier, earlier <+: moves ∧ (w.run earlier).Acts sid token i

variable {moves : List Move}

theorem Begun.concat (h : w.Begun sid moves token i) (mv : Move) :
    w.Begun sid (moves ++ [mv]) token i := by
  obtain ⟨earlier, hp, ha⟩ := h
  exact ⟨earlier, hp.trans (List.prefix_append _ _), ha⟩

/-- What a session has in flight was begun. -/
theorem inFlight_begun (hw : w.Empty) (moves : List Move) (hs : (w.run moves).session? sid = some s)
    (hf : s.inFlight = some (i, token)) : w.Begun sid moves token i := by
  induction moves using List.reverseRecOn generalizing s with
  | nil =>
    rw [run_nil, session?, hw.sessions] at hs
    cases hs
  | append_singleton moves mv ih =>
    have hsound := run_sound hw.sound moves
    have hnow (ha : ((w.run moves).move mv).Acts sid token i) :
        w.Begun sid (moves ++ [mv]) token i :=
      ⟨moves ++ [mv], List.prefix_refl _, by rw [run_concat]; exact ha⟩
    rw [run_concat] at hs
    cases hbefore : (w.run moves).session? sid with
    | some t =>
      obtain ⟨s', hs', hm⟩ := move_cases hsound hbefore mv
      rw [hs] at hs'
      cases hs'
      rcases hm with ⟨hl, rfl⟩ | ⟨-, hm⟩
      · rcases Session.turn_inFlight hf with hf | ⟨action, scope, hstarted⟩
        · exact (ih hbefore hf).concat mv
        · exact hnow (loops_acts hsound hbefore hl hstarted)
      · rw [hm.keeps.inFlight] at hf
        exact (ih hbefore hf).concat mv
    | none =>
      rcases move_session_none hsound hbefore mv with hn | ⟨m, metadata, rfl, hn⟩
      · rw [hs] at hn; cases hn
      · rw [hs] at hn
        cases hn
        obtain ⟨action, scope, hstarted⟩ := Session.start_inFlight hf
        refine hnow ?_
        simp only [move, hbefore]
        exact create_acts hsound hstarted

theorem run_tracks (hw : w.Empty) (moves : List Move) (hs : (w.run moves).session? sid = some s) :
    s.Tracks :=
  run_session Session.start_tracks (fun _ _ h hn => hn.tracks h) hw moves sid s hs

/-- While epochs do not come round, the token of an action that was begun is issued to its
invocation. -/
theorem begun_issued (hw : w.Empty) {moves : List Move}
    (fits : (w.taken sid moves).length < UInt64.size - 1) (h : w.Begun sid moves token i) :
    ∃ s, (w.run moves).session? sid = some s ∧ s.Issued i token := by
  induction moves using List.reverseRecOn with
  | nil =>
    obtain ⟨earlier, hp, k, progress, hjob⟩ := h
    rw [List.prefix_nil.1 hp, run_nil, job?, hw.jobs] at hjob
    cases hjob
  | append_singleton moves mv ih =>
    have hsound := run_sound hw.sound moves
    rw [taken_concat, List.length_append] at fits
    -- What was issued before the move is issued after it.
    have hkept (h : w.Begun sid moves token i) :
        ∃ s, ((w.run moves).move mv).session? sid = some s ∧ s.Issued i token := by
      obtain ⟨s, hs, hissued⟩ := ih (by omega) h
      obtain ⟨s', hs', hm⟩ := move_cases hsound hs mv
      refine ⟨s', hs', ?_⟩
      rcases hm with ⟨hl, rfl⟩ | ⟨-, hm⟩
      · refine hissued.turn fun e htakes => ?_
        obtain ⟨metadata, hstate⟩ := run_state hw moves hs
        have hbound := s.machine.run_epoch_le metadata (w.taken sid moves)
        rw [takes_of_loops hl hs htakes, List.length_singleton] at fits
        rw [hstate]
        omega
      · exact hm.keeps.issued hissued
    rw [run_concat]
    obtain ⟨earlier, hp, ha⟩ := h
    rcases List.prefix_concat_iff.1 hp with rfl | hp
    · rw [run_concat] at ha
      rcases move_acts hsound ha with ha | ⟨hl, s, action, scope, hs, hstarted⟩ |
        ⟨m, metadata, action, scope, hs, hstarted⟩
      · exact hkept ⟨moves, List.prefix_refl _, ha⟩
      · obtain ⟨s', hs', ⟨-, rfl⟩ | ⟨hn, -⟩⟩ := move_cases hsound hs mv
        · exact ⟨_, hs', (run_tracks hw moves hs).issues hstarted⟩
        · rw [hl] at hn; cases hn
      · exact ⟨_, hs, Session.start_issued hstarted⟩
    · exact hkept ⟨earlier, hp, ha⟩

/-- A session has a turn of its loop only while it runs. -/
theorem stopped_of_loops (hs : w.session? sid = some s) (hl : w.loops sid mv = true) :
    s.stopped = false := by
  cases mv with
  | turn job =>
    simp only [loops, Option.any_eq_true, Bool.and_eq_true, decide_eq_true_eq] at hl
    obtain ⟨⟨k, id, task⟩, -, ⟨hsid, htask⟩, hc⟩ := hl
    subst hsid
    cases task with
    | loop =>
      simp only [canTurn, hs, Session.canTurn, Bool.and_eq_true, Bool.not_eq_true'] at hc
      exact hc.1
    | _ => cases htask
  | _ => cases hl

/-- In every run, between events, a session whose state has an action running holds a token that
was given to this very action, and only a shutdown has cancelled it. If a move ends the course of
the action in the state, the session has taken its result, or the token is cancelled before the next
event. The result of an action whose token is cancelled changes nothing when the session takes it;
only after so many events that the epochs come round, another action can have the same number. -/
theorem cancelled_actions_inert (hw : w.Empty) (moves : List Move)
    (hs : (w.run moves).session? sid = some s) :
    (∀ i, s.deeds = [] → s.stopped = false → s.state.phase = .actionPending i →
      ∃ token, s.inFlight = some (i, token) ∧ w.Begun sid moves token i ∧
        (s.shut = false → s.isCancelled token = false)) ∧
    (∀ mv s' i, (w.run (moves ++ [mv])).session? sid = some s' →
      s.state.phase = .actionPending i → s'.state.phase ≠ .actionPending i →
      (∃ result, (w.run moves).takes sid mv = [.actionSettled i result]) ∨
      ∃ token, s.inFlight = some (i, token) ∧ w.Begun sid moves token i ∧
        ∀ later s'', (w.run (moves ++ mv :: later)).session? sid = some s'' → s''.deeds = [] →
          s''.isCancelled token = true) ∧
    (∀ mv s' token i result, (w.run (moves ++ [mv])).session? sid = some s' →
      w.Begun sid moves token i → s.isCancelled token = true →
      (w.run moves).takes sid mv = [.actionSettled i result] →
      s'.state = s.state ∨ (UInt64.size - 1 ≤ (w.taken sid moves).length ∧
        ∃ other, other ≠ token ∧ s.inFlight = some (i, other) ∧ w.Begun sid moves other i)) := by
  have hsound := run_sound hw.sound moves
  have htracks := run_tracks hw moves hs
  have hstep {mv : Move} {s' : Session} (hs' : (w.run (moves ++ [mv])).session? sid = some s') :
      ((w.run moves).loops sid mv = true ∧ s' = s.turn.1) ∨
        ((w.run moves).loops sid mv = false ∧ s.Beside s') := by
    obtain ⟨t, ht, hm⟩ := move_cases hsound hs mv
    rw [run_concat, ht] at hs'
    cases hs'
    exact hm
  refine ⟨?_, ?_, ?_⟩
  · intro i hd hrun hp
    have hrunning := htracks.running hrun i hp
    rw [hd] at hrunning
    obtain ⟨⟨j, token⟩, hf, rfl⟩ := Option.map_eq_some_iff.1 hrunning
    refine ⟨token, hf, inFlight_begun hw moves hs hf, fun hshut => ?_⟩
    refine Bool.eq_false_iff.2 fun hc => ?_
    exact (htracks.inFlight _ _ hf).2 (Session.mem_of_isCancelled hshut hc)
  · intro mv s' i hs' hp hq
    rcases hstep hs' with ⟨hl, rfl⟩ | ⟨-, hm⟩
    · obtain ⟨e, htakes, ⟨result, he⟩ | ⟨token, hf, hdoomed⟩⟩ :=
        htracks.leaves (stopped_of_loops hs hl) hp hq
      · exact .inl ⟨result, by rw [takes_of_loops hl hs htakes, he]⟩
      · refine .inr ⟨token, hf, inFlight_begun hw moves hs hf, fun later s'' hs'' hd => ?_⟩
        -- Whatever becomes of the session, the cancellation is the first thing that it does.
        obtain ⟨t, ht, hlater⟩ := run_session_later (P := Session.Doomed i token)
          (fun _ _ h hn => hn.doomed h) later (run_sound hw.sound (moves ++ [mv])) hs' hdoomed
        rw [List.append_cons, run_append, ht] at hs''
        cases hs''
        rcases hlater with hc | ⟨rest, hmore, -⟩
        · exact hc
        · rw [hd] at hmore; cases hmore
    · exact absurd (by rw [hm.keeps.state, hp]) hq
  · intro mv s' token i result hs' hbegun hc he
    rcases hstep hs' with ⟨hl, rfl⟩ | ⟨-, hm⟩
    · obtain ⟨e, htakes, hevent⟩ := takes_cases hs he
      rcases htracks.settled (stopped_of_loops hs hl) htakes hevent with h | ⟨other, hf, hn⟩
      · exact .inl h
      · have hne : other ≠ token := by rintro rfl; rw [hc] at hn; cases hn
        refine .inr ⟨Nat.le_of_not_lt fun fits => ?_, other, hne, hf,
          inFlight_begun hw moves hs hf⟩
        -- Before the epochs come round, the token is the only one of this invocation.
        obtain ⟨t, ht, hissued⟩ := begun_issued hw fits hbegun
        rw [hs] at ht
        cases ht
        rcases hissued.inFlight i other hf with h | h
        · exact hne h
        · exact UInt64.lt_irrefl i h
    · exact .inl hm.keeps.state

/-! ### A poll -/

/-- A step that fetches something again and again. -/
def poll : FlowDocument where
  flow := {
    initialStep := some "poll"
    steps := [
      ("poll", { kind := .system, action := some { kind := "fetch" }, nextStep := some "poll" })] }

/-- The poll, compiled. -/
def pollMachine : Machine := .compiled Registry.empty.kinds poll "poll"

theorem build_poll : Machine.build Registry.empty.kinds poll = .ok pollMachine := rfl

/-- The first fetch has ended, and its result waits behind a client's wish to go on. -/
def fetched : List Move :=
  [.create "p" pollMachine [], .ask "p" (.dispatch (.toolComplete none)), .turn 3, .turn 0, .turn 0]

/-- The session goes on to the second fetch. -/
def passedOver : List Move := List.replicate 6 (.turn 1)

/-- The first fetch is passed over while its result waits: its token is cancelled, and the result
leaves the second fetch running. -/
theorem cancelled_actions_inert_poll :
    let result : ActionResult := .failure "Unknown action type: fetch"
    let moves := fetched ++ passedOver
    ∃ s s', Machine.build Registry.empty.kinds poll = .ok pollMachine ∧
      ({} : World).Empty ∧ (({} : World).run moves).session? "p" = some s ∧
      (({} : World).run moves).takes "p" (.turn 1) = [.actionSettled 1 result] ∧
      s.isCancelled 0 = true ∧ s.state.phase = .actionPending 2 ∧
      (({} : World).run (moves ++ [.turn 1])).session? "p" = some s' ∧ s'.state = s.state := by
  intro result moves
  have hempty : ({} : World).Empty := ⟨rfl, rfl⟩
  have hbegun : ({} : World).Begun "p" moves 0 1 :=
    ⟨[.create "p" pollMachine []], List.prefix_append _ _, 0, _, rfl⟩
  have htaken : (({} : World).taken "p" moves).length < UInt64.size - 1 := by decide +kernel
  have htakes : (({} : World).run moves).takes "p" (.turn 1) = [.actionSettled 1 result] := rfl
  have hseen : ((({} : World).run moves).session? "p").map
      (fun s => (s.isCancelled 0, s.state.phase)) = some (true, .actionPending 2) := by
    decide +kernel
  obtain ⟨s, hs, hview⟩ := Option.map_eq_some_iff.1 hseen
  obtain ⟨hc, hp⟩ := Prod.mk.inj hview
  obtain ⟨s', hs', -⟩ := move_session (run_sound hempty.sound moves) hs (.turn 1)
  rw [← run_concat] at hs'
  obtain ⟨-, -, inert⟩ := cancelled_actions_inert hempty moves hs
  refine ⟨s, s', build_poll, hempty, hs, htakes, hc, hp, hs', ?_⟩
  rcases inert _ s' 0 1 result hs' hbegun hc htakes with h | ⟨hlong, -⟩
  · exact h
  · exact absurd htaken (Nat.not_lt.2 hlong)

end World

end Dialogue
