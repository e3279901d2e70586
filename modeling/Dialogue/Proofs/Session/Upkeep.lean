import Mathlib.Data.List.Induction
import Dialogue.Proofs.Session.Moves

/-!
What moves leave alone.

The time and the settings of a world, the list of the sessions that can be found, and whether a
session was told to shut down: most moves touch none of these. `Steady` says so of two worlds, and
every turn is steady but that of a retention that has run out (`turn_steady`). `JobsAll` is what the
invariants of single jobs are stated with; of all moves only the turn of a retention sets a deadline
(`move_jobsAll`).
-/
namespace Dialogue

/-! ## The time -/

theorem Host.cue_nowMs (h : Host) (name : String) : (h.cue name).2.nowMs = h.nowMs := by
  unfold Host.cue
  split <;> rfl

theorem Site.answer_nowMs (s : Site) (q : Query) : (s.answer q).2.host.nowMs = s.host.nowMs := by
  cases q with
  | cue name => exact s.host.cue_nowMs name
  | navigate target =>
    simp only [answer]
    split <;> rfl
  | _ => rfl

theorem Progress.turn_nowMs {α : Type} (s : Site) (p : Progress α) :
    (p.turn s).2.host.nowMs = s.host.nowMs := by
  cases p with
  | running work =>
    cases work with
    | ask q next => exact s.answer_nowMs q
    | _ => rfl
  | waiting untilMs heeds next =>
    simp only [turn]
    split <;> rfl

/-- A call does not touch the time, nor whether its session was told to shut down. -/
theorem Call.turn_nowMs (r : Registry) (site : Site) (s : Session) (c : Call) :
    (c.turn r site s).2.2.host.nowMs = site.host.nowMs := by
  unfold turn
  split
  · rfl
  · rfl
  · rfl
  · rfl
  · exact Progress.turn_nowMs site _
  · rfl
  · rfl
  · split <;> rfl
  · split <;> rfl
  · rfl
  · rfl

theorem Call.turn_shut (r : Registry) (site : Site) (s : Session) (c : Call) :
    (c.turn r site s).2.1.shut = s.shut := by
  rcases turn_session r site s c with h | ⟨step, h⟩ | ⟨e, -, h⟩ <;> rw [h] <;> rfl

theorem Session.post_shut (s : Session) (e : Event) : (s.post e).shut = s.shut := by
  unfold post
  split <;> rfl

/-- Whether the task is a retention that waits for its deadline. -/
def Task.isDated : Task → Bool
  | .retention (some _) => true
  | _ => false

/-- Whether a client asks for something or gives it up. -/
def Move.isClients : Move → Bool
  | .ask .. => true
  | .follow _ => true
  | .drop _ => true
  | _ => false

/-- Whether the move is a step of the clock. -/
def Move.isClock : Move → Bool
  | .clock _ => true
  | _ => false

namespace World

/-! ## Steady worlds -/

/-- The time and the settings are as they were. -/
structure Timeless (w w' : World) : Prop where
  nowMs : w'.host.nowMs = w.host.nowMs
  retentionMs : w'.retentionMs = w.retentionMs

/-- Whether a session was told to shut down, if there is one. -/
def shut? (w : World) (sid : String) : Option Bool := (w.session? sid).map Session.shut

/-- The sessions that can be found and those that were told to shut down are as they were, too. -/
structure Steady (w w' : World) : Prop extends Timeless w w' where
  live : w'.live = w.live
  shut : ∀ sid, w'.shut? sid = w.shut? sid

variable {w w' w'' : World}

theorem Steady.refl (w : World) : Steady w w := ⟨⟨rfl, rfl⟩, rfl, fun _ => rfl⟩

theorem Steady.trans (h : Steady w w') (h' : Steady w' w'') : Steady w w'' :=
  ⟨⟨h'.nowMs.trans h.nowMs, h'.retentionMs.trans h.retentionMs⟩, h'.live.trans h.live,
    fun sid => (h'.shut sid).trans (h.shut sid)⟩

theorem setTask_steady (w : World) (k : Nat) (task : Task) : Steady w (w.setTask k task) :=
  ⟨⟨rfl, rfl⟩, rfl, fun _ => rfl⟩

theorem endJob_steady (w : World) (k : Nat) : Steady w (w.endJob k) :=
  ⟨⟨rfl, rfl⟩, rfl, fun _ => rfl⟩

theorem spawn_steady (w : World) (sid : String) (task : Task) : Steady w (w.spawn sid task) :=
  ⟨⟨rfl, rfl⟩, rfl, fun _ => rfl⟩

theorem spawnStarted_steady (sid : String) : ∀ (started : List Started) (w : World),
    Steady w (w.spawnStarted sid started)
  | [], w => .refl w
  | x :: rest, w => (w.spawn_steady sid (w.taskOf x)).trans (spawnStarted_steady sid rest _)

theorem shut?_putSession (w : World) (s : Session) (sid : String) :
    (w.putSession s).shut? sid = if sid = s.id then some s.shut else w.shut? sid := by
  rw [shut?, session?_putSession]
  split <;> rfl

theorem putSession_steady {s s' : Session} (hs : w.session? s.id = some s) (hid : s'.id = s.id)
    (hshut : s'.shut = s.shut) : Steady w (w.putSession s') where
  nowMs := rfl
  retentionMs := rfl
  live := rfl
  shut := by
    intro sid
    rw [shut?_putSession]
    split
    · next he => rw [he, hid, shut?, hs, hshut]; rfl
    · rfl

theorem absorb_steady {s s' : Session} {site : Site} (hs : w.session? s.id = some s)
    (hid : s'.id = s.id) (hshut : s'.shut = s.shut) (hnow : site.host.nowMs = w.host.nowMs) :
    Steady w (w.absorb s' site) := by
  rw [absorb_eq]
  have hput : Steady { w with host := site.host, durable := site.stores.shared }
      (putSession _ (s'.absorbed site)) := putSession_steady (s := s) hs hid hshut
  exact ⟨⟨hnow, rfl⟩, rfl, hput.shut⟩

/-! ## Turns -/

section Turns

variable {j : Job} {s : Session}

theorem turnLoop_steady (hs : w.session? s.id = some s) : Steady w (w.turnLoop j s) := by
  have hput : Steady w (w.putSession s.turn.1) :=
    putSession_steady hs s.turn_same.id s.turn_shut
  have hstarted := hput.trans (spawnStarted_steady s.turn.1.id s.turn.2.toList _)
  simp only [turnLoop]
  split
  · exact hstarted.trans (endJob_steady _ j.id)
  · exact hstarted

theorem turnAction_steady (hs : w.session? s.id = some s) (token : Nat) (invocation : Epoch)
    (progress : Progress ActionResult) :
    Steady w (w.turnAction j s token invocation progress) := by
  unfold turnAction
  split
  · split
    · exact endJob_steady w j.id
    · exact setTask_steady w j.id _
  · exact endJob_steady w j.id
  · have hnow := Progress.turn_nowMs (w.site s (s.isCancelled token)) progress
    exact (absorb_steady hs rfl rfl hnow).trans (setTask_steady _ j.id _)

theorem turnDisplay_steady (hs : w.session? s.id = some s) (epoch : Epoch) (untilMs : Nat) :
    Steady w (w.turnDisplay j s epoch untilMs) := by
  unfold turnDisplay
  split
  · exact endJob_steady w j.id
  · split
    · exact (putSession_steady hs (s.post_same _).id (s.post_shut _)).trans (endJob_steady _ j.id)
    · exact .refl w

theorem turnCall_steady (hs : w.session? s.id = some s) (c : Call) :
    Steady w (w.turnCall j s c) := by
  rw [turnCall_eq]
  exact (absorb_steady hs (Call.turn_id _ _ _ _) (Call.turn_shut _ _ _ _)
    (Call.turn_nowMs _ (w.site s false) _ _)).trans (setTask_steady _ j.id _)

/-- The retention of a session has run out. -/
structure RunsOut (w : World) (j : Job) (s : Session) : Prop where
  due : ∃ t, j.task = .retention (some t) ∧ t ≤ w.host.nowMs
  unshut : s.shut = false

theorem turnRetention_cases (w : World) (j : Job) (s : Session) (untilMs : Option Nat) :
    (s.shut = true ∧ w.turnRetention j s untilMs = w.endJob j.id) ∨
    (s.shut = false ∧ untilMs = none ∧ s.state.isCompleted = true ∧
      w.turnRetention j s untilMs =
        w.setTask j.id (.retention (some (w.host.nowMs + w.retentionMs)))) ∨
    (s.shut = false ∧ (∃ t, untilMs = some t ∧ t ≤ w.host.nowMs) ∧
      w.turnRetention j s untilMs = (w.forget s).endJob j.id) ∨
    w.turnRetention j s untilMs = w := by
  unfold turnRetention
  cases hshut : s.shut with
  | true => exact .inl ⟨rfl, rfl⟩
  | false =>
    refine .inr ?_
    cases untilMs with
    | none =>
      cases hc : s.state.isCompleted with
      | true => exact .inl ⟨rfl, rfl, rfl, rfl⟩
      | false => exact .inr (.inr rfl)
    | some t =>
      by_cases ht : t ≤ w.host.nowMs
      · exact .inr (.inl ⟨rfl, ⟨t, rfl, ht⟩, by simp [ht]⟩)
      · exact .inr (.inr (by simp [ht]))

/-- A turn is steady, unless a session is forgotten in it. -/
theorem turnJob_steady (hs : w.session? s.id = some s) (j : Job) :
    Steady w (w.turnJob j s) ∨
      (w.RunsOut j s ∧ w.turnJob j s = (w.forget s).endJob j.id) := by
  obtain ⟨k, sid, task⟩ := j
  cases task with
  | loop => exact .inl (turnLoop_steady hs)
  | action token invocation progress => exact .inl (turnAction_steady hs _ _ _)
  | report invocation result =>
    exact .inl ((putSession_steady hs (s.post_same _).id (s.post_shut _)).trans (endJob_steady _ k))
  | display epoch untilMs => exact .inl (turnDisplay_steady hs _ _)
  | retention untilMs =>
    change Steady w (w.turnRetention _ s untilMs) ∨ _ ∧ w.turnRetention _ s untilMs = _
    rcases turnRetention_cases w ⟨k, sid, .retention untilMs⟩ s untilMs with
      ⟨-, h⟩ | ⟨-, -, -, h⟩ | ⟨hunshut, ⟨t, rfl, ht⟩, h⟩ | h
    · rw [h]; exact .inl (endJob_steady w k)
    · rw [h]; exact .inl (setTask_steady w k _)
    · exact .inr ⟨⟨⟨t, rfl, ht⟩, hunshut⟩, h⟩
    · rw [h]; exact .inl (.refl w)
  | feed f => exact .inl (setTask_steady w k _)
  | call c => exact .inl (turnCall_steady hs c)

end Turns

/-- A turn is steady, unless a session is forgotten in it. -/
theorem turn_steady (hw : w.Sound) (k : Nat) :
    Steady w (w.turn k) ∨ ∃ j s, w.job? k = some j ∧ w.session? j.session = some s ∧
      w.RunsOut j s ∧ w.turn k = (w.forget s).endJob k := by
  unfold turn
  split
  · exact .inl (.refl w)
  · next j hj =>
    split
    · exact .inl (.refl w)
    · next s hs =>
      split
      · have hid : w.session? s.id = some s := by rw [hw.keyed _ _ hs, hs]
        rcases turnJob_steady hid j with h | ⟨hout, h⟩
        · exact .inl h
        · rw [job?_id hj] at h
          exact .inr ⟨j, s, hj, hs, hout, h⟩
      · exact .inl (.refl w)

/-! ## Moves -/

/-- What clients ask for and give up are jobs. -/
theorem move_steady {mv : Move} (h : mv.isClients = true) : Steady w (w.move mv) := by
  cases mv with
  | ask id request =>
    simp only [move]
    split
    · exact w.spawn_steady id _
    · exact .refl w
  | follow id =>
    simp only [move]
    split
    · exact w.spawn_steady id _
    · exact .refl w
  | drop k =>
    simp only [move]
    split
    · exact w.endJob_steady k
    · exact .refl w
  | _ => cases h

theorem shutDown_timeless (w : World) (sid : String) : Timeless w (w.shutDown sid) := by
  unfold shutDown
  split <;> exact ⟨rfl, rfl⟩

theorem foldl_shutDown_timeless : ∀ (ids : List String) (w : World),
    Timeless w (ids.foldl (fun w id => w.shutDown id) w)
  | [], _ => ⟨rfl, rfl⟩
  | id :: rest, w => by
    have h := shutDown_timeless w id
    have h' := foldl_shutDown_timeless rest (w.shutDown id)
    exact ⟨h'.nowMs.trans h.nowMs, h'.retentionMs.trans h.retentionMs⟩

theorem create_timeless (w : World) (id : String) (m : Machine) (metadata : Json.Fields) :
    Timeless w (w.create id m metadata) := by
  have h := (spawnStarted_steady id (Session.start id m metadata).2
    (w.putSession (Session.start id m metadata).1)).toTimeless
  exact ⟨h.nowMs, h.retentionMs⟩

/-- A turn touches neither the time nor the settings. -/
theorem turn_timeless (hw : w.Sound) (k : Nat) : Timeless w (w.turn k) := by
  rcases turn_steady hw k with h | ⟨j, s, -, -, -, h⟩
  · exact h.toTimeless
  · rw [h]; exact ⟨rfl, rfl⟩

/-- Only the clock touches the time, and nothing touches the settings. -/
theorem move_timeless (hw : w.Sound) {mv : Move} (h : mv.isClock = false) :
    Timeless w (w.move mv) := by
  cases mv with
  | turn k => exact turn_timeless hw k
  | clock nowMs => cases h
  | create id m metadata =>
    simp only [move]
    split
    · exact ⟨rfl, rfl⟩
    · exact create_timeless w id m metadata
  | ask id request => exact (move_steady rfl).toTimeless
  | follow id => exact (move_steady rfl).toTimeless
  | drop k => exact (move_steady rfl).toTimeless
  | shutDown id => exact shutDown_timeless w id
  | remove id =>
    rcases remove_cases w id with h | h
    · rw [h]; exact ⟨rfl, rfl⟩
    · rw [h]
      have h := shutDown_timeless { w with live := w.live.filter (· ≠ id) } id
      exact ⟨h.nowMs, h.retentionMs⟩
  | shutDownAll =>
    have h := foldl_shutDown_timeless w.live { w with live := [] }
    exact ⟨h.nowMs, h.retentionMs⟩

theorem move_retentionMs (hw : w.Sound) (mv : Move) : (w.move mv).retentionMs = w.retentionMs := by
  cases hmv : mv.isClock with
  | false => exact (move_timeless hw hmv).retentionMs
  | true =>
    cases mv with
    | clock nowMs => rfl
    | _ => cases hmv

/-- Time does not go back. -/
theorem le_move_nowMs (hw : w.Sound) (mv : Move) : w.host.nowMs ≤ (w.move mv).host.nowMs := by
  cases hmv : mv.isClock with
  | false => exact Nat.le_of_eq (move_timeless hw hmv).nowMs.symm
  | true =>
    cases mv with
    | clock nowMs => exact Nat.le_max_left _ _
    | _ => cases hmv

theorem run_retentionMs (hw : w.Sound) (moves : List Move) :
    (w.run moves).retentionMs = w.retentionMs := by
  induction moves using List.reverseRecOn with
  | nil => rfl
  | append_singleton moves mv ih =>
    rw [run_concat, move_retentionMs (run_sound hw moves), ih]

theorem le_run_nowMs (hw : w.Sound) (before after : List Move) :
    (w.run before).host.nowMs ≤ (w.run (before ++ after)).host.nowMs := by
  induction after using List.reverseRecOn with
  | nil => exact Nat.le_of_eq (by rw [List.append_nil])
  | append_singleton after mv ih =>
    rw [← List.append_assoc, run_concat]
    exact Nat.le_trans ih (le_move_nowMs (run_sound hw _) mv)

/-! ## Jobs -/

/-- What holds of every job that there is. -/
def JobsAll (w : World) (P : Job → Prop) : Prop := ∀ k j, w.job? k = some j → P j

section JobsAll

variable {P : Job → Prop}

theorem JobsAll.spawn (h : w.JobsAll P) {sid : String} {task : Task}
    (hnew : P ⟨w.jobCount, sid, task⟩) : (w.spawn sid task).JobsAll P := by
  intro k j hj
  rw [job?_spawn] at hj
  cases hk : w.job? k with
  | some j' => rw [hk, Option.some_or] at hj; cases hj; exact h k _ hk
  | none =>
    rw [hk, Option.none_or] at hj
    split at hj
    · cases hj; exact hnew
    · cases hj

theorem JobsAll.spawnStarted (sid : String) (undated : ∀ k task, task.isDated = false →
    P ⟨k, sid, task⟩) : ∀ (started : List Started) {w : World}, w.JobsAll P →
      (w.spawnStarted sid started).JobsAll P
  | [], _, h => h
  | x :: rest, w, h =>
    JobsAll.spawnStarted sid undated rest (h.spawn (undated _ _ (by cases x <;> rfl)))

theorem JobsAll.setTask (h : w.JobsAll P) {k : Nat} {j : Job} (hj : w.job? k = some j)
    {task : Task} (hnew : P { j with task }) : (w.setTask k task).JobsAll P := by
  intro k' j' hj'
  rw [job?_setTask] at hj'
  by_cases hk : k' = k
  · subst hk
    rw [hj, Option.map_some, if_pos rfl] at hj'
    cases hj'
    exact hnew
  · simp only [if_neg hk, Option.map_id'] at hj'
    exact h k' j' hj'

theorem JobsAll.endJob (h : w.JobsAll P) (k : Nat) : (w.endJob k).JobsAll P := by
  intro k' j' hj'
  by_cases hk : k' = k
  · rw [hk, job?_endJob_self] at hj'; cases hj'
  · rw [job?_endJob_of_ne w hk] at hj'
    exact h k' j' hj'

/-- A turn of a retention whose session has completed sets a deadline. -/
structure Dates (w : World) (k : Nat) (sid : String) : Prop where
  job : w.job? k = some ⟨k, sid, .retention none⟩
  completed : ∃ s, w.session? sid = some s ∧ s.state.isCompleted = true

variable {j : Job} {s : Session}

theorem JobsAll.turnLoop (h : w.JobsAll P) (undated : ∀ k sid task, task.isDated = false →
    P ⟨k, sid, task⟩) : (w.turnLoop j s).JobsAll P := by
  have hput : (w.putSession s.turn.1).JobsAll P := h
  have hstarted := hput.spawnStarted s.turn.1.id (undated · s.turn.1.id) s.turn.2.toList
  simp only [World.turnLoop]
  split
  · exact hstarted.endJob j.id
  · exact hstarted

theorem JobsAll.turnAction (h : w.JobsAll P) (undated : ∀ k sid task, task.isDated = false →
    P ⟨k, sid, task⟩) (hj : w.job? j.id = some j) (token : Nat) (invocation : Epoch)
    (progress : Progress ActionResult) :
    (w.turnAction j s token invocation progress).JobsAll P := by
  unfold World.turnAction
  split
  · split
    · exact h.endJob j.id
    · exact h.setTask hj (undated _ _ _ rfl)
  · exact h.endJob j.id
  · exact JobsAll.setTask (w := w.absorb s _) h hj (undated _ _ _ rfl)

/-- Of all turns only that of a retention sets a deadline. -/
theorem JobsAll.turnJob (h : w.JobsAll P) (undated : ∀ k sid task, task.isDated = false →
    P ⟨k, sid, task⟩) (dated : ∀ k sid, w.Dates k sid →
      P ⟨k, sid, .retention (some (w.host.nowMs + w.retentionMs))⟩)
    (hj : w.job? j.id = some j) (hs : w.session? j.session = some s) :
    (w.turnJob j s).JobsAll P := by
  obtain ⟨k, sid, task⟩ := j
  cases task with
  | loop => exact h.turnLoop undated
  | action token invocation progress => exact h.turnAction undated hj _ _ _
  | report invocation result => exact JobsAll.endJob (w := w.putSession _) h k
  | display epoch untilMs =>
    change (w.turnDisplay _ s epoch untilMs).JobsAll P
    unfold turnDisplay
    split
    · exact h.endJob k
    · split
      · exact JobsAll.endJob (w := w.putSession _) h k
      · exact h
  | retention untilMs =>
    change (w.turnRetention _ s untilMs).JobsAll P
    rcases turnRetention_cases w ⟨k, sid, .retention untilMs⟩ s untilMs with
      ⟨-, ht⟩ | ⟨-, rfl, hcompleted, ht⟩ | ⟨-, -, ht⟩ | ht
    · rw [ht]; exact h.endJob k
    · rw [ht]; exact h.setTask hj (dated k sid ⟨hj, s, hs, hcompleted⟩)
    · rw [ht]; exact JobsAll.endJob (w := w.forget s) h k
    · rw [ht]; exact h
  | feed f => exact h.setTask hj (undated _ _ _ rfl)
  | call c =>
    change (w.turnCall _ s c).JobsAll P
    rw [turnCall_eq]
    exact JobsAll.setTask (w := w.absorb _ _) h hj (undated _ _ _ rfl)

theorem JobsAll.shutDown (h : w.JobsAll P) (sid : String) : (w.shutDown sid).JobsAll P := by
  unfold World.shutDown
  split <;> exact h

theorem JobsAll.foldl_shutDown : ∀ (ids : List String) {w : World}, w.JobsAll P →
    (ids.foldl (fun w id => w.shutDown id) w).JobsAll P
  | [], _, h => h
  | id :: rest, _, h => JobsAll.foldl_shutDown rest (h.shutDown id)

/-- What holds of every job holds of every job after a move, if it holds of tasks without a deadline
and of each deadline that the move sets. -/
theorem JobsAll.move (h : w.JobsAll P) (undated : ∀ k sid task, task.isDated = false →
    P ⟨k, sid, task⟩) (mv : Move) (dated : ∀ k sid, w.Dates k sid →
      P ⟨k, sid, .retention (some (w.host.nowMs + w.retentionMs))⟩) :
    (w.move mv).JobsAll P := by
  cases mv with
  | turn k =>
    simp only [World.move, turn]
    split
    · exact h
    · next j hj =>
      split
      · exact h
      · next s hs =>
        split
        · exact h.turnJob undated dated (by rw [job?_id hj, hj]) hs
        · exact h
  | clock nowMs => exact h
  | create id m metadata =>
    simp only [World.move]
    split
    · exact h
    · have hput : (w.putSession (Session.start id m metadata).1).JobsAll P := h
      have hloop := (hput.spawnStarted id (undated · id) (Session.start id m metadata).2).spawn
        (undated _ id .loop rfl)
      exact JobsAll.spawn (w := { World.spawn _ id .loop with live := _ }) hloop
        (undated _ id (.retention none) rfl)
  | ask id request =>
    simp only [World.move]
    split
    · exact h.spawn (undated _ _ _ rfl)
    · exact h
  | follow id =>
    simp only [World.move]
    split
    · exact h.spawn (undated _ _ _ rfl)
    · exact h
  | drop k =>
    simp only [World.move]
    split
    · exact h.endJob k
    · exact h
  | shutDown id => exact h.shutDown id
  | remove id =>
    rcases remove_cases w id with hr | hr
    · rw [hr]; exact h
    · rw [hr]; exact JobsAll.shutDown (w := { w with live := w.live.filter (· ≠ id) }) h id
  | shutDownAll => exact JobsAll.foldl_shutDown w.live (w := { w with live := [] }) h

end JobsAll

end World

end Dialogue
