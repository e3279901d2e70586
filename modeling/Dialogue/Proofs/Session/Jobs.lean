import Dialogue.Proofs.Session.Evolution

/-!
What becomes of jobs.

`Spares w w' own` says that between two worlds jobs may have been added and the job `own` may have
changed or ended, and that all other jobs are as they were. A turn spares all jobs but the one that
takes it (`turn_spares`).
-/
namespace Dialogue

namespace World

/-- The jobs have ids that were given out. -/
def Counted (w : World) : Prop := ∀ j ∈ w.jobs, j.id < w.jobCount

/-- All that happened to jobs is that some were added and one changed or ended. -/
structure Spares (w w' : World) (own : Option Nat) : Prop where
  registry : w'.registry = w.registry
  jobCount : w.jobCount ≤ w'.jobCount
  counted : w.Counted → w'.Counted
  others : ∀ k, k < w.jobCount → own ≠ some k → w'.job? k = w.job? k

variable {w w' w'' : World} {own : Option Nat}

theorem Spares.refl (w : World) (own : Option Nat) : Spares w w own :=
  ⟨rfl, Nat.le_refl _, id, fun _ _ _ => rfl⟩

theorem Spares.trans (h : Spares w w' own) (h' : Spares w' w'' own) : Spares w w'' own where
  registry := h'.registry.trans h.registry
  jobCount := Nat.le_trans h.jobCount h'.jobCount
  counted := fun hc => h'.counted (h.counted hc)
  others := by
    intro k hk hne
    rw [h'.others k (Nat.lt_of_lt_of_le hk h.jobCount) hne, h.others k hk hne]

/-! ## Changes of the world -/

theorem putSession_spares (w : World) (s : Session) (own : Option Nat) :
    Spares w (w.putSession s) own :=
  ⟨rfl, Nat.le_refl _, id, fun _ _ _ => rfl⟩

theorem absorb_spares (w : World) (s : Session) (site : Site) (own : Option Nat) :
    Spares w (w.absorb s site) own :=
  ⟨rfl, Nat.le_refl _, id, fun _ _ _ => rfl⟩

theorem spawn_spares (w : World) (session : String) (task : Task) (own : Option Nat) :
    Spares w (w.spawn session task) own where
  registry := rfl
  jobCount := Nat.le_succ _
  counted := by
    intro h j hj
    rcases List.mem_append.1 hj with hj | hj
    · exact Nat.lt_succ_of_lt (h j hj)
    · rw [List.mem_singleton.1 hj]; exact Nat.lt_succ_self _
  others := fun _ hk _ => w.job?_spawn_of_ne (Nat.ne_of_lt hk) session task

theorem job?_spawn_new (hw : w.Counted) (sid : String) (task : Task) :
    (w.spawn sid task).job? w.jobCount = some ⟨w.jobCount, sid, task⟩ := by
  have hnone : w.job? w.jobCount = none := by
    rw [job?, List.find?_eq_none]
    intro j hj
    simpa using Nat.ne_of_lt (hw j hj)
  rw [job?_spawn, hnone, Option.none_or, if_pos rfl]

theorem spawnStarted_spares (session : String) (own : Option Nat) :
    ∀ (started : List Started) (w : World), Spares w (w.spawnStarted session started) own
  | [], w => Spares.refl w own
  | x :: rest, w => (w.spawn_spares session (w.taskOf x) own).trans
      (spawnStarted_spares session own rest _)

theorem setTask_spares (w : World) (job : Nat) (task : Task) :
    Spares w (w.setTask job task) (some job) where
  registry := rfl
  jobCount := Nat.le_refl _
  counted := by
    intro h j hj
    obtain ⟨i, hi, rfl⟩ := List.mem_map.1 hj
    have := h i hi
    split <;> exact this
  others := by
    intro k _ hne
    have hk : k ≠ job := fun he => hne (congrArg some he.symm)
    rw [job?_setTask]
    simp only [if_neg hk, Option.map_id']

theorem endJob_spares (w : World) (job : Nat) : Spares w (w.endJob job) (some job) where
  registry := rfl
  jobCount := Nat.le_refl _
  counted := fun h j hj => h j (List.mem_filter.1 hj).1
  others := fun _ _ hne => w.job?_endJob_of_ne fun he => hne (congrArg some he.symm)

/-! ## Turns -/

theorem turnLoop_spares (w : World) (j : Job) (s : Session) :
    Spares w (w.turnLoop j s) (some j.id) := by
  have hstarted := (w.putSession_spares s.turn.1 (some j.id)).trans
    (spawnStarted_spares s.turn.1.id (some j.id) s.turn.2.toList _)
  simp only [turnLoop]
  split
  · exact hstarted.trans (endJob_spares _ j.id)
  · exact hstarted

theorem turnAction_spares (w : World) (j : Job) (s : Session) (token : Nat) (invocation : Epoch)
    (progress : Progress ActionResult) :
    Spares w (w.turnAction j s token invocation progress) (some j.id) := by
  unfold turnAction
  split
  · split
    · exact endJob_spares w j.id
    · exact setTask_spares w j.id _
  · exact endJob_spares w j.id
  · exact (w.absorb_spares s _ _).trans (setTask_spares _ j.id _)

theorem turnDisplay_spares (w : World) (j : Job) (s : Session) (epoch : Epoch) (untilMs : Nat) :
    Spares w (w.turnDisplay j s epoch untilMs) (some j.id) := by
  unfold turnDisplay
  split
  · exact endJob_spares w j.id
  · split
    · exact (w.putSession_spares _ _).trans (endJob_spares _ j.id)
    · exact Spares.refl w _

theorem forget_spares (w : World) (s : Session) (own : Option Nat) : Spares w (w.forget s) own :=
  ⟨rfl, Nat.le_refl _, id, fun _ _ _ => rfl⟩

theorem turnRetention_spares (w : World) (j : Job) (s : Session) (untilMs : Option Nat) :
    Spares w (w.turnRetention j s untilMs) (some j.id) := by
  unfold turnRetention
  split
  · exact endJob_spares w j.id
  · split
    · split
      · exact setTask_spares w j.id _
      · exact Spares.refl w _
    · split
      · exact (w.forget_spares s _).trans (endJob_spares _ j.id)
      · exact Spares.refl w _

theorem turnCall_spares (w : World) (j : Job) (s : Session) (c : Call) :
    Spares w (w.turnCall j s c) (some j.id) := by
  rw [turnCall_eq]
  exact (w.absorb_spares _ _ _).trans (setTask_spares _ j.id _)

theorem turnJob_spares (w : World) (j : Job) (s : Session) :
    Spares w (w.turnJob j s) (some j.id) := by
  unfold turnJob
  split
  · exact turnLoop_spares w j s
  · exact turnAction_spares w j s _ _ _
  · exact (w.putSession_spares _ _).trans (endJob_spares _ j.id)
  · exact turnDisplay_spares w j s _ _
  · exact turnRetention_spares w j s _
  · exact setTask_spares w j.id _
  · exact turnCall_spares w j s _

/-- A turn changes no job but the one that takes it. -/
theorem turn_spares (w : World) (job : Nat) : Spares w (w.turn job) (some job) := by
  unfold turn
  split
  · exact Spares.refl w _
  · next j hj =>
    rw [← job?_id hj]
    split
    · exact Spares.refl w _
    · split
      · exact turnJob_spares w j _
      · exact Spares.refl w _

/-- A turn of a call in full: the call and the session afterwards. -/
theorem turn_call {k : Nat} {sid : String} {c : Call} {s : Session}
    (hj : w.job? k = some ⟨k, sid, .call c⟩) (hs : w.session? sid = some s) (hid : s.id = sid) :
    (w.turn k = w ∧ c.canTurn (w.site s false) s = false) ∨
    ((w.turn k).job? k = some ⟨k, sid, .call (c.turn w.registry (w.site s false) s).1⟩ ∧
      (w.turn k).session? sid = some ((c.turn w.registry (w.site s false) s).2.1.absorbed
        (c.turn w.registry (w.site s false) s).2.2)) := by
  have hcan : w.canTurn ⟨k, sid, .call c⟩ = c.canTurn (w.site s false) s := by
    simp [canTurn, hs]
  unfold turn
  simp only [hj, hs, hcan]
  cases hc : c.canTurn (w.site s false) s with
  | false => exact .inl ⟨by simp, rfl⟩
  | true =>
    refine .inr ?_
    rw [if_pos rfl]
    change (w.turnCall _ s c).job? k = _ ∧ (w.turnCall _ s c).session? sid = _
    rw [turnCall_eq]
    constructor
    · rw [job?_setTask, job?_absorb, hj]
      simp
    · rw [session?_setTask, session?_absorb, Call.turn_id, hid, if_pos rfl]

end World

end Dialogue
