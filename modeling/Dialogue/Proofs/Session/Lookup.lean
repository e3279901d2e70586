import Dialogue.Session.World

/-!
Sessions and jobs after a change of the world.

A change names one session or one job. For each change there is one lemma about the sessions that
are found after it and one about the jobs; all others are found as before.
-/
namespace Dialogue

/-- The session with what work has left behind: its store, and the navigations as updates. -/
def Session.absorbed (s : Session) (site : Site) : Session :=
  { s with store := site.stores.own, updates := s.updates ++ site.navigations.map .navigate }

theorem Session.foldl_tell : ∀ (navigations : List Navigation) (s : Session),
    navigations.foldl (fun s n => s.tell (.navigate n)) s =
      { s with updates := s.updates ++ navigations.map .navigate }
  | [], s => by simp
  | n :: rest, s => by
    rw [List.foldl_cons, foldl_tell rest]
    simp [tell]

namespace World

variable (w : World)

/-! ## Sessions -/

theorem session?_putSession (s : Session) (id : String) :
    (w.putSession s).session? id = if id = s.id then some s else w.session? id :=
  Entries.get?_set _ _ _ _

@[simp] theorem session?_setTask (job : Nat) (task : Task) (id : String) :
    (w.setTask job task).session? id = w.session? id := rfl

@[simp] theorem session?_endJob (job : Nat) (id : String) :
    (w.endJob job).session? id = w.session? id := rfl

@[simp] theorem session?_spawnStarted (session : String) (id : String) :
    ∀ (started : List Started) (w : World),
      (w.spawnStarted session started).session? id = w.session? id
  | [], _ => rfl
  | x :: rest, w => session?_spawnStarted session id rest (w.spawn session (w.taskOf x))

theorem absorb_eq (s : Session) (site : Site) :
    w.absorb s site =
      { w with host := site.host, durable := site.stores.shared }.putSession (s.absorbed site) := by
  rw [absorb, Session.foldl_tell]
  rfl

theorem session?_absorb (s : Session) (site : Site) (id : String) :
    (w.absorb s site).session? id =
      if id = s.id then some (s.absorbed site) else w.session? id := by
  rw [absorb_eq, session?_putSession]
  rfl

/-! ## Jobs -/

@[simp] theorem job?_absorb (s : Session) (site : Site) (k : Nat) :
    (w.absorb s site).job? k = w.job? k := rfl

theorem job?_id {w : World} {k : Nat} {j : Job} (h : w.job? k = some j) : j.id = k := by
  have := List.find?_some h
  simpa using this

theorem job?_spawn (session : String) (task : Task) (k : Nat) :
    (w.spawn session task).job? k =
      (w.job? k).or (if w.jobCount = k then some ⟨w.jobCount, session, task⟩ else none) := by
  simp [job?, spawn, List.find?_append, List.find?_singleton]

theorem job?_spawn_of_ne {k : Nat} (h : k ≠ w.jobCount) (session : String) (task : Task) :
    (w.spawn session task).job? k = w.job? k := by
  have hne : ¬ w.jobCount = k := fun he => h he.symm
  simp [job?, spawn, List.find?_append, hne]

theorem job?_spawnStarted_of_lt {k : Nat} (session : String) : ∀ (started : List Started)
    (w : World), k < w.jobCount → (w.spawnStarted session started).job? k = w.job? k
  | [], _, _ => rfl
  | x :: rest, w, h => by
    have hlt : k < (w.spawn session (w.taskOf x)).jobCount := Nat.lt_succ_of_lt h
    rw [spawnStarted, List.foldl_cons]
    exact (job?_spawnStarted_of_lt session rest _ hlt).trans
      (w.job?_spawn_of_ne (Nat.ne_of_lt h) session _)

theorem job?_setTask (k job : Nat) (task : Task) :
    (w.setTask job task).job? k =
      (w.job? k).map fun j => if k = job then { j with task } else j := by
  rw [job?, setTask, List.find?_map]
  -- A job keeps its id with a new task, so the search finds it at the same place.
  have hsame : ((fun j : Job => decide (j.id = k)) ∘ fun j =>
      if j.id = job then { j with task } else j) = fun j => decide (j.id = k) := by
    funext j
    by_cases hj : j.id = job <;> simp [hj]
  rw [hsame]
  cases hf : w.jobs.find? (fun j => decide (j.id = k)) with
  | none => simp [job?, hf]
  | some j =>
    have hid : j.id = k := job?_id (w := w) hf
    simp [job?, hf, hid]

theorem job?_endJob_self (k : Nat) : (w.endJob k).job? k = none := by
  rw [job?, endJob, List.find?_eq_none]
  intro j hj
  have := (List.mem_filter.1 hj).2
  simpa using this

theorem job?_endJob_of_ne {k job : Nat} (h : k ≠ job) : (w.endJob job).job? k = w.job? k := by
  rw [job?, endJob, List.find?_filter]
  refine congrArg (List.find? · w.jobs) (funext fun j => ?_)
  by_cases hj : j.id = k
  · subst hj; simp [h]
  · simp [hj]

end World

end Dialogue
