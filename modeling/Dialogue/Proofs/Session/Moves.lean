import Dialogue.Proofs.Session.Jobs

/-!
Runs of the world.

A run is any sequence of moves: turns of jobs, steps of the clock, new sessions, and whatever
clients and the owner of the sessions do, in any order. `Sound` is what the bookkeeping of ids
relies on; it holds in every world of a run (`run_sound`). What the start of a session brings about
and each `Session.Next` keeps holds of every session in every run (`run_session`).
-/
namespace Dialogue

/-- What a client asks of a session. -/
inductive Request where
  | draw
  | answer (raw : Json)
  | send (e : ClientEvent)
  | dispatch (e : Event)

/-- The call that a request begins. -/
def Request.call : Request → Call
  | .draw => .look
  | .answer raw => .name raw
  | .send e => .ofClientEvent e
  | .dispatch e => .submit e .dispatch

/-- Whether the task is done for a client, who may give it up. -/
def Task.isClients : Task → Bool
  | .call _ => true
  | .feed _ => true
  | _ => false

/-- Something that happens in the world. -/
inductive Move where
  | turn (job : Nat)
  | clock (nowMs : Nat)
  | create (session : String) (m : Machine) (metadata : Json.Fields)
  | ask (session : String) (request : Request)
  /-- A client opens a feed. -/
  | follow (session : String)
  /-- A client gives up a call or a feed. -/
  | drop (job : Nat)
  | shutDown (session : String)
  | remove (session : String)
  | shutDownAll

/-- The job that a move concerns. -/
def Move.job? : Move → Option Nat
  | .turn job => some job
  | .drop job => some job
  | _ => none

namespace World

/-- The world after a move. Ids of sessions are not used twice, and clients reach only sessions that
there are. -/
def move (w : World) : Move → World
  | .turn job => w.turn job
  | .clock nowMs => w.moveClock nowMs
  | .create id m metadata =>
    match w.session? id with
    | some _ => w
    | none => w.create id m metadata
  | .ask id request =>
    match w.session? id with
    | some _ => w.spawn id (.call request.call)
    | none => w
  | .follow id =>
    match w.session? id with
    | some s => w.spawn id (.feed (.start s))
    | none => w
  | .drop job => if (w.job? job).any (·.task.isClients) then w.endJob job else w
  | .shutDown id => w.shutDown id
  | .remove id => (w.remove id).toOption.getD w
  | .shutDownAll => w.shutDownAll

/-- The world after moves. -/
def run (w : World) (moves : List Move) : World := moves.foldl move w

@[simp] theorem run_nil (w : World) : w.run [] = w := rfl

theorem run_cons (w : World) (mv : Move) (moves : List Move) :
    w.run (mv :: moves) = (w.move mv).run moves := rfl

@[simp] theorem run_append (w : World) (before after : List Move) :
    w.run (before ++ after) = (w.run before).run after :=
  List.foldl_append

theorem run_concat (w : World) (moves : List Move) (mv : Move) :
    w.run (moves ++ [mv]) = (w.run moves).move mv := by
  rw [run_append, run_cons, run_nil]

/-- What holds at the beginning and is kept by every move holds after all of them. -/
theorem run_induction {P : World → Prop} (keep : ∀ w mv, P w → P (w.move mv)) :
    ∀ (moves : List Move) (w : World), P w → P (w.run moves)
  | [], _, h => h
  | mv :: rest, w, h => run_induction keep rest (w.move mv) (keep w mv h)

/-- Sessions stand under their ids, and the ids of jobs were given out. -/
structure Sound (w : World) : Prop where
  keyed : ∀ id s, w.session? id = some s → s.id = id
  counted : w.Counted

/-- A world before the first session. -/
structure Empty (w : World) : Prop where
  sessions : w.sessions = []
  jobs : w.jobs = []

theorem Empty.sound {w : World} (h : w.Empty) : w.Sound where
  keyed := by
    intro id s hs
    rw [session?, h.sessions] at hs
    cases hs
  counted := by
    intro j hj
    rw [h.jobs] at hj
    cases hj

variable {w : World}

/-! ## Sessions -/

/-- Each session is there still and is related to what it was, and there is no other one. -/
structure Evolves (R : Session → Session → Prop) (w w' : World) : Prop where
  kept : ∀ {id s}, w.session? id = some s → ∃ s', w'.session? id = some s' ∧ R s s'
  absent : ∀ {id}, w.session? id = none → w'.session? id = none

section Evolves

variable {R : Session → Session → Prop} {w' w'' : World}

theorem Evolves.refl (hR : ∀ s, R s s) (w : World) : Evolves R w w :=
  ⟨fun {_ s} hs => ⟨s, hs, hR s⟩, id⟩

theorem Evolves.trans (hR : ∀ {s s' s''}, R s s' → R s' s'' → R s s'') (h : Evolves R w w')
    (h' : Evolves R w' w'') : Evolves R w w'' where
  kept := by
    intro id s hs
    obtain ⟨t, ht, hst⟩ := h.kept hs
    obtain ⟨t', ht', htt⟩ := h'.kept ht
    exact ⟨t', ht', hR hst htt⟩
  absent := fun hs => h'.absent (h.absent hs)

theorem Evolves.imp {Q : Session → Session → Prop} (hQ : ∀ {s s'}, R s s' → Q s s')
    (h : Evolves R w w') : Evolves Q w w' where
  kept := by
    intro id s hs
    obtain ⟨s', hs', hr⟩ := h.kept hs
    exact ⟨s', hs', hQ hr⟩
  absent := h.absent

theorem Replaces.evolves {s s' : Session} (hr : Replaces w w' s s') (hw : w.Sound)
    (hR : ∀ t, t.id ≠ s.id → R t t) (hs : w.session? s.id = some s) (h : R s s') :
    Evolves R w w' where
  kept := by
    intro id t ht
    by_cases hid : id = s.id
    · subst hid
      rw [hs] at ht
      cases ht
      exact ⟨s', by rw [hr, if_pos rfl], h⟩
    · have hne : t.id ≠ s.id := by rwa [hw.keyed _ _ ht]
      exact ⟨t, by rw [hr, if_neg hid, ht], hR t hne⟩
  absent := by
    intro id ht
    have hne : id ≠ s.id := by rintro rfl; rw [hs] at ht; cases ht
    rw [hr, if_neg hne, ht]

end Evolves

/-- Whether the move is a turn of the loop of this session. -/
def loops (w : World) (id : String) : Move → Bool
  | .turn job => (w.job? job).any fun j => j.session = id && j.task.isLoop && w.canTurn j
  | _ => false

/-- What a move makes of a session: its loop gives it a turn, or something happens beside it. -/
def Moved (w : World) (mv : Move) (s s' : Session) : Prop :=
  if w.loops s.id mv then s' = s.turn.1 else s.Beside s'

theorem Moved.next {mv : Move} {s s' : Session} (h : w.Moved mv s s') : s.Next s' := by
  unfold Moved at h
  split at h
  · rw [h]; exact .turned
  · exact h.next

theorem moved_of_beside {mv : Move} {s s' : Session} (hl : w.loops s.id mv = false)
    (h : s.Beside s') : w.Moved mv s s' := by
  rw [Moved, hl]
  exact h

theorem turn_evolves (hw : w.Sound) (job : Nat) :
    Evolves (w.Moved (.turn job)) w (w.turn job) := by
  unfold turn
  split
  · next hj =>
    exact Evolves.refl (fun s => moved_of_beside (by simp [loops, hj]) .same) w
  · next j hj =>
    split
    · next hn =>
      exact Evolves.refl (fun s => moved_of_beside (by simp [loops, hj, canTurn, hn]) .same) w
    · next s hs =>
      have hkeyed := hw.keyed _ _ hs
      split
      · next hc =>
        have hid : w.session? s.id = some s := by rw [hkeyed, hs]
        obtain ⟨s', hn, hr⟩ := turnJob_session hid j
        refine hr.evolves hw (fun t hne => moved_of_beside ?_ .same) hid ?_
        · have hother : j.session ≠ t.id := by rw [← hkeyed]; exact hne.symm
          simp [loops, hj, hother]
        · rw [Moved, show w.loops s.id (.turn job) = j.task.isLoop by simp [loops, hj, hkeyed, hc]]
          exact hn
      · next hc =>
        exact Evolves.refl (fun s => moved_of_beside (by simp [loops, hj, hc]) .same) w

/-- The session was told to shut down, if anything. -/
def Shuts (s s' : Session) : Prop := s' = s ∨ s' = { s with shut := true }

theorem Shuts.trans {s s' s'' : Session} (h : Shuts s s') (h' : Shuts s' s'') : Shuts s s'' := by
  rcases h with rfl | rfl
  · exact h'
  · rcases h' with rfl | rfl <;> exact .inr rfl

theorem Shuts.beside {s s' : Session} (h : Shuts s s') : s.Beside s' := by
  rcases h with rfl | rfl
  · exact .same
  · exact .shut

theorem shutDown_sound (hw : w.Sound) (other : String) : (w.shutDown other).Sound := by
  unfold shutDown
  split
  · next t ht =>
    refine ⟨fun id s hs => ?_, hw.counted⟩
    rw [session?_putSession] at hs
    split at hs
    · next he => cases hs; exact he.symm
    · exact hw.keyed id s hs
  · exact hw

theorem shutDown_evolves (hw : w.Sound) (id : String) : Evolves Shuts w (w.shutDown id) := by
  unfold shutDown
  split
  · next s hs =>
    have hid : w.session? s.id = some s := by rw [hw.keyed _ _ hs, hs]
    have hr : Replaces w (w.putSession { s with shut := true }) s { s with shut := true } :=
      replaces_putSession rfl
    exact hr.evolves hw (fun _ _ => .inl rfl) hid (.inr rfl)
  · exact Evolves.refl (fun _ => .inl rfl) w

theorem foldl_shutDown_evolves : ∀ (ids : List String) (w : World), w.Sound →
    Evolves Shuts w (ids.foldl (fun w id => w.shutDown id) w)
  | [], w, _ => Evolves.refl (fun _ => .inl rfl) w
  | id :: rest, _, hw => (shutDown_evolves hw id).trans Shuts.trans
      (foldl_shutDown_evolves rest _ (shutDown_sound hw id))

theorem remove_cases (w : World) (id : String) :
    w.move (.remove id) = w ∨
      w.move (.remove id) = { w with live := w.live.filter (· ≠ id) }.shutDown id := by
  simp only [move, remove]
  split
  · exact .inr rfl
  · exact .inl rfl

theorem Sound.withLive (hw : w.Sound) (live : List String) : ({ w with live } : World).Sound :=
  ⟨hw.keyed, hw.counted⟩

theorem create_session (id : String) (m : Machine) (metadata : Json.Fields) (other : String) :
    (w.create id m metadata).session? other =
      if other = id then some (Session.start id m metadata).1 else w.session? other := by
  have hput := w.session?_putSession (Session.start id m metadata).1 other
  rw [Session.start_id] at hput
  rw [← hput]
  exact session?_spawnStarted id other _ _

/-- A move starts a session under a new id, or changes sessions that there are. -/
theorem move_evolves (hw : w.Sound) (mv : Move) :
    Evolves (w.Moved mv) w (w.move mv) ∨
      ∃ id m metadata, mv = .create id m metadata ∧ w.session? id = none := by
  have hrefl {mv : Move} (hl : ∀ id, w.loops id mv = false) : Evolves (w.Moved mv) w w :=
    Evolves.refl (fun s => moved_of_beside (hl s.id) .same) w
  have hshuts {mv : Move} (hl : ∀ id, w.loops id mv = false) {w' w'' : World}
      (h : Evolves Shuts w' w'') : Evolves (w.Moved mv) w' w'' :=
    h.imp fun hs => moved_of_beside (hl _) hs.beside
  cases mv with
  | turn job => exact .inl (turn_evolves hw job)
  | clock nowMs => exact .inl ⟨(hrefl fun _ => rfl).kept, id⟩
  | create id m metadata =>
    cases hs : w.session? id with
    | some s => exact .inl (by simpa only [move, hs] using hrefl fun _ => rfl)
    | none => exact .inr ⟨id, m, metadata, rfl, hs⟩
  | ask id request =>
    have h : Evolves (w.Moved (.ask id request)) w w := hrefl fun _ => rfl
    simp only [move]
    split
    · exact .inl ⟨h.kept, h.absent⟩
    · exact .inl h
  | follow id =>
    have h : Evolves (w.Moved (.follow id)) w w := hrefl fun _ => rfl
    simp only [move]
    split
    · exact .inl ⟨h.kept, h.absent⟩
    · exact .inl h
  | drop job =>
    have h : Evolves (w.Moved (.drop job)) w w := hrefl fun _ => rfl
    simp only [move]
    split
    · exact .inl ⟨h.kept, h.absent⟩
    · exact .inl h
  | shutDown id => exact .inl (hshuts (fun _ => rfl) (shutDown_evolves hw id))
  | remove id =>
    -- A removed session is only no longer live; whoever holds it still reaches it.
    rcases remove_cases w id with h | h
    · rw [h]; exact .inl (hrefl fun _ => rfl)
    · rw [h]
      have hshut := shutDown_evolves (hw.withLive (w.live.filter (· ≠ id))) id
      exact .inl (hshuts (fun _ => rfl) ⟨hshut.kept, hshut.absent⟩)
  | shutDownAll =>
    have hshut := foldl_shutDown_evolves w.live _ (hw.withLive [])
    exact .inl (hshuts (fun _ => rfl) ⟨hshut.kept, hshut.absent⟩)

/-- What a session is after a move. -/
theorem move_moved (hw : w.Sound) {id : String} {s : Session} (hs : w.session? id = some s)
    (mv : Move) : ∃ s', (w.move mv).session? id = some s' ∧ w.Moved mv s s' := by
  rcases move_evolves hw mv with h | ⟨other, m, metadata, rfl, hn⟩
  · exact h.kept hs
  · have hne : id ≠ other := by rintro rfl; rw [hs] at hn; cases hn
    refine ⟨s, ?_, moved_of_beside rfl .same⟩
    simp only [move, hn]
    rw [create_session, if_neg hne, hs]

/-- A session after a move has had a turn of its loop, or something happened beside it. -/
theorem move_cases (hw : w.Sound) {id : String} {s : Session} (hs : w.session? id = some s)
    (mv : Move) : ∃ s', (w.move mv).session? id = some s' ∧
      ((w.loops id mv = true ∧ s' = s.turn.1) ∨ (w.loops id mv = false ∧ s.Beside s')) := by
  obtain ⟨s', hs', hm⟩ := move_moved hw hs mv
  refine ⟨s', hs', ?_⟩
  rw [Moved, hw.keyed _ _ hs] at hm
  split at hm
  · next hl => exact .inl ⟨hl, hm⟩
  · next hl => exact .inr ⟨Bool.eq_false_iff.2 hl, hm⟩

/-- A session after a move. -/
theorem move_session (hw : w.Sound) {id : String} {s : Session} (hs : w.session? id = some s)
    (mv : Move) : ∃ s', (w.move mv).session? id = some s' ∧ s.Next s' := by
  obtain ⟨s', hs', hm⟩ := move_moved hw hs mv
  exact ⟨s', hs', hm.next⟩

/-- A session that there was not before a move has just been started. -/
theorem move_session_none (hw : w.Sound) {id : String} (hs : w.session? id = none) (mv : Move) :
    (w.move mv).session? id = none ∨ ∃ m metadata, mv = .create id m metadata ∧
      (w.move mv).session? id = some (Session.start id m metadata).1 := by
  rcases move_evolves hw mv with h | ⟨other, m, metadata, rfl, hn⟩
  · exact .inl (h.absent hs)
  · simp only [move, hn]
    by_cases he : id = other
    · subst he
      exact .inr ⟨m, metadata, rfl, by rw [create_session, if_pos rfl]⟩
    · exact .inl (by rw [create_session, if_neg he, hs])

/-! ## Jobs -/

theorem Spares.withLive {w' : World} {own : Option Nat} (h : Spares w w' own)
    (live : List String) : Spares w { w' with live } own :=
  ⟨h.registry, h.jobCount, h.counted, h.others⟩

theorem create_spares (w : World) (id : String) (m : Machine) (metadata : Json.Fields)
    (own : Option Nat) : Spares w (w.create id m metadata) own := by
  have hstarted := (w.putSession_spares (Session.start id m metadata).1 own).trans
    (spawnStarted_spares id own (Session.start id m metadata).2 _)
  have hloop := hstarted.trans (spawn_spares _ id .loop own)
  exact (hloop.withLive _).trans (spawn_spares _ id (.retention none) own)

theorem shutDown_spares (w : World) (id : String) (own : Option Nat) :
    Spares w (w.shutDown id) own := by
  unfold shutDown
  split
  · exact w.putSession_spares _ own
  · exact Spares.refl w own

theorem foldl_shutDown_spares (own : Option Nat) : ∀ (ids : List String) (w : World),
    Spares w (ids.foldl (fun w id => w.shutDown id) w) own
  | [], w => Spares.refl w own
  | id :: rest, w => (w.shutDown_spares id own).trans (foldl_shutDown_spares own rest _)

/-- Only turns and clients who give up change jobs that there are. -/
theorem move_spares (w : World) (mv : Move) : Spares w (w.move mv) mv.job? := by
  cases mv with
  | turn job => exact turn_spares w job
  | clock nowMs => exact ⟨rfl, Nat.le_refl _, id, fun _ _ _ => rfl⟩
  | create id m metadata =>
    simp only [move]
    split
    · exact Spares.refl w _
    · exact create_spares w id m metadata _
  | ask id request =>
    simp only [move]
    split
    · exact spawn_spares w id _ _
    · exact Spares.refl w _
  | follow id =>
    simp only [move]
    split
    · exact spawn_spares w id _ _
    · exact Spares.refl w _
  | drop job =>
    simp only [move]
    split
    · exact endJob_spares w job
    · exact Spares.refl w _
  | shutDown id => exact shutDown_spares w id _
  | remove id =>
    rcases remove_cases w id with h | h
    · rw [h]; exact Spares.refl w _
    · rw [h]
      exact ((Spares.refl w _).withLive _).trans (shutDown_spares _ id _)
  | shutDownAll =>
    exact ((Spares.refl w _).withLive []).trans (foldl_shutDown_spares _ w.live _)

/-- A job is as it was before a move, unless the move is its own turn. -/
theorem job_of_move {mv : Move} {k : Nat} {j : Job} (hk : k < w.jobCount)
    (hj : (w.move mv).job? k = some j) : w.job? k = some j ∨ mv = .turn k := by
  by_cases hmv : mv.job? = some k
  · cases mv with
    | turn job => cases hmv; exact .inr rfl
    | drop job =>
      -- A client that gives a job up ends it.
      cases hmv
      simp only [move] at hj
      split at hj
      · rw [job?_endJob_self] at hj; cases hj
      · exact .inl hj
    | _ => cases hmv
  · rw [(move_spares w mv).others k hk hmv] at hj
    exact .inl hj

/-! ## Runs -/

theorem move_sound (hw : w.Sound) (mv : Move) : (w.move mv).Sound where
  keyed := by
    intro id s' hs'
    cases hs : w.session? id with
    | some s =>
      obtain ⟨t, ht, hn⟩ := move_session hw hs mv
      rw [hs'] at ht
      cases ht
      rw [hn.toSame.id, hw.keyed _ _ hs]
    | none =>
      rcases move_session_none hw hs mv with hn | ⟨m, metadata, -, hn⟩
      · rw [hs'] at hn; cases hn
      · rw [hs'] at hn
        cases hn
        exact Session.start_id id m metadata
  counted := (move_spares w mv).counted hw.counted

theorem run_sound (hw : w.Sound) (moves : List Move) : (w.run moves).Sound :=
  run_induction (P := Sound) (fun _ mv h => move_sound h mv) moves w hw

theorem run_registry : ∀ (moves : List Move) (w : World), (w.run moves).registry = w.registry
  | [], _ => rfl
  | mv :: rest, w => (run_registry rest (w.move mv)).trans (w.move_spares mv).registry

theorem le_run_jobCount : ∀ (moves : List Move) (w : World), w.jobCount ≤ (w.run moves).jobCount
  | [], _ => Nat.le_refl _
  | mv :: rest, w => Nat.le_trans (w.move_spares mv).jobCount (le_run_jobCount rest (w.move mv))

/-- What each change keeps holds of a session at any later time. -/
theorem run_session_later {P : Session → Prop} (keep : ∀ s s', P s → s.Next s' → P s')
    {id : String} : ∀ (moves : List Move) {w : World} {s : Session}, w.Sound →
      w.session? id = some s → P s → ∃ s', (w.run moves).session? id = some s' ∧ P s'
  | [], _, s, _, hs, hp => ⟨s, hs, hp⟩
  | mv :: rest, _, s, hw, hs, hp => by
    obtain ⟨t, ht, hn⟩ := move_session hw hs mv
    exact run_session_later keep rest (move_sound hw mv) ht (keep s t hp hn)

theorem run_session_some (hw : w.Sound) {id : String} {s : Session} (hs : w.session? id = some s)
    (moves : List Move) : ∃ s', (w.run moves).session? id = some s' := by
  obtain ⟨s', hs', -⟩ := run_session_later (P := fun _ => True) (fun _ _ _ _ => trivial) moves hw hs
    trivial
  exact ⟨s', hs'⟩

/-- What holds of a session at its start and is kept by each change always holds of all of them. -/
theorem run_session {P : Session → Prop}
    (start : ∀ id m metadata, P (Session.start id m metadata).1)
    (keep : ∀ s s', P s → s.Next s' → P s') (hw : w.Empty) (moves : List Move) :
    ∀ id s, (w.run moves).session? id = some s → P s := by
  refine (run_induction (P := fun w => w.Sound ∧ ∀ id s, w.session? id = some s → P s)
    (fun w mv h => ⟨move_sound h.1 mv, fun id s' hs' => ?_⟩) moves w ⟨hw.sound, ?_⟩).2
  · cases hs : w.session? id with
    | some s =>
      obtain ⟨t, ht, hn⟩ := move_session h.1 hs mv
      rw [hs'] at ht
      cases ht
      exact keep _ _ (h.2 _ _ hs) hn
    | none =>
      rcases move_session_none h.1 hs mv with hn | ⟨m, metadata, -, hn⟩
      · rw [hs'] at hn; cases hn
      · rw [hs'] at hn
        cases hn
        exact start id m metadata
  · intro id s hs
    rw [session?, hw.sessions] at hs
    cases hs

end World

end Dialogue
