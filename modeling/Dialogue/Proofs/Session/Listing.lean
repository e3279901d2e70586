import Dialogue.Proofs.Session.Flight
import Dialogue.Proofs.Session.Upkeep

/-!
The list of the sessions that can be found.

A session is in the list from its creation until it is told to shut down, so the list and the
sessions say the same (`Listed.move`, `run_listed`). It leaves the list by a dismissal, by name or
with all others, or because its retention has run out (`shut_cases`). Neither touches anything of
another session (`Within`). Once a session has stopped it has nothing left to do and nothing in
flight (`Session.Rests`).
-/
namespace Dialogue

/-! ## Stopped sessions -/

namespace Session

/-- The session has stopped for good. -/
structure Rests (s : Session) : Prop where
  shut : s.shut = true
  deeds : s.deeds = []
  inFlight : s.inFlight = none

/-- A session that has stopped was told to, and has nothing left to do. -/
def StopsIdle (s : Session) : Prop := s.stopped = true → s.Rests

theorem Keeps.stopsIdle {s s' : Session} (h : s.Keeps s') (hs : s.StopsIdle) : s'.StopsIdle := by
  intro hstop
  rw [h.stopped] at hstop
  obtain ⟨hshut, hdeeds, hflight⟩ := hs hstop
  exact ⟨h.shut hshut, h.deeds.trans hdeeds, h.inFlight.trans hflight⟩

theorem turn_stopsIdle {s : Session} (hs : s.StopsIdle) : s.turn.1.StopsIdle := by
  rcases turn_cases s with ⟨deed, rest, hd, ht⟩ | ⟨hd, hshut, ht⟩ | ⟨e, rest, -, hrun, -, ht⟩ | ht
  · rw [ht]
    intro hstop
    rw [(act_deals _ deed).stopped] at hstop
    rw [(hs hstop).deeds] at hd
    cases hd
  · rw [ht]
    intro _
    refine ⟨(cancelInFlight_deals s).shut.trans hshut, ?_, cancelInFlight_none s⟩
    change s.cancelInFlight.deeds = []
    rw [cancelInFlight_deeds, hd]
  · rw [ht]
    intro hstop
    rw [(handle_deals _ e).stopped] at hstop
    rw [(hs hstop).shut] at hrun
    cases hrun
  · rw [ht]; exact hs

theorem Next.stopsIdle {s s' : Session} (hs : s.StopsIdle) (h : s.Next s') : s'.StopsIdle := by
  rcases h.cases with rfl | h
  · exact turn_stopsIdle hs
  · exact h.keeps.stopsIdle hs

theorem start_stopped (id : String) (m : Machine) (metadata : Json.Fields) :
    (start id m metadata).1.stopped = false :=
  (performAll_deals _ _).stopped

theorem start_shut (id : String) (m : Machine) (metadata : Json.Fields) :
    (start id m metadata).1.shut = false :=
  (performAll_deals _ _).shut

theorem start_stopsIdle (id : String) (m : Machine) (metadata : Json.Fields) :
    (start id m metadata).1.StopsIdle := by
  intro hstop
  rw [start_stopped] at hstop
  cases hstop

/-- A session that has stopped has stopped for good. -/
theorem Next.stopped {s s' : Session} (h : s.Next s') (hs : s.stopped = true) :
    s'.stopped = true := by
  rcases h.cases with rfl | h
  · rcases turn_cases s with ⟨deed, rest, -, ht⟩ | ⟨-, -, ht⟩ | ⟨e, rest, -, -, -, ht⟩ | ht
    · rw [ht]; exact (act_deals _ deed).stopped.trans hs
    · rw [ht]; rfl
    · rw [ht]; exact (handle_deals _ e).stopped.trans hs
    · rw [ht]; exact hs
  · exact h.keeps.stopped.trans hs

theorem Next.keepsShut {s s' : Session} (h : s.Next s') (hs : s.shut = true) : s'.shut = true := by
  rcases h.cases with rfl | h
  · exact (turn_shut s).trans hs
  · exact h.keeps.shut hs

end Session
/-! ## The list -/

/-- Whether the move creates the session. -/
def Move.creates (sid : String) : Move → Bool
  | .create id _ _ => id = sid
  | _ => false

/-- Whether the move dismisses the session: by name, or with all others. -/
def Move.dismisses (sid : String) : Move → Bool
  | .remove id => id = sid
  | .shutDownAll => true
  | _ => false

namespace World

variable {w w' : World} {sid : String} {mv : Move}

/-- The sessions that can be found are those that were not told to shut down, each once. -/
structure Listed (w : World) : Prop where
  nodup : w.live.Nodup
  live : ∀ sid, sid ∈ w.live ↔ w.shut? sid = some false

theorem Steady.listed (h : Steady w w') (hl : w.Listed) : w'.Listed where
  nodup := by rw [h.live]; exact hl.nodup
  live := by
    intro sid
    rw [h.live, h.shut]
    exact hl.live sid

/-- A session is dropped from the list and told to shut down. -/
theorem Listed.dismiss (hl : w.Listed) (id : String) (hlive : w'.live = w.live.filter (· ≠ id))
    (hshut : w'.shut? id ≠ some false) (hothers : ∀ other, other ≠ id →
      w'.shut? other = w.shut? other) : w'.Listed where
  nodup := by rw [hlive]; exact hl.nodup.filter _
  live := by
    intro sid
    rw [hlive, List.mem_filter]
    by_cases hid : sid = id
    · subst hid
      simp [hshut]
    · rw [hothers sid hid, ← hl.live sid]
      simp [hid]

theorem shut?_shutDown (hw : w.Sound) (id other : String) :
    (w.shutDown id).shut? other =
      if other = id then (w.shut? other).map fun _ => true else w.shut? other := by
  unfold shutDown
  split
  · next s hs =>
    rw [shut?_putSession]
    have hid : s.id = id := hw.keyed _ _ hs
    rw [hid]
    split
    · next he => rw [he, shut?, hs]; rfl
    · rfl
  · next hs =>
    split
    · next he => rw [he, shut?, hs]; rfl
    · rfl

theorem live_shutDown (w : World) (id : String) : (w.shutDown id).live = w.live := by
  unfold shutDown
  split <;> rfl

theorem foldl_shutDown_live : ∀ (ids : List String) (w : World),
    (ids.foldl (fun w id => w.shutDown id) w).live = w.live
  | [], _ => rfl
  | id :: rest, w => (foldl_shutDown_live rest (w.shutDown id)).trans (w.live_shutDown id)

theorem foldl_shutDown_shut? : ∀ (ids : List String) (w : World), w.Sound → ∀ other,
    (ids.foldl (fun w id => w.shutDown id) w).shut? other =
      if other ∈ ids then (w.shut? other).map fun _ => true else w.shut? other
  | [], w, _, other => by simp
  | id :: rest, w, hw, other => by
    rw [List.foldl_cons, foldl_shutDown_shut? rest _ (shutDown_sound hw id), shut?_shutDown hw]
    by_cases hid : other = id
    · subst hid
      cases w.shut? other <;> simp
    · simp [hid]

theorem create_live (w : World) (id : String) (m : Machine) (metadata : Json.Fields) :
    (w.create id m metadata).live = w.live ++ [id] := by
  have h := (spawnStarted_steady id (Session.start id m metadata).2
    (w.putSession (Session.start id m metadata).1)).live
  exact congrArg (· ++ [id]) h

theorem create_shut? (w : World) (id : String) (m : Machine) (metadata : Json.Fields)
    (other : String) :
    (w.create id m metadata).shut? other = if other = id then some false else w.shut? other := by
  rw [shut?, create_session]
  split
  · rw [Option.map_some, Session.start_shut]
  · rfl

theorem forget_shut? (w : World) (s : Session) (other : String) :
    (w.forget s).shut? other = if other = s.id then some true else w.shut? other :=
  shut?_putSession { w with live := w.live.filter (· ≠ s.id) } { s with shut := true } other

theorem Listed.create (hl : w.Listed) {id : String} (hs : w.session? id = none) (m : Machine)
    (metadata : Json.Fields) : (w.create id m metadata).Listed where
  nodup := by
    have hnew : id ∉ w.live := by
      rw [hl.live, shut?, hs]
      simp
    rw [create_live]
    refine List.nodup_append.2 ⟨hl.nodup, List.pairwise_singleton _ id, fun a ha b hb => ?_⟩
    rw [List.mem_singleton.1 hb]
    rintro rfl
    exact hnew ha
  live := by
    intro sid
    rw [create_live, create_shut?, List.mem_append, List.mem_singleton, hl.live]
    by_cases hid : sid = id <;> simp [hid]

theorem Listed.remove (hw : w.Sound) (hl : w.Listed) (id : String) :
    (w.move (.remove id)).Listed := by
  rcases remove_cases w id with h | h
  · rw [h]; exact hl
  · rw [h]
    have hshut := shut?_shutDown (hw.withLive (w.live.filter (· ≠ id))) id
    refine hl.dismiss id (live_shutDown _ id) ?_ fun other hne => ?_
    · rw [hshut, if_pos rfl]
      cases (shut? _ id) <;> simp
    · rw [hshut, if_neg hne]; rfl

theorem Listed.shutDownAll (hw : w.Sound) (hl : w.Listed) : w.shutDownAll.Listed where
  nodup := by
    rw [World.shutDownAll, foldl_shutDown_live]
    exact List.nodup_nil
  live := by
    intro sid
    rw [World.shutDownAll, foldl_shutDown_live, foldl_shutDown_shut? w.live _ (hw.withLive [])]
    -- Whoever was not in the list was told to shut down before, or is not there at all.
    split
    · cases (shut? _ sid) <;> simp
    · next hmem => exact iff_of_false List.not_mem_nil fun h => hmem ((hl.live sid).2 h)

/-- The list stays right, whatever happens but that a session is told to shut down by its owner. -/
theorem Listed.move (hw : w.Sound) (hl : w.Listed) (hmv : ∀ id, mv ≠ .shutDown id) :
    (w.move mv).Listed := by
  cases mv with
  | turn k =>
    rcases turn_steady hw k with h | ⟨j, s, -, hs, -, h⟩
    · exact h.listed hl
    · rw [World.move, h]
      refine (endJob_steady (w.forget s) k).listed (hl.dismiss s.id rfl ?_ fun other hne => ?_)
      · rw [forget_shut?, if_pos rfl]; simp
      · rw [forget_shut?, if_neg hne]
  | clock nowMs => exact ⟨hl.nodup, hl.live⟩
  | create id m metadata =>
    simp only [World.move]
    split
    · exact hl
    · next hs => exact hl.create hs m metadata
  | ask id request => exact (move_steady rfl).listed hl
  | follow id => exact (move_steady rfl).listed hl
  | drop k => exact (move_steady rfl).listed hl
  | shutDown id => exact absurd rfl (hmv id)
  | remove id => exact hl.remove hw id
  | shutDownAll => exact hl.shutDownAll hw

/-! ## Creation and dismissal -/

/-- The session was created in the course of the moves. -/
def Created (sid : String) (moves : List Move) : Prop := ∃ mv ∈ moves, mv.creates sid = true

/-- In the course of the moves the session was created and then dismissed. -/
def Dismissed (sid : String) (moves : List Move) : Prop :=
  ∃ before mv after, moves = before ++ mv :: after ∧ Created sid before ∧ mv.dismisses sid = true

theorem Dismissed.concat {moves : List Move} (h : Dismissed sid moves) (mv : Move) :
    Dismissed sid (moves ++ [mv]) := by
  obtain ⟨before, mv', after, rfl, h⟩ := h
  exact ⟨before, mv', after ++ [mv], by simp, h⟩

theorem created_iff (hw : w.Empty) (moves : List Move) :
    Created sid moves ↔ ∃ s, (w.run moves).session? sid = some s := by
  induction moves using List.reverseRecOn with
  | nil =>
    refine iff_of_false (by rintro ⟨mv, h, -⟩; cases h) ?_
    rintro ⟨s, h⟩
    rw [run_nil, session?, hw.sessions] at h
    cases h
  | append_singleton moves mv ih =>
    have hsound := run_sound hw.sound moves
    rw [run_concat]
    cases hs : (w.run moves).session? sid with
    | some s =>
      obtain ⟨s', hs', -⟩ := move_session hsound hs mv
      refine iff_of_true ?_ ⟨s', hs'⟩
      obtain ⟨mv', hmem, hcreates⟩ := ih.2 ⟨s, hs⟩
      exact ⟨mv', List.mem_append_left _ hmem, hcreates⟩
    | none =>
      have hnone : ¬ Created sid moves := fun h => by
        obtain ⟨s, h⟩ := ih.1 h
        rw [hs] at h
        cases h
      constructor
      · rintro ⟨mv', hmem, hcreates⟩
        rcases List.mem_append.1 hmem with hmem | hmem
        · exact absurd ⟨mv', hmem, hcreates⟩ hnone
        · rw [List.mem_singleton.1 hmem] at hcreates
          cases mv with
          | create id m metadata =>
            have hid : id = sid := of_decide_eq_true hcreates
            subst hid
            simp only [World.move, hs]
            exact ⟨_, by rw [create_session, if_pos rfl]⟩
          | _ => cases hcreates
      · rintro ⟨s', hs'⟩
        rcases move_session_none hsound hs mv with hn | ⟨m, metadata, rfl, -⟩
        · rw [hs'] at hn; cases hn
        · exact ⟨_, List.mem_append_right _ (List.mem_singleton_self _), decide_eq_true rfl⟩

theorem run_listed (hw : w.Empty) (hlive : w.live = []) {moves : List Move}
    (unshut : ∀ id, .shutDown id ∉ moves) : (w.run moves).Listed := by
  induction moves using List.reverseRecOn with
  | nil =>
    refine ⟨by rw [run_nil, hlive]; exact List.nodup_nil, fun sid => ?_⟩
    simp [hlive, shut?, session?, hw.sessions, Entries.get?]
  | append_singleton moves mv ih =>
    rw [run_concat]
    refine (ih fun id h => unshut id (List.mem_append_left _ h)).move (run_sound hw.sound moves) ?_
    rintro id rfl
    exact unshut id (List.mem_append_right _ (List.mem_singleton_self _))

theorem shut_later (hw : w.Sound) (h : w.shut? sid = some true) (moves : List Move) :
    (w.run moves).shut? sid = some true := by
  obtain ⟨s, hs, hshut⟩ := Option.map_eq_some_iff.1 h
  obtain ⟨s', hs', hshut'⟩ := run_session_later (P := fun s => s.shut = true)
    (fun _ _ h hn => hn.keepsShut h) moves hw hs hshut
  rw [shut?, hs', Option.map_some, hshut']

theorem Listed.shut_of_not_mem (hl : w.Listed) {s : Session} (hs : w.session? sid = some s)
    (h : sid ∉ w.live) : s.shut = true := by
  cases hshut : s.shut with
  | true => rfl
  | false => exact absurd ((hl.live sid).2 (by rw [shut?, hs, Option.map_some, hshut])) h

/-- A session that is dismissed is told to shut down. -/
theorem dismiss_shut (hw : w.Sound) (hl : w.Listed) {s : Session} (hs : w.session? sid = some s)
    (hmv : mv.dismisses sid = true) : (w.move mv).shut? sid = some true := by
  cases mv with
  | remove id =>
    have hid : id = sid := of_decide_eq_true hmv
    subst hid
    simp only [World.move, remove]
    split
    · have hshut := shut?_shutDown (hw.withLive (w.live.filter (· ≠ id))) id id
      rw [if_pos rfl] at hshut
      refine hshut.trans ?_
      change (w.shut? id).map _ = _
      rw [shut?, hs]
      rfl
    · -- Whoever cannot be found was told to shut down before.
      next e he =>
      have hout : id ∉ w.live := by
        intro h
        rw [find, hs, Option.filter_some, List.contains_iff_mem.2 h] at he
        cases he
      change w.shut? id = _
      rw [shut?, hs, Option.map_some, hl.shut_of_not_mem hs hout]
  | shutDownAll =>
    rw [World.move, shutDownAll, foldl_shutDown_shut? w.live _ (hw.withLive [])]
    change (if sid ∈ w.live then (w.shut? sid).map (fun _ => true) else w.shut? sid) = _
    rw [shut?, hs, Option.map_some]
    split
    · rfl
    · next hout => rw [hl.shut_of_not_mem hs hout]
  | _ => cases hmv

theorem shut_of_dismissed (hw : w.Empty) (hlive : w.live = []) {moves : List Move}
    (unshut : ∀ id, .shutDown id ∉ moves) (h : Dismissed sid moves) :
    (w.run moves).shut? sid = some true := by
  obtain ⟨before, mv, after, rfl, hcreated, hdismisses⟩ := h
  obtain ⟨s, hs⟩ := (created_iff hw before).1 hcreated
  have hsound := run_sound hw.sound before
  have hlisted := run_listed hw hlive fun id h => unshut id (List.mem_append_left _ h)
  rw [run_append]
  exact shut_later (move_sound hsound mv) (dismiss_shut hsound hlisted hs hdismisses) after

/-- A session that can be found is told to shut down by a dismissal, or when its retention has run
out. -/
theorem shut_cases (hw : w.Sound) (hopen : w.shut? sid = some false)
    (hshut : (w.move mv).shut? sid = some true) (hmv : ∀ id, mv ≠ .shutDown id) :
    mv.dismisses sid = true ∨ ∃ k j t, w.job? k = some j ∧ j.session = sid ∧
      j.task = .retention (some t) ∧ t ≤ w.host.nowMs := by
  have hsteady (h : Steady w (w.move mv)) : False := by
    rw [h.shut, hopen] at hshut
    cases hshut
  cases mv with
  | turn k =>
    rcases turn_steady hw k with h | ⟨j, s, hj, hs, hout, h⟩
    · exact (hsteady h).elim
    · rw [World.move, h, (endJob_steady _ k).shut, forget_shut?] at hshut
      split at hshut
      · next hid =>
        obtain ⟨t, ht, hnow⟩ := hout.due
        exact .inr ⟨k, j, t, hj, (hw.keyed _ _ hs).symm.trans hid.symm, ht, hnow⟩
      · rw [hopen] at hshut; cases hshut
  | clock nowMs => exact Bool.noConfusion (Option.some.inj (hshut.symm.trans hopen))
  | create id m metadata =>
    simp only [World.move] at hshut
    split at hshut
    · rw [hopen] at hshut; cases hshut
    · rw [create_shut?] at hshut
      split at hshut
      · cases hshut
      · rw [hopen] at hshut; cases hshut
  | ask id request => exact (hsteady (move_steady rfl)).elim
  | follow id => exact (hsteady (move_steady rfl)).elim
  | drop k => exact (hsteady (move_steady rfl)).elim
  | shutDown id => exact absurd rfl (hmv id)
  | remove id =>
    refine .inl (decide_eq_true ?_)
    by_contra hid
    rcases remove_cases w id with h | h
    · rw [h, hopen] at hshut; cases hshut
    · rw [h, shut?_shutDown (hw.withLive _), if_neg fun he => hid he.symm] at hshut
      exact Bool.noConfusion (Option.some.inj (hshut.symm.trans hopen))
  | shutDownAll => exact .inl rfl

/-! ## One session and the others -/

/-- Only what belongs to one session has changed: other sessions, their places in the list and their
jobs are as they were, and so is all that sessions share. -/
structure Within (sid : String) (w w' : World) : Prop where
  sessions : ∀ other, other ≠ sid → w'.session? other = w.session? other
  live : ∀ other, other ≠ sid → (other ∈ w'.live ↔ other ∈ w.live)
  jobs : ∀ k, (∀ j, w.job? k = some j → j.session ≠ sid) → w'.job? k = w.job? k
  host : w'.host = w.host
  durable : w'.durable = w.durable

theorem Within.refl (sid : String) (w : World) : Within sid w w :=
  ⟨fun _ _ => rfl, fun _ _ => .rfl, fun _ _ => rfl, rfl, rfl⟩

theorem shutDown_within (hw : w.Sound) (sid : String) : Within sid w (w.shutDown sid) := by
  unfold shutDown
  split
  · next s hs =>
    have hid : s.id = sid := hw.keyed _ _ hs
    refine ⟨fun other hne => ?_, fun _ _ => .rfl, fun _ _ => rfl, rfl, rfl⟩
    rw [session?_putSession, if_neg]
    exact fun he => hne (he.trans hid)
  · exact .refl sid w

/-- To remove a session touches no other one. -/
theorem remove_within (hw : w.Sound) (sid : String) : Within sid w (w.move (.remove sid)) := by
  rcases remove_cases w sid with h | h
  · rw [h]; exact .refl sid w
  · have hshut := shutDown_within (hw.withLive (w.live.filter (· ≠ sid))) sid
    rw [h]
    refine ⟨hshut.sessions, fun other hne => ?_, hshut.jobs, hshut.host, hshut.durable⟩
    rw [hshut.live other hne, List.mem_filter]
    simp [hne]

/-- The job with the id is one of the session, so it is none of another one. -/
theorem ne_of_owned {k k' : Nat} {j : Job} (hj : w.job? k = some j) (hsid : j.session = sid)
    (others : ∀ j, w.job? k' = some j → j.session ≠ sid) : k' ≠ k := by
  rintro rfl
  exact others j hj hsid

theorem endJob_within {k : Nat} {j : Job} (hj : w.job? k = some j) (hsid : j.session = sid) :
    Within sid w (w.endJob k) :=
  ⟨fun _ _ => rfl, fun _ _ => .rfl,
    fun _ others => w.job?_endJob_of_ne (ne_of_owned hj hsid others), rfl, rfl⟩

theorem setTask_within {k : Nat} {j : Job} (hj : w.job? k = some j) (hsid : j.session = sid)
    (task : Task) : Within sid w (w.setTask k task) := by
  refine ⟨fun _ _ => rfl, fun _ _ => .rfl, fun k' others => ?_, rfl, rfl⟩
  rw [job?_setTask]
  simp only [if_neg (ne_of_owned hj hsid others), Option.map_id']

theorem forget_within (hw : w.Sound) {s : Session} (hs : w.session? sid = some s) :
    Within sid w (w.forget s) := by
  have hid : s.id = sid := hw.keyed _ _ hs
  refine ⟨fun other hne => ?_, fun other hne => ?_, fun _ _ => rfl, rfl, rfl⟩
  · refine (session?_putSession { w with live := _ } { s with shut := true } other).trans ?_
    exact if_neg fun he => hne (he.trans hid)
  · change other ∈ w.live.filter (· ≠ s.id) ↔ _
    rw [List.mem_filter, hid]
    simp [hne]

end World

end Dialogue
