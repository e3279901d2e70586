import Dialogue.Proofs.Session.Flight

/-!
What a session announces of its state.

A session commits a state first and announces it later, behind the effects of the transition; beside
that its listeners are told other things, which show no state. `Session.Tells` says what one turn of
a job means for them. So the state that was announced last is the committed one, unless its own
announcement is due (`Session.Abreast`). `Session.Drops` says that a listener who is behind can no
longer read the newest announcement.
-/
namespace Dialogue

/-- The snapshot that an update announces. -/
def Update.snapshot? : Update → Option Snapshot
  | .stateChanged snapshot => some snapshot
  | _ => none

theorem Update.snapshot?_eq_some {u : Update} {snapshot : Snapshot}
    (h : u.snapshot? = some snapshot) : u = .stateChanged snapshot := by
  cases u with
  | stateChanged _ => cases h; rfl
  | _ => cases h

namespace Session

variable {s s' : Session}

/-! ## Announcements -/

/-- The snapshots that were announced, from the update at a place on. -/
def announcedFrom (s : Session) (place : Nat) : List Snapshot :=
  (s.updates.drop place).filterMap Update.snapshot?

/-- Nothing is announced by other updates. -/
theorem announcedFrom_of_silent {others : List Update} (h : s'.updates = s.updates ++ others)
    (silent : others.filterMap Update.snapshot? = []) (place : Nat) :
    s'.announcedFrom place = s.announcedFrom place := by
  have hdrop (n : Nat) : (others.drop n).filterMap Update.snapshot? = [] :=
    List.filterMap_eq_nil_iff.2 fun u hu =>
      List.filterMap_eq_nil_iff.1 silent u (List.mem_of_mem_drop hu)
  rw [announcedFrom, h, List.drop_append, List.filterMap_append, hdrop, List.append_nil]
  rfl

theorem announcedFrom_of_announced {snapshot : Snapshot}
    (h : s'.updates = s.updates ++ [.stateChanged snapshot]) {place : Nat}
    (hp : place ≤ s.updates.length) :
    s'.announcedFrom place = s.announcedFrom place ++ [snapshot] := by
  rw [announcedFrom, h, List.drop_append_of_le_length hp, List.filterMap_append]
  rfl

theorem announcedFrom_of_le {place : Nat} (hp : s.updates.length ≤ place) :
    s.announcedFrom place = [] := by
  rw [announcedFrom, List.drop_of_length_le hp]
  rfl

/-- The newest announcement is lost to a listener that has read all before `cursor`: it was made
after that, and so many other updates have followed it that it is no longer kept. -/
def Drops (s : Session) (cursor : Nat) : Prop :=
  ∃ told snapshot others, s.updates = told ++ .stateChanged snapshot :: others ∧
    cursor ≤ told.length ∧ updateCapacity ≤ others.length ∧
    others.filterMap Update.snapshot? = []

/-- If something was announced that a listener has not read, and nothing of it is kept, then the
newest announcement is lost. -/
theorem drops_of_lost {cursor : Nat} (unheard : s.announcedFrom cursor ≠ [])
    (lost : s.announcedFrom (s.firstReadable cursor) = []) : s.Drops cursor := by
  obtain ⟨snapshots, last, hlast⟩ := (List.eq_nil_or_concat _).resolve_left unheard
  rw [List.concat_eq_append] at hlast
  obtain ⟨heard, rest, hupdates, -, hrest⟩ := List.filterMap_eq_append_iff.1 hlast
  obtain ⟨before, u, others, hsplit, -, hu, hothers⟩ := List.filterMap_eq_cons_iff.1 hrest
  rw [hsplit, Update.snapshot?_eq_some hu] at hupdates
  have hcursor : cursor ≤ s.updates.length := by
    refine Nat.le_of_not_lt fun hlt => unheard (announcedFrom_of_le (Nat.le_of_lt hlt))
  have hall : s.updates = (s.updates.take cursor ++ (heard ++ before)) ++
      .stateChanged last :: others := by
    rw [List.append_assoc, List.append_assoc, ← hupdates, List.take_append_drop]
  have htold : cursor ≤ (s.updates.take cursor ++ (heard ++ before)).length := by
    rw [List.length_append, List.length_take, Nat.min_eq_left hcursor]
    exact Nat.le_add_right _ _
  refine ⟨_, last, others, hall, htold, ?_, hothers⟩
  -- With fewer updates after it the announcement would still be kept.
  refine Nat.le_of_not_lt fun hfew => ?_
  have hkept : s.firstReadable cursor ≤ (s.updates.take cursor ++ (heard ++ before)).length := by
    have hlength := congrArg List.length hall
    rw [List.length_append, List.length_cons] at hlength
    rw [firstReadable]
    omega
  rw [announcedFrom, hall, List.drop_append_of_le_length hkept, List.filterMap_append] at lost
  exact absurd (List.append_eq_nil_iff.1 lost).2 (List.cons_ne_nil _ _)

/-! ## What becomes of announcements -/

/-- What one turn of a job means for listeners. -/
inductive Tells (s s' : Session) : Prop where
  /-- The state stays, and other things are told, if any. -/
  | quiet (others : List Update) (state : s'.snapshot = s.snapshot)
      (due : .announce ∈ s.deeds → .announce ∈ s'.deeds)
      (updates : s'.updates = s.updates ++ others)
      (silent : others.filterMap Update.snapshot? = [])
  /-- A state is committed, and its announcement is due. -/
  | committed (due : .announce ∈ s'.deeds) (updates : s'.updates = s.updates)
  /-- The state is announced. -/
  | announced (state : s'.snapshot = s.snapshot)
      (updates : s'.updates = s.updates ++ [.stateChanged s.snapshot])

theorem snapshot_congr (hid : s'.id = s.id) (hstate : s'.state = s.state) :
    s'.snapshot = s.snapshot := by
  rw [snapshot, snapshot, hid, hstate]

@[simp] theorem cancelInFlight_updates (s : Session) :
    s.cancelInFlight.updates = s.updates := by
  unfold cancelInFlight
  split <;> rfl

@[simp] theorem giveReply_updates (s : Session) (ticket : Option Nat) (reply : Reply) :
    (s.giveReply ticket reply).updates = s.updates := by
  cases ticket <;> rfl

/-- Effects tell of everything but the state. -/
theorem perform_updates (s : Session) (e : Effect) : ∃ others,
    (s.perform e).1.updates = s.updates ++ others ∧
      others.filterMap Update.snapshot? = [] := by
  cases e with
  | stepEntered step previous => exact ⟨[_], rfl, rfl⟩
  | invokeAction step invocation action =>
    exact ⟨[], (cancelInFlight_updates s).trans (List.append_nil _).symm, rfl⟩
  | cancelAction invocation =>
    refine ⟨[], ?_, rfl⟩
    simp only [perform, List.append_nil]
    split
    · exact cancelInFlight_updates s
    · rfl
  | scheduleAutoAdvance step epoch => exact ⟨[], (List.append_nil _).symm, rfl⟩
  | actionFailed step error retryable => exact ⟨[_], rfl, rfl⟩
  | completed step => exact ⟨[_], rfl, rfl⟩

theorem performAll_updates : ∀ (effects : List Effect) (s : Session), ∃ others,
    (s.performAll effects).1.updates = s.updates ++ others ∧
      others.filterMap Update.snapshot? = []
  | [], s => ⟨[], (List.append_nil _).symm, rfl⟩
  | e :: rest, s => by
    obtain ⟨first, hfirst, hsilent⟩ := perform_updates s e
    obtain ⟨others, hothers, hsilent'⟩ := performAll_updates rest (s.perform e).1
    refine ⟨first ++ others, ?_, by rw [List.filterMap_append, hsilent, hsilent']; rfl⟩
    rw [performAll, hothers, hfirst, List.append_assoc]

theorem act_tells {deed : Deed} {rest : List Deed} (hd : s.deeds = deed :: rest) :
    s.Tells ({ s with deeds := rest }.act deed).1 := by
  cases deed with
  | effect e =>
    obtain ⟨others, hupdates, hsilent⟩ := perform_updates { s with deeds := rest } e
    have hdeals := perform_deals { s with deeds := rest } e
    refine .quiet others (snapshot_congr hdeals.id (perform_state _ e)) (fun h => ?_) hupdates
      hsilent
    rw [hd] at h
    rw [act_deeds]
    exact (List.mem_cons.1 h).resolve_left Deed.noConfusion
  | announce => exact .announced rfl rfl
  | reply ticket outcome =>
    refine .quiet [] rfl (fun h => ?_) (List.append_nil _).symm rfl
    rw [hd] at h
    exact (List.mem_cons.1 h).resolve_left Deed.noConfusion

theorem handle_tells (s : Session) (e : Envelope) : s.Tells (s.handle e) := by
  unfold handle
  split
  · refine .quiet [] (snapshot_congr (giveReply_deals s _ _).id (giveReply_state s _ _))
      (fun h => ?_) (by rw [giveReply_updates, List.append_nil]) rfl
    cases e.ticket <;> exact h
  · exact .committed (by simp [deedsOf]) rfl

theorem turn_tells (s : Session) : s.Tells s.turn.1 := by
  rcases turn_cases s with ⟨deed, rest, hd, ht⟩ | ⟨-, -, ht⟩ | ⟨e, rest, -, -, -, ht⟩ | ht
  · rw [ht]; exact act_tells hd
  · rw [ht]
    refine .quiet [] (snapshot_congr s.stop_same.id (cancelInFlight_state s)) (fun h => ?_) ?_ rfl
    · simpa [stop] using h
    · simp [stop]
  · rw [ht]
    cases handle_tells { s with queue := rest } e with
    | quiet others state due updates silent => exact .quiet others state due updates silent
    | committed due updates => exact .committed due updates
    | announced state updates => exact .announced state updates
  · rw [ht]; exact .quiet [] rfl (fun h => h) (List.append_nil _).symm rfl

theorem Beside.tells (h : s.Beside s') : s.Tells s' := by
  have hkeeps := h.keeps
  obtain ⟨others, hupdates, hsilent⟩ : ∃ others, s'.updates = s.updates ++ others ∧
      others.filterMap Update.snapshot? = [] := by
    have hnavigated (site : Site) :
        (site.navigations.map Update.navigate).filterMap Update.snapshot? = [] := by
      simp [List.filterMap_eq_nil_iff, Update.snapshot?]
    cases h with
    | same => exact ⟨[], (List.append_nil _).symm, rfl⟩
    | posted e =>
      refine ⟨[], ?_, rfl⟩
      unfold post
      split <;> exact (List.append_nil _).symm
    | submitted e site takes => exact ⟨_, rfl, hnavigated site⟩
    | told step site =>
      exact ⟨.optionsLoading step :: site.navigations.map .navigate, List.append_assoc _ _ _,
        hnavigated site⟩
    | absorbed site => exact ⟨_, rfl, hnavigated site⟩
    | shut => exact ⟨[], (List.append_nil _).symm, rfl⟩
  exact .quiet others (snapshot_congr hkeeps.id hkeeps.state) (fun hd => by rwa [hkeeps.deeds])
    hupdates hsilent

theorem Next.tells (h : s.Next s') : s.Tells s' := by
  rcases h.cases with rfl | h
  · exact turn_tells s
  · exact h.tells

theorem Tells.updates_prefix (h : s.Tells s') : s.updates <+: s'.updates := by
  cases h with
  | quiet others state due updates silent => exact ⟨others, updates.symm⟩
  | committed due updates => exact updates ▸ List.prefix_refl _
  | announced state updates => exact ⟨_, updates.symm⟩

/-- The state that was announced last is the committed one, unless this is still to be announced. -/
def Abreast (s : Session) : Prop :=
  .announce ∈ s.deeds ∨ ∀ place snapshot,
    (s.announcedFrom place).getLast? = some snapshot → snapshot = s.snapshot

theorem start_abreast (id : String) (m : Machine) (metadata : Json.Fields) :
    (start id m metadata).1.Abreast := by
  refine .inr fun place snapshot hlast => ?_
  obtain ⟨others, hupdates, hsilent⟩ := performAll_updates (m.start metadata).effects
    { id, machine := m, state := (m.start metadata).state, owner := ownerOf id metadata }
  rw [start, announcedFrom_of_silent hupdates hsilent, announcedFrom_of_le (Nat.zero_le _)] at hlast
  cases hlast

theorem Abreast.next (h : s.Abreast) (hn : s.Next s') : s'.Abreast := by
  cases hn.tells with
  | quiet others state due updates silent =>
    refine h.imp due fun h place snapshot hlast => ?_
    rw [announcedFrom_of_silent updates silent] at hlast
    rw [state]
    exact h place snapshot hlast
  | committed due updates => exact .inl due
  | announced state updates =>
    refine .inr fun place snapshot hlast => ?_
    rw [state]
    by_cases hp : place ≤ s.updates.length
    · rw [announcedFrom_of_announced updates hp, List.getLast?_concat] at hlast
      exact (Option.some.inj hlast).symm
    · have hpast : s'.updates.length ≤ place := by
        rw [updates, List.length_append]
        exact Nat.lt_of_not_le hp
      rw [announcedFrom_of_le hpast] at hlast
      cases hlast

/-- What a session that is abreast announces from some place on ends with the committed state. -/
theorem Abreast.last (h : s.Abreast) {shown : List Snapshot} {place : Nat}
    (hshown : s.announcedFrom place = [] → shown.getLast? = some s.snapshot) :
    .announce ∈ s.deeds ∨ (shown ++ s.announcedFrom place).getLast? = some s.snapshot := by
  refine h.imp_right fun h => ?_
  cases hlast : (s.announcedFrom place).getLast? with
  | none =>
    have hnone := List.getLast?_eq_none_iff.1 hlast
    rw [hnone, List.append_nil]
    exact hshown hnone
  | some snapshot => rw [List.getLast?_append, hlast, h place snapshot hlast]; rfl

end Session

end Dialogue
