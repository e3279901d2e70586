import Dialogue.Proofs.Session.Announcements
import Dialogue.Proofs.Session.Drawing

/-!
What a feed shows of its session.

A feed hears the updates from the moment at which it is opened, and reads the snapshot after that.
So the committed state is in what the feed has shown or is still to be told, unless its announcement
is due (`Feed.Shows`). A feed that is behind loses the oldest updates. If the newest announcement is
among those, the feed passes it over (`Following.PassedOver`), and shows the state of its session
again only when the next one is announced. In any other case, once the feed has read all that there
is, the last snapshot that it has shown is that of the committed state (`feed_shows_state`); and it
has read all after a bounded number of turns (`feed_catches_up`). `feed_left_behind` is a run in
which the choices of a step are asked for so often that the feed never learns of the step.
-/
namespace Dialogue

/-- The snapshot that an item of a feed shows. -/
def FeedItem.snapshot? : FeedItem → Option Snapshot
  | .snapshot s => some s
  | .update u => u.snapshot?
  | .ping => none

/-! ## Turns of a feed -/

namespace Feed

/-- The snapshots that a feed has shown. -/
def shown (f : Feed) : List Snapshot := f.sent.filterMap FeedItem.snapshot?

theorem shown_send (f : Feed) (nowMs : Nat) (item : FeedItem) :
    (f.send nowMs item).shown = f.shown ++ [item].filterMap FeedItem.snapshot? :=
  List.filterMap_append

/-- The last of the snapshots that a feed has shown or is still to be told of is that of the
committed state, unless the announcement of the state is due. -/
def Shows (s : Session) (f : Feed) : Prop :=
  .announce ∈ s.deeds ∨ (f.shown ++ s.announcedFrom f.cursor).getLast? = some s.snapshot

/-- A feed reads the snapshot first, and then an update if there is one; otherwise it shows
nothing. -/
theorem turn_cases (s : Session) (nowMs : Nat) (isOpen : Bool) (f : Feed) :
    (f.pingAtMs = none ∧ f.turn s nowMs isOpen = f.send nowMs (.snapshot s.snapshot)) ∨
    f.pingAtMs.isSome ∧
      ((∃ u rest, s.unread f.cursor = u :: rest ∧ f.turn s nowMs isOpen =
        { f with cursor := s.firstReadable f.cursor + 1 }.send nowMs (.update u)) ∨
      (s.unread f.cursor = [] ∧ (f.turn s nowMs isOpen).shown = f.shown ∧
        (f.turn s nowMs isOpen).cursor = f.cursor ∧
        (f.turn s nowMs isOpen).pingAtMs.isSome)) := by
  cases hping : f.pingAtMs with
  | none => exact .inl ⟨rfl, by rw [turn, hping]⟩
  | some pingAt =>
    refine .inr ⟨rfl, ?_⟩
    cases hunread : s.unread f.cursor with
    | cons u rest => exact .inl ⟨u, rest, rfl, by rw [turn, hping, hunread]⟩
    | nil =>
      refine .inr ⟨rfl, ?_⟩
      simp only [turn, hping, hunread]
      split
      · exact ⟨rfl, rfl, rfl⟩
      · split
        · exact ⟨by rw [shown_send]; exact List.append_nil _, rfl, rfl⟩
        · exact ⟨rfl, rfl, by rw [hping]; rfl⟩

/-- What a listener can still read after the next update. -/
theorem unread_tail {s : Session} {cursor : Nat} {u : Update} {rest : List Update}
    (h : s.unread cursor = u :: rest) : s.updates.drop (s.firstReadable cursor + 1) = rest := by
  rw [← List.tail_drop, ← Session.unread, h, List.tail_cons]

/-- A feed that reads an update shows what it would have been told from there on, and goes on. -/
theorem shown_read {s : Session} {f : Feed} {u : Update} {rest : List Update} (nowMs : Nat)
    (h : s.unread f.cursor = u :: rest) :
    ({ f with cursor := s.firstReadable f.cursor + 1 }.send nowMs (.update u)).shown ++
        s.announcedFrom (s.firstReadable f.cursor + 1) =
      f.shown ++ s.announcedFrom (s.firstReadable f.cursor) := by
  have hdrop : s.updates.drop (s.firstReadable f.cursor) = u :: rest := h
  rw [shown_send, Session.announcedFrom, Session.announcedFrom, hdrop, unread_tail h,
    List.append_assoc]
  change f.shown ++ ([u].filterMap Update.snapshot? ++ rest.filterMap Update.snapshot?) = _
  rw [← List.filterMap_append, List.singleton_append]

/-- How many turns a feed needs to read all that there is. -/
def behind (s : Session) (f : Feed) : Nat :=
  (s.unread f.cursor).length + if f.pingAtMs.isSome then 0 else 1

theorem behind_le (s : Session) (f : Feed) : f.behind s ≤ Session.updateCapacity + 1 := by
  have hunread : (s.unread f.cursor).length ≤ Session.updateCapacity := by
    rw [Session.unread, List.length_drop, Session.firstReadable]
    omega
  rw [behind]
  split <;> omega

/-- Each turn brings a feed on by one. -/
theorem turn_behind (s : Session) (nowMs : Nat) (isOpen : Bool) (f : Feed) :
    (f.turn s nowMs isOpen).behind s = f.behind s - 1 := by
  rcases turn_cases s nowMs isOpen f with
    ⟨hping, ht⟩ | ⟨hping, ⟨u, rest, hunread, ht⟩ | ⟨hunread, -, hcursor, hgoing⟩⟩
  · rw [ht, behind, behind, hping]
    rfl
  · -- What is kept of the updates does not change while the feed reads on.
    have hkept : s.firstReadable (s.firstReadable f.cursor + 1) = s.firstReadable f.cursor + 1 := by
      rw [Session.firstReadable, Session.firstReadable]
      omega
    have hrest : s.unread (s.firstReadable f.cursor + 1) = rest := by
      rw [Session.unread, hkept, unread_tail hunread]
    rw [ht, behind, behind, hunread, if_pos hping]
    change (s.unread (s.firstReadable f.cursor + 1)).length + 0 = _
    rw [hrest]
    rfl
  · rw [behind, behind, hcursor, hunread, if_pos hping, if_pos hgoing]
    rfl

/-- A feed that is behind can have a turn until it has ended. -/
theorem canTurn_of_behind {s : Session} {f : Feed} (going : f.ended = false)
    (h : 0 < f.behind s) (nowMs : Nat) (isOpen : Bool) : f.canTurn s nowMs isOpen = true := by
  rw [canTurn, going]
  cases hping : f.pingAtMs with
  | none => rfl
  | some pingAt =>
    rw [behind, hping, Option.isSome_some, if_pos rfl, Nat.add_zero] at h
    simp [List.ne_nil_of_length_pos h]

/-- A feed ends only when it has read all that there is. -/
theorem turn_ended {s : Session} {nowMs : Nat} {isOpen : Bool} {f : Feed}
    (going : f.ended = false) (h : (f.turn s nowMs isOpen).ended = true) : f.behind s = 0 := by
  rcases turn_cases s nowMs isOpen f with
    ⟨-, ht⟩ | ⟨hping, ⟨u, rest, -, ht⟩ | ⟨hunread, -⟩⟩
  · rw [ht] at h
    exact absurd (going.symm.trans h) Bool.noConfusion
  · rw [ht] at h
    exact absurd (going.symm.trans h) Bool.noConfusion
  · rw [behind, hunread, if_pos hping]
    rfl

end Feed

/-! ## The course of a feed -/

namespace Following

/-- The feed is about to read what its session has for it. -/
structure Reads (w : World) (k : Nat) (sid : String) (f : Feed) (seen : Session) : Prop where
  feed : w.job? k = some ⟨k, sid, .feed f⟩
  session : w.session? sid = some seen

/-- In one of its turns the feed has lost the announcement that was the newest then, when the last
snapshot that it had shown was another one; and nothing has been announced since. -/
def PassedOver (w : World) (k : Nat) (sid : String) (moves : List Move) (s : Session) : Prop :=
  ∃ before after f seen last, moves = before ++ .turn k :: after ∧
    Reads (w.run before) k sid f seen ∧ f.shown.getLast? = some last ∧ last ≠ seen.snapshot ∧
    seen.Drops f.cursor ∧ s.announcedFrom seen.updates.length = []

/-- What holds of a feed after the moves. -/
structure Follows (w : World) (k : Nat) (sid : String) (moves : List Move) (f : Feed)
    (s : Session) : Prop where
  bounded : f.cursor ≤ s.updates.length
  unbegun : f.pingAtMs = none → f.shown = []
  begun : f.pingAtMs.isSome → f.shown ≠ []
  shows : f.pingAtMs.isSome → f.Shows s ∨ PassedOver w k sid moves s

variable {w : World} {k : Nat} {sid : String} {moves : List Move} {f : Feed} {s s' : Session}

theorem PassedOver.mono (h : PassedOver w k sid moves s) (mv : Move)
    (same : ∀ place, s'.announcedFrom place = s.announcedFrom place) :
    PassedOver w k sid (moves ++ [mv]) s' := by
  obtain ⟨before, after, f, seen, last, rfl, hreads, hlast, hother, hdrops, hsince⟩ := h
  exact ⟨before, after ++ [mv], f, seen, last, by simp, hreads, hlast, hother, hdrops,
    by rw [same, hsince]⟩

/-- A feed has passed over an announcement only if so many other updates came after it that no
listener can read it any more. -/
theorem PassedOver.crowded (h : PassedOver w k sid moves s) (hw : w.Sound)
    (hs : (w.run moves).session? sid = some s) :
    s.announcedFrom (s.updates.length - Session.updateCapacity) = [] := by
  obtain ⟨before, after, f, seen, last, rfl, hreads, -, -,
    ⟨told, snapshot, others, hseen, -, hmany, hsilent⟩, hsince⟩ := h
  obtain ⟨t, ht, since, hupdates⟩ := World.run_session_later (P := (seen.updates <+: ·.updates))
    (fun _ _ h hn => h.trans hn.tells.updates_prefix) (.turn k :: after) (World.run_sound hw before)
    hreads.session (List.prefix_refl _)
  rw [← World.run_append, hs] at ht
  cases ht
  rw [Session.announcedFrom, ← hupdates, List.drop_left] at hsince
  refine List.filterMap_eq_nil_iff.2 fun u hu => ?_
  have hlate : u ∈ others ++ since := by
    have hafter : (told ++ .stateChanged snapshot :: others ++ since).drop (told.length + 1) =
        others ++ since := by simp
    rw [← hupdates, hseen] at hu
    rw [← hafter]
    refine List.drop_subset_drop_left _ ?_ hu
    simp only [List.length_append, List.length_cons]
    omega
  rcases List.mem_append.1 hlate with hu | hu
  · exact List.filterMap_eq_nil_iff.1 hsilent u hu
  · exact List.filterMap_eq_nil_iff.1 hsince u hu

/-- A feed begins with nothing to show. -/
theorem follows_start (w : World) (k : Nat) (sid : String) (s : Session) :
    Follows w k sid [] (.start s) s :=
  ⟨Nat.le_refl _, fun _ => rfl, nofun, nofun⟩

/-- Whatever happens to the session, a feed that has not passed it over will show the state. -/
theorem Follows.next (h : Follows w k sid moves f s) (hn : s.Next s') (mv : Move) :
    Follows w k sid (moves ++ [mv]) f s' := by
  refine ⟨Nat.le_trans h.bounded hn.tells.updates_prefix.length_le, h.unbegun, h.begun,
    fun begun => ?_⟩
  cases hn.tells with
  | quiet others state due updates silent =>
    have hsame := Session.announcedFrom_of_silent updates silent
    rcases h.shows begun with hshows | hpassed
    · refine .inl (hshows.imp due fun hlast => ?_)
      rw [hsame, state, hlast]
    · exact .inr (hpassed.mono mv hsame)
  | committed due updates => exact .inl (.inl due)
  | announced state updates =>
    refine .inl (.inr ?_)
    rw [Session.announcedFrom_of_announced updates h.bounded, ← List.append_assoc,
      List.getLast?_concat, state]

/-- What is kept of the updates shows the state to a feed that reads on; or else the feed passes the
state over. -/
theorem Follows.kept (h : Follows w k sid moves f s) (hreads : Reads (w.run moves) k sid f s)
    (habreast : s.Abreast) (begun : f.pingAtMs.isSome) :
    (.announce ∈ s.deeds ∨
      (f.shown ++ s.announcedFrom (s.firstReadable f.cursor)).getLast? = some s.snapshot) ∨
      PassedOver w k sid (moves ++ [.turn k]) s := by
  rcases h.shows begun with (hdue | hshows) | hpassed
  · exact .inl (.inl hdue)
  · cases hlast : f.shown.getLast? with
    | none => exact absurd (List.getLast?_eq_none_iff.1 hlast) (h.begun begun)
    | some last =>
      by_cases hsame : last = s.snapshot
      · exact .inl (habreast.last fun _ => by rw [hlast, hsame])
      · by_cases hdrops : s.Drops f.cursor
        · exact .inr ⟨moves, [], f, s, last, rfl, hreads, hlast, hsame, hdrops,
            Session.announcedFrom_of_le (Nat.le_refl _)⟩
        · -- If no announcement is kept, then there was none to read.
          refine .inl (habreast.last fun hnone => ?_)
          have hnothing : s.announcedFrom f.cursor = [] :=
            Classical.byContradiction fun hne => hdrops (Session.drops_of_lost hne hnone)
          rwa [hnothing, List.append_nil] at hshows
  · exact .inr (hpassed.mono _ fun _ => rfl)

/-- A feed that reads the snapshot shows the state. -/
theorem Follows.snapshot (h : Follows w k sid moves f s) (habreast : s.Abreast)
    (unbegun : f.pingAtMs = none) (nowMs : Nat) :
    Follows w k sid (moves ++ [.turn k]) (f.send nowMs (.snapshot s.snapshot)) s := by
  have hshown : (f.send nowMs (.snapshot s.snapshot)).shown = [s.snapshot] := by
    rw [Feed.shown_send, h.unbegun unbegun]
    rfl
  refine ⟨h.bounded, nofun, fun _ => ?_, fun _ => .inl ?_⟩
  · rw [hshown]; exact List.cons_ne_nil _ _
  · rw [Feed.Shows, hshown]
    exact habreast.last fun _ => rfl

/-- A feed that reads an update shows the state when it has read the others, or passes it over. -/
theorem Follows.read (h : Follows w k sid moves f s) (hreads : Reads (w.run moves) k sid f s)
    (habreast : s.Abreast) (begun : f.pingAtMs.isSome) {u : Update} {rest : List Update}
    (hunread : s.unread f.cursor = u :: rest) (nowMs : Nat) :
    Follows w k sid (moves ++ [.turn k])
      ({ f with cursor := s.firstReadable f.cursor + 1 }.send nowMs (.update u)) s where
  bounded := by
    refine Nat.lt_of_not_le fun hle => ?_
    rw [Session.unread, List.drop_of_length_le hle] at hunread
    cases hunread
  unbegun := nofun
  begun := by
    intro _
    rw [Feed.shown_send]
    exact List.append_ne_nil_of_left_ne_nil (h.begun begun) _
  shows := by
    intro _
    change (_ ∨ (_ ++ s.announcedFrom (s.firstReadable f.cursor + 1)).getLast? = _) ∨ _
    rw [Feed.shown_read nowMs hunread]
    exact h.kept hreads habreast begun

/-- A turn of a feed shows the state, or brings the feed nearer to it, or passes it over. -/
theorem Follows.turn (h : Follows w k sid moves f s) (hreads : Reads (w.run moves) k sid f s)
    (habreast : s.Abreast) (nowMs : Nat) (isOpen : Bool) :
    Follows w k sid (moves ++ [.turn k]) (f.turn s nowMs isOpen) s := by
  rcases Feed.turn_cases s nowMs isOpen f with
    ⟨hping, ht⟩ | ⟨hping, ⟨u, rest, hunread, ht⟩ | ⟨-, hshown, hcursor, hgoing⟩⟩
  · rw [ht]; exact h.snapshot habreast hping nowMs
  · rw [ht]; exact h.read hreads habreast hping hunread nowMs
  · refine ⟨by rw [hcursor]; exact h.bounded, fun hnone => ?_, fun _ => ?_, fun _ => ?_⟩
    · rw [hnone] at hgoing; cases hgoing
    · rw [hshown]; exact h.begun hping
    · rw [Feed.Shows, hshown, hcursor]
      exact (h.shows hping).imp_right fun hpassed => hpassed.mono _ fun _ => rfl

end Following

namespace World

variable {w : World} {sid : String}

/-- A feed that can have a turn has it, and leaves all else alone. -/
theorem turn_feed {k : Nat} {f : Feed} {s : Session} (hj : w.job? k = some ⟨k, sid, .feed f⟩)
    (hs : w.session? sid = some s) :
    (f.canTurn s w.host.nowMs (w.isHeld s) = false ∧ w.turn k = w) ∨
      w.turn k = w.setTask k (.feed (f.turn s w.host.nowMs (w.isHeld s))) := by
  have hcan : w.canTurn ⟨k, sid, .feed f⟩ = f.canTurn s w.host.nowMs (w.isHeld s) := by
    simp only [canTurn, hs]
  unfold turn
  simp only [hj, hs, hcan]
  split
  · exact .inr rfl
  · next hc => exact .inl ⟨Bool.eq_false_iff.2 hc, rfl⟩

/-- A feed after a move is as it was, or has had a turn. -/
theorem feed_of_move {k : Nat} {s : Session} {mv : Move} {j : Job} (hk : k < w.jobCount)
    (hs : w.session? sid = some s)
    (hfeed : ∀ j, w.job? k = some j → ∃ f, j = ⟨k, sid, .feed f⟩)
    (hj : (w.move mv).job? k = some j) :
    w.job? k = some j ∨ ∃ f, mv = .turn k ∧ w.job? k = some ⟨k, sid, .feed f⟩ ∧
      j = ⟨k, sid, .feed (f.turn s w.host.nowMs (w.isHeld s))⟩ ∧
      (w.move mv).session? sid = some s := by
  rcases job_of_move hk hj with hj' | rfl
  · exact .inl hj'
  · cases hj₀ : w.job? k with
    | none => simp [move, turn, hj₀] at hj
    | some j₀ =>
      obtain ⟨f, rfl⟩ := hfeed j₀ hj₀
      rcases turn_feed hj₀ hs with ⟨-, he⟩ | he
      · rw [move, he, hj₀] at hj
        exact .inl hj
      · rw [move, he, job?_setTask, hj₀, Option.map_some, if_pos rfl] at hj
        refine .inr ⟨f, rfl, rfl, (Option.some.inj hj).symm, ?_⟩
        rw [move, he, session?_setTask, hs]

/-- Turns of a feed bring it on until it has read all that there is. -/
theorem feed_reads_on {k : Nat} {f : Feed} {s : Session}
    (hj : w.job? k = some ⟨k, sid, .feed f⟩) (hs : w.session? sid = some s)
    (going : f.ended = true → f.behind s = 0) (turns : Nat) :
    ∃ f', (w.run (List.replicate turns (.turn k))).job? k = some ⟨k, sid, .feed f'⟩ ∧
      (w.run (List.replicate turns (.turn k))).session? sid = some s ∧
      (f'.ended = true → f'.behind s = 0) ∧ f'.behind s = f.behind s - turns := by
  induction turns with
  | zero => exact ⟨f, hj, hs, going, rfl⟩
  | succ turns ih =>
    obtain ⟨f', hj', hs', hgoing, hbehind⟩ := ih
    rw [List.replicate_succ', run_concat, move]
    generalize w.run (List.replicate turns (.turn k)) = v at hj' hs' ⊢
    rcases turn_feed hj' hs' with ⟨hc, he⟩ | he
    · -- Only a feed that has nothing to read cannot have a turn.
      have hread : f'.behind s = 0 := by
        refine Nat.eq_zero_of_not_pos fun hpos => ?_
        have hrun : f'.ended = false := Bool.eq_false_iff.2 fun h =>
          absurd (hgoing h) (Nat.ne_of_gt hpos)
        rw [Feed.canTurn_of_behind hrun hpos] at hc
        cases hc
      rw [he]
      exact ⟨f', hj', hs', hgoing, by omega⟩
    · rw [he]
      refine ⟨f'.turn s v.host.nowMs (v.isHeld s), ?_, hs', fun hended => ?_, ?_⟩
      · rw [job?_setTask, hj', Option.map_some, if_pos rfl]
      · rw [Feed.turn_behind]
        cases hrun : f'.ended with
        | true => rw [hgoing hrun]
        | false => rw [Feed.turn_ended hrun hended]
      · rw [Feed.turn_behind, hbehind, Nat.sub_sub]

/-- However far a feed is behind, so many turns are enough for it to read all that there is. -/
theorem feed_catches_up {k : Nat} {f : Feed} {s : Session}
    (hj : w.job? k = some ⟨k, sid, .feed f⟩) (hs : w.session? sid = some s)
    (going : f.ended = false) {turns : Nat} (enough : Session.updateCapacity < turns) :
    ∃ f', (w.run (List.replicate turns (.turn k))).job? k = some ⟨k, sid, .feed f'⟩ ∧
      (w.run (List.replicate turns (.turn k))).session? sid = some s ∧
      f'.pingAtMs.isSome ∧ s.unread f'.cursor = [] := by
  obtain ⟨f', hj', hs', -, hbehind⟩ :=
    feed_reads_on hj hs (fun h => absurd (going.symm.trans h) Bool.noConfusion) turns
  have hzero : f'.behind s = 0 := by
    have hle := f.behind_le s
    omega
  refine ⟨f', hj', hs', ?_⟩
  rw [Feed.behind, Nat.add_eq_zero_iff] at hzero
  refine ⟨?_, List.eq_nil_of_length_eq_zero hzero.1⟩
  cases hping : f'.pingAtMs with
  | none => rw [hping] at hzero; cases hzero.2
  | some pingAt => rfl

theorem run_abreast (hw : w.Empty) (moves : List Move) {s : Session}
    (hs : (w.run moves).session? sid = some s) : s.Abreast :=
  run_session Session.start_abreast (fun _ _ h hn => h.next hn) hw moves sid s hs

theorem follow_job (hw : w.Counted) {s : Session} (hs : w.session? sid = some s) :
    (w.move (.follow sid)).job? w.jobCount = some ⟨w.jobCount, sid, .feed (.start s)⟩ := by
  simp only [move, hs]
  exact job?_spawn_new hw sid _

end World

namespace Following

variable {w : World} {k : Nat} {sid : String}

/-- Whatever happens, a feed shows the state or has passed it over. -/
theorem follows_run (hw : w.Sound) {s₀ : Session} (hs₀ : w.session? sid = some s₀)
    (habreast : ∀ moves s, (w.run moves).session? sid = some s → s.Abreast)
    (hk : k < w.jobCount) (begun : w.job? k = some ⟨k, sid, .feed (.start s₀)⟩)
    (moves : List Move) : ∀ j s, (w.run moves).job? k = some j →
      (w.run moves).session? sid = some s →
        ∃ f, j = ⟨k, sid, .feed f⟩ ∧ Follows w k sid moves f s := by
  induction moves using List.reverseRecOn with
  | nil =>
    intro j s hj hs
    rw [World.run_nil, begun] at hj
    rw [World.run_nil, hs₀] at hs
    cases hj
    cases hs
    exact ⟨_, rfl, follows_start w k sid s₀⟩
  | append_singleton moves mv ih =>
    intro j s' hj hs'
    have hsound := World.run_sound hw moves
    obtain ⟨s, hs⟩ := World.run_session_some hw hs₀ moves
    obtain ⟨t, ht, hn⟩ := World.move_session hsound hs mv
    rw [World.run_concat] at hj hs'
    rw [hs'] at ht
    cases ht
    have hcounted : k < (w.run moves).jobCount :=
      Nat.lt_of_lt_of_le hk (World.le_run_jobCount moves w)
    have hfeed : ∀ j, (w.run moves).job? k = some j → ∃ f, j = ⟨k, sid, .feed f⟩ :=
      fun j hj => (ih j s hj hs).imp fun _ h => h.1
    rcases World.feed_of_move hcounted hs hfeed hj with hj | ⟨f, rfl, hj₀, rfl, hsame⟩
    · obtain ⟨f, rfl, hf⟩ := ih j s hj hs
      exact ⟨f, rfl, hf.next hn mv⟩
    · -- A feed leaves its session alone.
      rw [hs'] at hsame
      cases hsame
      obtain ⟨g, hg, hf⟩ := ih _ s' hj₀ hs
      cases hg
      exact ⟨_, rfl, hf.turn ⟨hj₀, hs⟩ (habreast moves s' hs) _ _⟩

end Following

namespace World

variable {w : World} {sid : String}

/-- Once a feed has read the snapshot and all updates that there are, and the announcement of the
committed state is not due, the last snapshot that it has shown is that of the committed state,
whenever it was opened and however much it has lost. The exception is a feed that has passed over
the newest announcement. -/
theorem feed_shows_state (hw : w.Empty) (past moves : List Move) {s₀ s : Session} {f : Feed}
    (hs₀ : (w.run past).session? sid = some s₀)
    (following : (w.run (past ++ .follow sid :: moves)).job? (w.run past).jobCount =
      some ⟨(w.run past).jobCount, sid, .feed f⟩)
    (hs : (w.run (past ++ .follow sid :: moves)).session? sid = some s)
    (begun : f.shown ≠ []) (read : s.unread f.cursor = []) (announced : .announce ∉ s.deeds) :
    f.shown.getLast? = some s.snapshot ∨
      Following.PassedOver ((w.run past).move (.follow sid)) (w.run past).jobCount sid moves s := by
  have hpast := run_sound hw.sound past
  have hrun (moves : List Move) : w.run (past ++ .follow sid :: moves) =
      ((w.run past).move (.follow sid)).run moves := by rw [run_append, run_cons]
  have hjob := follow_job hpast.counted hs₀
  have hopened : ((w.run past).move (.follow sid)).session? sid = some s₀ := by
    simp only [move, hs₀]
    exact hs₀
  have hcounted := (move_sound hpast (.follow sid)).counted _ (List.mem_of_find?_eq_some hjob)
  rw [hrun] at following hs
  obtain ⟨f, hf, hfollows⟩ := Following.follows_run (move_sound hpast _) hopened
    (fun moves s hs => run_abreast hw (past ++ .follow sid :: moves) (by rw [hrun, hs]))
    hcounted hjob moves _ _ following hs
  cases hf
  have hping : f.pingAtMs.isSome := Option.isSome_iff_ne_none.2 fun hnone =>
    begun (hfollows.unbegun hnone)
  refine (hfollows.shows hping).imp_left fun hshows => ?_
  have hlast := hshows.resolve_left announced
  have hnothing : s.announcedFrom f.cursor = [] := by
    refine Session.announcedFrom_of_le ?_
    have hall := List.drop_eq_nil_iff.1 read
    rw [Session.firstReadable, Session.updateCapacity] at hall
    omega
  rwa [hnothing, List.append_nil] at hlast

/-! ### An agenda -/

/-- A question for a day, and then one for a slot. -/
def agenda : FlowDocument where
  flow := {
    initialStep := some "day"
    steps := [("day", { kind := .textInput, nextStep := some "slot" }), ("slot", slotQuestion),
      ("booked", { isTerminal := true })] }

/-- The agenda, compiled. -/
def agendaMachine : Machine := .compiled Registry.standard.kinds agenda "day"

/-- The question for the day is asked. -/
def opening : List Move := [.create "s" agendaMachine []]

/-- An answer is given, and the session accepts it and does what is left to do of it. -/
def answering (k : Nat) (value : String) : List Move :=
  [.ask "s" (.dispatch (.answer (.string value) none)), .turn k] ++ List.replicate 5 (.turn 0) ++
    [.drop k]

/-- Draws that tell the listeners that choices are loaded, and are given up then. -/
def drawsGivenUp (k count : Nat) : List Move :=
  (List.range count).flatMap fun i =>
    [.ask "s" .draw, .turn (k + i), .turn (k + i), .drop (k + i)]

/-- What can be seen of a feed and its session. -/
def observes (w : World) (k : Nat) (sid : String) (p : Feed → Session → Bool) : Bool :=
  match w.job? k, w.session? sid with
  | some ⟨k', sid', .feed f⟩, some s => k' = k && sid' = sid && p f s
  | _, _ => false

theorem feed_of_observed (w : World) (k : Nat) (sid : String) (p : Feed → Session → Bool)
    (h : w.observes k sid p = true) :
    ∃ f s, w.job? k = some ⟨k, sid, .feed f⟩ ∧ w.session? sid = some s ∧ p f s = true := by
  unfold observes at h
  split at h
  · next k' sid' f s hj hs =>
    simp only [Bool.and_eq_true, decide_eq_true_eq] at h
    obtain ⟨⟨rfl, rfl⟩, hp⟩ := h
    exact ⟨f, s, hj, hs, hp⟩
  · cases h

/-- The feed has read the snapshot; then the day is answered, so many draws of the slots are given
up that the feed loses some of what it is told, a slot is answered, and the feed reads on. -/
def caughtUp : List Move :=
  .turn 2 :: answering 3 "today" ++ drawsGivenUp 4 128 ++ answering 132 "noon" ++
    List.replicate 128 (.turn 2)

/-- A feed that has lost updates shows the end of the agenda, all the same. -/
theorem feed_shows_state_caughtUp :
    ∃ f s, (calendar.run (opening ++ .follow "s" :: caughtUp)).job? 2 = some ⟨2, "s", .feed f⟩ ∧
      (calendar.run (opening ++ .follow "s" :: caughtUp)).session? "s" = some s ∧
      f.sent.length < s.updates.length ∧ s.snapshot.context.currentStep = "booked" ∧
      f.shown.getLast? = some s.snapshot := by
  obtain ⟨f, s, hj, hs, hp⟩ := feed_of_observed
    (calendar.run (opening ++ .follow "s" :: caughtUp)) 2 "s" (fun f s =>
      f.sent.length < s.updates.length && s.snapshot.context.currentStep = "booked" &&
      !f.shown.isEmpty &&
      (s.unread f.cursor).isEmpty && s.deeds.isEmpty &&
      !(s.announcedFrom (s.updates.length - Session.updateCapacity)).isEmpty) (by decide +kernel)
  simp only [Bool.and_eq_true, decide_eq_true_eq, Bool.not_eq_true', List.isEmpty_iff,
    List.isEmpty_eq_false_iff] at hp
  obtain ⟨⟨⟨⟨⟨hlost, hstep⟩, hbegun⟩, hread⟩, hdeeds⟩, hkept⟩ := hp
  refine ⟨f, s, hj, hs, hlost, hstep, ?_⟩
  obtain ⟨s₀, hs₀⟩ : ∃ s₀, (calendar.run opening).session? "s" = some s₀ := ⟨_, rfl⟩
  have hk : (calendar.run opening).jobCount = 2 := rfl
  rw [← hk] at hj
  refine (feed_shows_state calendar_empty opening caughtUp hs₀ hj hs hbegun hread
    (by rw [hdeeds]; exact List.not_mem_nil)).resolve_right fun hpassed => ?_
  rw [run_append, run_cons] at hs
  exact hkept (hpassed.crowded (move_sound (run_sound calendar_empty.sound opening) _) hs)

/-- The feed has read the snapshot; then the day is answered, and so many draws of the slots are
given up that the feed loses the announcement. -/
def leftBehind : List Move :=
  .turn 2 :: answering 3 "today" ++ drawsGivenUp 4 128 ++ List.replicate 128 (.turn 2)

/-- A feed that has read all there is shows the question for the day still, although the session has
gone on to the slots. -/
theorem feed_left_behind :
    Machine.build Registry.standard.kinds agenda = .ok agendaMachine ∧
    ∃ f s, (calendar.run (opening ++ .follow "s" :: leftBehind)).job? 2 =
        some ⟨2, "s", .feed f⟩ ∧
      (calendar.run (opening ++ .follow "s" :: leftBehind)).session? "s" = some s ∧
      f.shown ≠ [] ∧ s.unread f.cursor = [] ∧ s.deeds = [] ∧
      f.shown.getLast?.map (·.context.currentStep) = some "day" ∧
      s.snapshot.context.currentStep = "slot" ∧ f.shown.getLast? ≠ some s.snapshot := by
  obtain ⟨f, s, hj, hs, hp⟩ := feed_of_observed
    (calendar.run (opening ++ .follow "s" :: leftBehind)) 2 "s" (fun f s => !f.shown.isEmpty &&
      (s.unread f.cursor).isEmpty && s.deeds.isEmpty &&
      f.shown.getLast?.map (·.context.currentStep) = some "day" &&
      s.snapshot.context.currentStep = "slot") (by decide +kernel)
  simp only [Bool.and_eq_true, decide_eq_true_eq, Bool.not_eq_true', List.isEmpty_iff,
    List.isEmpty_eq_false_iff] at hp
  obtain ⟨⟨⟨⟨hbegun, hread⟩, hdeeds⟩, hday⟩, hslot⟩ := hp
  refine ⟨rfl, f, s, hj, hs, hbegun, hread, hdeeds, hday, hslot, fun hlast => ?_⟩
  rw [hlast, Option.map_some, hslot] at hday
  exact absurd hday (by decide)

end World

end Dialogue
