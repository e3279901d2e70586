import Mathlib.Data.List.Induction
import Dialogue.Proofs.Machine.Visits
import Dialogue.Proofs.Session.Moves

/-!
The events that a session takes.

A session takes an event in a turn of its loop, when nothing is left to do of the event before and
nobody has shut the session down. `World.taken` are the events that a session takes in the course of
moves. However these are interleaved with the turns of everything else, the state of the session is
the one that its machine comes to by just these events (`run_state`): deeds, timers, calls and other
sessions have no part in it.
-/
namespace Dialogue

namespace Session

variable {s : Session}

/-- What the next turn takes from the queue. -/
def next? (s : Session) : Option Envelope :=
  if s.deeds.isEmpty && !s.shut then s.queue.head? else none

theorem next?_eq_some {e : Envelope} : s.next? = some e ↔ s.Takes e := by
  unfold next?
  constructor
  · intro h
    split at h
    · next hc =>
      rw [Bool.and_eq_true, List.isEmpty_iff, Bool.not_eq_true'] at hc
      exact ⟨hc.1, hc.2, h⟩
    · cases h
  · intro h
    rw [h.deeds, h.shut]
    exact h.queue

/-! ## The state in a turn -/

@[simp] theorem giveReply_state (s : Session) (ticket : Option Nat) (reply : Reply) :
    (s.giveReply ticket reply).state = s.state := by
  cases ticket <;> rfl

@[simp] theorem cancelInFlight_state (s : Session) : s.cancelInFlight.state = s.state := by
  unfold cancelInFlight
  split <;> rfl

@[simp] theorem perform_state (s : Session) (e : Effect) : (s.perform e).1.state = s.state := by
  cases e with
  | invokeAction step invocation action => exact cancelInFlight_state s
  | cancelAction invocation =>
    simp only [perform]
    split
    · exact cancelInFlight_state s
    · rfl
  | _ => rfl

@[simp] theorem act_state (s : Session) (d : Deed) : (s.act d).1.state = s.state := by
  cases d with
  | effect e => exact perform_state s e
  | announce => rfl
  | reply ticket outcome => rfl

@[simp] theorem performAll_state : ∀ (effects : List Effect) (s : Session),
    (s.performAll effects).1.state = s.state
  | [], _ => rfl
  | e :: rest, s => (performAll_state rest (s.perform e).1).trans (perform_state s e)

@[simp] theorem start_machine (id : String) (m : Machine) (metadata : Json.Fields) :
    (start id m metadata).1.machine = m :=
  (performAll_deals _ _).machine

@[simp] theorem start_state (id : String) (m : Machine) (metadata : Json.Fields) :
    (start id m metadata).1.state = (m.start metadata).state :=
  performAll_state _ _

theorem handle_state (s : Session) (e : Envelope) :
    (s.handle e).state = s.machine.after s.state e.event := by
  unfold handle
  split
  · next refusal h => rw [giveReply_state, Machine.after_of_error h]
  · next t h => rw [Machine.after_of_ok h]

/-- A turn changes the state by the event that it takes, and otherwise not at all. -/
theorem turn_state (s : Session) :
    s.turn.1.state = (s.next?.map Envelope.event).toList.foldl s.machine.after s.state := by
  cases hn : s.next? with
  | some e =>
    rw [(next?_eq_some.1 hn).turn]
    exact handle_state _ e
  | none =>
    rcases turn_cases s with ⟨deed, rest, hd, ht⟩ | ⟨hd, hs, ht⟩ | ⟨e, rest, hd, hs, hq, -⟩ | ht
    · rw [ht]; exact act_state _ deed
    · rw [ht]; exact cancelInFlight_state s
    · have htakes : s.Takes e := ⟨hd, hs, by rw [hq]; rfl⟩
      rw [next?_eq_some.2 htakes] at hn
      cases hn
    · rw [ht]; rfl

end Session

namespace World

variable {w : World} {sid : String} {s s' : Session} {mv : Move}

/-- The event that a session takes in a move, if it takes one. -/
def takes (w : World) (sid : String) (mv : Move) : List Event :=
  if w.loops sid mv then
    (((w.session? sid).bind Session.next?).map Envelope.event).toList
  else []

/-- The events that a session takes in the course of moves. -/
def taken (sid : String) : World → List Move → List Event
  | _, [] => []
  | w, mv :: rest => w.takes sid mv ++ taken sid (w.move mv) rest

theorem taken_append (sid : String) : ∀ (before after : List Move) (w : World),
    w.taken sid (before ++ after) = w.taken sid before ++ (w.run before).taken sid after
  | [], _, _ => rfl
  | mv :: before, after, w => by
    rw [List.cons_append, taken, taken_append sid before after, taken, List.append_assoc]
    rfl

theorem taken_concat (w : World) (sid : String) (moves : List Move) (mv : Move) :
    w.taken sid (moves ++ [mv]) = w.taken sid moves ++ (w.run moves).takes sid mv := by
  rw [taken_append, taken, taken, List.append_nil]

theorem takes_of_absent (hs : w.session? sid = none) (mv : Move) : w.takes sid mv = [] := by
  rw [takes, hs]
  split <;> rfl

theorem takes_of_loops (hl : w.loops sid mv = true) (hs : w.session? sid = some s) {e : Envelope}
    (h : s.Takes e) : w.takes sid mv = [e.event] := by
  rw [takes, if_pos hl, hs, Option.bind_some, Session.next?_eq_some.2 h]
  rfl

theorem takes_cases (hs : w.session? sid = some s) {event : Event}
    (h : w.takes sid mv = [event]) : ∃ e, s.Takes e ∧ e.event = event := by
  rw [takes, hs, Option.bind_some] at h
  split at h
  · cases hn : s.next? with
    | none => rw [hn] at h; cases h
    | some e =>
      rw [hn] at h
      exact ⟨e, Session.next?_eq_some.1 hn, List.singleton_inj.1 h⟩
  · cases h

/-- The state of a session after a move. -/
theorem move_state (hw : w.Sound) (hs : w.session? sid = some s) (mv : Move) :
    ∃ s', (w.move mv).session? sid = some s' ∧ s.Same s' ∧
      s'.state = (w.takes sid mv).foldl s.machine.after s.state := by
  obtain ⟨s', hs', h⟩ := move_cases hw hs mv
  refine ⟨s', hs', ?_⟩
  rw [takes]
  rcases h with ⟨hl, rfl⟩ | ⟨hl, h⟩
  · rw [if_pos hl, hs]
    exact ⟨s.turn_same, s.turn_state⟩
  · rw [hl, if_neg Bool.false_ne_true]
    exact ⟨h.keeps.toSame, h.keeps.state⟩

/-- From one moment to a later one, a session comes to the state that its machine comes to by the
events that it takes in between. -/
theorem run_state_later (hw : w.Sound) (hs : w.session? sid = some s) (moves : List Move) :
    ∃ s', (w.run moves).session? sid = some s' ∧ s.Same s' ∧
      s'.state = (w.taken sid moves).foldl s.machine.after s.state := by
  induction moves using List.reverseRecOn with
  | nil => exact ⟨s, hs, .refl s, rfl⟩
  | append_singleton moves mv ih =>
    obtain ⟨t, ht, hsame, hstate⟩ := ih
    obtain ⟨s', hs', hsame', hstate'⟩ := move_state (run_sound hw moves) ht mv
    refine ⟨s', by rw [run_concat, hs'], hsame.trans hsame', ?_⟩
    rw [hstate', hsame.machine, hstate, taken_concat, List.foldl_append]

/-- A session that there is not has taken no event. -/
theorem taken_of_absent (hw : w.Sound) (moves : List Move)
    (h : (w.run moves).session? sid = none) : w.taken sid moves = [] := by
  induction moves using List.reverseRecOn with
  | nil => rfl
  | append_singleton moves mv ih =>
    have hbefore : (w.run moves).session? sid = none := by
      cases hs : (w.run moves).session? sid with
      | none => rfl
      | some s =>
        obtain ⟨s', hs', -⟩ := move_session (run_sound hw moves) hs mv
        rw [run_concat, hs'] at h
        cases h
    rw [taken_concat, ih hbefore, takes_of_absent hbefore, List.append_nil]

/-- The state of a session is the one that its machine comes to by the events that the session has
taken. -/
theorem run_state (hw : w.Empty) (moves : List Move)
    (hs : (w.run moves).session? sid = some s) :
    ∃ metadata, s.state = s.machine.run metadata (w.taken sid moves) := by
  induction moves using List.reverseRecOn generalizing s with
  | nil =>
    rw [run_nil, session?, hw.sessions] at hs
    cases hs
  | append_singleton moves mv ih =>
    have hsound := run_sound hw.sound moves
    rw [run_concat] at hs
    cases hbefore : (w.run moves).session? sid with
    | some t =>
      obtain ⟨metadata, ht⟩ := ih hbefore
      obtain ⟨s', hs', hsame, hstate⟩ := move_state hsound hbefore mv
      rw [hs] at hs'
      cases hs'
      refine ⟨metadata, ?_⟩
      rw [hstate, ht, hsame.machine, taken_concat, Machine.run_append]
    | none =>
      -- The session has just been started.
      rcases move_session_none hsound hbefore mv with hn | ⟨m, metadata, -, hn⟩
      · rw [hs] at hn; cases hn
      · rw [hs] at hn
        cases hn
        refine ⟨metadata, ?_⟩
        rw [taken_concat, taken_of_absent hw.sound moves hbefore, takes_of_absent hbefore,
          Session.start_state, Session.start_machine]
        rfl

end World

end Dialogue
