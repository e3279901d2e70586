import Dialogue.Proofs.Session.Drawing

/-!
The two halves of an answer to a draw.

A draw answers with a surface and a snapshot, and reads them at two moments: the surface is made of
the state that it saw at its look, and the snapshot is read in the turn in which it closes. In
between it may load choices, for any length of time, and its session takes events meanwhile. So the
snapshot is of the step that the session has entered last since the look, or of the step of the
surface if it has entered none; and the two halves show one state if the session has accepted
nothing but choices in between (`surface_with_snapshot`). `surface_before_snapshot` is a run where
the display time of a message ends during the load, and the answer has the surface of one step and
the snapshot of another.
-/
namespace Dialogue

/-! ## Events that bring in choices -/

namespace Machine

/-- The two states look the same from outside. -/
def Alike (s s' : State) : Prop := s'.context = s.context ∧ s'.phase = s.phase

/-- Choices that are brought in change nothing else. -/
theorem after_alike (m : Machine) {s : State} {e : Event}
    (h : ∀ e' ∈ m.admitted s e, e'.choices?.isSome) : Alike s (m.after s e) := by
  cases ht : m.transition s e with
  | error refusal => rw [after_of_error ht]; exact ⟨rfl, rfl⟩
  | ok t =>
    rw [admitted_of_ok ht] at h
    have hchoices := h e (List.mem_singleton_self _)
    rw [after_of_ok ht]
    obtain ⟨step, -, ha⟩ := accepts_of_transition ht
    cases ha with
    | loaded choices going => exact ⟨rfl, rfl⟩
    | _ => cases hchoices

theorem foldl_alike (m : Machine) : ∀ (events : List Event) {s : State},
    (∀ e ∈ m.admittedFrom s events, e.choices?.isSome) → Alike s (events.foldl m.after s)
  | [], _, _ => ⟨rfl, rfl⟩
  | e :: events, s, h => by
    rw [admittedFrom, List.forall_mem_append] at h
    have hfirst := after_alike m h.1
    have hrest := foldl_alike m events h.2
    exact ⟨hrest.1.trans hfirst.1, hrest.2.trans hfirst.2⟩

end Machine

/-! ## The end of a call -/

/-- A request has still to be carried out. -/
theorem Request.call_going (request : Request) (result : CallResult) (snapshot : Snapshot) :
    request.call ≠ .finished result snapshot := by
  cases request with
  | send e =>
    cases e with
    | answer raw step => cases step <;> exact Call.noConfusion
    | _ => exact Call.noConfusion
  | _ => exact Call.noConfusion

namespace Closing

/-- The call is about to read the snapshot that goes with its result. -/
structure Closes (w : World) (k : Nat) (sid : String) (result : CallResult) (last : Session) :
    Prop where
  call : w.job? k = some ⟨k, sid, .call (.close result)⟩
  session : w.session? sid = some last

/-- If the call has finished, it did so in a turn of its own, and its snapshot is of that moment. -/
def Ended (w : World) (k : Nat) (sid : String) (moves : List Move) (c : Call) : Prop :=
  ∀ result snapshot, c = .finished result snapshot →
    ∃ earlier later last, moves = earlier ++ .turn k :: later ∧
      Closes (w.run earlier) k sid result last ∧ snapshot = last.snapshot

variable {w : World} {k : Nat} {sid : String} {s : Session} {moves : List Move}

theorem Ended.mono {c : Call} (h : Ended w k sid moves c) (mv : Move) :
    Ended w k sid (moves ++ [mv]) c := by
  intro result snapshot hc
  obtain ⟨earlier, later, last, rfl, hcloses, hsnapshot⟩ := h result snapshot hc
  exact ⟨earlier, later ++ [mv], last, by simp, hcloses, hsnapshot⟩

theorem lookAt_going (r : Registry) (m : Machine) (seen : State) (result : CallResult)
    (snapshot : Snapshot) : Call.lookAt r m seen ≠ .finished result snapshot := by
  unfold Call.lookAt
  split
  · exact Call.noConfusion
  · split <;> exact Call.noConfusion

/-- A call finishes in the turn in which it closes. -/
theorem turn_finished {r : Registry} {site : Site} {c : Call} {result : CallResult}
    {snapshot : Snapshot} (h : (c.turn r site s).1 = .finished result snapshot) :
    (c = .close result ∧ snapshot = s.snapshot) ∨ c = .finished result snapshot := by
  cases c with
  | look => exact absurd h (lookAt_going r s.machine s.state result snapshot)
  | announce seen config => cases h
  | load seen progress =>
    rcases Drawing.load_turn r site s seen progress with ⟨p, ht⟩ | ⟨choices, ht⟩ | ht <;>
      (rw [ht] at h; cases h)
  | name raw => cases h
  | judge raw stepId =>
    change Call.judged r s.machine s.state raw stepId = _ at h
    rcases Call.judged_cases r s.machine s.state raw stepId with ⟨e, he⟩ | ⟨result', he⟩ <;>
      (rw [he] at h; cases h)
  | submit e purpose =>
    rcases Call.submit_turn r site s e purpose with ht | ht <;> (rw [ht] at h; cases h)
  | await ticket purpose =>
    rcases Call.await_turn r site s ticket purpose with ⟨reply, -, ht⟩ | ht | ht <;>
      (rw [ht] at h; cases h)
  | close result' => cases h; exact .inl ⟨rfl, rfl⟩
  | finished result' snapshot' => exact .inr h

theorem Ended.turn {r : Registry} {site : Site} {c : Call} (h : Ended w k sid moves c)
    (hj : (w.run moves).job? k = some ⟨k, sid, .call c⟩)
    (hs : (w.run moves).session? sid = some s) :
    Ended w k sid (moves ++ [.turn k]) (c.turn r site s).1 := by
  intro result snapshot hc
  rcases turn_finished hc with ⟨rfl, rfl⟩ | rfl
  · exact ⟨moves, [], s, rfl, ⟨hj, hs⟩, rfl⟩
  · exact h.mono _ result snapshot rfl

/-- Whatever happens, a call that has finished has closed before. -/
theorem ended_run (hw : w.Sound) (hs : w.session? sid = some s) (hk : k < w.jobCount) {c : Call}
    (begun : w.job? k = some ⟨k, sid, .call c⟩)
    (going : ∀ result snapshot, c ≠ .finished result snapshot) (moves : List Move) :
    ∀ j, (w.run moves).job? k = some j → ∃ c, j = ⟨k, sid, .call c⟩ ∧ Ended w k sid moves c := by
  refine Submission.call_run hw hs hk (fun _ _ mv _ _ _ hc => hc.mono mv)
    (fun moves s c site hs hc hj _ => hc.turn hj hs) ?_ moves
  intro j hj
  rw [begun] at hj
  cases hj
  exact ⟨c, rfl, fun result snapshot hc => absurd hc (going result snapshot)⟩

end Closing

namespace World

variable {w : World} {sid : String}

/-- A call that has given a result has read its snapshot in the turn in which it closed. -/
theorem closed_of_result (hw : w.Empty) (past before : List Move) {s₀ : Session}
    (hs₀ : (w.run past).session? sid = some s₀) {request : Request} {result : CallResult}
    {snapshot : Snapshot}
    (ended : (w.run (past ++ .ask sid request :: before)).result? (w.run past).jobCount =
      some (result, snapshot)) :
    ∃ earlier later last, before = earlier ++ .turn (w.run past).jobCount :: later ∧
      Closing.Closes (w.run (past ++ .ask sid request :: earlier)) (w.run past).jobCount sid result
        last ∧ snapshot = last.snapshot := by
  have hask := ask_asked hw past hs₀ request
  obtain ⟨s₁, hs₁⟩ := hask.session
  obtain ⟨j, hj, htask⟩ := job_of_result? ended
  rw [run_ask] at hj
  obtain ⟨c, rfl, hended⟩ := Closing.ended_run hask.sound hs₁ hask.counted hask.job
    request.call_going before j hj
  cases htask
  obtain ⟨earlier, later, last, hbefore, hcloses, hsnapshot⟩ := hended result snapshot rfl
  rw [← run_ask] at hcloses
  exact ⟨earlier, later, last, hbefore, hcloses, hsnapshot⟩

/-- A draw that closes with a surface shows the step that it saw at its look. -/
theorem drawn_of_closes (hw : w.Empty) (past before : List Move) {s₀ last : Session}
    (hs₀ : (w.run past).session? sid = some s₀) {surface : Surface}
    (closes : Closing.Closes (w.run (past ++ .ask sid .draw :: before)) (w.run past).jobCount sid
      (.surface surface) last) :
    ∃ earlier since seen, before = earlier ++ .turn (w.run past).jobCount :: since ∧
      Drawing.Looks (w.run (past ++ .ask sid .draw :: earlier)) (w.run past).jobCount sid seen ∧
      Drawing.Shows (w.run (past ++ .ask sid .draw :: earlier)) sid seen
        (.turn (w.run past).jobCount :: since) surface := by
  obtain ⟨c, hc, hcourse⟩ := course_of_draw hw past before hs₀ closes.call
  cases hc
  cases hcourse with
  | looked earlier since seen _ split looks stage =>
    cases stage with
    | closing _ shows =>
      rw [← run_ask] at looks shows
      exact ⟨earlier, since, seen, split, looks, shows surface rfl⟩

/-- Events that only bring in choices leave the snapshot as it is. -/
theorem run_snapshot (hw : w.Sound) {s s' : Session} (hs : w.session? sid = some s)
    {moves : List Move} (hs' : (w.run moves).session? sid = some s')
    (only : ∀ e ∈ w.accepted sid moves, e.choices?.isSome) : s'.snapshot = s.snapshot := by
  obtain ⟨t, ht, hsame, hstate⟩ := run_state_later hw hs moves
  rw [hs'] at ht
  cases ht
  rw [accepted, hs] at only
  obtain ⟨hcontext, hphase⟩ := Machine.foldl_alike s.machine _ only
  rw [Session.snapshot, Session.snapshot, Snapshot.ofState, hsame.id, hstate, hcontext, hphase]
  rfl

/-- The surface that a draw answers with is of the state at its look, and the snapshot is of the
state at its close. The snapshot is of the step that the session has entered last in between, or of
the step of the surface if it has entered none. If the session has accepted nothing but choices in
between, the two agree in step and phase. -/
theorem surface_with_snapshot (hw : w.Empty) (past before : List Move) {s₀ : Session}
    (hs₀ : (w.run past).session? sid = some s₀) {surface : Surface} {snapshot : Snapshot}
    (drawn : (w.run (past ++ .ask sid .draw :: before)).result? (w.run past).jobCount =
      some (.surface surface, snapshot)) :
    ∃ earlier since later seen last,
      before = earlier ++ .turn (w.run past).jobCount :: since ++
        .turn (w.run past).jobCount :: later ∧
      let looked := w.run (past ++ .ask sid .draw :: earlier)
      let span := .turn (w.run past).jobCount :: since
      Drawing.Looks looked (w.run past).jobCount sid seen ∧
      Closing.Closes (looked.run span) (w.run past).jobCount sid (.surface surface) last ∧
      surface.stepId = seen.state.currentStep ∧ surface.phase = seen.state.phase ∧
      snapshot = last.snapshot ∧
      last.state = (looked.taken sid span).foldl seen.machine.after seen.state ∧
      snapshot.context.currentStep = (looked.entered sid span).getLast?.getD surface.stepId ∧
      ((∀ e ∈ looked.accepted sid span, e.choices?.isSome) →
        surface.stepId = snapshot.context.currentStep ∧ surface.phase = snapshot.phase) := by
  obtain ⟨earlier', later, last, hbefore, hcloses, hsnapshot⟩ :=
    closed_of_result hw past before hs₀ drawn
  obtain ⟨earlier, since, seen, hearlier, hlooks, step, choices, -, hsurface, -⟩ :=
    drawn_of_closes hw past earlier' hs₀ hcloses
  have hsound := run_sound hw.sound (past ++ .ask sid .draw :: earlier)
  have hmoves : past ++ .ask sid .draw :: earlier' =
      (past ++ .ask sid .draw :: earlier) ++ .turn (w.run past).jobCount :: since := by
    rw [hearlier, List.append_assoc, List.cons_append]
  rw [hmoves, run_append] at hcloses
  obtain ⟨t, ht, -, hstate⟩ :=
    run_state_later hsound hlooks.session (.turn (w.run past).jobCount :: since)
  rw [hcloses.session] at ht
  cases ht
  have hcurrent := run_currentStep hsound hlooks.session hcloses.session
  have hstepId : surface.stepId = seen.state.currentStep := by rw [hsurface]; rfl
  have hphase : surface.phase = seen.state.phase := by rw [hsurface]; rfl
  refine ⟨earlier, since, later, seen, last, by rw [hbefore, hearlier], hlooks, hcloses, hstepId,
    hphase, hsnapshot, hstate, ?_, fun only => ?_⟩
  · rw [hsnapshot, hstepId]
    exact hcurrent
  · rw [hsnapshot, run_snapshot hsound hlooks.session hcloses.session only, hstepId, hphase]
    exact ⟨rfl, rfl⟩

/-- A draw of the booking loads the slots of the morning; meanwhile the session takes nothing else,
and the answer is of one state. -/
theorem surface_with_snapshot_slots :
    ∃ surface snapshot,
      (calendar.run (begun ++ .ask "s" .draw :: drawnAlone)).result? 2 =
        some (.surface surface, snapshot) ∧
      surface.stepId = snapshot.context.currentStep ∧ surface.phase = snapshot.phase := by
  obtain ⟨surface, snapshot, drawn⟩ : ∃ surface snapshot,
      (calendar.run (begun ++ .ask "s" .draw :: drawnAlone)).result? 2 =
        some (.surface surface, snapshot) := ⟨_, _, rfl⟩
  obtain ⟨earlier, since, later, seen, last, hbefore, -, -, -, -, -, -, -, hagree⟩ :=
    surface_with_snapshot calendar_empty begun drawnAlone
      (show (calendar.run begun).session? "s" = some _ from rfl) drawn
  refine ⟨surface, snapshot, drawn, hagree fun e he => ?_⟩
  -- Whenever the draw looked, choices are all that the session has accepted since.
  have honly : ∀ n < 13, ((calendar.run (begun ++ .ask "s" .draw :: drawnAlone.take n)).accepted
      "s" (drawnAlone.drop n)).all (·.choices?.isSome) = true := by decide +kernel
  have hlength : earlier.length < 13 := by
    have hlength := congrArg List.length hbefore
    simp only [drawnAlone, handingIn, List.length_append, List.length_replicate,
      List.length_cons, List.length_nil] at hlength
    omega
  have honly := honly earlier.length hlength
  rw [hbefore, List.append_assoc, List.take_left, List.drop_left, List.all_eq_true] at honly
  exact honly e (accepted_subset_append _ "s" _ _ he)

/-! ### A notice -/

/-- A message with the slots that an endpoint offers. -/
def slotNotice : StepDef := { slotQuestion with kind := .message }

/-- A world before the first session, where the endpoint takes three seconds. -/
def slowCalendar : World where
  registry := Registry.standard
  host := { network := .queue [{ LoadPool.slotsReply "morning" with delayMs := 3000 }] }

/-- The notice is shown. -/
def noticed : List Move := [.create "s" (bookingMachine slotNotice) []]

/-- A draw looks at the notice and asks for the slots. The display time of the notice ends, and the
session goes on to its end. Then the slots arrive, too late for the session, and the draw ends. -/
def drawnLate : List Move :=
  List.replicate 4 (.turn 3) ++ [.clock 1500, .turn 0] ++ List.replicate 5 (.turn 1) ++
    [.clock 3000, .turn 3, .turn 3, .turn 3, .turn 1, .turn 3, .turn 3]

/-- The surface is of the notice and the snapshot of the end of the booking. -/
theorem surface_before_snapshot :
    Machine.build Registry.standard.kinds (booking slotNotice) = .ok (bookingMachine slotNotice) ∧
    ∃ surface snapshot,
      (slowCalendar.run (noticed ++ .ask "s" .draw :: drawnLate)).result? 3 =
        some (.surface surface, snapshot) ∧
      surface.stepId = "slot" ∧ surface.phase = .ready ∧
      snapshot.context.currentStep = "booked" ∧ snapshot.phase = .completed :=
  ⟨rfl, _, _, rfl, rfl, rfl, rfl, rfl⟩

end World

end Dialogue
