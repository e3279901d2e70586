import Mathlib.Data.List.Induction
import Dialogue.Proofs.Machine.Acceptance
import Dialogue.Proofs.Session.Tickets

/-!
Answers between submission and acceptance.

A submission looks at its session, forms an event from the raw answer, and queues it; the session
takes the event later, and anything may happen in between. `Submission.Stage` says how far a
submission has come and at which session it looked, and every run keeps it
(`Submission.stage_run`). So an event that is taken was formed at that look
(`taken_answer_formed`). If the step that accepts the answer was current when the submission looked,
the answer has been judged. If it became current only afterwards, the answer is the raw one, and
nothing has judged it (`accepted_answer_judged`); `accepted_answer_unjudged` is such a run.
-/
namespace Dialogue

/-- The raw answer that a request submits. -/
def Request.raw? : Request → Option Json
  | .answer raw => some raw
  | .send (.answer raw _) => some raw
  | _ => none

/-- The raw answer stands for the value at this step, and nothing is wrong with the value. -/
structure Step.Passes (r : Registry) (step : Step) (s : State) (raw value : Json) : Prop where
  normalized : step.normalize r raw = .ok value
  checked : Rule.checkAll r.validators (some (s.context.scopeWith value)) value
    (step.rulesFor r value) = []

/-! ## Judging -/

theorem Step.judge_ok {r : Registry} {step : Step} {s : State} {raw value : Json}
    (h : step.judge r s raw = .ok value) : step.Passes r s raw value := by
  unfold judge at h
  split at h
  · cases h
  · next v hv =>
    dsimp only at h
    split at h
    · next hc => cases h; exact ⟨hv, List.isEmpty_iff.1 hc⟩
    · cases h

namespace Call

variable {r : Registry} {m : Machine} {s : State} {raw : Json} {stepId : String}

/-- A judged answer is queued or turned down. -/
theorem judged_cases (r : Registry) (m : Machine) (s : State) (raw : Json) (stepId : String) :
    (∃ e, judged r m s raw stepId = .submit e .submission) ∨
      ∃ result, judged r m s raw stepId = .close result := by
  unfold judged
  split
  · exact .inl ⟨_, rfl⟩
  · split
    · exact .inr ⟨_, rfl⟩
    · exact .inl ⟨_, rfl⟩

/-- The event of an answer: with a value that passes if the answer is to the current step, and with
the raw answer if it is to another one. -/
theorem judged_submit {e : Event} {purpose : Purpose}
    (h : judged r m s raw stepId = .submit e purpose) :
    ∃ value, e = .answer value (some stepId) ∧
      ((∃ step, m.step? stepId = some step ∧ stepId = s.currentStep ∧
          step.Passes r s raw value) ∨
        (value = raw ∧ (stepId = s.currentStep → m.step? stepId = none))) := by
  unfold judged at h
  split at h
  · next hn =>
    cases h
    refine ⟨raw, rfl, .inr ⟨rfl, fun hc => ?_⟩⟩
    cases hs : m.step? stepId with
    | none => rfl
    | some step =>
      have := Option.filter_eq_none_iff.1 hn step hs
      exact absurd (decide_eq_true hc) this
  · next step hstep =>
    obtain ⟨hstep, hc⟩ := Option.filter_eq_some_iff.1 hstep
    split at h
    · cases h
    · next value hv =>
      cases h
      exact ⟨value, rfl, .inl ⟨step, hstep, of_decide_eq_true hc, Step.judge_ok hv⟩⟩

/-! ## Submitting -/

/-- An event is put into the queue with a ticket of its own, unless the session has stopped. -/
theorem submit_turn (r : Registry) (site : Site) (s : Session) (e : Event) (purpose : Purpose) :
    (submit e purpose).turn r site s = (.close (.failed .closed), s, site) ∨
      (submit e purpose).turn r site s = (.await s.tickets purpose, (s.submit e).2, site) := by
  cases hstop : s.stopped with
  | true => exact .inl (by simp [turn, hstop])
  | false => exact .inr (by simp [turn, hstop, Session.submit])

/-- Waiting for a reply changes nothing, and ends with the reply or when the session stops. -/
theorem await_turn (r : Registry) (site : Site) (s : Session) (ticket : Nat) (purpose : Purpose) :
    (∃ reply, s.reply? ticket = some reply ∧ (await ticket purpose).turn r site s =
      (.close (conclude r s.machine purpose reply), s, site)) ∨
      (await ticket purpose).turn r site s = (.close (.failed .closed), s, site) ∨
      (await ticket purpose).turn r site s = (.await ticket purpose, s, site) := by
  cases hreply : s.reply? ticket with
  | some reply => exact .inl ⟨reply, rfl, by simp [turn, hreply]⟩
  | none =>
    cases hstop : s.stopped with
    | true => exact .inr (.inl (by simp [turn, hreply, hstop]))
    | false => exact .inr (.inr (by simp [turn, hreply, hstop]))

end Call

/-! ## The stages of a submission -/

namespace Submission

/-- The call is about to look whether the answer is to the current step of the session. -/
structure Looks (w : World) (k : Nat) (sid : String) (raw : Json) (stepId : String)
    (seen : Session) : Prop where
  call : w.job? k = some ⟨k, sid, .call (.judge raw stepId)⟩
  session : w.session? sid = some seen

/-- During the moves the call has looked at the session and formed the event. -/
def Formed (w : World) (k : Nat) (sid : String) (raw : Json) (moves : List Move) (e : Event) :
    Prop :=
  ∃ earlier seen stepId, earlier ++ [.turn k] <+: moves ∧
    Looks (w.run earlier) k sid raw stepId seen ∧
    Call.judged w.registry seen.machine seen.state raw stepId = .submit e .submission

/-- How far the call of a submission has come after the moves. -/
inductive Stage (w : World) (k : Nat) (sid : String) (raw : Json) (moves : List Move) :
    Call → Prop where
  | named : Stage w k sid raw moves (.name raw)
  | judging (stepId : String) : Stage w k sid raw moves (.judge raw stepId)
  | submitting (e : Event) (formed : Formed w k sid raw moves e) :
      Stage w k sid raw moves (.submit e .submission)
  | awaiting (ticket : Nat) (e : Event) (formed : Formed w k sid raw moves e)
      (carries : ∀ s, (w.run moves).session? sid = some s → s.Carries ticket e) :
      Stage w k sid raw moves (.await ticket .submission)
  | closing (result : CallResult) : Stage w k sid raw moves (.close result)
  | finished (result : CallResult) (snapshot : Snapshot) :
      Stage w k sid raw moves (.finished result snapshot)

theorem stage_call {request : Request} {raw : Json} (h : request.raw? = some raw) (w : World)
    (k : Nat) (sid : String) (moves : List Move) : Stage w k sid raw moves request.call := by
  cases request with
  | answer raw' => cases h; exact .named
  | send e =>
    cases e with
    | answer raw' step =>
      cases h
      cases step with
      | none => exact .named
      | some stepId => exact .judging stepId
    | _ => cases h
  | _ => cases h

variable {w : World} {k : Nat} {sid : String} {raw : Json} {moves : List Move}

theorem Formed.mono {e : Event} (h : Formed w k sid raw moves e) (mv : Move) :
    Formed w k sid raw (moves ++ [mv]) e := by
  obtain ⟨earlier, seen, stepId, hp, hs, hj⟩ := h
  exact ⟨earlier, seen, stepId, hp.trans (List.prefix_append _ _), hs, hj⟩

/-- What happens beside a submission leaves it where it is. -/
theorem Stage.mono {c : Call} {s : Session} (h : Stage w k sid raw moves c)
    (hw : (w.run moves).Sound) (hs : (w.run moves).session? sid = some s) (mv : Move) :
    Stage w k sid raw (moves ++ [mv]) c := by
  cases h with
  | named => exact .named
  | judging stepId => exact .judging stepId
  | submitting e formed => exact .submitting e (formed.mono mv)
  | awaiting ticket e formed carries =>
    refine .awaiting ticket e (formed.mono mv) fun s' hs' => ?_
    obtain ⟨t, ht, hn⟩ := World.move_session hw hs mv
    rw [World.run_concat, ht] at hs'
    cases hs'
    exact hn.carries (carries _ hs)
  | closing result => exact .closing result
  | finished result snapshot => exact .finished result snapshot

/-- A turn takes a submission to its next stage. -/
theorem Stage.turn {c : Call} {s : Session} {site : Site}
    (h : Stage w k sid raw moves c) (hj : (w.run moves).job? k = some ⟨k, sid, .call c⟩)
    (hs : (w.run moves).session? sid = some s) (hid : s.Ticketed)
    (hn : (w.run (moves ++ [.turn k])).session? sid =
      some ((c.turn w.registry site s).2.1.absorbed (c.turn w.registry site s).2.2)) :
    Stage w k sid raw (moves ++ [.turn k]) (c.turn w.registry site s).1 := by
  cases h with
  | named => exact .judging _
  | judging stepId =>
    change Stage w k sid raw _ (Call.judged w.registry s.machine s.state raw stepId)
    rcases Call.judged_cases w.registry s.machine s.state raw stepId with ⟨e, he⟩ | ⟨result, he⟩
    · rw [he]
      exact .submitting e ⟨moves, s, stepId, List.prefix_refl _, ⟨hj, hs⟩, he⟩
    · rw [he]; exact .closing result
  | submitting e formed =>
    rcases Call.submit_turn w.registry site s e .submission with ht | ht
    · rw [ht]; exact .closing _
    · rw [ht] at hn ⊢
      refine .awaiting s.tickets e (formed.mono _) fun s' hs' => ?_
      rw [hn] at hs'
      cases hs'
      exact Session.submit_carries hid e site
  | awaiting ticket e formed carries =>
    rcases Call.await_turn w.registry site s ticket .submission with ⟨reply, -, ht⟩ | ht | ht
    · rw [ht]; exact .closing _
    · rw [ht]; exact .closing _
    · -- Waiting for the reply does not touch the queue.
      rw [ht] at hn ⊢
      refine .awaiting ticket e (formed.mono _) fun s' hs' => ?_
      rw [hn] at hs'
      cases hs'
      exact (Session.Next.absorbed site).carries (carries s hs)
  | closing result => exact .finished _ _
  | finished result snapshot => exact .finished result snapshot

/-- After the moves the call is at one of its stages, if it has not been given up. -/
def Staged (w : World) (k : Nat) (sid : String) (raw : Json) (moves : List Move) : Prop :=
  ∀ j, (w.run moves).job? k = some j → ∃ c, j = ⟨k, sid, .call c⟩ ∧ Stage w k sid raw moves c

/-- What the own turns of a call and everything beside it keep holds of it after one more move. -/
theorem call_move {P : List Move → Call → Prop} {s : Session} (hw : (w.run moves).Sound)
    (hr : (w.run moves).registry = w.registry) (hs : (w.run moves).session? sid = some s)
    (hk : k < (w.run moves).jobCount) {mv : Move} (mono : ∀ c, P moves c → P (moves ++ [mv]) c)
    (turn : ∀ c site, P moves c → (w.run moves).job? k = some ⟨k, sid, .call c⟩ →
      (w.run (moves ++ [.turn k])).session? sid =
        some ((c.turn w.registry site s).2.1.absorbed (c.turn w.registry site s).2.2) →
      P (moves ++ [.turn k]) (c.turn w.registry site s).1)
    (h : ∀ j, (w.run moves).job? k = some j → ∃ c, j = ⟨k, sid, .call c⟩ ∧ P moves c) :
    ∀ j, (w.run (moves ++ [mv])).job? k = some j →
      ∃ c, j = ⟨k, sid, .call c⟩ ∧ P (moves ++ [mv]) c := by
  intro j hj
  -- A move that leaves the job alone.
  have hsame (hj : (w.run moves).job? k = some j) :
      ∃ c, j = ⟨k, sid, .call c⟩ ∧ P (moves ++ [mv]) c := by
    obtain ⟨c, rfl, hc⟩ := h j hj
    exact ⟨c, rfl, mono c hc⟩
  rw [World.run_concat] at hj
  rcases World.job_of_move hk hj with hj' | rfl
  · exact hsame hj'
  · cases hj₀ : (w.run moves).job? k with
    | none =>
      simp only [World.move, World.turn, hj₀] at hj
      cases hj
    | some j₀ =>
      obtain ⟨c, rfl, hc⟩ := h j₀ hj₀
      rcases World.turn_call hj₀ hs (hw.keyed _ _ hs) with ⟨he, -⟩ | ⟨hjob, hsession⟩
      · rw [World.move, he] at hj
        exact hsame hj
      · rw [hr] at hjob hsession
        rw [World.move, hjob] at hj
        cases hj
        refine ⟨_, rfl, turn c _ hc hj₀ ?_⟩
        rw [World.run_concat]
        exact hsession

/-- What the own turns of a call and everything beside it keep holds of it after any moves. -/
theorem call_run {P : List Move → Call → Prop} {s : Session} (hw : w.Sound)
    (hs : w.session? sid = some s) (hk : k < w.jobCount)
    (mono : ∀ moves s mv c, (w.run moves).Sound → (w.run moves).session? sid = some s →
      P moves c → P (moves ++ [mv]) c)
    (turn : ∀ moves s c site, (w.run moves).session? sid = some s → P moves c →
      (w.run moves).job? k = some ⟨k, sid, .call c⟩ →
      (w.run (moves ++ [.turn k])).session? sid =
        some ((c.turn w.registry site s).2.1.absorbed (c.turn w.registry site s).2.2) →
      P (moves ++ [.turn k]) (c.turn w.registry site s).1)
    (h : ∀ j, w.job? k = some j → ∃ c, j = ⟨k, sid, .call c⟩ ∧ P [] c) (moves : List Move) :
    ∀ j, (w.run moves).job? k = some j → ∃ c, j = ⟨k, sid, .call c⟩ ∧ P moves c := by
  induction moves using List.reverseRecOn with
  | nil => exact h
  | append_singleton moves mv ih =>
    have hsound := World.run_sound hw moves
    obtain ⟨t, ht⟩ := World.run_session_some hw hs moves
    exact call_move hsound (World.run_registry moves w) ht
      (Nat.lt_of_lt_of_le hk (World.le_run_jobCount moves w)) (fun c => mono moves t mv c hsound ht)
      (fun c site => turn moves t c site ht) ih

theorem stage_run {s : Session} (hw : w.Sound) (hs : w.session? sid = some s)
    (hid : ∀ moves s, (w.run moves).session? sid = some s → s.Ticketed) (hk : k < w.jobCount)
    (h : Staged w k sid raw []) (moves : List Move) : Staged w k sid raw moves :=
  call_run hw hs hk (fun _ _ mv _ hw hs hc => hc.mono hw hs mv)
    (fun moves s _ _ hs hc hj hn => hc.turn hj hs (hid moves s hs) hn) h moves

end Submission

/-! ## Accepted answers -/

namespace World

variable {w : World}

theorem ask_job (hw : w.Counted) {sid : String} {s : Session} (hs : w.session? sid = some s)
    (request : Request) :
    (w.move (.ask sid request)).job? w.jobCount = some ⟨w.jobCount, sid, .call request.call⟩ := by
  simp only [move, hs]
  exact job?_spawn_new hw sid _

theorem run_ask (w : World) (past moves : List Move) (sid : String) (request : Request) :
    w.run (past ++ .ask sid request :: moves) =
      ((w.run past).move (.ask sid request)).run moves := by
  rw [run_append, run_cons]

/-- The world after a request: its call is about to begin. -/
structure Asked (w : World) (k : Nat) (sid : String) (request : Request) : Prop where
  sound : w.Sound
  session : ∃ s, w.session? sid = some s
  job : w.job? k = some ⟨k, sid, .call request.call⟩
  counted : k < w.jobCount
  ticketed : ∀ moves s, (w.run moves).session? sid = some s → s.Ticketed

theorem ask_asked (hw : w.Empty) (past : List Move) {sid : String} {s₀ : Session}
    (hs₀ : (w.run past).session? sid = some s₀) (request : Request) :
    Asked ((w.run past).move (.ask sid request)) (w.run past).jobCount sid request := by
  have hpast : (w.run past).Sound := run_sound hw.sound past
  have hasked : ((w.run past).move (.ask sid request)).Sound := move_sound hpast _
  have hjob := ask_job hpast.counted hs₀ request
  obtain ⟨s, hs, -⟩ := move_session hpast hs₀ (.ask sid request)
  refine ⟨hasked, ⟨s, hs⟩, hjob, hasked.counted _ (List.mem_of_find?_eq_some hjob), ?_⟩
  intro moves s h
  rw [← run_ask] at h
  exact run_ticketed hw _ h

/-- An event that the session takes with the ticket of a submission was formed of the raw answer and
the session that the submission looked at. -/
theorem taken_answer_formed (hw : w.Empty) (past before after : List Move) {sid : String}
    {request : Request} {raw : Json} (hr : request.raw? = some raw) {s₀ s : Session} {ticket : Nat}
    {e : Envelope} (hs₀ : (w.run past).session? sid = some s₀)
    (queued : (w.run (past ++ .ask sid request :: before)).job? (w.run past).jobCount =
      some ⟨(w.run past).jobCount, sid, .call (.await ticket .submission)⟩)
    (hs : (w.run (past ++ .ask sid request :: (before ++ after))).session? sid = some s)
    (he : e ∈ s.queue) (own : e.ticket = some ticket) :
    ∃ earlier seen stepId, earlier ++ [.turn (w.run past).jobCount] <+: before ∧
      Submission.Looks (w.run (past ++ .ask sid request :: earlier)) (w.run past).jobCount sid raw
        stepId seen ∧ seen.machine = s.machine ∧
      Call.judged w.registry seen.machine seen.state raw stepId = .submit e.event .submission := by
  have hask := ask_asked hw past hs₀ request
  obtain ⟨s₁, hs₁⟩ := hask.session
  rw [run_ask] at queued hs
  have hbegun : Submission.Staged ((w.run past).move (.ask sid request)) (w.run past).jobCount sid
      raw [] := by
    intro j hj
    rw [run_nil, hask.job] at hj
    cases hj
    exact ⟨_, rfl, Submission.stage_call hr _ _ sid []⟩
  obtain ⟨c, hc, hstage⟩ :=
    Submission.stage_run hask.sound hs₁ hask.ticketed hask.counted hbegun before _ queued
  cases hc
  cases hstage with
  | awaiting ticket event formed carries =>
    obtain ⟨earlier, seen, stepId, hp, hlooks, hjudged⟩ := formed
    obtain ⟨rest, hrest⟩ := (List.prefix_append earlier _).trans hp
    have hregistry : ((w.run past).move (.ask sid request)).registry = w.registry :=
      ((w.run past).move_spares _).registry.trans (run_registry past w)
    -- The ticket stands for the event from its submission on, and the machine never changes.
    obtain ⟨t, ht⟩ := run_session_some hask.sound hs₁ before
    obtain ⟨s', hs', hcarries⟩ := run_session_later (fun _ _ h hn => hn.carries h) after
      (run_sound hask.sound before) ht (carries t ht)
    obtain ⟨s'', hs'', hsame⟩ := run_session_later (P := fun s => seen.Same s)
      (fun _ _ h hn => h.trans hn.toSame) (rest ++ after) (run_sound hask.sound earlier)
      hlooks.session (.refl seen)
    rw [← run_append] at hs' hs''
    rw [← List.append_assoc, hrest] at hs''
    rw [hs] at hs' hs''
    cases hs'
    cases hs''
    rw [← run_ask] at hlooks
    refine ⟨earlier, seen, stepId, hp, hlooks, hsame.machine.symm, ?_⟩
    rw [hcarries.only e he own, ← hregistry]
    exact hjudged

/-- An answer that a session accepts names the current step. If that step was current when the
submission looked, the raw answer was normalized and has passed the rules of the step in the state
of that moment; otherwise it is the raw answer, unjudged. -/
theorem accepted_answer_judged (hw : w.Empty) (past before after : List Move) {sid : String}
    {request : Request} {raw : Json} (hr : request.raw? = some raw) {s₀ s : Session} {ticket : Nat}
    {e : Envelope} {t : Transition} (hs₀ : (w.run past).session? sid = some s₀)
    (queued : (w.run (past ++ .ask sid request :: before)).job? (w.run past).jobCount =
      some ⟨(w.run past).jobCount, sid, .call (.await ticket .submission)⟩)
    (hs : (w.run (past ++ .ask sid request :: (before ++ after))).session? sid = some s)
    (takes : s.Takes e) (own : e.ticket = some ticket)
    (accepted : s.machine.transition s.state e.event = .ok t) :
    ∃ value earlier seen step, earlier ++ [.turn (w.run past).jobCount] <+: before ∧
      Submission.Looks (w.run (past ++ .ask sid request :: earlier)) (w.run past).jobCount sid raw
        s.state.currentStep seen ∧
      e.event = .answer value (some s.state.currentStep) ∧
      s.machine.step? s.state.currentStep = some step ∧
      (seen.state.currentStep = s.state.currentStep →
        step.Passes w.registry seen.state raw value) ∧
      (seen.state.currentStep ≠ s.state.currentStep → value = raw) := by
  obtain ⟨earlier, seen, stepId, hp, hlooks, hm, hj⟩ := taken_answer_formed hw past before after hr
    hs₀ queued hs (List.mem_of_mem_head? takes.queue) own
  obtain ⟨value, hvalue, hformed⟩ := Call.judged_submit hj
  obtain ⟨step, hstep, haccepts⟩ := Machine.accepts_of_transition accepted
  -- The machine accepts an answer only for the current step.
  have hnamed : stepId = s.state.currentStep := by
    rw [hvalue] at haccepts
    cases haccepts with
    | answered value answered id waits named leads =>
      rw [named stepId rfl, Machine.step?_id hstep]
  subst hnamed
  refine ⟨value, earlier, seen, step, hp, hlooks, hvalue, hstep, fun hc => ?_, fun hc => ?_⟩
  · rcases hformed with ⟨step', hstep', -, hpasses⟩ | ⟨-, hnone⟩
    · rw [hm, hstep] at hstep'
      cases hstep'
      exact hpasses
    · rw [hm, hstep] at hnone
      cases hnone hc.symm
  · rcases hformed with ⟨-, -, hcurrent, -⟩ | ⟨hraw, -⟩
    · exact absurd hcurrent.symm hc
    · exact hraw

/-! ### A survey -/

/-- A question that has to be answered. -/
def question : StepDef where
  kind := .textInput
  validation := [{ kind := .required }]
  nextStep := some "thanks"

/-- A greeting that is shown for a while, and the question. -/
def survey : FlowDocument where
  flow := {
    initialStep := some "welcome"
    steps := [("welcome", { nextStep := some "name" }), ("name", question),
      ("thanks", { isTerminal := true })] }

/-- The survey, compiled. -/
def surveyMachine : Machine := .compiled Registry.standard.kinds survey "welcome"

theorem build_survey : Machine.build Registry.standard.kinds survey = .ok surveyMachine := rfl

/-- The question, compiled. -/
def compiledQuestion : Step :=
  Build.step survey.flow.steps.has Registry.standard.kinds "name" question

/-- No blank answer passes at the question. -/
theorem question_passes (seen : State) (value : Json) :
    ¬ compiledQuestion.Passes Registry.standard seen (.string "") value := by
  intro h
  have hblank : compiledQuestion.normalize Registry.standard (.string "") = .ok (.string "") := rfl
  have hc := h.checked
  rw [h.normalized] at hblank
  cases hblank
  cases hc

/-- A world before the first session, with the built-in actions and input handlers. -/
def fresh : World := { registry := Registry.standard }

theorem fresh_empty : fresh.Empty := ⟨rfl, rfl⟩

/-- What can be seen of a session that is about to take an event. -/
theorem takes_of_idle (w : World) (sid : String) (e : Envelope)
    (idle : (w.session? sid).map (fun s => (s.deeds.isEmpty, s.shut)) = some (true, false))
    (next : (w.session? sid).bind (·.queue.head?) = some e) :
    ∃ s, w.session? sid = some s ∧ s.Takes e := by
  cases hs : w.session? sid with
  | none => rw [hs] at next; cases next
  | some s =>
    rw [hs] at idle next
    simp only [Option.map_some, Option.some.injEq, Prod.mk.injEq, List.isEmpty_iff] at idle
    exact ⟨s, rfl, idle.1, idle.2, next⟩

/-- What can be seen of a session that is about to accept an event. -/
theorem takes_of_observed (w : World) (sid : String) (e : Envelope)
    (idle : (w.session? sid).map (fun s => (s.deeds.isEmpty, s.shut)) = some (true, false))
    (next : (w.session? sid).bind (·.queue.head?) = some e)
    (accepts : ((w.session? sid).bind fun s =>
      (s.machine.transition s.state e.event).toOption).isSome = true) :
    ∃ s t, w.session? sid = some s ∧ s.Takes e ∧ s.machine.transition s.state e.event = .ok t := by
  obtain ⟨s, hs, takes⟩ := takes_of_idle w sid e idle next
  rw [hs, Option.bind_some] at accepts
  cases ht : s.machine.transition s.state e.event with
  | error refusal => rw [ht] at accepts; cases accepts
  | ok t => exact ⟨s, t, hs, takes, ht⟩

/-- What can be seen of a session that is about to accept an answer at a step. -/
theorem accepts_of_observed (w : World) (sid : String) (e : Envelope) (step : Step)
    (idle : (w.session? sid).map (fun s => (s.deeds.isEmpty, s.shut)) = some (true, false))
    (next : (w.session? sid).bind (·.queue.head?) = some e)
    (current : (w.session? sid).bind (fun s => s.machine.step? s.state.currentStep) = some step)
    (accepts : ((w.session? sid).bind fun s =>
      (s.machine.transition s.state e.event).toOption).isSome = true) :
    ∃ s t, w.session? sid = some s ∧ s.Takes e ∧
      s.machine.step? s.state.currentStep = some step ∧
      s.machine.transition s.state e.event = .ok t := by
  obtain ⟨s, t, hs, takes, accepted⟩ := takes_of_observed w sid e idle next accepts
  rw [hs, Option.bind_some] at current
  exact ⟨s, t, hs, takes, current, accepted⟩

/-- The greeting has been shown. -/
def greeted : List Move :=
  [.create "s" surveyMachine [], .clock 1500, .turn 0, .turn 1, .turn 1, .turn 1]

/-- A name is submitted to the question, judged and accepted. -/
theorem accepted_answer_judged_survey :
    let moves := greeted ++ .ask "s" (.answer (.string "Ada")) :: [.turn 3, .turn 3, .turn 3]
    let e : Envelope := { event := .answer (.string "Ada") (some "name"), ticket := some 0 }
    ∃ s t seen value, (fresh.run moves).session? "s" = some s ∧ s.Takes e ∧
      s.machine.transition s.state e.event = .ok t ∧ e.event = .answer value (some "name") ∧
      compiledQuestion.Passes Registry.standard seen (.string "Ada") value := by
  intro moves e
  obtain ⟨s, t, hs, takes, hstep, accepted⟩ := accepts_of_observed (fresh.run moves) "s" e
    compiledQuestion (by decide +kernel) rfl rfl (by decide +kernel)
  obtain ⟨value, earlier, seen, step, hp, hlooks, he, hstep', hjudged, -⟩ :=
    accepted_answer_judged fresh_empty greeted [.turn 3, .turn 3, .turn 3] [] rfl
      rfl rfl hs takes rfl accepted
  rw [hstep] at hstep'
  cases hstep'
  have hcurrent : s.state.currentStep = "name" := (Machine.step?_id hstep).symm
  have hlooked : seen.state.currentStep = "name" := by
    have h : ((fresh.run (greeted ++ .ask "s" (.answer (.string "Ada")) :: earlier)).session?
        "s").map (·.state.currentStep) = some "name" := by
      have hp' := (List.prefix_append earlier _).trans hp
      simp only [List.prefix_cons_iff, List.prefix_nil] at hp'
      rcases hp' with rfl | ⟨_, rfl, rfl | ⟨_, rfl, rfl | ⟨_, rfl, rfl⟩⟩⟩ <;> rfl
    rw [hlooks.session] at h
    exact Option.some.inj h
  rw [hcurrent] at he hjudged
  exact ⟨s, t, seen.state, value, hs, takes, accepted, he, hjudged hlooked⟩

/-- A blank answer to the question, submitted while the greeting is shown. -/
def early : Request := .send (.answer (.string "") (some "name"))

/-- The submission looks; then the display time of the greeting ends, and the answer is queued
behind the end of the greeting. -/
def overtaken : List Move := [.turn 3, .clock 1500, .turn 0, .turn 3]

/-- The session leaves the greeting. -/
def leaving : List Move := [.turn 1, .turn 1, .turn 1]

/-- A blank answer that is submitted while the greeting is shown can be accepted at the question,
where no blank answer passes. -/
theorem accepted_answer_unjudged :
    let past := [.create "s" surveyMachine []]
    let e : Envelope := { event := .answer (.string "") (some "name"), ticket := some 0 }
    Machine.build Registry.standard.kinds survey = .ok surveyMachine ∧
    (fresh.run (past ++ .ask "s" early :: overtaken)).job? 3 =
      some ⟨3, "s", .call (.await 0 .submission)⟩ ∧
    ∃ s t, (fresh.run (past ++ .ask "s" early :: (overtaken ++ leaving))).session? "s" = some s ∧
      s.Takes e ∧ s.machine.step? s.state.currentStep = some compiledQuestion ∧
      s.machine.transition s.state e.event = .ok t ∧
      ∀ seen value, ¬ compiledQuestion.Passes Registry.standard seen (.string "") value := by
  obtain ⟨s, t, hs, takes, hstep, accepted⟩ := accepts_of_observed
    (fresh.run ([.create "s" surveyMachine []] ++ .ask "s" early :: (overtaken ++ leaving))) "s"
    { event := .answer (.string "") (some "name"), ticket := some 0 } compiledQuestion
    (by decide +kernel) rfl rfl (by decide +kernel)
  exact ⟨build_survey, rfl, s, t, hs, takes, hstep, accepted, question_passes⟩

end World

end Dialogue
