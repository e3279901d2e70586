import Dialogue.Proofs.Machine.Choices
import Dialogue.Proofs.Options.Interleaving
import Dialogue.Proofs.Session.Replies
import Dialogue.Proofs.Session.Revisits

/-!
What is drawn and what is held.

A draw reads the state of its session, and the surface is made of the state that was read. If the
session holds choices for the visit by then, these are drawn; otherwise the draw loads some, hands
them to the session, and draws what it has loaded, whether or not the session accepts it.
`Drawing.Stage` says how far a draw has come since it looked, and every run keeps it
(`Drawing.course_run`). So a surface shows what the session held at the look, or what was loaded and
then taken by the session (`drawn_of_result`). As long as no step is entered after that, the session
holds what it accepted last, and from the first acceptance on no draw loads anything
(`surface_shows_held`). Surface and session agree unless draws overlap or a failed action is tried
again during the load. Two draws that both look before anything is accepted both load, and the later
list takes the place of the one that is shown (`surface_shows_replaced`).
-/
namespace Dialogue

/-- The session holds these choices for the step: it routes answers on them, and a draw that looks
now shows them and loads nothing. -/
structure Session.Offers (s : Session) (r : Registry) (step : Step) (choices : List Choice) :
    Prop where
  held : s.state.resolvedOptions = some choices
  routes : ∀ value, s.machine.chosen step s.state value =
    (step.choices ++ choices.map s.machine.resolvedEdges).filter fun c =>
      c.value.strictEquals value
  draws : Call.lookAt r s.machine s.state = .close (.surface (.ofStep r step s.state choices))

theorem Session.offers_of_held {s : Session} {step : Step} {choices : List Choice}
    (hs : s.machine.step? s.state.currentStep = some step)
    (source : step.definition.source?.isSome) (held : s.state.resolvedOptions = some choices)
    (r : Registry) : s.Offers r step choices where
  held := held
  routes := fun value => by rw [Machine.chosen, held, Option.getD_some]
  draws := by
    obtain ⟨config, hconfig⟩ := Option.isSome_iff_exists.1 source
    have hneed : step.choicesNeed s.state = .known choices := by
      simp only [Step.choicesNeed, hconfig, held]
    simp only [Call.lookAt, Call.drawn, hs, hneed]

/-- The choices that are known for a step with a source are those that are held. -/
theorem Step.held_of_known {step : Step} {s : State} {choices : List Choice}
    (h : step.choicesNeed s = .known choices) (source : step.definition.source?.isSome)
    (going : s.isCompleted = false) : s.resolvedOptions = some choices := by
  obtain ⟨config, hconfig⟩ := Option.isSome_iff_exists.1 source
  cases hheld : s.resolvedOptions with
  | some held =>
    simp only [Step.choicesNeed, hconfig, hheld, ChoicesNeed.known.injEq] at h
    rw [h]
  | none =>
    simp only [Step.choicesNeed, hconfig, hheld, going] at h
    cases h

namespace Drawing

/-! ## The stages of a draw -/

/-- The call is about to look at the session, in order to draw it. -/
structure Looks (w : World) (k : Nat) (sid : String) (seen : Session) : Prop where
  call : w.job? k = some ⟨k, sid, .call .look⟩
  session : w.session? sid = some seen

/-- The choices that are drawn were known at the look, or they were loaded and have been taken by
the session in the course of the moves since. -/
inductive Chosen (w : World) (sid : String) (seen : Session) (step : Step) (moves : List Move)
    (choices : List Choice) : Prop where
  | known (need : step.choicesNeed seen.state = .known choices)
  | loaded (config : SourceConfig) (need : step.choicesNeed seen.state = .load config)
      (taken : .optionsResolved seen.state.epoch choices ∈ w.taken sid moves)

/-- The surface is the step that was seen at the look, with choices that were known or loaded. -/
def Shows (w : World) (sid : String) (seen : Session) (moves : List Move) (surface : Surface) :
    Prop :=
  ∃ step choices, seen.machine.step? seen.state.currentStep = some step ∧
    surface = .ofStep w.registry step seen.state choices ∧ Chosen w sid seen step moves choices

/-- The step that was seen has choices to be loaded. -/
def Loads (seen : Session) : Prop :=
  ∃ step config, seen.machine.step? seen.state.currentStep = some step ∧
    step.choicesNeed seen.state = .load config

/-- How far a draw has come, the moves after it looked at the session in the world. -/
inductive Stage (w : World) (sid : String) (seen : Session) (moves : List Move) : Call → Prop where
  | announcing (loads : Loads seen) (config : SourceConfig) :
      Stage w sid seen moves (.announce seen.state config)
  | loading (loads : Loads seen) (progress : Progress LoadResult) :
      Stage w sid seen moves (.load seen.state progress)
  | submitting (loads : Loads seen) (choices : List Choice) :
      Stage w sid seen moves
        (.submit (.optionsResolved seen.state.epoch choices) (.draw seen.state choices))
  | awaiting (loads : Loads seen) (ticket : Nat) (choices : List Choice)
      (awaits : ∀ s, (w.run moves).session? sid = some s →
        w.Awaits sid moves ticket (.optionsResolved seen.state.epoch choices) s) :
      Stage w sid seen moves (.await ticket (.draw seen.state choices))
  | closing (result : CallResult)
      (shows : ∀ surface, result = .surface surface → Shows w sid seen moves surface) :
      Stage w sid seen moves (.close result)
  | finished (result : CallResult) (snapshot : Snapshot)
      (shows : ∀ surface, result = .surface surface → Shows w sid seen moves surface) :
      Stage w sid seen moves (.finished result snapshot)

variable {w : World} {k : Nat} {sid : String} {seen s : Session} {moves : List Move}

theorem Shows.mono {surface : Surface} (h : Shows w sid seen moves surface) (mv : Move) :
    Shows w sid seen (moves ++ [mv]) surface := by
  obtain ⟨step, choices, hstep, hsurface, hchosen⟩ := h
  refine ⟨step, choices, hstep, hsurface, ?_⟩
  cases hchosen with
  | known need => exact .known need
  | loaded config need taken =>
    refine .loaded config need ?_
    rw [World.taken_concat]
    exact List.mem_append_left _ taken

/-- What happens beside a draw leaves it where it is. -/
theorem Stage.mono {c : Call} (h : Stage w sid seen moves c) (hw : (w.run moves).Sound)
    (hs : (w.run moves).session? sid = some s) (mv : Move) :
    Stage w sid seen (moves ++ [mv]) c := by
  cases h with
  | announcing loads config => exact .announcing loads config
  | loading loads progress => exact .loading loads progress
  | submitting loads choices => exact .submitting loads choices
  | awaiting loads ticket choices awaits =>
    refine .awaiting loads ticket choices fun s' hs' => ?_
    obtain ⟨t, ht, hawaits⟩ := (awaits s hs).move hw hs mv
    rw [hs'] at ht
    cases ht
    exact hawaits
  | closing result shows => exact .closing result fun surface he => (shows surface he).mono mv
  | finished result snapshot shows =>
    exact .finished result snapshot fun surface he => (shows surface he).mono mv

/-- A surface of the state that was seen shows choices that were known or loaded. -/
theorem shows_of_drawn {step : Step} {choices : List Choice}
    (hstep : seen.machine.step? seen.state.currentStep = some step)
    (chosen : Chosen w sid seen step moves choices) {surface : Surface}
    (h : Call.drawn w.registry seen.machine seen.state choices = .surface surface) :
    Shows w sid seen moves surface := by
  simp only [Call.drawn, hstep, CallResult.surface.injEq] at h
  exact ⟨step, choices, hstep, h.symm, chosen⟩

/-- A look ends the draw where the choices are known, and otherwise begins to load them. -/
theorem stage_lookAt (w : World) (sid : String) (seen : Session) (moves : List Move) :
    Stage w sid seen moves (Call.lookAt w.registry seen.machine seen.state) := by
  unfold Call.lookAt
  split
  · exact .closing _ fun surface he => by cases he
  · next step hstep =>
    split
    · next choices hneed =>
      exact .closing _ fun surface he => shows_of_drawn hstep (.known hneed) he
    · next config hneed => exact .announcing ⟨step, config, hstep, hneed⟩ config

/-- A turn of a load goes on, or comes to choices, or breaks off. -/
theorem load_turn (r : Registry) (site : Site) (s : Session) (seen : State)
    (progress : Progress LoadResult) :
    (∃ progress', ((Call.load seen progress).turn r site s).1 = .load seen progress') ∨
      (∃ choices, ((Call.load seen progress).turn r site s).1 =
        .submit (.optionsResolved seen.epoch choices) (.draw seen choices)) ∨
      ((Call.load seen progress).turn r site s).1 = .close (.failed .closed) := by
  cases progress with
  | waiting untilMs heeds next => exact .inl ⟨_, rfl⟩
  | running work =>
    cases work with
    | done result => exact .inr (.inl ⟨result.choices, rfl⟩)
    | abort => exact .inr (.inr rfl)
    | ask q next => exact .inl ⟨_, rfl⟩
    | wait ms heeds next => exact .inl ⟨_, rfl⟩

/-- Any reply but an error ends the draw with the loaded choices, which the session has taken. -/
theorem shows_of_conclude {ticket : Nat} {choices : List Choice} (loads : Loads seen)
    (awaits : w.Awaits sid moves ticket (.optionsResolved seen.state.epoch choices) s)
    (same : seen.Same s) {reply : Reply} (hr : s.reply? ticket = some reply) {surface : Surface}
    (h : Call.conclude w.registry s.machine (.draw seen.state choices) reply =
      .surface surface) : Shows w sid seen moves surface := by
  cases reply with
  | error e => cases h
  | ok outcome =>
    obtain ⟨step, config, hstep, hneed⟩ := loads
    rw [same.machine] at h
    exact shows_of_drawn hstep (.loaded config hneed (awaits.replied hr)) h

/-- A turn takes a draw to its next stage. -/
theorem Stage.turn {c : Call} {site : Site} {r : Registry} (h : Stage w sid seen moves c)
    (hr : w.registry = r) (hs : (w.run moves).session? sid = some s) (same : seen.Same s)
    (ticketed : s.Ticketed) (unspoken : s.Unspoken) (hw : (w.run moves).Sound)
    (hn : (w.run (moves ++ [.turn k])).session? sid =
      some ((c.turn r site s).2.1.absorbed (c.turn r site s).2.2)) :
    Stage w sid seen (moves ++ [.turn k]) (c.turn r site s).1 := by
  subst hr
  cases h with
  | announcing loads config => exact .loading loads _
  | loading loads progress =>
    rcases load_turn w.registry site s seen.state progress with ⟨p, ht⟩ | ⟨choices, ht⟩ | ht
    · rw [ht]; exact .loading loads p
    · rw [ht]; exact .submitting loads choices
    · rw [ht]; exact .closing _ fun surface he => by cases he
  | submitting loads choices =>
    rcases Call.submit_turn w.registry site s (.optionsResolved seen.state.epoch choices)
      (.draw seen.state choices) with ht | ht
    · rw [ht]; exact .closing _ fun surface he => by cases he
    · rw [ht] at hn ⊢
      -- The ticket is a new one, so nothing was said to it yet.
      refine .awaiting loads s.tickets choices fun s' hs' => ?_
      rw [hn] at hs'
      cases hs'
      exact World.submit_awaits ticketed unspoken _ site
  | awaiting loads ticket choices awaits =>
    rcases Call.await_turn w.registry site s ticket (.draw seen.state choices) with
      ⟨reply, hr, ht⟩ | ht | ht
    · rw [ht]
      refine .closing _ fun surface he => ?_
      exact (shows_of_conclude loads (awaits s hs) same hr he).mono _
    · rw [ht]; exact .closing _ fun surface he => by cases he
    · rw [ht]; exact (Stage.awaiting loads ticket choices awaits).mono hw hs _
  | closing result shows =>
    exact .finished _ _ fun surface he => (shows surface he).mono _
  | finished result snapshot shows =>
    exact .finished _ _ fun surface he => (shows surface he).mono _

/-! ## The course of a draw -/

/-- How far the call of a draw has come after the moves: it is about to look, or it has looked. -/
inductive Course (w : World) (k : Nat) (sid : String) (moves : List Move) : Call → Prop where
  | looking : Course w k sid moves .look
  | looked (earlier since : List Move) (seen : Session) (c : Call)
      (split : moves = earlier ++ .turn k :: since) (looks : Looks (w.run earlier) k sid seen)
      (stage : Stage (w.run earlier) sid seen (.turn k :: since) c) : Course w k sid moves c

theorem Course.mono {c : Call} (h : Course w k sid moves c) (hw : (w.run moves).Sound)
    (hs : (w.run moves).session? sid = some s) (mv : Move) :
    Course w k sid (moves ++ [mv]) c := by
  cases h with
  | looking => exact .looking
  | looked earlier since seen _ split looks stage =>
    subst split
    rw [World.run_append] at hw hs
    exact .looked earlier (since ++ [mv]) seen c (by simp) looks (stage.mono hw hs mv)

/-- A turn takes a draw on: it looks, or comes to its next stage. -/
theorem Course.turn {c : Call} {site : Site} (h : Course w k sid moves c) (hw : w.Sound)
    (hj : (w.run moves).job? k = some ⟨k, sid, .call c⟩)
    (hs : (w.run moves).session? sid = some s) (ticketed : s.Ticketed) (unspoken : s.Unspoken)
    (hn : (w.run (moves ++ [.turn k])).session? sid =
      some ((c.turn w.registry site s).2.1.absorbed (c.turn w.registry site s).2.2)) :
    Course w k sid (moves ++ [.turn k]) (c.turn w.registry site s).1 := by
  cases h with
  | looking =>
    -- From here on the moves are counted from this look.
    refine .looked moves [] s _ rfl ⟨hj, hs⟩ ?_
    rw [← World.run_registry moves w]
    exact stage_lookAt (w.run moves) sid s [.turn k]
  | looked earlier since seen _ split looks stage =>
    subst split
    have hsound : (w.run earlier).Sound := World.run_sound hw earlier
    obtain ⟨t, ht, hsame, -⟩ := World.run_state_later hsound looks.session (.turn k :: since)
    rw [World.run_append] at hs
    rw [hs] at ht
    cases ht
    rw [List.append_assoc, World.run_append] at hn
    have hstage := stage.turn (World.run_registry earlier w) hs hsame ticketed unspoken
      (World.run_sound hsound _) hn
    exact .looked earlier (since ++ [Move.turn k]) seen _ (by simp) looks hstage

/-- Whatever happens, a draw that has not been given up is somewhere on its course. -/
theorem course_run (hw : w.Sound) (hs : w.session? sid = some s) (hk : k < w.jobCount)
    (ticketed : ∀ moves s, (w.run moves).session? sid = some s → s.Ticketed)
    (unspoken : ∀ moves s, (w.run moves).session? sid = some s → s.Unspoken)
    (begun : w.job? k = some ⟨k, sid, .call .look⟩) (moves : List Move) :
    ∀ j, (w.run moves).job? k = some j → ∃ c, j = ⟨k, sid, .call c⟩ ∧ Course w k sid moves c := by
  refine Submission.call_run hw hs hk (fun _ _ mv _ hw hs hc => hc.mono hw hs mv)
    (fun moves s _ _ hs hc hj hn => hc.turn hw hj hs (ticketed moves s hs) (unspoken moves s hs) hn)
    ?_ moves
  intro j hj
  rw [begun] at hj
  cases hj
  exact ⟨.look, rfl, .looking⟩

end Drawing

namespace World

variable {w : World} {sid : String}

/-- The events that a session accepts in the course of moves. -/
def accepted (w : World) (sid : String) (moves : List Move) : List Event :=
  match w.session? sid with
  | some s => s.machine.admittedFrom s.state (w.taken sid moves)
  | none => []

theorem accepted_subset_append (w : World) (sid : String) (before after : List Move) :
    w.accepted sid before ⊆ w.accepted sid (before ++ after) := by
  intro e he
  unfold accepted at he ⊢
  split at he
  · rw [taken_append, Machine.admittedFrom_append]
    exact List.mem_append_left _ he
  · cases he

theorem entered_nil_of_append (w : World) (sid : String) (before after : List Move)
    (h : w.entered sid (before ++ after) = []) : w.entered sid before = [] := by
  unfold entered at h ⊢
  split at h
  · rw [taken_append, Machine.logFrom_append, Log.entered_append, List.append_eq_nil_iff] at h
    exact h.1
  · rfl

/-- While a session enters no step, its state goes on in the visit by the events that it accepts. -/
theorem run_goesOn (hw : w.Sound) {s s' : Session} (hs : w.session? sid = some s)
    {moves : List Move} (hs' : (w.run moves).session? sid = some s')
    (current : w.entered sid moves = []) :
    s.Same s' ∧ Machine.GoesOn (w.accepted sid moves) s.state s'.state := by
  obtain ⟨t, ht, hsame, hstate⟩ := run_state_later hw hs moves
  rw [hs'] at ht
  cases ht
  refine ⟨hsame, ?_⟩
  rw [entered, hs] at current
  rw [hstate, accepted, hs]
  exact Machine.foldl_goesOn s.machine (w.taken sid moves) current

/-- Choices that were loaded for a state and taken while no step was entered and no action tried
again have been accepted. -/
theorem accepted_of_taken {s : Session} {step : Step} (hs : w.session? sid = some s)
    (hstep : s.machine.step? s.state.currentStep = some step) (going : s.state.isCompleted = false)
    {moves : List Move} (current : w.entered sid moves = [])
    (once : .retry ∉ w.accepted sid moves) {choices : List Choice}
    (taken : .optionsResolved s.state.epoch choices ∈ w.taken sid moves) :
    .optionsResolved s.state.epoch choices ∈ w.accepted sid moves := by
  rw [entered, hs] at current
  rw [accepted, hs] at once ⊢
  exact Machine.resolved_admitted hstep going current once taken

/-- The choices that are drawn were held at the look, or have been accepted since. -/
theorem held_or_accepted {s : Session} {step : Step} (hs : w.session? sid = some s)
    (hstep : s.machine.step? s.state.currentStep = some step)
    (source : step.definition.source?.isSome) (going : s.state.isCompleted = false)
    {moves : List Move} (current : w.entered sid moves = []) {choices : List Choice}
    (chosen : Drawing.Chosen w sid s step moves choices)
    (settled : s.state.resolvedOptions = some choices ∨ .retry ∉ w.accepted sid moves) :
    s.state.resolvedOptions = some choices ∨
      .optionsResolved s.state.epoch choices ∈ w.accepted sid moves := by
  rcases settled with held | once
  · exact .inl held
  · cases chosen with
    | known need => exact .inl (Step.held_of_known need source going)
    | loaded config need taken =>
      exact .inr (accepted_of_taken hs hstep going current once taken)

theorem job_of_result? {k : Nat} {result : CallResult} {snapshot : Snapshot}
    (h : w.result? k = some (result, snapshot)) :
    ∃ j, w.job? k = some j ∧ j.task = .call (.finished result snapshot) := by
  unfold result? at h
  split at h
  · next id session result' snapshot' hj =>
    cases h
    exact ⟨_, hj, rfl⟩
  · cases h

/-- A draw that has not been given up is somewhere on its course. -/
theorem course_of_draw (hw : w.Empty) (past before : List Move) {s₀ : Session}
    (hs₀ : (w.run past).session? sid = some s₀) {j : Job}
    (hj : (w.run (past ++ .ask sid .draw :: before)).job? (w.run past).jobCount = some j) :
    ∃ c, j = ⟨(w.run past).jobCount, sid, .call c⟩ ∧
      Drawing.Course ((w.run past).move (.ask sid .draw)) (w.run past).jobCount sid before c := by
  have hask := ask_asked hw past hs₀ .draw
  obtain ⟨s₁, hs₁⟩ := hask.session
  have hunspoken (moves : List Move) (s : Session)
      (h : (((w.run past).move (.ask sid .draw)).run moves).session? sid = some s) :
      s.Unspoken := by
    rw [← run_ask] at h
    exact run_unspoken hw _ h
  rw [run_ask] at hj
  exact Drawing.course_run hask.sound hs₁ hask.counted hask.ticketed hunspoken hask.job before j hj

/-- A surface is the step that the draw saw at its look, with choices that were known at the look or
were loaded and then taken by the session. -/
theorem drawn_of_result (hw : w.Empty) (past before : List Move) {s₀ : Session}
    (hs₀ : (w.run past).session? sid = some s₀) {surface : Surface} {snapshot : Snapshot}
    (drawn : (w.run (past ++ .ask sid .draw :: before)).result? (w.run past).jobCount =
      some (.surface surface, snapshot)) :
    ∃ earlier since seen, before = earlier ++ .turn (w.run past).jobCount :: since ∧
      Drawing.Looks (w.run (past ++ .ask sid .draw :: earlier)) (w.run past).jobCount sid seen ∧
      Drawing.Shows (w.run (past ++ .ask sid .draw :: earlier)) sid seen
        (.turn (w.run past).jobCount :: since) surface := by
  obtain ⟨j, hj, htask⟩ := job_of_result? drawn
  obtain ⟨c, rfl, hcourse⟩ := course_of_draw hw past before hs₀ hj
  cases htask
  cases hcourse with
  | looked earlier since seen _ split looks stage =>
    cases stage with
    | finished _ _ shows =>
      rw [← run_ask] at looks shows
      exact ⟨earlier, since, seen, split, looks, shows surface rfl⟩

/-- A draw that has come to a surface has looked at a state of its session and shows the step of
that state, with choices that the session held, or that it loaded and the session has taken since.
Consider any later time at which the visit that was looked at goes on. If no action was tried again
while the draw was under way, the session then holds choices that it routes answers on, no draw that
looks then loads any, and the surface shows the same choices, unless the session has accepted others
since the look. -/
theorem surface_shows_held (hw : w.Empty) (past before : List Move) {s₀ : Session}
    (hs₀ : (w.run past).session? sid = some s₀) {surface : Surface} {snapshot : Snapshot}
    (drawn : (w.run (past ++ .ask sid .draw :: before)).result? (w.run past).jobCount =
      some (.surface surface, snapshot)) :
    ∃ earlier since seen step choices,
      before = earlier ++ .turn (w.run past).jobCount :: since ∧
      let looked := w.run (past ++ .ask sid .draw :: earlier)
      let span := .turn (w.run past).jobCount :: since
      Drawing.Looks looked (w.run past).jobCount sid seen ∧
      seen.machine.step? seen.state.currentStep = some step ∧
      surface = .ofStep w.registry step seen.state choices ∧
      Drawing.Chosen looked sid seen step span choices ∧
      ∀ after s, (w.run (past ++ .ask sid .draw :: (before ++ after))).session? sid = some s →
        looked.entered sid (span ++ after) = [] →
        step.definition.source?.isSome → seen.state.isCompleted = false →
        (seen.state.resolvedOptions = some choices ∨ .retry ∉ looked.accepted sid span) →
        ∃ held, s.Offers w.registry step held ∧
          ((∀ epoch other, .optionsResolved epoch other ∈ looked.accepted sid (span ++ after) →
            other = choices) → held = choices) := by
  obtain ⟨earlier, since, seen, hbefore, hlooks, step, choices, hstep, hsurface, hchosen⟩ :=
    drawn_of_result hw past before hs₀ drawn
  rw [run_registry] at hsurface
  refine ⟨earlier, since, seen, step, choices, hbefore, hlooks, hstep, hsurface, hchosen, ?_⟩
  intro after s hs current source going settled
  have hsound := run_sound hw.sound (past ++ .ask sid .draw :: earlier)
  have hlater : ((w.run (past ++ .ask sid .draw :: earlier)).run
      (.turn (w.run past).jobCount :: since ++ after)).session? sid = some s := by
    rw [← run_append, ← hs, hbefore]
    simp
  obtain ⟨hsame, hgoes⟩ := run_goesOn hsound hlooks.session hlater current
  -- The visit goes on, so the step is the one that was looked at.
  have hnow : s.machine.step? s.state.currentStep = some step := by
    rw [hsame.machine, hgoes.step, hstep]
  have hchoices := held_or_accepted hlooks.session hstep source going
    (entered_nil_of_append _ sid _ after current) hchosen settled
  obtain ⟨held, hheld, hsame⟩ := hgoes.holds
    (hchoices.imp_right fun h => ⟨_, accepted_subset_append _ sid _ after h⟩)
  exact ⟨held, Session.offers_of_held hnow source hheld w.registry, hsame⟩

/-! ### A booking -/

/-- A question with the slots that an endpoint offers. -/
def slotQuestion : StepDef where
  kind := .buttonSelect
  dynamicOptions := some { source := .api "/slots" "GET" [] none none }
  nextStep := some "booked"

/-- A question for a slot, and its end. -/
def booking (question : StepDef) : FlowDocument where
  flow := {
    initialStep := some "slot"
    steps := [("slot", question), ("booked", { isTerminal := true })] }

/-- The booking, compiled. -/
def bookingMachine (question : StepDef) : Machine :=
  .compiled Registry.standard.kinds (booking question) "slot"

/-- The question, compiled. -/
def compiledSlot : Step :=
  Build.step (booking slotQuestion).flow.steps.has Registry.standard.kinds "slot" slotQuestion

/-- A world before the first session, where the endpoint offers the morning once, and then the
evening. -/
def calendar : World where
  registry := Registry.standard
  host := { network := .queue [LoadPool.slotsReply "morning", LoadPool.slotsReply "evening"] }

theorem calendar_empty : calendar.Empty := ⟨rfl, rfl⟩

/-- A booking has begun. -/
def begun : List Move := [.create "s" (bookingMachine slotQuestion) []]

/-- The choice of a part of the day. -/
def slotChoice (part : String) : Choice := Transform.choiceOf none (.string part)

/-- A draw looks, loads the slots and hands them in. -/
def handingIn (k : Nat) : List Move := List.replicate 7 (.turn k)

/-- The session takes the slots and replies, and the draw ends. -/
def drawnAlone : List Move :=
  handingIn 2 ++ [.turn 0, .turn 0, .turn 0] ++ [.turn 2, .turn 2]

/-- Whether a call is about to look. -/
def isLooking (w : World) (k : Nat) : Bool :=
  match w.job? k with
  | some ⟨_, _, .call .look⟩ => true
  | _ => false

theorem isLooking_of_looks {w : World} {k : Nat} {sid : String} {seen : Session}
    (h : Drawing.Looks w k sid seen) : isLooking w k = true := by
  rw [isLooking, h.call]

/-- A draw loads the slots of the morning and shows them; then the session holds them, and the next
draw shows them again. -/
theorem surface_shows_held_slots :
    ∃ surface snapshot s seen,
      (calendar.run (begun ++ .ask "s" .draw :: drawnAlone)).result? 2 =
        some (.surface surface, snapshot) ∧
      (calendar.run (begun ++ .ask "s" .draw :: drawnAlone)).session? "s" = some s ∧
      surface = .ofStep Registry.standard compiledSlot seen [slotChoice "morning"] ∧
      s.Offers Registry.standard compiledSlot [slotChoice "morning"] := by
  obtain ⟨surface, snapshot, drawn⟩ : ∃ surface snapshot,
      (calendar.run (begun ++ .ask "s" .draw :: drawnAlone)).result? 2 =
        some (.surface surface, snapshot) := ⟨_, _, rfl⟩
  obtain ⟨s, hs⟩ : ∃ s, (calendar.run (begun ++ .ask "s" .draw :: drawnAlone)).session? "s" =
      some s := ⟨_, rfl⟩
  obtain ⟨earlier, since, seen, step, choices, hbefore, hlooks, hstep, hsurface, hchosen, hlater⟩ :=
    surface_shows_held calendar_empty begun drawnAlone
      (show (calendar.run begun).session? "s" = some _ from rfl) drawn
  -- The first turn of the draw is its look.
  have hfirst : ∀ n < 12, 0 < n → isLooking (calendar.run (begun ++ .ask "s" .draw ::
      drawnAlone.take n)) 2 = false := by decide +kernel
  have hnone : earlier = [] := by
    have hlength : earlier.length < 12 := by
      have hlength := congrArg List.length hbefore
      simp only [drawnAlone, handingIn, List.length_append, List.length_replicate,
        List.length_cons, List.length_nil] at hlength
      omega
    cases earlier with
    | nil => rfl
    | cons mv rest =>
      have hlooks := isLooking_of_looks hlooks
      have hlate := hfirst (mv :: rest).length hlength (Nat.succ_pos _)
      rw [hbefore, List.take_left] at hlate
      exact absurd (hlooks.symm.trans hlate) Bool.noConfusion
  subst hnone
  rw [List.nil_append] at hbefore
  rw [← hbefore] at hchosen hlater
  have hseen : ((calendar.run (begun ++ [.ask "s" .draw])).session? "s").map
      (fun s => (s.machine.step? s.state.currentStep, s.state.resolvedOptions,
        s.state.isCompleted)) = some (some compiledSlot, none, false) := rfl
  have htaken : (calendar.run (begun ++ [.ask "s" .draw])).taken "s" drawnAlone =
      [.optionsResolved 1 [slotChoice "morning"]] := rfl
  have haccepted : (calendar.run (begun ++ [.ask "s" .draw])).accepted "s" drawnAlone =
      [.optionsResolved 1 [slotChoice "morning"]] := rfl
  rw [hlooks.session, Option.map_some, hstep] at hseen
  simp only [Option.some.injEq, Prod.mk.injEq] at hseen
  obtain ⟨rfl, hunheld, hgoing⟩ := hseen
  have hchoices : choices = [slotChoice "morning"] := by
    cases hchosen with
    | known need =>
      rw [Step.held_of_known need rfl hgoing] at hunheld
      cases hunheld
    | loaded config need taken =>
      rw [htaken] at taken
      exact (Event.optionsResolved.inj (List.mem_singleton.1 taken)).2
  subst hchoices
  obtain ⟨held, hoffers, hsame⟩ := hlater [] s (by rw [List.append_nil, hs])
    (by rw [List.append_nil]; rfl) rfl hgoing (.inr (by rw [haccepted]; simp))
  rw [List.append_nil, haccepted] at hsame
  rw [hsame fun i other h => by cases List.mem_singleton.1 h; rfl] at hoffers
  exact ⟨surface, snapshot, s, seen.state, drawn, hs, hsurface, hoffers⟩

/-- Two draws look at the question, load the slots and hand them in; the session takes both lists,
and both draws end. -/
def drawnTwice : List Move :=
  [.turn 2, .turn 3] ++ List.replicate 6 (.turn 2) ++ List.replicate 6 (.turn 3) ++
    List.replicate 6 (.turn 0) ++ [.turn 2, .turn 2, .turn 3, .turn 3]

/-- The surface that a draw has come to. -/
def surface? (w : World) (k : Nat) : Option Surface :=
  match w.result? k with
  | some (.surface surface, _) => some surface
  | _ => none

/-- Two draws look at one visit before the session has taken any choices. Both load the slots, and
the evening takes the place of the morning, which the surface of the first draw shows: nothing is
routed on the choice that it offers. -/
theorem surface_shows_replaced :
    let asked := begun ++ [.ask "s" .draw, .ask "s" .draw]
    let ended := calendar.run (asked ++ drawnTwice)
    Machine.build Registry.standard.kinds (booking slotQuestion) =
      .ok (bookingMachine slotQuestion) ∧
    (calendar.run asked).entered "s" drawnTwice = [] ∧ ended.host.sent.length = 2 ∧
    (ended.surface? 2).map (·.widget) =
      some (Surface.widgetOf Registry.standard compiledSlot [slotChoice "morning"]) ∧
    (ended.surface? 3).map (·.widget) =
      some (Surface.widgetOf Registry.standard compiledSlot [slotChoice "evening"]) ∧
    (ended.session? "s").map (·.state.resolvedOptions) = some (some [slotChoice "evening"]) ∧
    (ended.session? "s").map (fun s =>
      (s.machine.chosen compiledSlot s.state (.string "morning")).length) = some 0 :=
  ⟨rfl, by decide +kernel, by decide +kernel, rfl, rfl, rfl, by decide +kernel⟩

/-- The question with a reservation that fails. -/
def reservedSlot : StepDef := { slotQuestion with action := some { kind := "reserve" } }

/-- The reservation has failed. -/
def unreserved : List Move :=
  [.create "s" (bookingMachine reservedSlot) [], .turn 0, .turn 0, .turn 1, .turn 1, .turn 1]

/-- A draw looks; then the client tries the reservation again, and the draw hands in the slots. -/
def triedAgain : List Move :=
  [.ask "s" .draw, .turn 3, .turn 3, .ask "s" (.send .retry), .turn 4, .turn 1, .turn 1, .turn 1,
    .turn 1, .turn 3, .turn 3, .turn 3, .turn 3, .turn 3, .turn 1, .turn 3, .turn 3]

/-- With a retry during the load the slots come too late for the session, and are drawn. -/
example : let ended := calendar.run (unreserved ++ triedAgain)
    (calendar.run unreserved).entered "s" triedAgain = [] ∧
    (calendar.run unreserved).accepted "s" triedAgain = [.retry] ∧
    (ended.surface? 3).map (·.widget) =
      some (Surface.widgetOf Registry.standard compiledSlot [slotChoice "morning"]) ∧
    (ended.session? "s").map (·.state.resolvedOptions) = some none :=
  ⟨by decide +kernel, rfl, rfl, rfl⟩

end World

end Dialogue
