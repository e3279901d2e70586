import Mathlib.Data.List.Induction
import Dialogue.Proofs.Machine.Ledger

/-!
Visits.

A run is in one visit of a step after another, and each entry of a step begins a new one, also the
entry of the step that the run is at. What the surroundings bring in for a visit (the end of its
display time, the result of its action, the choices that were loaded for it) carries the epoch of
that visit. As the epoch rises with every entry and never falls (`after_epoch_rises`), an event with
another epoch than the state's is out of date, and it is refused as stale (`transition_stale`). So
nothing that was asked for in one visit has an effect in a later one, and the loaded choices of a
state were loaded in its own visit (`stale_events_inert`). The step that a run is at is the one that
it has entered last (`foldl_currentStep`).
-/
namespace Dialogue

/-! ## Epochs that are carried -/

/-- The epoch that an event carries which the surroundings bring in. -/
def Event.epoch? : Event → Option Epoch
  | .autoAdvance epoch => epoch
  | .actionSettled invocation _ => some invocation
  | .optionsResolved epoch _ => some epoch
  | _ => none

/-- The epoch that an effect carries which asks for something to be brought in later. -/
def Effect.epoch? : Effect → Option Epoch
  | .invokeAction _ invocation _ => some invocation
  | .scheduleAutoAdvance _ epoch => some epoch
  | _ => none

/-- The step that a note says was entered. -/
def Note.entered? : Note → Option String
  | .effect (.stepEntered step _) => some step
  | _ => none

/-- The steps that were entered, in their order. -/
def Log.entered (log : Log) : List String := log.filterMap Note.entered?

theorem Log.entered_append (log log' : Log) : entered (log ++ log') = log.entered ++ log'.entered :=
  List.filterMap_append

namespace Machine

variable {m : Machine} {step : Step} {s : State} {metadata : Json.Fields}

/-! ## What a transition does to the visit -/

/-- On entry a step asks for things under the new epoch, and enters no other step. -/
theorem onEntry_effects (step : Step) (epoch : Epoch) {x : Effect}
    (hx : x ∈ (step.onEntry epoch).2) :
    Note.entered? (.effect x) = none ∧ ∀ i, x.epoch? = some i → i = epoch := by
  rcases onEntry_cases step epoch with ⟨-, he⟩ | ⟨action, -, -, he⟩ | ⟨-, -, he⟩
  · rw [he] at hx
    rw [List.mem_singleton.1 hx]
    simp [Note.entered?, Effect.epoch?]
  · rw [he] at hx
    rw [List.mem_singleton.1 hx]
    simp [Note.entered?, Effect.epoch?]
  · rw [he] at hx
    cases ha : step.autoAdvance with
    | none => simp [ha] at hx
    | some id =>
      simp only [ha, Option.isSome_some, if_true, List.mem_singleton] at hx
      rw [hx]
      simp [Note.entered?, Effect.epoch?]

/-- What entering a step from an epoch comes to: one entry, the next epoch, and no choices yet. -/
structure Enters (epoch : Epoch) (target : String) (t : Transition) : Prop where
  entered : t.log.entered = [target]
  epoch : t.state.epoch = epoch + 1
  unloaded : t.state.resolvedOptions = none
  carried : ∀ x ∈ t.effects, ∀ i, x.epoch? = some i → i = t.state.epoch

theorem enter_enters (m : Machine) (s : State) (target : String) (previous : Option String) :
    Enters s.epoch target (m.enter s target previous) := by
  cases hs : m.step? target with
  | none =>
    refine ⟨?_, rfl, rfl, ?_⟩
    · simp [enter, hs, Transition.log, Log.entered, Note.entered?]
    · simp [enter, hs, Effect.epoch?]
  | some step =>
    rw [enter_eq hs]
    refine ⟨?_, rfl, rfl, fun x hx i hi => ?_⟩
    · simp only [Transition.log, Log.entered, List.map_cons, List.filterMap_cons, Note.entered?]
      rw [List.cons_eq_cons]
      refine ⟨rfl, List.filterMap_eq_nil_iff.2 fun note hn => ?_⟩
      obtain ⟨x, hx, rfl⟩ := List.mem_map.1 hn
      exact (onEntry_effects step _ hx).1
    · rcases List.mem_cons.1 hx with rfl | hx
      · cases hi
      · exact (onEntry_effects step _ hx).2 i hi

theorem moveTo_enters {epoch : Epoch} (m : Machine) {s : State} (he : s.epoch = epoch)
    (target : String) : Enters epoch target (m.moveTo s target) := by
  subst he
  have he := enter_enters m s target (some s.currentStep)
  refine ⟨?_, he.epoch, he.unloaded, fun x hx i hi => ?_⟩
  · rw [moveTo_log, Log.entered_append, he.entered]
    cases s.phase.invocation? <;> rfl
  · -- A cancellation asks for nothing.
    rcases List.mem_append.1 hx with hx | hx
    · cases hp : s.phase <;> simp [hp] at hx
      rw [hx] at hi
      cases hi
    · exact he.carried x hx i hi

/-- An accepted event enters a step, or tries the action of the visit again, or stays in the visit
and may bring in its choices. -/
inductive Proceeds (s : State) (e : Event) (t : Transition) : Prop where
  | enters (target : String) (h : Enters s.epoch target t)
  | retries (entered : t.log.entered = []) (epoch : t.state.epoch = s.epoch + 1)
      (kept : t.state.resolvedOptions = s.resolvedOptions)
      (carried : ∀ x ∈ t.effects, ∀ i, x.epoch? = some i → i = t.state.epoch)
  | stays (other : e ≠ .retry) (entered : t.log.entered = []) (epoch : t.state.epoch = s.epoch)
      (kept : t.state.resolvedOptions = s.resolvedOptions ∨
        ∃ choices, e = .optionsResolved s.epoch choices ∧ t.state.resolvedOptions = some choices)
      (carried : ∀ x ∈ t.effects, x.epoch? = none)

theorem proceeds_of_accepts {e : Event} {t : Transition} (ha : Accepts m step s e t) :
    Proceeds s e t := by
  cases ha with
  | answered value answered id waits named leads =>
    exact .enters id (moveTo_enters m (by rfl) id)
  | advanced epoch id current ready leads => exact .enters id (moveTo_enters m rfl id)
  | completed value id going awaits leads => exact .enters id (moveTo_enters m (by simp) id)
  | settled i result id running success leads => exact .enters id (moveTo_enters m (by simp) id)
  | retried error retryable action failed runs =>
    refine .retries rfl rfl rfl fun x hx i hi => ?_
    rw [List.mem_singleton.1 hx] at hi
    exact (Option.some.inj hi).symm
  | failed i result running failure =>
    refine .stays (by simp) rfl rfl (.inl rfl) fun x hx => ?_
    rw [List.mem_singleton.1 hx]
    rfl
  | held i result running success stays =>
    exact .stays (by simp) rfl rfl (.inl rfl) (by simp)
  | loaded choices going =>
    exact .stays (by simp) rfl rfl (.inr ⟨choices, rfl, rfl⟩) (by simp)

theorem proceeds_of_transition {e : Event} {t : Transition} (h : m.transition s e = .ok t) :
    Proceeds s e t := by
  obtain ⟨step, -, ha⟩ := accepts_of_transition h
  exact proceeds_of_accepts ha

namespace Proceeds

variable {e : Event} {t : Transition}

/-- The effects of a transition carry the epoch of the state that it leads to. -/
theorem effect_epoch (h : Proceeds s e t) {x : Effect} (hx : x ∈ t.effects) {i : Epoch}
    (hi : x.epoch? = some i) : i = t.state.epoch := by
  cases h with
  | enters target h => exact h.carried x hx i hi
  | retries entered epoch kept carried => exact carried x hx i hi
  | stays other entered epoch kept carried => rw [carried x hx] at hi; cases hi

/-- The epoch does not fall, and it rises with every entry and every retry. -/
theorem rises (h : Proceeds s e t) (fits : s.epoch.toNat + 1 < UInt64.size) :
    s.epoch ≤ t.state.epoch ∧ (t.log.entered ≠ [] ∨ e = .retry → s.epoch < t.state.epoch) := by
  have hlt : s.epoch < s.epoch + 1 := Epoch.lt_next fits (UInt64.le_refl _)
  cases h with
  | enters target h => rw [h.epoch]; exact ⟨UInt64.le_of_lt hlt, fun _ => hlt⟩
  | retries entered epoch kept carried => rw [epoch]; exact ⟨UInt64.le_of_lt hlt, fun _ => hlt⟩
  | stays other entered epoch kept carried =>
    rw [epoch]
    refine ⟨UInt64.le_refl _, ?_⟩
    rintro (he | he)
    · exact absurd entered he
    · exact absurd he other

end Proceeds

/-! ## Out of date -/

/-- An event that carries another epoch than the state's is refused as stale, where an action that
is running has the epoch of the state. -/
theorem transition_stale (hs : m.step? s.currentStep = some step)
    (running : ∀ i, s.phase = .actionPending i → i = s.epoch) {e : Event} {i : Epoch}
    (he : e.epoch? = some i) (hi : i ≠ s.epoch) :
    ∃ refusal, m.transition s e = .error refusal ∧ refusal.isStale = true := by
  simp only [transition, hs]
  cases e with
  | autoAdvance epoch =>
    cases he
    exact ⟨.stale "AUTO_ADVANCE" s.currentStep, by simp [handle, hi], rfl⟩
  | actionSettled invocation result =>
    cases he
    have hp : s.phase ≠ .actionPending i := fun hp => hi (running i hp)
    exact ⟨.stale "ACTION_SETTLED" s.currentStep, by simp [handle, hp], rfl⟩
  | optionsResolved epoch choices =>
    cases he
    exact ⟨.stale "OPTIONS_RESOLVED" s.currentStep, by simp [handle, hi], rfl⟩
  | _ => cases he

/-! ## Runs -/

theorem run_append (m : Machine) (metadata : Json.Fields) (before after : List Event) :
    m.run metadata (before ++ after) = after.foldl m.after (m.run metadata before) :=
  List.foldl_append

theorem run_concat (m : Machine) (metadata : Json.Fields) (events : List Event) (e : Event) :
    m.run metadata (events ++ [e]) = m.after (m.run metadata events) e :=
  run_append m metadata events [e]

theorem logFrom_append (m : Machine) : ∀ (before after : List Event) (s : State),
    m.logFrom s (before ++ after) = m.logFrom s before ++ m.logFrom (before.foldl m.after s) after
  | [], _, _ => rfl
  | e :: before, after, s => by
    rw [List.cons_append, logFrom, logFrom_append m before after, logFrom, List.append_assoc,
      List.foldl_cons]

theorem log_append (m : Machine) (metadata : Json.Fields) (before after : List Event) :
    m.log metadata (before ++ after) =
      m.log metadata before ++ m.logFrom (m.run metadata before) after := by
  rw [log, log, logFrom_append, List.append_assoc]
  rfl

/-- The number of the visit that a run has come to: how many steps it has entered. -/
def visit (m : Machine) (metadata : Json.Fields) (events : List Event) : Nat :=
  (m.log metadata events).entered.length

theorem visit_append (m : Machine) (metadata : Json.Fields) (before after : List Event) :
    m.visit metadata (before ++ after) =
      m.visit metadata before + (m.logFrom (m.run metadata before) after).entered.length := by
  rw [visit, log_append, Log.entered_append, List.length_append]
  rfl

/-- The settlement of an action is no entry. -/
theorem notes_entered {e : Event} {t : Transition} (h : m.transition s e = .ok t) :
    (m.notes s e).entered = t.log.entered := by
  rw [notes, h, Log.entered_append]
  cases e <;> rfl

/-- An event does not take the epoch back, and takes it on with an entry. -/
theorem after_epoch_rises (m : Machine) (fits : s.epoch.toNat + 1 < UInt64.size) (e : Event) :
    s.epoch ≤ (m.after s e).epoch ∧
      ((m.notes s e).entered ≠ [] → s.epoch < (m.after s e).epoch) := by
  cases ht : m.transition s e with
  | error refusal =>
    rw [after_of_error ht, notes_of_error ht]
    exact ⟨UInt64.le_refl _, fun h => absurd rfl h⟩
  | ok t =>
    obtain ⟨hle, hlt⟩ := (proceeds_of_transition ht).rises fits
    rw [after_of_ok ht, notes_entered ht]
    exact ⟨hle, fun h => hlt (.inl h)⟩

/-- No number of events takes the epoch back, and it is taken on if a step is entered. -/
theorem foldl_epoch_rises (m : Machine) : ∀ (events : List Event) {s : State},
    s.epoch.toNat + events.length < UInt64.size →
    s.epoch ≤ (events.foldl m.after s).epoch ∧
      ((m.logFrom s events).entered ≠ [] → s.epoch < (events.foldl m.after s).epoch)
  | [], s, _ => ⟨UInt64.le_refl _, fun h => absurd rfl h⟩
  | e :: events, s, fits => by
    rw [List.length_cons] at fits
    have hgrows := after_epoch_le m s e
    obtain ⟨hle, hlt⟩ := after_epoch_rises m (s := s) (by omega) e
    obtain ⟨hle', hlt'⟩ := foldl_epoch_rises m events (s := m.after s e) (by omega)
    rw [List.foldl_cons, logFrom, Log.entered_append]
    refine ⟨UInt64.le_trans hle hle', fun h => ?_⟩
    by_cases hn : (m.notes s e).entered = []
    · rw [hn, List.nil_append] at h
      exact UInt64.lt_of_le_of_lt hle (hlt' h)
    · exact UInt64.lt_of_lt_of_le (hlt hn) hle'

theorem run_epoch_le (m : Machine) (metadata : Json.Fields) (events : List Event) :
    (m.run metadata events).epoch.toNat ≤ events.length + 1 := by
  induction events using List.reverseRecOn with
  | nil => exact Nat.le_refl 1
  | append_singleton events e ih =>
    rw [run_concat, List.length_append]
    exact Nat.le_trans (after_epoch_le m _ e) (Nat.succ_le_succ ih)

/-- What a run has come to by an earlier visit has a lower epoch. -/
theorem epoch_lt_of_visit_lt {before after : List Event}
    (fits : (before ++ after).length < UInt64.size - 1)
    (h : m.visit metadata before < m.visit metadata (before ++ after)) :
    (m.run metadata before).epoch < (m.run metadata (before ++ after)).epoch := by
  have hbound := run_epoch_le m metadata before
  rw [List.length_append] at fits
  have hrises := (foldl_epoch_rises m after (s := m.run metadata before) (by omega)).2
  rw [run_append]
  refine hrises fun hn => ?_
  rw [visit_append, hn] at h
  exact Nat.lt_irrefl _ h

/-! ## The current step -/

theorem moveTo_entered (m : Machine) (s : State) (target : String) :
    (m.moveTo s target).log.entered = [(m.moveTo s target).state.currentStep] := by
  rw [(moveTo_enters m rfl target).entered]
  rfl

/-- A transition leads to the step that it enters, or stays at the step. -/
theorem transition_currentStep {e : Event} {t : Transition} (h : m.transition s e = .ok t) :
    t.log.entered = [t.state.currentStep] ∨
      (t.log.entered = [] ∧ t.state.currentStep = s.currentStep) := by
  obtain ⟨step, -, ha⟩ := accepts_of_transition h
  cases ha with
  | answered value answered id waits named leads => exact .inl (moveTo_entered m _ id)
  | advanced epoch id current ready leads => exact .inl (moveTo_entered m _ id)
  | completed value id going awaits leads => exact .inl (moveTo_entered m _ id)
  | settled i result id running success leads => exact .inl (moveTo_entered m _ id)
  | retried error retryable action failed runs => exact .inr ⟨rfl, rfl⟩
  | failed i result running failure => exact .inr ⟨rfl, rfl⟩
  | held i result running success stays => exact .inr ⟨rfl, rfl⟩
  | loaded choices going => exact .inr ⟨rfl, rfl⟩

/-- An accepted answer ends the visit. -/
theorem answer_enters {value : Json} {answered : Option String} {t : Transition}
    (h : m.transition s (.answer value answered) = .ok t) :
    t.log.entered = [t.state.currentStep] := by
  obtain ⟨step, -, ha⟩ := accepts_of_transition h
  cases ha with
  | answered value answered id waits named leads => exact moveTo_entered m _ id

/-- After events the current step is the one that was entered last, if any was. -/
theorem foldl_currentStep (m : Machine) : ∀ (events : List Event) (s : State),
    (events.foldl m.after s).currentStep =
      (m.logFrom s events).entered.getLast?.getD s.currentStep
  | [], _ => rfl
  | e :: events, s => by
    rw [List.foldl_cons, foldl_currentStep m events, logFrom, Log.entered_append,
      List.getLast?_append]
    cases ht : m.transition s e with
    | error refusal =>
      rw [after_of_error ht, notes_of_error ht]
      simp [Log.entered]
    | ok t =>
      rw [notes_entered ht, after_of_ok ht]
      rcases transition_currentStep ht with he | ⟨he, hc⟩
      · rw [he]
        cases (m.logFrom t.state events).entered.getLast? <;> rfl
      · rw [he, hc]
        simp

/-! ## What was asked for in a visit -/

/-- The effects of the last event of a run, or of the start if there is none. -/
def lastEffects (m : Machine) (metadata : Json.Fields) (events : List Event) : List Effect :=
  match events.getLast? with
  | none => (m.start metadata).effects
  | some e =>
    match m.transition (m.run metadata events.dropLast) e with
    | .ok t => t.effects
    | .error _ => []

/-- What the surroundings bring in for the visit that a run has come to: the end of the display time
that was begun there, the result of the action that was begun there, or choices that were loaded for
the state. -/
inductive Prompted (m : Machine) (metadata : Json.Fields) (events : List Event) : Event → Prop where
  | displayed (step : String) (epoch : Epoch)
      (begun : .scheduleAutoAdvance step epoch ∈ m.lastEffects metadata events) :
      Prompted m metadata events (.autoAdvance (some epoch))
  | settled (step : String) (invocation : Epoch) (action : Action) (result : ActionResult)
      (begun : .invokeAction step invocation action ∈ m.lastEffects metadata events) :
      Prompted m metadata events (.actionSettled invocation result)
  | loaded (choices : List Choice) :
      Prompted m metadata events (.optionsResolved (m.run metadata events).epoch choices)

theorem lastEffects_epoch {events : List Event} {x : Effect}
    (hx : x ∈ m.lastEffects metadata events) {i : Epoch} (hi : x.epoch? = some i) :
    i = (m.run metadata events).epoch := by
  rcases List.eq_nil_or_concat events with rfl | ⟨before, e, rfl⟩
  · exact (enter_enters m _ m.initial none).carried x hx i hi
  · rw [List.concat_eq_append] at hx ⊢
    rw [run_concat]
    simp only [lastEffects, List.getLast?_concat, List.dropLast_concat] at hx
    split at hx
    · next t ht =>
      rw [after_of_ok ht]
      exact (proceeds_of_transition ht).effect_epoch hx hi
    · cases hx

theorem Prompted.epoch? {events : List Event} {e : Event} (h : m.Prompted metadata events e) :
    e.epoch? = some (m.run metadata events).epoch := by
  cases h with
  | displayed step epoch begun => exact congrArg some (lastEffects_epoch begun rfl)
  | settled step invocation action result begun => exact congrArg some (lastEffects_epoch begun rfl)
  | loaded choices => rfl

/-- The choices were brought in, and accepted, in the visit that the run has come to, with an epoch
that the visit had. -/
def Loaded (m : Machine) (metadata : Json.Fields) (events : List Event) (choices : List Choice) :
    Prop :=
  ∃ before after t,
    events = before ++ .optionsResolved (m.run metadata before).epoch choices :: after ∧
    m.transition (m.run metadata before)
      (.optionsResolved (m.run metadata before).epoch choices) = .ok t ∧
    m.visit metadata before = m.visit metadata events

/-- What an event of the same visit finds loaded, it leaves loaded. -/
theorem Loaded.concat {events : List Event} {choices : List Choice}
    (h : m.Loaded metadata events choices) {e : Event}
    (hv : m.visit metadata (events ++ [e]) = m.visit metadata events) :
    m.Loaded metadata (events ++ [e]) choices := by
  obtain ⟨before, after, t, rfl, ht, hb⟩ := h
  exact ⟨before, after ++ [e], t, by simp, ht, hb.trans hv.symm⟩

theorem visit_concat (m : Machine) (metadata : Json.Fields) (events : List Event) (e : Event)
    (h : (m.notes (m.run metadata events) e).entered = []) :
    m.visit metadata (events ++ [e]) = m.visit metadata events := by
  rw [visit_append, logFrom, logFrom, List.append_nil, h]
  rfl

/-- The choices of a state were loaded in its own visit. -/
theorem run_loaded (m : Machine) (metadata : Json.Fields) (events : List Event)
    {choices : List Choice} (h : (m.run metadata events).resolvedOptions = some choices) :
    m.Loaded metadata events choices := by
  induction events using List.reverseRecOn with
  | nil =>
    rw [show (m.run metadata []).resolvedOptions = none from
      (enter_enters m _ m.initial none).unloaded] at h
    cases h
  | append_singleton events e ih =>
    rw [run_concat] at h
    cases ht : m.transition (m.run metadata events) e with
    | error refusal =>
      rw [after_of_error ht] at h
      exact (ih h).concat (visit_concat m metadata events e (by rw [notes_of_error ht]; rfl))
    | ok t =>
      rw [after_of_ok ht] at h
      have hvisit (he : t.log.entered = []) :
          m.visit metadata (events ++ [e]) = m.visit metadata events :=
        visit_concat m metadata events e (by rw [notes_entered ht, he])
      cases proceeds_of_transition ht with
      | enters target ht => rw [ht.unloaded] at h; cases h
      | retries entered epoch kept carried => exact (ih (by rw [← kept, h])).concat (hvisit entered)
      | stays other entered epoch kept carried =>
        rcases kept with kept | ⟨loaded, rfl, hl⟩
        · exact (ih (by rw [← kept, h])).concat (hvisit entered)
        · rw [hl] at h
          cases h
          exact ⟨events, [], t, rfl, ht, (hvisit entered).symm⟩

/-! ## Compiled documents -/

/-- In every run of a compiled document, what carries another epoch than the state's is refused as
stale. The epoch never falls, and it rises with every entry and every retry. So what was asked for
in one visit changes nothing in a later one, and the loaded choices are those of the visit. -/
theorem stale_events_inert (r : Registry) {d : FlowDocument} {m : Machine}
    (h : build r.kinds d = .ok m) (metadata : Json.Fields) {events : List Event}
    (fits : events.length < UInt64.size - 1) :
    let s := m.run metadata events
    (∀ e i, e.epoch? = some i → i ≠ s.epoch →
      ∃ refusal, m.transition s e = .error refusal ∧ refusal.isStale = true) ∧
    (∀ before e t, before ++ [e] <+: events → m.transition (m.run metadata before) e = .ok t →
      (m.run metadata before).epoch ≤ t.state.epoch ∧
      (t.log.entered ≠ [] ∨ e = .retry → (m.run metadata before).epoch < t.state.epoch)) ∧
    (∀ before e, before <+: events → m.visit metadata before < m.visit metadata events →
      m.Prompted metadata before e →
      (∃ refusal, m.transition s e = .error refusal ∧ refusal.isStale = true) ∧ m.after s e = s) ∧
    (∀ choices, s.resolvedOptions = some choices → m.Loaded metadata events choices) := by
  intro s
  obtain ⟨step, hc⟩ := run_coherent (build_closed h) metadata events
  have hstale (e : Event) (i : Epoch) (he : e.epoch? = some i) (hi : i ≠ s.epoch) :
      ∃ refusal, m.transition s e = .error refusal ∧ refusal.isStale = true :=
    transition_stale hc.current (fun i hp => (hc.pending i hp).1) he hi
  refine ⟨hstale, ?_, ?_, fun choices => run_loaded m metadata events⟩
  · intro before e t hp ht
    have hlength := hp.length_le
    have hbound := run_epoch_le m metadata before
    rw [List.length_append, List.length_singleton] at hlength
    exact (proceeds_of_transition ht).rises (by omega)
  · rintro before e ⟨after, rfl⟩ hv hprompted
    have hlt := epoch_lt_of_visit_lt fits hv
    obtain ⟨refusal, hr, hs⟩ := hstale e _ hprompted.epoch? fun he => by
      rw [← he] at hlt
      exact UInt64.lt_irrefl _ hlt
    exact ⟨⟨refusal, hr, hs⟩, after_of_error hr⟩

/-- A notice that is shown again and again. -/
def notices : FlowDocument where
  flow := { initialStep := some "notice", steps := [("notice", { nextStep := some "notice" })] }

/-- The notices, compiled. -/
def noticesMachine : Machine := .compiled Registry.empty.kinds notices "notice"

/-- The client goes on before the notice has been shown for its time: it is shown again, in a second
visit, and the end of the first display time does nothing there. -/
theorem stale_events_inert_notices :
    let skipped := [.autoAdvance none]
    let s := noticesMachine.run [] skipped
    build Registry.empty.kinds notices = .ok noticesMachine ∧ skipped.length < UInt64.size - 1 ∧
    s.currentStep = "notice" ∧
    noticesMachine.visit [] [] < noticesMachine.visit [] skipped ∧
    noticesMachine.Prompted [] [] (.autoAdvance (some 1)) ∧
    (∃ refusal, noticesMachine.transition s (.autoAdvance (some 1)) = .error refusal ∧
      refusal.isStale = true) ∧
    noticesMachine.after s (.autoAdvance (some 1)) = s := by
  intro skipped s
  have built : build Registry.empty.kinds notices = .ok noticesMachine := rfl
  have fits : skipped.length < UInt64.size - 1 := by decide
  have later : noticesMachine.visit [] [] < noticesMachine.visit [] skipped := by decide
  have displayed : noticesMachine.Prompted [] [] (.autoAdvance (some 1)) :=
    .displayed "notice" 1 (.tail _ (.head _))
  obtain ⟨-, -, inert, -⟩ := stale_events_inert Registry.empty built [] fits
  exact ⟨built, fits, rfl, later, displayed, inert [] _ List.nil_prefix later displayed⟩

end Machine

end Dialogue
