import Dialogue.Proofs.Machine.Coherence

/-!
The ledger of actions.

A run is read as a log of its effects and of the settlements that it accepted. `Log.Balanced` says
of a log alone that it keeps the books: an invocation is noted when none is outstanding and with a
number above all before it, and a settlement or a cancellation is of the one that is outstanding.
Whatever can be said about the whole log follows from that by induction on it. That the log of a run
is balanced, with the running action as the one outstanding, is kept by every transition
(`accepts_ledger`), as long as the epoch does not wrap.
-/
namespace Dialogue

/-! ## Logs -/

/-- A line of a log. -/
inductive Note where
  | effect (e : Effect)
  /-- A settlement of the invocation was accepted. -/
  | settled (invocation : Epoch)

namespace Note

/-- The invocation that is begun. -/
def invoked? : Note → Option Epoch
  | .effect (.invokeAction _ invocation _) => some invocation
  | _ => none

/-- The invocation that is settled or cancelled. -/
def closed? : Note → Option Epoch
  | .effect (.cancelAction invocation) => some invocation
  | .settled invocation => some invocation
  | _ => none

end Note

/-- The notes of a run in their order. -/
abbrev Log := List Note

namespace Log

/-- The invocations that were begun. -/
def invoked (log : Log) : List Epoch := log.filterMap Note.invoked?

/-- The invocations that were settled or cancelled, as often as they were. -/
def closed (log : Log) : List Epoch := log.filterMap Note.closed?

/-- An invocation was begun, and neither settled nor cancelled. -/
def Outstanding (log : Log) (i : Epoch) : Prop := i ∈ log.invoked ∧ i ∉ log.closed

/-- The log keeps the books, and ends with this invocation outstanding. -/
inductive Balanced : Log → Option Epoch → Prop where
  | nil : Balanced [] none
  | invoked {log : Log} {note : Note} {i : Epoch} (before : Balanced log none)
      (invokes : note.invoked? = some i) (rises : ∀ j ∈ log.invoked, j < i) :
      Balanced (log ++ [note]) (some i)
  | closed {log : Log} {note : Note} {i : Epoch} (before : Balanced log (some i))
      (closes : note.closed? = some i) : Balanced (log ++ [note]) none
  | passed {log : Log} {note : Note} {current : Option Epoch} (before : Balanced log current)
      (invokes : note.invoked? = none) (closes : note.closed? = none) :
      Balanced (log ++ [note]) current

variable {log : Log} {note : Note} {current : Option Epoch} {i : Epoch}

theorem closed?_of_invoked? (h : note.invoked? = some i) : note.closed? = none := by
  unfold Note.invoked? at h
  split at h
  · rfl
  · cases h

theorem invoked?_of_closed? (h : note.closed? = some i) : note.invoked? = none := by
  cases hn : note.invoked? with
  | none => rfl
  | some j => rw [closed?_of_invoked? hn] at h; cases h

theorem invoked_append (log : Log) (note : Note) :
    invoked (log ++ [note]) = log.invoked ++ note.invoked?.toList := by
  rw [invoked, List.filterMap_append]
  cases h : note.invoked? <;> simp [invoked, h]

theorem closed_append (log : Log) (note : Note) :
    closed (log ++ [note]) = log.closed ++ note.closed?.toList := by
  rw [closed, List.filterMap_append]
  cases h : note.closed? <;> simp [closed, h]

/-- A note within a longer log is the last one or stands before it. -/
theorem append_split {last : Note} {before after : Log}
    (h : log ++ [last] = before ++ note :: after) :
    (log = before ∧ last = note) ∨ ∃ after, log = before ++ note :: after := by
  rcases List.eq_nil_or_concat after with rfl | ⟨after, x, rfl⟩
  · obtain ⟨hl, hx⟩ := List.append_inj' h rfl
    exact .inl ⟨hl, List.singleton_inj.1 hx⟩
  · rw [List.concat_eq_append, ← List.cons_append, ← List.append_assoc] at h
    exact .inr ⟨after, (List.append_inj' h rfl).1⟩

namespace Balanced

/-- Only what was begun is settled or cancelled. -/
theorem closed_subset (h : Balanced log current) :
    (∀ i, current = some i → i ∈ log.invoked) ∧ ∀ i ∈ log.closed, i ∈ log.invoked := by
  induction h with
  | nil => simp [Log.closed]
  | @invoked log note i before invokes rises ih =>
    rw [invoked_append, closed_append, invokes, closed?_of_invoked? invokes]
    refine ⟨fun j hj => ?_, fun j hj => ?_⟩
    · cases hj; simp
    · simp only [Option.toList_none, List.append_nil] at hj
      exact List.mem_append_left _ (ih.2 j hj)
  | @closed log note i before closes ih =>
    rw [invoked_append, closed_append, closes, invoked?_of_closed? closes]
    simp only [Option.toList_none, List.append_nil, Option.toList_some, List.mem_append,
      List.mem_singleton]
    refine ⟨fun j hj => absurd hj (by simp), fun j hj => ?_⟩
    rcases hj with hj | rfl
    · exact ih.2 j hj
    · exact ih.1 j rfl
  | passed before invokes closes ih =>
    rw [invoked_append, closed_append, invokes, closes]
    simpa using ih

/-- What is outstanding is the one invocation at the end. -/
theorem outstanding_iff (h : Balanced log current) (k : Epoch) :
    log.Outstanding k ↔ current = some k := by
  induction h generalizing k with
  | nil => simp [Outstanding, Log.invoked]
  | @invoked log note i before invokes rises ih =>
    rw [Outstanding, invoked_append, closed_append, invokes, closed?_of_invoked? invokes]
    simp only [Option.toList_some, Option.toList_none, List.append_nil, List.mem_append,
      List.mem_singleton, Option.some.injEq]
    constructor
    · rintro ⟨hk | rfl, hc⟩
      · exact absurd ((ih k).1 ⟨hk, hc⟩) (by simp)
      · rfl
    · rintro rfl
      -- A number above all before it has not been closed yet.
      refine ⟨.inr rfl, fun hc => ?_⟩
      exact absurd (rises i (before.closed_subset.2 i hc)) (UInt64.lt_irrefl i)
  | @closed log note i before closes ih =>
    rw [Outstanding, invoked_append, closed_append, closes, invoked?_of_closed? closes]
    simp only [Option.toList_some, Option.toList_none, List.append_nil, List.mem_append,
      List.mem_singleton, not_or, reduceCtorEq, iff_false]
    rintro ⟨hk, hc, hne⟩
    exact hne (Option.some.inj ((ih k).1 ⟨hk, hc⟩)).symm
  | passed before invokes closes ih =>
    rw [Outstanding, invoked_append, closed_append, invokes, closes]
    simpa [Outstanding] using ih k

/-- The numbers of the invocations rise. -/
theorem invoked_rising (h : Balanced log current) : log.invoked.Pairwise (· < ·) := by
  induction h with
  | nil => exact .nil
  | invoked before invokes rises ih =>
    rw [invoked_append, invokes, Option.toList_some]
    refine List.pairwise_append.2 ⟨ih, List.pairwise_singleton _ _, fun j hj k hk => ?_⟩
    rw [List.mem_singleton.1 hk]
    exact rises j hj
  | closed before closes ih =>
    rw [invoked_append, invoked?_of_closed? closes]
    simpa using ih
  | passed before invokes closes ih =>
    rw [invoked_append, invokes]
    simpa using ih

/-- Nothing is settled or cancelled twice, nor both. -/
theorem closed_nodup (h : Balanced log current) : log.closed.Nodup := by
  induction h with
  | nil => exact .nil
  | invoked before invokes rises ih =>
    rw [closed_append, closed?_of_invoked? invokes]
    simpa using ih
  | @closed log note i before closes ih =>
    have hopen := (before.outstanding_iff i).2 rfl
    rw [closed_append, closes, Option.toList_some]
    refine List.nodup_append.2 ⟨ih, List.pairwise_singleton _ _, fun j hj k hk => ?_⟩
    rw [List.mem_singleton.1 hk]
    rintro rfl
    exact hopen.2 hj
  | passed before invokes closes ih =>
    rw [closed_append, closes]
    simpa using ih

/-- What is settled or cancelled is outstanding at that moment. -/
theorem outstanding_before (h : Balanced log current) {before after : Log}
    (hl : log = before ++ note :: after) (hn : note.closed? = some i) : before.Outstanding i := by
  induction h generalizing after with
  | nil => simp at hl
  | invoked balanced invokes rises ih =>
    rcases append_split hl with ⟨rfl, rfl⟩ | ⟨after, hl⟩
    · rw [closed?_of_invoked? invokes] at hn; cases hn
    · exact ih hl
  | closed balanced closes ih =>
    rcases append_split hl with ⟨rfl, rfl⟩ | ⟨after, hl⟩
    · rw [closes] at hn
      exact (balanced.outstanding_iff i).2 hn
    · exact ih hl
  | passed balanced invokes closes ih =>
    rcases append_split hl with ⟨rfl, rfl⟩ | ⟨after, hl⟩
    · rw [closes] at hn; cases hn
    · exact ih hl

end Balanced

end Log

/-! ## The log of a run -/

/-- The invocation that is running. -/
def Phase.invocation? : Phase → Option Epoch
  | .actionPending invocation => some invocation
  | _ => none

theorem Phase.invocation?_eq_some {p : Phase} {i : Epoch} :
    p.invocation? = some i ↔ p = .actionPending i := by
  cases p <;> simp [invocation?]

/-- The note that an accepted settlement leaves. -/
def Event.settlement : Event → Log
  | .actionSettled invocation _ => [.settled invocation]
  | _ => []

/-- The effects of a transition as notes. -/
def Transition.log (t : Transition) : Log := t.effects.map .effect

namespace Machine

/-- What an event adds to the log, which is nothing if it is refused. -/
def notes (m : Machine) (s : State) (e : Event) : Log :=
  match m.transition s e with
  | .ok t => e.settlement ++ t.log
  | .error _ => []

/-- What events add to the log, one after another. -/
def logFrom (m : Machine) : State → List Event → Log
  | _, [] => []
  | s, e :: events => m.notes s e ++ m.logFrom (m.after s e) events

/-- The log of a run. -/
def log (m : Machine) (metadata : Json.Fields) (events : List Event) : Log :=
  (m.start metadata).log ++ m.logFrom (m.start metadata).state events

end Machine

/-! ## Keeping the ledger -/

/-- The log keeps the books up to the state: what is outstanding is what is running, and no
invocation has a number above the epoch. -/
structure Ledger (log : Log) (s : State) : Prop where
  balanced : log.Balanced s.phase.invocation?
  bounded : ∀ i ∈ log.invoked, i ≤ s.epoch

/-- The ledger does not look at the rest of the state, and the epoch may grow. -/
theorem Ledger.mono {log : Log} {s s' : State} (h : Ledger log s)
    (hp : s'.phase.invocation? = s.phase.invocation?) (he : s.epoch ≤ s'.epoch) :
    Ledger log s' :=
  ⟨by rw [hp]; exact h.balanced, fun i hi => UInt64.le_trans (h.bounded i hi) he⟩

/-- A note that concerns no invocation. -/
theorem Ledger.pass {log : Log} {s : State} {note : Note} (h : Ledger log s)
    (hi : note.invoked? = none) (hc : note.closed? = none) : Ledger (log ++ [note]) s := by
  refine ⟨.passed h.balanced hi hc, fun i hm => h.bounded i ?_⟩
  rw [Log.invoked_append, hi] at hm
  simpa using hm

/-- The settlement or cancellation of the running action leaves none outstanding. -/
theorem Ledger.close {log : Log} {s s' : State} {note : Note} {i : Epoch} (h : Ledger log s)
    (running : s.phase.invocation? = some i) (hc : note.closed? = some i)
    (hp : s'.phase.invocation? = none) (he : s'.epoch = s.epoch) : Ledger (log ++ [note]) s' := by
  have hb := h.balanced
  rw [running] at hb
  refine ⟨?_, fun j hj => ?_⟩
  · rw [hp]; exact .closed hb hc
  · rw [Log.invoked_append, Log.invoked?_of_closed? hc] at hj
    rw [he]
    exact h.bounded j (by simpa using hj)

/-- The next epoch is above all up to this one, if it does not wrap. -/
theorem Epoch.lt_next {i e : Epoch} (fits : e.toNat + 1 < UInt64.size) (h : i ≤ e) : i < e + 1 := by
  rw [UInt64.le_iff_toNat_le] at h
  have hn : (e + 1).toNat = e.toNat + 1 := by
    rw [UInt64.toNat_add, UInt64.toNat_one]
    exact Nat.mod_eq_of_lt fits
  rw [UInt64.lt_iff_toNat_lt, hn]
  omega

/-- The beginning of an invocation with the next epoch, when none is outstanding. -/
theorem Ledger.invoke {log : Log} {s s' : State} (h : Ledger log s)
    (hn : s.phase.invocation? = none) (fits : s.epoch.toNat + 1 < UInt64.size) (step : String)
    (action : Action) (hp : s'.phase = .actionPending (s.epoch + 1))
    (he : s'.epoch = s.epoch + 1) :
    Ledger (log ++ [.effect (.invokeAction step (s.epoch + 1) action)]) s' := by
  have hb := h.balanced
  rw [hn] at hb
  refine ⟨?_, fun j hj => ?_⟩
  · rw [hp]
    exact .invoked hb rfl fun j hj => Epoch.lt_next fits (h.bounded j hj)
  · rw [Log.invoked_append] at hj
    rw [he]
    rcases List.mem_append.1 hj with hj | hj
    · exact UInt64.le_of_lt (Epoch.lt_next fits (h.bounded j hj))
    · simp only [Note.invoked?, Option.toList_some, List.mem_singleton] at hj
      rw [hj]
      exact UInt64.le_refl _

namespace Machine

variable {m : Machine} {step : Step} {s : State} {log : Log}

theorem epoch_le_next (fits : s.epoch.toNat + 1 < UInt64.size) : s.epoch ≤ s.epoch + 1 :=
  UInt64.le_of_lt (Epoch.lt_next fits (UInt64.le_refl _))

theorem enter_ledger (h : Ledger log s) (hn : s.phase.invocation? = none)
    (fits : s.epoch.toNat + 1 < UInt64.size) (target : String) (previous : Option String) :
    Ledger (log ++ (m.enter s target previous).log) (m.enter s target previous).state := by
  have hentered : Ledger (log ++ [.effect (.stepEntered target previous)]) s := h.pass rfl rfl
  cases hs : m.step? target with
  | none =>
    -- Compiled flows never lead here; the ledger does not depend on that.
    simp only [enter, hs, Option.map_none, Option.getD_none, Transition.log]
    exact hentered.mono hn.symm (epoch_le_next fits)
  | some step =>
    rw [enter_eq hs, Transition.log, List.map_cons, List.append_cons]
    rcases onEntry_cases step (s.epoch + 1) with ⟨ht, he⟩ | ⟨action, ht, ha, he⟩ | ⟨ht, ha, he⟩
    · rw [he]
      exact (hentered.pass rfl rfl).mono hn.symm (epoch_le_next fits)
    · rw [he]
      exact hentered.invoke hn fits step.id action rfl rfl
    · rw [he]
      cases step.autoAdvance with
      | none =>
        rw [Option.isSome_none, if_neg Bool.false_ne_true, List.map_nil, List.append_nil]
        exact hentered.mono hn.symm (epoch_le_next fits)
      | some id => exact (hentered.pass rfl rfl).mono hn.symm (epoch_le_next fits)

theorem moveTo_epoch (m : Machine) (s : State) (target : String) :
    (m.moveTo s target).state.epoch = s.epoch + 1 := rfl

/-- Leaving a step cancels the running action, and then enters the other step. -/
theorem moveTo_log (m : Machine) (s : State) (target : String) :
    (m.moveTo s target).log =
      s.phase.invocation?.toList.map (fun i => .effect (.cancelAction i)) ++
        (m.enter s target (some s.currentStep)).log := by
  unfold moveTo Transition.log
  cases s.phase <;> rfl

theorem moveTo_ledger (h : Ledger log s) (fits : s.epoch.toNat + 1 < UInt64.size)
    (target : String) :
    Ledger (log ++ (m.moveTo s target).log) (m.moveTo s target).state := by
  rw [moveTo_log]
  cases hi : s.phase.invocation? with
  | none => exact enter_ledger h hi fits target _
  | some i =>
    have hcancelled : Ledger (log ++ [.effect (.cancelAction i)]) { s with phase := .ready } :=
      h.close hi rfl rfl rfl
    rw [Option.toList_some, List.map_singleton, ← List.append_assoc]
    exact enter_ledger hcancelled rfl fits target _

/-- A state that is left for another one may hold other answers and outputs by then. -/
theorem moveTo_ledger_of {s' : State} (h : Ledger log s) (fits : s.epoch.toNat + 1 < UInt64.size)
    (hp : s'.phase.invocation? = s.phase.invocation?) (he : s'.epoch = s.epoch)
    (target : String) : Ledger (log ++ (m.moveTo s' target).log) (m.moveTo s' target).state :=
  moveTo_ledger (h.mono hp (by rw [he]; exact UInt64.le_refl _)) (by rw [he]; exact fits) target

theorem accepts_ledger (h : Ledger log s) (fits : s.epoch.toNat + 1 < UInt64.size) {e : Event}
    {t : Transition} (ha : Accepts m step s e t) :
    Ledger (log ++ (e.settlement ++ t.log)) t.state := by
  cases ha with
  | answered value answered id waits named leads =>
    exact moveTo_ledger_of h fits (by rfl) (by rfl) id
  | advanced epoch id current ready leads => exact moveTo_ledger h fits id
  | completed value id going awaits leads =>
    exact moveTo_ledger_of h fits (by simp) (by simp) id
  | retried error retryable action failed runs =>
    exact h.invoke (by rw [failed]; rfl) fits step.id action rfl rfl
  | failed i result running failure =>
    have hi : s.phase.invocation? = some i := by rw [running]; rfl
    have hsettled : Ledger (log ++ [.settled i]) (s.failed step.id result) :=
      h.close hi rfl rfl rfl
    rw [← List.append_assoc]
    exact hsettled.pass rfl rfl
  | held i result running success stays =>
    have hi : s.phase.invocation? = some i := by rw [running]; rfl
    exact h.close hi rfl rfl rfl
  | settled i result id running success leads =>
    have hi : s.phase.invocation? = some i := by rw [running]; rfl
    -- The settlement is noted first, so leaving the step finds nothing to cancel.
    have hsettled : Ledger (log ++ [.settled i]) (s.succeeded step.id result.output) :=
      h.close hi rfl rfl rfl
    rw [← List.append_assoc]
    exact moveTo_ledger_of hsettled fits (by simp) (by simp) id
  | loaded choices going =>
    have hloaded : Ledger log { s with resolvedOptions := some choices } :=
      h.mono rfl (UInt64.le_refl _)
    simpa [Event.settlement, Transition.log] using hloaded

theorem notes_of_error {e : Event} {refusal : TransitionError}
    (h : m.transition s e = .error refusal) : m.notes s e = [] := by
  rw [notes, h]

theorem notes_ledger (h : Ledger log s) (fits : s.epoch.toNat + 1 < UInt64.size) (e : Event) :
    Ledger (log ++ m.notes s e) (m.after s e) := by
  cases ht : m.transition s e with
  | ok t =>
    obtain ⟨step, -, ha⟩ := accepts_of_transition ht
    rw [after_of_ok ht, notes, ht]
    exact accepts_ledger h fits ha
  | error refusal =>
    rw [after_of_error ht, notes_of_error ht, List.append_nil]
    exact h

theorem accepts_epoch {e : Event} {t : Transition} (ha : Accepts m step s e t) :
    t.state.epoch = s.epoch ∨ t.state.epoch = s.epoch + 1 := by
  cases ha with
  | answered value answered id waits named leads => exact .inr rfl
  | advanced epoch id current ready leads => exact .inr rfl
  | completed value id going awaits leads => exact .inr (by simp [moveTo_epoch])
  | retried error retryable action failed runs => exact .inr rfl
  | failed i result running failure => exact .inl rfl
  | held i result running success stays => exact .inl rfl
  | settled i result id running success leads => exact .inr (by simp [moveTo_epoch])
  | loaded choices going => exact .inl rfl

/-- An event raises the epoch by at most one. -/
theorem after_epoch_le (m : Machine) (s : State) (e : Event) :
    (m.after s e).epoch.toNat ≤ s.epoch.toNat + 1 := by
  cases ht : m.transition s e with
  | error refusal => rw [after_of_error ht]; exact Nat.le_succ _
  | ok t =>
    obtain ⟨step, -, ha⟩ := accepts_of_transition ht
    rw [after_of_ok ht]
    rcases accepts_epoch ha with he | he
    · rw [he]; exact Nat.le_succ _
    · rw [he, UInt64.toNat_add]; exact Nat.mod_le _ _

theorem logFrom_ledger : ∀ (events : List Event) {log : Log} {s : State}, Ledger log s →
    s.epoch.toNat + events.length < UInt64.size →
    Ledger (log ++ m.logFrom s events) (events.foldl m.after s)
  | [], log, s, h, _ => by rw [logFrom, List.append_nil]; exact h
  | e :: events, log, s, h, fits => by
    rw [List.length_cons] at fits
    -- Each event that is taken raises the epoch by at most one, so the sum does not grow.
    have hnext := notes_ledger (m := m) h (by omega) e
    have hgrows := after_epoch_le m s e
    rw [logFrom, ← List.append_assoc, List.foldl_cons]
    exact logFrom_ledger events hnext (by omega)

/-- The log of a run keeps the books up to its last state. -/
theorem run_ledger (m : Machine) (metadata : Json.Fields) {events : List Event}
    (fits : events.length < UInt64.size - 1) :
    Ledger (m.log metadata events) (m.run metadata events) := by
  -- The start enters the first step from epoch 0, before anything is noted.
  have hnil (context : Context) : Ledger [] { context } := ⟨.nil, by simp [Log.invoked]⟩
  have hstart : Ledger (m.start metadata).log (m.start metadata).state :=
    enter_ledger (m := m) (hnil _) rfl (by simp [UInt64.size]) m.initial none
  have hepoch : (m.start metadata).state.epoch = 1 := rfl
  refine logFrom_ledger events hstart ?_
  rw [hepoch, UInt64.toNat_one]
  omega

/-- In the log of a run the numbers of the invocations rise, what is outstanding at the end is the
action that is running there, and each invocation is settled or cancelled once at most and while it
is outstanding. -/
theorem log_ledger (m : Machine) (metadata : Json.Fields) {events : List Event}
    (fits : events.length < UInt64.size - 1) :
    let log := m.log metadata events
    log.invoked.Pairwise (· < ·) ∧
    (∀ i, log.Outstanding i ↔ (m.run metadata events).phase = .actionPending i) ∧
    (∀ i note (before after : Log), log = before ++ note :: after → note.closed? = some i →
      before.Outstanding i) ∧
    log.closed.Nodup := by
  intro log
  have h := (run_ledger m metadata fits).balanced
  refine ⟨h.invoked_rising, fun i => ?_, fun i note before after hl hn => ?_, h.closed_nodup⟩
  · rw [h.outstanding_iff i, Phase.invocation?_eq_some]
  · exact h.outstanding_before hl hn

/-- A payment that is declined, tried again and then passed over: two invocations, the first
settled and the second cancelled. -/
theorem log_ledger_payment : ∃ m, build Registry.empty.kinds payment = .ok m ∧
    let events := [.actionSettled 1 declined, .retry, .toolComplete none]
    events.length < UInt64.size - 1 ∧
    (m.log [] events).invoked = [1, 2] ∧ (m.log [] events).closed = [1, 2] ∧
    (∀ i, (m.log [] events).Outstanding i ↔ (m.run [] events).phase = .actionPending i) :=
  ⟨_, rfl, by decide, rfl, rfl, (log_ledger _ [] (by decide)).2.1⟩

end Machine

end Dialogue
