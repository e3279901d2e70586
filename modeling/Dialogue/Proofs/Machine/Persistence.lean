import Dialogue.Proofs.Json.Records
import Dialogue.Proofs.Machine.Visits

/-!
States that are written and read back.

What a state is written as decodes, and every part of it comes back as it was, with one exception:
the metadata of a choice are an optional value, so metadata that are there and `null` come back as
none (`State.decode_toJson`). A choice made of a raw item has such metadata exactly if the item has
a field `metadata` that is `null` and the transform picks no fields of its own
(`choiceOf_metadata_null`). So a state of a run is restored unless it holds such a choice
(`run_state_restored`), and there are runs that come to one (`run_state_not_restored`).

Priorities are signed 64-bit numbers. They are integers here, so `InRange` says that they fit; those
that are read from a document or an item do (`choiceOf_inRange`).
-/
namespace Dialogue

open Decode

/-! ## Conditions -/

namespace Condition

/-- The priority is a signed 64-bit number. -/
def InRange (c : Condition) : Prop := -signedLimit ≤ c.priority ∧ c.priority < signedLimit

theorem decode_toJson {c : Condition} (h : c.InRange) : decode c.toJson = .ok c := by
  have hpriority : int64 (.ofInt c.priority) = .ok c.priority := int64_ofInt h.1 h.2
  simp [decode, toJson, record, shaped, readFields, Draft.slots, slot, Slot.isNamed, hpriority,
    Except.map, bind, Except.bind]

/-- The priority of a draft is one from the start, and stays one. -/
theorem slots_inRange :
    Keep (fun d : Draft => -signedLimit ≤ d.priority ∧ d.priority < signedLimit) Draft.slots := by
  intro s hs v d d' hd h
  simp only [Draft.slots, List.mem_cons, List.not_mem_nil, or_false] at hs
  rcases hs with rfl | rfl | rfl
  · cases hv : string v <;> simp only [slot, hv, Except.map] at h <;> cases h
    exact hd
  · cases hv : string v <;> simp only [slot, hv, Except.map] at h <;> cases h
    exact hd
  · cases hv : int64 v <;> simp only [slot, hv, Except.map] at h <;> cases h
    exact int64_inRange hv

theorem inRange_of_decode {v : Json} {c : Condition} (h : decode v = .ok c) : c.InRange := by
  obtain ⟨d, hd, h⟩ := record_keeps slots_inRange (by decide) h
  obtain ⟨expression, -, h⟩ := exists_of_bind h
  obtain ⟨target, -, h⟩ := exists_of_bind h
  cases h
  exact hd

end Condition

/-! ## Choices -/

namespace Choice

/-- All priorities are signed 64-bit numbers. -/
def InRange (c : Choice) : Prop := ∀ e ∈ c.conditions, e.InRange

/-- What comes back of a choice: all of it, but for metadata that are `null`. -/
def restored (c : Choice) : Choice :=
  { c with metadata := c.metadata.filter fun v => !v.isNull }

theorem decode_toJson {c : Choice} (h : c.InRange) : decode c.toJson = .ok c.restored := by
  obtain ⟨value, label, nextStep, conditions, metadata⟩ := c
  have hconditions : list Condition.decode (.array (conditions.map Condition.toJson)) =
      .ok conditions := by
    have hread : list Condition.decode (.array (conditions.map Condition.toJson)) =
        .ok (conditions.map id) := list_map fun e he => Condition.decode_toJson (h e he)
    rwa [List.map_id] at hread
  -- The fields after the first are written only if they have a value.
  cases hempty : conditions.isEmpty <;> cases label <;> cases nextStep <;> cases metadata <;>
    simp_all [decode, toJson, record, shaped, readFields, Draft.slots, slot, Slot.isNamed,
      Except.map, bind, Except.bind, Json.field?, restored]

theorem restored_eq_iff (c : Choice) : c.restored = c ↔ c.metadata ≠ some .null := by
  obtain ⟨value, label, nextStep, conditions, metadata⟩ := c
  cases metadata with
  | none => simp [restored]
  | some v => cases v <;> simp [restored, Option.filter, Json.isNull]

end Choice

/-- The priorities of a choice that is made of an item were read from it. -/
theorem choiceOf_inRange (transform : Option Transform) (item : Json) :
    (Transform.choiceOf transform item).InRange := by
  intro e he
  cases hread : (item.get? "conditions").bind fun v =>
      (list Condition.decode v).toOption with
  | none => simp [Transform.choiceOf, hread] at he
  | some conditions =>
    simp only [Transform.choiceOf, hread, Option.getD_some] at he
    obtain ⟨v, -, hv⟩ := Option.bind_eq_some_iff.mp hread
    cases hlist : list Condition.decode v with
    | error problem =>
      rw [hlist] at hv
      cases hv
    | ok read =>
      rw [hlist] at hv
      cases hv
      obtain ⟨w, hw⟩ := exists_of_list hlist he
      exact Condition.inRange_of_decode hw

/-- A choice that is made of an item has metadata that are `null` exactly if the item has, and no
fields are picked instead. -/
theorem choiceOf_metadata_null (transform : Option Transform) (item : Json) :
    (Transform.choiceOf transform item).metadata = some .null ↔
      (transform.map Transform.metadataFields).getD [] = [] ∧
        item.get? "metadata" = some .null := by
  cases hpicked : (transform.map Transform.metadataFields).getD [] with
  | nil => simp [Transform.choiceOf, hpicked]
  | cons name names => simp [Transform.choiceOf, hpicked, pickFields]

/-! ## States -/

theorem Phase.decode_toJson (p : Phase) : decode p.toJson = .ok p := by
  cases p with
  | ready => rfl
  | completed => rfl
  | actionPending invocation =>
    have hinvocation := nat64_ofNat invocation.toNat_lt
    simp [decode, toJson, tagged, splitTag, variantNamed, decodePending, shaped, readFields, slot,
      Slot.isNamed, hinvocation, Except.map, bind, Except.bind, List.lookup_cons]
  | actionFailed error retryable =>
    simp [decode, toJson, tagged, splitTag, variantNamed, decodeFailed, shaped, readFields, slot,
      Slot.isNamed, Except.map, bind, Except.bind, List.lookup_cons]

theorem Context.decode_toJson (c : Context) : decode c.toJson = .ok c := by
  simp [decode, toJson, record, shaped, readFields, slot, Slot.isNamed, Except.map, bind,
    Except.bind]

namespace State

/-- All priorities of the choices that are held are signed 64-bit numbers. -/
def InRange (s : State) : Prop :=
  ∀ choices, s.resolvedOptions = some choices → ∀ c ∈ choices, c.InRange

/-- What comes back of a state. -/
def restored (s : State) : State :=
  { s with resolvedOptions := s.resolvedOptions.map (List.map Choice.restored) }

/-- A state that is written and read back. -/
theorem decode_toJson {s : State} (h : s.InRange) : decode s.toJson = .ok s.restored := by
  obtain ⟨context, phase, epoch, held⟩ := s
  have hepoch := nat64_ofNat epoch.toNat_lt
  cases held with
  | none =>
    simp [decode, toJson, record, shaped, readFields, slot, Slot.isNamed, Except.map, bind,
      Except.bind, Json.field?, hepoch, Context.decode_toJson, Phase.decode_toJson, restored]
  | some choices =>
    have hchoices : option (list Choice.decode) (.array (choices.map Choice.toJson)) =
        .ok (some (choices.map Choice.restored)) := by
      have hread := list_map fun c hc => Choice.decode_toJson (h choices rfl c hc)
      simp only [option, hread, Except.map]
    simp [decode, toJson, record, shaped, readFields, slot, Slot.isNamed, Except.map, bind,
      Except.bind, Json.field?, hepoch, Context.decode_toJson, Phase.decode_toJson, restored,
      hchoices]

theorem restored_eq_iff (s : State) : s.restored = s ↔
    ∀ choices, s.resolvedOptions = some choices → ∀ c ∈ choices, c.metadata ≠ some .null := by
  obtain ⟨context, phase, epoch, held⟩ := s
  cases held with
  | none => simp [restored]
  | some choices =>
    have hmap : choices.map Choice.restored = choices ↔ ∀ c ∈ choices, c.restored = c := by
      conv_lhs => rhs; rw [← List.map_id choices]
      exact List.map_inj_left
    simp [restored, hmap, Choice.restored_eq_iff]

end State

namespace Machine

/-! ## Runs -/

/-- The choices that a run holds were brought in by one of its events. -/
theorem run_inRange (m : Machine) (metadata : Json.Fields) {events : List Event}
    (inRange : ∀ epoch choices, Event.optionsResolved epoch choices ∈ events →
      ∀ c ∈ choices, c.InRange) : (m.run metadata events).InRange := by
  intro choices held
  obtain ⟨before, after, t, hevents, -⟩ := run_loaded m metadata events held
  refine inRange (m.run metadata before).epoch choices ?_
  rw [hevents]
  exact List.mem_append_right _ List.mem_cons_self

/-- Every state of every run decodes from what it is written as, to what comes back of it. That is
the state itself exactly if it holds no choice whose metadata are `null`, and an item becomes such a
choice exactly if its own metadata are and no fields are picked. -/
theorem run_state_restored (m : Machine) (metadata : Json.Fields) {events : List Event}
    (inRange : ∀ epoch choices, Event.optionsResolved epoch choices ∈ events →
      ∀ c ∈ choices, c.InRange) :
    let s := m.run metadata events
    State.decode s.toJson = .ok s.restored ∧
    (State.decode s.toJson = .ok s ↔
      ∀ choices, s.resolvedOptions = some choices → ∀ c ∈ choices, c.metadata ≠ some .null) ∧
    (∀ transform item, (Transform.choiceOf transform item).InRange ∧
      ((Transform.choiceOf transform item).metadata = some .null ↔
        (transform.map Transform.metadataFields).getD [] = [] ∧
          item.get? "metadata" = some .null)) := by
  intro s
  have hdecode : State.decode s.toJson = .ok s.restored :=
    State.decode_toJson (run_inRange m metadata inRange)
  refine ⟨hdecode, ?_, fun transform item =>
    ⟨choiceOf_inRange transform item, choiceOf_metadata_null transform item⟩⟩
  rw [hdecode, Except.ok.injEq]
  exact s.restored_eq_iff

/-- A question for a slot, which an endpoint offers. -/
def timetable : FlowDocument where
  flow := {
    initialStep := some "slot"
    steps := [
      ("slot", {
        dynamicOptions := some { source := .api "/slots" "GET" [] none none }
        nextStep := some "booked" }),
      ("booked", { isTerminal := true })] }

/-- The question, compiled. -/
def timetableMachine : Machine := .compiled Registry.empty.kinds timetable "slot"

/-- The choice of the morning, made of an item with these metadata. -/
def morning (metadata : Json) : Choice :=
  Transform.choiceOf none (.object [("value", .string "morning"), ("metadata", metadata)])

/-- A slot with a room comes back with it. -/
theorem run_state_restored_room :
    let room : Json := .object [("room", .ofNat 2)]
    let s := timetableMachine.run [] [.optionsResolved 1 [morning room]]
    build Registry.empty.kinds timetable = .ok timetableMachine ∧ (morning room).InRange ∧
    s.resolvedOptions = some [morning room] ∧ State.decode s.toJson = .ok s := by
  intro room s
  have inRange : ∀ epoch choices,
      Event.optionsResolved epoch choices ∈ [Event.optionsResolved 1 [morning room]] →
      ∀ c ∈ choices, c.InRange := by
    intro epoch choices h c hc
    cases List.mem_singleton.mp h
    rw [List.mem_singleton.mp hc]
    exact choiceOf_inRange none _
  obtain ⟨-, hrestored, hitems⟩ := run_state_restored timetableMachine [] inRange
  refine ⟨rfl, (hitems none _).1, rfl, hrestored.mpr ?_⟩
  intro choices held c hc
  have hheld : s.resolvedOptions = some [morning room] := rfl
  cases hheld.symm.trans held
  rw [List.mem_singleton.mp hc]
  intro hnull
  have hroom : (morning room).metadata = some room := rfl
  exact Json.noConfusion (Option.some.inj (hroom.symm.trans hnull))

/-- A slot whose item says `null` for its metadata comes back with none. -/
theorem run_state_not_restored :
    let s := timetableMachine.run [] [.optionsResolved 1 [morning .null]]
    build Registry.empty.kinds timetable = .ok timetableMachine ∧
    s.resolvedOptions = some [morning .null] ∧ (morning .null).metadata = some .null ∧
    ∃ s', State.decode s.toJson = .ok s' ∧ s' ≠ s := by
  intro s
  have hheld : s.resolvedOptions = some [morning .null] := rfl
  have inRange : s.InRange := by
    intro choices held c hc
    cases hheld.symm.trans held
    rw [List.mem_singleton.mp hc]
    exact choiceOf_inRange none _
  refine ⟨rfl, hheld, rfl, s.restored, State.decode_toJson inRange, ?_⟩
  intro hsame
  exact s.restored_eq_iff.mp hsame _ hheld _ (List.mem_singleton_self _) rfl

end Machine

end Dialogue
