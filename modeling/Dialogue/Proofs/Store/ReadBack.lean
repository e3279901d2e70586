import Dialogue.Action.Storage
import Dialogue.Proofs.Store.Backends
import Dialogue.Proofs.Template
import Dialogue.Work.Host

/-!
Reading back what was written.

An operation that does not touch a key leaves what the store has there (`applyAll_untouched`), so a
look-up reads the text that the last operation on the key wrote. A `storage` action writes the text
of its filled-in value, however deep that nests, and reads texts that nest 127 levels at most. So it
reads back what it wrote exactly up to that depth (`set_then_get`). A value and a scope that nest
less can make a value that nests more, which is written and then refused (`set_then_get_refused`).
-/
namespace Dialogue

/-- Whether an operation may change what a store has under a key. -/
def StoreOp.touches (backend : StoreBackend) (key : String) : StoreOp → Bool
  | .get _ => false
  | .set k _ => k = key
  | .remove k => k = key
  | .clear => true
  | .clearPrefix start => Store.covers backend key start

namespace Store

theorem apply_untouched {s : Store} {op : StoreOp} {key : String}
    (h : op.touches s.backend key = false) :
    (s.apply op).2.entries.get? key = s.entries.get? key := by
  cases op with
  | get k => rfl
  | set k v =>
    have hk : k ≠ key := of_decide_eq_false h
    show (s.entries.set k v.text).get? key = _
    rw [Entries.get?_set, if_neg (Ne.symm hk)]
  | remove k =>
    have hk : k ≠ key := of_decide_eq_false h
    have hfilter := Entries.get?_filter s.entries (· ≠ k) key
    rw [if_pos (by simp [Ne.symm hk])] at hfilter
    exact hfilter
  | clear => cases h
  | clearPrefix start =>
    have hcovers : covers s.backend key start = false := h
    have hfilter := Entries.get?_filter s.entries (fun k => !covers s.backend k start) key
    rw [if_pos (by simp [hcovers])] at hfilter
    exact hfilter

theorem applyAll_untouched {ops : List StoreOp} {key : String} {s : Store}
    (h : ∀ op ∈ ops, op.touches s.backend key = false) :
    (s.applyAll ops).entries.get? key = s.entries.get? key := by
  induction ops generalizing s with
  | nil => rfl
  | cons op ops ih =>
    have hrest : ∀ other ∈ ops, other.touches (s.apply op).2.backend key = false := by
      intro other hother
      rw [apply_backend]
      exact h other (by simp [hother])
    calc (s.applyAll (op :: ops)).entries.get? key
      _ = (s.apply op).2.entries.get? key := ih hrest
      _ = s.entries.get? key := apply_untouched (h op (by simp))

/-- What other owners do touches no key of an owner. -/
theorem touches_within_other {a b : String} (hab : a ≠ b) (backend : StoreBackend) (op : StoreOp)
    (key : String) : (op.within b).touches backend (ownerMark a ++ key) = false := by
  have hkey (k : String) : ownerMark b ++ k ≠ ownerMark a ++ key :=
    fun h => hab (mark_append_inj h).1.symm
  have hmemory (start : String) :
      covers .memory (ownerMark a ++ key) (ownerMark b ++ start) = false := by
    rw [covers_memory, decide_eq_false_iff_not]
    intro h
    exact hab (eq_of_marks_comparable h)
  have hcovers (start : String) :
      covers backend (ownerMark a ++ key) (ownerMark b ++ start) = false := by
    cases backend with
    | memory => exact hmemory start
    | sql => rw [covers_sql, hmemory, Bool.and_false]
  cases op with
  | get k => rfl
  | set k v => exact decide_eq_false (hkey k)
  | remove k => exact decide_eq_false (hkey k)
  | clear =>
    have hmark := hcovers ""
    rw [String.append_empty] at hmark
    exact hmark
  | clearPrefix start => exact hcovers start

/-- What a key gives that has the text of a legible value. -/
theorem get?_text {s : Store} {key : String} {v : Json} (hv : v.Legible)
    (h : s.entries.get? key = some v.text) :
    (v.depth ≤ Json.depthLimit → s.get? key = .ok (some v)) ∧
    (Json.depthLimit < v.depth →
      ∃ column, s.get? key = .error (.corrupt (.tooDeep column))) := by
  constructor
  · intro hdepth
    simp only [get?, h, Json.read_text hv hdepth]
  · intro hdepth
    obtain ⟨column, hread⟩ := Json.read_text_deep hv hdepth
    exact ⟨column, by simp only [get?, h, hread]⟩

end Store

namespace Stores

/-- The store that a scope reaches. -/
def reached (s : Stores) : StoreScope → Store
  | .session => s.own
  | .durable => s.shared

/-- Where a key of the conversation is in the store that a scope reaches. -/
def place (s : Stores) : StoreScope → String → String
  | .session, key => key
  | .durable, key => ownerMark s.owner ++ key

theorem apply_get (s : Stores) (scope : StoreScope) (key : String) :
    (s.apply scope (.get key)).1 = (s.reached scope).get? (s.place scope key) := by
  cases scope <;> rfl

theorem apply_set (s : Stores) (scope : StoreScope) (key : String) (v : Json) :
    (s.apply scope (.set key v)).1 = .ok none ∧
    ((s.apply scope (.set key v)).2.reached scope).entries.get?
      ((s.apply scope (.set key v)).2.place scope key) = some v.text := by
  cases scope with
  | session => exact ⟨rfl, Entries.get?_set_self _ _ _⟩
  | durable => exact ⟨rfl, Entries.get?_set_self _ _ _⟩

end Stores

namespace StorageCall

/-- What an action does to the stores, and its result. -/
theorem run_eq {config scope : Json} {a : StorageCall} (ha : decode config = .ok a) {op : StoreOp}
    (hop : a.operation? scope = some op) (s : Site) :
    (run config scope).runAlone none s =
      (some (resultOf a.verb (s.stores.apply a.scope op).1),
        { s with stores := (s.stores.apply a.scope op).2 }) := by
  simp only [run, ha, hop]
  rfl

/-- An action that succeeds and needs a key has one. -/
theorem key_of_success {config scope : Json} {a : StorageCall} (ha : decode config = .ok a)
    (hverb : a.verb ≠ .clear) {s s' : Site} {r : ActionResult}
    (hrun : (run config scope).runAlone none s = (some r, s')) (hr : r.success = true) :
    ∃ key, a.keyIn scope = some key := by
  cases hkey : a.keyIn scope with
  | some key => exact ⟨key, rfl⟩
  | none =>
    have hop : a.operation? scope = none := by
      unfold operation?
      cases hv : a.verb with
      | clear => exact absurd hv hverb
      | _ => simp [hkey]
    simp only [run, ha, hop, Work.runAlone, Prod.mk.injEq, Option.some.injEq] at hrun
    rw [← hrun.1] at hr
    cases hr

/-- A `set` that succeeds leaves the text of its filled-in value at its key. -/
theorem set_kept {config scope : Json} {a : StorageCall} (ha : decode config = .ok a)
    (hverb : a.verb = .set) {key : String} (hkey : a.keyIn scope = some key) {s s' : Site}
    {r : ActionResult} (hrun : (run config scope).runAlone none s = (some r, s')) :
    (s'.stores.reached a.scope).entries.get? (s'.stores.place a.scope key) =
      some (Template.interpolateDeep scope a.value).text := by
  have hop : a.operation? scope = some (.set key (Template.interpolateDeep scope a.value)) := by
    simp [operation?, hverb, hkey]
  rw [run_eq ha hop s] at hrun
  cases hrun
  exact (s.stores.apply_set a.scope key _).2

/-- What a `get` gives whose key has the text of a legible value. -/
theorem get_found {config scope : Json} {a : StorageCall} (ha : decode config = .ok a)
    (hverb : a.verb = .get) {key : String} (hkey : a.keyIn scope = some key) {s : Site} {v : Json}
    (hv : v.Legible)
    (hentry : (s.stores.reached a.scope).entries.get? (s.stores.place a.scope key) = some v.text) :
    let result := ((run config scope).runAlone none s).1
    (v.depth ≤ Json.depthLimit → result = some (.done (some v))) ∧
    (Json.depthLimit < v.depth → ∃ column,
      result = some (.failure (StoreError.corrupt (.tooDeep column)).message)) := by
  intro result
  have hop : a.operation? scope = some (.get key) := by simp [operation?, hverb, hkey]
  have hresult : result = some (resultOf .get ((s.stores.reached a.scope).get?
      (s.stores.place a.scope key))) := by
    show ((run config scope).runAlone none s).1 = _
    rw [run_eq ha hop s, hverb, Stores.apply_get]
  obtain ⟨hshallow, hdeep⟩ := Store.get?_text hv hentry
  constructor
  · intro hdepth
    rw [hresult, hshallow hdepth]
    rfl
  · intro hdepth
    obtain ⟨column, hget⟩ := hdeep hdepth
    exact ⟨column, by rw [hresult, hget]; rfl⟩

/-- Let a `set` succeed, with a legible value and in a legible scope, and let a `get` have the same
filled-in key in the same store. If no operation on that store touches the key in between, the `get`
succeeds with exactly the filled-in value as long as that nests 127 levels at most. If it nests
deeper, the `get` fails: the store refuses to read what was written. -/
theorem set_then_get {set get : StorageCall} {setConfig setScope getConfig getScope : Json}
    (hset : decode setConfig = .ok set) (hsetVerb : set.verb = .set)
    (hget : decode getConfig = .ok get) (hgetVerb : get.verb = .get)
    (hstore : get.scope = set.scope) (hkey : get.keyIn getScope = set.keyIn setScope)
    (hvalue : set.value.Legible) (hscope : setScope.Legible) {s s' : Site} {r : ActionResult}
    (hrun : (run setConfig setScope).runAlone none s = (some r, s')) (hr : r.success = true)
    {later : Site} (howner : later.stores.owner = s'.stores.owner) {ops : List StoreOp}
    (hbetween : later.stores.reached set.scope = (s'.stores.reached set.scope).applyAll ops)
    (huntouched : ∀ key, set.keyIn setScope = some key → ∀ op ∈ ops,
      op.touches (s'.stores.reached set.scope).backend (s'.stores.place set.scope key) = false) :
    let written := Template.interpolateDeep setScope set.value
    let result := ((run getConfig getScope).runAlone none later).1
    (written.depth ≤ Json.depthLimit → result = some (.done (some written))) ∧
    (Json.depthLimit < written.depth → ∃ column,
      result = some (.failure (StoreError.corrupt (.tooDeep column)).message)) := by
  intro written result
  have hlegible : written.Legible := Template.interpolateDeep_legible set.value hscope hvalue
  obtain ⟨key, hsetKey⟩ := key_of_success hset (by rw [hsetVerb]; decide) hrun hr
  have hkept := set_kept hset hsetVerb hsetKey hrun
  have hplace : later.stores.place set.scope key = s'.stores.place set.scope key := by
    cases set.scope with
    | session => rfl
    | durable => simp only [Stores.place, howner]
  have hentry : (later.stores.reached get.scope).entries.get?
      (later.stores.place get.scope key) = some written.text := by
    rw [hstore, hplace, hbetween, Store.applyAll_untouched (huntouched key hsetKey)]
    exact hkept
  exact get_found hget hgetVerb (hkey.trans hsetKey) hlegible hentry

/-! ### Drafts -/

/-- A value within so many arrays. -/
def nest (v : Json) : Nat → Json
  | 0 => v
  | n + 1 => .array [nest v n]

theorem nest_depth (v : Json) (n : Nat) : (nest v n).depth = v.depth + n := by
  induction n with
  | zero => rfl
  | succ n ih =>
    show max (nest v n).depth 0 + 1 = _
    omega

theorem nest_legible {v : Json} (h : v.Legible) (n : Nat) : (nest v n).Legible := by
  induction n with
  | zero => exact h
  | succ n ih => exact ⟨ih, trivial⟩

theorem interpolateDeep_nest (scope v : Json) (n : Nat) :
    Template.interpolateDeep scope (nest v n) = nest (Template.interpolateDeep scope v) n := by
  induction n with
  | zero => rfl
  | succ n ih =>
    show Json.array [Template.interpolateDeep scope (nest v n)] = _
    rw [ih]
    rfl

/-- A `storage` action on the drafts of a conversation; a draft is written within so many arrays. -/
def draftAction (verb : String) (levels : Nat) : Json := .object [
  ("action", .string verb), ("key", .string "draft"),
  ("value", nest (.string "\x7b\x7bresponses.draft\x7d\x7d") levels)]

/-- A scope whose answer is a text within so many arrays. -/
def draftScope (levels : Nat) : Json :=
  .object [("responses", .object [("draft", nest (.string "text") levels)])]

/-- A site of a conversation with nothing stored. -/
def draftSite : Site := { host := {}, stores := { owner := "client" } }

/-- The configuration that the action is read as. -/
def draftCall (verb : StorageVerb) (levels : Nat) : StorageCall where
  verb
  key := some "draft"
  value := nest (.string "\x7b\x7bresponses.draft\x7d\x7d") levels

theorem decode_set (levels : Nat) :
    decode (draftAction "set" levels) = .ok (draftCall .set levels) := rfl

theorem decode_get (levels : Nat) :
    decode (draftAction "get" levels) = .ok (draftCall .get levels) := rfl

theorem draft_keyIn (verb : StorageVerb) (levels inner : Nat) :
    (draftCall verb levels).keyIn (draftScope inner) = some "draft" := rfl

theorem draft_written (verb : StorageVerb) (levels inner : Nat) :
    Template.interpolateDeep (draftScope inner) (draftCall verb levels).value =
      nest (nest (.string "text") inner) levels := by
  rw [draftCall, interpolateDeep_nest]
  rfl

theorem draftScope_legible (inner : Nat) : (draftScope inner).Legible := by
  have hdraft : (nest (.string "text") inner).Legible :=
    nest_legible (v := .string "text") trivial inner
  exact ⟨by simp [Entries.keys], ⟨by simp [Entries.keys], hdraft, trivial⟩, trivial⟩

theorem draftCall_legible (verb : StorageVerb) (levels : Nat) :
    (draftCall verb levels).value.Legible :=
  nest_legible (v := .string "\x7b\x7bresponses.draft\x7d\x7d") trivial levels

theorem draft_set (levels inner : Nat) : ∃ s',
    (run (draftAction "set" levels) (draftScope inner)).runAlone none draftSite =
      (some (.done none), s') ∧ s'.stores.shared.backend = .memory ∧ s'.stores.owner = "client" :=
  ⟨_, rfl, rfl, rfl⟩

/-- A draft is read back after another owner has cleared all it has. -/
theorem set_then_get_draft :
    (draftCall .set 2).value.Legible ∧ (draftScope 1).Legible ∧
    ∃ s', (run (draftAction "set" 2) (draftScope 1)).runAlone none draftSite =
        (some (.done none), s') ∧
      let ops : List StoreOp := [StoreOp.clear.within "guest"]
      let later : Site :=
        { s' with stores := { s'.stores with shared := s'.stores.shared.applyAll ops } }
      (∀ op ∈ ops, op.touches s'.stores.shared.backend (ownerMark "client" ++ "draft") = false) ∧
      ((run (draftAction "get" 2) (draftScope 1)).runAlone none later).1 =
        some (.done (some (nest (.string "text") 3))) := by
  obtain ⟨s', hrun, hbackend, howner⟩ := draft_set 2 1
  have hother : ∀ op ∈ [StoreOp.clear.within "guest"],
      op.touches s'.stores.shared.backend (ownerMark "client" ++ "draft") = false := by
    intro op hop
    rw [List.mem_singleton.mp hop]
    exact Store.touches_within_other (by decide) _ .clear "draft"
  refine ⟨draftCall_legible .set 2, draftScope_legible 1, s', hrun, ?_⟩
  intro ops later
  have huntouched : ∀ key, (draftCall .set 2).keyIn (draftScope 1) = some key → ∀ op ∈ ops,
      op.touches s'.stores.shared.backend (s'.stores.place .durable key) = false := by
    intro key hkey
    cases hkey
    simp only [Stores.place, howner]
    exact hother
  have hread := set_then_get (decode_set 2) rfl (decode_get 2) rfl rfl rfl
    (draftCall_legible .set 2) (draftScope_legible 1) hrun rfl
    (show later.stores.owner = s'.stores.owner from rfl)
    (show later.stores.reached .durable = (s'.stores.reached .durable).applyAll ops from rfl)
    huntouched
  rw [draft_written] at hread
  exact ⟨hother, hread.1 (by rw [nest_depth, nest_depth]; decide)⟩

/-- A draft of 64 levels within a document of 64 levels is written, and then it cannot be read. -/
theorem set_then_get_refused :
    (draftAction "set" 64).depth ≤ Json.depthLimit ∧ (draftScope 64).depth ≤ Json.depthLimit ∧
    (draftCall .set 64).value.Legible ∧ (draftScope 64).Legible ∧
    ∃ s', (run (draftAction "set" 64) (draftScope 64)).runAlone none draftSite =
        (some (.done none), s') ∧
      ∃ column, ((run (draftAction "get" 64) (draftScope 64)).runAlone none s').1 =
        some (.failure (StoreError.corrupt (.tooDeep column)).message) := by
  obtain ⟨s', hrun, -, -⟩ := draft_set 64 64
  refine ⟨?_, ?_, draftCall_legible .set 64, draftScope_legible 64, s', hrun, ?_⟩
  · simp [draftAction, Json.depth, Json.depthFields, nest_depth, Json.depthLimit]
  · simp [draftScope, Json.depth, Json.depthFields, nest_depth, Json.depthLimit]
  · have hkept := set_kept (decode_set 64) rfl (draft_keyIn .set 64 64) hrun
    rw [draft_written] at hkept
    have hread := get_found (decode_get 64) rfl (draft_keyIn .get 64 64)
      (nest_legible (nest_legible (v := .string "text") trivial 64) 64) hkept
    apply hread.2
    rw [nest_depth, nest_depth]
    decide

end StorageCall

end Dialogue
