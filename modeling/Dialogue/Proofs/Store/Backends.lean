import Mathlib.Data.List.TakeWhile
import Dialogue.Proofs.Store.Isolation

/-!
Stores in memory and stores in a database.

Both are the same map as long as no prefix that is cleared has a NUL. The text functions of SQL end
a text at its first NUL, and what they return is never equal to a prefix that has one
(`sqlStartsWith_iff`). So a database does what the memory does with an operation, except that it
removes nothing where such a prefix is cleared (`apply_sql`), and any number of operations does to
a database what the others among them do to the memory (`run_sql`). An owner whose name has a NUL
therefore cannot clear what it keeps in a database (`clear_within_sql`).
-/
namespace Dialogue

/-- Whether the operation looks a key up. -/
def StoreOp.isGet : StoreOp → Bool
  | .get _ => true
  | _ => false

/-- A prefix that the operation clears has no NUL. -/
def StoreOp.Plain : StoreOp → Prop
  | .clearPrefix start => '\x00' ∉ start.toList
  | _ => True

instance : DecidablePred StoreOp.Plain
  | .clearPrefix start => inferInstanceAs (Decidable ('\x00' ∉ start.toList))
  | .get _ | .set _ _ | .remove _ | .clear => isTrue trivial

namespace Store

/-! ## Texts up to their first NUL -/

theorem untilNul_of_plain {s : String} (h : '\x00' ∉ s.toList) : untilNul s = s.toList := by
  apply List.takeWhile_eq_self_iff.mpr
  intro c hc
  have hne : c ≠ '\x00' := fun he => h (he ▸ hc)
  exact decide_eq_true hne

theorem nul_not_mem_untilNul (s : String) : '\x00' ∉ untilNul s := by
  intro h
  have hne := List.mem_takeWhile_imp h
  simp at hne

/-- A text without a NUL starts another exactly if it starts it up to its first NUL. -/
theorem prefix_untilNul_iff {start : List Char} (h : '\x00' ∉ start) (key : String) :
    start <+: untilNul key ↔ start <+: key.toList := by
  constructor
  · intro hp
    exact hp.trans (List.takeWhile_prefix _)
  · rintro ⟨rest, hrest⟩
    have hstart : ∀ c ∈ start, decide (c ≠ '\x00') = true := by
      intro c hc
      have hne : c ≠ '\x00' := fun he => h (he ▸ hc)
      exact decide_eq_true hne
    rw [untilNul, ← hrest, List.takeWhile_append_of_pos hstart]
    exact List.prefix_append _ _

/-- SQL finds the keys that start with a prefix, unless the prefix has a NUL: then it finds none. -/
theorem sqlStartsWith_iff (key start : String) :
    sqlStartsWith key start = true ↔ '\x00' ∉ start.toList ∧ start.toList <+: key.toList := by
  rw [sqlStartsWith, decide_eq_true_iff]
  constructor
  · intro h
    have hplain : '\x00' ∉ start.toList := by
      rw [← h]
      exact fun hm => nul_not_mem_untilNul key (List.mem_of_mem_take hm)
    refine ⟨hplain, (prefix_untilNul_iff hplain key).mp ?_⟩
    rw [← h]
    exact List.take_prefix _ _
  · rintro ⟨hplain, hp⟩
    rw [untilNul_of_plain hplain]
    exact (List.prefix_iff_eq_take.mp ((prefix_untilNul_iff hplain key).mpr hp)).symm

theorem covers_sql (key start : String) : covers .sql key start =
    (decide ('\x00' ∉ start.toList) && covers .memory key start) := by
  rw [Bool.eq_iff_iff, covers_memory, Bool.and_eq_true, decide_eq_true_iff, decide_eq_true_iff]
  exact sqlStartsWith_iff key start

/-! ## One operation -/

/-- Clearing by a prefix leaves the keys that do not start with it, and all keys where a database is
to find a prefix with a NUL. -/
theorem keys_clearPrefix (s : Store) (start : String) :
    (s.apply (.clearPrefix start)).2.entries.keys =
      if s.backend = .sql ∧ '\x00' ∈ start.toList then s.entries.keys
      else s.entries.keys.filter fun key => ¬ start.toList <+: key.toList := by
  have hkept : (s.apply (.clearPrefix start)).2.entries.keys =
      s.entries.keys.filter fun key => !covers s.backend key start := by
    rw [Entries.keys, Entries.keys, List.filter_map]
    rfl
  rw [hkept]
  cases s.backend with
  | memory => simp [covers_memory]
  | sql =>
    by_cases hplain : '\x00' ∈ start.toList
    · simp [covers_sql, hplain]
    · simp [covers_sql, covers_memory, hplain]

/-- A database does with an operation what the memory does, unless it is to find a prefix with a
NUL: then it does nothing. -/
theorem apply_sql (entries : Entries String) (op : StoreOp) :
    (⟨.sql, entries⟩ : Store).apply op =
      if op.Plain then
        (((⟨.memory, entries⟩ : Store).apply op).1,
          ⟨.sql, ((⟨.memory, entries⟩ : Store).apply op).2.entries⟩)
      else (.ok none, ⟨.sql, entries⟩) := by
  cases op with
  | get key => rfl
  | set key value => rfl
  | remove key => rfl
  | clear => rfl
  | clearPrefix start =>
    by_cases hplain : '\x00' ∈ start.toList
    · have hnot : ¬ (StoreOp.clearPrefix start).Plain := fun h => h hplain
      simp [hnot, apply, filterKeys, covers_sql, hplain]
    · have hplain' : (StoreOp.clearPrefix start).Plain := hplain
      simp [hplain', apply, filterKeys, covers_sql, hplain]

/-- What an owner whose name has a NUL keeps in a database stays there when the owner clears it. -/
theorem clear_within_sql {owner : String} (h : '\x00' ∈ owner.toList) (entries : Entries String) :
    (⟨.sql, entries⟩ : Store).apply (StoreOp.clear.within owner) =
      (.ok none, ⟨.sql, entries⟩) := by
  have hmark : '\x00' ∈ (ownerMark owner).toList := by
    rw [ownerMark_toList]
    simp [h]
  rw [StoreOp.within, apply_sql, if_neg (fun hplain => hplain hmark)]

/-! ## Any number of operations -/

/-- The store after operations. -/
def applyAll (s : Store) (ops : List StoreOp) : Store :=
  ops.foldl (fun s op => (s.apply op).2) s

/-- What the look-ups among operations give, one after another. -/
def reads : Store → List StoreOp → List StoreResult
  | _, [] => []
  | s, op :: rest =>
    if op.isGet then (s.apply op).1 :: reads (s.apply op).2 rest else reads (s.apply op).2 rest

theorem isGet_of_not_plain {op : StoreOp} (h : ¬ op.Plain) : op.isGet = false := by
  cases op with
  | get key => exact absurd trivial h
  | set key value => rfl
  | remove key => rfl
  | clear => rfl
  | clearPrefix start => rfl

/-- A database holds after any operations what a memory holds that has not been asked to clear a
prefix with a NUL, and the look-ups in between give the same in both. -/
theorem run_sql (ops : List StoreOp) (entries : Entries String) :
    (⟨.sql, entries⟩ : Store).reads ops =
      (⟨.memory, entries⟩ : Store).reads (ops.filter StoreOp.Plain) ∧
    ((⟨.sql, entries⟩ : Store).applyAll ops).entries =
      ((⟨.memory, entries⟩ : Store).applyAll (ops.filter StoreOp.Plain)).entries := by
  induction ops generalizing entries with
  | nil => exact ⟨rfl, rfl⟩
  | cons op rest ih =>
    have hstep := apply_sql entries op
    by_cases hop : op.Plain
    · -- Both do the same, and go on with the same entries.
      rw [if_pos hop] at hstep
      have hmemory : ((⟨.memory, entries⟩ : Store).apply op).2 =
          ⟨.memory, ((⟨.memory, entries⟩ : Store).apply op).2.entries⟩ := by
        cases op <;> rfl
      rw [List.filter_cons_of_pos (by simpa using hop), reads, reads, applyAll, applyAll,
        List.foldl_cons, List.foldl_cons, hstep, hmemory]
      obtain ⟨hreads, hentries⟩ := ih ((⟨.memory, entries⟩ : Store).apply op).2.entries
      exact ⟨by rw [hreads], hentries⟩
    · -- The database does nothing, and the memory is not asked.
      rw [if_neg hop] at hstep
      rw [List.filter_cons_of_neg (by simpa using hop), reads, applyAll, List.foldl_cons, hstep,
        isGet_of_not_plain hop]
      exact ih entries

/-- Any operations on empty stores do to a database what those of them do to a memory that clear no
prefix with a NUL: the look-ups give the same, and the same keys are there at the end. So the two
agree as long as no such prefix is cleared, and then clearing a prefix removes from both exactly the
keys that start with it. -/
theorem backends_agree (ops : List StoreOp) :
    let sql : Store := { backend := .sql }
    let memory : Store := { backend := .memory }
    sql.reads ops = memory.reads (ops.filter StoreOp.Plain) ∧
    (sql.applyAll ops).entries.keys =
      (memory.applyAll (ops.filter StoreOp.Plain)).entries.keys ∧
    ((∀ op ∈ ops, op.Plain) → sql.reads ops = memory.reads ops ∧
      (sql.applyAll ops).entries.keys = (memory.applyAll ops).entries.keys) ∧
    ∀ (s : Store) (start key : String), (s.backend = .sql → '\x00' ∉ start.toList) →
      (key ∈ (s.apply (.clearPrefix start)).2.entries.keys ↔
        key ∈ s.entries.keys ∧ ¬ start.toList <+: key.toList) := by
  intro sql memory
  obtain ⟨hreads, hentries⟩ := run_sql ops []
  refine ⟨hreads, congrArg Entries.keys hentries, ?_, ?_⟩
  · intro hplain
    have hall : ops.filter StoreOp.Plain = ops := by
      apply List.filter_eq_self.mpr
      intro op hop
      exact decide_eq_true (hplain op hop)
    rw [hall] at hreads hentries
    exact ⟨hreads, congrArg Entries.keys hentries⟩
  · intro s start key hplain
    have hfound : ¬ (s.backend = .sql ∧ '\x00' ∈ start.toList) := fun h => hplain h.1 h.2
    rw [keys_clearPrefix, if_neg hfound, List.mem_filter, decide_eq_true_iff]

/-- Keys whose lengths differ in characters and in bytes, one of them with a NUL. -/
def accented : List StoreOp := [
  .set "é\x00a" (.ofNat 1), .set "éb" (.ofNat 2), .set "e" (.ofNat 3), .clearPrefix "é",
  .get "é\x00a", .get "éb", .get "e"]

theorem backends_agree_accented :
    let sql : Store := { backend := .sql }
    let memory : Store := { backend := .memory }
    (∀ op ∈ accented, op.Plain) ∧ sql.reads accented = memory.reads accented ∧
    memory.reads accented = [.ok none, .ok none, .ok (some (.ofNat 3))] ∧
    (sql.applyAll accented).entries.keys = (memory.applyAll accented).entries.keys ∧
    "é\x00a" ∉ ((sql.applyAll (accented.take 3)).apply (.clearPrefix "é")).2.entries.keys := by
  intro sql memory
  have hplain : ∀ op ∈ accented, op.Plain := by decide
  obtain ⟨-, -, hagree, hclear⟩ := backends_agree accented
  obtain ⟨hreads, hkeys⟩ := hagree hplain
  refine ⟨hplain, hreads, rfl, hkeys, ?_⟩
  have hfound : '\x00' ∉ "é".toList := by decide
  rw [hclear _ "é" "é\x00a" (fun _ => hfound)]
  intro h
  exact h.2 (by decide)

/-- A value whose key starts with a prefix that has a NUL: clearing the prefix removes it from a
memory, and a database keeps it. -/
theorem backends_differ :
    let ops : List StoreOp :=
      [.set "a\x00b" (.ofNat 1), .clearPrefix "a\x00", .get "a\x00b"]
    let sql : Store := { backend := .sql }
    let memory : Store := { backend := .memory }
    memory.reads ops = [.ok none] ∧ sql.reads ops = [.ok (some (.ofNat 1))] ∧
    (memory.applyAll ops).entries.keys = [] ∧ (sql.applyAll ops).entries.keys = ["a\x00b"] :=
  ⟨rfl, rfl, rfl, rfl⟩

end Store

end Dialogue
