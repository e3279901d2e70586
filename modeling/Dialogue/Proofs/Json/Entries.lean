import Mathlib.Data.List.Nodup
import Dialogue.Json.Basic

/-!
Fields with each key once.

Setting a field keeps each key once (`nodup_keys_set`). Removing a field puts the last one into the
hole, but up to their order the fields left over are those with another key (`swapRemove_perm`). As
long as each key is there once, their order makes no difference to what is found (`get?_perm`). So
after a removal the key is not found, and every other key is found as before (`get?_swapRemove`).
-/
namespace Dialogue

namespace Entries

variable {α : Type}

/-- What is found among the entries whose keys pass a test. -/
theorem get?_filter (entries : Entries α) (keep : String → Bool) (key : String) :
    Entries.get? (entries.filter fun (k, _) => keep k) key =
      if keep key then entries.get? key else none := by
  induction entries with
  | nil => simp [Entries.get?]
  | cons entry rest ih =>
    obtain ⟨k, v⟩ := entry
    by_cases hk : k = key
    · subst hk
      cases hkeep : keep k with
      | true => simp [hkeep, Entries.get?]
      | false =>
        rw [List.filter_cons_of_neg (by simp [hkeep]), ih, hkeep]
        rfl
    · cases hkeep : keep k with
      | true => simp [hkeep, Entries.get?, hk, ih]
      | false => simp [hkeep, Entries.get?, hk, ih]

/-- An entry is found if it is there, where no other entry has its key. -/
theorem get?_eq_some_iff {fields : Entries α} (once : fields.keys.Nodup) {key : String} {v : α} :
    fields.get? key = some v ↔ (key, v) ∈ fields := by
  induction fields with
  | nil => simp [get?]
  | cons field rest ih =>
    obtain ⟨k, w⟩ := field
    obtain ⟨hk, hrest⟩ := List.nodup_cons.mp once
    by_cases h : k = key
    · subst h
      have habsent : (k, v) ∉ rest := fun hm => hk (List.mem_map.mpr ⟨(k, v), hm, rfl⟩)
      simp [get?, habsent, eq_comm]
    · simp [get?, h, Ne.symm h, ih hrest]

theorem get?_perm {fields others : Entries α} (once : fields.keys.Nodup)
    (h : fields.Perm others) (key : String) : fields.get? key = others.get? key := by
  have once' : others.keys.Nodup := (h.map Prod.fst).nodup_iff.mp once
  apply Option.ext
  intro v
  show fields.get? key = some v ↔ others.get? key = some v
  rw [get?_eq_some_iff once, get?_eq_some_iff once', h.mem_iff]

theorem mem_keys_set {fields : Entries α} {key k : String} {v : α}
    (h : k ∈ (fields.set key v).keys) : k = key ∨ k ∈ fields.keys := by
  induction fields with
  | nil => exact .inl (List.mem_singleton.mp h)
  | cons field rest ih =>
    obtain ⟨k', w⟩ := field
    rw [set] at h
    split at h
    · exact .inr h
    · rcases List.mem_cons.mp h with rfl | h
      · exact .inr List.mem_cons_self
      · rcases ih h with h | h
        · exact .inl h
        · exact .inr (List.mem_cons_of_mem _ h)

/-- A set field keeps each key once. -/
theorem nodup_keys_set {fields : Entries α} (once : fields.keys.Nodup) (key : String) (v : α) :
    (fields.set key v).keys.Nodup := by
  induction fields with
  | nil => exact List.nodup_singleton key
  | cons field rest ih =>
    obtain ⟨k, w⟩ := field
    obtain ⟨hk, hrest⟩ := List.nodup_cons.mp once
    rw [set]
    split
    · exact once
    · next hne =>
      refine List.nodup_cons.mpr ⟨fun hm => ?_, ih hrest⟩
      rcases mem_keys_set hm with h | h
      · exact hne h
      · exact hk h

/-- Up to their order, the fields left over are those with another key. -/
theorem swapRemove_perm {fields : Entries α} (once : fields.keys.Nodup) (key : String) :
    (fields.swapRemove key).Perm (fields.filter fun (k, _) => k ≠ key) := by
  induction fields with
  | nil => exact .nil
  | cons field rest ih =>
    obtain ⟨k, w⟩ := field
    obtain ⟨hk, hrest⟩ := List.nodup_cons.mp once
    by_cases h : k = key
    · subst h
      have hothers : (rest.filter fun (k', _) => k' ≠ k) = rest := by
        apply List.filter_eq_self.mpr
        rintro ⟨k', v⟩ hm
        have hne : k' ≠ k := fun he => hk (List.mem_map.mpr ⟨(k', v), hm, he⟩)
        exact decide_eq_true hne
      rw [List.filter_cons_of_neg (by simp), hothers]
      -- The last of the others stands first now.
      rcases List.eq_nil_or_concat rest with rfl | ⟨init, last, rfl⟩
      · simp [swapRemove]
      · have hmoved : swapRemove ((k, w) :: init.concat last) k = last :: init := by
          simp [swapRemove]
        rw [hmoved, List.concat_eq_append]
        exact (List.perm_append_singleton last init).symm
    · rw [List.filter_cons_of_pos (by simp [h]), swapRemove, if_neg h]
      exact (ih hrest).cons _

/-- A removal keeps each key once. -/
theorem nodup_keys_swapRemove {fields : Entries α} (once : fields.keys.Nodup) (key : String) :
    (fields.swapRemove key).keys.Nodup := by
  rw [keys, ((swapRemove_perm once key).map Prod.fst).nodup_iff]
  exact (List.filter_sublist.map Prod.fst).nodup once

/-- What is found after an entry was removed. -/
theorem get?_swapRemove {fields : Entries α} (once : fields.keys.Nodup) (key other : String) :
    (fields.swapRemove key).get? other = if other = key then none else fields.get? other := by
  calc (fields.swapRemove key).get? other
    _ = Entries.get? (fields.filter fun (k, _) => k ≠ key) other :=
        get?_perm (nodup_keys_swapRemove once key) (swapRemove_perm once key) other
    _ = if decide (other ≠ key) then fields.get? other else none :=
        get?_filter fields (fun k => k ≠ key) other
    _ = if other = key then none else fields.get? other := by
        by_cases h : other = key <;> simp [h]

end Entries

end Dialogue
