import Dialogue.Json.Decode

/-!
Decoders on values that were written for them.

The decoder of a type gives back what was written of it: a text from a string, a whole number from
one within the limits of its type, and a list whose items are read back one by one (`list_map`). An
optional value of any kind is the exception: `null` stands for no value, so a value that is `null`
itself is read as none (`option_any`).

What every field of a record keeps true of the draft is true of the draft that the record is made of
(`record_keeps`), in either form of the record.
-/
namespace Dialogue.Decode

variable {α σ : Type}

/-! ## Values -/

@[simp] theorem any_eq (v : Json) : any v = .ok v := rfl

@[simp] theorem string_string (s : String) : string (.string s) = .ok s := rfl

@[simp] theorem bool_bool (b : Bool) : bool (.bool b) = .ok b := rfl

@[simp] theorem fields_object (fs : Json.Fields) : fields (.object fs) = .ok fs := rfl

@[simp] theorem option_string (s : String) : option string (.string s) = .ok (some s) := rfl

@[simp] theorem option_any (v : Json) :
    option any v = .ok ((some v).filter fun v => !v.isNull) := by
  cases v <;> rfl

@[simp] theorem need_some (name : String) (a : α) : need name (some a) = .ok a := rfl

theorem int64_ofInt {i : Int} (least : -signedLimit ≤ i) (greatest : i < signedLimit) :
    int64 (.ofInt i) = .ok i := by
  have hrange : -(signedLimit : Int) ≤ i ∧ i ≤ signedLimit - 1 := ⟨least, by omega⟩
  simp only [int64, whole, Json.ofInt, if_pos hrange]

/-- A whole number that was read is within the limits of its type. -/
theorem int64_inRange {v : Json} {i : Int} (h : int64 v = .ok i) :
    -signedLimit ≤ i ∧ i < signedLimit := by
  unfold int64 whole at h
  split at h
  · split at h
    · next hrange =>
      cases h
      exact ⟨hrange.1, by omega⟩
    · cases h
  · cases h

theorem nat64_ofNat {n : Nat} (h : n < unsignedLimit) : nat64 (.ofNat n) = .ok n := by
  have hlimit : (twoTo 64 : Int) = unsignedLimit := congrArg Nat.cast (by decide)
  have hrange : (0 : Int) ≤ n ∧ (n : Int) ≤ (twoTo 64 : Int) - 1 := by
    rw [hlimit]
    omega
  simp only [nat64, natural, whole, Json.ofNat, if_pos hrange]
  rfl

/-- What follows a step that can fail gives a result only if the step did. -/
theorem exists_of_bind {ε β : Type} {x : Except ε α} {f : α → Except ε β} {b : β}
    (h : x >>= f = .ok b) : ∃ a, x = .ok a ∧ f a = .ok b := by
  cases x with
  | error e => cases h
  | ok a => exact ⟨a, rfl, h⟩

/-- A list is read back if its items are. -/
theorem list_map {decode : Decoder α} {write : α → Json} {read : α → α} {as : List α}
    (h : ∀ a ∈ as, decode (write a) = .ok (read a)) :
    list decode (.array (as.map write)) = .ok (as.map read) := by
  show (as.map write).mapM decode = _
  induction as with
  | nil => rfl
  | cons a as ih =>
    rw [List.map_cons, List.mapM_cons, h a List.mem_cons_self,
      ih fun b hb => h b (List.mem_cons_of_mem a hb)]
    rfl

/-- The items of a list that was read were read one by one. -/
theorem exists_of_list {decode : Decoder α} {v : Json} {as : List α}
    (h : list decode v = .ok as) {a : α} (ha : a ∈ as) : ∃ w, decode w = .ok a := by
  cases v with
  | array items =>
    have hread : items.mapM decode = .ok as := h
    clear h
    induction items generalizing as with
    | nil =>
      cases hread
      cases ha
    | cons w items ih =>
      rw [List.mapM_cons] at hread
      obtain ⟨first, hfirst, hread⟩ := exists_of_bind hread
      obtain ⟨rest, hrest, hread⟩ := exists_of_bind hread
      cases hread
      rcases List.mem_cons.mp ha with rfl | ha
      · exact ⟨w, hfirst⟩
      · exact ih ha hrest
  | _ => cases h

/-! ## Records -/

/-- Every field keeps what is true of the draft. -/
def Keep (P : σ → Prop) (slots : List (Slot σ)) : Prop :=
  ∀ s ∈ slots, ∀ v d d', P d → s.read v d = .ok d' → P d'

variable {P : σ → Prop} {slots : List (Slot σ)}

theorem readFields_keeps (keep : Keep P slots) : ∀ (fields : List (String × Json))
    (seen : List String) {d d' : σ}, P d → readFields slots seen d fields = .ok d' → P d'
  | [], _, _, _, hd, h => by
    cases h
    exact hd
  | (key, v) :: rest, seen, d, d', hd, h => by
    rw [readFields] at h
    split at h
    · exact readFields_keeps keep rest seen hd h
    · next s hs =>
      split at h
      · cases h
      · obtain ⟨next, hnext, h⟩ := exists_of_bind h
        have hstep := keep s (List.mem_of_find?_eq_some hs) v d next hd hnext
        exact readFields_keeps keep rest _ hstep h

theorem readItems_keeps (shape : Shape) (total : Nat) : ∀ (slots : List (Slot σ))
    (items : List Json) (index : Nat) {d d' : σ}, Keep P slots → P d →
    readItems shape total index d slots items = .ok d' → P d'
  | [], [], _, _, _, _, hd, h => by
    cases h
    exact hd
  | [], _ :: _, _, _, _, _, _, h => by cases h
  | s :: slots, [], index, d, d', keep, hd, h => by
    rw [readItems] at h
    split at h
    · exact readItems_keeps shape total slots [] _ (fun t ht => keep t (.tail _ ht)) hd h
    · cases h
  | s :: slots, v :: rest, index, d, d', keep, hd, h => by
    rw [readItems] at h
    obtain ⟨next, hnext, h⟩ := exists_of_bind h
    exact readItems_keeps shape total slots rest _ (fun t ht => keep t (.tail _ ht))
      (keep s (.head _) v d next hd hnext) h

/-- A record is made of a draft of which all is true that every field keeps. -/
theorem record_keeps {type : String} {start : σ} {finish : σ → Except DecodeError α} {v : Json}
    {a : α} (keep : Keep P slots) (hstart : P start)
    (h : record type slots start finish v = .ok a) : ∃ d, P d ∧ finish d = .ok a := by
  cases v with
  | object fields =>
    obtain ⟨d, hd, h⟩ := exists_of_bind h
    exact ⟨d, readFields_keeps keep fields [] hstart hd, h⟩
  | array items =>
    obtain ⟨d, hd, h⟩ := exists_of_bind h
    exact ⟨d, readItems_keeps _ _ slots items 0 keep hstart hd, h⟩
  | _ => cases h

end Dialogue.Decode
