import Dialogue.Proofs.Json.Entries
import Dialogue.Proofs.Json.Scalars

/-!
Values read back from their texts.

A value is legible if its objects have each key once and the reader gets each of its numbers back
from the number's text. The text of a legible value is read as that value, also inside a longer
text, as long as the value does not nest deeper than may be read (`readValue_text`). Where it nests
deeper, reading stops at a bracket that opens one level too many (`readValue_deep`). So `Json.read`
inverts `Json.text` on legible values exactly up to 127 levels (`read_text`, `read_text_deep`).
-/
namespace Dialogue.Json

/-! ## Legible values -/

mutual

/-- Each object has each key once, and each number is read back from its text. -/
def Legible : Json → Prop
  | .number n => n.Exact
  | .array items => LegibleItems items
  | .object fields => (Entries.keys fields).Nodup ∧ LegibleFields fields
  | _ => True

def LegibleItems : List Json → Prop
  | [] => True
  | v :: rest => v.Legible ∧ LegibleItems rest

def LegibleFields : List (String × Json) → Prop
  | [] => True
  | (_, v) :: rest => v.Legible ∧ LegibleFields rest

end

/-! ## The characters of a text -/

theorem textItems_cons (v : Json) (rest : List Json) : (textItems (v :: rest)).toList =
    ',' :: (v.text.toList ++ (textItems rest).toList) := by
  simp [textItems]

theorem textFields_cons (key : String) (v : Json) (rest : List (String × Json)) :
    (textFields ((key, v) :: rest)).toList =
      ',' :: ((quote key).toList ++ ':' :: (v.text.toList ++ (textFields rest).toList)) := by
  simp [textFields]

/-- Behind its bracket, an array has its items without the comma before the first. -/
theorem text_array (v : Json) (rest : List Json) : (text (.array (v :: rest))).toList =
    '[' :: ((textItems (v :: rest)).toList.tail ++ [']']) := by
  simp [text, textItems_cons]

theorem text_object (field : String × Json) (rest : List (String × Json)) :
    (text (.object (field :: rest))).toList =
      '\x7b' :: ((textFields (field :: rest)).toList.tail ++ ['\x7d']) := by
  obtain ⟨key, v⟩ := field
  simp [text, textFields_cons]

/-- The first character of a number is none of the other characters that begin a value. -/
theorem ne_of_numeric {c d : Char} (hc : (c = '-' || c.isDigit) = true)
    (hd : (d = '-' || d.isDigit) = false) : c ≠ d := by
  rintro rfl
  rw [hd] at hc
  cases hc

/-- A text begins with no blank and no closing bracket. -/
theorem text_head {v : Json} (h : v.Legible) : ∃ c tail, v.text.toList = c :: tail ∧
    isBlank c = false ∧ c ≠ ']' := by
  cases v with
  | null => exact ⟨'n', _, rfl, rfl, by decide⟩
  | bool b => cases b <;> exact ⟨_, _, rfl, rfl, by decide⟩
  | number n =>
    obtain ⟨c, tail, htext, hc⟩ := readNumber_head h
    have hblank : isBlank c = false := by
      simp [isBlank, ne_of_numeric hc (d := ' ') rfl, ne_of_numeric hc (d := '\n') rfl,
        ne_of_numeric hc (d := '\t') rfl, ne_of_numeric hc (d := '\r') rfl]
    exact ⟨c, tail, htext, hblank, ne_of_numeric hc rfl⟩
  | string s => exact ⟨'"', _, quote_toList s, rfl, by decide⟩
  | array items => cases items with
    | nil => exact ⟨'[', _, rfl, rfl, by decide⟩
    | cons v rest => exact ⟨'[', _, text_array v rest, rfl, by decide⟩
  | object fields => cases fields with
    | nil => exact ⟨'\x7b', _, rfl, rfl, by decide⟩
    | cons field rest => exact ⟨'\x7b', _, text_object field rest, rfl, by decide⟩

/-! ## What the reader does at each kind of value -/

section Reader

variable (d fuel : Nat) (rest : List Char)

theorem skipBlanks_cons {c : Char} (h : isBlank c = false) (cs : List Char) :
    skipBlanks (c :: cs) = c :: cs := by
  simp [skipBlanks, h]

theorem readValue_string (s : String) :
    readValue d (fuel + 1) ((quote s).toList ++ rest) = .ok (.string s, rest) := by
  have htext : (quote s).toList ++ rest = '"' :: (escaped s.toList ++ '"' :: rest) := by
    simp [quote_toList]
  rw [htext, readValue, skipBlanks_cons rfl]
  simp only [Char.reduceEq, if_false, if_true, readChars_closed]
  rfl

theorem readValue_number {n : Number} (h : n.Exact) (hrest : Follows rest) :
    readValue d (fuel + 1) (n.text.toList ++ rest) = .ok (.number n, rest) := by
  obtain ⟨c, tail, htext, hc⟩ := readNumber_head h
  have hread : readNumber (c :: (tail ++ rest)) = .ok (n, rest) := by
    have hlocal := readNumber_local hrest h
    rw [htext] at hlocal
    exact hlocal
  have hblank : isBlank c = false := by
    obtain ⟨c', tail', htext', hblank, -⟩ := text_head (v := .number n) h
    cases htext.symm.trans htext'
    exact hblank
  rw [htext, List.cons_append, readValue, skipBlanks_cons hblank]
  simp only [ne_of_numeric hc (d := 'n') rfl, ne_of_numeric hc (d := 't') rfl,
    ne_of_numeric hc (d := 'f') rfl, ne_of_numeric hc (d := '"') rfl, hc, if_false, if_true, hread]
  rfl

theorem readValue_array {c : Char} {cs : List Char} (hblank : isBlank c = false) (hc : c ≠ ']') :
    readValue (d + 1) (fuel + 1) ('[' :: c :: cs) =
      (readItems d fuel (c :: cs)).bind fun (items, rest) => .ok (.array items, rest) := by
  rw [readValue, skipBlanks_cons rfl]
  simp only [Char.reduceEq, if_false, if_true, skipBlanks_cons hblank]
  rw [if_neg (by decide)]
  split
  · next heq => cases heq
  · next heq => exact absurd (List.cons.inj heq).1 hc
  · rfl

theorem readValue_object (cs : List Char) :
    readValue (d + 1) (fuel + 1) ('\x7b' :: '"' :: cs) =
      (readFields d fuel ('"' :: cs)).bind fun (fields, rest) => .ok (.object fields, rest) := by
  rw [readValue, skipBlanks_cons rfl]
  simp only [Char.reduceEq, if_false, if_true, skipBlanks_cons (c := '"') rfl]
  rfl

/-- No bracket opens a level that is not left. -/
theorem readValue_closed {c : Char} (hc : c = '[' ∨ c = '\x7b') (cs : List Char) :
    readValue 0 (fuel + 1) (c :: cs) = .error (.tooDeep 0, c :: cs) := by
  rcases hc with rfl | rfl
  · rfl
  · rfl

variable {d fuel rest}

/-! ### Items -/

theorem readItems_last {cs : List Char} {v : Json}
    (h : readValue d fuel cs = .ok (v, ']' :: rest)) :
    readItems d (fuel + 1) cs = .ok ([v], rest) := by
  rw [readItems, h]
  rfl

theorem readItems_more {cs : List Char} {v : Json}
    (h : readValue d fuel cs = .ok (v, ',' :: rest)) :
    readItems d (fuel + 1) cs =
      (readItems d fuel rest).bind fun (items, rest) => .ok (v :: items, rest) := by
  rw [readItems, h]
  rfl

theorem readItems_fault {cs : List Char} {fault : Fault} (h : readValue d fuel cs = .error fault) :
    readItems d (fuel + 1) cs = .error fault := by
  rw [readItems, h]
  rfl

/-! ### Fields -/

/-- The reader takes the key and the colon, and goes on with the value. -/
theorem readFields_key (d fuel : Nat) (key : String) (cs : List Char) :
    readFields d (fuel + 1) ((quote key).toList ++ ':' :: cs) =
      (readValue d fuel cs).bind fun (v, rest) =>
        match skipBlanks rest with
        | [] => fail .endOfText []
        | '\x7d' :: rest => .ok ([(key, v)], rest)
        | ',' :: rest => (readFields d fuel rest).bind fun (fields, rest) =>
            .ok ((key, v) :: fields, rest)
        | rest => fail .malformed rest := by
  have htext : (quote key).toList ++ ':' :: cs =
      '"' :: (escaped key.toList ++ '"' :: ':' :: cs) := by
    simp [quote_toList]
  rw [htext, readFields, skipBlanks_cons rfl]
  simp only [readChars_closed]
  rfl

end Reader

/-! ## Values within the limit -/

theorem text_length_pos {v : Json} (h : v.Legible) : 0 < v.text.toList.length := by
  obtain ⟨c, tail, htext, -⟩ := text_head h
  rw [htext]
  simp

theorem textItems_tail {items : List Json} (h : items ≠ []) :
    (textItems items).toList = ',' :: (textItems items).toList.tail := by
  obtain ⟨v, rest, rfl⟩ := List.exists_cons_of_ne_nil h
  rw [textItems_cons]
  rfl

theorem textFields_tail {fields : List (String × Json)} (h : fields ≠ []) :
    (textFields fields).toList = ',' :: (textFields fields).toList.tail := by
  obtain ⟨⟨key, v⟩, rest, rfl⟩ := List.exists_cons_of_ne_nil h
  rw [textFields_cons]
  rfl

theorem follows_items (items : List Json) (rest : List Char) :
    Follows ((textItems items).toList ++ ']' :: rest) := by
  cases items with
  | nil => exact follows_cons (by simp) rest
  | cons v items =>
    rw [textItems_cons]
    exact follows_cons (by simp) _

theorem follows_fields (fields : List (String × Json)) (rest : List Char) :
    Follows ((textFields fields).toList ++ '\x7d' :: rest) := by
  cases fields with
  | nil => exact follows_cons (by simp) rest
  | cons field fields =>
    rw [textFields_cons]
    exact follows_cons (by simp) _

theorem text_array_length (v : Json) (vs : List Json) :
    (text (.array (v :: vs))).toList.length = (textItems (v :: vs)).toList.length + 1 := by
  rw [text_array, textItems_tail (List.cons_ne_nil v vs)]
  simp

theorem text_object_length (field : String × Json) (fields : List (String × Json)) :
    (text (.object (field :: fields))).toList.length =
      (textFields (field :: fields)).toList.length + 1 := by
  rw [text_object, textFields_tail (List.cons_ne_nil field fields)]
  simp

/-- Behind the bracket of an array the reader takes its items. -/
theorem readValue_array_text {v : Json} (h : v.Legible) (vs : List Json) (d fuel : Nat)
    (rest : List Char) : readValue (d + 1) (fuel + 1) ((text (.array (v :: vs))).toList ++ rest) =
      (readItems d fuel ((textItems (v :: vs)).toList.tail ++ ']' :: rest)).bind
        fun (items, rest) => .ok (.array items, rest) := by
  obtain ⟨c, tail, htail, hblank, hc⟩ := text_head h
  have hhead : (textItems (v :: vs)).toList.tail ++ ']' :: rest =
      c :: (tail ++ ((textItems vs).toList ++ ']' :: rest)) := by
    simp [textItems_cons, htail]
  have htext : (text (.array (v :: vs))).toList ++ rest =
      '[' :: ((textItems (v :: vs)).toList.tail ++ ']' :: rest) := by
    simp [text_array]
  rw [htext, hhead, readValue_array d fuel hblank hc]

/-- Behind the brace of an object the reader takes its fields. -/
theorem readValue_object_text (field : String × Json) (fields : List (String × Json))
    (d fuel : Nat) (rest : List Char) :
    readValue (d + 1) (fuel + 1) ((text (.object (field :: fields))).toList ++ rest) =
      (readFields d fuel ((textFields (field :: fields)).toList.tail ++ '\x7d' :: rest)).bind
        fun (fields, rest) => .ok (.object fields, rest) := by
  obtain ⟨key, v⟩ := field
  have hhead : (textFields ((key, v) :: fields)).toList.tail ++ '\x7d' :: rest =
      '"' :: (escaped key.toList ++ '"' :: ':' ::
        (v.text.toList ++ ((textFields fields).toList ++ '\x7d' :: rest))) := by
    simp [textFields_cons, quote_toList]
  have htext : (text (.object ((key, v) :: fields))).toList ++ rest =
      '\x7b' :: ((textFields ((key, v) :: fields)).toList.tail ++ '\x7d' :: rest) := by
    simp [text_object]
  rw [htext, hhead, readValue_object]

mutual

/-- The text of a legible value is read as the value, and nothing of what follows it. -/
theorem readValue_text : ∀ (v : Json) {d fuel : Nat} (rest : List Char), v.Legible →
    Follows rest → v.depth ≤ d → 2 * v.text.toList.length ≤ fuel →
    readValue d fuel (v.text.toList ++ rest) = .ok (v, rest)
  | v, d, 0, rest, h, _, _, hfuel => by
    have hpos := text_length_pos h
    omega
  | .null, d, fuel + 1, rest, _, _, _, _ => rfl
  | .bool true, d, fuel + 1, rest, _, _, _, _ => rfl
  | .bool false, d, fuel + 1, rest, _, _, _, _ => rfl
  | .number n, d, fuel + 1, rest, h, hrest, _, _ => readValue_number d fuel rest h hrest
  | .string s, d, fuel + 1, rest, _, _, _, _ => readValue_string d fuel rest s
  | .array [], d + 1, fuel + 1, rest, _, _, _, _ => rfl
  | .array (v :: vs), d + 1, fuel + 1, rest, h, hrest, hdepth, hfuel => by
    have hdepth : depthItems (v :: vs) + 1 ≤ d + 1 := hdepth
    rw [text_array_length] at hfuel
    rw [readValue_array_text h.1,
      readItems_text (v :: vs) _ (by simp) h (by omega) (by omega)]
    rfl
  | .object [], d + 1, fuel + 1, rest, _, _, _, _ => rfl
  | .object (field :: fields), d + 1, fuel + 1, rest, h, hrest, hdepth, hfuel => by
    have hdepth : depthFields (field :: fields) + 1 ≤ d + 1 := hdepth
    rw [text_object_length] at hfuel
    rw [readValue_object_text,
      readFields_text (field :: fields) _ (by simp) h.2 (by omega) (by omega)]
    rfl
  | .array items, 0, _, _, _, _, hdepth, _ => by
    have hdepth : depthItems items + 1 ≤ 0 := hdepth
    omega
  | .object fields, 0, _, _, _, _, hdepth, _ => by
    have hdepth : depthFields fields + 1 ≤ 0 := hdepth
    omega

/-- Items are read back from their text behind its first comma. -/
theorem readItems_text : ∀ (items : List Json) {d fuel : Nat} (rest : List Char), items ≠ [] →
    LegibleItems items → depthItems items ≤ d → 2 * (textItems items).toList.length ≤ fuel →
    readItems d fuel ((textItems items).toList.tail ++ ']' :: rest) = .ok (items, rest)
  | [], _, _, _, hne, _, _, _ => absurd rfl hne
  | v :: vs, d, fuel, rest, _, h, hdepth, hfuel => by
    obtain ⟨hv, hvs⟩ := h
    have hdepth : max v.depth (depthItems vs) ≤ d := hdepth
    rw [textItems_cons, List.length_cons, List.length_append] at hfuel
    obtain ⟨fuel, rfl⟩ : ∃ k, fuel = k + 1 := ⟨fuel - 1, by omega⟩
    rw [textItems_cons, List.tail_cons, List.append_assoc]
    by_cases hlast : vs = []
    · subst hlast
      exact readItems_last
        (readValue_text v _ hv (follows_cons (by simp) rest) (by omega) (by omega))
    · rw [textItems_tail hlast, List.cons_append,
        readItems_more (readValue_text v _ hv (follows_cons (by simp) _) (by omega) (by omega)),
        readItems_text vs _ hlast hvs (by omega) (by omega)]
      rfl

/-- Fields are read back from their text behind its first comma. -/
theorem readFields_text : ∀ (fields : List (String × Json)) {d fuel : Nat} (rest : List Char),
    fields ≠ [] → LegibleFields fields → depthFields fields ≤ d →
    2 * (textFields fields).toList.length ≤ fuel →
    readFields d fuel ((textFields fields).toList.tail ++ '\x7d' :: rest) = .ok (fields, rest)
  | [], _, _, _, hne, _, _, _ => absurd rfl hne
  | (key, v) :: fields, d, fuel, rest, _, h, hdepth, hfuel => by
    obtain ⟨hv, hfields⟩ := h
    have hdepth : max v.depth (depthFields fields) ≤ d := hdepth
    simp only [textFields_cons, List.length_cons, List.length_append] at hfuel
    obtain ⟨fuel, rfl⟩ : ∃ k, fuel = k + 1 := ⟨fuel - 1, by omega⟩
    rw [textFields_cons, List.tail_cons, List.append_assoc, List.cons_append, List.append_assoc,
      readFields_key]
    by_cases hlast : fields = []
    · subst hlast
      show (readValue d fuel (v.text.toList ++ '\x7d' :: rest)).bind _ = _
      rw [readValue_text v _ hv (follows_cons (by simp) rest) (by omega) (by omega)]
      rfl
    · rw [textFields_tail hlast, List.cons_append,
        readValue_text v _ hv (follows_cons (by simp) _) (by omega) (by omega)]
      show (readFields d fuel _).bind _ = _
      rw [readFields_text fields _ hlast hfields (by omega) (by omega)]
      rfl

end

/-! ## Values beyond the limit -/

mutual

/-- Reading a value that nests too deeply stops at a bracket. -/
theorem readValue_deep : ∀ (v : Json) {d fuel : Nat} (rest : List Char), v.Legible →
    Follows rest → d < v.depth → 2 * v.text.toList.length ≤ fuel →
    ∃ left, readValue d fuel (v.text.toList ++ rest) = .error (.tooDeep 0, left)
  | v, d, 0, rest, h, _, _, hfuel => by
    have hpos := text_length_pos h
    omega
  | .array [], 0, fuel + 1, rest, _, _, _, _ => ⟨_, readValue_closed fuel (.inl rfl) _⟩
  | .array [], d + 1, _, _, _, _, hdepth, _ => by
    have hdepth : d + 1 < 0 + 1 := hdepth
    omega
  | .array (v :: vs), 0, fuel + 1, rest, _, _, _, _ => by
    rw [text_array, List.cons_append]
    exact ⟨_, readValue_closed fuel (.inl rfl) _⟩
  | .array (v :: vs), d + 1, fuel + 1, rest, h, hrest, hdepth, hfuel => by
    have hdepth : d + 1 < depthItems (v :: vs) + 1 := hdepth
    rw [text_array_length] at hfuel
    obtain ⟨left, hread⟩ := readItems_deep (v :: vs) rest h (by omega : d < _)
      (by omega : 2 * _ ≤ fuel)
    exact ⟨left, by rw [readValue_array_text h.1, hread]; rfl⟩
  | .object [], 0, fuel + 1, rest, _, _, _, _ => ⟨_, readValue_closed fuel (.inr rfl) _⟩
  | .object [], d + 1, _, _, _, _, hdepth, _ => by
    have hdepth : d + 1 < 0 + 1 := hdepth
    omega
  | .object (field :: fields), 0, fuel + 1, rest, _, _, _, _ => by
    rw [text_object, List.cons_append]
    exact ⟨_, readValue_closed fuel (.inr rfl) _⟩
  | .object (field :: fields), d + 1, fuel + 1, rest, h, hrest, hdepth, hfuel => by
    have hdepth : d + 1 < depthFields (field :: fields) + 1 := hdepth
    rw [text_object_length] at hfuel
    obtain ⟨left, hread⟩ := readFields_deep (field :: fields) rest h.2
      (by omega : d < _) (by omega : 2 * _ ≤ fuel)
    exact ⟨left, by rw [readValue_object_text, hread]; rfl⟩

theorem readItems_deep : ∀ (items : List Json) {d fuel : Nat} (rest : List Char),
    LegibleItems items → d < depthItems items → 2 * (textItems items).toList.length ≤ fuel →
    ∃ left, readItems d fuel ((textItems items).toList.tail ++ ']' :: rest) =
      .error (.tooDeep 0, left)
  | v :: vs, d, fuel, rest, h, hdepth, hfuel => by
    obtain ⟨hv, hvs⟩ := h
    have hdepth : d < max v.depth (depthItems vs) := hdepth
    rw [textItems_cons, List.length_cons, List.length_append] at hfuel
    obtain ⟨fuel, rfl⟩ : ∃ k, fuel = k + 1 := ⟨fuel - 1, by omega⟩
    rw [textItems_cons, List.tail_cons, List.append_assoc]
    by_cases hhere : d < v.depth
    · obtain ⟨left, hread⟩ := readValue_deep v _ hv (follows_items vs rest) hhere
        (by omega : 2 * _ ≤ fuel)
      exact ⟨left, readItems_fault hread⟩
    · -- The bracket is in one of the items to come.
      have hlast : vs ≠ [] := by
        rintro rfl
        have hnone : depthItems [] = 0 := rfl
        omega
      obtain ⟨left, hread⟩ := readItems_deep vs rest hvs (by omega : d < _)
        (by omega : 2 * _ ≤ fuel)
      refine ⟨left, ?_⟩
      rw [textItems_tail hlast, List.cons_append,
        readItems_more (readValue_text v _ hv (follows_cons (by simp) _) (by omega) (by omega)),
        hread]
      rfl

theorem readFields_deep : ∀ (fields : List (String × Json)) {d fuel : Nat} (rest : List Char),
    LegibleFields fields → d < depthFields fields →
    2 * (textFields fields).toList.length ≤ fuel →
    ∃ left, readFields d fuel ((textFields fields).toList.tail ++ '\x7d' :: rest) =
      .error (.tooDeep 0, left)
  | (key, v) :: fields, d, fuel, rest, h, hdepth, hfuel => by
    obtain ⟨hv, hfields⟩ := h
    have hdepth : d < max v.depth (depthFields fields) := hdepth
    simp only [textFields_cons, List.length_cons, List.length_append] at hfuel
    obtain ⟨fuel, rfl⟩ : ∃ k, fuel = k + 1 := ⟨fuel - 1, by omega⟩
    rw [textFields_cons, List.tail_cons, List.append_assoc, List.cons_append, List.append_assoc,
      readFields_key]
    by_cases hhere : d < v.depth
    · obtain ⟨left, hread⟩ := readValue_deep v _ hv (follows_fields fields rest) hhere
        (by omega : 2 * _ ≤ fuel)
      exact ⟨left, by rw [hread]; rfl⟩
    · have hlast : fields ≠ [] := by
        rintro rfl
        have hnone : depthFields [] = 0 := rfl
        omega
      obtain ⟨left, hread⟩ := readFields_deep fields rest hfields (by omega : d < _)
        (by omega : 2 * _ ≤ fuel)
      refine ⟨left, ?_⟩
      rw [textFields_tail hlast, List.cons_append,
        readValue_text v _ hv (follows_cons (by simp) _) (by omega) (by omega)]
      show (readFields d fuel _).bind _ = _
      rw [hread]
      rfl

end

/-! ## Whole texts -/

theorem set_absent {fields : Fields} {key : String} (h : key ∉ Entries.keys fields) (v : Json) :
    Entries.set fields key v = fields ++ [(key, v)] := by
  induction fields with
  | nil => rfl
  | cons field rest ih =>
    obtain ⟨k, w⟩ := field
    simp only [Entries.keys, List.map_cons, List.mem_cons, not_or] at h
    rw [Entries.set, if_neg (Ne.symm h.1), ih h.2]
    rfl

mutual

/-- A legible value has no key twice. -/
theorem collapse_legible : ∀ (v : Json), v.Legible → v.collapse = v
  | .null, _ => rfl
  | .bool _, _ => rfl
  | .number _, _ => rfl
  | .string _, _ => rfl
  | .array items, h => by rw [collapse, collapseItems_legible items h]
  | .object fields, h => by rw [collapse, collapseFields_legible fields [] h.1 h.2]; rfl

theorem collapseItems_legible : ∀ (items : List Json), LegibleItems items →
    collapseItems items = items
  | [], _ => rfl
  | v :: rest, h => by
    rw [collapseItems, collapse_legible v h.1, collapseItems_legible rest h.2]

theorem collapseFields_legible : ∀ (fields acc : List (String × Json)),
    (Entries.keys (acc ++ fields)).Nodup → LegibleFields fields →
    collapseFields acc fields = acc ++ fields
  | [], acc, _, _ => by rw [collapseFields, List.append_nil]
  | (key, v) :: rest, acc, once, h => by
    have habsent : key ∉ Entries.keys acc := by
      rw [Entries.keys, List.map_append, List.nodup_append] at once
      intro hmem
      exact once.2.2 key hmem key (by simp) rfl
    rw [collapseFields, collapse_legible v h.1, set_absent habsent,
      collapseFields_legible rest (acc ++ [(key, v)]) (by simpa using once) h.2]
    simp

end

/-- A legible value that nests no deeper than may be read is read back from its text. -/
theorem read_text {v : Json} (h : v.Legible) (hdepth : v.depth ≤ depthLimit) :
    read v.text = .ok v := by
  have hvalue := readValue_text v [] h follows_nil hdepth
    (show 2 * v.text.toList.length ≤ 2 * v.text.toList.length + 2 by omega)
  rw [List.append_nil] at hvalue
  simp only [read, readRaw, readFirst, hvalue]
  show Except.ok v.collapse = _
  rw [collapse_legible v h]

/-- A legible value that nests deeper is not. -/
theorem read_text_deep {v : Json} (h : v.Legible) (hdepth : depthLimit < v.depth) :
    ∃ column, read v.text = .error (.tooDeep column) := by
  obtain ⟨left, hvalue⟩ := readValue_deep v [] h follows_nil hdepth
    (show 2 * v.text.toList.length ≤ 2 * v.text.toList.length + 2 by omega)
  rw [List.append_nil] at hvalue
  refine ⟨columnOf v.text.toList left, ?_⟩
  simp only [read, readRaw, readFirst, hvalue]
  rfl

end Dialogue.Json
