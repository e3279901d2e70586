import Dialogue.Proofs.Template.Filling
import Dialogue.Proofs.Text.Trimming

/-!
Documents and texts are filled in alike.

A string of a document is filled in by two ways: a string that is a path in doubled braces and
nothing else becomes the value at that path, and any other is filled in as a text. As a whole token
is the one piece of its text, the two agree on what the text shows (`display_interpolateString`).
Arrays and objects keep their shape, and a document without doubled opening braces stays as it is
(`interpolateDeep_plain`).
-/
namespace Dialogue

namespace Json

mutual

/-- The strings within a value; the keys of its objects are none of them. -/
def strings : Json → List String
  | .string s => [s]
  | .array items => stringsItems items
  | .object fields => stringsFields fields
  | _ => []

def stringsItems : List Json → List String
  | [] => []
  | v :: rest => v.strings ++ stringsItems rest

def stringsFields : List (String × Json) → List String
  | [] => []
  | (_, v) :: rest => v.strings ++ stringsFields rest

end

end Json

namespace Template

variable {scope : Json}

/-- A path in doubled braces. -/
def tokenOf (path : String) : String := "\x7b\x7b" ++ path ++ "\x7d\x7d"

/-- What can stand in doubled braces: anything without braces, and something. -/
def IsPath (path : String) : Prop := path ≠ "" ∧ ∀ c ∈ path.toList, notBrace c = true

/-! ## Whole tokens -/

theorem tokenOf_toList (path : String) :
    (tokenOf path).toList = '\x7b' :: '\x7b' :: (path.toList ++ ['\x7d', '\x7d']) := by
  rw [tokenOf, String.toList_append, String.toList_append]
  simp

/-- Blanks around a path do not count. -/
theorem lookupChars_trimmed (scope : Json) (path : List Char) :
    lookupChars scope (Text.trimChars path) = lookupChars scope path := by
  simp only [lookupChars, Text.trimChars_trimChars]

/-- A token that is a string as a whole is a path in doubled braces. -/
theorem pathToken?_whole {s : String} {t : Token} :
    (pathToken? s.toList = some t ∧ t.length = s.length) ↔
      ∃ path, IsPath path ∧ s = tokenOf path ∧
        t = ⟨s.length, Text.trimChars path.toList, false⟩ := by
  rw [pathToken?_eq_some]
  constructor
  · rintro ⟨⟨body, rest, hne, hbody, hs, rfl⟩, hlength⟩
    have hcount := congrArg List.length hs
    simp only [List.length_cons, List.length_append, String.length_toList] at hcount
    have hrest : rest = [] := List.length_eq_zero_iff.mp (by dsimp only at hlength; omega)
    refine ⟨String.ofList body, ⟨?_, ?_⟩, ?_, ?_⟩
    · intro h
      rw [← String.toList_inj, String.toList_ofList] at h
      exact hne h
    · rwa [String.toList_ofList]
    · rw [← String.toList_inj, hs, tokenOf_toList, String.toList_ofList, hrest]
    · rw [String.toList_ofList, ← hlength]
  · rintro ⟨path, ⟨hne, hpath⟩, rfl, rfl⟩
    have hlength : (tokenOf path).length = path.toList.length + 4 := by
      rw [← String.length_toList, tokenOf_toList]
      simp
    refine ⟨⟨path.toList, [], ?_, hpath, tokenOf_toList path, ?_⟩, rfl⟩
    · intro h
      exact hne (String.toList_inj.mp h)
    · rw [hlength]

/-- A path in doubled braces becomes the value at the path. -/
theorem interpolateString_token {path : String} (hpath : IsPath path) {v : Json}
    (hv : lookupPath scope path = some v) : interpolateString (tokenOf path) scope = v := by
  obtain ⟨htoken, hlength⟩ := pathToken?_whole.mpr ⟨path, hpath, rfl, rfl⟩
  have hbody := lookupChars_trimmed scope path.toList
  rw [show lookupChars scope path.toList = some v from hv] at hbody
  simp [interpolateString, htoken, hbody]

/-- Any other string is filled in as a text. -/
theorem interpolateString_text {s : String}
    (h : ∀ path, IsPath path → s = tokenOf path → lookupPath scope path = none) :
    interpolateString s scope = .string (interpolatePaths s scope) := by
  rw [interpolateString]
  cases htoken : pathToken? s.toList with
  | none => rfl
  | some t =>
    by_cases hlength : t.length = s.length
    · obtain ⟨path, hpath, hs, rfl⟩ := pathToken?_whole.mp ⟨htoken, hlength⟩
      have hnone : lookupChars scope path.toList = none := h path hpath hs
      simp [lookupChars_trimmed, hnone]
    · simp [hlength]

/-- The text of a path in doubled braces is that of the value. -/
theorem interpolatePaths_token {path : String} (hpath : IsPath path) {v : Json}
    (hv : lookupPath scope path = some v) : interpolatePaths (tokenOf path) scope = v.display := by
  obtain ⟨htoken, -⟩ := pathToken?_whole.mpr ⟨path, hpath, rfl, rfl⟩
  have hne : (tokenOf path).toList ≠ [] := by simp [tokenOf_toList]
  rw [← List.append_nil (tokenOf path).toList] at htoken
  have hwhole := pieces_token htoken String.length_toList.symm hne
  rw [List.append_nil] at hwhole
  have hbody := lookupChars_trimmed scope path.toList
  rw [show lookupChars scope path.toList = some v from hv] at hbody
  rw [interpolatePaths, hwhole, ← String.toList_inj, fill_toList]
  simp [Piece.written, tokenText?, hbody, pieces, piecesFrom]

/-- Filled in within a document or as a text, a string shows the same. -/
theorem display_interpolateString (scope : Json) (s : String) :
    (interpolateString s scope).display = interpolatePaths s scope := by
  by_cases h : ∃ path, IsPath path ∧ s = tokenOf path ∧ lookupPath scope path ≠ none
  · obtain ⟨path, hpath, rfl, hsome⟩ := h
    obtain ⟨v, hv⟩ := Option.ne_none_iff_exists'.mp hsome
    rw [interpolateString_token hpath hv, interpolatePaths_token hpath hv]
  · rw [interpolateString_text]
    · rfl
    · intro path hpath hs
      by_contra hsome
      exact h ⟨path, hpath, hs, hsome⟩

/-! ## Documents -/

theorem interpolateItems_eq (scope : Json) (items : List Json) :
    interpolateItems scope items = items.map (interpolateDeep scope) := by
  induction items with
  | nil => rfl
  | cons v rest ih => rw [interpolateItems, ih, List.map_cons]

theorem interpolateFields_eq (scope : Json) (fields : List (String × Json)) :
    interpolateFields scope fields =
      fields.map fun (key, v) => (key, interpolateDeep scope v) := by
  induction fields with
  | nil => rfl
  | cons field rest ih =>
    obtain ⟨key, v⟩ := field
    rw [interpolateFields, ih, List.map_cons]

/-- A piece stands at the front of what is left of the text, if it stands anywhere. -/
theorem occursIn_append {piece after : List Char} (h : Text.startsWith piece after = true)
    (before : List Char) : Text.occursIn piece (before ++ after) = true := by
  induction before with
  | nil =>
    cases after with
    | nil => cases piece <;> simp_all [Text.startsWith, Text.occursIn]
    | cons c rest =>
      rw [Text.startsWith] at h
      simp [Text.occursIn, h]
  | cons c before ih =>
    rw [List.cons_append, Text.occursIn, ih, Bool.or_true]

/-- Where no doubled brace opens, there is no token. -/
theorem interpolatePaths_plain {s : String} (h : Text.containsText s "\x7b\x7b" = false) :
    interpolatePaths s scope = s := by
  rw [interpolatePaths, ← String.toList_inj, fill_toList]
  apply written_plain
  intro before after hs
  rw [Option.eq_none_iff_forall_not_mem]
  intro t ht
  obtain ⟨body, rest, -, -, hafter, -⟩ := pathToken?_eq_some.mp ht
  have hstarts : Text.startsWith ['\x7b', '\x7b'] after = true := by
    rw [hafter]
    simp [Text.startsWith]
  have hoccurs := occursIn_append hstarts before
  rw [← hs] at hoccurs
  rw [Text.containsText, show "\x7b\x7b".toList = ['\x7b', '\x7b'] from rfl, hoccurs] at h
  exact absurd h (by decide)

theorem interpolateString_plain {s : String} (h : Text.containsText s "\x7b\x7b" = false) :
    interpolateString s scope = .string s := by
  rw [interpolateString_text, interpolatePaths_plain h]
  rintro path - rfl
  have hoccurs : Text.occursIn ['\x7b', '\x7b'] (tokenOf path).toList = true := by
    rw [tokenOf_toList]
    exact occursIn_append (by simp [Text.startsWith]) []
  rw [Text.containsText, show "\x7b\x7b".toList = ['\x7b', '\x7b'] from rfl, hoccurs] at h
  exact absurd h (by decide)

mutual

/-- A document in whose strings no doubled brace opens stays as it is. -/
theorem interpolateDeep_plain : ∀ (v : Json),
    (∀ s ∈ v.strings, Text.containsText s "\x7b\x7b" = false) → interpolateDeep scope v = v
  | .null, _ => rfl
  | .bool _, _ => rfl
  | .number _, _ => rfl
  | .string s, h => interpolateString_plain (h s List.mem_cons_self)
  | .array items, h => congrArg Json.array (interpolateItems_plain items h)
  | .object fields, h => congrArg Json.object (interpolateFields_plain fields h)

theorem interpolateItems_plain : ∀ (items : List Json),
    (∀ s ∈ Json.stringsItems items, Text.containsText s "\x7b\x7b" = false) →
      interpolateItems scope items = items
  | [], _ => rfl
  | v :: rest, h => by
    rw [interpolateItems, interpolateDeep_plain v fun s hs => h s (List.mem_append_left _ hs),
      interpolateItems_plain rest fun s hs => h s (List.mem_append_right _ hs)]

theorem interpolateFields_plain : ∀ (fields : List (String × Json)),
    (∀ s ∈ Json.stringsFields fields, Text.containsText s "\x7b\x7b" = false) →
      interpolateFields scope fields = fields
  | [], _ => rfl
  | (key, v) :: rest, h => by
    rw [interpolateFields, interpolateDeep_plain v fun s hs => h s (List.mem_append_left _ hs),
      interpolateFields_plain rest fun s hs => h s (List.mem_append_right _ hs)]

end

/-- A document is filled in string by string and keeps its shape. A string shows what it would show
as a text; it becomes a value of another kind only if it is a path in doubled braces and nothing
else, and the path leads to that value. All else stays as it is, and so does a document in whose
strings no doubled brace opens. -/
theorem interpolateDeep_shape (scope : Json) :
    (∀ s, (interpolateDeep scope (.string s)).display = interpolatePaths s scope) ∧
    (∀ path v, IsPath path → lookupPath scope path = some v →
      interpolateDeep scope (.string (tokenOf path)) = v) ∧
    (∀ s, (∀ path, IsPath path → s = tokenOf path → lookupPath scope path = none) →
      interpolateDeep scope (.string s) = .string (interpolatePaths s scope)) ∧
    (∀ items, interpolateDeep scope (.array items) =
      .array (items.map (interpolateDeep scope))) ∧
    (∀ fields, interpolateDeep scope (.object fields) =
      .object (fields.map fun (key, v) => (key, interpolateDeep scope v))) ∧
    (∀ v : Json, v.string? = none → v.items? = none → v.fields? = none →
      interpolateDeep scope v = v) ∧
    (∀ v : Json, (∀ s ∈ v.strings, Text.containsText s "\x7b\x7b" = false) →
      interpolateDeep scope v = v) := by
  refine ⟨display_interpolateString scope, fun path v hpath hv => interpolateString_token hpath hv,
    fun s h => interpolateString_text h, ?_, ?_, ?_, interpolateDeep_plain⟩
  · intro items
    rw [interpolateDeep, interpolateItems_eq]
  · intro fields
    rw [interpolateDeep, interpolateFields_eq]
  · intro v hstring hitems hfields
    cases v with
    | string s => cases hstring
    | array items => cases hitems
    | object fields => cases hfields
    | _ => rfl

/-- The body of a request: an amount stays a number, and a name is filled in within its text. -/
theorem interpolateDeep_shape_donation :
    let scope : Json := .object [("amount", .ofInt 3000), ("name", .string "Aiko")]
    IsPath " amount " ∧ lookupPath scope " amount " = some (.ofInt 3000) ∧
    interpolateDeep scope (.string (tokenOf " amount ")) = .ofInt 3000 ∧
    (∀ path, IsPath path → "from \x7b\x7bname\x7d\x7d" = tokenOf path →
      lookupPath scope path = none) ∧
    interpolateDeep scope (.string "from \x7b\x7bname\x7d\x7d") = .string "from Aiko" ∧
    (∀ s ∈ (Json.array [.string "a \x7bname\x7d", .bool true]).strings,
      Text.containsText s "\x7b\x7b" = false) ∧
    interpolateDeep scope (.array [.string "a \x7bname\x7d", .bool true]) =
      .array [.string "a \x7bname\x7d", .bool true] := by
  intro scope
  obtain ⟨-, hwhole, htext, -, -, -, hplain⟩ := interpolateDeep_shape scope
  have hpath : IsPath " amount " := ⟨by decide, List.all_eq_true.mp (by decide)⟩
  have hvalue : lookupPath scope " amount " = some (.ofInt 3000) := rfl
  have hother : ∀ path, IsPath path → "from \x7b\x7bname\x7d\x7d" = tokenOf path →
      lookupPath scope path = none := by
    intro path _ hsame
    have hhead := congrArg (fun s => s.toList.head?) hsame
    rw [tokenOf_toList, List.head?_cons] at hhead
    exact absurd hhead (by decide)
  have hstrings : ∀ s ∈ (Json.array [.string "a \x7bname\x7d", .bool true]).strings,
      Text.containsText s "\x7b\x7b" = false := by decide
  refine ⟨hpath, hvalue, hwhole _ _ hpath hvalue, hother, ?_, hstrings, hplain _ hstrings⟩
  rw [htext _ hother]
  rfl

end Template

end Dialogue
