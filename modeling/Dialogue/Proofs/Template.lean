import Dialogue.Proofs.Json.RoundTrip
import Dialogue.Template

/-!
Filling in legible documents.

What a path leads to in a legible scope is legible, and filling in keeps the keys of objects, so a
legible document filled in from a legible scope is legible (`interpolateDeep_legible`). Its depth
has no bound in the document: a string of the document can become a whole value of the scope.
-/
namespace Dialogue

namespace Json

theorem legible_of_get? {fields : Fields} (h : LegibleFields fields) {key : String} {v : Json}
    (hv : Entries.get? fields key = some v) : v.Legible := by
  induction fields with
  | nil => cases hv
  | cons field rest ih =>
    obtain ⟨k, w⟩ := field
    rw [Entries.get?] at hv
    split at hv
    · cases hv
      exact h.1
    · exact ih h.2 hv

theorem legible_of_getElem? {items : List Json} (h : LegibleItems items) {n : Nat} {v : Json}
    (hv : items[n]? = some v) : v.Legible := by
  induction items generalizing n with
  | nil => cases hv
  | cons w rest ih =>
    cases n with
    | zero =>
      cases hv
      exact h.1
    | succ n => exact ih h.2 hv

end Json

namespace Template

variable {scope : Json}

theorem descend_legible {v w : Json} (h : v.Legible) {segment : List Char}
    (hw : descend v segment = some w) : w.Legible := by
  cases v with
  | object fields => exact Json.legible_of_get? h.2 hw
  | array items =>
    obtain ⟨n, -, hn⟩ := Option.bind_eq_some_iff.mp hw
    exact Json.legible_of_getElem? h hn
  | _ => cases hw

theorem lookupChars_legible (h : scope.Legible) {path : List Char} {v : Json}
    (hv : lookupChars scope path = some v) : v.Legible := by
  have hdescend (segments : List (List Char)) (w : Json) (hw : w.Legible)
      (hv : segments.foldlM descend w = some v) : v.Legible := by
    induction segments generalizing w with
    | nil =>
      cases hv
      exact hw
    | cons segment segments ih =>
      rw [List.foldlM_cons] at hv
      obtain ⟨next, hnext, hv⟩ := Option.bind_eq_some_iff.mp hv
      exact ih next (descend_legible hw hnext) hv
  rw [lookupChars] at hv
  split at hv
  · cases hv
  · exact hdescend _ scope h hv

theorem interpolateString_legible (h : scope.Legible) (s : String) :
    (interpolateString s scope).Legible := by
  have hwhole : ∀ v, ((pathToken? s.toList).bind fun t =>
      if t.length = s.length then lookupChars scope t.body else none) = some v → v.Legible := by
    intro v hv
    obtain ⟨t, -, hv⟩ := Option.bind_eq_some_iff.mp hv
    split at hv
    · exact lookupChars_legible h hv
    · cases hv
  have hstring : interpolateString s scope = ((pathToken? s.toList).bind fun t =>
      if t.length = s.length then lookupChars scope t.body else none).getD
        (.string (interpolatePaths s scope)) := rfl
  rw [hstring]
  cases hv : (pathToken? s.toList).bind fun t =>
      if t.length = s.length then lookupChars scope t.body else none with
  | none => trivial
  | some v => exact hwhole v hv

theorem interpolateFields_keys (scope : Json) (fields : List (String × Json)) :
    Entries.keys (interpolateFields scope fields) = Entries.keys fields := by
  induction fields with
  | nil => rfl
  | cons field rest ih =>
    simp only [Entries.keys] at ih
    simp [interpolateFields, Entries.keys, ih]

mutual

/-- A legible document that is filled in from a legible scope is legible. -/
theorem interpolateDeep_legible : ∀ (v : Json), scope.Legible → v.Legible →
    (interpolateDeep scope v).Legible
  | .null, _, _ => trivial
  | .bool _, _, _ => trivial
  | .number _, _, h => h
  | .string s, hscope, _ => interpolateString_legible hscope s
  | .array items, hscope, h => interpolateItems_legible items hscope h
  | .object fields, hscope, h => by
    refine ⟨?_, interpolateFields_legible fields hscope h.2⟩
    rw [interpolateFields_keys]
    exact h.1

theorem interpolateItems_legible : ∀ (items : List Json), scope.Legible →
    Json.LegibleItems items → Json.LegibleItems (interpolateItems scope items)
  | [], _, _ => trivial
  | v :: rest, hscope, h =>
    ⟨interpolateDeep_legible v hscope h.1, interpolateItems_legible rest hscope h.2⟩

theorem interpolateFields_legible : ∀ (fields : List (String × Json)), scope.Legible →
    Json.LegibleFields fields → Json.LegibleFields (interpolateFields scope fields)
  | [], _, _ => trivial
  | (_, v) :: rest, hscope, h =>
    ⟨interpolateDeep_legible v hscope h.1, interpolateFields_legible rest hscope h.2⟩

end

end Template

end Dialogue
