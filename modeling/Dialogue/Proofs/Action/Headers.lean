import Mathlib.Data.List.Induction
import Mathlib.Data.List.Nodup
import Dialogue.Action.ApiCall

/-!
The headers of an outbound request.

Headers are set one after another, and one that is set takes the place of the one with its name in
any case (`setHeader_cases`). So what was set before stays as it is, but for that name, and
`Merged` is kept by every header that is set (`Merged.set`): each name is there once, at its first
place, as it was set last.
-/
namespace Dialogue.ApiCall

/-! ## Names -/

/-- A name with its ASCII letters in lower case. -/
def folded (name : String) : List Char := name.toList.map Char.toLower

theorem sameIgnoringAsciiCase_iff {s t : String} :
    Text.sameIgnoringAsciiCase s t = true ↔ folded s = folded t := decide_eq_true_iff

theorem sameIgnoringAsciiCase_eq_false_iff {s t : String} :
    Text.sameIgnoringAsciiCase s t = false ↔ folded s ≠ folded t := decide_eq_false_iff_not

/-- The names of headers up to case, in order. -/
def names (headers : List (String × String)) : List (List Char) :=
  headers.map fun header => folded header.1

/-- A header has the name, in some case. -/
def Named (headers : List (String × String)) (name : String) : Prop :=
  ∃ header ∈ headers, Text.sameIgnoringAsciiCase header.1 name = true

theorem named_iff {headers : List (String × String)} {name : String} :
    Named headers name ↔ folded name ∈ names headers := by
  simp [Named, names, sameIgnoringAsciiCase_iff]

/-! ## One header -/

/-- A header takes the place of the first one with its name, or comes last. -/
theorem setHeader_cases (headers : List (String × String)) (name text : String) :
    (∃ before old after, headers = before ++ old :: after ∧ folded old.1 = folded name ∧
      setHeader headers name text = before ++ (name, text) :: after) ∨
    (folded name ∉ names headers ∧ setHeader headers name text = headers ++ [(name, text)]) := by
  induction headers with
  | nil => exact .inr ⟨List.not_mem_nil, rfl⟩
  | cons header rest ih =>
    obtain ⟨n, v⟩ := header
    rw [setHeader]
    split
    · next hsame => exact .inl ⟨[], (n, v), rest, rfl, sameIgnoringAsciiCase_iff.mp hsame, rfl⟩
    · next hother =>
      have hne : folded name ≠ folded n := fun h => hother (sameIgnoringAsciiCase_iff.mpr h.symm)
      rcases ih with ⟨before, old, after, rfl, hold, hset⟩ | ⟨hnew, hset⟩
      · exact .inl ⟨(n, v) :: before, old, after, rfl, hold, by rw [hset]; rfl⟩
      · refine .inr ⟨?_, by rw [hset]; rfl⟩
        rw [names, List.map_cons, List.mem_cons, not_or]
        exact ⟨hne, hnew⟩

/-- The names stay, or the one that is not there yet comes last. -/
theorem names_setHeader (headers : List (String × String)) (name text : String) :
    names (setHeader headers name text) =
      if folded name ∈ names headers then names headers else names headers ++ [folded name] := by
  rcases setHeader_cases headers name text with ⟨before, old, after, rfl, hold, hset⟩ | ⟨hnew, hset⟩
  · have hmem : folded name ∈ names (before ++ old :: after) := by simp [names, hold]
    rw [hset, if_pos hmem]
    simp [names, hold]
  · rw [hset, if_neg hnew]
    simp [names]

/-- Beside the header that is set there are those that were there under other names. -/
theorem mem_setHeader {headers : List (String × String)} {name text : String}
    (once : (names headers).Nodup) {header : String × String}
    (h : header ∈ setHeader headers name text) :
    header = (name, text) ∨ header ∈ headers ∧ folded header.1 ≠ folded name := by
  rcases setHeader_cases headers name text with ⟨before, old, after, rfl, hold, hset⟩ | ⟨hnew, hset⟩
  · have hothers : folded name ∉ names (before ++ after) := by
      have hmiddle : (names before ++ folded old.1 :: names after).Nodup := by
        simpa [names] using once
      rw [List.nodup_middle, List.nodup_cons, hold] at hmiddle
      simpa [names] using hmiddle.1
    rw [hset, List.perm_middle.mem_iff, List.mem_cons] at h
    refine h.imp_right fun hmem => ⟨?_, fun hsame => hothers (hsame ▸ List.mem_map_of_mem hmem)⟩
    exact List.perm_middle.mem_iff.mpr (List.mem_cons_of_mem _ hmem)
  · rw [hset, List.mem_append, List.mem_singleton] at h
    exact h.symm.imp_right fun hmem => ⟨hmem, fun hsame => hnew (hsame ▸ List.mem_map_of_mem hmem)⟩

/-! ## All headers -/

/-- The header that a configuration gives for a name: the last one of that name, filled in; and JSON
content unless the configuration names the content type. -/
inductive Prevails (scope : Json) (configured : Entries String) : String × String → Prop where
  | last (before : Entries String) (name value : String) (after : Entries String)
      (place : configured = before ++ (name, value) :: after)
      (last : ∀ entry ∈ after, Text.sameIgnoringAsciiCase entry.1 name = false) :
      Prevails scope configured (name, Template.interpolatePaths value scope)
  | default (unnamed : ∀ entry ∈ configured,
      Text.sameIgnoringAsciiCase entry.1 "Content-Type" = false) :
      Prevails scope configured ("Content-Type", "application/json")

/-- An entry of another name changes nothing. -/
theorem Prevails.concat {scope : Json} {configured : Entries String} {header : String × String}
    (h : Prevails scope configured header) {entry : String × String}
    (hother : folded header.1 ≠ folded entry.1) :
    Prevails scope (configured ++ [entry]) header := by
  have hmore : ∀ {entries : Entries String},
      (∀ e ∈ entries, Text.sameIgnoringAsciiCase e.1 header.1 = false) →
      ∀ e ∈ entries ++ [entry], Text.sameIgnoringAsciiCase e.1 header.1 = false := by
    intro entries hentries e he
    rcases List.mem_append.mp he with he | he
    · exact hentries e he
    · obtain rfl := List.mem_singleton.mp he
      exact sameIgnoringAsciiCase_eq_false_iff.mpr hother.symm
  cases h with
  | last before name value after place last =>
    exact .last before name value (after ++ [entry]) (by simp [place]) (hmore last)
  | default unnamed => exact .default (hmore unnamed)

/-- What the headers are when those of a configuration have been set. -/
structure Merged (scope : Json) (configured : Entries String)
    (headers : List (String × String)) : Prop where
  once : (names headers).Nodup
  order : names headers = (folded "Content-Type" :: names configured).eraseDups
  prevail : ∀ header ∈ headers, Prevails scope configured header

theorem merged_nil (scope : Json) : Merged scope [] [("Content-Type", "application/json")] where
  once := List.nodup_singleton _
  order := rfl
  prevail := by
    intro header hheader
    obtain rfl := List.mem_singleton.mp hheader
    exact .default fun entry hentry => absurd hentry List.not_mem_nil

/-- A further name comes last, unless it was there before. -/
theorem eraseDups_concat (ns : List (List Char)) (n : List Char) :
    (ns ++ [n]).eraseDups = if n ∈ ns then ns.eraseDups else ns.eraseDups ++ [n] := by
  have hone : [n].eraseDups = [n] := rfl
  rw [List.eraseDups_append]
  split
  · next hold => simp [List.removeAll, hold]
  · next hnew => simp [List.removeAll, hnew, hone]

theorem Merged.set {scope : Json} {configured : Entries String} {headers : List (String × String)}
    (h : Merged scope configured headers) (name value : String) :
    Merged scope (configured ++ [(name, value)])
      (setHeader headers name (Template.interpolatePaths value scope)) where
  once := by
    rw [names_setHeader]
    split
    · exact h.once
    · next hnew => simpa using h.once.concat hnew
  order := by
    have hnames : folded "Content-Type" :: names (configured ++ [(name, value)]) =
        (folded "Content-Type" :: names configured) ++ [folded name] := by simp [names]
    rw [names_setHeader, hnames, eraseDups_concat, h.order]
    simp only [List.mem_eraseDups]
  prevail := by
    intro header hheader
    rcases mem_setHeader h.once hheader with rfl | ⟨hheader, hother⟩
    · exact .last configured name value [] rfl fun entry hentry => absurd hentry List.not_mem_nil
    · exact (h.prevail header hheader).concat hother

theorem headersFor_merged (scope : Json) (configured : Entries String) :
    Merged scope configured (headersFor scope configured) := by
  induction configured using List.reverseRecOn with
  | nil => exact merged_nil scope
  | append_singleton configured entry ih =>
    rw [headersFor, List.foldl_append]
    exact ih.set entry.1 entry.2

/-- The headers of a request have each name once in any case: that of the content type and those of
the configuration, and no other. Each has the spelling and the value that the configuration gives
last for its name. The content type comes first, and then each other name at the place of its first
occurrence. -/
theorem request_headers (scope : Json) (c : ApiCall) :
    let headers := (c.request scope).headers
    headers.Pairwise (fun h h' => Text.sameIgnoringAsciiCase h.1 h'.1 = false) ∧
    (∀ name, Named headers name ↔
      Text.sameIgnoringAsciiCase "Content-Type" name = true ∨ Named c.headers name) ∧
    (∀ header ∈ headers, Prevails scope c.headers header) ∧
    names headers = folded "Content-Type" ::
      ((names c.headers).filter (· != folded "Content-Type")).eraseDups := by
  intro headers
  have h : Merged scope c.headers headers := headersFor_merged scope c.headers
  refine ⟨?_, fun name => ?_, h.prevail, ?_⟩
  · have hpairs := List.pairwise_map.mp h.once
    exact hpairs.imp fun hne => sameIgnoringAsciiCase_eq_false_iff.mpr hne
  · rw [named_iff, named_iff, h.order, List.mem_eraseDups, List.mem_cons, sameIgnoringAsciiCase_iff,
      eq_comm]
  · rw [h.order, List.eraseDups_cons]
    rfl

/-- The last spelling and value, at the first place. -/
example : headersFor .null [("x-id", "1"), ("content-type", "text/plain"), ("X-ID", "2")] =
    [("content-type", "text/plain"), ("X-ID", "2")] := by decide +kernel

end Dialogue.ApiCall
