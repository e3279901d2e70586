import Dialogue.Text.Blank
import Mathlib.Data.List.DropRight
import Mathlib.Data.List.TakeWhile

/-!
What trimming leaves.

A text that has no blank at either end is left as it is, without the blanks around it
(`trimChars_padded`). What trimming leaves is such a text, so that trimming again changes nothing
(`trimChars_trimChars`), and it makes no difference which end is trimmed first
(`trimFront_trimBack`).
-/
namespace Dialogue.Text

/-- A text of blanks. -/
def Blanks (cs : List Char) : Prop := ∀ c ∈ cs, isBlank c = true

/-- A text that ends in no blank; the empty one does not. -/
def EndsPlain (cs : List Char) : Prop := ∀ c ∈ cs.getLast?, isBlank c = false

/-- A text that begins with no blank; the empty one does not. -/
def BeginsPlain (cs : List Char) : Prop := ∀ c ∈ cs.head?, isBlank c = false

theorem trimBack_eq (cs : List Char) : trimBack cs = cs.rdropWhile isBlank := rfl

theorem trimFront_of_beginsPlain {cs : List Char} (h : BeginsPlain cs) : trimFront cs = cs := by
  cases cs with
  | nil => rfl
  | cons c rest => simp [trimFront, h c rfl]

theorem trimBack_of_endsPlain {cs : List Char} (h : EndsPlain cs) : trimBack cs = cs := by
  rw [trimBack_eq, List.rdropWhile_eq_self_iff]
  intro hne
  rw [h _ (List.getLast?_eq_getLast_of_ne_nil hne)]
  exact Bool.false_ne_true

theorem trimFront_beginsPlain (cs : List Char) : BeginsPlain (trimFront cs) := by
  intro c hc
  have hhead := List.head?_dropWhile_not isBlank cs
  rw [show (cs.dropWhile isBlank).head? = some c from hc] at hhead
  simpa using hhead

theorem trimBack_endsPlain (cs : List Char) : EndsPlain (trimBack cs) := by
  intro c hc
  rw [trimBack, List.getLast?_reverse] at hc
  exact trimFront_beginsPlain cs.reverse c hc

/-- Trimming at the back keeps the front. -/
theorem BeginsPlain.trimBack {cs : List Char} (h : BeginsPlain cs) :
    BeginsPlain (Text.trimBack cs) := by
  intro c hc
  obtain ⟨rest, hrest⟩ : Text.trimBack cs <+: cs := List.rdropWhile_prefix isBlank cs
  apply h c
  rw [← hrest]
  exact List.mem_head?_append_of_mem_head? hc

theorem trimFront_append {blanks : List Char} (h : Blanks blanks) (cs : List Char) :
    trimFront (blanks ++ cs) = trimFront cs :=
  List.dropWhile_append_of_pos h

theorem trimBack_append {blanks : List Char} (h : Blanks blanks) (cs : List Char) :
    trimBack (cs ++ blanks) = trimBack cs := by
  have hback : Blanks blanks.reverse := fun c hc => h c (List.mem_reverse.mp hc)
  rw [trimBack, List.reverse_append, List.dropWhile_append_of_pos hback, trimBack]

theorem BeginsPlain.append {cs : List Char} (h : BeginsPlain cs) (hne : cs ≠ [])
    (rest : List Char) : BeginsPlain (cs ++ rest) := by
  cases cs with
  | nil => exact absurd rfl hne
  | cons c cs => exact h

theorem EndsPlain.append {cs : List Char} (h : EndsPlain cs) (hne : cs ≠ [])
    (front : List Char) : EndsPlain (front ++ cs) := by
  intro c hc
  rw [List.getLast?_append_of_ne_nil front hne] at hc
  exact h c hc

/-- What stands before a character that is no blank is not trimmed at the back. -/
theorem trimBack_append_cons {c : Char} (hc : isBlank c = false) (front back : List Char) :
    trimBack (front ++ c :: back) = front ++ c :: trimBack back := by
  rw [trimBack, trimBack, List.reverse_append, List.reverse_cons, List.append_assoc,
    List.singleton_append, List.dropWhile_append]
  split
  · next hblank =>
    rw [List.isEmpty_iff.mp hblank]
    simp [hc]
  · simp

/-- What stands behind a character that is no blank is not trimmed at the front. -/
theorem trimFront_append_cons {c : Char} (hc : isBlank c = false) (front back : List Char) :
    trimFront (front ++ c :: back) = trimFront front ++ c :: back := by
  rw [trimFront, trimFront, List.dropWhile_append]
  split
  · next hblank =>
    rw [List.isEmpty_iff.mp hblank]
    simp [hc]
  · rfl

/-- The two ends may be trimmed in either order. -/
theorem trimFront_trimBack (cs : List Char) : trimFront (trimBack cs) = trimChars cs := by
  have hsplit : cs.takeWhile isBlank ++ trimFront cs = cs := List.takeWhile_append_dropWhile
  have hblanks : Blanks (cs.takeWhile isBlank) :=
    fun c hc => List.all_eq_true.mp List.all_takeWhile c hc
  rw [trimChars]
  cases hfront : trimFront cs with
  | nil =>
    rw [hfront, List.append_nil] at hsplit
    rw [← hsplit, trimBack_eq, List.rdropWhile_eq_nil_iff.mpr hblanks]
    rfl
  | cons c rest =>
    have hc : isBlank c = false := trimFront_beginsPlain cs c (by rw [hfront]; rfl)
    have hback := trimBack_append_cons hc [] rest
    rw [List.nil_append, List.nil_append] at hback
    rw [hfront] at hsplit
    rw [← hsplit, trimBack_append_cons hc, trimFront_append hblanks, hback]
    exact trimFront_of_beginsPlain fun d hd => Option.some.inj hd ▸ hc

/-- A text is left as it is, without the blanks around it. -/
theorem trimChars_padded {cs before after : List Char} (hfront : BeginsPlain cs)
    (hback : EndsPlain cs) (hbefore : Blanks before) (hafter : Blanks after) :
    trimChars (before ++ (cs ++ after)) = cs := by
  rw [trimChars, trimFront_append hbefore]
  by_cases hne : cs = []
  · have hnone : trimFront after = [] := List.dropWhile_eq_nil_iff.mpr hafter
    rw [hne, List.nil_append, hnone]
    rfl
  · rw [trimFront_of_beginsPlain (hfront.append hne after), trimBack_append hafter,
      trimBack_of_endsPlain hback]

/-- Without a blank in it, a text is left as it is. -/
theorem trimChars_of_plain {cs : List Char} (h : ∀ c ∈ cs, isBlank c = false) :
    trimChars cs = cs := by
  rw [trimChars, trimFront_of_beginsPlain fun c hc => h c (List.mem_of_mem_head? hc)]
  exact trimBack_of_endsPlain fun c hc => h c (List.mem_of_getLast? hc)

theorem trimChars_trimChars (cs : List Char) : trimChars (trimChars cs) = trimChars cs := by
  have hfront : trimFront (trimChars cs) = trimChars cs :=
    trimFront_of_beginsPlain (trimFront_beginsPlain cs).trimBack
  rw [trimChars, hfront]
  exact trimBack_of_endsPlain (trimBack_endsPlain _)

end Dialogue.Text
