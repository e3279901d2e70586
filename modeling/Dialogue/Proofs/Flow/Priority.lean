import Dialogue.Flow.Choice

/-!
The order of priorities.

`byPriority` puts items into an order in which priorities fall, and leaves the items of each single
priority as they stand (`byPriority_filter`). These two facts determine it
(`eq_of_falling`). So sorting pieces before sorting all of them changes nothing
(`byPriority_flatMap`), and sorting does not care what else an item holds (`byPriority_map`).
-/
namespace Dialogue

variable {α β : Type}

/-- Priorities never rise along the list. -/
def Falling (priority : α → Int) (items : List α) : Prop :=
  items.Pairwise fun a b => priority b ≤ priority a

theorem priority_trans (priority : α → Int) (a b c : α) :
    decide (priority b ≤ priority a) = true → decide (priority c ≤ priority b) = true →
    decide (priority c ≤ priority a) = true := by
  simp only [decide_eq_true_eq]; omega

theorem priority_total (priority : α → Int) (a b : α) :
    (decide (priority b ≤ priority a) || decide (priority a ≤ priority b)) = true := by
  simp only [Bool.or_eq_true, decide_eq_true_eq]; omega

theorem byPriority_falling (priority : α → Int) (items : List α) :
    Falling priority (byPriority priority items) :=
  (List.pairwise_mergeSort (priority_trans priority) (priority_total priority) items).imp
    of_decide_eq_true

theorem byPriority_perm (priority : α → Int) (items : List α) :
    (byPriority priority items).Perm items :=
  List.mergeSort_perm items _

/-- The items of one priority keep their order. -/
theorem byPriority_filter (priority : α → Int) (items : List α) (k : Int) :
    (byPriority priority items).filter (priority · = k) = items.filter (priority · = k) := by
  have hp : (items.filter (priority · = k)).Pairwise
      fun a b => decide (priority b ≤ priority a) = true := by
    refine List.pairwise_of_forall_mem_list fun a ha b hb => ?_
    simp only [List.mem_filter, decide_eq_true_eq] at ha hb ⊢
    omega
  -- Items of one priority are in order as they stand, so a stable sort keeps them as a sublist, and
  -- there are as many of them afterwards.
  have hs : (items.filter (priority · = k)).Sublist (byPriority priority items) :=
    List.sublist_mergeSort (priority_trans priority) (priority_total priority) hp
      List.filter_sublist
  have hf := hs.filter (priority · = k)
  rw [List.filter_filter] at hf
  simp only [Bool.and_self] at hf
  exact (hf.eq_of_length ((byPriority_perm priority items).filter _).length_eq.symm).symm

/-- An order in which priorities fall is determined by the items of each priority. -/
theorem eq_of_falling {priority : α → Int} : ∀ {xs ys : List α}, Falling priority xs →
    Falling priority ys → (∀ k, xs.filter (priority · = k) = ys.filter (priority · = k)) → xs = ys
  | [], [], _, _, _ => rfl
  | [], y :: ys, _, _, h => by have := h (priority y); simp at this
  | x :: xs, [], _, _, h => by have := h (priority x); simp at this
  | x :: xs, y :: ys, hx, hy, h => by
    obtain ⟨hx, hxs⟩ := List.pairwise_cons.1 hx
    obtain ⟨hy, hys⟩ := List.pairwise_cons.1 hy
    -- The head of each list is somewhere in the other one, whose head has the highest priority.
    have hle : priority x ≤ priority y := by
      have hm : x ∈ (y :: ys).filter (priority · = priority x) := by
        rw [← h (priority x)]; simp
      rcases List.mem_cons.1 (List.mem_filter.1 hm).1 with rfl | hm
      · exact Int.le_refl _
      · exact hy x hm
    have hge : priority y ≤ priority x := by
      have hm : y ∈ (x :: xs).filter (priority · = priority y) := by
        rw [h (priority y)]; simp
      rcases List.mem_cons.1 (List.mem_filter.1 hm).1 with rfl | hm
      · exact Int.le_refl _
      · exact hx y hm
    have hp : priority y = priority x := by omega
    have hhead := h (priority x)
    simp only [List.filter_cons, hp, decide_true, if_true, List.cons.injEq] at hhead
    obtain ⟨rfl, htail⟩ := hhead
    refine congrArg (x :: ·) (eq_of_falling hxs hys fun k => ?_)
    by_cases hk : priority x = k
    · subst hk; exact htail
    · have := h k
      simpa only [List.filter_cons, hk, decide_false, Bool.false_eq_true, if_false] using this

theorem byPriority_congr {priority : α → Int} {xs ys : List α}
    (h : ∀ k, xs.filter (priority · = k) = ys.filter (priority · = k)) :
    byPriority priority xs = byPriority priority ys :=
  eq_of_falling (byPriority_falling _ _) (byPriority_falling _ _) fun k => by
    rw [byPriority_filter, byPriority_filter, h k]

/-- Sorting the pieces first makes no difference. -/
theorem byPriority_flatMap (priority : β → Int) (f : α → List β) (xs : List α) :
    byPriority priority (xs.flatMap fun x => byPriority priority (f x)) =
      byPriority priority (xs.flatMap f) := by
  refine byPriority_congr fun k => ?_
  induction xs with
  | nil => rfl
  | cons x xs ih =>
    rw [List.flatMap_cons, List.flatMap_cons, List.filter_append, List.filter_append, ih,
      byPriority_filter]

/-- Sorting looks at nothing but the priorities. -/
theorem byPriority_map {p : α → Int} {q : β → Int} {f : α → β} (h : ∀ a, q (f a) = p a)
    (xs : List α) : byPriority q (xs.map f) = (byPriority p xs).map f :=
  (List.map_mergeSort fun a _ b _ => by rw [h a, h b]).symm

end Dialogue
