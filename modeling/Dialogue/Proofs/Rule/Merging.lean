import Dialogue.Rule.Basic
import Mathlib.Data.List.Induction

/-!
Bounds that are merged into one rule.

The places that are noted while a text in short form is read lead to the range rule and to the
length rule among the rules, and to nothing before there is one. `Reading.Holds` says this, and what
the rules are up to their order. A bound that is set changes the rule at its place alone
(`changeAt_noted`), so that each kind of bound comes to one rule with the last bound of either side,
however the bounds are spread (`merged_holds`).
-/
namespace Dialogue.Rule

/-! ## Bounds -/

/-- Two bounds, one of which is set. -/
def Side.set {α : Type} (side : Side) (a : α) (bounds : Option α × Option α) :
    Option α × Option α :=
  match side with
  | .least => (some a, bounds.2)
  | .most => (bounds.1, some a)

/-- The bounds that are left of those that are set one after another, if there are any. -/
def lastBounds {α : Type} (bounds : List (Side × α)) : Option (Option α × Option α) :=
  bounds.foldl (fun held (side, a) => some (side.set a (held.getD (none, none)))) none

def lengthRule (bounds : Option Nat × Option Nat) : Rule := ⟨.length bounds.1 bounds.2, none⟩

def rangeRule (bounds : Option Binary64 × Option Binary64) : Rule :=
  ⟨.range bounds.1 bounds.2, none⟩

theorem lengthRule_ne_rangeRule (b : Option Nat × Option Nat)
    (b' : Option Binary64 × Option Binary64) : lengthRule b ≠ rangeRule b' := by
  intro h
  cases h

/-- The rule that a part is. -/
def Part.rule? : Part → Option Rule
  | .rule r => some r
  | _ => none

/-- The bound of a length that a part is. -/
def Part.length? : Part → Option (Side × Nat)
  | .length side n => some (side, n)
  | _ => none

/-- The bound of a range that a part is. -/
def Part.range? : Part → Option (Side × Binary64)
  | .range side x => some (side, x)
  | _ => none

/-! ## One rule changed -/

variable {rules others : List Rule} {place : Option Nat} {noted : Option Rule}

/-- A place was noted for a rule: it leads to the rule, or there is neither. -/
def Noted (rules : List Rule) (place : Option Nat) (rule : Option Rule) : Prop :=
  place.map (rules[·]?) = rule.map some

theorem Noted.append (h : Noted rules place noted) (more : List Rule) :
    Noted (rules ++ more) place noted := by
  cases place with
  | none => exact h
  | some i =>
    obtain ⟨found, rfl, hfound⟩ := Option.map_eq_some_iff.mp h.symm
    obtain ⟨hlt, -⟩ := List.getElem?_eq_some_iff.mp hfound.symm
    rw [Noted, Option.map_some, List.getElem?_append_left hlt]
    exact h

/-- Changing one rule keeps the places of all rules that are not like it. -/
theorem Noted.modify {i : Nat} {old : Rule} (hold : rules[i]? = some old)
    (h : Noted rules place noted) (hother : ∀ r ∈ noted, r ≠ old) (f : Rule → Rule) :
    Noted (rules.modify i f) place noted := by
  cases place with
  | none => exact h
  | some j =>
    obtain ⟨found, rfl, hfound⟩ := Option.map_eq_some_iff.mp h.symm
    have hne : i ≠ j := by
      rintro rfl
      have hsame : some found = some old := hfound.trans hold
      exact hother found rfl (Option.some.inj hsame)
    rw [Noted, Option.map_some, List.getElem?_modify_ne f rules hne]
    exact h

theorem modify_perm {i : Nat} {old : Rule} (hold : rules[i]? = some old)
    (hperm : rules.Perm (others ++ [old])) (f : Rule → Rule) :
    (rules.modify i f).Perm (others ++ [f old]) := by
  obtain ⟨hlt, hget⟩ := List.getElem?_eq_some_iff.mp hold
  obtain ⟨front, a, back, rfl, hfront, hmodify⟩ := List.exists_of_modify f hlt
  obtain rfl : a = old := by
    subst hfront
    simpa using hget
  rw [hmodify]
  have hrest : (front ++ back).Perm others := by
    apply List.Perm.cons_inv
    exact (List.perm_middle.symm.trans hperm).trans (List.perm_append_singleton a others)
  calc (front ++ f a :: back).Perm (f a :: (front ++ back)) := List.perm_middle
    List.Perm _ (f a :: others) := hrest.cons _
    List.Perm _ (others ++ [f a]) := (List.perm_append_singleton _ _).symm

/-- What changing the rule at a noted place leads to: the rules with this one changed and its place
noted, and every other rule where it was. -/
theorem changeAt_noted {old : Option Rule} (blank : Kind) (change : Kind → Kind)
    (hperm : rules.Perm (others ++ old.toList)) (hplace : Noted rules place old) {new : Rule}
    (hnew : new = { old.getD ⟨blank, none⟩ with kind := change (old.getD ⟨blank, none⟩).kind }) :
    (changeAt place blank change rules).2.Perm (others ++ [new]) ∧
      Noted (changeAt place blank change rules).2 (some (changeAt place blank change rules).1)
        (some new) ∧
      ∀ other rule, Noted rules other rule → (∀ r ∈ rule, r ≠ old.getD ⟨blank, none⟩) →
        Noted (changeAt place blank change rules).2 other rule := by
  -- Without a place, the rule to be changed is the one that is added.
  obtain ⟨i, held, hheld, hheldperm, hkept, hchange⟩ : ∃ (i : Nat) (held : List Rule),
      held[i]? = some (old.getD ⟨blank, none⟩) ∧
      held.Perm (others ++ [old.getD ⟨blank, none⟩]) ∧
      (∀ other rule, Noted rules other rule → Noted held other rule) ∧
      changeAt place blank change rules =
        (i, held.modify i fun r => { r with kind := change r.kind }) := by
    cases place with
    | none =>
      obtain rfl : old = none := Option.map_eq_none_iff.mp hplace.symm
      rw [Option.toList_none, List.append_nil] at hperm
      exact ⟨rules.length, rules ++ [⟨blank, none⟩], by simp, hperm.append_right _,
        fun other rule h => h.append _, rfl⟩
    | some i =>
      obtain ⟨found, rfl, hfound⟩ := Option.map_eq_some_iff.mp hplace.symm
      exact ⟨i, rules, hfound.symm, hperm, fun other rule h => h, rfl⟩
  rw [hchange, hnew]
  refine ⟨modify_perm hheld hheldperm _, ?_, ?_⟩
  · rw [Noted, Option.map_some, List.getElem?_modify_eq, hheld]
    rfl
  · intro other rule h hother
    exact (hkept other rule h).modify hheld hother _

/-! ## All parts -/

/-- What a reading holds: up to their order, some rules, the length rule with its bounds and the
range rule with its bounds, and the places of these two. -/
structure Reading.Holds (r : Reading) (others : List Rule)
    (lengths : Option (Option Nat × Option Nat))
    (ranges : Option (Option Binary64 × Option Binary64)) : Prop where
  perm : r.rules.Perm (others ++ (lengths.map lengthRule).toList ++ (ranges.map rangeRule).toList)
  lengthAt : Noted r.rules r.lengthAt (lengths.map lengthRule)
  rangeAt : Noted r.rules r.rangeAt (ranges.map rangeRule)

namespace Reading.Holds

variable {r : Reading} {lengths : Option (Option Nat × Option Nat)}
  {ranges : Option (Option Binary64 × Option Binary64)}

theorem rule (h : r.Holds others lengths ranges) (new : Rule) :
    (r.take (.rule new)).Holds (others ++ [new]) lengths ranges where
  perm := by
    refine (h.perm.append_right [new]).trans ?_
    simp only [List.append_assoc]
    apply List.Perm.append_left
    rw [← List.append_assoc]
    exact List.perm_append_comm
  lengthAt := h.lengthAt.append [new]
  rangeAt := h.rangeAt.append [new]

theorem length (h : r.Holds others lengths ranges) (side : Side) (n : Nat) :
    (r.take (.length side n)).Holds others (some (side.set n (lengths.getD (none, none))))
      ranges := by
  have hperm : r.rules.Perm (others ++ (ranges.map rangeRule).toList ++
      (lengths.map lengthRule).toList) := by
    refine h.perm.trans ?_
    rw [List.append_assoc, List.append_assoc]
    exact List.perm_append_comm.append_left others
  have hold : (lengths.map lengthRule).getD ⟨.length none none, none⟩ =
      lengthRule (lengths.getD (none, none)) := by cases lengths <;> rfl
  have hnew : lengthRule (side.set n (lengths.getD (none, none))) =
      { lengthRule (lengths.getD (none, none)) with
        kind := (lengthRule (lengths.getD (none, none))).kind.withLength side n } := by
    cases side <;> rfl
  rw [← hold] at hnew
  obtain ⟨hrules, hplace, hothers⟩ := changeAt_noted _ _ hperm h.lengthAt hnew
  refine ⟨?_, hplace, hothers _ _ h.rangeAt ?_⟩
  · refine hrules.trans ?_
    rw [List.append_assoc, List.append_assoc]
    exact List.perm_append_comm.append_left others
  · intro other hother
    obtain ⟨bounds, -, rfl⟩ := Option.map_eq_some_iff.mp hother
    rw [hold]
    exact (lengthRule_ne_rangeRule _ _).symm

theorem range (h : r.Holds others lengths ranges) (side : Side) (x : Binary64) :
    (r.take (.range side x)).Holds others lengths
      (some (side.set x (ranges.getD (none, none)))) := by
  have hold : (ranges.map rangeRule).getD ⟨.range none none, none⟩ =
      rangeRule (ranges.getD (none, none)) := by cases ranges <;> rfl
  have hnew : rangeRule (side.set x (ranges.getD (none, none))) =
      { rangeRule (ranges.getD (none, none)) with
        kind := (rangeRule (ranges.getD (none, none))).kind.withRange side x } := by
    cases side <;> rfl
  rw [← hold] at hnew
  obtain ⟨hrules, hplace, hothers⟩ := changeAt_noted _ _ h.perm h.rangeAt hnew
  refine ⟨hrules, hothers _ _ h.lengthAt ?_, hplace⟩
  intro other hother
  obtain ⟨bounds, -, rfl⟩ := Option.map_eq_some_iff.mp hother
  rw [hold]
  exact lengthRule_ne_rangeRule _ _

end Reading.Holds

theorem lastBounds_concat {α : Type} (bounds : List (Side × α)) (side : Side) (a : α) :
    lastBounds (bounds ++ [(side, a)]) =
      some (side.set a ((lastBounds bounds).getD (none, none))) := by
  rw [lastBounds, List.foldl_append]
  rfl

/-- The parts of a text come to the rules among them, a length rule if there is a bound of a length,
and a range rule if there is one of a range. -/
theorem merged_holds (ps : List Part) :
    (ps.foldl Reading.take {}).Holds (ps.filterMap Part.rule?)
      (lastBounds (ps.filterMap Part.length?)) (lastBounds (ps.filterMap Part.range?)) := by
  induction ps using List.reverseRecOn with
  | nil => exact ⟨.refl _, rfl, rfl⟩
  | append_singleton ps p ih =>
    rw [List.foldl_append, List.filterMap_append, List.filterMap_append, List.filterMap_append]
    cases p with
    | rule new =>
      show Reading.Holds _ (_ ++ [new]) (lastBounds (_ ++ [])) (lastBounds (_ ++ []))
      rw [List.append_nil, List.append_nil]
      exact ih.rule new
    | length side n =>
      show Reading.Holds _ (_ ++ []) (lastBounds (_ ++ [(side, n)])) (lastBounds (_ ++ []))
      rw [List.append_nil, List.append_nil, lastBounds_concat]
      exact ih.length side n
    | range side x =>
      show Reading.Holds _ (_ ++ []) (lastBounds (_ ++ [])) (lastBounds (_ ++ [(side, x)]))
      rw [List.append_nil, List.append_nil, lastBounds_concat]
      exact ih.range side x

end Dialogue.Rule
