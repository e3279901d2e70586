import Mathlib.Data.String.Basic
import Dialogue.Proofs.Json.Entries
import Dialogue.Store.Basic

/-!
Owners that share a store.

The mark of an owner is the length of its name, a colon, the name and a slash. Digits are no colon,
so a key tells the length of its owner's name, hence the name, and the rest of the key
(`mark_append_inj`). So the keys with one mark are a map of their own (`Store.part`): an operation
of their owner does to it what it says (`apply_part_self`), and an operation of another owner does
not touch it (`apply_part_other`). What an owner sees of the shared store is therefore what a
private map gives, whatever the other owners do in between (`owners_isolated`).
-/
namespace Dialogue

/-- What an operation on a store gives. -/
abbrev StoreResult := Except StoreError (Option Json)

/-! ## Private maps -/

/-- A private map from keys to the texts of values. -/
abbrev KeyMap := String → Option String

namespace KeyMap

/-- The value of a key, read from its text. -/
def read (m : KeyMap) (key : String) : StoreResult :=
  match m key with
  | none => .ok none
  | some text => (Json.read text).map some |>.mapError .corrupt

/-- What an operation gives, and what it makes of the map. -/
def apply (m : KeyMap) : StoreOp → StoreResult × KeyMap
  | .get key => (m.read key, m)
  | .set key value => (.ok none, fun k => if k = key then some value.text else m k)
  | .remove key => (.ok none, fun k => if k = key then none else m k)
  | .clear => (.ok none, fun _ => none)
  | .clearPrefix start =>
    (.ok none, fun k => if start.toList <+: k.toList then none else m k)

/-- What operations give, one after another. -/
def serve : KeyMap → List StoreOp → List StoreResult
  | _, [] => []
  | m, op :: rest => (m.apply op).1 :: serve (m.apply op).2 rest

end KeyMap

/-! ## Marks -/

/-- The characters of a mark: digits up to the first colon, then the name and a slash. -/
theorem ownerMark_toList (owner : String) : (ownerMark owner).toList =
    Nat.toDigits 10 owner.utf8ByteSize ++ ':' :: (owner.toList ++ ['/']) := by
  have hsize : (toString owner.utf8ByteSize).toList = Nat.toDigits 10 owner.utf8ByteSize :=
    Nat.toList_repr
  have hcolon : (":" : String).toList = [':'] := rfl
  have hslash : ("/" : String).toList = ['/'] := rfl
  simp only [ownerMark, String.toList_append, hsize, hcolon, hslash, List.append_assoc,
    List.cons_append, List.nil_append]

theorem colon_not_mem_toDigits (n : Nat) : ':' ∉ Nat.toDigits 10 n := by
  intro h
  have hdigit : (':' : Char).isDigit = true :=
    Nat.isDigit_of_mem_toDigits (by omega) (by omega) h
  cases hdigit

/-- Lists that have no colon are determined by what they and a colon after them start. -/
theorem append_colon_inj : ∀ {xs ys r t : List Char}, ':' ∉ xs → ':' ∉ ys →
    xs ++ ':' :: r = ys ++ ':' :: t → xs = ys ∧ r = t
  | [], [], _, _, _, _, h => ⟨rfl, (List.cons.inj h).2⟩
  | [], y :: ys, _, _, _, hy, h => by
    have hhead : ':' = y := (List.cons.inj h).1
    exact absurd (List.mem_cons.2 (.inl hhead)) hy
  | x :: xs, [], _, _, hx, _, h => by
    have hhead : x = ':' := (List.cons.inj h).1
    exact absurd (List.mem_cons.2 (.inl hhead.symm)) hx
  | x :: xs, y :: ys, r, t, hx, hy, h => by
    obtain ⟨hhead, htail⟩ := List.cons.inj h
    obtain ⟨hxs, hr⟩ := append_colon_inj (fun hm => hx (List.mem_cons_of_mem x hm))
      (fun hm => hy (List.mem_cons_of_mem y hm)) htail
    exact ⟨by rw [hhead, hxs], hr⟩

/-- Of two texts that begin alike, each is as long as the other only if they are equal. -/
theorem eq_of_prefix_of_size {xs ys : List Char} (hp : xs <+: ys)
    (hsize : String.utf8Len xs = String.utf8Len ys) : xs = ys := by
  obtain ⟨rest, rfl⟩ := hp
  rw [String.utf8Len_append] at hsize
  have hzero : String.utf8Len rest = 0 := by omega
  rw [String.utf8Len_eq_zero.1 hzero, List.append_nil]

theorem utf8Len_toList (s : String) : String.utf8Len s.toList = s.utf8ByteSize := by
  rw [← String.utf8ByteSize_ofList, String.ofList_toList]

/-- A key with a mark tells its owner and what follows the mark. -/
theorem mark_append_inj {a b x y : String} (h : ownerMark a ++ x = ownerMark b ++ y) :
    a = b ∧ x = y := by
  have hlist := congrArg String.toList h
  simp only [String.toList_append, ownerMark_toList, List.append_assoc, List.cons_append,
    List.nil_append] at hlist
  obtain ⟨hdigits, hrest⟩ := append_colon_inj (colon_not_mem_toDigits _)
    (colon_not_mem_toDigits _) hlist
  -- Equal digits are equal numbers, so the names are of one length.
  have hsize : a.utf8ByteSize = b.utf8ByteSize := by
    have hvalue := congrArg (Nat.ofDigitChars 10 · 0) hdigits
    simpa [Nat.ofDigitChars_toDigits] using hvalue
  have hlen : String.utf8Len a.toList = String.utf8Len b.toList := by
    rw [utf8Len_toList, utf8Len_toList, hsize]
  -- Both names stand at the front of one text.
  have hnames : a.toList = b.toList := by
    have ha : a.toList <+: a.toList ++ '/' :: x.toList := List.prefix_append _ _
    have hb : b.toList <+: a.toList ++ '/' :: x.toList := by
      rw [hrest]
      exact List.prefix_append _ _
    rcases List.prefix_or_prefix_of_prefix ha hb with hp | hp
    · exact eq_of_prefix_of_size hp hlen
    · exact (eq_of_prefix_of_size hp hlen.symm).symm
  have hab : a = b := String.toList_inj.1 hnames
  subst hab
  have htail := List.append_cancel_left hrest
  exact ⟨rfl, String.toList_inj.1 (List.cons.inj htail).2⟩

/-- A key that begins with a mark is a key of the mark's owner. -/
theorem eq_of_marks_comparable {a b x y : String}
    (h : (ownerMark b ++ y).toList <+: (ownerMark a ++ x).toList) : a = b := by
  obtain ⟨rest, hrest⟩ := h
  have hkeys : ownerMark a ++ x = ownerMark b ++ (y ++ String.ofList rest) := by
    apply String.toList_inj.1
    rw [← hrest]
    simp only [String.toList_append, String.toList_ofList, List.append_assoc]
  exact (mark_append_inj hkeys).1

namespace Store

/-! ## The part of an owner -/

/-- The map that the keys of an owner make up. -/
def part (s : Store) (owner : String) : KeyMap := fun key =>
  s.entries.get? (ownerMark owner ++ key)

theorem part_filterKeys (s : Store) (keep : String → Bool) (owner key : String) :
    (s.filterKeys keep).part owner key =
      if keep (ownerMark owner ++ key) then s.part owner key else none :=
  Entries.get?_filter s.entries keep _

@[simp] theorem apply_backend (s : Store) (op : StoreOp) : (s.apply op).2.backend = s.backend := by
  cases op <;> rfl

theorem get?_eq_read (s : Store) (owner key : String) :
    s.get? (ownerMark owner ++ key) = (s.part owner).read key := by
  unfold get? KeyMap.read part
  cases s.entries.get? (ownerMark owner ++ key) with
  | none => rfl
  | some text => cases h : Json.read text <;> simp [h, Except.map, Except.mapError]

theorem covers_memory (key start : String) :
    covers .memory key start = decide (start.toList <+: key.toList) := by
  rw [Bool.eq_iff_iff, covers, startsWith, List.isPrefixOf_iff_prefix, decide_eq_true_iff]

/-- To its owner, the part of an owner is a private map. -/
theorem apply_part_self {s : Store} (hs : s.backend = .memory) (owner : String) (op : StoreOp) :
    (s.apply (op.within owner)).1 = ((s.part owner).apply op).1 ∧
      (s.apply (op.within owner)).2.part owner = ((s.part owner).apply op).2 := by
  cases op with
  | get key => exact ⟨get?_eq_read s owner key, rfl⟩
  | set key value =>
    refine ⟨rfl, funext fun k => ?_⟩
    have h := Entries.get?_set s.entries (ownerMark owner ++ key) (ownerMark owner ++ k) value.text
    simp only [String.append_right_inj] at h
    exact h
  | remove key =>
    refine ⟨rfl, funext fun k => ?_⟩
    have h := part_filterKeys s (· ≠ ownerMark owner ++ key) owner k
    refine h.trans ?_
    by_cases hk : k = key <;> simp [KeyMap.apply, hk]
  | clear =>
    refine ⟨rfl, funext fun k => ?_⟩
    have h := part_filterKeys s (fun key => !covers s.backend key (ownerMark owner)) owner k
    have hcovers : covers s.backend (ownerMark owner ++ k) (ownerMark owner) = true := by
      rw [hs, covers_memory, decide_eq_true_iff, String.toList_append]
      exact List.prefix_append _ _
    rw [hcovers] at h
    exact h
  | clearPrefix start =>
    refine ⟨rfl, funext fun k => ?_⟩
    have h := part_filterKeys s
      (fun key => !covers s.backend key (ownerMark owner ++ start)) owner k
    have hcovers : covers s.backend (ownerMark owner ++ k) (ownerMark owner ++ start) =
        decide (start.toList <+: k.toList) := by
      rw [hs, covers_memory, decide_eq_decide, String.toList_append, String.toList_append,
        List.prefix_append_right_inj]
    simp only [hcovers, Bool.not_eq_true', decide_eq_false_iff_not, ite_not] at h
    exact h

/-- An operation of another owner leaves the part of an owner as it was. -/
theorem apply_part_other {s : Store} (hs : s.backend = .memory) {a b : String} (hab : a ≠ b)
    (op : StoreOp) : (s.apply (op.within b)).2.part a = s.part a := by
  have hkey (x y : String) : ownerMark a ++ x ≠ ownerMark b ++ y :=
    fun h => hab (mark_append_inj h).1
  have hcovers (k start : String) :
      covers s.backend (ownerMark a ++ k) (ownerMark b ++ start) = false := by
    rw [hs, covers_memory, decide_eq_false_iff_not]
    intro h
    exact hab (eq_of_marks_comparable h)
  funext k
  cases op with
  | get key => rfl
  | set key value =>
    have h := Entries.get?_set s.entries (ownerMark b ++ key) (ownerMark a ++ k) value.text
    rw [if_neg (hkey k key)] at h
    exact h
  | remove key =>
    have h := part_filterKeys s (· ≠ ownerMark b ++ key) a k
    rw [if_pos (by simp [hkey k key])] at h
    exact h
  | clear =>
    have h := part_filterKeys s (fun key => !covers s.backend key (ownerMark b)) a k
    have hb := hcovers k ""
    rw [String.append_empty] at hb
    rw [if_pos (by simp [hb])] at h
    exact h
  | clearPrefix start =>
    have h := part_filterKeys s (fun key => !covers s.backend key (ownerMark b ++ start)) a k
    rw [if_pos (by simp [hcovers k start])] at h
    exact h

/-! ## Any number of operations -/

/-- What operations of several owners on one store give, one after another. -/
def serve : Store → List (String × StoreOp) → List (String × StoreResult)
  | _, [] => []
  | s, (owner, op) :: rest =>
    (owner, (s.apply (op.within owner)).1) :: serve (s.apply (op.within owner)).2 rest

/-- Those of the items that are an owner's. -/
def ownedBy {α : Type} (owner : String) (items : List (String × α)) : List α :=
  (items.filter fun item => item.1 = owner).map Prod.snd

/-- What an owner sees of the operations: what its own ones give. -/
def seenBy (s : Store) (owner : String) (ops : List (String × StoreOp)) : List StoreResult :=
  ownedBy owner (s.serve ops)

/-- An owner sees what its operations give on a private map. -/
theorem seenBy_eq (owner : String) : ∀ (ops : List (String × StoreOp)) {s : Store},
    s.backend = .memory → s.seenBy owner ops = (s.part owner).serve (ownedBy owner ops)
  | [], _, _ => rfl
  | (other, op) :: rest, s, hs => by
    have ih := seenBy_eq owner rest (s := (s.apply (op.within other)).2)
      (by rw [apply_backend, hs])
    by_cases ho : other = owner
    · subst ho
      obtain ⟨hresult, hpart⟩ := apply_part_self hs other op
      rw [hpart] at ih
      simp only [seenBy, ownedBy, serve, decide_true, List.filter_cons_of_pos, List.map_cons,
        KeyMap.serve] at ih ⊢
      rw [ih, hresult]
    · rw [apply_part_other hs (fun h => ho h.symm) op] at ih
      simp only [seenBy, ownedBy, serve, List.filter_cons, ho, decide_false, Bool.false_eq_true,
        if_false] at ih ⊢
      exact ih

theorem ownedBy_filter {α : Type} {a b : String} (hab : a ≠ b) (items : List (String × α)) :
    ownedBy a (items.filter fun item => item.1 ≠ b) = ownedBy a items := by
  unfold ownedBy
  rw [List.filter_filter]
  refine congrArg (List.map Prod.snd) (List.filter_congr fun item _ => ?_)
  by_cases h : item.1 = a
  · simp [h, hab]
  · simp [h]

/-- What an owner sees of a shared store is what it would see had another owner never done anything,
and it is what a private map gives. -/
theorem owners_isolated {s : Store} (hs : s.backend = .memory) {a b : String} (hab : a ≠ b)
    (ops : List (String × StoreOp)) :
    s.seenBy a ops = s.seenBy a (ops.filter fun op => op.1 ≠ b) ∧
    s.seenBy a ops = (s.part a).serve (ownedBy a ops) := by
  have hseen := seenBy_eq a ops hs
  have hwithout := seenBy_eq a (ops.filter fun op => op.1 ≠ b) hs
  rw [ownedBy_filter hab] at hwithout
  exact ⟨hseen.trans hwithout.symm, hseen⟩

/-- Two owners of whom one has a name that begins like a key of the other: the first clears all it
has, and what it finds afterwards is its own. -/
def neighbours : List (String × StoreOp) := [
  ("a", .set "b/k" (.ofNat 1)), ("a/b", .set "k" (.ofNat 2)), ("a", .get "b/k"), ("a", .clear),
  ("a", .get "b/k"), ("a/b", .clearPrefix ""), ("a", .set "1:a/" (.ofNat 3)), ("a/b", .clear),
  ("a", .get "1:a/")]

theorem owners_isolated_neighbours :
    ({} : Store).backend = .memory ∧ "a" ≠ "a/b" ∧
    ({} : Store).seenBy "a" neighbours =
      ({} : Store).seenBy "a" (neighbours.filter fun op => op.1 ≠ "a/b") ∧
    ({} : Store).seenBy "a" neighbours =
      (({} : Store).part "a").serve (ownedBy "a" neighbours) ∧
    ((({} : Store).part "a").serve (ownedBy "a" neighbours)).map Except.toOption =
      [some none, some (some (.ofNat 1)), some none, some none, some none,
        some (some (.ofNat 3))] := by
  have hs : ({} : Store).backend = .memory := rfl
  have hab : "a" ≠ "a/b" := by decide
  obtain ⟨hwithout, hprivate⟩ := owners_isolated hs hab neighbours
  exact ⟨hs, hab, hwithout, hprivate, rfl⟩

end Store

end Dialogue
