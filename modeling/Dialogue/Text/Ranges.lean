import Dialogue.Text.Blank

/-!
Sets of characters given by ranges.

The tables of character properties are long, so they are written compactly: numbers in base 36, two
for each range, the gap since the end of the range before and the length less one.
-/
namespace Dialogue.Text

/-- The value of a digit in base 36. -/
def digit36 (c : Char) : Nat := if c.isDigit then c.toNat - 48 else c.toNat - 87

/-- The natural that a text in base 36 denotes. -/
def natural36 (cs : List Char) : Nat := cs.foldl (fun n c => n * 36 + digit36 c) 0

/-- The numbers of a table. -/
def numbers36 (lines : List String) : List Nat :=
  lines.flatMap fun line => (splitChars ' ' line.toList).map natural36

theorem numbers36_nil : numbers36 [] = [] := rfl

/-- A table is read line by line; a line stands here as its characters, so that none is decoded. -/
theorem numbers36_cons (line : List Char) (lines : List String) :
    numbers36 (String.ofList line :: lines) =
      (splitChars ' ' line).map natural36 ++ numbers36 lines := by
  simp [numbers36]

/-- Ranges of code points, each with its first and its last, in ascending order. -/
structure Ranges where
  list : List (Nat × Nat)
  deriving Repr

namespace Ranges

/-- The ranges that gaps and lengths give, after the code point `next`. -/
def ofGaps (next : Nat) : List Nat → List (Nat × Nat)
  | gap :: length :: rest =>
    let first := next + gap
    (first, first + length) :: ofGaps (first + length + 1) rest
  | _ => []

def decode (lines : List String) : Ranges := ⟨ofGaps 0 (numbers36 lines)⟩

/-- Whether some range holds a code point. -/
def has (r : Ranges) (n : Nat) : Bool := r.list.any fun (first, last) => first ≤ n && n ≤ last

/-- Whether a character is in one of the ranges. -/
def contains (r : Ranges) (c : Char) : Bool := r.has c.toNat

/-- Whether every range leaves out some code points. -/
def omits (r : Ranges) (points : List Nat) : Bool :=
  r.list.all fun (first, last) => points.all fun n => n < first || last < n

theorem has_of_omits {r : Ranges} {points : List Nat} (h : r.omits points = true) {n : Nat}
    (hn : n ∈ points) : r.has n = false := by
  simp only [omits, List.all_eq_true] at h
  simp only [has, List.any_eq_false]
  intro range hrange
  have hout := h range hrange n hn
  simp only [Bool.or_eq_true, decide_eq_true_eq] at hout
  simp only [Bool.and_eq_true, decide_eq_true_eq]
  omega

end Ranges

/-- Shifts of code points: in each run the `count` code points from `first`, `step` apart, go to the
code point `shift` further on. -/
structure Run where
  first : Nat
  count : Nat
  step : Nat
  shift : Int
  deriving Repr

namespace Run

/-- The last code of a run. -/
def last (r : Run) : Nat := r.first + (r.count - 1) * r.step

/-- Whether the run moves a code point. -/
def moves (r : Run) (n : Nat) : Bool :=
  r.first ≤ n && n ≤ r.last && (n - r.first) % r.step = 0

/-- What a code of a run goes to. -/
def target (r : Run) (n : Nat) : Nat := (n + r.shift).toNat

/-- Four numbers for each run: gap since the first of the run before, count, step, and the shift
with its sign in the last bit. -/
def ofNumbers (before : Nat) : List Nat → List Run
  | gap :: count :: step :: shift :: rest =>
    let first := before + gap
    let by_ : Int := if shift % 2 = 0 then (shift / 2 : Nat) else -((shift / 2 : Nat) : Int)
    ⟨first, count, step, by_⟩ :: ofNumbers first rest
  | _ => []

def decode (lines : List String) : List Run := ofNumbers 0 (numbers36 lines)

/-- Where the runs move a code point; others stay. -/
def apply (runs : List Run) (n : Nat) : Nat :=
  match runs.find? (·.moves n) with
  | some r => r.target n
  | none => n

end Run

end Dialogue.Text
