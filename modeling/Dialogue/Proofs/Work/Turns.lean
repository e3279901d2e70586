import Dialogue.Work.Host

/-!
Work that takes its turns among other work.

What work finds at its turns is a sequence of sites, one for each turn; between two turns other work
may have changed anything. `Progress.Ends env i p j r` says that work which is at `p` before turn
`i` is over before turn `j`, and what it gave then: nothing, if it broke off. A program that runs
another one within it goes on where that is over (`Ends.within`); so does work that goes on with a
result (`Ends.bind`) or that recovers (`Ends.recover`). If time passes, a wait ends: at the first
turn at which the time is up or the work is cancelled (`sleep_ends`). A wait for a span of time
takes the fewest milliseconds that cover it (`Work.waitMs_takes`).
-/
namespace Dialogue

/-- A wait for the span takes so many milliseconds: the fewest that cover it, or those of thirty
years, if the clock does not reach its end. -/
inductive Duration.Takes (d : Duration) (ms : Nat) : Prop
  | covered (reached : d.nanos < signedLimit * 1000000000) (covers : d.nanos ≤ ms * 1000000)
      (fewest : ∀ fewer, d.nanos ≤ fewer * 1000000 → ms ≤ fewer) : Takes d ms
  | cut (beyond : signedLimit * 1000000000 ≤ d.nanos)
      (years : ms = 30 * 365 * 24 * 60 * 60 * 1000) : Takes d ms

theorem Work.waitMs_takes (d : Duration) : d.Takes (waitMs d) := by
  unfold waitMs
  split
  · next hreached =>
    rw [Duration.seconds] at hreached
    refine .covered (by omega) ?_ fun fewer hcovers => ?_
    · rw [Duration.coverMillis]
      omega
    · rw [Duration.coverMillis]
      omega
  · next hbeyond =>
    rw [Duration.seconds] at hbeyond
    exact .cut (by omega) rfl

/-- Time passes: the clock comes to every moment, and what is cancelled stays cancelled. -/
structure TimePasses (env : Nat → Site) : Prop where
  clock : ∀ nowMs i, ∃ j, i ≤ j ∧ nowMs ≤ (env j).host.nowMs
  cancelled : ∀ i, (env i).cancelled = true → (env (i + 1)).cancelled = true

theorem TimePasses.cancelled_later {env : Nat → Site} (passes : TimePasses env) {i j : Nat}
    (h : (env i).cancelled = true) (hij : i ≤ j) : (env j).cancelled = true := by
  induction hij with
  | refl => exact h
  | step _ ih => exact passes.cancelled _ ih

namespace Progress

variable {α β : Type} {env : Nat → Site} {i j k : Nat}

/-- Whether no turn changes anything any more. -/
def isOver : Progress α → Bool
  | .running (.done _) => true
  | .running .abort => true
  | _ => false

/-- Work that is at `p` before turn `i` is over before turn `j`, with a result or without one. -/
inductive Ends (env : Nat → Site) : Nat → Progress α → Nat → Option α → Prop
  | done {i : Nat} {a : α} : Ends env i (.running (.done a)) i (some a)
  | abort {i : Nat} : Ends env i (.running .abort) i none
  | turn {i j : Nat} {p : Progress α} {r : Option α} : p.isOver = false →
    Ends env (i + 1) (p.turn (env i)).1 j r → Ends env i p j r

/-- Work is over once, in one way. -/
theorem Ends.unique {p : Progress α} {r r' : Option α} (h : Ends env i p j r)
    (h' : Ends env i p k r') : j = k ∧ r = r' := by
  induction h with
  | done =>
    cases h' with
    | done => exact ⟨rfl, rfl⟩
    | turn hgoes _ => cases hgoes
  | abort =>
    cases h' with
    | abort => exact ⟨rfl, rfl⟩
    | turn hgoes _ => cases hgoes
  | turn hgoes _ ih =>
    cases h' with
    | done => cases hgoes
    | abort => cases hgoes
    | turn _ hlater => exact ih hlater

/-! ## Programs within programs -/

/-- A program that runs another one within it: it asks what that asks, and waits as that waits. -/
structure RunsWithin (g : Work α → Work β) : Prop where
  ask : ∀ q next, g (.ask q next) = .ask q fun answer => g (next answer)
  wait : ∀ ms heeds next, g (.wait ms heeds next) = .wait ms heeds fun wake => g (next wake)

/-- Work under way within other work. -/
def within (g : Work α → Work β) : Progress α → Progress β
  | .running work => .running (g work)
  | .waiting untilMs heeds next => .waiting untilMs heeds fun wake => g (next wake)

theorem isOver_within {g : Work α → Work β} (hg : RunsWithin g) {p : Progress α}
    (h : p.isOver = false) : (p.within g).isOver = false := by
  cases p with
  | waiting untilMs heeds next => rfl
  | running work =>
    cases work with
    | done a => cases h
    | abort => cases h
    | ask q next => rw [within, hg.ask]; rfl
    | wait ms heeds next => rw [within, hg.wait]; rfl

theorem turn_within {g : Work α → Work β} (hg : RunsWithin g) {p : Progress α}
    (h : p.isOver = false) (s : Site) : ((p.within g).turn s).1 = (p.turn s).1.within g := by
  cases p with
  | waiting untilMs heeds next =>
    simp only [within, turn]
    cases wake? s untilMs heeds <;> rfl
  | running work =>
    cases work with
    | done a => cases h
    | abort => cases h
    | ask q next => rw [within, hg.ask]; rfl
    | wait ms heeds next => rw [within, hg.wait]; rfl

/-- Work that is over, as a program. -/
def ended : Option α → Work α
  | some a => .done a
  | none => .abort

/-- The outer program goes on where the inner one is over. -/
theorem Ends.within {g : Work α → Work β} (hg : RunsWithin g) {p : Progress α} {r : Option α}
    {r' : Option β} (h : Ends env i p j r) (later : Ends env j (.running (g (ended r))) k r') :
    Ends env i (p.within g) k r' := by
  -- A turn of the inner program is a turn of the outer one, until the inner one is over.
  induction h with
  | done => exact later
  | abort => exact later
  | turn hgoes _ ih =>
    apply Ends.turn (isOver_within hg hgoes)
    rw [turn_within hg hgoes]
    exact ih later

theorem Ends.bind {f : α → Work β} {work : Work α} {a : α} {r : Option β}
    (h : Ends env i (.running work) j (some a)) (later : Ends env j (.running (f a)) k r) :
    Ends env i (.running (work.bind f)) k r :=
  h.within (g := fun work => work.bind f) ⟨fun _ _ => rfl, fun _ _ _ => rfl⟩ later

theorem Ends.recover {work : Work α} {r : Option α} (h : Ends env i (.running work) j r) (b : α) :
    Ends env i (.running (work.recover (.done b))) j (some (r.getD b)) := by
  apply h.within (g := fun work => work.recover (.done b)) ⟨fun _ _ => rfl, fun _ _ _ => rfl⟩
  cases r with
  | none => exact .done
  | some a => exact .done

/-- A question is answered in the turn that asks it. -/
theorem Ends.ask {q : Query} {next : q.Answer → Work α} {r : Option α}
    (h : Ends env (i + 1) (.running (next ((env i).answer q).1)) j r) :
    Ends env i (.running (.ask q next)) j r := .turn rfl h

/-! ## Waits -/

/-- A wait of `ms` that begins at turn `i` ends at turn `j`, the first one after it that finds the
work cancelled or the time up. It ends cancelled if the work is cancelled by then, and otherwise
because the time is up. -/
structure Pause (env : Nat → Site) (ms i j : Nat) (wake : Wake) : Prop where
  after : i < j
  before : ∀ k, i < k → k < j →
    (env k).cancelled = false ∧ (env k).host.nowMs < (env i).host.nowMs + ms
  cancelled : wake = .cancelled ↔ (env j).cancelled = true
  timeUp : wake = .timeUp → (env i).host.nowMs + ms ≤ (env j).host.nowMs

theorem wake?_eq_none {s : Site} {untilMs : Nat} (h : wake? s (some untilMs) true = none) :
    s.cancelled = false ∧ s.host.nowMs < untilMs := by
  cases hcancelled : s.cancelled with
  | true => simp [wake?, hcancelled] at h
  | false => simpa [wake?, hcancelled] using h

theorem wake?_eq_some {s : Site} {untilMs : Nat} {wake : Wake}
    (h : wake? s (some untilMs) true = some wake) :
    (wake = .cancelled ↔ s.cancelled = true) ∧ (wake = .timeUp → untilMs ≤ s.host.nowMs) := by
  cases hcancelled : s.cancelled with
  | true =>
    simp only [wake?, hcancelled, Bool.and_self, if_true, Option.some.injEq] at h
    simp [← h]
  | false =>
    simp only [wake?, hcancelled, Bool.and_false, Bool.false_eq_true, if_false, Option.any_some,
      decide_eq_true_eq, Option.ite_none_right_eq_some, Option.some.injEq] at h
    simp [← h.2, h.1]

theorem waiting_woken {untilMs : Option Nat} {heeds : Bool} {wake : Wake}
    (h : wake? (env i) untilMs heeds = some wake) :
    Ends env i (.waiting untilMs heeds .done) (i + 1) (some wake) := by
  apply Ends.turn rfl
  simp only [turn, h]
  exact .done

theorem waiting_on {untilMs : Option Nat} {heeds : Bool} {next : Wake → Work α} {r : Option α}
    (h : wake? (env i) untilMs heeds = none)
    (later : Ends env (i + 1) (.waiting untilMs heeds next) j r) :
    Ends env i (.waiting untilMs heeds next) j r := by
  apply Ends.turn rfl
  simp only [turn, h]
  exact later

/-- A wait under way ends at the first turn that finds something to end it. -/
theorem waiting_ends {untilMs : Option Nat} {heeds : Bool} {n : Nat}
    (h : (wake? (env (i + n)) untilMs heeds).isSome = true) :
    ∃ j wake, i ≤ j ∧ wake? (env j) untilMs heeds = some wake ∧
      (∀ k, i ≤ k → k < j → wake? (env k) untilMs heeds = none) ∧
      Ends env i (.waiting untilMs heeds .done) (j + 1) (some wake) := by
  have hnow : ∀ {i : Nat}, (wake? (env i) untilMs heeds).isSome = true →
      ∃ j wake, i ≤ j ∧ wake? (env j) untilMs heeds = some wake ∧
        (∀ k, i ≤ k → k < j → wake? (env k) untilMs heeds = none) ∧
        Ends env i (.waiting untilMs heeds .done) (j + 1) (some wake) := by
    intro i hi
    obtain ⟨wake, hwake⟩ := Option.isSome_iff_exists.mp hi
    exact ⟨i, wake, Nat.le_refl i, hwake, fun k hik hki => absurd hik (Nat.not_le_of_lt hki),
      waiting_woken hwake⟩
  -- Turn `i + n` is known to end the wait; the induction finds the first one that does.
  induction n generalizing i with
  | zero => exact hnow h
  | succ n ih =>
    cases hwake : wake? (env i) untilMs heeds with
    | some wake => exact hnow (Option.isSome_of_eq_some hwake)
    | none =>
      have hlater : (wake? (env (i + 1 + n)) untilMs heeds).isSome = true := by
        rwa [Nat.add_right_comm, Nat.add_assoc]
      obtain ⟨j, wake, hij, hwoken, hbefore, hends⟩ := ih hlater
      refine ⟨j, wake, Nat.le_of_succ_le hij, hwoken, ?_, waiting_on hwake hends⟩
      intro k hik hkj
      rcases Nat.eq_or_lt_of_le hik with rfl | hlt
      · exact hwake
      · exact hbefore k hlt hkj

theorem sleep_ends (passes : TimePasses env) (ms i : Nat) :
    ∃ j wake, Pause env ms i j wake ∧
      Ends env i (.running (Work.sleepUnlessCancelled ms)) (j + 1) (some wake) := by
  obtain ⟨late, hlate, htime⟩ := passes.clock ((env i).host.nowMs + ms) (i + 1)
  obtain ⟨n, rfl⟩ := Nat.exists_eq_add_of_le hlate
  have hover : (wake? (env (i + 1 + n)) (some ((env i).host.nowMs + ms)) true).isSome = true := by
    simp only [wake?, Option.any_some, htime, decide_true, if_true]
    split <;> rfl
  obtain ⟨j, wake, hij, hwoken, hbefore, hends⟩ := waiting_ends hover
  obtain ⟨hcancelled, htimeUp⟩ := wake?_eq_some hwoken
  exact ⟨j, wake, ⟨hij, fun k hik hkj => wake?_eq_none (hbefore k hik hkj), hcancelled, htimeUp⟩,
    .turn rfl hends⟩

end Progress

end Dialogue
