import Dialogue.Action.Execute
import Dialogue.Proofs.Work.Turns
import Mathlib.Data.List.Chain

/-!
How often an action is tried.

A `Try` is one attempt of an action among the turns of its surroundings. `Action.Tried` says of a
list of attempts that they are numbered from one, that none begins cancelled, that each is one run
of the handler, and that each but the first follows an attempt that is not the last one, after a
pause of the span that the policy has for it (`Action.Paused`) and at the turn at which that pause
is over. `Action.Concluded` says how a call ends: with the result of its last attempt, or cancelled
while another one is due or waited for.

`attempts_end` proves both of the loop by induction on the attempts that are left, and
`execute_attempts` of a call.
-/
namespace Dialogue

namespace Action

open Progress

/-- One attempt: its number, the turn at which it begins, the turn before which it is over, and what
the handler gave, if it did not break off. -/
structure Try where
  number : Nat
  start : Nat
  finish : Nat
  outcome : Option ActionResult

/-- How many attempts an action is allowed. -/
def allowed (a : Action) : Nat := max 1 ((a.retry.bind RetryConfig.maxAttempts).getD 3)

theorem maxAttempts_ofConfig (a : Action) :
    (RetryPolicy.ofConfig a.retry).maxAttempts = a.allowed := by
  cases h : a.retry with
  | none => simp [RetryPolicy.ofConfig, allowed, h]
  | some c => simp [RetryPolicy.ofConfig, allowed, h]

/-- From turn `i` on the action waits for its attempt of a number, for as long as the policy has it
wait; the wait is over at turn `j`. -/
def Paused (a : Action) (env : Nat → Site) (number i j : Nat) (wake : Wake) : Prop :=
  ∃ ms, ((RetryPolicy.ofConfig a.retry).delayBefore number).Takes ms ∧ Pause env ms i j wake

/-- What an attempt counts as: breaking off is a failure for good. -/
def Try.result (a : Action) (t : Try) : ActionResult :=
  t.outcome.getD (.failure ("Action handler '" ++ a.handlerName ++ "' panicked"))

/-- No other attempt follows: it was a success, or is not to be tried again, or the attempts are
used up. -/
def Try.IsLast (a : Action) (t : Try) : Prop :=
  (t.result a).success = true ∨ (t.result a).retryable = false ∨ t.number = a.allowed

variable {env : Nat → Site} {a : Action} {handled : Work ActionResult}

/-- The attempt begins uncancelled, and is one run of the handler. -/
structure Try.Made (env : Nat → Site) (handled : Work ActionResult) (t : Try) : Prop where
  asked : (env t.start).cancelled = false
  ran : Ends env (t.start + 1) (.running handled) t.finish t.outcome

/-- The attempt `u` follows `t`, after the pause before it. -/
structure Try.Precedes (env : Nat → Site) (a : Action) (t u : Try) : Prop where
  goesOn : ¬ t.IsLast a
  paused : ∃ j, a.Paused env u.number t.finish j .timeUp ∧ u.start = j + 1

/-- The attempts that are made from turn `i` on, counted from a number. -/
structure Tried (env : Nat → Site) (a : Action) (handled : Work ActionResult) (number i : Nat)
    (tries : List Try) : Prop where
  numbered : tries.map Try.number = List.range' number tries.length
  first : ∀ t ∈ tries.head?, t.start = i
  made : ∀ t ∈ tries, t.Made env handled
  followed : tries.IsChain (Try.Precedes env a)

/-- Another attempt is due at turn `j`. -/
def Due (env : Nat → Site) (a : Action) (i : Nat) (tries : List Try) (j : Nat) : Prop :=
  match tries.getLast? with
  | none => j = i
  | some last => ¬ last.IsLast a ∧
    ∃ k, a.Paused env (last.number + 1) last.finish k .timeUp ∧ j = k + 1

/-- How a call from turn `i` on ends after its attempts: the turn before which it is over, and its
result. -/
inductive Concluded (env : Nat → Site) (a : Action) (i : Nat) (tries : List Try) :
    Nat → ActionResult → Prop
  | ended {last : Try} : tries.getLast? = some last → last.IsLast a →
    Concluded env a i tries last.finish (last.result a)
  | interrupted {last : Try} {j : Nat} : tries.getLast? = some last → ¬ last.IsLast a →
    a.Paused env (last.number + 1) last.finish j .cancelled →
    Concluded env a i tries (j + 1) .cancelled
  | refused {j : Nat} : Due env a i tries j → (env j).cancelled = true →
    Concluded env a i tries (j + 1) .cancelled

theorem Tried.nil (number i : Nat) : Tried env a handled number i [] where
  numbered := rfl
  first := by simp
  made := by simp
  followed := .nil

theorem Tried.single {t : Try} (h : t.Made env handled) :
    Tried env a handled t.number t.start [t] where
  numbered := rfl
  first := by simp
  made := by simpa using h
  followed := .singleton t

theorem Tried.cons {t : Try} {j : Nat} {tries : List Try} (h : t.Made env handled)
    (goesOn : ¬ t.IsLast a) (pause : a.Paused env (t.number + 1) t.finish j .timeUp)
    (later : Tried env a handled (t.number + 1) (j + 1) tries) :
    Tried env a handled t.number t.start (t :: tries) where
  numbered := by rw [List.map_cons, later.numbered, List.length_cons, List.range'_succ]
  first := by simp
  made := by
    intro u hu
    rcases List.mem_cons.mp hu with rfl | hu
    · exact h
    · exact later.made u hu
  followed := by
    cases tries with
    | nil => exact .singleton t
    | cons u tries =>
      have hnumber : u.number = t.number + 1 := (List.cons.inj later.numbered).1
      have hstart : u.start = j + 1 := later.first u rfl
      exact .cons_cons ⟨goesOn, j, hnumber ▸ pause, hstart⟩ later.followed

theorem Concluded.cons {t : Try} {i j finish : Nat} {tries : List Try} {result : ActionResult}
    (goesOn : ¬ t.IsLast a) (pause : a.Paused env (t.number + 1) t.finish j .timeUp)
    (later : Concluded env a (j + 1) tries finish result) :
    Concluded env a i (t :: tries) finish result := by
  cases later with
  | ended hlast last =>
    apply Concluded.ended _ last
    rw [List.getLast?_cons, hlast, Option.getD_some]
  | interrupted hlast last hpause =>
    apply Concluded.interrupted _ last hpause
    rw [List.getLast?_cons, hlast, Option.getD_some]
  | refused due hcancelled =>
    refine .refused ?_ hcancelled
    rw [Due] at due ⊢
    rw [List.getLast?_cons]
    cases hlast : tries.getLast? with
    | none =>
      rw [hlast] at due
      exact ⟨goesOn, j, pause, due⟩
    | some last =>
      rw [hlast] at due
      exact due

/-! ## The loop -/

/-- The milliseconds that the loop waits before an attempt. -/
def pauseMs (a : Action) (number : Nat) : Nat :=
  Work.waitMs ((RetryPolicy.ofConfig a.retry).delayBefore number)

theorem sleep_paused (passes : TimePasses env) (a : Action) (number i : Nat) :
    ∃ j wake, a.Paused env number i j wake ∧
      Ends env i (.running (Work.sleepUnlessCancelled (a.pauseMs number))) (j + 1) (some wake) := by
  obtain ⟨j, wake, hpause, hsleep⟩ := sleep_ends passes (a.pauseMs number) i
  exact ⟨j, wake, ⟨_, Work.waitMs_takes _, hpause⟩, hsleep⟩

/-- One attempt and what the loop makes of its result. -/
def afterwards (a : Action) (handled : Work ActionResult) (left number : Nat)
    (result : ActionResult) : Work ActionResult :=
  if result.success || !result.retryable || left = 0 then .done result
  else (Work.sleepUnlessCancelled (a.pauseMs (number + 1))).bind fun
    | .cancelled => .done .cancelled
    | .timeUp => attempts (.ofConfig a.retry) (attempt a.handlerName handled) left (number + 1)

theorem isLast_iff {t : Try} {left : Nat} (counted : t.number + left = a.allowed) :
    ((t.result a).success || !(t.result a).retryable || left = 0) = true ↔ t.IsLast a := by
  have hleft : left = 0 ↔ t.number = a.allowed := by omega
  simp only [Try.IsLast, Bool.or_eq_true, Bool.not_eq_true', decide_eq_true_eq, or_assoc, hleft]

theorem ends_last {t : Try} {left j : Nat} (counted : t.number + left = a.allowed)
    (last : t.IsLast a) :
    Ends env j (.running (a.afterwards handled left t.number (t.result a))) j
      (some (t.result a)) := by
  rw [afterwards, if_pos ((isLast_iff counted).mpr last)]
  exact .done

theorem ends_interrupted {t : Try} {left j k : Nat} (counted : t.number + left = a.allowed)
    (goesOn : ¬ t.IsLast a)
    (sleep : Ends env j (.running (Work.sleepUnlessCancelled (a.pauseMs (t.number + 1)))) k
      (some .cancelled)) :
    Ends env j (.running (a.afterwards handled left t.number (t.result a))) k
      (some .cancelled) := by
  rw [afterwards, if_neg (mt (isLast_iff counted).mp goesOn)]
  exact sleep.bind .done

theorem ends_again {t : Try} {left j k finish : Nat} {result : ActionResult}
    (counted : t.number + left = a.allowed) (goesOn : ¬ t.IsLast a)
    (sleep : Ends env j (.running (Work.sleepUnlessCancelled (a.pauseMs (t.number + 1)))) k
      (some .timeUp))
    (later : Ends env k (.running (attempts (.ofConfig a.retry) (attempt a.handlerName handled) left
      (t.number + 1))) finish (some result)) :
    Ends env j (.running (a.afterwards handled left t.number (t.result a))) finish
      (some result) := by
  rw [afterwards, if_neg (mt (isLast_iff counted).mp goesOn)]
  exact sleep.bind later

/-- From an uncancelled turn on, the loop runs the handler and goes on with its result. -/
theorem attempts_made {left number i j : Nat} {outcome : Option ActionResult} {finish : Nat}
    {result : ActionResult} (asked : (env i).cancelled = false)
    (ran : Ends env (i + 1) (.running handled) j outcome)
    (rest : Ends env j (.running (a.afterwards handled left number
      (Try.result a ⟨number, i, j, outcome⟩))) finish (some result)) :
    Ends env i (.running (attempts (.ofConfig a.retry) (attempt a.handlerName handled) (left + 1)
      number)) finish (some result) := by
  have hattempt : Ends env (i + 1) (.running (attempt a.handlerName handled)) j
      (some (Try.result a ⟨number, i, j, outcome⟩)) := ran.recover _
  apply Ends.ask
  show Ends env (i + 1) (.running (if (env i).cancelled then _ else _)) finish (some result)
  rw [asked]
  exact hattempt.bind rest

theorem attempts_end (passes : TimePasses env)
    (ends : ∀ i, ∃ j outcome, Ends env i (.running handled) j outcome) (left number i : Nat)
    (counted : number + left = a.allowed) :
    ∃ tries finish result,
      Ends env i (.running (attempts (.ofConfig a.retry) (attempt a.handlerName handled) (left + 1)
        number)) finish (some result) ∧
      Tried env a handled number i tries ∧ Concluded env a i tries finish result := by
  -- The attempts left go down as the number goes up, so that the last one is known by either.
  induction left using Nat.strongRecOn generalizing number i with
  | ind left ih =>
    cases hcancelled : (env i).cancelled with
    | true =>
      refine ⟨[], i + 1, .cancelled, Ends.ask ?_, .nil number i, .refused rfl hcancelled⟩
      show Ends env (i + 1) (.running (if (env i).cancelled then _ else _)) (i + 1) _
      rw [hcancelled]
      exact .done
    | false =>
      obtain ⟨j, outcome, hran⟩ := ends (i + 1)
      let t : Try := ⟨number, i, j, outcome⟩
      have hmade : t.Made env handled := ⟨hcancelled, hran⟩
      by_cases hlast : t.IsLast a
      · exact ⟨[t], j, t.result a, attempts_made hcancelled hran (ends_last (t := t) counted hlast),
          .single hmade, .ended rfl hlast⟩
      · obtain ⟨k, wake, hpause, hsleep⟩ := sleep_paused passes a (number + 1) j
        cases wake with
        | cancelled =>
          exact ⟨[t], k + 1, .cancelled,
            attempts_made hcancelled hran (ends_interrupted (t := t) counted hlast hsleep),
            .single hmade, .interrupted rfl hlast hpause⟩
        | timeUp =>
          -- The pause is over, and the rest of the call is a call with one attempt less.
          have hleft : left ≠ 0 := fun h => hlast (.inr (.inr (by rw [← counted, h]; rfl)))
          obtain ⟨left, rfl⟩ := Nat.exists_eq_succ_of_ne_zero hleft
          obtain ⟨tries, finish, result, hends, htried, hconcluded⟩ :=
            ih left (Nat.lt_succ_self left) (number + 1) (k + 1) (by omega)
          exact ⟨t :: tries, finish, result,
            attempts_made hcancelled hran (ends_again (t := t) counted hlast hsleep hends),
            .cons hmade hlast hpause htried, .cons hlast hpause hconcluded⟩

/-- A call ends, in one way, with the attempts that its policy allows: from turn 0 on it makes
attempts one after the other, each after the pause before it, until one is the last, and ends with
the result of that. Where it is cancelled no attempt begins any more, and it ends cancelled unless
the attempt under way is the last. -/
theorem execute_attempts {handlers : Entries ActionHandler} {handler : ActionHandler} {scope : Json}
    (registered : handlers.get? a.handlerName = some handler) (passes : TimePasses env)
    (ends : ∀ i, ∃ j outcome,
      Ends env i (.running (handler a.effectiveConfig scope)) j outcome) :
    ∃ tries finish result,
      (∀ j r, Ends env 0 (.running (a.execute handlers scope)) j r ↔
        j = finish ∧ r = some result) ∧
      Tried env a (handler a.effectiveConfig scope) 1 0 tries ∧
      Concluded env a 0 tries finish result ∧
      (∀ i, (env i).cancelled = true → ∀ t ∈ tries, t.start < i) ∧
      ((∀ i, (env i).cancelled = false) →
        ∃ last, tries.getLast? = some last ∧ last.IsLast a ∧ result = last.result a) := by
  have hallowed : 1 ≤ a.allowed := Nat.le_max_left 1 _
  have counted : 1 + (a.allowed - 1) = a.allowed := by omega
  obtain ⟨tries, finish, result, hends, htried, hconcluded⟩ :=
    attempts_end passes ends (a.allowed - 1) 1 0 counted
  refine ⟨tries, finish, result, ?_, htried, hconcluded, ?_, ?_⟩
  · rw [Nat.sub_add_cancel hallowed, ← maxAttempts_ofConfig] at hends
    have hcall : Ends env 0 (.running (a.execute handlers scope)) finish (some result) := by
      simpa only [execute, registered] using hends
    intro j r
    constructor
    · exact fun h => h.unique hcall
    · rintro ⟨rfl, rfl⟩
      exact hcall
  · intro i hcancelled t ht
    by_contra hlate
    have hasked := (htried.made t ht).asked
    rw [passes.cancelled_later hcancelled (Nat.le_of_not_lt hlate)] at hasked
    exact absurd hasked (by simp)
  · intro huncancelled
    cases hconcluded with
    | ended hlast last => exact ⟨_, hlast, last, rfl⟩
    | interrupted _ _ hpaused =>
      obtain ⟨ms, -, hpause⟩ := hpaused
      exact absurd ((hpause.cancelled.mp rfl).symm.trans (huncancelled _)) (by simp)
    | refused _ hcancelled =>
      exact absurd (hcancelled.symm.trans (huncancelled _)) (by simp)

/-- A payment, whose results are laid out. -/
def payments : Entries ActionHandler :=
  [("pay", fun _ _ => .ask (.cue "pay") fun
    | some result => .done result
    | none => .abort)]

/-- A till that is busy until the clock shows two seconds, at one turn a second. -/
def till (i : Nat) : Site where
  host := {
    nowMs := 1000 * i
    laidOut := [("pay", [if i < 2 then .retryableFailure "busy" else .done none])] }
  stores := { own := {}, shared := {}, owner := "" }

/-- A payment at the till ends with the result of an attempt. -/
theorem execute_attempts_payment :
    let payment : Action := { kind := "pay" }
    TimePasses till ∧ (∀ i, (till i).cancelled = false) ∧
    ∃ handler tries last finish, payments.get? payment.handlerName = some handler ∧
      (∀ i, ∃ j outcome,
        Ends till i (.running (handler payment.effectiveConfig .null)) j outcome) ∧
      Ends till 0 (.running (payment.execute payments .null)) finish (some (last.result payment)) ∧
      Tried till payment (handler payment.effectiveConfig .null) 1 0 tries ∧
      tries.getLast? = some last ∧ last.IsLast payment := by
  intro payment
  have passes : TimePasses till := {
    clock := fun nowMs i => ⟨i + nowMs, Nat.le_add_right i nowMs, by simp only [till]; omega⟩
    cancelled := fun i h => absurd h (by simp [till]) }
  have ends : ∀ i, ∃ j outcome, Ends till i (.running (.ask (.cue "pay") fun
      | some result => .done result
      | none => .abort)) j outcome :=
    fun i => ⟨i + 1, _, Ends.ask .done⟩
  have registered : payments.get? payment.handlerName = some _ := rfl
  obtain ⟨tries, finish, result, hends, htried, -, -, hlast⟩ :=
    execute_attempts registered passes ends
  obtain ⟨last, htries, last', rfl⟩ := hlast fun _ => rfl
  exact ⟨passes, fun _ => rfl, _, tries, last, finish, rfl, ends, (hends _ _).mpr ⟨rfl, rfl⟩,
    htried, htries, last'⟩

end Action

end Dialogue
