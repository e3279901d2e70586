import Dialogue.Options.Load
import Dialogue.Work.Host

/-!
Work that keeps away from the cache.

`Work.Aside` says of a program that none of its questions is about the cache, whatever it is
answered. Such a program leaves the cache as it is, both when it runs alone (`Aside.runAlone`) and
in each of its turns beside other work (`Progress.turn_cache`). Fetching a list is such a program
where the registered functions are (`SourceConfig.fetch_aside`).
-/
namespace Dialogue

/-- Whether a question is about the cache. -/
def Query.ofCache : Query → Bool
  | .lookUp .. => true
  | .keep .. => true
  | _ => false

/-- The answer to a question that is not about the cache leaves the cache as it is. -/
theorem Site.answer_cache (s : Site) {q : Query} (h : q.ofCache = false) :
    (s.answer q).2.host.cache = s.host.cache := by
  cases q with
  | isCancelled => rfl
  | send request => rfl
  | store scope op => rfl
  | navigate target =>
    simp only [Site.answer]
    split <;> rfl
  | cue name =>
    simp only [Site.answer, Host.cue]
    split <;> rfl
  | lookUp key ttlMs => cases h
  | keep key choices => cases h

namespace Work

variable {α β : Type}

/-- No question of the program is about the cache, whatever it is answered. -/
def Aside : Work α → Prop
  | .done _ => True
  | .abort => True
  | .ask q next => q.ofCache = false ∧ ∀ answer, Aside (next answer)
  | .wait _ _ next => ∀ wake, Aside (next wake)

theorem Aside.bind {f : α → Work β} (hf : ∀ a, (f a).Aside) :
    ∀ {w : Work α}, w.Aside → (w.bind f).Aside
  | .done a, _ => hf a
  | .abort, _ => trivial
  | .ask _ _, h => ⟨h.1, fun answer => Aside.bind hf (h.2 answer)⟩
  | .wait _ _ _, h => fun wake => Aside.bind hf (h wake)

theorem Aside.send (request : HttpRequest) (timeoutMs : Nat) :
    (Work.send request timeoutMs).Aside :=
  ⟨rfl, fun _ _ => trivial⟩

/-- Work that keeps away from the cache leaves it as it is. -/
theorem Aside.runAlone (cancelAtMs : Option Nat) : ∀ {w : Work α}, w.Aside → ∀ s : Site,
    (w.runAlone cancelAtMs s).2.host.cache = s.host.cache
  | .done _, _, _ => rfl
  | .abort, _, _ => rfl
  | .ask q next, h, s => by
    simp only [Work.runAlone]
    rw [Aside.runAlone cancelAtMs (h.2 _), s.answer_cache h.1]
  | .wait ms heeds next, h, s => by
    simp only [Work.runAlone]
    split
    · exact Aside.runAlone cancelAtMs (h .cancelled) _
    · exact Aside.runAlone cancelAtMs (h .timeUp) _
    · rfl

end Work

/-- A turn changes the cache only where it puts a list there. -/
theorem Progress.turn_cache {α : Type} (s : Site) (p : Progress α) :
    (p.turn s).2.host.cache = s.host.cache ∨ ∃ key choices next,
      p = .running (.ask (.keep key choices) next) ∧
      (p.turn s).2.host.cache = s.host.cache.keep s.host.nowMs key choices := by
  cases p with
  | waiting untilMs heeds next =>
    simp only [turn]
    split <;> exact .inl rfl
  | running work =>
    cases work with
    | done a => exact .inl rfl
    | abort => exact .inl rfl
    | wait ms heeds next => exact .inl rfl
    | ask q next =>
      cases hq : q.ofCache with
      | false => exact .inl (s.answer_cache hq)
      | true =>
        cases q with
        | lookUp key ttlMs => exact .inl rfl
        | keep key choices => exact .inr ⟨key, choices, next, rfl, rfl⟩
        | _ => cases hq

namespace SourceConfig

/-- The registered functions keep away from the cache. -/
def KeepsAside (functions : Entries OptionFunction) : Prop :=
  ∀ name f, functions.get? name = some f → ∀ params scope, (f params scope).Aside

theorem fetch_aside {functions : Entries OptionFunction} (aside : KeepsAside functions)
    (c : SourceConfig) (scope : Json) : (c.fetch functions scope).Aside := by
  obtain ⟨source, filter, transform, cache⟩ := c
  cases source with
  | static choices => trivial
  | function name params =>
    cases hf : functions.get? name with
    | none => simp only [fetch, hf]; trivial
    | some f =>
      simp only [fetch, hf]
      refine Work.Aside.bind (fun items => ?_) (aside name f hf params scope)
      cases items <;> trivial
  | api url method headers body timeoutMs =>
    simp only [fetch]
    refine Work.Aside.bind (fun response => ?_) (Work.Aside.send _ _)
    trivial

end SourceConfig

end Dialogue
