import Dialogue.Proofs.Json.Entries
import Dialogue.Proofs.Work.Aside

/-!
Loads that share a cache.

Any number of loads are under way at a time and take their turns in any order, and the cache is
invalidated in between (`LoadPool`). A load with caching on looks into the cache, and if it finds
nothing it fetches and then keeps what it got. The log of a run says which load looked in vain,
which one was served, which one kept a list, and which invalidations there were. Each list in the
cache was kept by a load that had looked in vain before, and no invalidation has met its key since
(`LoadPool.Sound.move`). So what a load is served was kept after every earlier invalidation of its
key. But it need not have been fetched since: the load that kept it may have looked before the
invalidation (`served_after_invalidation`), and then the invalidation is undone
(`served_across_invalidation`).
-/
namespace Dialogue

/-! ## Loads under way -/

/-- A load under way, for the conversation of a site. -/
structure LoadTask where
  config : SourceConfig
  scope : Json
  site : Site
  progress : Progress LoadResult

/-- Loads under way, with the host that all share. -/
structure LoadPool where
  host : Host := {}
  tasks : List LoadTask := []

namespace LoadPool

/-- What happens in a pool. -/
inductive Move where
  | start (config : SourceConfig) (scope : Json) (site : Site)
  | turn (i : Nat)
  | invalidate (pattern : Option String)
  /-- The host becomes another one but for the cache. -/
  | stir (surroundings : Host)

/-- What is recorded of the cache of a pool. -/
inductive Note where
  /-- A load found nothing under a key, and begins to fetch. -/
  | missed (i : Nat) (key : String)
  | served (i : Nat) (key : String) (choices : List Choice)
  | kept (i : Nat) (key : String) (choices : List Choice)
  | invalidated (pattern : Option String)

/-- What is recorded of the cache of a pool, from the beginning. -/
abbrev Log := List Note

/-- The pool after a turn of a load. -/
def turn (pool : LoadPool) (i : Nat) : LoadPool :=
  match pool.tasks[i]? with
  | none => pool
  | some task =>
    let (progress, site) := task.progress.turn { task.site with host := pool.host }
    { host := site.host, tasks := pool.tasks.set i { task with site, progress } }

/-- The pool after a move. -/
def move (functions : Entries OptionFunction) (pool : LoadPool) : Move → LoadPool
  | .start config scope site =>
    let progress := .running (config.load functions scope)
    { pool with tasks := pool.tasks ++ [{ config, scope, site, progress }] }
  | .turn i => pool.turn i
  | .invalidate pattern =>
    { pool with host := { pool.host with cache := pool.host.cache.invalidate pattern } }
  | .stir surroundings => { pool with host := { surroundings with cache := pool.host.cache } }

/-- What a turn of a load adds to the log. -/
def notesOf (host : Host) (i : Nat) : Progress LoadResult → Log
  | .running (.ask (.lookUp key ttlMs) _) =>
    match host.cache.lookUp host.nowMs key ttlMs with
    | some choices => [.served i key choices]
    | none => [.missed i key]
  | .running (.ask (.keep key choices) _) => [.kept i key choices]
  | _ => []

/-- What a move adds to the log. -/
def notes (pool : LoadPool) : Move → Log
  | .turn i => (pool.tasks[i]?).elim [] fun task => notesOf pool.host i task.progress
  | .invalidate pattern => [.invalidated pattern]
  | _ => []

/-- The pool after moves. -/
def run (functions : Entries OptionFunction) (pool : LoadPool) (moves : List Move) : LoadPool :=
  moves.foldl (move functions) pool

/-- What moves add to the log. -/
def log (functions : Entries OptionFunction) : LoadPool → List Move → Log
  | _, [] => []
  | pool, m :: moves => pool.notes m ++ log functions (pool.move functions m) moves

end LoadPool

/-! ## Fetching -/

/-- The program does not look into the cache, keeps lists under this key at most, and does not come
to a list from the cache. -/
def Work.Fetching (key : Option String) : Work LoadResult → Prop
  | .done r => r.fromCache = false
  | .abort => True
  | .ask (.lookUp ..) _ => False
  | .ask (.keep k _) next => key = some k ∧ ∀ answer, Work.Fetching key (next answer)
  | .ask _ next => ∀ answer, Work.Fetching key (next answer)
  | .wait _ _ next => ∀ wake, Work.Fetching key (next wake)

/-- The same of a program under way. -/
def Progress.Fetching (key : Option String) : Progress LoadResult → Prop
  | .running work => work.Fetching key
  | .waiting _ _ next => ∀ wake, (next wake).Fetching key

theorem Work.Aside.fetching {α : Type} {key : Option String} {f : α → Work LoadResult}
    (hf : ∀ a, (f a).Fetching key) : ∀ {w : Work α}, w.Aside → (w.bind f).Fetching key
  | .done a, _ => hf a
  | .abort, _ => trivial
  | .wait _ _ _, h => fun wake => Work.Aside.fetching hf (h wake)
  | .ask q next, h => by
    have hnext : ∀ answer, ((next answer).bind f).Fetching key :=
      fun answer => Work.Aside.fetching hf (h.2 answer)
    cases q with
    | lookUp k ttlMs => cases h.1
    | keep k choices => cases h.1
    | _ => exact hnext

theorem SourceConfig.fetchAndKeep_fetching {functions : Entries OptionFunction}
    (aside : KeepsAside functions) (c : SourceConfig) (scope : Json) (key : Option String) :
    (c.fetchAndKeep functions scope key).Fetching key := by
  refine Work.Aside.fetching (fun fetched => ?_) (fetch_aside aside c scope)
  cases fetched with
  | error e => rfl
  | ok choices =>
    cases key with
    | none => rfl
    | some key => exact ⟨rfl, fun _ => rfl⟩

theorem Progress.Fetching.turn {key : Option String} {p : Progress LoadResult}
    (h : p.Fetching key) (s : Site) : (p.turn s).1.Fetching key := by
  cases p with
  | waiting untilMs heeds next =>
    simp only [Progress.turn]
    split
    · exact h _
    · exact h
  | running work =>
    cases work with
    | ask q next =>
      cases q with
      | lookUp k ttlMs => exact h.elim
      | keep k choices => exact h.2 _
      | _ => exact h _
    | _ => exact h

/-! ## Where the lists in a cache come from -/

namespace LoadPool

/-- A load that had looked in vain under the key kept the list there, and no invalidation has met
the key since. -/
def Log.Stored (log : Log) (key : String) (choices : List Choice) : Prop :=
  ∃ i before after, log = before ++ .kept i key choices :: after ∧ .missed i key ∈ before ∧
    ∀ pattern, .invalidated pattern ∈ after → OptionCache.isMet pattern key = false

/-- A load was served a list that was stored under the key. -/
def Log.Served (log : Log) (i : Nat) (key : String) (choices : List Choice) : Prop :=
  ∃ before after, log = before ++ .served i key choices :: after ∧ Log.Stored before key choices

variable {functions : Entries OptionFunction} {log : Log} {i : Nat} {key : String}
  {choices : List Choice}

theorem Log.Stored.append (h : log.Stored key choices) {notes : Log}
    (unmet : ∀ pattern, .invalidated pattern ∈ notes → OptionCache.isMet pattern key = false) :
    (log ++ notes).Stored key choices := by
  obtain ⟨i, before, after, rfl, hmissed, hafter⟩ := h
  refine ⟨i, before, after ++ notes, by simp, hmissed, fun pattern hpattern => ?_⟩
  cases List.mem_append.mp hpattern with
  | inl h => exact hafter pattern h
  | inr h => exact unmet pattern h

theorem Log.Served.append (h : log.Served i key choices) (notes : Log) :
    (log ++ notes).Served i key choices := by
  obtain ⟨before, after, rfl, hstored⟩ := h
  exact ⟨before, after ++ notes, by simp, hstored⟩

/-- How far a load has come. -/
inductive Stage (functions : Entries OptionFunction) (log : Log) (i : Nat) (c : SourceConfig)
    (scope : Json) : Progress LoadResult → Prop where
  /-- It is about to look into the cache. -/
  | looking (policy : CachePolicy) (active : c.activeCache? = some policy) :
      Stage functions log i c scope (.running (c.load functions scope))
  /-- It fetches, and if it is to keep the list under a key, it has looked under that in vain. -/
  | fetching (key : Option String) (p : Progress LoadResult) (fetching : p.Fetching key)
      (missed : ∀ k, key = some k → .missed i k ∈ log) :
      Stage functions log i c scope p
  /-- It was served from the cache. -/
  | served (choices : List Choice) (h : log.Served i (c.cacheKey scope) choices) :
      Stage functions log i c scope
        (.running (.done { choices := applyFilter c.filter scope choices, fromCache := true }))

theorem Stage.append {c : SourceConfig} {scope : Json} {p : Progress LoadResult}
    (h : Stage functions log i c scope p) (notes : Log) :
    Stage functions (log ++ notes) i c scope p := by
  cases h with
  | looking policy active => exact .looking policy active
  | fetching key p fetching missed =>
    exact .fetching key p fetching fun k hk => List.mem_append_left notes (missed k hk)
  | served choices h => exact .served choices (h.append notes)

theorem Stage.start (aside : SourceConfig.KeepsAside functions) (log : Log) (i : Nat)
    (c : SourceConfig) (scope : Json) :
    Stage functions log i c scope (.running (c.load functions scope)) := by
  cases hactive : c.activeCache? with
  | some policy => exact .looking policy hactive
  | none =>
    refine .fetching none _ ?_ (fun k hk => by cases hk)
    rw [SourceConfig.load, hactive]
    exact SourceConfig.fetchAndKeep_fetching aside c scope none

/-- Each list in the cache was stored. -/
def Told (cache : OptionCache) (log : Log) : Prop :=
  ∀ key entry, Entries.get? cache key = some entry → log.Stored key entry.choices

theorem Told.append {cache : OptionCache} (h : Told cache log) {notes : Log}
    (unmet : ∀ pattern, .invalidated pattern ∉ notes) : Told cache (log ++ notes) :=
  fun key entry hentry => (h key entry hentry).append fun pattern hp => absurd hp (unmet pattern)

theorem Told.keep {cache : OptionCache} (h : Told cache log) (missed : .missed i key ∈ log)
    (nowMs : Nat) (choices : List Choice) :
    Told (cache.keep nowMs key choices) (log ++ [.kept i key choices]) := by
  intro other entry hentry
  rw [OptionCache.keep, Entries.get?_set] at hentry
  by_cases hkey : other = key
  · subst hkey
    rw [if_pos rfl] at hentry
    cases hentry
    exact ⟨i, log, [], rfl, missed, by simp⟩
  · rw [if_neg hkey] at hentry
    exact (h other entry hentry).append (by simp)

theorem Told.invalidate {cache : OptionCache} (h : Told cache log) (pattern : Option String) :
    Told (cache.invalidate pattern) (log ++ [.invalidated pattern]) := by
  intro key entry hentry
  rw [OptionCache.invalidate,
    Entries.get?_filter cache (fun key => !OptionCache.isMet pattern key) key] at hentry
  cases hmet : OptionCache.isMet pattern key with
  | true => simp [hmet] at hentry
  | false =>
    refine (h key entry (by simpa [hmet] using hentry)).append fun p hp => ?_
    cases List.mem_singleton.mp hp
    exact hmet

theorem Told.lookUp {cache : OptionCache} (h : Told cache log) {nowMs : Nat} {ttlMs : Option Nat}
    (found : cache.lookUp nowMs key ttlMs = some choices) : log.Stored key choices := by
  obtain ⟨entry, hentry, rfl⟩ := Option.map_eq_some_iff.mp found
  exact h key entry (Option.filter_eq_some_iff.mp hentry).1

theorem not_invalidated_notesOf (host : Host) (i : Nat) (p : Progress LoadResult)
    (pattern : Option String) : .invalidated pattern ∉ notesOf host i p := by
  unfold notesOf
  split
  · split <;> simp
  · simp
  · simp

/-- A turn of a load puts a list into the cache only under the key under which it has looked. -/
theorem Told.turn {s : Site} (told : Told s.host.cache log) {key : Option String}
    {p : Progress LoadResult} (h : p.Fetching key)
    (missed : ∀ k, key = some k → .missed i k ∈ log) :
    Told (p.turn s).2.host.cache (log ++ notesOf s.host i p) := by
  rcases p.turn_cache s with hcache | ⟨k, choices, next, rfl, hcache⟩
  · rw [hcache]
    exact told.append (not_invalidated_notesOf s.host i p)
  · rw [hcache]
    exact told.keep (missed k h.1) s.host.nowMs choices

theorem Stage.turn (aside : SourceConfig.KeepsAside functions) {c : SourceConfig} {scope : Json}
    {p : Progress LoadResult} (h : Stage functions log i c scope p) (s : Site)
    (told : Told s.host.cache log) :
    Stage functions (log ++ notesOf s.host i p) i c scope (p.turn s).1 ∧
      Told (p.turn s).2.host.cache (log ++ notesOf s.host i p) := by
  cases h with
  | looking policy active =>
    simp only [SourceConfig.load, active, Progress.turn, Site.answer, notesOf]
    cases hfound : s.host.cache.lookUp s.host.nowMs (c.cacheKey scope) policy.ttlMs with
    | some choices =>
      exact ⟨.served choices ⟨log, [], rfl, told.lookUp hfound⟩, told.append (by simp)⟩
    | none =>
      refine ⟨.fetching (some (c.cacheKey scope)) _ ?_ ?_, told.append (by simp)⟩
      · exact SourceConfig.fetchAndKeep_fetching aside c scope _
      · rintro k ⟨⟩
        exact List.mem_append_right log (List.mem_singleton_self _)
  | fetching key p fetching missed =>
    refine ⟨.fetching key _ (fetching.turn s) fun k hk => ?_, told.turn fetching missed⟩
    exact List.mem_append_left _ (missed k hk)
  | served choices h =>
    exact ⟨.served choices (h.append _), told.append (by simp [notesOf])⟩

/-- Each list in the cache was stored, and each load has come to some stage. -/
structure Sound (functions : Entries OptionFunction) (pool : LoadPool) (log : Log) : Prop where
  told : Told pool.host.cache log
  staged : ∀ i task, pool.tasks[i]? = some task →
    Stage functions log i task.config task.scope task.progress

theorem Sound.move (aside : SourceConfig.KeepsAside functions) {pool : LoadPool}
    (h : Sound functions pool log) (m : Move) :
    Sound functions (pool.move functions m) (log ++ pool.notes m) := by
  have kept (i : Nat) (task : LoadTask) (hi : pool.tasks[i]? = some task) (notes : Log) :
      Stage functions (log ++ notes) i task.config task.scope task.progress :=
    (h.staged i task hi).append notes
  cases m with
  | start config scope site =>
    refine ⟨h.told.append (by simp [notes]), fun i task hi => ?_⟩
    simp only [LoadPool.move] at hi
    rw [List.getElem?_append] at hi
    split at hi
    · exact kept i task hi _
    · rw [List.getElem?_singleton] at hi
      split at hi
      · cases hi
        exact .start aside _ i config scope
      · cases hi
  | turn k =>
    cases hk : pool.tasks[k]? with
    | none =>
      simp only [LoadPool.move, LoadPool.turn, notes, hk, Option.elim_none]
      exact ⟨h.told.append (by simp), fun i task hi => kept i task hi _⟩
    | some task =>
      obtain ⟨hstage, htold⟩ :=
        (h.staged k task hk).turn aside { task.site with host := pool.host } h.told
      simp only [LoadPool.move, LoadPool.turn, notes, hk, Option.elim_some]
      refine ⟨htold, fun i other hi => ?_⟩
      rw [List.getElem?_set] at hi
      split at hi
      · next hik =>
        subst hik
        split at hi
        · cases hi
          exact hstage
        · cases hi
      · exact kept i other hi _
  | invalidate pattern =>
    exact ⟨h.told.invalidate pattern, fun i task hi => kept i task hi _⟩
  | stir surroundings =>
    exact ⟨h.told.append (by simp [notes]), fun i task hi => kept i task hi _⟩

theorem Sound.run (aside : SourceConfig.KeepsAside functions) (moves : List Move) {pool : LoadPool}
    (h : Sound functions pool log) :
    Sound functions (pool.run functions moves) (log ++ pool.log functions moves) := by
  induction moves generalizing pool log with
  | nil =>
    rw [LoadPool.log, List.append_nil]
    exact h
  | cons m moves ih =>
    rw [LoadPool.log, ← List.append_assoc]
    exact ih (h.move aside m)

/-- A list that is stored was kept after each invalidation of its key, by a load that looked in vain
before it kept the list. -/
theorem Log.Stored.since {old since : Log} {pattern : Option String}
    (h : Log.Stored (old ++ .invalidated pattern :: since) key choices)
    (met : OptionCache.isMet pattern key = true) :
    ∃ j mid rest, since = mid ++ .kept j key choices :: rest ∧
      (.missed j key ∈ mid ∨ .missed j key ∈ old) := by
  obtain ⟨j, before, after, hlog, hmissed, hafter⟩ := h
  rcases List.append_eq_append_iff.mp hlog with ⟨mid, hbefore, hmid⟩ | ⟨mid, hold, hmid⟩
  · cases mid with
    | nil => cases hmid
    | cons note mid =>
      obtain ⟨rfl, hsince⟩ := List.cons.inj hmid
      refine ⟨j, mid, after, hsince, ?_⟩
      rw [hbefore] at hmissed
      simpa [or_comm] using hmissed
  · -- The list would have been kept before the invalidation, which has met the key since.
    have hmem : .invalidated pattern ∈ after := by
      cases mid with
      | nil => cases hmid
      | cons note mid =>
        obtain ⟨-, rfl⟩ := List.cons.inj hmid
        simp
    rw [hafter pattern hmem] at met
    cases met

/-- A load that has ended with a list from the cache was served that list, and filtered it. -/
theorem Stage.served_of_fromCache {c : SourceConfig} {scope : Json} {p : Progress LoadResult}
    (h : Stage functions log i c scope p) {r : LoadResult} (ended : p = .running (.done r))
    (cached : r.fromCache = true) : ∃ choices, log.Served i (c.cacheKey scope) choices ∧
      r = { choices := applyFilter c.filter scope choices, fromCache := true } := by
  cases h with
  | looking policy active =>
    simp only [SourceConfig.load, active] at ended
    cases ended
  | fetching key p fetching missed =>
    subst ended
    have fresh : r.fromCache = false := fetching
    rw [fresh] at cached
    cases cached
  | served choices h =>
    cases ended
    exact ⟨choices, h, rfl⟩

/-- Let registered functions keep away from the cache, and let loads run interleaved, from an empty
cache, with each other and with invalidations. A load that ends with a list from the cache was
served that list under its key, and filtered it. Each invalidation that met the key before was
followed by a load that kept this very list under the key. The fetch of that load began after the
invalidation, when it had looked in vain, unless it had looked before the invalidation already. -/
theorem served_after_invalidation (aside : SourceConfig.KeepsAside functions) {pool : LoadPool}
    (hcache : pool.host.cache = []) (hidle : pool.tasks = []) (moves : List Move) {i : Nat}
    {task : LoadTask} (hi : (pool.run functions moves).tasks[i]? = some task) {r : LoadResult}
    (ended : task.progress = .running (.done r)) (cached : r.fromCache = true) :
    let key := task.config.cacheKey task.scope
    ∃ choices before after,
      r = { choices := applyFilter task.config.filter task.scope choices, fromCache := true } ∧
      pool.log functions moves = before ++ .served i key choices :: after ∧
      ∀ old pattern since, before = old ++ .invalidated pattern :: since →
        OptionCache.isMet pattern key = true →
        ∃ j mid rest, since = mid ++ .kept j key choices :: rest ∧
          (.missed j key ∈ mid ∨ .missed j key ∈ old) := by
  intro key
  have hsound : Sound functions pool [] := by
    constructor
    · rw [hcache]
      intro key entry hentry
      cases hentry
    · rw [hidle]
      intro i task hi
      cases hi
  have hrun := hsound.run aside moves
  rw [List.nil_append] at hrun
  obtain ⟨choices, ⟨before, after, hlog, hstored⟩, hr⟩ :=
    (hrun.staged i task hi).served_of_fromCache ended cached
  refine ⟨choices, before, after, hr, hlog, ?_⟩
  rintro old pattern since rfl met
  exact hstored.since met

/-! ### Slots of a day -/

/-- A reply that offers the slots of a part of the day. -/
def slotsReply (part : String) : HttpReply :=
  { answer := some (.ok { status := 200, body := .array [.string part] }) }

/-- A pool where an endpoint offers the slots of the morning once, and then those of the evening. -/
def slotPool : LoadPool where
  host := { network := .queue [slotsReply "morning", slotsReply "evening", slotsReply "evening"] }

/-- A load of the slots is started. -/
def startSlots : Move :=
  .start { source := .api "/slots" "GET" [] none none, cache := some {} } .null
    { host := {}, stores := { owner := "client" } }

/-- A load looks in vain, sends its request, waits for the reply, and keeps the list. -/
def fetchTurns (i : Nat) : List Move := List.replicate 5 (.turn i)

theorem no_functions_keepAside : SourceConfig.KeepsAside [] := by
  intro name f hf
  cases hf

/-- The slots of the morning were fetched and then invalidated. The third load gets those of the
evening, which the second load fetched since. -/
theorem served_after_invalidation_slots :
    let moves := startSlots :: fetchTurns 0 ++ [.invalidate none, startSlots] ++ fetchTurns 1 ++
      [startSlots, .turn 2]
    let evening := Transform.choiceOf none (.string "evening")
    SourceConfig.KeepsAside [] ∧ slotPool.host.cache = [] ∧ slotPool.tasks = [] ∧
    (∃ task, (slotPool.run [] moves).tasks[2]? = some task ∧
      task.progress = .running (.done { choices := [evening], fromCache := true })) ∧
    ∃ before after,
      slotPool.log [] moves = before ++ .served 2 "api:/slots" [evening] :: after ∧
      ∀ old pattern since, before = old ++ .invalidated pattern :: since →
        OptionCache.isMet pattern "api:/slots" = true →
        ∃ j mid rest, since = mid ++ .kept j "api:/slots" [evening] :: rest ∧
          (.missed j "api:/slots" ∈ mid ∨ .missed j "api:/slots" ∈ old) := by
  intro moves evening
  obtain ⟨choices, before, after, hr, hlog, hsince⟩ :=
    served_after_invalidation no_functions_keepAside (show slotPool.host.cache = [] from rfl) rfl
      moves (i := 2) rfl (r := { choices := [evening], fromCache := true }) rfl rfl
  -- There is no filter, so the list is what the load gives.
  have hchoices : [evening] = choices := congrArg LoadResult.choices hr
  subst hchoices
  exact ⟨no_functions_keepAside, rfl, rfl, ⟨_, rfl, rfl⟩, before, after, hlog, hsince⟩

/-- An invalidation comes while the reply of a load is under way, and what that load then keeps
serves the next one: the slots of the morning, though the endpoint offers those of the evening by
now, and no fetch has begun since the invalidation. -/
theorem served_across_invalidation :
    let moves := [startSlots, .turn 0, .turn 0, .invalidate none, .turn 0, .turn 0, .turn 0,
      startSlots, .turn 1]
    let morning := Transform.choiceOf none (.string "morning")
    let old : Log := [.missed 0 "api:/slots"]
    let since : Log := [.kept 0 "api:/slots" [morning]]
    (∃ task, (slotPool.run [] moves).tasks[1]? = some task ∧
      task.progress = .running (.done { choices := [morning], fromCache := true })) ∧
    slotPool.log [] moves =
      old ++ .invalidated none :: since ++ [.served 1 "api:/slots" [morning]] ∧
    OptionCache.isMet none "api:/slots" = true ∧ (∀ j key, .missed j key ∉ since) ∧
    (slotPool.run [] moves).host.network =
      .queue [slotsReply "evening", slotsReply "evening"] := by
  intro moves morning old since
  refine ⟨⟨_, rfl, rfl⟩, rfl, rfl, fun j key h => ?_, rfl⟩
  cases List.mem_singleton.mp h

end LoadPool

end Dialogue
