import Mathlib.Data.List.Induction
import Dialogue.Options.Load
import Dialogue.Proofs.Work.Alone

/-!
Where cached choices come from.

A load without a key of its own keeps the list that it fetches under the kind of its source and what
names the source: a function's name, or the filled-in address of an endpoint. What else the source
is given (`SourceConfig.given`) is not part of that. Every entry of the cache is a list that such a
load fetched (`Filled`), so a load that is answered from the cache gets the list of an earlier load
of the same kind and name, put through its own filter. That is what it would get without the cache
if the earlier load gave the source the same (`cached_load_provenance`), and need not be otherwise
(`cached_load_opaque`).
-/
namespace Dialogue

/-! ## What a fetched list depends on -/

/-- All that a fetched list depends on: what the source is given, and how its items are read. -/
inductive Given where
  | list (choices : List Choice)
  | call (name : String) (params scope : Json) (transform : Option Transform)
  | request (request : HttpRequest) (timeoutMs : Nat) (transform : Option Transform)

/-- What names a source within its kind; a written list has no name. -/
def ChoiceSource.locator? (source : ChoiceSource) (scope : Json) : Option String :=
  match source with
  | .static _ => none
  | .function name _ => some name
  | .api url .. => some (Template.interpolatePaths url scope)

namespace SourceConfig

/-- What the list of a load depends on. -/
def given (c : SourceConfig) (scope : Json) : Given :=
  match c.source with
  | .static choices => .list choices
  | .function name params => .call name params scope c.transform
  | .api url method headers body timeoutMs =>
    .request {
        method
        url := Template.interpolatePaths url scope
        headers := headers.map fun (name, v) => (name, Template.interpolatePaths v scope)
        body := body.map (Template.interpolateDeep scope) }
      (timeoutMs.getD defaultTimeoutMs) c.transform

/-- The configuration with caching off. -/
def uncached (c : SourceConfig) : SourceConfig := { c with cache := none }

/-- Caching is on, and the policy has no key of its own. -/
structure KeptBySource (c : SourceConfig) : Prop where
  active : c.activeCache?.isSome = true
  unkeyed : c.cache.bind CachePolicy.key = none

variable {functions : Entries OptionFunction} {reply : HttpRequest → HttpReply}
  {c c' : SourceConfig} {scope scope' : Json}

theorem fetch_congr (functions : Entries OptionFunction) (h : c.given scope = c'.given scope') :
    c.fetch functions scope = c'.fetch functions scope' := by
  obtain ⟨source, filter, transform, cache⟩ := c
  obtain ⟨source', filter', transform', cache'⟩ := c'
  cases source <;> cases source' <;> simp only [given, reduceCtorEq] at h
  · cases h; rfl
  · cases h; rfl
  · simp only [Given.request.injEq] at h
    obtain ⟨hrequest, htimeout, htransform⟩ := h
    simp only [fetch, hrequest, htimeout, htransform]

/-- Where keys are made of the sources, one key is of one kind of source and one name. -/
theorem cacheKey_eq (hc : c.KeptBySource) (hc' : c'.KeptBySource)
    (h : c.cacheKey scope = c'.cacheKey scope') :
    c.source.name = c'.source.name ∧ c.source.locator? scope = c'.source.locator? scope' := by
  simp only [cacheKey, hc.unkeyed, hc'.unkeyed] at h
  cases hs : c.source <;> cases hs' : c'.source <;> simp only [hs, hs'] at h
  · exact ⟨rfl, rfl⟩
  · exact absurd (congrArg String.toList h) (by simp)
  · exact absurd (congrArg String.toList h) (by simp)
  · exact absurd (congrArg String.toList h) (by simp)
  · exact ⟨rfl, congrArg some ((String.append_right_inj "function:").1 h)⟩
  · exact absurd (congrArg String.toList h) (by simp)
  · exact absurd (congrArg String.toList h) (by simp)
  · exact absurd (congrArg String.toList h) (by simp)
  · exact ⟨rfl, congrArg some ((String.append_right_inj "api:").1 h)⟩

/-! ## Sources that answer by what they are given -/

/-- What a registered function gives depends on its parameters and the scope alone, wherever
requests are answered by the endpoint. -/
def Steady (functions : Entries OptionFunction) (reply : HttpRequest → HttpReply) : Prop :=
  ∀ name f, functions.get? name = some f →
    ∀ params scope, ∃ items, (f params scope).Gives reply items

/-- A fetch gives one list, or fails. -/
theorem fetch_gives (steady : Steady functions reply) (c : SourceConfig) (scope : Json) :
    ∃ fetched, (c.fetch functions scope).Gives reply fetched := by
  obtain ⟨source, filter, transform, cache⟩ := c
  cases source with
  | static choices => exact ⟨_, .done reply _⟩
  | function name params =>
    cases hf : functions.get? name with
    | none => exact ⟨_, by simpa only [fetch, hf] using .done reply _⟩
    | some f =>
      obtain ⟨items, hitems⟩ := steady name f hf params scope
      simp only [fetch, hf]
      cases items with
      | ok items => exact ⟨_, hitems.bind (.done reply _)⟩
      | error message => exact ⟨_, hitems.bind (.done reply _)⟩
  | api url method headers body timeoutMs =>
    exact ⟨_, (Work.Gives.send reply _ _).bind (.done reply _)⟩

/-- What a load comes to that fetched this, or failed to. -/
def loaded (c : SourceConfig) (scope : Json) : Except FetchError (List Choice) → LoadResult
  | .error e => { choices := [], error := some e.message }
  | .ok choices => { choices := applyFilter c.filter scope choices }

/-- A load without caching gives what it fetches, filtered. -/
theorem load_uncached_gives {fetched : Except FetchError (List Choice)}
    (h : (c.fetch functions scope).Gives reply fetched) :
    (c.uncached.load functions scope).Gives reply (c.loaded scope fetched) := by
  have hfetch : (c.uncached.fetch functions scope).Gives reply fetched := h
  refine hfetch.bind ?_
  cases fetched with
  | error e => exact .done reply _
  | ok choices => exact .done reply _

/-- How a load with caching on ends: it is answered from the cache, or keeps what it fetches, or
fails. -/
inductive Ends (c : SourceConfig) (scope : Json) (policy : CachePolicy)
    (fetched : Except FetchError (List Choice)) (h : Host) : LoadResult → Host → Prop where
  | cached (choices : List Choice)
      (found : h.cache.lookUp h.nowMs (c.cacheKey scope) policy.ttlMs = some choices) :
      Ends c scope policy fetched h
        { choices := applyFilter c.filter scope choices, fromCache := true } h
  | kept (choices : List Choice) (h' : Host)
      (missed : h.cache.lookUp h.nowMs (c.cacheKey scope) policy.ttlMs = none)
      (ok : fetched = .ok choices)
      (cache : h'.cache = h.cache.keep h'.nowMs (c.cacheKey scope) choices) :
      Ends c scope policy fetched h { choices := applyFilter c.filter scope choices } h'
  | failed (e : FetchError) (h' : Host)
      (missed : h.cache.lookUp h.nowMs (c.cacheKey scope) policy.ttlMs = none)
      (error : fetched = .error e) (cache : h'.cache = h.cache) :
      Ends c scope policy fetched h { choices := [], error := some e.message } h'

theorem load_ends {policy : CachePolicy} {fetched : Except FetchError (List Choice)}
    (hp : c.activeCache? = some policy) (h : (c.fetch functions scope).Gives reply fetched)
    {s : Site} (hn : s.host.network = .endpoint reply) :
    ∃ r s', (c.load functions scope).runAlone none s = (some r, s') ∧
      s'.host.network = .endpoint reply ∧ c.Ends scope policy fetched s.host r s'.host := by
  simp only [load, hp, Work.runAlone, Site.answer]
  cases hfound : s.host.cache.lookUp s.host.nowMs (c.cacheKey scope) policy.ttlMs with
  | some choices => exact ⟨_, s, rfl, hn, .cached choices hfound⟩
  | none =>
    obtain ⟨s', hrun, hn', hcache⟩ := h s hn
    have hbind : (c.fetchAndKeep functions scope (some (c.cacheKey scope))).runAlone none s = _ :=
      Work.runAlone_bind none _ (c.fetch functions scope) s
    rw [hrun] at hbind
    cases fetched with
    | error e => exact ⟨_, s', hbind, hn', .failed e s'.host hfound rfl hcache⟩
    | ok choices => exact ⟨_, _, hbind, hn', .kept choices _ hfound rfl (by rw [← hcache])⟩

end SourceConfig

/-! ## Sequences of loads -/

/-- A load of choices in a scope, for the conversation of a site, some time after the load
before. -/
structure Load where
  config : SourceConfig
  scope : Json
  site : Site
  idleMs : Nat := 0

namespace Load

variable {functions : Entries OptionFunction} {reply : HttpRequest → HttpReply}

/-- The surroundings of a load: those of its conversation, with the host that all share. -/
def siteIn (l : Load) (h : Host) : Site :=
  { l.site with host := { h with nowMs := h.nowMs + l.idleMs } }

/-- What a load gives, and the shared host afterwards. -/
def run (functions : Entries OptionFunction) (l : Load) (h : Host) : Option LoadResult × Host :=
  let (r, s) := (l.config.load functions l.scope).runAlone none (l.siteIn h)
  (r, s.host)

/-- The shared host after loads, one after another. -/
def runAll (functions : Entries OptionFunction) (h : Host) (loads : List Load) : Host :=
  loads.foldl (fun h l => (l.run functions h).2) h

theorem runAll_concat (functions : Entries OptionFunction) (h : Host) (loads : List Load)
    (l : Load) :
    runAll functions h (loads ++ [l]) = (l.run functions (runAll functions h loads)).2 := by
  rw [runAll, List.foldl_append]
  rfl

theorem run_ends {l : Load} {policy : CachePolicy} {fetched : Except FetchError (List Choice)}
    (hp : l.config.activeCache? = some policy)
    (hf : (l.config.fetch functions l.scope).Gives reply fetched) {h : Host}
    (hn : h.network = .endpoint reply) :
    ∃ r h', l.run functions h = (some r, h') ∧ h'.network = .endpoint reply ∧
      l.config.Ends l.scope policy fetched (l.siteIn h).host r h' := by
  obtain ⟨r, s', hrun, hn', hends⟩ := SourceConfig.load_ends hp hf (s := l.siteIn h) hn
  exact ⟨r, s'.host, by rw [run, hrun], hn', hends⟩

/-- Each entry of the cache is a list that one of the loads fetched. -/
def Filled (functions : Entries OptionFunction) (reply : HttpRequest → HttpReply)
    (loads : List Load) (cache : OptionCache) : Prop :=
  ∀ key entry, Entries.get? cache key = some entry → ∃ l ∈ loads,
    l.config.cacheKey l.scope = key ∧
      (l.config.fetch functions l.scope).Gives reply (.ok entry.choices)

theorem Filled.lookUp {loads : List Load} {cache : OptionCache}
    (h : Filled functions reply loads cache) {nowMs : Nat} {key : String} {ttlMs : Option Nat}
    {choices : List Choice} (found : cache.lookUp nowMs key ttlMs = some choices) :
    ∃ l ∈ loads, l.config.cacheKey l.scope = key ∧
      (l.config.fetch functions l.scope).Gives reply (.ok choices) := by
  obtain ⟨entry, hentry, rfl⟩ := Option.map_eq_some_iff.1 found
  exact h key entry (Option.filter_eq_some_iff.1 hentry).1

/-- A load puts its own list into the cache, if anything. -/
theorem Filled.concat {loads : List Load} {h h' : Host} {l : Load} {policy : CachePolicy}
    {fetched : Except FetchError (List Choice)} {r : LoadResult}
    (hfilled : Filled functions reply loads h.cache)
    (hf : (l.config.fetch functions l.scope).Gives reply fetched)
    (hends : l.config.Ends l.scope policy fetched h r h') :
    Filled functions reply (loads ++ [l]) h'.cache := by
  have hbefore : Filled functions reply (loads ++ [l]) h.cache := by
    intro key entry he
    obtain ⟨l', hl', hkey⟩ := hfilled key entry he
    exact ⟨l', List.mem_append_left _ hl', hkey⟩
  cases hends with
  | cached choices found => exact hbefore
  | failed e h' missed error cache => rw [cache]; exact hbefore
  | kept choices h' missed ok cache =>
    intro key entry he
    rw [cache, OptionCache.keep, Entries.get?_set] at he
    split at he
    · next hkey =>
      cases he
      refine ⟨l, List.mem_append_right _ (.head _), hkey.symm, ?_⟩
      rw [← ok]
      exact hf
    · exact hbefore key entry he

/-- After loads that start with an empty cache, each entry is a list that one of them fetched. -/
theorem runAll_filled (steady : SourceConfig.Steady functions reply) {h : Host}
    (hn : h.network = .endpoint reply) (hc : h.cache = []) (loads : List Load)
    (kept : ∀ l ∈ loads, l.config.KeptBySource) :
    (runAll functions h loads).network = .endpoint reply ∧
      Filled functions reply loads (runAll functions h loads).cache := by
  induction loads using List.reverseRecOn with
  | nil =>
    refine ⟨hn, fun key entry he => ?_⟩
    rw [show (runAll functions h []).cache = [] from hc] at he
    cases he
  | append_singleton loads l ih =>
    obtain ⟨hn', hfilled⟩ := ih fun l' hl' => kept l' (List.mem_append_left _ hl')
    obtain ⟨policy, hp⟩ :=
      Option.isSome_iff_exists.1 (kept l (List.mem_append_right _ (.head _))).active
    obtain ⟨fetched, hf⟩ := SourceConfig.fetch_gives steady l.config l.scope
    obtain ⟨r, h', hrun, hn'', hends⟩ := run_ends hp hf hn'
    rw [runAll_concat, hrun]
    exact ⟨hn'', hfilled.concat (h := (l.siteIn _).host) hf hends⟩

/-- Let sources answer by what they are given, and let loads with caching on, whose keys are made of
their sources, run one after another from an empty cache. A further such load is answered, and one
that is not answered from the cache gets what it would get with caching off. One that is answered
from the cache gets the list of an earlier load of the same kind and name, put through its own
filter; and that is what it would get with caching off if the earlier list depends on the same. -/
theorem cached_load_provenance (steady : SourceConfig.Steady functions reply) {h : Host}
    (hn : h.network = .endpoint reply) (hc : h.cache = []) {loads : List Load}
    (kept : ∀ l ∈ loads, l.config.KeptBySource) {l : Load} (hl : l.config.KeptBySource) :
    let host := runAll functions h loads
    ∃ r u, (l.run functions host).1 = some r ∧
      (({ l with config := l.config.uncached } : Load).run functions host).1 = some u ∧
      (r.fromCache = false → r = u) ∧
      (r.fromCache = true → ∃ earlier ∈ loads,
        earlier.config.source.name = l.config.source.name ∧
        earlier.config.source.locator? earlier.scope = l.config.source.locator? l.scope ∧
        (l.config.source.locator? l.scope ≠ none → ∃ choices,
          (earlier.config.fetch functions earlier.scope).Gives reply (.ok choices) ∧
          r.choices = applyFilter l.config.filter l.scope choices) ∧
        (earlier.config.given earlier.scope = l.config.given l.scope →
          r.choices = u.choices)) := by
  intro host
  obtain ⟨hn', hfilled⟩ := runAll_filled steady hn hc loads kept
  obtain ⟨policy, hp⟩ := Option.isSome_iff_exists.1 hl.active
  obtain ⟨fetched, hf⟩ := SourceConfig.fetch_gives steady l.config l.scope
  obtain ⟨r, h', hrun, -, hends⟩ := run_ends hp hf hn'
  obtain ⟨s', huncached, -, -⟩ := SourceConfig.load_uncached_gives hf (l.siteIn host) hn'
  refine ⟨r, l.config.loaded l.scope fetched, by rw [hrun], ?_, ?_⟩
  · exact congrArg Prod.fst huncached
  cases hends with
  | kept choices h' missed ok cache =>
    rw [ok]
    exact ⟨fun _ => rfl, by rintro ⟨⟩⟩
  | failed e h' missed error cache =>
    rw [error]
    exact ⟨fun _ => rfl, by rintro ⟨⟩⟩
  | cached choices found =>
    refine ⟨by rintro ⟨⟩, fun _ => ?_⟩
    obtain ⟨earlier, hmem, hkey, hgives⟩ :=
      hfilled.lookUp (show (runAll functions h loads).cache.lookUp _ _ _ = _ from found)
    obtain ⟨hname, hlocator⟩ := SourceConfig.cacheKey_eq (kept earlier hmem) hl hkey
    refine ⟨earlier, hmem, hname, hlocator, fun _ => ⟨choices, hgives, rfl⟩, fun hgiven => ?_⟩
    -- What depends on the same is the same fetch.
    rw [SourceConfig.fetch_congr functions hgiven] at hgives
    rw [hf.unique hgives]
    rfl

/-! ### Slots of a day -/

/-- A function that offers the part of the day that it is given. -/
def slots : Entries OptionFunction := [("slots", fun params _ => .done (.ok [params]))]

/-- A network that has no replies. -/
def offline (_ : HttpRequest) : HttpReply := Network.noReply

theorem slots_steady : SourceConfig.Steady slots offline := by
  intro name f hf params scope
  by_cases hname : "slots" = name
  · rw [slots, Entries.get?, if_pos hname] at hf
    cases hf
    exact ⟨_, .done offline _⟩
  · rw [slots, Entries.get?, if_neg hname] at hf
    cases hf

/-- A load of the slots of a part of the day, kept in the cache. -/
def slotsOf (part : String) : Load where
  config := { source := .function "slots" (.string part), cache := some {} }
  scope := .null
  site := { host := {}, stores := { owner := "client" } }

theorem slotsOf_kept (part : String) : (slotsOf part).config.KeptBySource := ⟨rfl, rfl⟩

/-- Slots that were loaded before are answered from the cache, and are those that the function
offers. -/
theorem cached_load_provenance_slots :
    let host := runAll slots { network := .endpoint offline } [slotsOf "evening"]
    let again := slotsOf "evening"
    SourceConfig.Steady slots offline ∧ again.config.KeptBySource ∧
    ∃ r u, (again.run slots host).1 = some r ∧ r.fromCache = true ∧
      (({ again with config := again.config.uncached } : Load).run slots host).1 = some u ∧
      r.choices = u.choices := by
  intro host again
  have kept : ∀ l ∈ [slotsOf "evening"], l.config.KeptBySource := by
    intro l hl
    rw [List.mem_singleton.1 hl]
    exact slotsOf_kept "evening"
  obtain ⟨r, u, hr, hu, -, hcached⟩ := cached_load_provenance slots_steady
    (h := { network := .endpoint offline }) rfl rfl kept (l := again) (slotsOf_kept "evening")
  have hfrom : r.fromCache = true := by
    have h : (again.run slots host).1.map LoadResult.fromCache = some true := rfl
    rw [hr] at h
    exact Option.some.inj h
  obtain ⟨earlier, hmem, -, -, -, hsame⟩ := hcached hfrom
  rw [List.mem_singleton.1 hmem] at hsame
  exact ⟨slots_steady, slotsOf_kept "evening", r, u, hr, hfrom, hu, hsame rfl⟩

/-- One key serves all parts of the day: a load of the slots of the evening is answered from the
cache with those of the morning, which it would not get with caching off. -/
theorem cached_load_opaque :
    let host := runAll slots { network := .endpoint offline } [slotsOf "morning"]
    let evening := slotsOf "evening"
    SourceConfig.Steady slots offline ∧ (slotsOf "morning").config.KeptBySource ∧
    evening.config.KeptBySource ∧
    ∃ r u, (evening.run slots host).1 = some r ∧ r.fromCache = true ∧
      r.choices.map Choice.label = [some "morning"] ∧
      (({ evening with config := evening.config.uncached } : Load).run slots host).1 = some u ∧
      u.choices.map Choice.label = [some "evening"] ∧ r.choices ≠ u.choices := by
  intro host evening
  refine ⟨slots_steady, slotsOf_kept "morning", slotsOf_kept "evening", _, _, rfl, rfl, rfl, rfl,
    rfl, fun h => ?_⟩
  have hlabels : [some "morning"] = [some "evening"] := congrArg (List.map Choice.label) h
  exact absurd hlabels (by decide)

end Load

end Dialogue
