import EvoCore.MetadataArrival
import EvoCore.Runs

namespace EvoCore.Metadata
open Runs

variable {toJson : Query → String} {toLowercase : String → String} {config : ChainConfig} {chain : MetadataChain}
  {query : Query} {providers : List MetadataProvider} {mbid : String} {finishing : List (Nat × Fate)} {conditions : Conditions}
  {cache : List (String × CacheEntry)} {key : String}

-- Every task that was spawned finishes, once.
def Scheduled (config : ChainConfig) (chain : MetadataChain) : Call → Prop
  | .executeQuery query conditions => (conditions.finishing.map Prod.fst).Perm (dispatched config query chain.providers)
  | _ => True

-- What the query comes to when all providers answer, in whatever order they do.
def Recomputes (toLowercase : String → String) (config : ChainConfig) (query : Query) (providers : List MetadataProvider)
    (items : List MergedItem) (isPartial : Bool) : Prop :=
  ∀ finishing : List (Nat × Fate),(finishing.map Prod.fst).Perm (dispatched config query providers) →
    (∀ task ∈ finishing,task.2 = .answered) →
    merged toLowercase config query providers (joined config query providers finishing) = some (items,isPartial)

-- An answer from the cache is the one that would be computed now.
def Transparent (toJson : Query → String) (toLowercase : String → String) (config : ChainConfig) (chain : MetadataChain) :
    Call → Prop
  | .executeQuery query conditions => ∀ stream,
    (executeQuery toJson toLowercase config chain query conditions).1 = .ok stream → stream.fromCache = true →
      Recomputes toLowercase config query chain.providers stream.items stream.isPartial
  | _ => True

def filtered (toLowercase : String → String) (tasks : List Joined) : List (String × List ProviderItem) :=
  tasks.map fun task => (task.providerId,task.page.items.filter (evaluateFilter toLowercase · task.residual))

-- What the providers bring when all answer, in the order of their registration.
def answers (toLowercase : String → String) (config : ChainConfig) (query : Query) (providers : List MetadataProvider) :
    List (String × List ProviderItem) :=
  filtered toLowercase (joined config query providers ((dispatched config query providers).map fun i => (i,.answered)))

-- No two providers of one id are asked, and no two bring items that share a join key.
structure Unordered (toLowercase : String → String) (config : ChainConfig) (query : Query) (providers : List MetadataProvider) : Prop where
  apart : ((answers toLowercase config query providers).map Prod.fst).Nodup
  unmixed : Unmixed (answers toLowercase config query providers) query.deduplicateBy (providerIds providers)

-- A call that has to compute hears from all of its providers, and their order makes no difference, or from
-- none, or a task panics.
def Undisturbed (toJson : Query → String) (toLowercase : String → String) (config : ChainConfig) (chain : MetadataChain) : Call → Prop
  | .executeQuery query conditions =>
    (cacheLookup config conditions.now chain.cache (canonicalCacheKey toJson query chain.providers)).1.isNone = true →
      (∀ task ∈ conditions.finishing,task.2 = .answered) ∧ Unordered toLowercase config query chain.providers ∨
      (∀ task ∈ conditions.finishing,task.2 ≠ .answered) ∨
      ∃ task ∈ conditions.finishing,∃ reason,task.2 = .panicked reason
  | _ => True

def queriesOf (calls : List Call) : List Query :=
  calls.filterMap fun call => match call with
    | .executeQuery query _ => some query
    | _ => none

-- Where an entry came from: a query of the run and the providers there were.
def Honest (toJson : Query → String) (toLowercase : String → String) (config : ChainConfig) (queries : List Query)
    (chain : MetadataChain) : Prop :=
  ∀ stored ∈ chain.cache,∃ query ∈ queries,∃ providers,providers ≠ [] ∧ providers <+: chain.providers ∧
    stored.1 = canonicalCacheKey toJson query providers ∧
    Recomputes toLowercase config query providers stored.2.items stored.2.isPartial

theorem lookup_part (now : Nat) : (cacheLookup config now cache key).2 ⊆ cache := by
  unfold cacheLookup
  split
  · exact List.Subset.refl _
  · split
    · exact List.Subset.refl _
    · exact List.filter_subset_self _

theorem lookup_hit {hit : CacheEntry} (found : (cacheLookup config now cache key).1 = some hit) : (key,hit) ∈ cache := by
  unfold cacheLookup at found
  split at found
  · cases found
  · rename_i entry there
    split at found
    · cases Option.some.inj found
      obtain ⟨before,after,shape,_⟩ := List.lookup_eq_some_iff.mp there
      rw [shape]
      simp
    · cases found

theorem store_part (entry : CacheEntry) : ∀ stored ∈ cacheStore config cache key entry,stored = (key,entry) ∨ stored ∈ cache := by
  intro stored member
  rcases List.mem_cons.mp member with rfl | kept
  · exact .inl rfl
  · right
    have within := (List.mem_filter.mp kept).1
    unfold evicted at within
    split at within
    · exact within
    · split at within
      · exact within
      · exact (List.mem_filter.mp within).1

theorem joinIds_length (ids : List String) : (joinIds ids).length = (ids.map String.length).sum + (ids.length - 1) := by
  induction ids with
  | nil => rfl
  | cons first rest ih =>
    cases rest with
    | nil => simp [joinIds]
    | cons second more =>
      have comma : ",".length = 1 := rfl
      simp only [joinIds,String.length_append,ih,comma,List.map_cons,List.sum_cons,List.length_cons]
      omega

theorem key_same {other : Query} {later : List MetadataProvider}
    (delimited : ∀ q q',(toJson q).toList <+: (toJson q').toList → toJson q = toJson q') (some_ : providers ≠ [])
    (extends_ : providers <+: later) (same : canonicalCacheKey toJson query providers = canonicalCacheKey toJson other later) :
    toJson query = toJson other ∧ providers = later := by
  have lists := congrArg String.toList same
  simp only [canonicalCacheKey,String.toList_append,List.append_assoc] at lists
  have text : toJson query = toJson other := by
    rcases List.prefix_or_prefix_of_prefix (List.prefix_append _ _) (lists ▸ List.prefix_append _ _) with first | second
    · exact (delimited _ _ first).symm
    · exact delimited _ _ second
  refine ⟨text,?_⟩
  rw [text] at lists
  have ids := List.append_cancel_left (List.append_cancel_left lists)
  have lengths := congrArg List.length ids
  simp only [String.length_toList,joinIds_length] at lengths
  obtain ⟨more,rfl⟩ := extends_
  have sorted (ids : List String) : ((ids.insertionSort (· ≤ ·)).map String.length).sum = (ids.map String.length).sum :=
    ((List.perm_insertionSort _ ids).map String.length).sum_eq
  rw [sorted,sorted] at lengths
  simp only [List.length_insertionSort,providerIds,List.map_append,List.sum_append,List.length_append,List.length_map] at lengths
  have positive := List.length_pos_iff.mpr some_
  have nothing : more.length = 0 := by omega
  rw [List.length_eq_zero_iff.mp nothing,List.append_nil]

theorem honest_hit (queries : List Query) (delimited : ∀ q q',(toJson q).toList <+: (toJson q').toList → toJson q = toJson q')
    (apart : ∀ q ∈ queries,∀ q' ∈ queries,toJson q = toJson q' → q = q') (honest : Honest toJson toLowercase config queries chain)
    (asked : query ∈ queries) : Transparent toJson toLowercase config chain (.executeQuery query conditions) := by
  intro stream answered cached
  unfold executeQuery at answered
  split at answered
  · cases answered
  · dsimp only at answered
    split at answered
    · rename_i hit cache found
      cases answered
      have there : (_,hit) ∈ chain.cache := lookup_hit (congrArg Prod.fst found)
      obtain ⟨other,member,before,some_,extends_,key,recomputes⟩ := honest _ there
      obtain ⟨text,rfl⟩ := key_same delimited some_ extends_ key.symm
      rw [apart query asked other member text.symm]
      exact recomputes
    · split at answered
      · cases answered
      · split at answered
        · cases answered
          cases cached
        · cases answered
          cases cached

theorem execute_providers (chain : MetadataChain) (query : Query) (conditions : Conditions) :
    (executeQuery toJson toLowercase config chain query conditions).2.providers = chain.providers := by
  unfold executeQuery
  split
  · rfl
  · dsimp only
    split
    · rfl
    · split
      · rfl
      · split <;> rfl

theorem tasks_fate {task : Joined} (member : task ∈ joined config query providers finishing) :
    ∃ entry ∈ finishing,entry.2 = task.fate := by
  obtain ⟨entry,there,made⟩ := List.mem_filterMap.mp member
  obtain ⟨provider,_,asked⟩ := Option.bind_eq_some_iff.mp made
  obtain ⟨question,_,rfl⟩ := Option.map_eq_some_iff.mp asked
  exact ⟨entry,there,rfl⟩

theorem fate_tasks {entry : Nat × Fate} (scheduled : (finishing.map Prod.fst).Perm (dispatched config query providers))
    (there : entry ∈ finishing) : ∃ task ∈ joined config query providers finishing,task.fate = entry.2 := by
  have asked : entry.1 ∈ dispatched config query providers := scheduled.mem_iff.mp (List.mem_map_of_mem there)
  obtain ⟨question,made⟩ := Option.isSome_iff_exists.mp (List.mem_filter.mp asked).2
  obtain ⟨provider,at_,answered⟩ := Option.bind_eq_some_iff.mp made
  refine ⟨⟨provider.capabilities.providerId,question.2,provider.answer question.1,entry.2⟩,List.mem_filterMap.mpr ⟨entry,there,?_⟩,rfl⟩
  simp [at_,answered]

theorem merged_answered {tasks : List Joined} (came : merged toLowercase config query providers tasks = some answer) :
    ∃ task ∈ tasks,task.fate = .answered := by
  unfold merged at came
  dsimp only at came
  split at came
  · cases came
  · rename_i some_
    obtain ⟨task,member⟩ := List.exists_mem_of_ne_nil _ fun empty => some_ (List.isEmpty_iff.mpr empty)
    rw [List.mem_filter] at member
    exact ⟨task,member.1,eq_of_beq member.2⟩

theorem answered_shape (all : ∀ task ∈ finishing,task.2 = .answered) :
    finishing = (finishing.map Prod.fst).map fun i => (i,Fate.answered) := by
  rw [List.map_map]
  refine (List.map_id finishing).symm.trans (List.map_congr_left fun task member => ?_)
  exact Prod.ext rfl (all task member)

theorem unordered_merge (unordered : Unordered toLowercase config query providers) {arrived : List (String × List ProviderItem)}
    (perm : arrived.Perm (answers toLowercase config query providers)) :
    mergeByJoinKeys config arrived query.deduplicateBy (providerIds providers) =
      mergeByJoinKeys config (answers toLowercase config query providers) query.deduplicateBy (providerIds providers) := by
  have blind : ArrivalBlind config (answers toLowercase config query providers) query.deduplicateBy (providerIds providers) :=
    unmixed_blind unordered.apart unordered.unmixed
  have same := blind arrived .plain .plain perm
  rwa [mergeByRoots_same,mergeByRoots_same] at same

theorem merged_unordered {other : List (Nat × Fate)} (unordered : Unordered toLowercase config query providers)
    (scheduled : (finishing.map Prod.fst).Perm (dispatched config query providers)) (all : ∀ task ∈ finishing,task.2 = .answered)
    (again : (other.map Prod.fst).Perm (dispatched config query providers)) (also : ∀ task ∈ other,task.2 = .answered) :
    merged toLowercase config query providers (joined config query providers finishing) =
      merged toLowercase config query providers (joined config query providers other) := by
  have first : finishing.Perm ((dispatched config query providers).map fun i => (i,Fate.answered)) := by
    rw [answered_shape all]
    exact scheduled.map _
  have second : other.Perm ((dispatched config query providers).map fun i => (i,Fate.answered)) := by
    rw [answered_shape also]
    exact again.map _
  have pages (order : List (Nat × Fate)) (heard : ∀ task ∈ order,task.2 = .answered) :
      (joined config query providers order).filter (fun task => task.fate == .answered) = joined config query providers order := by
    refine List.filter_eq_self.mpr fun task member => ?_
    obtain ⟨entry,there,fate⟩ := tasks_fate member
    exact beq_iff_eq.mpr (fate.symm.trans (heard entry there))
  have tasks : (joined config query providers finishing).Perm (joined config query providers other) :=
    (first.trans second.symm).filterMap _
  have same : mergeByJoinKeys config (filtered toLowercase (joined config query providers finishing)) query.deduplicateBy (providerIds providers) =
      mergeByJoinKeys config (filtered toLowercase (joined config query providers other)) query.deduplicateBy (providerIds providers) :=
    (unordered_merge unordered ((first.filterMap _).map _)).trans (unordered_merge unordered ((second.filterMap _).map _)).symm
  unfold merged
  rw [pages finishing all,pages other also]
  dsimp only
  rw [tasks.isEmpty_eq,tasks.any_eq]
  split
  · rfl
  · exact congrArg (fun items => some (applyOffsetLimit (applySort items query.sort) query.offset query.limit,_)) same

theorem execute_honest (queries : List Query) (honest : Honest toJson toLowercase config queries chain) (asked : query ∈ queries)
    (scheduled : Scheduled config chain (.executeQuery query conditions))
    (undisturbed : Undisturbed toJson toLowercase config chain (.executeQuery query conditions)) :
    Honest toJson toLowercase config queries (executeQuery toJson toLowercase config chain query conditions).2 := by
  unfold executeQuery
  split
  · exact honest
  · rename_i registered
    have part : (cacheLookup config conditions.now chain.cache (canonicalCacheKey toJson query chain.providers)).2 ⊆ chain.cache :=
      lookup_part conditions.now
    have missed : (cacheLookup config conditions.now chain.cache (canonicalCacheKey toJson query chain.providers)).1.isNone = true → _ :=
      undisturbed
    dsimp only
    split
    · rename_i hit cache found
      rw [found] at part
      exact fun stored member => honest stored (part member)
    · rename_i cache found
      rw [found] at part missed
      have kept : Honest toJson toLowercase config queries {chain with cache} := fun stored member => honest stored (part member)
      split
      · exact kept
      · rename_i quiet
        split
        · exact kept
        · rename_i items isPartial came
          intro stored member
          rcases store_part _ stored member with rfl | older
          · refine ⟨query,asked,chain.providers,?_,List.prefix_rfl,rfl,fun other again also => ?_⟩
            · intro empty
              rw [empty] at registered
              exact registered rfl
            · rcases missed rfl with ⟨all,unordered⟩ | none_ | ⟨task,there,reason,panicked⟩
              · exact (merged_unordered unordered again also scheduled all).trans came
              · obtain ⟨task,member,answered⟩ := merged_answered came
                obtain ⟨entry,there,fate⟩ := tasks_fate member
                exact absurd (fate.trans answered) (none_ entry there)
              · obtain ⟨joined,member,fate⟩ := fate_tasks scheduled there
                have silent := List.findSome?_eq_none_iff.mp quiet joined member
                rw [fate,panicked] at silent
                cases silent
          · exact kept stored older

theorem step_honest (queries : List Query) (honest : Honest toJson toLowercase config queries chain) {call : Call}
    (asked : queriesOf [call] ⊆ queries) (scheduled : Scheduled config chain call) (undisturbed : Undisturbed toJson toLowercase config chain call) :
    Honest toJson toLowercase config queries (step toJson toLowercase config chain call) := by
  cases call with
  | registerProvider provider =>
    intro stored member
    obtain ⟨query,there,providers,some_,extends_,rest⟩ := honest stored member
    exact ⟨query,there,providers,some_,extends_.trans (List.prefix_append _ _),rest⟩
  | clearCache =>
    intro stored member
    cases member
  | executeQuery query conditions =>
    exact execute_honest queries honest (asked (by simp [queriesOf])) scheduled undisturbed

theorem run_transparent (queries : List Query) (delimited : ∀ q q',(toJson q).toList <+: (toJson q').toList → toJson q = toJson q')
    (apart : ∀ q ∈ queries,∀ q' ∈ queries,toJson q = toJson q' → q = q') (honest : Honest toJson toLowercase config queries chain)
    {calls : List Call} (within : queriesOf calls ⊆ queries)
    (scheduled : Guarded (step toJson toLowercase config) (Scheduled config) chain calls)
    (undisturbed : Guarded (step toJson toLowercase config) (Undisturbed toJson toLowercase config) chain calls) :
    Guarded (step toJson toLowercase config) (Transparent toJson toLowercase config) chain calls := by
  induction calls generalizing chain with
  | nil => trivial
  | cons call rest ih =>
    have parts : queriesOf (call::rest) = queriesOf [call] ++ queriesOf rest := by
      cases call <;> simp [queriesOf]
    rw [parts,List.append_subset] at within
    refine ⟨?_,ih (step_honest queries honest within.1 scheduled.1 undisturbed.1) within.2 scheduled.2 undisturbed.2⟩
    cases call with
    | executeQuery query conditions => exact honest_hit queries delimited apart honest (within.1 (by simp [queriesOf]))
    | _ => trivial

-- Over every run from an empty chain: if no answer with a provider missing or that the order of arrival had a
-- part in is ever kept and the run's queries differ in their JSON, the cache serves what recomputing gives.
theorem cache_transparent (toJson : Query → String) (toLowercase : String → String) (config : ChainConfig)
    (delimited : ∀ q q',(toJson q).toList <+: (toJson q').toList → toJson q = toJson q') (calls : List Call)
    (apart : ∀ q ∈ queriesOf calls,∀ q' ∈ queriesOf calls,toJson q = toJson q' → q = q')
    (scheduled : Guarded (step toJson toLowercase config) (Scheduled config) ⟨[],[]⟩ calls)
    (undisturbed : Guarded (step toJson toLowercase config) (Undisturbed toJson toLowercase config) ⟨[],[]⟩ calls) :
    Guarded (step toJson toLowercase config) (Transparent toJson toLowercase config) ⟨[],[]⟩ calls := by
  refine run_transparent (queriesOf calls) delimited apart ?_ (List.Subset.refl _) scheduled undisturbed
  intro stored member
  cases member

section Libraries

def library (providerId uri mbid : String) : MetadataProvider :=
  ⟨⟨providerId,["title"],[⟨"title",[.eq]⟩],[],[],false⟩,
    fun _ => ⟨[⟨uri,[⟨"title",.str "Birdland"⟩],[⟨"mbid",mbid⟩]⟩],false,none,none⟩⟩

def libraries (mbid : String) : List MetadataProvider := [library "near" "near:1" "4f9c",library "far" "far:1" mbid]

def birdland : Query := ⟨.eq "title" (.str "Birdland"),[],none,none,[],["mbid"]⟩

-- serde_json's text of that query, which is the only one asked.
def birdlandJson : Query → String := fun _ =>
  "\x7b\"filter\":\x7b\"op\":\"eq\",\"field\":\"title\",\"value\":\x7b\"type\":\"str\",\"value\":\"Birdland\"\x7d\x7d," ++
  "\"sort\":[],\"limit\":null,\"offset\":null,\"include_fields\":[],\"deduplicate_by\":[\"mbid\"]\x7d"

-- The query twice within the minute; `mbid` is what the second library has, `finishing` how the first call goes.
def twice (mbid : String) (finishing : List (Nat × Fate)) : List Call :=
  (libraries mbid).map Call.registerProvider ++
    [.executeQuery birdland ⟨0,1,finishing⟩,.executeQuery birdland ⟨2,3,[(0,.answered),(1,.answered)]⟩]

theorem libraries_dispatched (mbid : String) : dispatched plainConfig birdland (libraries mbid) = [0,1] := rfl

theorem twice_scheduled (perm : (finishing.map Prod.fst).Perm [0,1]) :
    Guarded (step birdlandJson id plainConfig) (Scheduled plainConfig) ⟨[],[]⟩ (twice mbid finishing) := by
  have same (chain : MetadataChain) (shape : chain.providers = libraries mbid) :
      dispatched plainConfig birdland chain.providers = [0,1] := by rw [shape,libraries_dispatched]
  refine ⟨trivial,trivial,?_,?_,trivial⟩
  · exact perm.trans (.of_eq (same _ rfl).symm)
  · exact List.Perm.of_eq (same _ (execute_providers _ _ _)).symm

theorem apart_unordered : Unordered id plainConfig birdland (libraries "8a02") := by
  constructor
  · decide
  · have decided : ∀ a ∈ flattened (answers id plainConfig birdland (libraries "8a02")),
        ∀ b ∈ flattened (answers id plainConfig birdland (libraries "8a02")),
        (a.2.joinKey "mbid" = none ∨ b.2.joinKey "mbid" ≠ a.2.joinKey "mbid" ∨ a.1 = b.1) ∧
        (a.1 ∈ providerIds (libraries "8a02")) := by decide
    constructor
    · intro a inA b inB key only value mine yours
      cases List.mem_singleton.mp only
      rcases (decided a inA b inB).1 with none_ | other | same
      · rw [none_] at mine
        cases mine
      · exact absurd (yours.trans mine.symm) other
      · exact same
    · exact fun a inA b inB outside => absurd (decided a inA b inB).2 outside

-- The far library answers first, and the second call is served what it would compute.
theorem twice_transparent : Guarded (step birdlandJson id plainConfig) (Transparent birdlandJson id plainConfig) ⟨[],[]⟩
    (twice "8a02" [(1,.answered),(0,.answered)]) := by
  refine cache_transparent birdlandJson id plainConfig (fun _ _ _ => rfl) (twice "8a02" [(1,.answered),(0,.answered)]) ?_
    (twice_scheduled (List.Perm.swap 0 1 [])) ⟨trivial,trivial,?_,?_,trivial⟩
  · intro q asked q' also _
    have only : ∀ q ∈ queriesOf (twice "8a02" [(1,.answered),(0,.answered)]),q = birdland := by simp [queriesOf,twice,libraries]
    rw [only q asked,only q' also]
  · exact fun _ => .inl ⟨by simp,apart_unordered⟩
  · refine fun _ => .inl ⟨by simp,?_⟩
    change Unordered id plainConfig birdland (executeQuery birdlandJson id plainConfig _ birdland _).2.providers
    rw [execute_providers]
    exact apart_unordered

theorem twice_recomputed {α : Type} (f : List MergedItem → α) (served computed : α)
    (met : Guarded (step birdlandJson id plainConfig) (Transparent birdlandJson id plainConfig) ⟨[],[]⟩ (twice mbid finishing))
    (hit : (executeQuery birdlandJson id plainConfig (run (step birdlandJson id plainConfig) ⟨[],[]⟩ ((twice mbid finishing).take 3))
      birdland ⟨2,3,[(0,.answered),(1,.answered)]⟩).1.toOption.map (fun stream => (f stream.items,stream.fromCache)) = some (served,true))
    (now : (merged id plainConfig birdland (libraries mbid) (joined plainConfig birdland (libraries mbid) [(0,.answered),(1,.answered)])).map
      (fun answer => f answer.1) = some computed) : served = computed := by
  have last := met.2.2.2.1
  have providers : (run (step birdlandJson id plainConfig) ⟨[],[]⟩ ((twice mbid finishing).take 3)).providers = libraries mbid :=
    execute_providers _ _ _
  cases answer : (executeQuery birdlandJson id plainConfig (run (step birdlandJson id plainConfig) ⟨[],[]⟩ ((twice mbid finishing).take 3))
      birdland ⟨2,3,[(0,.answered),(1,.answered)]⟩).1 with
  | error e =>
    rw [answer] at hit
    cases hit
  | ok stream =>
    rw [answer] at hit
    obtain ⟨here,cached⟩ := Prod.mk.inj (Option.some.inj hit)
    have came := last stream answer cached [(0,.answered),(1,.answered)]
    have asked := providers.symm ▸ libraries_dispatched mbid
    have whole := came (.of_eq asked.symm) (by simp)
    have found : merged id plainConfig birdland (libraries mbid) (joined plainConfig birdland (libraries mbid) [(0,.answered),(1,.answered)]) =
        some (stream.items,stream.isPartial) := providers ▸ whole
    rw [found,Option.map_some,Option.some.injEq] at now
    exact here.symm.trans now

-- The far library was late once: for as long as the entry lives the answer is half of what it is, and
-- says that all providers returned. Or both have the song, and the answer keeps the order in which they came.
theorem late_provider_kept :
    (Guarded (step birdlandJson id plainConfig) (Scheduled plainConfig) ⟨[],[]⟩ (twice "8a02" [(0,.answered),(1,.elapsed)]) ∧
      ¬ Guarded (step birdlandJson id plainConfig) (Transparent birdlandJson id plainConfig) ⟨[],[]⟩
        (twice "8a02" [(0,.answered),(1,.elapsed)])) ∧
    Guarded (step birdlandJson id plainConfig) (Scheduled plainConfig) ⟨[],[]⟩ (twice "4f9c" [(1,.answered),(0,.answered)]) ∧
    ¬ Guarded (step birdlandJson id plainConfig) (Transparent birdlandJson id plainConfig) ⟨[],[]⟩
      (twice "4f9c" [(1,.answered),(0,.answered)]) := by
  refine ⟨⟨twice_scheduled (.refl _),fun met => ?_⟩,twice_scheduled (List.Perm.swap 0 1 []),fun met => ?_⟩
  · exact absurd (twice_recomputed (List.map MergedItem.providersContributing) [["near"]] [["near"],["far"]] met
      (by decide +kernel) (by decide +kernel)) (by decide)
  · exact absurd (twice_recomputed (List.map MergedItem.providersContributing) [["far","near"]] [["near","far"]] met
      (by decide +kernel) (by decide +kernel)) (by decide)

end Libraries

end EvoCore.Metadata
