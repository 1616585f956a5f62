import EvoCore.MetadataFilters

namespace EvoCore.Metadata
open Std

inductive SortDirection where
  | ascending
  | descending
deriving DecidableEq,Repr

structure SortKey where
  field : String
  direction : SortDirection
deriving DecidableEq,Repr

structure Query where
  filter : Filter
  sort : List SortKey
  limit : Option Nat
  offset : Option Nat
  includeFields : List String
  deduplicateBy : List String

structure SubQuery where
  filter : Filter
  sort : List SortKey
  limit : Nat
  cursor : Option String
  includeFields : List String

structure ResultPage where
  items : List ProviderItem
  hasMore : Bool
  totalEstimate : Option Nat
  nextCursor : Option String

-- A provider whose answer depends on the sub-query alone; whether it comes is up to the call.
structure MetadataProvider where
  capabilities : ProviderCapabilities
  answer : SubQuery → ResultPage

structure FieldProvenance where
  field : String
  provider : String
deriving DecidableEq,Repr

structure MergedItem where
  uri : String
  fields : List NamedField
  provenancePerField : List FieldProvenance
  providersContributing : List String
  joinKeysMatched : List NamedJoinKey

inductive ProviderStatus where
  | returned (count : Nat) (hasMore : Bool)
  | timedOut
  | failed (reason : String)
  | skipped
deriving DecidableEq,Repr

structure ResultStream where
  items : List MergedItem
  isPartial : Bool
  providerStatus : List (String × ProviderStatus)
  fromCache : Bool
  cacheStale : Bool

inductive ChainError where
  | noProviders
  | invalid (detail : String)
deriving DecidableEq,Repr

structure CacheEntry where
  items : List MergedItem
  isPartial : Bool
  insertedAt : Nat

-- per_field of Precedence as the order it gives a field, if any.
structure ChainConfig where
  providerPageSize : Nat
  cacheTtl : Nat
  cacheMaxEntries : Nat
  precedence : String → Option (List String)

structure MetadataChain where
  providers : List MetadataProvider
  cache : List (String × CacheEntry)

inductive Fate where
  | answered
  | elapsed
  | failed (reason : String)
  | panicked (reason : String)
deriving DecidableEq,Repr

def registrationIndex (providerId : String) (order : List String) : Nat := order.idxOf providerId

def pickProvider (config : ChainConfig) (field current candidate : String) (order : List String) : String :=
  match ((config.precedence field).getD []).find? fun p => p == current || p == candidate with
  | some p => p
  | none => if registrationIndex candidate order < registrationIndex current order then candidate else current

-- Union-find by what each index stands for; uniting relabels.
def unite (labels : List Nat) (pair : Nat × Nat) : List Nat :=
  match labels[pair.1]?,labels[pair.2]? with
  | some a,some b => labels.map fun label => if label = a then b else label
  | _,_ => labels

-- The indices that carry one value of a join key, and the neighbours among them.
def sharing (all : List (String × ProviderItem)) (key value : String) : List Nat :=
  (List.range all.length).filter fun i => (all[i]?.bind fun entry => entry.2.joinKey key) == some value

def neighbours (all : List (String × ProviderItem)) (key : String) : List (Nat × Nat) :=
  let values := (all.filterMap fun entry => entry.2.joinKey key).dedup
  values.flatMap fun value => (sharing all key value).zip (sharing all key value).tail

def unitedLabels (all : List (String × ProviderItem)) (joinKeys : List String) : List Nat :=
  (joinKeys.flatMap (neighbours all)).foldl unite (List.range all.length)

def groupsOf (labels : List Nat) : List (List Nat) :=
  labels.dedup.map fun label => (List.range labels.length).filter fun i => labels[i]? == some label

def lexLe : List Nat → List Nat → Bool
  | [],_ => true
  | _::_,[] => false
  | a::as,b::bs => a < b || (a == b && lexLe as bs)

def earliest (all : List (String × ProviderItem)) (order : List String) (group : List Nat) : Nat :=
  (group.filterMap fun i => (all[i]?).map fun entry => registrationIndex entry.1 order).min?.getD order.length

def groupBefore (all : List (String × ProviderItem)) (order : List String) (a b : List Nat) : Bool :=
  earliest all order a < earliest all order b || (earliest all order a == earliest all order b && lexLe a b)

def mergeField (config : ChainConfig) (order : List String) (providerId : String)
    (fields : ExtTreeMap String (FieldValue × String)) (field : NamedField) : ExtTreeMap String (FieldValue × String) :=
  match fields[field.name]? with
  | none => fields.insert field.name (field.value,providerId)
  | some current =>
    if pickProvider config field.name current.2 providerId order = current.2 then fields
    else fields.insert field.name (field.value,providerId)

def mergeGroup (config : ChainConfig) (joinKeys order : List String) (members : List (String × ProviderItem)) : MergedItem :=
  let fields := members.foldl (fun fields member => member.2.fields.foldl (mergeField config order member.1) fields) ∅
  let owner := (members.map fun member => registrationIndex member.1 order).min?
  let keys := members.flatMap fun member => member.2.joinKeys.filter fun key => joinKeys.contains key.name
  {uri := ((members.find? fun member => some (registrationIndex member.1 order) == owner).map fun member => member.2.uri).getD "",
   fields := fields.toList.map fun entry => ⟨entry.1,entry.2.1⟩,
   provenancePerField := fields.toList.map fun entry => ⟨entry.1,entry.2.2⟩,
   providersContributing := members.foldl (fun seen member => if seen.contains member.1 then seen else seen ++ [member.1]) [],
   joinKeysMatched := keys.foldl (fun seen key => if seen.any (fun old => old.name == key.name) then seen else seen ++ [key]) []}

def mergeByJoinKeys (config : ChainConfig) (perProvider : List (String × List ProviderItem)) (joinKeys order : List String) :
    List MergedItem :=
  let all := perProvider.flatMap fun entry => entry.2.map fun item => (entry.1,item)
  let groups := (groupsOf (unitedLabels all joinKeys)).insertionSort fun a b => groupBefore all order a b
  groups.map fun group => mergeGroup config joinKeys order (group.filterMap fun i => all[i]?)

def fieldOf (item : MergedItem) (name : String) : Option FieldValue :=
  (item.fields.find? fun f => f.name == name).map NamedField.value

def compareItems (a b : MergedItem) : List SortKey → Ordering
  | [] => .eq
  | key::rest =>
    match fieldOf a key.field,fieldOf b key.field with
    | some av,some bv =>
      match compareField av bv with
      | some order =>
        let order := match key.direction with
          | .ascending => order
          | .descending => order.swap
        if order = .eq then compareItems a b rest else order
      | none => compareItems a b rest
    | some _,none => .lt
    | none,some _ => .gt
    | none,none => compareItems a b rest

-- The stable sort_by, on the comparisons that are an order.
def applySort (items : List MergedItem) (sort : List SortKey) : List MergedItem :=
  if sort.isEmpty then items else items.insertionSort fun a b => compareItems a b sort ≠ .gt

def applyOffsetLimit (items : List MergedItem) (offset limit : Option Nat) : List MergedItem :=
  let rest := match offset with
    | some off => items.drop off
    | none => items
  match limit with
  | some lim => rest.take lim
  | none => rest

def supportedSort (sort : List SortKey) (caps : ProviderCapabilities) : List SortKey :=
  sort.filter fun key => caps.sortFields.contains key.field

-- serde_json::to_string and str::to_lowercase are parameters.
variable (toJson : Query → String) (toLowercase : String → String) (config : ChainConfig)

def providerIds (providers : List MetadataProvider) : List String := providers.map fun p => p.capabilities.providerId

def joinIds : List String → String
  | [] => ""
  | [providerId] => providerId
  | providerId::rest => providerId ++ "," ++ joinIds rest

def canonicalCacheKey (query : Query) (providers : List MetadataProvider) : String :=
  toJson query ++ "|" ++ joinIds ((providerIds providers).insertionSort (· ≤ ·))

-- What each provider is asked, if anything, and what stays with the framework.
def dispatch (query : Query) (provider : MetadataProvider) : Option (SubQuery × Filter) :=
  match decomposeForCapabilities provider.capabilities query.filter with
  | (none,_) => none
  | (some filter,residual) =>
    some (⟨filter,supportedSort query.sort provider.capabilities,config.providerPageSize,none,query.includeFields⟩,residual)

def dispatched (query : Query) (providers : List MetadataProvider) : List Nat :=
  (List.range providers.length).filter fun i => ((providers[i]?).bind (dispatch config query)).isSome

structure Joined where
  providerId : String
  residual : Filter
  page : ResultPage
  fate : Fate

def joined (query : Query) (providers : List MetadataProvider) (finishing : List (Nat × Fate)) : List Joined :=
  finishing.filterMap fun entry =>
    (providers[entry.1]?).bind fun provider =>
      (dispatch config query provider).map fun asked =>
        ⟨provider.capabilities.providerId,asked.2,provider.answer asked.1,entry.2⟩

def statusOf (task : Joined) : ProviderStatus :=
  match task.fate with
  | .answered => .returned task.page.items.length task.page.hasMore
  | .elapsed => .timedOut
  | .failed reason => .failed reason
  | .panicked reason => .failed reason

def skipped (query : Query) (providers : List MetadataProvider) : List (String × ProviderStatus) :=
  providers.filterMap fun provider =>
    if (dispatch config query provider).isNone then some (provider.capabilities.providerId,.skipped) else none

-- The answer from what the tasks brought, in the order they finished. none: nothing came.
def merged (query : Query) (providers : List MetadataProvider) (tasks : List Joined) : Option (List MergedItem × Bool) :=
  let pages := tasks.filter fun task => task.fate == .answered
  if pages.isEmpty then none
  else
    let filtered := pages.map fun task =>
      (task.providerId,task.page.items.filter (evaluateFilter toLowercase · task.residual))
    let items := mergeByJoinKeys config filtered query.deduplicateBy (providerIds providers)
    some (applyOffsetLimit (applySort items query.sort) query.offset query.limit,
      pages.any fun task => task.page.hasMore)

def cacheLookup (now : Nat) (cache : List (String × CacheEntry)) (key : String) : Option CacheEntry × List (String × CacheEntry) :=
  match cache.lookup key with
  | none => (none,cache)
  | some entry =>
    if now - entry.insertedAt ≤ config.cacheTtl then (some entry,cache)
    else (none,cache.filter fun old => old.1 != key)

-- The oldest entry goes when the cache is full; between entries of one instant the map's order decides.
def evicted (cache : List (String × CacheEntry)) : List (String × CacheEntry) :=
  if cache.length < config.cacheMaxEntries then cache
  else match cache.find? fun old => cache.all fun other => old.2.insertedAt ≤ other.2.insertedAt with
    | none => cache
    | some oldest => cache.filter fun old => old.1 != oldest.1

def cacheStore (cache : List (String × CacheEntry)) (key : String) (entry : CacheEntry) : List (String × CacheEntry) :=
  (key,entry)::(evicted config cache).filter fun old => old.1 != key

-- The clock when the call starts and when it stores, and how its tasks finish.
structure Conditions where
  now : Nat
  storedAt : Nat
  finishing : List (Nat × Fate)

def executeQuery (chain : MetadataChain) (query : Query) (conditions : Conditions) :
    Except ChainError ResultStream × MetadataChain :=
  if chain.providers.isEmpty then (.error .noProviders,chain)
  else
    let key := canonicalCacheKey toJson query chain.providers
    match cacheLookup config conditions.now chain.cache key with
    | (some hit,cache) =>
      (.ok ⟨hit.items,hit.isPartial,(providerIds chain.providers).map fun p => (p,.returned 0 false),true,false⟩,{chain with cache})
    | (none,cache) =>
      let tasks := joined config query chain.providers conditions.finishing
      match tasks.findSome? fun task => match task.fate with | .panicked reason => some reason | _ => none with
      | some reason => (.error (.invalid ("provider task panicked: " ++ reason)),{chain with cache})
      | none =>
        let status := skipped config query chain.providers ++ tasks.map fun task => (task.providerId,statusOf task)
        match merged toLowercase config query chain.providers tasks with
        | none => (.ok ⟨[],false,status,false,false⟩,{chain with cache})
        | some (items,isPartial) =>
          (.ok ⟨items,isPartial,status,false,false⟩,
            {chain with cache := cacheStore config cache key ⟨items,isPartial,conditions.storedAt⟩})

inductive Call where
  | registerProvider (provider : MetadataProvider)
  | clearCache
  | executeQuery (query : Query) (conditions : Conditions)

def step (chain : MetadataChain) : Call → MetadataChain
  | .registerProvider provider => {chain with providers := chain.providers ++ [provider]}
  | .clearCache => {chain with cache := []}
  | .executeQuery query conditions => (executeQuery toJson toLowercase config chain query conditions).2

def plainConfig : ChainConfig := ⟨50,60000,1024,fun _ => none⟩

end EvoCore.Metadata
