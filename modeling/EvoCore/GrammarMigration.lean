import EvoCore.RelationRestart

namespace EvoCore.GrammarMigration
open Tables SubjectRegistry StewardStore StewardWiring

inductive MigrationStrategy where
  | rename (toType : String)
  | map (discriminatorField : String) (mapping : List (String × String)) (defaultToType : Option String)
  | filter (predicate toType : String)
deriving DecidableEq,Repr

structure MigrateRequest where
  fromType : String
  strategy : MigrationStrategy
  dryRun : Bool
  reason : Option String
  batchSize : Option Nat
  maxSubjects : Option Nat
deriving DecidableEq,Repr

structure MigrateOutcome where
  migrationId : String
  fromType : String
  migratedCount : Nat
  unmigratedCount : Nat
  unmigratedSample : List String
  dryRun : Bool
  targetTypeBreakdown : List (String × Nat)
  sampleFirst : List String
  sampleLast : List String
deriving DecidableEq,Repr

inductive PersistenceError where
  | noPendingRow (subjectType : String)
  | alreadyResolved (subjectType : String)
  | sqlite (context : String)
deriving DecidableEq,Repr

inductive MigrateError where
  | notAnOrphan (fromType : String)
  | undeclaredTargetType (toType : String)
  | strategyNotYetImplemented (strategy : String)
  | persistence (error : PersistenceError)
deriving DecidableEq,Repr

inductive GrammarOrphanStatus where
  | pending
  | migrating
  | resolved
  | accepted
  | recovered
deriving DecidableEq,Repr

structure GrammarOrphan where
  firstObservedAtMs : Nat
  lastObservedAtMs : Nat
  count : Nat
  status : GrammarOrphanStatus
  migrationId : Option String
deriving DecidableEq,Repr

structure TypeMigrationRecord where
  source : String
  newId : String
  fromType : String
  toType : String
  migrationId : String
  reason : Option String
deriving DecidableEq,Repr

inductive Happening where
  | subjectMigrated (oldId newId fromType toType migrationId : String)
  | grammarMigrationProgress (migrationId fromType : String) (completed remaining batchIndex : Nat)
deriving DecidableEq,Repr

structure AdminLogEntry where
  adminPlugin : String
  targetSubject : String
  reason : Option String
deriving DecidableEq,Repr

-- The store with the tables of the subject states and of the orphan types, and what lives
-- in memory beside it.
structure Host where
  steward : Steward
  subjectStates : Table String String
  orphans : Table String GrammarOrphan
  happenings : List Happening
  adminLog : List AdminLogEntry

structure Env where
  migrationId : String
  newId : Nat → String
  nowMs : Nat
  upsertFails : Bool
  markFails : Option PersistenceError
  loadFails : Option PersistenceError
  batchFails : Nat → Option PersistenceError
  resolvedFails : Bool

def upsertPendingGrammarOrphan (orphans : Table String GrammarOrphan) (subjectType : String) (count observedAtMs : Nat) :
    Table String GrammarOrphan :=
  match get orphans subjectType with
  | none => orphans.insert subjectType ⟨observedAtMs,observedAtMs,count,.pending,none⟩
  | some row =>
    orphans.insert subjectType { row with
      lastObservedAtMs := observedAtMs
      count
      status := if row.status = .recovered then .pending else row.status }

def markGrammarOrphanMigrating (orphans : Table String GrammarOrphan) (subjectType migrationId : String) :
    Except PersistenceError (Table String GrammarOrphan) :=
  match get orphans subjectType with
  | none => .error (.noPendingRow subjectType)
  | some row =>
    if row.status = .resolved then .error (.alreadyResolved subjectType)
    else .ok (orphans.insert subjectType { row with status := .migrating,migrationId := some migrationId })

def markGrammarOrphanResolved (orphans : Table String GrammarOrphan) (subjectType migrationId : String) :
    Table String GrammarOrphan :=
  modify orphans subjectType fun row => { row with status := .resolved,migrationId := some migrationId }

-- INSERT of the new row, UPDATE of the addressings, DELETE of the old row, INSERT of the alias:
-- nothing where the new id is taken.
def typeMigrationStep (st : Store) (record : TypeMigrationRecord) : Option Store :=
  match get st.subjects record.newId with
  | some _ => none
  | none =>
    let moved := {st with
      subjects := st.subjects.insert record.newId ⟨record.toType,false⟩
      addressings := mapValues st.addressings fun row =>
        if row.subjectId = record.source then {row with subjectId := record.newId} else row}
    let deleted := deleteSubject moved record.source
    some {deleted with aliases := deleted.aliases ++ [⟨record.source,record.newId,.typeMigrated,record.migrationId,record.reason⟩]}

-- One transaction: all of the records, or none.
def typeMigrationBatch (st : Store) (records : List TypeMigrationRecord) : Option Store := records.foldlM typeMigrationStep st

def candidates (st : Store) (request : MigrateRequest) : List PersistedSubject :=
  let all := (loadAllSubjects st).filter fun s => s.subjectType = request.fromType
  match request.maxSubjects with
  | some cap => all.take cap
  | none => all

def records (env : Env) (request : MigrateRequest) (toType : String) (subjects : List PersistedSubject) : List TypeMigrationRecord :=
  subjects.zipIdx.map fun s => ⟨s.1.id,env.newId s.2,request.fromType,toType,env.migrationId,request.reason⟩

def defaultBatchSize : Nat := 100

def chunks {α : Type} (size : Nat) (items : List α) : List (List α) := (List.toChunksAux (size-1) items 0).2

def migrated (record : TypeMigrationRecord) : Happening :=
  .subjectMigrated record.source record.newId record.fromType record.toType record.migrationId

def runBatches (env : Env) (request : MigrateRequest) (total : Nat) (host : Host) (batchIndex done : Nat) :
    List (List TypeMigrationRecord) → Host × Except PersistenceError Nat
  | [] => (host,.ok done)
  | batch::rest =>
    match env.batchFails batchIndex with
    | some error => (host,.error error)
    | none =>
      match typeMigrationBatch host.steward.store batch with
      | none => (host,.error (.sqlite "insert migrated subject row"))
      | some store =>
        let completed := done+batch.length
        let next := {host with
          steward := {host.steward with store}
          happenings := host.happenings ++ batch.map migrated ++
            [Happening.grammarMigrationProgress env.migrationId request.fromType completed (total-completed) batchIndex]}
        runBatches env request total next (batchIndex+1) completed rest

-- The ends of the candidates; a last sample that says the same as the first is dropped.
def samples (subjects : List PersistedSubject) : List String × List String :=
  let first := (subjects.take 3).map PersistedSubject.id
  let last := ((subjects.reverse.take 3).map PersistedSubject.id).reverse
  (first,if last = first then [] else last)

def beginMigration (env : Env) (request : MigrateRequest) (host : Host) : Host × Option PersistenceError :=
  let orphans := if env.upsertFails then host.orphans else upsertPendingGrammarOrphan host.orphans request.fromType 0 env.nowMs
  match env.markFails with
  | some error => ({host with orphans},some error)
  | none =>
    match markGrammarOrphanMigrating orphans request.fromType env.migrationId with
    | .error error => ({host with orphans},some error)
    | .ok orphans => ({host with orphans},none)

def targetType (declaredTypes : List String) (request : MigrateRequest) : Except MigrateError String :=
  if declaredTypes.contains request.fromType then .error (.notAnOrphan request.fromType)
  else
    match request.strategy with
    | .map _ _ _ => .error (.strategyNotYetImplemented "map")
    | .filter _ _ => .error (.strategyNotYetImplemented "filter")
    | .rename toType => if declaredTypes.contains toType then .ok toType else .error (.undeclaredTargetType toType)

def migrateGrammarOrphans (env : Env) (declaredTypes : List String) (request : MigrateRequest) (host : Host) :
    Host × Except MigrateError MigrateOutcome :=
  match targetType declaredTypes request with
  | .error error => (host,.error error)
  | .ok toType =>
    match if request.dryRun then (host,none) else beginMigration env request host with
    | (host,some error) => (host,.error (.persistence error))
    | (host,none) =>
      match env.loadFails with
      | some error => (host,.error (.persistence error))
      | none =>
        let subjects := candidates host.steward.store request
        let total := subjects.length
        let sample := samples subjects
        if request.dryRun then
          (host,.ok ⟨env.migrationId,request.fromType,total,0,[],true,[(toType,total)],sample.1,sample.2⟩)
        else
          let batches := chunks (max (request.batchSize.getD defaultBatchSize) 1) (records env request toType subjects)
          match runBatches env request total host 0 0 batches with
          | (host,.error error) => (host,.error (.persistence error))
          | (host,.ok count) =>
            let orphans :=
              if env.resolvedFails then host.orphans else markGrammarOrphanResolved host.orphans request.fromType env.migrationId
            ({host with orphans,adminLog := host.adminLog ++ [⟨env.migrationId,env.migrationId,request.reason⟩]},
              .ok ⟨env.migrationId,request.fromType,count,0,[],false,[],sample.1,sample.2⟩)

end EvoCore.GrammarMigration
