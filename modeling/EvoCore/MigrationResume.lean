import EvoCore.MigratedSubjects
import EvoCore.Runs

namespace EvoCore.GrammarMigration
open Runs Tables SubjectRegistry StewardStore StewardWiring SubjectRestart

def leftIds (st : Store) (subjectType : String) : List String :=
  ((loadAllSubjects st).filter fun s => s.subjectType = subjectType).map PersistedSubject.id

def Host.left (host : Host) (request : MigrateRequest) : List String := leftIds host.steward.store request.fromType

def capped (request : MigrateRequest) (ids : List String) : List String :=
  match request.maxSubjects with
  | some cap => ids.take cap
  | none => ids

def Host.status (host : Host) (request : MigrateRequest) : Option GrammarOrphanStatus :=
  (get host.orphans request.fromType).map (·.status)

-- Nothing fails but batches, where the call may be cut off; the ids drawn are new ones.
structure Careful (host : Host) (env : Env) : Prop where
  upsert : env.upsertFails = false
  mark : env.markFails = none
  load : env.loadFails = none
  resolved : env.resolvedFails = false
  fresh : ∀ i,get host.steward.store.subjects (env.newId i) = none
  apart : Function.Injective env.newId

def Uncut (env : Env) : Prop := ∀ i,env.batchFails i = none

-- The call is issued where something is left of the type, or the row is not resolved.
def Due (request : MigrateRequest) (host : Host) : Prop := host.left request ≠ [] ∨ host.status request ≠ some .resolved

-- The ids, each once, have gone from the type into subjects of the new one, and nothing else has.
structure Migrates (request : MigrateRequest) (toType : String) (before after : Host) (ids : List String) : Prop where
  once : (ids++after.left request).Perm (before.left request)
  retired : ∃ rows : List AliasRow,after.steward.store.aliases = before.steward.store.aliases++rows ∧ rows.map AliasRow.oldId = ids ∧
    ∀ row ∈ rows,row.kind = .typeMigrated ∧ get after.steward.store.subjects row.oldId = none ∧
      get after.steward.store.subjects row.newId = some ⟨toType,false⟩

structure GoodCall (declaredTypes : List String) (request : MigrateRequest) (toType : String) (host : Host) (env : Env) : Prop where
  migrates : ∃ ids,Migrates request toType host (migrateGrammarOrphans env declaredTypes request host).1 ids ∧
    (Uncut env → ids = capped request (host.left request))
  answers : Uncut env → ∃ outcome,(migrateGrammarOrphans env declaredTypes request host).2 = .ok outcome ∧
    outcome.migratedCount = (capped request (host.left request)).length
  resolves : (migrateGrammarOrphans env declaredTypes request host).1.status request = some .resolved ↔
    (migrateGrammarOrphans env declaredTypes request host).1.left request = []

def reissue (declaredTypes : List String) (request : MigrateRequest) (host : Host) (env : Env) : Host :=
  (migrateGrammarOrphans env declaredTypes request host).1

-- However often the call is cut off and issued again, each of the calls does its share.
def Resumes (declaredTypes : List String) (request : MigrateRequest) (toType : String) (host : Host) : Prop :=
  ∀ envs,Guarded (reissue declaredTypes request) (fun host env => Careful host env ∧ Due request host) host envs →
    Guarded (reissue declaredTypes request) (GoodCall declaredTypes request toType) host envs

def CapCovers (request : MigrateRequest) (host : Host) : Prop := ∀ cap,request.maxSubjects = some cap → (host.left request).length ≤ cap

section
variable {st next last : Store} {record : TypeMigrationRecord} {id subjectType toType : String} {listed : List TypeMigrationRecord}
  {env : Env} {request : MigrateRequest} {host after : Host} {declaredTypes : List String}

theorem leftIds_nodup (st : Store) (subjectType : String) : (leftIds st subjectType).Nodup := by
  have keys : ((loadAllSubjects st).map PersistedSubject.id).Nodup := by
    rw [loadAllSubjects_ids]
    exact st.subjects.nodupKeys
  exact keys.sublist (List.filter_sublist.map _)

theorem mem_leftIds : id ∈ leftIds st subjectType ↔ ∃ forgotten,get st.subjects id = some ⟨subjectType,forgotten⟩ := by
  simp only [leftIds,loadAllSubjects,List.mem_map,List.mem_filter,decide_eq_true_eq]
  constructor
  · intro listed
    obtain ⟨s,⟨⟨row,member,rfl⟩,rfl⟩,rfl⟩ := listed
    exact ⟨row.2.forgotten,(entries_get st.subjects).mp member⟩
  · intro found
    obtain ⟨forgotten,there⟩ := found
    exact ⟨_,⟨⟨⟨id,⟨subjectType,forgotten⟩⟩,(entries_get st.subjects).mpr there,rfl⟩,rfl⟩,rfl⟩

theorem step_left (other : record.toType ≠ subjectType) (step : typeMigrationStep st record = some next) :
    id ∈ leftIds next subjectType ↔ id ∈ leftIds st subjectType ∧ id ≠ record.source := by
  have fresh := step_fresh step
  simp only [mem_leftIds,step_subjects step]
  by_cases source : id = record.source
  · simp [source]
  · by_cases new : id = record.newId
    · subst new
      simp [source,fresh,other]
    · simp [source,new]

theorem step_aliases (step : typeMigrationStep st record = some next) :
    next.aliases = st.aliases++[⟨record.source,record.newId,.typeMigrated,record.migrationId,record.reason⟩] := by
  unfold typeMigrationStep at step
  split at step
  · cases step
  · cases step
    rfl

def retiredBy (record : TypeMigrationRecord) : AliasRow := ⟨record.source,record.newId,.typeMigrated,record.migrationId,record.reason⟩

theorem batch_cons (batch : typeMigrationBatch st (record::listed) = some last) :
    ∃ middle,typeMigrationStep st record = some middle ∧ typeMigrationBatch middle listed = some last := by
  unfold typeMigrationBatch at batch
  rw [List.foldlM_cons] at batch
  exact Option.bind_eq_some_iff.mp batch

theorem batch_left (other : ∀ record ∈ listed,record.toType ≠ subjectType) (batch : typeMigrationBatch st listed = some last) :
    id ∈ leftIds last subjectType ↔ id ∈ leftIds st subjectType ∧ id ∉ listed.map TypeMigrationRecord.source := by
  induction listed generalizing st with
  | nil =>
    cases batch
    simp
  | cons record rest rest_ih =>
    obtain ⟨middle,step,later⟩ := batch_cons batch
    rw [rest_ih (fun follower among => other follower (List.mem_cons_of_mem _ among)) later,step_left (other record List.mem_cons_self) step]
    simp [and_assoc]

theorem batch_aliases (batch : typeMigrationBatch st listed = some last) : last.aliases = st.aliases++listed.map retiredBy := by
  induction listed generalizing st with
  | nil =>
    cases batch
    simp
  | cons record rest rest_ih =>
    obtain ⟨middle,step,later⟩ := batch_cons batch
    rw [rest_ih later,step_aliases step]
    simp [retiredBy]

theorem batch_kept (there : get st.subjects id = some row) (outside : id ∉ listed.map TypeMigrationRecord.source)
    (batch : typeMigrationBatch st listed = some last) : get last.subjects id = some row := by
  induction listed generalizing st with
  | nil =>
    cases batch
    exact there
  | cons record rest rest_ih =>
    obtain ⟨middle,step,later⟩ := batch_cons batch
    simp only [List.map_cons,List.mem_cons,not_or] at outside
    refine rest_ih ?_ outside.2 later
    have new : id ≠ record.newId := by
      intro same
      rw [same,step_fresh step] at there
      cases there
    rw [step_subjects step,if_neg outside.1,if_neg new]
    exact there

theorem batch_succeeds (fresh : ∀ record ∈ listed,get st.subjects record.newId = none) (apart : (listed.map TypeMigrationRecord.newId).Nodup) :
    ∃ last,typeMigrationBatch st listed = some last := by
  induction listed generalizing st with
  | nil => exact ⟨st,rfl⟩
  | cons record rest rest_ih =>
    simp only [List.map_cons,List.nodup_cons] at apart
    have first : ∃ middle,typeMigrationStep st record = some middle := by
      unfold typeMigrationStep
      rw [fresh record List.mem_cons_self]
      exact ⟨_,rfl⟩
    obtain ⟨middle,step⟩ := first
    have later : ∀ follower ∈ rest,get middle.subjects follower.newId = none := by
      intro follower among
      have new : follower.newId ≠ record.newId := fun same => apart.1 (same ▸ List.mem_map_of_mem among)
      rw [step_subjects step,if_neg new,fresh follower (List.mem_cons_of_mem _ among)]
      split <;> rfl
    obtain ⟨last,batch⟩ := rest_ih later apart.2
    refine ⟨last,?_⟩
    rw [typeMigrationBatch,List.foldlM_cons,step]
    exact batch

theorem batch_gone (gone : get st.subjects id = none) (outside : id ∉ listed.map TypeMigrationRecord.newId)
    (batch : typeMigrationBatch st listed = some last) : get last.subjects id = none := by
  induction listed generalizing st with
  | nil =>
    cases batch
    exact gone
  | cons record rest rest_ih =>
    obtain ⟨middle,step,later⟩ := batch_cons batch
    simp only [List.map_cons,List.mem_cons,not_or] at outside
    refine rest_ih ?_ outside.2 later
    rw [step_subjects step,if_neg outside.1,gone]
    split <;> rfl

-- Records of subjects that are there, each once, with ids of which none is taken.
structure Draws (st : Store) (listed : List TypeMigrationRecord) : Prop where
  there : ∀ record ∈ listed,∃ row,get st.subjects record.source = some row
  sources : (listed.map TypeMigrationRecord.source).Nodup
  fresh : ∀ record ∈ listed,get st.subjects record.newId = none
  apart : (listed.map TypeMigrationRecord.newId).Nodup

theorem draws_apart (draws : Draws st listed) (among : record ∈ listed) (among_ : other ∈ listed) : record.source ≠ other.newId := by
  intro same
  obtain ⟨row,there⟩ := draws.there record among
  rw [same,draws.fresh other among_] at there
  cases there

theorem draws_step (draws : Draws st (record::listed)) (step : typeMigrationStep st record = some next) : Draws next listed := by
  have sources := draws.sources
  have apart := draws.apart
  simp only [List.map_cons,List.nodup_cons] at sources apart
  refine ⟨?_,sources.2,?_,apart.2⟩
  · intro follower among
    obtain ⟨row,there⟩ := draws.there follower (List.mem_cons_of_mem _ among)
    have different : follower.source ≠ record.source := fun same => sources.1 (same ▸ List.mem_map_of_mem among)
    have new : follower.source ≠ record.newId := draws_apart draws (List.mem_cons_of_mem _ among) List.mem_cons_self
    exact ⟨row,by rw [step_subjects step,if_neg different,if_neg new,there]⟩
  · intro follower among
    have new : follower.newId ≠ record.newId := fun same => apart.1 (same ▸ List.mem_map_of_mem among)
    rw [step_subjects step,if_neg new,draws.fresh follower (List.mem_cons_of_mem _ among)]
    split <;> rfl

theorem batch_retired (draws : Draws st listed) (batch : typeMigrationBatch st listed = some last) (among : record ∈ listed) :
    get last.subjects record.source = none ∧ get last.subjects record.newId = some ⟨record.toType,false⟩ := by
  induction listed generalizing st with
  | nil => cases among
  | cons first rest rest_ih =>
    obtain ⟨middle,step,later⟩ := batch_cons batch
    obtain rfl | follows := List.mem_cons.mp among
    · have away : record.newId ≠ record.source := (draws_apart draws List.mem_cons_self List.mem_cons_self).symm
      have gone : get middle.subjects record.source = none := by rw [step_subjects step,if_pos rfl]
      have new : get middle.subjects record.newId = some ⟨record.toType,false⟩ := by rw [step_subjects step,if_neg away,if_pos rfl]
      constructor
      · refine batch_gone gone ?_ later
        intro member
        obtain ⟨other,among_,same⟩ := List.mem_map.mp member
        exact draws_apart draws List.mem_cons_self (List.mem_cons_of_mem _ among_) same.symm
      · refine batch_kept new ?_ later
        intro member
        obtain ⟨other,among_,same⟩ := List.mem_map.mp member
        exact draws_apart draws (List.mem_cons_of_mem _ among_) List.mem_cons_self same
    · exact rest_ih (draws_step draws step) later follows

theorem chunksAux_filled {α : Type} (n : Nat) (items : List α) (i : Nat) : ∀ chunk ∈ (List.toChunksAux n items i).2,chunk ≠ [] := by
  induction items generalizing i with
  | nil => intro chunk member; cases member
  | cons x rest rest_ih =>
    cases i with
    | zero =>
      intro chunk member
      obtain rfl | later := List.mem_cons.mp member
      · exact List.cons_ne_nil _ _
      · exact rest_ih n chunk later
    | succ i => exact rest_ih i

theorem chunks_filled {α : Type} (size : Nat) (items : List α) : ∀ chunk ∈ chunks size items,chunk ≠ [] := chunksAux_filled _ items 0

theorem runBatches_reach (filled : ∀ batch ∈ batches,batch ≠ []) (total batchIndex done : Nat)
    (whole : typeMigrationBatch host.steward.store batches.flatten = some last) :
    ∃ ran rest,batches.flatten = ran++rest ∧
      typeMigrationBatch host.steward.store ran = some (runBatches env request total host batchIndex done batches).1.steward.store ∧
      (runBatches env request total host batchIndex done batches).1.orphans = host.orphans ∧
      ((rest = [] ∧ (runBatches env request total host batchIndex done batches).2 = .ok (done+batches.flatten.length)) ∨
        (rest ≠ [] ∧ ¬Uncut env ∧ ∃ error,(runBatches env request total host batchIndex done batches).2 = .error error)) := by
  induction batches generalizing host batchIndex done with
  | nil => exact ⟨[],[],rfl,rfl,rfl,.inl ⟨rfl,rfl⟩⟩
  | cons batch rest rest_ih =>
    unfold runBatches
    cases cut : env.batchFails batchIndex with
    | some error =>
      refine ⟨[],(batch::rest).flatten,rfl,rfl,rfl,.inr ⟨?_,?_,error,rfl⟩⟩
      · intro empty
        exact filled batch List.mem_cons_self (List.append_eq_nil_iff.mp empty).1
      · intro uncut
        rw [uncut] at cut
        cases cut
    | none =>
      rw [List.flatten_cons,batch_append] at whole
      obtain ⟨store,stepped,later⟩ := Option.bind_eq_some_iff.mp whole
      simp only [stepped]
      obtain ⟨ran,left_,split,done_,orphans,ends⟩ := @rest_ih {host with
          steward := {host.steward with store}
          happenings := host.happenings ++ batch.map migrated ++
            [Happening.grammarMigrationProgress env.migrationId request.fromType (done+batch.length) (total-(done+batch.length)) batchIndex]}
        (fun other member => filled other (List.mem_cons_of_mem _ member)) (batchIndex+1) (done+batch.length) later
      refine ⟨batch++ran,left_,by rw [List.flatten_cons,split,List.append_assoc],?_,orphans,?_⟩
      · rw [batch_append,stepped]
        exact done_
      · rw [List.flatten_cons,List.length_append,← Nat.add_assoc]
        exact ends

theorem candidates_ids (host : Host) (request : MigrateRequest) :
    (candidates host.steward.store request).map PersistedSubject.id = capped request (host.left request) := by
  unfold candidates capped Host.left leftIds
  dsimp only
  cases request.maxSubjects with
  | none => rfl
  | some cap => rw [List.map_take]

theorem records_newIds (subjects : List PersistedSubject) :
    (records env request toType subjects).map TypeMigrationRecord.newId = (List.range' 0 subjects.length).map env.newId := by
  rw [records,List.map_map]
  have same : (TypeMigrationRecord.newId ∘ fun s : PersistedSubject × Nat =>
      (⟨s.1.id,env.newId s.2,request.fromType,toType,env.migrationId,request.reason⟩ : TypeMigrationRecord)) = env.newId ∘ Prod.snd := rfl
  rw [same,← List.map_map,List.zipIdx_map_snd]

theorem records_toType (among : record ∈ records env request toType subjects) : record.toType = toType := by
  obtain ⟨s,_,rfl⟩ := List.mem_map.mp among
  rfl

theorem capped_sublist (request : MigrateRequest) (ids : List String) : (capped request ids).Sublist ids := by
  unfold capped
  split
  · exact List.take_sublist _ _
  · exact List.Sublist.refl _

theorem capped_covers (covers : CapCovers request host) : capped request (host.left request) = host.left request := by
  unfold capped
  split
  · rename_i cap bound
    exact List.take_of_length_le (covers cap bound)
  · rfl

theorem records_draw (careful : Careful host env) (toType : String) :
    Draws host.steward.store (records env request toType (candidates host.steward.store request)) := by
  have sources := @records_sources env request toType (candidates host.steward.store request)
  rw [candidates_ids] at sources
  refine ⟨?_,?_,?_,?_⟩
  · intro record among
    have listed : record.source ∈ host.left request := by
      apply (capped_sublist request (host.left request)).subset
      rw [← sources]
      exact List.mem_map_of_mem among
    obtain ⟨forgotten,there⟩ := mem_leftIds.mp listed
    exact ⟨_,there⟩
  · rw [sources]
    exact (leftIds_nodup _ _).sublist (capped_sublist _ _)
  · intro record among
    obtain ⟨s,_,rfl⟩ := List.mem_map.mp among
    exact careful.fresh s.2
  · rw [records_newIds]
    exact List.Nodup.map careful.apart List.nodup_range'

theorem draws_front (draws : Draws st (listed++rest)) : Draws st listed := by
  have front : ∀ record ∈ listed,record ∈ listed++rest := fun record among => List.mem_append_left _ among
  have sources := draws.sources
  have apart := draws.apart
  rw [List.map_append] at sources apart
  exact ⟨fun record among => draws.there record (front record among),sources.of_append_left,
    fun record among => draws.fresh record (front record among),apart.of_append_left⟩

theorem migrates_batch (draws : Draws host.steward.store listed) (apart : toType ≠ request.fromType)
    (typed : ∀ record ∈ listed,record.toType = toType) (sources : ∀ record ∈ listed,record.source ∈ host.left request)
    (batch : typeMigrationBatch host.steward.store listed = some after.steward.store) :
    Migrates request toType host after (listed.map TypeMigrationRecord.source) := by
  have left : ∀ {id},id ∈ after.left request ↔ id ∈ host.left request ∧ id ∉ listed.map TypeMigrationRecord.source :=
    batch_left (fun record among => by rw [typed record among]; exact apart) batch
  refine ⟨?_,listed.map retiredBy,batch_aliases batch,by rw [List.map_map]; rfl,?_⟩
  · rw [List.perm_ext_iff_of_nodup]
    · intro id
      rw [List.mem_append,left]
      constructor
      · intro either
        obtain moved | ⟨still,_⟩ := either
        · obtain ⟨record,among,rfl⟩ := List.mem_map.mp moved
          exact sources record among
        · exact still
      · intro was
        by_cases moved : id ∈ listed.map TypeMigrationRecord.source
        · exact .inl moved
        · exact .inr ⟨was,moved⟩
    · rw [List.nodup_append]
      refine ⟨draws.sources,leftIds_nodup _ _,?_⟩
      intro one moved two still same
      subst same
      exact (left.mp still).2 moved
    · exact leftIds_nodup _ _
  · intro row member
    obtain ⟨record,among,rfl⟩ := List.mem_map.mp member
    obtain ⟨gone,new⟩ := batch_retired draws batch among
    rw [typed record among] at new
    exact ⟨rfl,gone,new⟩

theorem begin_careful (careful : Careful host env) (unresolved : host.status request ≠ some .resolved) :
    ∃ orphans row,beginMigration env request host = ({host with orphans},none) ∧ get orphans request.fromType = some row ∧ row.status = .migrating := by
  have pending : ∃ row,get (upsertPendingGrammarOrphan host.orphans request.fromType 0 env.nowMs) request.fromType = some row ∧ row.status ≠ .resolved := by
    unfold upsertPendingGrammarOrphan
    cases held : get host.orphans request.fromType with
    | none => exact ⟨⟨env.nowMs,env.nowMs,0,.pending,none⟩,by simp,fun same => by cases same⟩
    | some row =>
      have still : row.status ≠ .resolved := by
        intro same
        apply unresolved
        rw [Host.status,held,Option.map_some,same]
      refine ⟨_,by simp only [get_insert,if_true]; rfl,?_⟩
      dsimp only
      split
      · exact fun same => by cases same
      · exact still
  obtain ⟨row,there,open_⟩ := pending
  refine ⟨(upsertPendingGrammarOrphan host.orphans request.fromType 0 env.nowMs).insert request.fromType
    { row with status := .migrating,migrationId := some env.migrationId },_,?_,by simp only [get_insert,if_true]; rfl,rfl⟩
  simp only [beginMigration,careful.upsert,careful.mark,markGrammarOrphanMigrating,there,open_,if_false,Bool.false_eq_true]

theorem migrate_reach (target : targetType declaredTypes request = .ok toType) (real : request.dryRun = false) (careful : Careful host env)
    (unresolved : host.status request ≠ some .resolved) :
    ∃ ran rest,records env request toType (candidates host.steward.store request) = ran++rest ∧
      typeMigrationBatch host.steward.store ran = some (migrateGrammarOrphans env declaredTypes request host).1.steward.store ∧
      ((rest = [] ∧ (migrateGrammarOrphans env declaredTypes request host).1.status request = some .resolved ∧
          ∃ outcome,(migrateGrammarOrphans env declaredTypes request host).2 = .ok outcome ∧
            outcome.migratedCount = (records env request toType (candidates host.steward.store request)).length) ∨
        (rest ≠ [] ∧ ¬Uncut env ∧ (migrateGrammarOrphans env declaredTypes request host).1.status request = some .migrating)) := by
  obtain ⟨orphans,row,begun,there,marked⟩ := begin_careful careful unresolved
  obtain ⟨last,whole⟩ := batch_succeeds (records_draw careful toType).fresh (records_draw careful toType).apart
  have flat := chunks_flatten (max (request.batchSize.getD defaultBatchSize) 1) (records env request toType (candidates host.steward.store request))
  rw [← flat] at whole
  obtain ⟨ran,rest,split,batch,kept,ends⟩ := @runBatches_reach _ env request {host with orphans} _ (chunks_filled _ _)
    (candidates host.steward.store request).length 0 0 whole
  rw [flat] at split ends
  refine ⟨ran,rest,split,?_⟩
  unfold migrateGrammarOrphans
  simp only [target,real,Bool.false_eq_true,if_false,begun,careful.load]
  generalize runBatches env request (candidates host.steward.store request).length {host with orphans} 0 0
    (chunks (max (request.batchSize.getD defaultBatchSize) 1) (records env request toType (candidates host.steward.store request))) = finished at *
  obtain ⟨reached,result⟩ := finished
  replace kept : reached.orphans = orphans := kept
  obtain ⟨complete,fine⟩ | ⟨short,uncut,error,failed⟩ := ends
  · subst fine
    refine ⟨batch,.inl ⟨complete,?_,_,rfl,by simp⟩⟩
    simp only [careful.resolved,Bool.false_eq_true,if_false,Host.status,markGrammarOrphanResolved,get_modify,if_true,kept,there,Option.map_some]
  · subst failed
    refine ⟨batch,.inr ⟨short,uncut,?_⟩⟩
    simp only [Host.status,kept,there,Option.map_some,marked]

theorem target_apart (target : targetType declaredTypes request = .ok toType) : toType ≠ request.fromType := by
  unfold targetType at target
  split at target
  · cases target
  · rename_i orphaned
    split at target
    · cases target
    · cases target
    · split at target
      · rename_i declared
        cases target
        intro same
        exact orphaned (same ▸ declared)
      · cases target

theorem reached_migrates (target : targetType declaredTypes request = .ok toType) (careful : Careful host env)
    (split : records env request toType (candidates host.steward.store request) = listed++rest)
    (batch : typeMigrationBatch host.steward.store listed = some after.steward.store) :
    Migrates request toType host after (listed.map TypeMigrationRecord.source) ∧
      listed.map TypeMigrationRecord.source++rest.map TypeMigrationRecord.source = capped request (host.left request) := by
  have draws : Draws host.steward.store (records env request toType (candidates host.steward.store request)) := records_draw careful toType
  have sources := @records_sources env request toType (candidates host.steward.store request)
  have typed : ∀ record ∈ listed++rest,record.toType = toType := by
    intro record among
    rw [← split] at among
    exact records_toType among
  rw [split] at draws
  rw [candidates_ids,split,List.map_append] at sources
  refine ⟨migrates_batch (draws_front draws) (target_apart target) (fun record among => typed record (List.mem_append_left _ among)) ?_ batch,sources⟩
  intro record among
  apply (capped_sublist request (host.left request)).subset
  rw [← sources]
  exact List.mem_append_left _ (List.mem_map_of_mem among)

theorem good_call (target : targetType declaredTypes request = .ok toType) (real : request.dryRun = false) (careful : Careful host env)
    (unresolved : host.status request ≠ some .resolved) (covers : CapCovers request host) :
    GoodCall declaredTypes request toType host env := by
  obtain ⟨ran,rest,split,batch,ends⟩ := migrate_reach target real careful unresolved
  obtain ⟨migrates,sources⟩ := reached_migrates target careful split batch
  have left : ((migrateGrammarOrphans env declaredTypes request host).1.left request).Perm (rest.map TypeMigrationRecord.source) := by
    have once := migrates.once
    rw [← capped_covers covers,← sources] at once
    exact (List.perm_append_left_iff _).mp once
  obtain ⟨complete,resolved,outcome,fine,count⟩ | ⟨short,cut,migrating⟩ := ends
  · subst complete
    rw [List.map_nil,List.append_nil] at sources
    refine ⟨⟨_,migrates,fun _ => sources⟩,fun _ => ⟨outcome,fine,?_⟩,?_⟩
    · rw [count,← sources,split,List.append_nil,List.length_map]
    · exact ⟨fun _ => List.perm_nil.mp left,fun _ => resolved⟩
  · refine ⟨⟨_,migrates,fun uncut => absurd uncut cut⟩,fun uncut => absurd uncut cut,?_⟩
    rw [migrating]
    constructor
    · intro same
      cases same
    · intro empty
      rw [empty] at left
      exact absurd (List.map_eq_nil_iff.mp (List.nil_perm.mp left)) short

theorem covers_later (migrates : Migrates request toType host after ids) (covers : CapCovers request host) : CapCovers request after := by
  intro cap bound
  have once := migrates.once.length_eq
  rw [List.length_append] at once
  have enough := covers cap bound
  omega

-- Ids enough: longer than any that is in the table.
theorem careful_exists (host : Host) : ∃ env,Careful host env ∧ Uncut env := by
  have endless : (Set.univ \ {id : String | id ∈ host.steward.store.subjects.keys}).Infinite :=
    Set.infinite_univ.sdiff (List.finite_toSet host.steward.store.subjects.keys)
  refine ⟨⟨"m",fun i => (endless.natEmbedding _ i).1,0,false,none,none,fun _ => none,false⟩,⟨rfl,rfl,rfl,rfl,?_,?_⟩,fun _ => rfl⟩
  · intro i
    have outside := (endless.natEmbedding _ i).2.2
    cases held : get host.steward.store.subjects (endless.natEmbedding _ i).1 with
    | none => rfl
    | some row => exact absurd ((mem_keys _).mpr ⟨row,held⟩) outside
  · exact Subtype.val_injective.comp (endless.natEmbedding _).injective

-- The first call that runs through marks the row, whatever it has left behind.
theorem resumes_covered (target : targetType declaredTypes request = .ok toType) (real : request.dryRun = false)
    (unresolved : host.status request ≠ some .resolved) (resumes : Resumes declaredTypes request toType host) : CapCovers request host := by
  intro cap bound
  obtain ⟨env,careful,uncut⟩ := careful_exists host
  have good := (resumes [env] ⟨⟨careful,.inr unresolved⟩,trivial⟩).1
  obtain ⟨ran,rest,split,batch,ends⟩ := migrate_reach target real careful unresolved
  obtain ⟨_,resolved,_⟩ | ⟨_,cut,_⟩ := ends
  · have empty := good.resolves.mp resolved
    obtain ⟨ids,migrates,whole⟩ := good.migrates
    have once := migrates.once.length_eq
    rw [whole uncut,empty,List.append_nil,capped,bound,List.length_take] at once
    omega
  · exact absurd uncut cut

theorem resume_exactly (declaredTypes : List String) (request : MigrateRequest) (toType : String) (host : Host)
    (target : targetType declaredTypes request = .ok toType) (real : request.dryRun = false) (unresolved : host.status request ≠ some .resolved) :
    Resumes declaredTypes request toType host ↔ CapCovers request host := by
  constructor
  · exact resumes_covered target real unresolved
  · intro covers envs
    have start : CapCovers request host ∧ (host.status request = some .resolved → host.left request = []) :=
      ⟨covers,fun same => absurd same unresolved⟩
    have waiting : ∀ h : Host,(h.status request = some .resolved → h.left request = []) → Due request h → h.status request ≠ some .resolved := by
      intro h settled due same
      obtain left | free := due
      · exact left (settled same)
      · exact free same
    refine @guarded_carries _ _ _ (fun h : Host => CapCovers request h ∧ (h.status request = some .resolved → h.left request = [])) _ _ _ _ ?_ ?_ start
    · intro h env held issued
      have good := good_call target real issued.1 (waiting h held.2 issued.2) held.1
      obtain ⟨ids,migrates,_⟩ := good.migrates
      exact ⟨covers_later migrates held.1,good.resolves.mp⟩
    · intro h env held issued
      exact good_call target real issued.1 (waiting h held.2 issued.2) held.1

end

def twoSongs : Host :=
  ⟨cameUp (recordSubjectAnnounce (recordSubjectAnnounce .new "1" "song" [] "scanner") "2" "song" [] "scanner"),∅,∅,[],[]⟩

def oneAtATime : MigrateRequest := ⟨"song",.rename "track",false,none,none,some 1⟩

theorem pair_resumes : Resumes ["track"] { oneAtATime with maxSubjects := some 2 } "track" twoSongs :=
  (resume_exactly ["track"] { oneAtATime with maxSubjects := some 2 } "track" twoSongs (by decide) rfl (by decide)).mpr
    fun cap bound => by cases bound; decide

theorem capped_stuck :
    (migrateGrammarOrphans quiet ["track"] oneAtATime twoSongs).1.status oneAtATime = some .resolved ∧
    ((migrateGrammarOrphans quiet ["track"] oneAtATime twoSongs).1.left oneAtATime).length = 1 ∧
    (migrateGrammarOrphans { quiet with newId := fun i => "later"++toString i } ["track"] oneAtATime
      (migrateGrammarOrphans quiet ["track"] oneAtATime twoSongs).1).2 = .error (.persistence (.alreadyResolved "song")) ∧
    ¬Resumes ["track"] oneAtATime "track" twoSongs := by
  refine ⟨by decide,by decide,by decide,?_⟩
  intro resumes
  have covers := resumes_covered (by decide) rfl (by decide) resumes
  exact absurd (covers 1 rfl) (by decide)

end EvoCore.GrammarMigration
