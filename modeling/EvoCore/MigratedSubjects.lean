import EvoCore.GrammarMigration

namespace EvoCore.GrammarMigration
open Tables SubjectRegistry StewardStore StewardWiring SubjectRestart RelationRestart
open RelationGraph (RelationKey)

section
variable {st next last : Store} {record : TypeMigrationRecord} {id : String} {a : ExternalAddressing} {claimant : String}
  {listed : List TypeMigrationRecord} {env : Env} {request : MigrateRequest} {host after : Host} {declaredTypes : List String}

-- The foreign key of subject_addressings.
def References (st : Store) : Prop := ∀ a row,get st.addressings a = some row → (get st.subjects row.subjectId).isSome

theorem step_fresh (step : typeMigrationStep st record = some next) : get st.subjects record.newId = none := by
  unfold typeMigrationStep at step
  split at step
  · cases step
  · assumption

theorem step_subjects (step : typeMigrationStep st record = some next) : get next.subjects id =
    if id = record.source then none else if id = record.newId then some ⟨record.toType,false⟩ else get st.subjects id := by
  unfold typeMigrationStep at step
  split at step
  · cases step
  · cases step
    simp [deleteSubject]

def rehomed (record : TypeMigrationRecord) (row : AddressingRow) : AddressingRow :=
  if row.subjectId = record.source then {row with subjectId := record.newId} else row

theorem step_addressings (there : (get st.subjects record.source).isSome) (step : typeMigrationStep st record = some next) :
    get next.addressings a = (get st.addressings a).map (rehomed record) := by
  have fresh := step_fresh step
  have apart : record.newId ≠ record.source := by
    intro same
    rw [← same,fresh] at there
    cases there
  unfold typeMigrationStep at step
  rw [fresh] at step
  cases step
  simp only [deleteSubject,get_retain,get_mapValues]
  cases get st.addressings a with
  | none => rfl
  | some row =>
    simp only [Option.map_some,rehomed]
    by_cases mine : row.subjectId = record.source
    · simp [mine,apart]
    · simp [mine]

theorem step_moves (refs : References st) (there : (get st.subjects record.source).isSome)
    (step : typeMigrationStep st record = some next) :
    get next.addressings a = some ⟨record.newId,claimant⟩ ↔ get st.addressings a = some ⟨record.source,claimant⟩ := by
  rw [step_addressings there step]
  cases row : get st.addressings a with
  | none => simp
  | some row_ =>
    obtain ⟨owner,who⟩ := row_
    have known := refs a _ row
    have apart : owner ≠ record.newId := by
      rintro rfl
      rw [step_fresh step] at known
      cases known
    by_cases mine : owner = record.source
    · simp [rehomed,mine]
    · simp [rehomed,mine,apart]

theorem step_stays (there : (get st.subjects record.source).isSome) (present : (get st.subjects id).isSome)
    (other : id ≠ record.source) (step : typeMigrationStep st record = some next) :
    get next.addressings a = some ⟨id,claimant⟩ ↔ get st.addressings a = some ⟨id,claimant⟩ := by
  have apart : record.newId ≠ id := by
    rintro rfl
    rw [step_fresh step] at present
    cases present
  rw [step_addressings there step]
  cases get st.addressings a with
  | none => rfl
  | some row =>
    obtain ⟨owner,who⟩ := row
    by_cases mine : owner = record.source
    · simp [rehomed,mine,apart,other.symm]
    · simp [rehomed,mine]

theorem step_references (refs : References st) (there : (get st.subjects record.source).isSome)
    (step : typeMigrationStep st record = some next) : References next := by
  have fresh := step_fresh step
  intro a row found
  rw [step_addressings there step] at found
  obtain ⟨old,before,rfl⟩ := Option.map_eq_some_iff.mp found
  have known := refs a old before
  rw [step_subjects step]
  unfold rehomed
  by_cases mine : old.subjectId = record.source
  · have apart : record.newId ≠ record.source := by
      intro same
      rw [← same,fresh] at there
      cases there
    simp [mine,apart]
  · simp only [mine,if_false]
    split
    · rfl
    · exact known

-- What a batch does to subjects and addressings.
structure Moved (st last : Store) (listed : List TypeMigrationRecord) : Prop where
  subjects : ∀ record ∈ listed,get last.subjects record.newId = some ⟨record.toType,false⟩
  addressings : ∀ record ∈ listed,∀ a claimant,
    get last.addressings a = some ⟨record.newId,claimant⟩ ↔ get st.addressings a = some ⟨record.source,claimant⟩

structure Beside (st last : Store) (listed : List TypeMigrationRecord) : Prop where
  subjects : ∀ id,(get st.subjects id).isSome → id ∉ listed.map TypeMigrationRecord.source →
    get last.subjects id = get st.subjects id
  addressings : ∀ id a claimant,(get st.subjects id).isSome → id ∉ listed.map TypeMigrationRecord.source →
    (get last.addressings a = some ⟨id,claimant⟩ ↔ get st.addressings a = some ⟨id,claimant⟩)

theorem batch_moved (refs : References st) (there : ∀ record ∈ listed,(get st.subjects record.source).isSome)
    (apart : (listed.map TypeMigrationRecord.source).Nodup) (batch : typeMigrationBatch st listed = some last) :
    Moved st last listed ∧ Beside st last listed := by
  induction listed generalizing st with
  | nil =>
    cases batch
    exact ⟨⟨(fun _ none_ => nomatch none_),(fun _ none_ => nomatch none_)⟩,⟨fun _ _ _ => rfl,fun _ _ _ _ _ => Iff.rfl⟩⟩
  | cons record rest ih =>
    unfold typeMigrationBatch at batch
    rw [List.foldlM_cons] at batch
    obtain ⟨middle,step,later⟩ := Option.bind_eq_some_iff.mp batch
    simp only [List.map_cons,List.nodup_cons] at apart
    have present := there record List.mem_cons_self
    have fresh := step_fresh step
    -- The sources still to come are neither the one taken away nor the new id.
    have waits : ∀ id,(get st.subjects id).isSome → id ≠ record.source → get middle.subjects id = get st.subjects id := by
      intro id known other
      have new : id ≠ record.newId := by
        rintro rfl
        rw [fresh] at known
        cases known
      rw [step_subjects step,if_neg other,if_neg new]
    have sources : ∀ follower ∈ rest,(get st.subjects follower.source).isSome ∧ follower.source ≠ record.source := by
      intro follower member
      refine ⟨there follower (List.mem_cons_of_mem _ member),?_⟩
      intro same
      exact apart.1 (same ▸ List.mem_map_of_mem member)
    have ready : ∀ follower ∈ rest,(get middle.subjects follower.source).isSome := by
      intro follower member
      obtain ⟨known,other⟩ := sources follower member
      rw [waits _ known other]
      exact known
    obtain ⟨moved,beside⟩ := ih (step_references refs present step) ready apart.2 later
    have mine : get middle.subjects record.newId = some ⟨record.toType,false⟩ := by
      have new : record.newId ≠ record.source := by
        intro same
        rw [← same,fresh] at present
        cases present
      rw [step_subjects step,if_neg new,if_pos rfl]
    have out : record.newId ∉ rest.map TypeMigrationRecord.source := by
      intro member
      obtain ⟨follower,among,same⟩ := List.mem_map.mp member
      have known := (sources follower among).1
      rw [same,fresh] at known
      cases known
    refine ⟨⟨?_,?_⟩,⟨?_,?_⟩⟩
    · intro taken member
      rcases List.mem_cons.mp member with rfl | member
      · rw [beside.subjects _ (by rw [mine]; rfl) out,mine]
      · exact moved.subjects taken member
    · intro taken member a claimant
      rcases List.mem_cons.mp member with rfl | member
      · rw [beside.addressings _ a claimant (by rw [mine]; rfl) out]
        exact step_moves refs present step
      · obtain ⟨known,other⟩ := sources taken member
        rw [moved.addressings taken member]
        exact step_stays present known other step
    · intro id known outside
      simp only [List.map_cons,List.mem_cons,not_or] at outside
      have still := waits id known outside.1
      rw [beside.subjects id (by rw [still]; exact known) outside.2,still]
    · intro id a claimant known outside
      simp only [List.map_cons,List.mem_cons,not_or] at outside
      have still := waits id known outside.1
      rw [beside.addressings id a claimant (by rw [still]; exact known) outside.2]
      exact step_stays present known outside.1 step

theorem batch_append : typeMigrationBatch st (first++second) = (typeMigrationBatch st first).bind fun middle => typeMigrationBatch middle second :=
  List.foldlM_append

theorem chunksAux_flatten {α : Type} (n : Nat) (items : List α) (i : Nat) :
    (List.toChunksAux n items i).1++(List.toChunksAux n items i).2.flatten = items := by
  induction items generalizing i with
  | nil => rfl
  | cons x rest ih =>
    cases i with
    | zero =>
      have tail := ih n
      simp only [List.toChunksAux,List.nil_append,List.flatten_cons,List.cons_append,tail]
    | succ i =>
      have tail := ih i
      simp only [List.toChunksAux,List.cons_append,tail]

theorem chunks_flatten {α : Type} (size : Nat) (items : List α) : (chunks size items).flatten = items := by
  have all := chunksAux_flatten (size-1) items 0
  cases items with
  | nil => rfl
  | cons x rest => exact all

theorem runBatches_ok (ran : runBatches env request total host batchIndex done batches = (after,.ok count)) :
    typeMigrationBatch host.steward.store batches.flatten = some after.steward.store ∧
      after.steward.registry = host.steward.registry ∧ after.steward.graph = host.steward.graph ∧
      after.subjectStates = host.subjectStates := by
  induction batches generalizing host batchIndex done with
  | nil =>
    cases ran
    exact ⟨rfl,rfl,rfl,rfl⟩
  | cons batch rest ih =>
    unfold runBatches at ran
    split at ran
    · cases ran
    · split at ran
      · cases ran
      · rename_i store stepped
        obtain ⟨later,registry,graph,states⟩ := ih ran
        refine ⟨?_,registry,graph,states⟩
        rw [List.flatten_cons,batch_append,stepped]
        exact later

-- The records that an `Ok` call has applied.
def performed (env : Env) (declaredTypes : List String) (request : MigrateRequest) (host : Host) : List TypeMigrationRecord :=
  match targetType declaredTypes request with
  | .error _ => []
  | .ok toType => if request.dryRun then [] else records env request toType (candidates host.steward.store request)

theorem begin_steward (env : Env) (request : MigrateRequest) (host : Host) :
    (beginMigration env request host).1.steward = host.steward ∧
      (beginMigration env request host).1.subjectStates = host.subjectStates := by
  unfold beginMigration
  dsimp only
  split
  · exact ⟨rfl,rfl⟩
  · split
    · exact ⟨rfl,rfl⟩
    · exact ⟨rfl,rfl⟩

theorem migrate_ok (ok : migrateGrammarOrphans env declaredTypes request host = (after,.ok outcome)) :
    typeMigrationBatch host.steward.store (performed env declaredTypes request host) = some after.steward.store ∧
      after.steward.registry = host.steward.registry ∧ after.steward.graph = host.steward.graph ∧
      after.subjectStates = host.subjectStates := by
  unfold migrateGrammarOrphans at ok
  unfold performed
  cases target : targetType declaredTypes request with
  | error error =>
    rw [target] at ok
    cases ok
  | ok toType =>
    rw [target] at ok
    dsimp only at ok ⊢
    cases dry : request.dryRun with
    | true =>
      simp only [dry,if_true] at ok ⊢
      split at ok
      · cases ok
      · cases ok
        exact ⟨rfl,rfl,rfl,rfl⟩
    | false =>
      simp only [dry,Bool.false_eq_true,if_false] at ok ⊢
      obtain ⟨steward,states⟩ := begin_steward env request host
      split at ok
      · cases ok
      · rename_i began begun
        rw [begun] at steward states
        split at ok
        · cases ok
        · split at ok
          · cases ok
          · rename_i ran count finished
            cases ok
            obtain ⟨batch,registry,graph,same⟩ := runBatches_ok finished
            rw [chunks_flatten,steward] at batch
            exact ⟨batch,registry.trans (congrArg Steward.registry steward),graph.trans (congrArg Steward.graph steward),same.trans states⟩

theorem records_sources (subjects : List PersistedSubject) :
    (records env request toType subjects).map TypeMigrationRecord.source = subjects.map PersistedSubject.id := by
  rw [records,List.map_map]
  have same : (TypeMigrationRecord.source ∘ fun s : PersistedSubject × Nat =>
      (⟨s.1.id,env.newId s.2,request.fromType,toType,env.migrationId,request.reason⟩ : TypeMigrationRecord)) =
      PersistedSubject.id ∘ Prod.fst := rfl
  rw [same,← List.map_map,List.zipIdx_map_fst]

theorem candidates_sublist (st : Store) (request : MigrateRequest) : (candidates st request).Sublist (loadAllSubjects st) := by
  unfold candidates
  dsimp only
  split
  · exact (List.take_sublist _ _).trans List.filter_sublist
  · exact List.filter_sublist

theorem loaded_present (member : id ∈ (loadAllSubjects st).map PersistedSubject.id) : (get st.subjects id).isSome := by
  rw [loadAllSubjects_ids,mem_keys] at member
  exact Option.isSome_iff_exists.mpr member

theorem performed_cases (env : Env) (declaredTypes : List String) (request : MigrateRequest) (host : Host) :
    performed env declaredTypes request host = [] ∨
      ∃ toType,performed env declaredTypes request host = records env request toType (candidates host.steward.store request) := by
  unfold performed
  split
  · exact .inl rfl
  · split
    · exact .inl rfl
    · exact .inr ⟨_,rfl⟩

theorem performed_sources (env : Env) (declaredTypes : List String) (request : MigrateRequest) (host : Host) :
    (∀ record ∈ performed env declaredTypes request host,(get host.steward.store.subjects record.source).isSome) ∧
      ((performed env declaredTypes request host).map TypeMigrationRecord.source).Nodup := by
  obtain none_ | ⟨toType,shape⟩ := performed_cases env declaredTypes request host
  · rw [none_]
    exact ⟨(fun _ none_ => nomatch none_),List.nodup_nil⟩
  · rw [shape]
    have sublist := (candidates_sublist host.steward.store request).map PersistedSubject.id
    constructor
    · intro record member
      have listed : record.source ∈ (records env request toType (candidates host.steward.store request)).map TypeMigrationRecord.source :=
        List.mem_map_of_mem member
      rw [records_sources] at listed
      exact loaded_present (sublist.subset listed)
    · rw [records_sources]
      refine sublist.nodup ?_
      rw [loadAllSubjects_ids]
      exact host.steward.store.subjects.nodupKeys

-- Where a subject's relations are to be found after the call.
def renamed (listed : List TypeMigrationRecord) (id : String) : String :=
  match listed.find? fun record => record.source = id with
  | some record => record.newId
  | none => id

def renamedKey (listed : List TypeMigrationRecord) (key : RelationKey) : RelationKey :=
  ⟨renamed listed key.sourceId,key.predicate,renamed listed key.targetId⟩

-- What a restart would bring back is what is in memory.
def Agrees (host : Host) : Prop := Restores host.steward ∧ RestoresGraph host.steward

structure Whole (before after : Host) (listed : List TypeMigrationRecord) : Prop where
  subjects : Moved before.steward.store after.steward.store listed
  relations : ∀ key row,get before.steward.store.relations key = some row →
    get after.steward.store.relations (renamedKey listed key) = some row ∧
    ∀ claimant,get after.steward.store.relationClaimants (renamedKey listed key,claimant) =
      get before.steward.store.relationClaimants (key,claimant)
  states : ∀ record ∈ listed,∀ state,get before.subjectStates record.source = some state →
    get after.subjectStates record.newId = some state
  memory : Agrees after

theorem memory_behind (agreed : Agrees host) (agrees : Agrees after) (same : after.steward.registry = host.steward.registry)
    (fresh : get host.steward.store.subjects id = none) (there : get after.steward.store.subjects id = some ⟨toType,false⟩) : False := by
  have before := (agreed.1 0).subjects id
  have later := (agrees.1 0).subjects id
  rw [rehydrate_subjects,fresh] at before
  rw [rehydrate_subjects,there,same] at later
  cases held : get host.steward.registry.inner.subjects id with
  | none =>
    rw [held] at later
    cases later
  | some record =>
    rw [held] at before
    cases before

theorem steward_ext {first second : Steward} (registry : first.registry = second.registry) (graph : first.graph = second.graph)
    (store : first.store = second.store) : first = second := by
  cases first
  cases second
  cases registry
  cases graph
  cases store
  rfl

theorem whole_exactly (env : Env) (declaredTypes : List String) (request : MigrateRequest)
    (refs : References host.steward.store) (agreed : Agrees host)
    (ok : migrateGrammarOrphans env declaredTypes request host = (after,.ok outcome)) :
    Moved host.steward.store after.steward.store (performed env declaredTypes request host) ∧
    (Whole host after (performed env declaredTypes request host) ↔
      request.dryRun = true ∨ candidates host.steward.store request = []) := by
  obtain ⟨batch,registry,graph,states⟩ := migrate_ok ok
  obtain ⟨present,apart⟩ := performed_sources env declaredTypes request host
  have moved := (batch_moved refs present apart batch).1
  refine ⟨moved,?_⟩
  have idle : performed env declaredTypes request host = [] ↔ request.dryRun = true ∨ candidates host.steward.store request = [] := by
    unfold performed
    cases target : targetType declaredTypes request with
    | error error =>
      unfold migrateGrammarOrphans at ok
      rw [target] at ok
      cases ok
    | ok toType => cases request.dryRun <;> simp [records]
  rw [← idle]
  constructor
  · intro whole
    cases listed : performed env declaredTypes request host with
    | nil => rfl
    | cons record rest =>
      -- The first new id was not in the store before, and is in it afterwards.
      have first := batch
      rw [listed,typeMigrationBatch,List.foldlM_cons] at first
      obtain ⟨middle,step,-⟩ := Option.bind_eq_some_iff.mp first
      have there := moved.subjects record (by rw [listed]; exact List.mem_cons_self)
      exact (memory_behind agreed whole.memory registry (step_fresh step) there).elim
  · intro none_
    rw [none_] at batch moved ⊢
    have same : after.steward = host.steward := steward_ext registry graph (Option.some.inj batch).symm
    refine ⟨moved,?_,(fun _ member => nomatch member),?_⟩
    · intro key row found
      rw [same]
      exact ⟨found,fun _ => rfl⟩
    · unfold Agrees
      rw [same]
      exact agreed

def cameUp (store : Store) : Steward := ⟨⟨rehydrateRegistry store 0,false⟩,⟨rehydrateGraph store,false⟩,store⟩

theorem cameUp_agrees (store : Store) (states : Table String String) (orphans : Table String GrammarOrphan) :
    Agrees ⟨cameUp store,states,orphans,[],[]⟩ := by
  constructor
  · intro drawn
    refine ⟨fun id => ?_,fun id => ?_⟩
    · simp only [cameUp,rehydrate_subjects]
      cases (get store.subjects id).bind fun row => if row.forgotten then none else some (⟨id,row.subjectType,persistedAddressings store id⟩ : SubjectRecord) with
      | none => exact .none
      | some record => exact .some ⟨rfl,rfl,fun _ => Iff.rfl⟩
    · simp only [cameUp,rehydrate_aliases]
  · intro key
    simp only [cameUp]
    cases get (rehydrateGraph store).relations key with
    | none => exact .none
    | some record => exact .some ⟨fun _ => Iff.rfl,rfl⟩

def track : ExternalAddressing := ⟨"file","/music/1.flac"⟩
def onAlbum : RelationKey := ⟨"1","album_of","2"⟩

def library : Store :=
  recordRelationAssert
    (recordSubjectAnnounce (recordSubjectAnnounce .new "1" "song" [track] "scanner") "2" "album" [⟨"mbid","2"⟩] "scanner")
    onAlbum "scanner" none

def upgraded : Host := ⟨cameUp library,AList.insert "1" "playing" ∅,∅,[],[]⟩

def quiet : Env := ⟨"m",fun i => "new" ++ toString i,0,false,none,none,fun _ => none,false⟩

def songsToTracks : MigrateRequest := ⟨"song",.rename "track",false,none,none,none⟩

def played : Host := (migrateGrammarOrphans quiet ["track","album"] songsToTracks upgraded).1

theorem played_ok : migrateGrammarOrphans quiet ["track","album"] songsToTracks upgraded =
    (played,.ok ⟨"m","song",1,0,[],false,[],["1"],[]⟩) := Prod.ext rfl (by decide)

theorem library_references : References library := by
  intro a row found
  have listed : (⟨a,row⟩ : Sigma fun _ => AddressingRow) ∈ library.addressings.entries := (entries_get _).mpr found
  have owners : ∀ entry ∈ library.addressings.entries,(get library.subjects entry.2.subjectId).isSome := by decide
  exact owners _ listed

theorem upgraded_migrated :
    Moved upgraded.steward.store played.steward.store (performed quiet ["track","album"] songsToTracks upgraded) ∧
    (Whole upgraded played (performed quiet ["track","album"] songsToTracks upgraded) ↔
      songsToTracks.dryRun = true ∨ candidates upgraded.steward.store songsToTracks = []) :=
  whole_exactly quiet ["track","album"] songsToTracks library_references (cameUp_agrees library _ _) played_ok

-- The relation and the state stay with the retired id, and the memory does not know the new one.
theorem upgraded_torn :
    (∃ outcome,migrateGrammarOrphans quiet ["track","album"] songsToTracks upgraded = (played,.ok outcome)) ∧
    performed quiet ["track","album"] songsToTracks upgraded = [⟨"1","new0","song","track","m",none⟩] ∧
    get upgraded.steward.store.relations onAlbum = some ⟨none,none,none⟩ ∧
    get played.steward.store.relations (renamedKey [⟨"1","new0","song","track","m",none⟩] onAlbum) = none ∧
    get upgraded.subjectStates "1" = some "playing" ∧ get played.subjectStates "new0" = none ∧
    Agrees upgraded ∧ ¬Agrees played ∧
    ¬Whole upgraded played (performed quiet ["track","album"] songsToTracks upgraded) := by
  have ran : performed quiet ["track","album"] songsToTracks upgraded = [⟨"1","new0","song","track","m",none⟩] := by decide
  have left : get played.steward.store.relations (renamedKey [⟨"1","new0","song","track","m",none⟩] onAlbum) = none := by decide
  have agreed : Agrees upgraded := cameUp_agrees library _ _
  refine ⟨⟨_,played_ok⟩,ran,by decide,left,by decide,by decide,agreed,?_,?_⟩
  · intro agrees
    have store_ : get played.steward.store.subjects "new0" = some ⟨"track",false⟩ := by decide
    exact memory_behind agreed agrees rfl (by decide) store_
  · intro whole
    rw [ran] at whole
    have kept := (whole.relations onAlbum ⟨none,none,none⟩ (by decide)).1
    rw [left] at kept
    cases kept

end

end EvoCore.GrammarMigration
