import EvoCore.SubjectIndex
import EvoCore.StewardWiring

namespace EvoCore.SubjectRestart
open Tables Runs SubjectRegistry SubjectAliases SubjectIndex StewardStore StewardWiring

variable {uuid : Nat → String} {s : RegistryInner} {store : Store} {id : String}

-- What a restart is meant to bring back: for a subject its id, type and the set of its claimed
-- addressings, for a retired id where it leads and why.
def SameRecord (a b : SubjectRecord) : Prop :=
  a.id = b.id ∧ a.subjectType = b.subjectType ∧ ∀ entry,entry ∈ a.addressings ↔ entry ∈ b.addressings

def trail (record : AliasRecord) : String × List String × AliasKind := (record.oldId,record.newIds,record.kind)

structure SameSubjects (a b : RegistryInner) : Prop where
  subjects : ∀ id,Option.Rel SameRecord (get a.subjects id) (get b.subjects id)
  aliases : ∀ id,(get a.aliases id).map trail = (get b.aliases id).map trail

def Restores (st : Steward) : Prop := ∀ drawn,SameSubjects (rehydrateRegistry st.store drawn) st.registry.inner

theorem subjects_load : Loads describe loadSubject PersistedSubject.id fun ps =>
    if ps.forgotten then none else some ⟨ps.id,ps.subjectType,ps.addressings⟩ := by
  intro s ps id
  unfold describe loadSubject
  cases gone : ps.forgotten <;> simp [gone]

def persistedAddressings (store : Store) (id : String) : List AddressingRecord :=
  store.addressings.entries.filterMap fun entry =>
    if entry.2.subjectId = id then some ⟨entry.1,entry.2.claimant⟩ else none

theorem mem_persisted (store : Store) (entry : AddressingRecord) :
    entry ∈ persistedAddressings store id ↔ get store.addressings entry.addressing = some ⟨id,entry.claimant⟩ := by
  unfold persistedAddressings
  rw [List.mem_filterMap,← entries_get]
  constructor
  · rintro ⟨⟨a,row⟩,member,made⟩
    split at made
    · rename_i mine
      cases made
      exact mine ▸ member
    · cases made
  · intro member
    exact ⟨_,member,by simp⟩

theorem loadAllSubjects_ids (store : Store) : (loadAllSubjects store).map PersistedSubject.id = store.subjects.keys := by
  simp [loadAllSubjects,AList.keys,List.keys,Function.comp_def]

theorem rehydrate_subjects (store : Store) (drawn : Nat) (id : String) :
    get (rehydrateRegistry store drawn).subjects id =
      (get store.subjects id).bind fun row =>
        if row.forgotten then none else some ⟨id,row.subjectType,persistedAddressings store id⟩ := by
  have empty : describe {RegistryInner.new with drawn := drawn} id = none := by simp [describe,RegistryInner.new]
  have loaded : get (rehydrateRegistry store drawn).subjects id =
      describe ((loadAllSubjects store).foldl loadSubject {RegistryInner.new with drawn := drawn}) id := rfl
  rw [loaded]
  cases there : get store.subjects id with
  | none =>
    rw [load_absent subjects_load ?_,empty]
    · rfl
    · rw [loadAllSubjects_ids,mem_keys]
      simp [there]
  | some row =>
    have member : (⟨id,row.subjectType,row.forgotten,persistedAddressings store id⟩ : PersistedSubject) ∈
        loadAllSubjects store := List.mem_map.mpr ⟨⟨id,row⟩,(entries_get _).mpr there,rfl⟩
    have apart : ((loadAllSubjects store).map PersistedSubject.id).Nodup := by
      rw [loadAllSubjects_ids]
      exact store.subjects.nodupKeys
    exact load_present subjects_load apart member empty

def persistedAlias (rows : List AliasRow) (id : String) : Option AliasRecord :=
  match rows.filter fun row => row.oldId = id with
  | [] => none
  | first::rest => some (aliasOf id first (first::rest))

theorem aliases_load (rows : List AliasRow) : Loads get (loadAlias rows) (fun old => old) (persistedAlias rows) := by
  intro aliases old id
  unfold loadAlias persistedAlias
  by_cases same : id = old
  · subst same
    cases found : rows.filter fun row => row.oldId = id <;> simp
  · split <;> simp [same]

theorem rehydrate_aliases (store : Store) (drawn : Nat) (id : String) :
    get (rehydrateRegistry store drawn).aliases id = persistedAlias store.aliases id := by
  simp only [rehydrateRegistry]
  by_cases known : id ∈ store.aliases.map AliasRow.oldId
  · exact load_present (aliases_load store.aliases) (by simpa using List.nodup_dedup _) (List.mem_dedup.mpr known) get_empty
  · have none_of : store.aliases.filter (fun row => row.oldId = id) = [] := by
      apply List.filter_eq_nil_iff.mpr
      intro row member
      simpa using fun same : row.oldId = id => known (same ▸ List.mem_map_of_mem member)
    rw [load_absent (aliases_load store.aliases) (by simpa using known)]
    simp [persistedAlias,none_of]

-- The rows of one retired id, in order, and what a record in memory should have written.
def written (rows : List AliasRow) (id : String) : List (String × AliasKind) :=
  (rows.filter fun row => row.oldId = id).map fun row => (row.newId,row.kind)

def due : Option AliasRecord → List (String × AliasKind)
  | none => []
  | some record => if record.kind = .tombstone then [("",.tombstone)] else record.newIds.map fun new => (new,record.kind)

theorem written_append (rows more : List AliasRow) : written (rows ++ more) id = written rows id ++ written more id := by
  simp [written]

-- The store as the image of the registry. A record may list an addressing twice, but only
-- under one claimant, since the store has one row for it.
structure Mirrors (s : RegistryInner) (store : Store) : Prop where
  named : ∀ id record,get s.subjects id = some record → record.id = id
  complete : Complete s
  subjects : ∀ id,get store.subjects id = (get s.subjects id).map fun record => ⟨record.subjectType,false⟩
  addressings : ∀ a id claimant,get store.addressings a = some ⟨id,claimant⟩ ↔
    ∃ record,get s.subjects id = some record ∧ ⟨a,claimant⟩ ∈ record.addressings
  aliases : ∀ id,written store.aliases id = due (get s.aliases id)

theorem new_mirrors : Mirrors .new .new := by
  refine ⟨?_,?_,?_,?_,?_⟩ <;> simp [RegistryInner.new,Store.new,Complete,written,due]

theorem persistedAlias_trail (sound : Sound uuid s) (mirrors : Mirrors s store) :
    (persistedAlias store.aliases id).map trail = (get s.aliases id).map trail := by
  have rows := mirrors.aliases id
  unfold written at rows
  unfold persistedAlias
  cases there : get s.aliases id with
  | none =>
    simp only [there,due,List.map_eq_nil_iff] at rows
    simp [rows]
  | some record =>
    obtain ⟨old,shape,-⟩ := sound.successors id record there
    simp only [there,due] at rows
    cases found : store.aliases.filter fun row => row.oldId = id with
    | nil =>
      rw [found] at rows
      split at rows
      · simp at rows
      · rename_i leads
        simp only [List.map_nil,List.nil_eq,List.map_eq_nil_iff] at rows
        exact absurd (shape.mp rows) leads
    | cons first rest =>
      simp only [Option.map_some,Option.some.injEq]
      rw [found] at rows
      split at rows
      · rename_i tomb
        simp only [List.map_cons,List.cons.injEq,Prod.mk.injEq,List.map_eq_nil_iff] at rows
        simp [trail,aliasOf,rows.1.2,old,tomb,shape.mpr tomb]
      · rename_i leads
        have ids := congrArg (List.map Prod.fst) rows
        have kinds := congrArg (List.map Prod.snd) rows
        simp only [List.map_map,Function.comp_def,List.map_id'] at ids kinds
        have kind : first.kind = record.kind := by
          have member : first.kind ∈ (first::rest).map AliasRow.kind := by simp
          change _ = record.newIds.map _ at kinds
          rw [show (first::rest).map AliasRow.kind = record.newIds.map fun _ => record.kind from kinds] at member
          obtain ⟨-,-,same⟩ := List.mem_map.mp member
          exact same.symm
        have news : (first::rest).map AliasRow.newId = record.newIds := ids
        simp only [trail,aliasOf,kind,leads,if_false,news,old]

theorem mirrors_restores (sound : Sound uuid s) (mirrors : Mirrors s store) (drawn : Nat) :
    SameSubjects (rehydrateRegistry store drawn) s := by
  refine ⟨fun id => ?_,fun id => ?_⟩
  · rw [rehydrate_subjects,mirrors.subjects]
    cases there : get s.subjects id with
    | none => exact .none
    | some record =>
      refine .some ⟨(mirrors.named id record there).symm,rfl,fun entry => ?_⟩
      rw [mem_persisted,mirrors.addressings]
      constructor
      · rintro ⟨other,here,member⟩
        cases Option.some.inj (there.symm.trans here)
        exact member
      · exact fun member => ⟨record,there,member⟩
  · rw [rehydrate_aliases,persistedAlias_trail sound mirrors]

theorem Mirrors.congr {t : RegistryInner} (mirrors : Mirrors s store) (subjects : ∀ id,get t.subjects id = get s.subjects id)
    (addressings : ∀ a,get t.addressings a = get s.addressings a) (aliases : ∀ id,get t.aliases id = get s.aliases id) :
    Mirrors t store := by
  refine ⟨?_,?_,?_,?_,?_⟩
  · simpa only [subjects] using mirrors.named
  · simpa only [Complete,subjects,addressings] using mirrors.complete
  · simpa only [subjects] using mirrors.subjects
  · simpa only [subjects] using mirrors.addressings
  · simpa only [aliases] using mirrors.aliases

theorem Mirrors.claimant (mirrors : Mirrors s store) (there : get s.subjects id = some record)
    (first : ⟨a,c⟩ ∈ record.addressings) (second : ⟨a,d⟩ ∈ record.addressings) : c = d := by
  have rowC := (mirrors.addressings a id c).mpr ⟨record,there,first⟩
  have rowD := (mirrors.addressings a id d).mpr ⟨record,there,second⟩
  cases Option.some.inj (rowC.symm.trans rowD)
  rfl

theorem created_mirrors (announcement : SubjectAnnouncement) (claimant : String) (fresh : Function.Injective uuid)
    (sound : Sound uuid s) (mirrors : Mirrors s store) (unknown : distinctIds s announcement.addressings = []) :
    Mirrors (created uuid s announcement claimant)
      (recordSubjectAnnounce store (uuid s.drawn) announcement.subjectType announcement.addressings claimant) := by
  have dead := fresh_dead fresh sound (i := 0)
  simp only [describe,Nat.add_zero] at dead
  have unstored : get store.subjects (uuid s.drawn) = none := by simp [mirrors.subjects,dead]
  have new : get (created uuid s announcement claimant).subjects (uuid s.drawn) =
      some ⟨uuid s.drawn,announcement.subjectType,announced announcement.addressings claimant⟩ := by simp [created]
  refine ⟨?_,created_complete mirrors.complete unknown,?_,?_,mirrors.aliases⟩
  · intro id record there
    rcases created_records there with ⟨rfl,rfl⟩ | ⟨-,old⟩
    · rfl
    · exact mirrors.named id record old
  · intro id
    by_cases same : id = uuid s.drawn
    · simp [recordSubjectAnnounce,created,unstored,same]
    · simp [recordSubjectAnnounce,created,same,mirrors.subjects]
  · intro a id c
    simp only [recordSubjectAnnounce,get_insertAll]
    constructor
    · intro stored
      split at stored
      · rename_i named
        cases stored
        exact ⟨_,new,by simpa [announced] using named⟩
      · obtain ⟨record,there,member⟩ := (mirrors.addressings a id c).mp stored
        have other : id ≠ uuid s.drawn := by
          rintro rfl
          simp [dead] at there
        exact ⟨record,by simpa [created,other] using there,member⟩
    · rintro ⟨record,there,member⟩
      rcases created_records there with ⟨rfl,rfl⟩ | ⟨-,old⟩
      · simp only [announced,List.mem_map] at member
        obtain ⟨b,named,same⟩ := member
        cases same
        exact if_pos named
      · have indexed := mirrors.complete id record a old (List.mem_map.mpr ⟨_,member,rfl⟩)
        have outside : a ∉ announcement.addressings := fun named => by
          simp [distinctIds_none unknown named] at indexed
        rw [if_neg outside]
        exact (mirrors.addressings a id c).mpr ⟨record,old,member⟩

-- The store writes a row for every addressing of the announcement, the registry only for the
-- added ones: they agree when the rest has the announcing plugin as its claimant already.
theorem extended_mirrors {all added : List ExternalAddressing} (subjectType : String) (mirrors : Mirrors s store)
    (there : get s.subjects target = some record) (new : ∀ a,a ∈ added → get s.addressings a = none)
    (among : ∀ a,a ∈ added → a ∈ all) (rest : ∀ a,a ∈ all → a ∉ added → ⟨a,claimant⟩ ∈ record.addressings) :
    Mirrors (extended s target added claimant) (recordSubjectAnnounce store target subjectType all claimant) := by
  have grown := extended_there added claimant there
  have stored : get store.subjects target = some ⟨record.subjectType,false⟩ := by simp [mirrors.subjects,there]
  refine ⟨?_,extended_complete mirrors.complete there new,?_,?_,mirrors.aliases⟩
  · intro id other here
    rcases extended_records there here with ⟨rfl,rfl⟩ | ⟨-,old⟩
    · exact mirrors.named id record there
    · exact mirrors.named id other old
  · intro id
    by_cases same : id = target
    · simp [recordSubjectAnnounce,stored,grown,same]
    · simp [recordSubjectAnnounce,extended,same,mirrors.subjects]
  · intro a id c
    simp only [recordSubjectAnnounce,get_insertAll]
    constructor
    · intro row
      split at row
      · rename_i named
        cases row
        refine ⟨_,grown,List.mem_append.mpr ?_⟩
        by_cases fresh_one : a ∈ added
        · exact .inr (by simpa [announced] using fresh_one)
        · exact .inl (rest a named fresh_one)
      · obtain ⟨old,here,member⟩ := (mirrors.addressings a id c).mp row
        by_cases same : id = target
        · subst same
          cases Option.some.inj (there.symm.trans here)
          exact ⟨_,grown,List.mem_append.mpr (.inl member)⟩
        · exact ⟨old,by simpa [extended,same] using here,member⟩
    · rintro ⟨other,here,member⟩
      have listed : a ∈ other.listed := List.mem_map.mpr ⟨_,member,rfl⟩
      rcases extended_records there here with ⟨rfl,rfl⟩ | ⟨apart,old⟩
      · rcases List.mem_append.mp member with was | is
        · by_cases named : a ∈ all
          · have unadded : a ∉ added := fun inside => by
              have indexed := mirrors.complete id record a there (List.mem_map.mpr ⟨_,was,rfl⟩)
              simp [new a inside] at indexed
            rw [if_pos named,mirrors.claimant there was (rest a named unadded)]
          · rw [if_neg named]
            exact (mirrors.addressings a id c).mpr ⟨record,there,was⟩
        · simp only [announced,List.mem_map] at is
          obtain ⟨b,inside,same⟩ := is
          cases same
          exact if_pos (among a inside)
      · have indexed := mirrors.complete id other a old listed
        have outside : a ∉ all := fun named => by
          by_cases inside : a ∈ added
          · simp [new a inside] at indexed
          · have mine := mirrors.complete target record a there (List.mem_map.mpr ⟨_,rest a named inside,rfl⟩)
            exact apart (Option.some.inj (indexed.symm.trans mine))
        rw [if_neg outside]
        exact (mirrors.addressings a id c).mpr ⟨other,old,member⟩

theorem entry_erase (found : claimIdx record addressing claimant = some idx) (other : entry.addressing ≠ addressing) :
    entry ∈ record.addressings.eraseIdx idx ↔ entry ∈ record.addressings := by
  refine ⟨List.mem_of_mem_eraseIdx,fun member => ?_⟩
  obtain ⟨taken,there,named,-⟩ := claimIdx_parts found
  rw [List.mem_eraseIdx_iff_getElem?]
  obtain ⟨i,here⟩ := List.mem_iff_getElem?.mp member
  refine ⟨i,?_,here⟩
  rintro rfl
  cases Option.some.inj (there.symm.trans here)
  exact other named

theorem released_mirrors (mirrors : Mirrors s store) (there : get s.subjects id = some record)
    (found : claimIdx record addressing claimant = some idx)
    (gone : addressing ∉ SubjectRecord.listed {record with addressings := record.addressings.eraseIdx idx}) :
    Mirrors (released s id record idx addressing) (recordSubjectRetract store id addressing) := by
  have left : get (released s id record idx addressing).subjects id =
      some {record with addressings := record.addressings.eraseIdx idx} := by simp [released]
  refine ⟨?_,released_complete mirrors.complete there found gone,?_,?_,mirrors.aliases⟩
  · intro owner other here
    rcases released_records here with ⟨rfl,rfl⟩ | ⟨-,old⟩
    · exact mirrors.named owner record there
    · exact mirrors.named owner other old
  · intro owner
    by_cases same : owner = id
    · simp [recordSubjectRetract,released,same,mirrors.subjects,there]
    · simp [recordSubjectRetract,released,same,mirrors.subjects]
  · intro a owner c
    simp only [recordSubjectRetract,get_retain,Option.filter_eq_some_iff,mirrors.addressings,decide_eq_true_eq]
    by_cases same : owner = id
    · subst same
      constructor
      · rintro ⟨⟨other,here,member⟩,outside⟩
        cases Option.some.inj (there.symm.trans here)
        have apart : a ≠ addressing := fun named => outside ⟨named,rfl⟩
        exact ⟨_,left,(entry_erase found apart).mpr member⟩
      · rintro ⟨other,here,member⟩
        rcases released_records here with ⟨-,rfl⟩ | ⟨other_id,-⟩
        · have apart : a ≠ addressing := by
            rintro rfl
            exact gone (List.mem_map.mpr ⟨_,member,rfl⟩)
          exact ⟨⟨record,there,(entry_erase found apart).mp member⟩,fun both => apart both.1⟩
        · exact absurd rfl other_id
    · constructor
      · rintro ⟨⟨other,here,member⟩,-⟩
        exact ⟨other,by simpa [released,same] using here,member⟩
      · rintro ⟨other,here,member⟩
        rcases released_records here with ⟨equal,-⟩ | ⟨-,old⟩
        · exact absurd equal same
        · exact ⟨⟨other,old,member⟩,fun both => same both.2⟩

theorem written_grow (mirrors : Mirrors s store) (turn : Turnover uuid s t gone n) (sound : Sound uuid s)
    (outside : id ∉ gone → written more id = []) (inside : id ∈ gone → written more id = due (get t.aliases id)) :
    written (store.aliases ++ more) id = due (get t.aliases id) := by
  rw [written_append,mirrors.aliases]
  by_cases leaves : id ∈ gone
  · rw [live_unaliased sound (turn.were id leaves),inside leaves]
    rfl
  · rw [outside leaves,turn.kept id leaves,List.append_nil]

theorem deleteSubject_rows (store : Store) (id a owner claimant) :
    get (deleteSubject store id).addressings a = some ⟨owner,claimant⟩ ↔
      get store.addressings a = some ⟨owner,claimant⟩ ∧ owner ≠ id := by
  simp [deleteSubject,Option.filter_eq_some_iff]

theorem forgets_mirrors (actor claimant : String) (reason reason' : Option String) (fresh : Function.Injective uuid)
    (sound : Sound uuid s) (mirrors : Mirrors s store) (there : get s.subjects id = some record)
    (found : claimIdx record addressing plugin = some idx) (empty : record.addressings.eraseIdx idx = []) :
    Mirrors (forgotten (released s id record idx addressing) id actor reason)
      (recordSubjectForget store id claimant reason') := by
  have turn := (forgets_keeps actor reason fresh sound there found empty).1
  have kept : ∀ owner,owner ≠ id → get (forgotten (released s id record idx addressing) id actor reason).subjects owner =
      get s.subjects owner := by
    intro owner apart
    rw [(forgotten_frame _ _ _ _).1]
    simp [released,apart]
  refine ⟨?_,forgets_complete mirrors.complete there found,?_,?_,?_⟩
  · intro owner other here
    exact mirrors.named owner other (forgets_records here).2
  · intro owner
    by_cases same : owner = id
    · simp [recordSubjectForget,deleteSubject,(forgotten_frame _ _ _ _).1,same]
    · simp [recordSubjectForget,deleteSubject,same,mirrors.subjects,kept]
  · intro a owner c
    simp only [recordSubjectForget,deleteSubject_rows,mirrors.addressings]
    constructor
    · rintro ⟨⟨other,here,member⟩,apart⟩
      exact ⟨other,(kept owner apart).trans here,member⟩
    · rintro ⟨other,here,member⟩
      obtain ⟨apart,old⟩ := forgets_records here
      exact ⟨⟨other,old,member⟩,apart⟩
  · intro old
    apply written_grow mirrors turn sound
    · intro other
      simp [written,Ne.symm (List.mem_singleton.not.mp other)]
    · intro leaves
      cases List.mem_singleton.mp leaves
      obtain ⟨tomb,here,-,shape,targets⟩ := turn.recorded id leaves
      have nowhere : tomb.newIds = [] := List.eq_nil_iff_forall_not_mem.mpr fun new listed => by
        obtain ⟨i,below,-⟩ := targets new listed
        omega
      simp [written,here,due,shape.mp nowhere]

theorem mergedInto_mirrors (admin : String) (reason : Option String) (fresh : Function.Injective uuid)
    (sound : Sound uuid s) (mirrors : Mirrors s store) (atA : get s.subjects sourceA = some recordA)
    (atB : get s.subjects sourceB = some recordB) (apart : sourceA ≠ sourceB) :
    Mirrors (mergedInto uuid s sourceA sourceB recordA recordB admin reason)
      (recordSubjectMerge store sourceA sourceB (uuid s.drawn) recordA.subjectType admin reason) := by
  have turn := (mergedInto_keeps admin reason fresh sound atA atB).1
  have freshA : sourceA ≠ uuid s.drawn := known_range sound (.inl (by simp [Live,describe,atA])) fresh (i := 0)
  have freshB : sourceB ≠ uuid s.drawn := known_range sound (.inl (by simp [Live,describe,atB])) fresh (i := 0)
  have dead := fresh_dead fresh sound (i := 0)
  simp only [describe,Nat.add_zero] at dead
  have new : get (mergedInto uuid s sourceA sourceB recordA recordB admin reason).subjects (uuid s.drawn) =
      some ⟨uuid s.drawn,recordA.subjectType,recordA.addressings ++ recordB.addressings⟩ := by simp [mergedInto,merged]
  have kept : ∀ id,id ≠ sourceA → id ≠ sourceB → id ≠ uuid s.drawn →
      get (mergedInto uuid s sourceA sourceB recordA recordB admin reason).subjects id = get s.subjects id := by
    intro id notA notB notNew
    simp [mergedInto,merged,notA,notB,notNew]
  refine ⟨?_,mergedInto_complete mirrors.complete atA atB,?_,?_,?_⟩
  · intro id record here
    rcases mergedInto_records here with ⟨rfl,rfl⟩ | ⟨-,-,-,old⟩
    · rfl
    · exact mirrors.named id record old
  · intro id
    by_cases same : id = uuid s.drawn
    · subst same
      simp [recordSubjectMerge,deleteSubject,new,freshA.symm,freshB.symm]
    · by_cases isA : id = sourceA
      · simp [recordSubjectMerge,deleteSubject,mergedInto,merged,isA,freshA,apart]
      · by_cases isB : id = sourceB
        · simp [recordSubjectMerge,deleteSubject,mergedInto,merged,isB,freshB]
        · simp [recordSubjectMerge,deleteSubject,kept id isA isB same,isA,isB,same,mirrors.subjects]
  · intro a id c
    have stored : get (recordSubjectMerge store sourceA sourceB (uuid s.drawn) recordA.subjectType admin reason).addressings a =
        some ⟨id,c⟩ ↔ ((∃ record,get s.subjects id = some record ∧ ⟨a,c⟩ ∈ record.addressings) ∧
          id ≠ sourceA ∧ id ≠ sourceB) ∨ id = uuid s.drawn ∧ (⟨a,c⟩ ∈ recordA.addressings ∨ ⟨a,c⟩ ∈ recordB.addressings) := by
      have rowA := mirrors.addressings a sourceA c
      have rowB := mirrors.addressings a sourceB c
      simp only [atA,atB,Option.some.injEq,exists_eq_left'] at rowA rowB
      rw [← mirrors.addressings,← rowA,← rowB]
      simp only [recordSubjectMerge,deleteSubject_rows,get_mapValues,Option.map_eq_some_iff]
      constructor
      · rintro ⟨⟨⟨row,found,moved⟩,notA⟩,notB⟩
        split at moved
        · rename_i source
          cases moved
          obtain ⟨owner,claimant⟩ := row
          rcases source with rfl | rfl
          · exact .inr ⟨rfl,.inl found⟩
          · exact .inr ⟨rfl,.inr found⟩
        · cases moved
          exact .inl ⟨found,notA,notB⟩
      · rintro (⟨found,notA,notB⟩ | ⟨rfl,found | found⟩)
        · exact ⟨⟨⟨_,found,by simp [notA,notB]⟩,notA⟩,notB⟩
        · exact ⟨⟨⟨_,found,by simp⟩,freshA.symm⟩,freshB.symm⟩
        · exact ⟨⟨⟨_,found,by simp⟩,freshA.symm⟩,freshB.symm⟩
    rw [stored]
    constructor
    · rintro (⟨⟨record,there,member⟩,notA,notB⟩ | ⟨rfl,member⟩)
      · have notNew : id ≠ uuid s.drawn := by
          rintro rfl
          simp [dead] at there
        exact ⟨record,(kept id notA notB notNew).trans there,member⟩
      · exact ⟨_,new,List.mem_append.mpr member⟩
    · rintro ⟨record,here,member⟩
      rcases mergedInto_records here with ⟨rfl,rfl⟩ | ⟨notA,notB,-,old⟩
      · exact .inr ⟨rfl,List.mem_append.mp member⟩
      · exact .inl ⟨⟨record,old,member⟩,notA,notB⟩
  · intro id
    apply written_grow mirrors turn sound
    · intro other
      simp only [List.mem_cons,List.not_mem_nil,or_false,not_or] at other
      simp [written,Ne.symm other.1,Ne.symm other.2]
    · intro leaves
      simp only [List.mem_cons,List.not_mem_nil,or_false] at leaves
      rcases leaves with rfl | rfl
      · simp [written,mergedInto,due,apart,apart.symm]
      · simp [written,mergedInto,due,apart]

section
variable {rows : Table ExternalAddressing AddressingRow} {pairs : List (List ExternalAddressing × String)}

theorem moveGroup_get (group : List ExternalAddressing) (newId : String) (rows : Table ExternalAddressing AddressingRow)
    (a : ExternalAddressing) : get (group.foldl (moveAddressing newId) rows) a =
      if a ∈ group then (get rows a).map fun row => {row with subjectId := newId} else get rows a := by
  induction group generalizing rows with
  | nil => simp
  | cons first rest ih =>
    rw [List.foldl_cons,ih]
    by_cases same : a = first
    · subst same
      by_cases later : a ∈ rest <;> simp [moveAddressing,later,Function.comp_def]
    · by_cases later : a ∈ rest <;> simp [moveAddressing,same,later]

theorem moveGroups_outside (outside : a ∉ (pairs.map Prod.fst).flatten) :
    get (pairs.foldl (fun rows pair => pair.1.foldl (moveAddressing pair.2) rows) rows) a = get rows a := by
  induction pairs generalizing rows with
  | nil => rfl
  | cons pair rest ih =>
    simp only [List.map_cons,List.flatten_cons,List.mem_append,not_or] at outside
    rw [List.foldl_cons,ih outside.2,moveGroup_get,if_neg outside.1]

theorem moveGroups_inside (apart : (pairs.map Prod.fst).flatten.Nodup) (member : (group,newId) ∈ pairs)
    (inside : a ∈ group) : get (pairs.foldl (fun rows pair => pair.1.foldl (moveAddressing pair.2) rows) rows) a =
      (get rows a).map fun row => {row with subjectId := newId} := by
  induction pairs generalizing rows with
  | nil => cases member
  | cons pair rest ih =>
    simp only [List.map_cons,List.flatten_cons,List.nodup_append] at apart
    rw [List.foldl_cons]
    rcases List.mem_cons.mp member with rfl | later
    · rw [moveGroups_outside fun again => apart.2.2 a inside a again rfl,moveGroup_get,if_pos inside]
    · rw [ih apart.2.1 later,moveGroup_get,if_neg]
      have again : a ∈ (rest.map Prod.fst).flatten := List.mem_flatten.mpr ⟨group,List.mem_map.mpr ⟨_,later,rfl⟩,inside⟩
      exact fun first => apart.2.2 a first a again rfl

end

theorem groupRecords_entries {group : List ExternalAddressing} (mirrors : Mirrors s store)
    (there : get s.subjects sourceId = some source) (found : group.mapM (originalRecord source) = some records)
    (entry : AddressingRecord) : entry ∈ records ↔ entry.addressing ∈ group ∧ entry ∈ source.addressings := by
  obtain ⟨names,members⟩ := groupRecords_parts found
  constructor
  · intro member
    exact ⟨names ▸ List.mem_map_of_mem member,members entry member⟩
  · rintro ⟨inside,member⟩
    rw [← names] at inside
    obtain ⟨other,taken,named⟩ := List.mem_map.mp inside
    obtain ⟨a,c⟩ := entry
    obtain ⟨b,d⟩ := other
    cases named
    cases mirrors.claimant there member (members _ taken)
    exact taken

theorem splitInto_mirrors (admin : String) (reason : Option String) (fresh : Function.Injective uuid) (sound : Sound uuid s)
    (mirrors : Mirrors s store) (there : get s.subjects sourceId = some source) (divides : Divides source groups)
    (shape : Placed source {s with drawn := s.drawn+groups.length} placed (groups.zip (newIds uuid s groups.length))) :
    Mirrors (splitInto placed sourceId (newIds uuid s groups.length) admin reason)
      (recordSubjectSplit store sourceId (newIds uuid s groups.length) source.subjectType groups admin reason) := by
  have turn := (splitInto_keeps admin reason fresh sound there divides shape).1
  have firsts : (groups.zip (newIds uuid s groups.length)).map Prod.fst = groups :=
    List.map_fst_zip (by rw [newIds_length])
  have seconds : (groups.zip (newIds uuid s groups.length)).map Prod.snd = newIds uuid s groups.length :=
    List.map_snd_zip (by rw [newIds_length])
  have old : sourceId ∉ newIds uuid s groups.length := fun listed => by
    obtain ⟨i,-,same⟩ := mem_newIds.mp listed
    exact known_range sound (.inl (by simp [Live,describe,there])) fresh same
  have dead : ∀ id,id ∈ newIds uuid s groups.length → get s.subjects id = none := by
    intro id listed
    obtain ⟨i,-,rfl⟩ := mem_newIds.mp listed
    exact fresh_dead fresh sound
  have made : ∀ group id,(group,id) ∈ groups.zip (newIds uuid s groups.length) →
      ∃ records,group.mapM (originalRecord source) = some records ∧
        get (splitInto placed sourceId (newIds uuid s groups.length) admin reason).subjects id =
          some ⟨id,source.subjectType,records⟩ := by
    intro group id pair
    obtain ⟨records,found,here⟩ := shape.records group id pair
    have other : id ≠ sourceId := by
      rintro rfl
      exact old (seconds ▸ List.mem_map.mpr ⟨_,pair,rfl⟩)
    exact ⟨records,found,by simpa [splitInto,other] using here⟩
  have kept : ∀ id,id ≠ sourceId → id ∉ newIds uuid s groups.length →
      get (splitInto placed sourceId (newIds uuid s groups.length) admin reason).subjects id = get s.subjects id := by
    intro id other outside
    simpa [splitInto,other] using shape.others id (by rw [seconds]; exact outside)
  refine ⟨?_,splitInto_complete mirrors.complete there divides shape,?_,?_,?_⟩
  · intro id record here
    obtain ⟨-,⟨group,records,pair,found,rfl⟩ | ⟨-,before⟩⟩ := splitInto_records shape here
    · rfl
    · exact mirrors.named id record before
  · intro id
    simp only [recordSubjectSplit,deleteSubject,get_erase,get_insertAll]
    by_cases same : id = sourceId
    · subst same
      simp [splitInto]
    · rw [if_neg same]
      by_cases listed : id ∈ newIds uuid s groups.length
      · have paired := listed
        rw [← seconds] at paired
        obtain ⟨⟨group,_⟩,pair,rfl⟩ := List.mem_map.mp paired
        obtain ⟨records,-,here⟩ := made _ _ pair
        rw [if_pos listed,here]
        rfl
      · rw [if_neg listed,kept id same listed]
        exact mirrors.subjects id
  · intro a id c
    have source_row := mirrors.addressings a sourceId c
    simp only [there,Option.some.injEq,exists_eq_left'] at source_row
    simp only [recordSubjectSplit,deleteSubject_rows]
    by_cases moved : a ∈ groups.flatten
    · obtain ⟨group,member,inside⟩ := List.mem_flatten.mp moved
      have paired := member
      rw [← firsts] at paired
      obtain ⟨⟨_,newId⟩,pair,rfl⟩ := List.mem_map.mp paired
      have listed : newId ∈ newIds uuid s groups.length := seconds ▸ List.mem_map.mpr ⟨_,pair,rfl⟩
      obtain ⟨records,found,here⟩ := made _ _ pair
      rw [moveGroups_inside (firsts.symm ▸ divides.apart) pair inside]
      have entries := groupRecords_entries mirrors there found
      constructor
      · rintro ⟨row,-⟩
        obtain ⟨was,stored,same⟩ := Option.map_eq_some_iff.mp row
        cases same
        obtain ⟨entry,listed_entry,named⟩ := List.mem_map.mp ((divides.covers a).mp moved)
        obtain ⟨b,d⟩ := entry
        cases named
        have mine := (mirrors.addressings _ sourceId d).mpr ⟨source,there,listed_entry⟩
        cases Option.some.inj (mine.symm.trans stored)
        exact ⟨_,here,(entries _).mpr ⟨inside,listed_entry⟩⟩
      · rintro ⟨record,now,held⟩
        obtain ⟨other,⟨group',records',pair',found',rfl⟩ | ⟨-,before⟩⟩ := splitInto_records shape now
        · have entries' := groupRecords_entries mirrors there found'
          have claimed := (entries' _).mp held
          have index' := shape.moved _ _ pair' a claimed.1
          have index := shape.moved _ _ pair a inside
          cases Option.some.inj (index.symm.trans index')
          exact ⟨by simp [source_row.mpr claimed.2],other⟩
        · have index := mirrors.complete id record a before (List.mem_map.mpr ⟨_,held,rfl⟩)
          have mine := mirrors.complete sourceId source a there ((divides.covers a).mp moved)
          exact absurd (Option.some.inj (index.symm.trans mine)) other
    · rw [moveGroups_outside (by rw [firsts]; exact moved),mirrors.addressings]
      constructor
      · rintro ⟨⟨record,before,held⟩,other⟩
        have outside : id ∉ newIds uuid s groups.length := fun listed => by
          simp [dead id listed] at before
        exact ⟨record,(kept id other outside).trans before,held⟩
      · rintro ⟨record,now,held⟩
        obtain ⟨other,⟨group',records',pair',found',rfl⟩ | ⟨-,before⟩⟩ := splitInto_records shape now
        · have claimed := (groupRecords_entries mirrors there found' _).mp held
          exact absurd (List.mem_flatten.mpr ⟨_,(List.of_mem_zip pair').1,claimed.1⟩) moved
        · exact ⟨⟨record,before,held⟩,other⟩
  · intro id
    apply written_grow mirrors turn sound
    · intro other
      simp [written,Ne.symm (List.mem_singleton.not.mp other)]
    · intro leaves
      cases List.mem_singleton.mp leaves
      simp [written,splitInto,due,Function.comp_def,List.filter_map]

-- The subject half of the store, which no relation verb writes.
structure SameRows (a b : Store) : Prop where
  subjects : a.subjects = b.subjects
  addressings : a.addressings = b.addressings
  aliases : a.aliases = b.aliases

theorem SameRows.mirrors (same : SameRows a b) (mirrors : Mirrors s b) : Mirrors s a := by
  refine ⟨mirrors.named,mirrors.complete,?_,?_,?_⟩
  · simpa only [same.subjects] using mirrors.subjects
  · simpa only [same.addressings] using mirrors.addressings
  · simpa only [same.aliases] using mirrors.aliases

theorem forgetRelations_rows (keys : List RelationGraph.RelationKey) (store : Store) :
    SameRows (keys.foldl recordRelationForget store) store := by
  induction keys generalizing store with
  | nil => exact ⟨rfl,rfl,rfl⟩
  | cons key rest ih =>
    obtain ⟨subjects,addressings,aliases⟩ := ih (recordRelationForget store key)
    exact ⟨subjects,addressings,aliases⟩

def Kept (uuid : Nat → String) (st : Steward) : Prop := Held uuid st.registry ∧ Mirrors st.registry.inner st.store

theorem kept_frame {after : Steward} (kept : Kept uuid st) (registry : after.registry = st.registry)
    (rows : SameRows after.store st.store) : Kept uuid after :=
  ⟨registry ▸ kept.1,rows.mirrors (registry ▸ kept.2)⟩

theorem cascade_frame (st : Steward) (iteration : RelationGraph.Iteration) (id : String) :
    (cascade st iteration id).registry = st.registry ∧ SameRows (cascade st iteration id).store st.store := by
  unfold cascade
  split
  · exact ⟨rfl,forgetRelations_rows _ _⟩
  · exact ⟨rfl,rfl,rfl,rfl⟩

theorem recordRelationRetract_rows (store : Store) (key : RelationGraph.RelationKey) (claimant : String) (forgotten : Bool) :
    SameRows (recordRelationRetract store key claimant forgotten) store := by
  unfold recordRelationRetract
  split <;> exact ⟨rfl,rfl,rfl⟩

theorem assertRelation_frame (st : Steward) :
    (assertRelation catalogue st plugin source predicate target reason).registry = st.registry ∧
      SameRows (assertRelation catalogue st plugin source predicate target reason).store st.store := by
  unfold assertRelation
  split
  · exact ⟨rfl,rfl,rfl,rfl⟩
  · split
    · split
      · split
        · exact ⟨rfl,rfl,rfl,rfl⟩
        · split
          · exact ⟨rfl,rfl,rfl,rfl⟩
          · split
            · exact ⟨rfl,rfl,rfl,rfl⟩
            · split <;> exact ⟨rfl,rfl,rfl,rfl⟩
            · exact ⟨rfl,rfl,rfl,rfl⟩
      · exact ⟨rfl,rfl,rfl,rfl⟩
    · exact ⟨rfl,rfl,rfl,rfl⟩

theorem retractRelation_frame (st : Steward) :
    (retractRelation catalogue st plugin source predicate target).registry = st.registry ∧
      SameRows (retractRelation catalogue st plugin source predicate target).store st.store := by
  unfold retractRelation
  split
  · exact ⟨rfl,rfl,rfl,rfl⟩
  · split
    · split
      · exact ⟨rfl,recordRelationRetract_rows st.store _ _ _⟩
      · exact ⟨rfl,rfl,rfl,rfl⟩
    · exact ⟨rfl,rfl,rfl,rfl⟩

theorem forcedRetractClaim_frame (st : Steward) :
    (forcedRetractClaim st admin target admitted source predicate addressing).registry = st.registry ∧
      SameRows (forcedRetractClaim st admin target admitted source predicate addressing).store st.store := by
  unfold forcedRetractClaim
  split
  · exact ⟨rfl,rfl,rfl,rfl⟩
  · split
    · exact ⟨rfl,rfl,rfl,rfl⟩
    · split
      · split
        · exact ⟨rfl,recordRelationRetract_rows st.store _ target false⟩
        · exact ⟨rfl,recordRelationRetract_rows st.store _ target true⟩
        · exact ⟨rfl,rfl,rfl,rfl⟩
      · exact ⟨rfl,rfl,rfl,rfl⟩

theorem suppress_frame (st : Steward) :
    (suppress st admin source predicate target reason now).registry = st.registry ∧
      SameRows (suppress st admin source predicate target reason now).store st.store := by
  unfold suppress
  split
  · split <;> exact ⟨rfl,rfl,rfl,rfl⟩
  · exact ⟨rfl,rfl,rfl,rfl⟩

theorem unsuppress_frame (st : Steward) :
    (unsuppress st source predicate target).registry = st.registry ∧
      SameRows (unsuppress st source predicate target).store st.store := by
  unfold unsuppress
  split
  · split <;> exact ⟨rfl,rfl,rfl,rfl⟩
  · exact ⟨rfl,rfl,rfl,rfl⟩

-- A removed claim is the only entry of its record for the addressing.
def Single (s : RegistryInner) (addressing : ExternalAddressing) (plugin : String) : Prop :=
  ∀ id record,resolve s addressing = some id → describe s id = some record →
    ⟨addressing,plugin⟩ ∈ record.addressings → record.listed.count addressing ≤ 1

-- What an accepted announcement names again was claimed by the same plugin.
def Undisputed (s : RegistryInner) (plugin : String) (addressings : List ExternalAddressing) : Prop :=
  ∀ a id record claimant,a ∈ addressings → resolve s a = some id → describe s id = some record →
    ⟨a,claimant⟩ ∈ record.addressings → claimant = plugin

def Accepted (catalogue : Catalogue) (s : RegistryInner) (announcement : SubjectAnnouncement) : Prop :=
  oversized announcement.state = false ∧ catalogue.findSubjectType announcement.subjectType ≠ none ∧
    announcement.subjectType ≠ "" ∧ announcement.addressings ≠ [] ∧ (distinctIds s announcement.addressings).length ≤ 1

def Mirrorable (catalogue : Catalogue) (st : Steward) : Request → Prop
  | .announce plugin announcement => Accepted catalogue st.registry.inner announcement →
      Undisputed st.registry.inner plugin announcement.addressings
  | .retract _ plugin addressing _ => Single st.registry.inner addressing plugin
  | .forcedRetractAddressing _ admin target admitted addressing _ =>
    admitted = true → target ≠ admin → Single st.registry.inner addressing target
  | _ => True

theorem claimed_entry (found : claimIdx record addressing plugin = some idx) : ⟨addressing,plugin⟩ ∈ record.addressings := by
  obtain ⟨⟨a,c⟩,there,rfl,rfl⟩ := claimIdx_parts found
  exact List.mem_of_getElem? there

theorem claimed_left (found : claimIdx record addressing plugin = some idx) :
    addressing ∈ SubjectRecord.listed {record with addressings := record.addressings.eraseIdx idx} ↔
      1 < record.listed.count addressing := by
  obtain ⟨taken,there,named,-⟩ := claimIdx_parts found
  obtain ⟨below,value⟩ := List.getElem?_eq_some_iff.mp there
  have erased : SubjectRecord.listed {record with addressings := record.addressings.eraseIdx idx} =
      record.listed.eraseIdx idx := by simp [SubjectRecord.listed,List.eraseIdx_map]
  have inside : idx < record.listed.length := by simpa [SubjectRecord.listed] using below
  have first : record.listed[idx] = addressing := by simp [SubjectRecord.listed,value,named]
  have counts := (List.getElem_cons_eraseIdx_perm inside).count_eq addressing
  rw [first,List.count_cons_self] at counts
  rw [erased,← List.count_pos_iff]
  omega

theorem Single.gone (single : Single s addressing plugin) (removal : Removal s addressing plugin id record idx) :
    addressing ∉ SubjectRecord.listed {record with addressings := record.addressings.eraseIdx idx} := by
  have once := single id record removal.indexed removal.there (claimed_entry removal.found)
  intro left
  have := (claimed_left removal.found).mp left
  omega

theorem locked_open (held : Held uuid r) (body : RegistryInner → Reply α × RegistryInner) :
    locked r body = ((body r.inner).1,⟨(body r.inner).2,(body r.inner).1.panics⟩) := by
  simp [locked,held.1]

theorem Mirrors.captureState (mirrors : Mirrors s store) (outcome : AnnounceOutcome) (state : Option String) :
    Mirrors (captureState s outcome state) store := by
  have frame := captureState_frame s outcome state
  exact mirrors.congr (fun _ => by rw [frame.2.1]) (fun _ => by rw [frame.2.2.2]) (fun _ => by rw [frame.2.2.1])

theorem distinctIds_only (only : distinctIds s addressings = [target]) (member : a ∈ addressings)
    (resolved : get s.addressings a = some id) : id = target := by
  have there : id ∈ distinctIds s addressings := by
    simp only [distinctIds,List.mem_dedup,List.mem_filterMap]
    exact ⟨a,member,resolved⟩
  simpa [only] using there

theorem Undisputed.claims (undisputed : Undisputed s plugin addressings) (sound : Sound uuid s)
    (only : distinctIds s addressings = [target]) (there : get s.subjects target = some record) (member : a ∈ addressings)
    (known : a ∉ unresolved s addressings) : ⟨a,plugin⟩ ∈ record.addressings := by
  have resolved : get s.addressings a ≠ none := fun unknown => known (mem_unresolved.mpr ⟨member,unknown⟩)
  obtain ⟨id,indexed⟩ := Option.ne_none_iff_exists'.mp resolved
  cases distinctIds_only only member indexed
  obtain ⟨other,here,listed⟩ := sound.index a target indexed
  cases Option.some.inj (there.symm.trans here)
  obtain ⟨⟨b,claimant⟩,entry,rfl⟩ := List.mem_map.mp listed
  cases undisputed b target record claimant member indexed there entry
  exact entry

theorem announce_kept (fresh : Function.Injective uuid) (kept : Kept uuid st)
    (met : Mirrorable catalogue st (.announce plugin announcement)) :
    Kept uuid (StewardWiring.announce uuid catalogue st plugin announcement) := by
  have held := (step_held fresh kept.1 (.announce announcement plugin)).1
  rw [SubjectRegistry.step,locked_open kept.1] at held
  unfold StewardWiring.announce
  split
  · exact kept
  · rename_i small
    split
    · exact kept
    · rename_i typed
      rw [locked_open kept.1]
      rcases announce_cases uuid st.registry.inner announcement plugin with ⟨error,same,-⟩ |
        ⟨⟨named,some_addressing⟩,claims,shape⟩
      · rw [same] at held ⊢
        exact ⟨held,kept.2⟩
      · have undisputed : (distinctIds st.registry.inner announcement.addressings).length ≤ 1 →
            Undisputed st.registry.inner plugin announcement.addressings := fun few =>
          met ⟨by simpa using small,typed,named,some_addressing,few⟩
        rcases shape with ⟨ids,result⟩ | ⟨target,ids,none_new,result⟩ | ⟨target,ids,-,result⟩ | ⟨_,rfl,several,result⟩
        · rw [result] at held ⊢
          refine ⟨held,Mirrors.captureState ?_ _ _⟩
          exact (created_mirrors announcement plugin fresh kept.1.2 kept.2 ids).congr (fun _ => rfl) (fun _ => rfl) fun _ => rfl
        · obtain ⟨record,there⟩ := Option.isSome_iff_exists.mp
            (distinctIds_live announcement.addressings kept.1.2 (by simp [ids] : target ∈ _))
          have grown : Mirrors (extended st.registry.inner target [] plugin)
              (recordSubjectAnnounce st.store target announcement.subjectType announcement.addressings plugin) :=
            extended_mirrors announcement.subjectType kept.2 there (by simp) (by simp) fun a member _ =>
              (undisputed (by simp [ids])).claims kept.1.2 ids there member (by simp [none_new])
          rw [result] at held ⊢
          refine ⟨held,grown.congr (fun id => ?_) (fun _ => rfl) fun _ => rfl⟩
          by_cases same : id = target
          · simp [extended,same,announced]
          · simp [extended,same]
        · obtain ⟨record,there⟩ := Option.isSome_iff_exists.mp
            (distinctIds_live announcement.addressings kept.1.2 (by simp [ids] : target ∈ _))
          have grown := extended_mirrors announcement.subjectType kept.2 there (fun a added => (mem_unresolved.mp added).2)
            (fun a added => (mem_unresolved.mp added).1) fun a member known =>
              (undisputed (by simp [ids])).claims kept.1.2 ids there member known
          rw [result] at held ⊢
          refine ⟨held,Mirrors.captureState ?_ _ _⟩
          exact grown.congr (fun _ => rfl) (fun _ => rfl) fun _ => rfl
        · rw [result] at held ⊢
          exact ⟨held,kept.2.congr (fun _ => rfl) (fun _ => rfl) fun _ => rfl⟩

theorem cascade_kept {uuid : Nat → String} {iteration : RelationGraph.Iteration} (kept : Kept uuid st) :
    Kept uuid (cascade st iteration id) :=
  kept_frame kept (cascade_frame st iteration id).1 (cascade_frame st iteration id).2

theorem retract_kept (fresh : Function.Injective uuid) (kept : Kept uuid st)
    (met : Single st.registry.inner addressing plugin) :
    Kept uuid (StewardWiring.retract st iteration plugin addressing reason) := by
  have held := (step_held fresh kept.1 (.retract addressing plugin reason)).1
  rw [SubjectRegistry.step,locked_open kept.1] at held
  unfold StewardWiring.retract
  dsimp only
  rw [locked_open kept.1]
  rcases retract_cases st.registry.inner addressing plugin reason with ⟨error,same⟩ |
    ⟨id,record,idx,removal,⟨empty,result⟩ | ⟨left,result⟩⟩
  · rw [same] at held ⊢
    exact ⟨held,kept.2⟩
  · rw [result] at held ⊢
    apply cascade_kept
    exact ⟨held,forgets_mirrors plugin plugin reason none fresh kept.1.2 kept.2 removal.there removal.found empty⟩
  · rw [result] at held ⊢
    simp only [resolve,removal.indexed]
    exact ⟨held,released_mirrors kept.2 removal.there removal.found (met.gone removal)⟩

theorem forcedRetractAddressing_kept (fresh : Function.Injective uuid) (kept : Kept uuid st)
    (met : admitted = true → target ≠ admin → Single st.registry.inner addressing target) :
    Kept uuid (StewardWiring.forcedRetractAddressing st iteration admin target admitted addressing reason) := by
  have held := (step_held fresh kept.1 (.forcedRetractAddressing addressing target admin reason)).1
  rw [SubjectRegistry.step,locked_open kept.1] at held
  unfold StewardWiring.forcedRetractAddressing
  split
  · exact kept
  · rename_i known
    split
    · exact kept
    · rename_i other
      have single := met (by simpa using known) other
      rw [locked_open kept.1]
      rcases forcedRetractAddressing_cases st.registry.inner addressing target admin reason with same |
        ⟨id,record,idx,removal,⟨empty,result⟩ | ⟨left,result⟩⟩
      · rw [same] at held ⊢
        exact ⟨held,kept.2⟩
      · rw [result] at held ⊢
        apply cascade_kept
        exact ⟨held,forgets_mirrors admin admin reason reason fresh kept.1.2 kept.2 removal.there removal.found empty⟩
      · rw [result] at held ⊢
        exact ⟨held,released_mirrors kept.2 removal.there removal.found (single.gone removal)⟩

theorem rewriteBoth_kept (kept : Kept uuid st) : Kept uuid (rewriteBoth st first second sourceA sourceB newId) := by
  unfold rewriteBoth
  split <;> exact kept

theorem merge_kept (fresh : Function.Injective uuid) (kept : Kept uuid st) :
    Kept uuid (merge uuid st first second admin targetA targetB reason) := by
  unfold merge
  split
  · rename_i sourceA sourceB atA atB
    split
    · exact kept
    · rename_i apart
      obtain ⟨recordA,thereA,-⟩ := kept.1.2.index targetA sourceA atA
      obtain ⟨recordB,thereB,-⟩ := kept.1.2.index targetB sourceB atB
      have held := (step_held fresh kept.1 (.mergeAliases sourceA sourceB admin reason)).1
      rw [SubjectRegistry.step,locked_open kept.1] at held
      simp only [describe,thereA,thereB,Option.bind_some,Option.map_some,Option.any_some]
      split
      · exact kept
      · rw [locked_open kept.1]
        rcases mergeAliases_cases sourceA sourceB admin reason kept.1.2 with ⟨error,same⟩ |
          ⟨otherA,otherB,hereA,hereB,-,-,result⟩
        · rw [same] at held ⊢
          exact ⟨held,kept.2⟩
        · cases Option.some.inj (thereA.symm.trans hereA)
          cases Option.some.inj (thereB.symm.trans hereB)
          rw [result] at held ⊢
          apply rewriteBoth_kept
          exact ⟨held,mergedInto_mirrors admin reason fresh kept.1.2 kept.2 thereA thereB apart⟩
  · exact kept

theorem split_kept (fresh : Function.Injective uuid) (kept : Kept uuid st) :
    Kept uuid (StewardWiring.split uuid st iteration admin source groups strategy assignments reason) := by
  unfold StewardWiring.split
  split
  · exact kept
  · rename_i sourceId indexed
    split
    · exact kept
    · obtain ⟨record,there,-⟩ := kept.1.2.index source sourceId indexed
      have held := (step_held fresh kept.1 (.splitSubject sourceId groups admin reason)).1
      rw [SubjectRegistry.step,locked_open kept.1] at held
      simp only [describe,there,Option.map_some]
      rw [locked_open kept.1]
      rcases splitSubject_cases sourceId groups admin reason fresh kept.1.2 with ⟨error,same⟩ |
        ⟨other,moves,placed,here,divides,shape,result⟩
      · rw [same] at held ⊢
        exact ⟨held,kept.2⟩
      · cases Option.some.inj (there.symm.trans here)
        rw [result] at held ⊢
        exact ⟨held,splitInto_mirrors admin reason fresh kept.1.2 kept.2 there divides shape⟩

theorem step_kept (fresh : Function.Injective uuid) (kept : Kept uuid st) (request : Request)
    (met : Mirrorable catalogue st request) : Kept uuid (StewardWiring.step uuid catalogue st request) := by
  cases request with
  | announce plugin announcement => exact announce_kept fresh kept met
  | retract iteration plugin addressing reason => exact retract_kept fresh kept met
  | forcedRetractAddressing iteration admin target admitted addressing reason =>
    exact forcedRetractAddressing_kept fresh kept met
  | merge first second admin a b reason => exact merge_kept fresh kept
  | split iteration admin source groups strategy assignments reason => exact split_kept fresh kept
  | assertRelation plugin source predicate target reason =>
    exact kept_frame kept (assertRelation_frame st).1 (assertRelation_frame st).2
  | retractRelation plugin source predicate target =>
    exact kept_frame kept (retractRelation_frame st).1 (retractRelation_frame st).2
  | forcedRetractClaim admin target admitted source predicate addressing =>
    exact kept_frame kept (forcedRetractClaim_frame st).1 (forcedRetractClaim_frame st).2
  | suppress admin source predicate target reason now => exact kept_frame kept (suppress_frame st).1 (suppress_frame st).2
  | unsuppress source predicate target => exact kept_frame kept (unsuppress_frame st).1 (unsuppress_frame st).2

theorem restored_row (restores : Restores st) (there : get st.registry.inner.subjects id = some record)
    (member : entry ∈ record.addressings) : get st.store.addressings entry.addressing = some ⟨id,entry.claimant⟩ := by
  have same := (restores 0).subjects id
  rw [rehydrate_subjects,there] at same
  cases row : get st.store.subjects id with
  | none =>
    rw [row] at same
    cases same
  | some kind =>
    rw [row,Option.bind_some] at same
    split at same
    · cases same
    · cases same with
      | some same => exact (mem_persisted _ entry).mp ((same.2.2 entry).mpr member)

theorem announce_stored (held : Held uuid st.registry) (accepted : Accepted catalogue st.registry.inner announcement)
    (outcome : result = .updated id ∨ result = .noChange id)
    (announced : SubjectRegistry.announce uuid st.registry.inner announcement plugin = (.ok result,after)) :
    StewardWiring.announce uuid catalogue st plugin announcement = {st with
      registry := ⟨after,false⟩
      store := recordSubjectAnnounce st.store id announcement.subjectType announcement.addressings plugin} := by
  rcases outcome with rfl | rfl
  · simp [StewardWiring.announce,accepted.1,accepted.2.1,locked_open held,announced,Reply.panics]
  · simp [StewardWiring.announce,accepted.1,accepted.2.1,locked_open held,announced,Reply.panics]

theorem announce_needs (kept : Kept uuid st) (restores : Restores (StewardWiring.announce uuid catalogue st plugin announcement)) :
    Mirrorable catalogue st (.announce plugin announcement) := by
  intro accepted a id record claimant member resolved there entry
  have overwritten : ∀ result after,(result = .updated id ∨ result = .noChange id) →
      SubjectRegistry.announce uuid st.registry.inner announcement plugin = (.ok result,after) →
      (∃ record,get after.subjects id = some record ∧ ⟨a,claimant⟩ ∈ record.addressings) → claimant = plugin := by
    rintro result after outcome announced ⟨now,here,still⟩
    rw [announce_stored kept.1 accepted outcome announced] at restores
    have row := restored_row restores here still
    simp only [recordSubjectAnnounce,get_insertAll,member,if_true] at row
    cases row
    rfl
  rcases announce_cases uuid st.registry.inner announcement plugin with ⟨error,-,lacking⟩ |
    ⟨-,claims,⟨ids,-⟩ | ⟨target,ids,-,result⟩ | ⟨target,ids,-,result⟩ | ⟨_,rfl,several,-⟩⟩
  · exact absurd lacking (by simp [accepted.2.2.1,accepted.2.2.2.1])
  · have unknown := distinctIds_none ids member
    simp [resolve,unknown] at resolved
  · cases distinctIds_only ids member resolved
    exact overwritten _ _ (.inr rfl) result ⟨record,there,entry⟩
  · cases distinctIds_only ids member resolved
    have grown := extended_there (s := {st.registry.inner with claims := claims})
      (unresolved st.registry.inner announcement.addressings) plugin there
    rw [← (captureState_frame _ (.updated id) announcement.state).2.1] at grown
    exact overwritten _ _ (.inl rfl) result ⟨_,grown,List.mem_append.mpr (.inl entry)⟩
  · have few := accepted.2.2.2.2
    omega

theorem claimIdx_some (entry : ⟨addressing,plugin⟩ ∈ record.addressings) : ∃ idx,claimIdx record addressing plugin = some idx := by
  rw [← Option.isSome_iff_exists]
  unfold claimIdx
  rw [List.findIdx?_isSome]
  simpa using ⟨_,entry,rfl,rfl⟩

-- A removal from a record that lists the addressing twice leaves an entry without a row.
theorem removal_needs (registry : after.registry.inner = released s id record idx addressing)
    (store : after.store = recordSubjectRetract old id addressing) (found : claimIdx record addressing plugin = some idx)
    (restores : Restores after) : record.listed.count addressing ≤ 1 := by
  by_contra many
  have left := (claimed_left found).mpr (by omega)
  obtain ⟨⟨a,claimant⟩,member,rfl⟩ := List.mem_map.mp left
  have here : get after.registry.inner.subjects id =
      some {record with addressings := record.addressings.eraseIdx idx} := by simp [registry,released]
  have row := restored_row restores here member
  simp [store,recordSubjectRetract,Option.filter_eq_some_iff] at row

theorem retract_needs (kept : Kept uuid st) (restores : Restores (StewardWiring.retract st iteration plugin addressing reason)) :
    Single st.registry.inner addressing plugin := by
  intro id record resolved there entry
  obtain ⟨idx,found⟩ := claimIdx_some entry
  simp only [resolve,describe] at resolved there
  by_cases empty : record.addressings.eraseIdx idx = []
  · have none_left : ¬1 < record.listed.count addressing := by
      rw [← claimed_left found]
      simp [SubjectRecord.listed,empty]
    omega
  · have removed : SubjectRegistry.retract st.registry.inner addressing plugin reason =
        (.ok .addressingRemoved,released st.registry.inner id record idx addressing) := by
      simp only [SubjectRegistry.retract,resolved,there,found,if_neg empty]
    have result : StewardWiring.retract st iteration plugin addressing reason = {st with
        registry := ⟨released st.registry.inner id record idx addressing,false⟩
        store := recordSubjectRetract st.store id addressing} := by
      simp [StewardWiring.retract,locked_open kept.1,removed,resolved,resolve,Reply.panics]
    rw [result] at restores
    exact removal_needs rfl rfl found restores

theorem forcedRetractAddressing_needs (kept : Kept uuid st)
    (restores : Restores (StewardWiring.forcedRetractAddressing st iteration admin target admitted addressing reason))
    (known : admitted = true) (other : target ≠ admin) : Single st.registry.inner addressing target := by
  intro id record resolved there entry
  obtain ⟨idx,found⟩ := claimIdx_some entry
  simp only [resolve,describe] at resolved there
  by_cases empty : record.addressings.eraseIdx idx = []
  · have none_left : ¬1 < record.listed.count addressing := by
      rw [← claimed_left found]
      simp [SubjectRecord.listed,empty]
    omega
  · have removed : SubjectRegistry.forcedRetractAddressing st.registry.inner addressing target admin reason =
        (.ok (.addressingRemoved id),released st.registry.inner id record idx addressing) := by
      simp only [SubjectRegistry.forcedRetractAddressing,resolved,there,found,if_neg empty]
    have result : StewardWiring.forcedRetractAddressing st iteration admin target admitted addressing reason = {st with
        registry := ⟨released st.registry.inner id record idx addressing,false⟩
        store := recordSubjectRetract st.store id addressing} := by
      simp [StewardWiring.forcedRetractAddressing,locked_open kept.1,removed,Reply.panics,known,other]
    rw [result] at restores
    exact removal_needs rfl rfl found restores

theorem step_needs (kept : Kept uuid st) (request : Request) (restores : Restores (StewardWiring.step uuid catalogue st request)) :
    Mirrorable catalogue st request := by
  cases request with
  | announce plugin announcement => exact announce_needs kept restores
  | retract iteration plugin addressing reason => exact retract_needs kept restores
  | forcedRetractAddressing iteration admin target admitted addressing reason =>
    exact forcedRetractAddressing_needs kept restores
  | _ => trivial

theorem restart_restores_subjects_exactly (fresh : Function.Injective uuid) (catalogue : Catalogue) (requests : List Request) :
    Throughout (StewardWiring.step uuid catalogue) Restores .new requests ↔
      Guarded (StewardWiring.step uuid catalogue) (Mirrorable catalogue) .new requests := by
  apply throughout_strong (Kept uuid)
  · exact fun st kept drawn => mirrors_restores kept.1.2 kept.2 drawn
  · exact fun st request kept met => step_kept fresh kept request met
  · exact fun st request kept restores => step_needs kept request restores
  · exact ⟨⟨rfl,new_sound⟩,new_mirrors⟩

def tracks : Catalogue := ⟨["track"],[]⟩

def mergedTracks : List Request :=
  [.announce "mpd" ⟨"track",[⟨"mpd","a"⟩],[],none⟩,.announce "mpd" ⟨"track",[⟨"mpd","b"⟩],[],none⟩,
    .merge .listed .listed "admin" ⟨"mpd","a"⟩ ⟨"mpd","b"⟩ none]

theorem restart_restores_merged_tracks :
    Throughout (StewardWiring.step strokes tracks) Restores .new mergedTracks := by
  apply (restart_restores_subjects_exactly strokes_fresh tracks mergedTracks).mpr
  refine ⟨?_,?_,trivial,trivial⟩
  · intro _ a id record claimant member resolved
    simp only [List.mem_singleton] at member
    subst member
    revert resolved
    simp [resolve,Steward.new,SubjectRegistry.new,RegistryInner.new]
  · intro _ a id record claimant member resolved
    simp only [List.mem_singleton] at member
    subst member
    have unknown : resolve (StewardWiring.step strokes tracks .new
      (.announce "mpd" ⟨"track",[⟨"mpd","a"⟩],[],none⟩)).registry.inner ⟨"mpd","b"⟩ = none := by decide
    cases unknown.symm.trans resolved

-- A second plugin announces what the first already has: the registry keeps the first claimant,
-- the store the second. And the retraction of an addressing that was announced twice at once.
theorem disputed_claimant_lost :
    ¬Restores (run (StewardWiring.step strokes tracks) .new
        [.announce "mpd" ⟨"track",[⟨"mpd","a"⟩],[],none⟩,.announce "tidal" ⟨"track",[⟨"mpd","a"⟩],[],none⟩]) ∧
      ¬Restores (run (StewardWiring.step strokes tracks) .new
        [.announce "mpd" ⟨"track",[⟨"mpd","a"⟩,⟨"mpd","a"⟩],[],none⟩,.retract .listed "mpd" ⟨"mpd","a"⟩ none]) := by
  constructor
  · intro restores
    have here : get (run (StewardWiring.step strokes tracks) .new
        [.announce "mpd" ⟨"track",[⟨"mpd","a"⟩],[],none⟩,
          .announce "tidal" ⟨"track",[⟨"mpd","a"⟩],[],none⟩]).registry.inner.subjects "u" =
        some ⟨"u","track",[⟨⟨"mpd","a"⟩,"mpd"⟩]⟩ := by decide
    have row := restored_row restores here (List.mem_singleton.mpr rfl)
    revert row
    decide
  · intro restores
    have here : get (run (StewardWiring.step strokes tracks) .new
        [.announce "mpd" ⟨"track",[⟨"mpd","a"⟩,⟨"mpd","a"⟩],[],none⟩,
          .retract .listed "mpd" ⟨"mpd","a"⟩ none]).registry.inner.subjects "u" =
        some ⟨"u","track",[⟨⟨"mpd","a"⟩,"mpd"⟩]⟩ := by decide
    have row := restored_row restores here (List.mem_singleton.mpr rfl)
    revert row
    decide

end EvoCore.SubjectRestart
