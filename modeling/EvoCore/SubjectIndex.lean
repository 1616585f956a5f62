import EvoCore.SubjectAliases

namespace EvoCore.SubjectIndex
open Tables Runs SubjectRegistry SubjectAliases

structure Indexed (s : RegistryInner) : Prop where
  agree : ∀ a id,get s.addressings a = some id ↔ ∃ record,get s.subjects id = some record ∧ a ∈ record.listed
  once : ∀ id record,get s.subjects id = some record → record.listed.Nodup
  filled : ∀ id record,get s.subjects id = some record → record.listed ≠ []

variable {uuid : Nat → String} {s : RegistryInner} {id : String}

theorem new_indexed : Indexed .new := by
  refine ⟨?_,?_,?_⟩ <;> simp [RegistryInner.new]

theorem Indexed.of_frame (indexed : Indexed s) (subjects : t.subjects = s.subjects) (addressings : t.addressings = s.addressings) :
    Indexed t := by
  refine ⟨?_,?_,?_⟩
  · simpa only [subjects,addressings] using indexed.agree
  · simpa only [subjects] using indexed.once
  · simpa only [subjects] using indexed.filled

-- An announcement lists every addressing it adds once.
def Plain (s : RegistryInner) : Call → Prop
  | .announce announcement _ =>
    announcement.subjectType ≠ "" → announcement.addressings ≠ [] →
      (distinctIds s announcement.addressings).length ≤ 1 → (unresolved s announcement.addressings).Nodup
  | _ => True

theorem announced_listed (addressings : List ExternalAddressing) :
    (announced addressings claimant).map AddressingRecord.addressing = addressings := by
  simp [announced,Function.comp_def]

theorem distinctIds_none (unknown : distinctIds s addressings = []) (member : a ∈ addressings) : get s.addressings a = none := by
  cases found : get s.addressings a with
  | none => rfl
  | some id =>
    have there : id ∈ distinctIds s addressings := by
      simp only [distinctIds,List.mem_dedup,List.mem_filterMap]
      exact ⟨a,member,found⟩
    simp [unknown] at there

theorem unresolved_all (unknown : distinctIds s addressings = []) : unresolved s addressings = addressings := by
  apply List.filter_eq_self.mpr
  intro a member
  simp [distinctIds_none unknown member]

theorem mem_unresolved : a ∈ unresolved s addressings ↔ a ∈ addressings ∧ get s.addressings a = none := by
  simp [unresolved]

-- Every listed addressing is in the index, under the id of the record. Together with Sound
-- this is the agreement of the two; it does not need that a record lists nothing twice.
def Complete (s : RegistryInner) : Prop :=
  ∀ id record a,get s.subjects id = some record → a ∈ record.listed → get s.addressings a = some id

theorem Indexed.complete (indexed : Indexed s) : Complete s :=
  fun id record a there member => (indexed.agree a id).mpr ⟨record,there,member⟩

theorem indexed_of (sound : Sound uuid s) (complete : Complete s)
    (once : ∀ id record,get s.subjects id = some record → record.listed.Nodup)
    (filled : ∀ id record,get s.subjects id = some record → record.listed ≠ []) : Indexed s := by
  refine ⟨fun a id => ⟨sound.index a id,?_⟩,once,filled⟩
  rintro ⟨record,there,member⟩
  exact complete id record a there member

theorem created_records (there : get (created uuid s announcement claimant).subjects id = some record) :
    (id = uuid s.drawn ∧
      record = ⟨uuid s.drawn,announcement.subjectType,announced announcement.addressings claimant⟩) ∨
      id ≠ uuid s.drawn ∧ get s.subjects id = some record := by
  simp only [created,get_insert] at there
  split at there
  · rename_i same
    exact .inl ⟨same,(Option.some.inj there).symm⟩
  · rename_i other
    exact .inr ⟨other,there⟩

theorem created_complete (complete : Complete s) (unknown : distinctIds s announcement.addressings = []) :
    Complete (created uuid s announcement claimant) := by
  intro id record a there member
  rcases created_records there with ⟨rfl,rfl⟩ | ⟨-,old⟩
  · simp only [SubjectRecord.listed,announced_listed] at member
    simp [created,member]
  · have found := complete id record a old member
    have outside : a ∉ announcement.addressings := fun named => by
      simp [distinctIds_none unknown named] at found
    simpa [created,outside] using found

theorem created_indexed (announcement : SubjectAnnouncement) (claimant : String) (fresh : Function.Injective uuid)
    (sound : Sound uuid s) (indexed : Indexed s) (unknown : distinctIds s announcement.addressings = [])
    (some_addressing : announcement.addressings ≠ []) :
    Indexed (created uuid s announcement claimant) ↔ announcement.addressings.Nodup := by
  have after := (created_keeps announcement claimant fresh sound).2
  have new : get (created uuid s announcement claimant).subjects (uuid s.drawn) =
      some ⟨uuid s.drawn,announcement.subjectType,announced announcement.addressings claimant⟩ := by simp [created]
  constructor
  · intro still
    simpa [SubjectRecord.listed,announced_listed] using still.once _ _ new
  · intro apart
    refine indexed_of after (created_complete indexed.complete unknown) ?_ ?_
    · intro id record there
      rcases created_records there with ⟨-,rfl⟩ | ⟨-,old⟩
      · simpa [SubjectRecord.listed,announced_listed] using apart
      · exact indexed.once id record old
    · intro id record there
      rcases created_records there with ⟨-,rfl⟩ | ⟨-,old⟩
      · simpa [SubjectRecord.listed,announced_listed] using some_addressing
      · exact indexed.filled id record old

theorem extended_there (added : List ExternalAddressing) (claimant : String) (there : get s.subjects target = some record) :
    get (extended s target added claimant).subjects target =
      some {record with addressings := record.addressings ++ announced added claimant} := by simp [extended,there]

theorem extended_records (there : get s.subjects target = some record)
    (here : get (extended s target added claimant).subjects id = some other) :
    (id = target ∧ other = {record with addressings := record.addressings ++ announced added claimant}) ∨
      id ≠ target ∧ get s.subjects id = some other := by
  simp only [extended,get_modify] at here
  split at here
  · rename_i same
    rw [there] at here
    exact .inl ⟨same,(Option.some.inj here).symm⟩
  · rename_i apart
    exact .inr ⟨apart,here⟩

theorem extended_lists (record : SubjectRecord) (added : List ExternalAddressing) (claimant : String) :
    SubjectRecord.listed {record with addressings := record.addressings ++ announced added claimant} =
      record.listed ++ added := by
  simp [SubjectRecord.listed,announced_listed]

theorem extended_complete (complete : Complete s) (there : get s.subjects target = some record)
    (new : ∀ a,a ∈ added → get s.addressings a = none) : Complete (extended s target added claimant) := by
  intro id other a here member
  rcases extended_records there here with ⟨rfl,rfl⟩ | ⟨-,old⟩
  · rw [extended_lists] at member
    by_cases named : a ∈ added
    · simp [extended,named]
    · have found := complete _ record a there ((List.mem_append.mp member).resolve_right named)
      simpa [extended,named] using found
  · have found := complete id other a old member
    have outside : a ∉ added := fun named => by simp [new a named] at found
    simpa [extended,outside] using found

theorem extended_indexed (added : List ExternalAddressing) (claimant : String) (fresh : Function.Injective uuid)
    (sound : Sound uuid s) (indexed : Indexed s) (there : get s.subjects target = some record)
    (new : ∀ a,a ∈ added → get s.addressings a = none) :
    Indexed (extended s target added claimant) ↔ added.Nodup := by
  have live : Live s target := by simp [Live,describe,there]
  have after := (extended_keeps added claimant fresh sound live).2
  have grown := extended_there added claimant there
  constructor
  · intro still
    have once := still.once _ _ grown
    rw [extended_lists] at once
    exact (List.nodup_append.mp once).2.1
  · intro apart
    have disjoint : ∀ a,a ∈ record.listed → ∀ b,b ∈ added → a ≠ b := by
      rintro a old b fresh_one rfl
      have found := indexed.complete _ _ _ there old
      simp [new a fresh_one] at found
    refine indexed_of after (extended_complete indexed.complete there new) ?_ ?_
    · intro id other here
      rcases extended_records there here with ⟨-,rfl⟩ | ⟨-,old⟩
      · rw [extended_lists,List.nodup_append]
        exact ⟨indexed.once _ _ there,apart,disjoint⟩
      · exact indexed.once id other old
    · intro id other here
      rcases extended_records there here with ⟨-,rfl⟩ | ⟨-,old⟩
      · rw [extended_lists]
        simp [indexed.filled _ _ there]
      · exact indexed.filled id other old

theorem released_listed (once : record.listed.Nodup) (found : claimIdx record addressing claimant = some idx) :
    (SubjectRecord.listed {record with addressings := record.addressings.eraseIdx idx}).Nodup ∧
      addressing ∉ SubjectRecord.listed {record with addressings := record.addressings.eraseIdx idx} := by
  obtain ⟨taken,here,named,-⟩ := claimIdx_parts found
  have erased : SubjectRecord.listed {record with addressings := record.addressings.eraseIdx idx} =
      record.listed.eraseIdx idx := by simp [SubjectRecord.listed,List.eraseIdx_map]
  have position : record.listed[idx]? = some addressing := by simp [SubjectRecord.listed,here,named]
  rw [erased]
  refine ⟨once.eraseIdx idx,fun member => ?_⟩
  obtain ⟨j,other,at_j⟩ := List.mem_eraseIdx_iff_getElem?.mp member
  have below : idx < record.listed.length := (List.getElem?_eq_some_iff.mp position).1
  exact other ((List.getElem?_inj below once).mp (position.trans at_j.symm)).symm

theorem released_records (here : get (released s id record idx addressing).subjects owner = some other) :
    (owner = id ∧ other = {record with addressings := record.addressings.eraseIdx idx}) ∨
      owner ≠ id ∧ get s.subjects owner = some other := by
  simp only [released,get_insert] at here
  split at here
  · rename_i same
    exact .inl ⟨same,(Option.some.inj here).symm⟩
  · rename_i apart
    exact .inr ⟨apart,here⟩

theorem claimed_listed (found : claimIdx record addressing claimant = some idx) : addressing ∈ record.listed := by
  obtain ⟨taken,position,named,-⟩ := claimIdx_parts found
  exact List.mem_map.mpr ⟨taken,List.mem_of_getElem? position,named⟩

theorem released_complete (complete : Complete s) (there : get s.subjects id = some record)
    (found : claimIdx record addressing claimant = some idx)
    (gone : addressing ∉ SubjectRecord.listed {record with addressings := record.addressings.eraseIdx idx}) :
    Complete (released s id record idx addressing) := by
  intro owner other a here member
  simp only [released,get_erase]
  rcases released_records here with ⟨rfl,rfl⟩ | ⟨apart,old⟩
  · have was : a ∈ record.listed := by
      obtain ⟨r,kept,named⟩ := List.mem_map.mp member
      exact List.mem_map.mpr ⟨r,List.mem_of_mem_eraseIdx kept,named⟩
    rw [if_neg ?_,complete _ _ _ there was]
    rintro rfl
    exact gone member
  · have mine := complete _ _ _ there (claimed_listed found)
    have indexedAt := complete _ _ _ old member
    rw [if_neg ?_,indexedAt]
    rintro rfl
    exact apart (Option.some.inj (indexedAt.symm.trans mine))

theorem released_indexed (fresh : Function.Injective uuid) (sound : Sound uuid s) (indexed : Indexed s)
    (there : get s.subjects id = some record) (found : claimIdx record addressing claimant = some idx)
    (left : record.addressings.eraseIdx idx ≠ []) : Indexed (released s id record idx addressing) := by
  have after := (released_keeps fresh sound there found).2
  obtain ⟨once,gone⟩ := released_listed (indexed.once _ _ there) found
  refine indexed_of after (released_complete indexed.complete there found gone) ?_ ?_
  · intro owner other here
    rcases released_records here with ⟨-,rfl⟩ | ⟨-,old⟩
    · exact once
    · exact indexed.once owner other old
  · intro owner other here
    rcases released_records here with ⟨-,rfl⟩ | ⟨-,old⟩
    · simpa [SubjectRecord.listed] using left
    · exact indexed.filled owner other old

theorem forgotten_frame (s : RegistryInner) (id actor : String) (reason : Option String) :
    (forgotten s id actor reason).subjects = s.subjects.erase id ∧
      (forgotten s id actor reason).addressings = s.addressings := by
  unfold forgotten aliasesTryInsert
  cases there : get s.aliases id <;> simp [there]

theorem forgets_records
    (here : get (forgotten (released s id record idx addressing) id actor reason).subjects owner = some other) :
    owner ≠ id ∧ get s.subjects owner = some other := by
  rw [(forgotten_frame _ _ _ _).1,get_erase] at here
  split at here
  · cases here
  · rename_i apart
    rcases released_records here with ⟨same,-⟩ | old
    · exact absurd same apart
    · exact old

theorem forgets_complete (complete : Complete s) (there : get s.subjects id = some record)
    (found : claimIdx record addressing claimant = some idx) :
    Complete (forgotten (released s id record idx addressing) id actor reason) := by
  intro owner other a here member
  obtain ⟨apart,old⟩ := forgets_records here
  have mine := complete _ _ _ there (claimed_listed found)
  have indexedAt := complete _ _ _ old member
  rw [(forgotten_frame _ _ _ _).2]
  simp only [released,get_erase]
  rw [if_neg ?_,indexedAt]
  rintro rfl
  exact apart (Option.some.inj (indexedAt.symm.trans mine))

theorem forgets_indexed (actor : String) (reason : Option String) (fresh : Function.Injective uuid) (sound : Sound uuid s)
    (indexed : Indexed s) (there : get s.subjects id = some record)
    (found : claimIdx record addressing claimant = some idx) (empty : record.addressings.eraseIdx idx = []) :
    Indexed (forgotten (released s id record idx addressing) id actor reason) := by
  have after := (forgets_keeps actor reason fresh sound there found empty).2
  refine indexed_of after (forgets_complete indexed.complete there found) ?_ ?_
  · intro owner other here
    exact indexed.once owner other (forgets_records here).2
  · intro owner other here
    exact indexed.filled owner other (forgets_records here).2

theorem mergedInto_records
    (here : get (mergedInto uuid s sourceA sourceB recordA recordB admin reason).subjects id = some record) :
    (id = uuid s.drawn ∧
      record = ⟨uuid s.drawn,recordA.subjectType,recordA.addressings ++ recordB.addressings⟩) ∨
      id ≠ sourceA ∧ id ≠ sourceB ∧ id ≠ uuid s.drawn ∧ get s.subjects id = some record := by
  simp only [mergedInto,merged,get_insert,get_erase] at here
  split at here
  · rename_i same
    exact .inl ⟨same,(Option.some.inj here).symm⟩
  · split at here
    · cases here
    · split at here
      · cases here
      · rename_i notNew notB notA
        exact .inr ⟨notA,notB,notNew,here⟩

theorem mergedInto_complete (complete : Complete s) (atA : get s.subjects sourceA = some recordA)
    (atB : get s.subjects sourceB = some recordB) :
    Complete (mergedInto uuid s sourceA sourceB recordA recordB admin reason) := by
  intro id record a here member
  simp only [mergedInto,merged,get_insertAll]
  rcases mergedInto_records here with ⟨rfl,rfl⟩ | ⟨notA,notB,-,old⟩
  · exact if_pos member
  · have found := complete _ _ _ old member
    rw [if_neg ?_,found]
    intro moved
    rcases List.mem_append.mp (List.map_append ▸ moved) with inA | inB
    · exact notA (Option.some.inj (found.symm.trans (complete _ _ _ atA inA)))
    · exact notB (Option.some.inj (found.symm.trans (complete _ _ _ atB inB)))

theorem mergedInto_indexed (admin : String) (reason : Option String) (fresh : Function.Injective uuid) (sound : Sound uuid s)
    (indexed : Indexed s) (atA : get s.subjects sourceA = some recordA) (atB : get s.subjects sourceB = some recordB)
    (apart : sourceA ≠ sourceB) : Indexed (mergedInto uuid s sourceA sourceB recordA recordB admin reason) := by
  have after := (mergedInto_keeps admin reason fresh sound atA atB).2
  have lists : SubjectRecord.listed ⟨uuid s.drawn,recordA.subjectType,recordA.addressings ++ recordB.addressings⟩ =
      recordA.listed ++ recordB.listed := by simp [SubjectRecord.listed]
  refine indexed_of after (mergedInto_complete indexed.complete atA atB) ?_ ?_
  · intro id record here
    rcases mergedInto_records here with ⟨-,rfl⟩ | ⟨-,-,-,old⟩
    · rw [lists,List.nodup_append]
      refine ⟨indexed.once _ _ atA,indexed.once _ _ atB,?_⟩
      rintro a inA b inB rfl
      exact apart (Option.some.inj ((indexed.complete _ _ _ atA inA).symm.trans (indexed.complete _ _ _ atB inB)))
    · exact indexed.once id record old
  · intro id record here
    rcases mergedInto_records here with ⟨-,rfl⟩ | ⟨-,-,-,old⟩
    · rw [lists]
      simp [indexed.filled _ _ atA]
    · exact indexed.filled id record old

theorem splitInto_records {groups : List (List ExternalAddressing)}
    (shape : Placed source {s with drawn := s.drawn+groups.length} placed (groups.zip (newIds uuid s groups.length)))
    (here : get (splitInto placed sourceId (newIds uuid s groups.length) admin reason).subjects id = some record) :
    id ≠ sourceId ∧ ((∃ group records,(group,id) ∈ groups.zip (newIds uuid s groups.length) ∧
        group.mapM (originalRecord source) = some records ∧ record = ⟨id,source.subjectType,records⟩) ∨
      id ∉ newIds uuid s groups.length ∧ get s.subjects id = some record) := by
  simp only [splitInto,get_erase] at here
  split at here
  · cases here
  · rename_i apart
    refine ⟨apart,?_⟩
    have seconds : (groups.zip (newIds uuid s groups.length)).map Prod.snd = newIds uuid s groups.length :=
      List.map_snd_zip (by rw [newIds_length])
    by_cases new : id ∈ (groups.zip (newIds uuid s groups.length)).map Prod.snd
    · obtain ⟨⟨group,same⟩,pair,rfl⟩ := List.mem_map.mp new
      obtain ⟨records,found,made⟩ := shape.records group same pair
      exact .inl ⟨group,records,pair,found,Option.some.inj (here.symm.trans made)⟩
    · rw [shape.others id new] at here
      exact .inr ⟨seconds ▸ new,here⟩

theorem splitInto_complete (complete : Complete s) (there : get s.subjects sourceId = some source)
    (divides : Divides source groups)
    (shape : Placed source {s with drawn := s.drawn+groups.length} placed (groups.zip (newIds uuid s groups.length))) :
    Complete (splitInto placed sourceId (newIds uuid s groups.length) admin reason) := by
  have firsts : (groups.zip (newIds uuid s groups.length)).map Prod.fst = groups :=
    List.map_fst_zip (by rw [newIds_length])
  intro id record a here member
  obtain ⟨apart,⟨group,records,pair,found,rfl⟩ | ⟨-,old⟩⟩ := splitInto_records shape here
  · rw [SubjectRecord.listed,(groupRecords_parts found).1] at member
    exact shape.moved group id pair a member
  · have found := complete _ _ _ old member
    have unmoved : a ∉ groups.flatten := fun moved =>
      apart (Option.some.inj (found.symm.trans (complete _ _ _ there ((divides.covers a).mp moved))))
    exact (shape.unmoved a (by rw [firsts]; exact unmoved)).trans found

theorem splitInto_indexed (admin : String) (reason : Option String) (fresh : Function.Injective uuid) (sound : Sound uuid s)
    (indexed : Indexed s) (there : get s.subjects sourceId = some source) (divides : Divides source groups)
    (shape : Placed source {s with drawn := s.drawn+groups.length} placed (groups.zip (newIds uuid s groups.length))) :
    Indexed (splitInto placed sourceId (newIds uuid s groups.length) admin reason) := by
  have after := (splitInto_keeps admin reason fresh sound there divides shape).2
  have inside : ∀ group id,(group,id) ∈ groups.zip (newIds uuid s groups.length) → group ∈ groups :=
    fun group id pair => (List.of_mem_zip pair).1
  refine indexed_of after (splitInto_complete indexed.complete there divides shape) ?_ ?_
  · intro id record here
    obtain ⟨-,⟨group,records,pair,found,rfl⟩ | ⟨-,old⟩⟩ := splitInto_records shape here
    · rw [SubjectRecord.listed,(groupRecords_parts found).1]
      exact (List.nodup_flatten.mp divides.apart).1 group (inside group id pair)
    · exact indexed.once id record old
  · intro id record here
    obtain ⟨-,⟨group,records,pair,found,rfl⟩ | ⟨-,old⟩⟩ := splitInto_records shape here
    · rw [SubjectRecord.listed,(groupRecords_parts found).1]
      exact divides.filled group (inside group id pair)
    · exact indexed.filled id record old

theorem captureState_indexed : Indexed (captureState s outcome state) ↔ Indexed s := by
  have frame := captureState_frame s outcome state
  exact ⟨fun after => after.of_frame frame.2.1.symm frame.2.2.2.symm,fun before => before.of_frame frame.2.1 frame.2.2.2⟩

theorem announce_indexed (fresh : Function.Injective uuid) (sound : Sound uuid s) (indexed : Indexed s) :
    Indexed (announce uuid s announcement claimant).2 ↔ Plain s (.announce announcement claimant) := by
  rcases announce_cases uuid s announcement claimant with ⟨error,same,lacking⟩ | ⟨⟨typed,some_addressing⟩,claims,shape⟩
  · rw [same]
    refine iff_of_true indexed fun typed some_addressing => ?_
    exact absurd lacking (by simp [typed,some_addressing])
  · have claimed : Sound uuid {s with claims := claims} := sound_claims claims sound
    have before : Indexed {s with claims := claims} := indexed.of_frame rfl rfl
    simp only [Plain,typed,some_addressing,ne_eq,not_false_eq_true,true_implies]
    rcases shape with ⟨ids,result⟩ | ⟨target,ids,known,result⟩ | ⟨target,ids,-,result⟩ | ⟨_,rfl,several,result⟩
    · rw [result,captureState_indexed,created_indexed announcement claimant fresh claimed before ids some_addressing,
        unresolved_all ids]
      simp [ids]
    · rw [result]
      simp [before,known]
    · have live : Live s target := distinctIds_live announcement.addressings sound (by simp [ids])
      obtain ⟨record,there⟩ := Option.isSome_iff_exists.mp live
      have new : ∀ b,b ∈ unresolved s announcement.addressings → get s.addressings b = none := fun b member =>
        (mem_unresolved.mp member).2
      rw [result,captureState_indexed,extended_indexed _ claimant fresh claimed before there new]
      simp [ids]
    · rw [result]
      refine iff_of_true before fun few => ?_
      omega

theorem retract_indexed (fresh : Function.Injective uuid) (sound : Sound uuid s) (indexed : Indexed s) :
    Indexed (retract s addressing claimant reason).2 := by
  rcases retract_cases s addressing claimant reason with ⟨error,same⟩ |
    ⟨id,record,idx,removal,⟨empty,result⟩ | ⟨left,result⟩⟩
  · rwa [same]
  · rw [result]
    exact forgets_indexed claimant reason fresh sound indexed removal.there removal.found empty
  · rw [result]
    exact released_indexed fresh sound indexed removal.there removal.found left

theorem forcedRetractAddressing_indexed (fresh : Function.Injective uuid) (sound : Sound uuid s) (indexed : Indexed s) :
    Indexed (forcedRetractAddressing s addressing target admin reason).2 := by
  rcases forcedRetractAddressing_cases s addressing target admin reason with same |
    ⟨id,record,idx,removal,⟨empty,result⟩ | ⟨left,result⟩⟩
  · rwa [same]
  · rw [result]
    exact forgets_indexed admin reason fresh sound indexed removal.there removal.found empty
  · rw [result]
    exact released_indexed fresh sound indexed removal.there removal.found left

theorem mergeAliases_indexed (fresh : Function.Injective uuid) (sound : Sound uuid s) (indexed : Indexed s) :
    Indexed (mergeAliases uuid s sourceA sourceB admin reason).2 := by
  rcases mergeAliases_cases sourceA sourceB admin reason sound with ⟨error,same⟩ | ⟨recordA,recordB,atA,atB,apart,-,result⟩
  · rwa [same]
  · rw [result]
    exact mergedInto_indexed admin reason fresh sound indexed atA atB apart

theorem splitSubject_indexed (fresh : Function.Injective uuid) (sound : Sound uuid s) (indexed : Indexed s) :
    Indexed (splitSubject uuid s sourceId groups admin reason).2 := by
  rcases splitSubject_cases sourceId groups admin reason fresh sound with ⟨error,same⟩ |
    ⟨source,moves,placed,there,divides,shape,result⟩
  · rwa [same]
  · rw [result]
    exact splitInto_indexed admin reason fresh sound indexed there divides shape

theorem step_indexed (fresh : Function.Injective uuid) (held : Held uuid r) (indexed : Indexed r.inner) (call : Call) :
    Indexed (step uuid r call).inner ↔ Plain r.inner call := by
  have open_lock : ∀ {α} (body : RegistryInner → Reply α × RegistryInner),(locked r body).2.inner = (body r.inner).2 := by
    intro α body
    simp [locked,held.1]
  cases call with
  | announce announcement claimant =>
    rw [step,open_lock]
    exact announce_indexed fresh held.2 indexed
  | updateState id state =>
    rw [step,open_lock]
    have frame : Indexed (updateState r.inner id state).2 := by
      unfold updateState
      split
      · exact indexed
      · split <;> exact indexed.of_frame rfl rfl
    simpa [Plain] using frame
  | retract addressing claimant reason =>
    rw [step,open_lock]
    simpa [Plain] using retract_indexed fresh held.2 indexed
  | forcedRetractAddressing addressing target admin reason =>
    rw [step,open_lock]
    simpa [Plain] using forcedRetractAddressing_indexed fresh held.2 indexed
  | mergeAliases sourceA sourceB admin reason =>
    rw [step,open_lock]
    simpa [Plain] using mergeAliases_indexed fresh held.2 indexed
  | splitSubject sourceId groups admin reason =>
    rw [step,open_lock]
    simpa [Plain] using splitSubject_indexed fresh held.2 indexed

theorem index_agrees_exactly (fresh : Function.Injective uuid) (calls : List Call) :
    Throughout (step uuid) (fun r => Indexed r.inner) .new calls ↔
      Guarded (step uuid) (fun r call => Plain r.inner call) .new calls := by
  apply throughout_strong (fun r => Held uuid r ∧ Indexed r.inner)
  · exact fun r strong => strong.2
  · exact fun r call strong met =>
      ⟨(step_held fresh strong.1 call).1,(step_indexed fresh strong.1 strong.2 call).mpr met⟩
  · exact fun r call strong after => (step_indexed fresh strong.1 strong.2 call).mp after
  · exact ⟨⟨rfl,new_sound⟩,new_indexed⟩

theorem index_agrees_exactly_two_tracks : Throughout (step strokes) (fun r => Indexed r.inner) .new twoTracks := by
  apply (index_agrees_exactly strokes_fresh twoTracks).mpr
  refine ⟨?_,?_,trivial⟩
  · intro _ _ _
    decide
  · intro _ _ _
    decide

-- One announcement that names its addressing twice, and the retraction of that addressing: the
-- record keeps the second entry under an id that nothing leads to any more.
theorem repeated_addressing_haunts :
    ¬Indexed (run (step strokes) .new [.announce ⟨"track",[⟨"mpd","a"⟩,⟨"mpd","a"⟩],[],none⟩ "mpd"]).inner ∧
      ¬Indexed (run (step strokes) .new [.announce ⟨"track",[⟨"mpd","a"⟩,⟨"mpd","a"⟩],[],none⟩ "mpd",
        .retract ⟨"mpd","a"⟩ "mpd" none]).inner := by
  constructor
  · intro indexed
    have once := indexed.once "u" ⟨"u","track",[⟨⟨"mpd","a"⟩,"mpd"⟩,⟨⟨"mpd","a"⟩,"mpd"⟩]⟩ (by decide)
    revert once
    decide
  · intro indexed
    have found := (indexed.agree ⟨"mpd","a"⟩ "u").mpr ⟨⟨"u","track",[⟨⟨"mpd","a"⟩,"mpd"⟩]⟩,by decide⟩
    revert found
    decide

end EvoCore.SubjectIndex
