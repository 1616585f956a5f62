import EvoCore.DatedSubjects

namespace EvoCore.RowConservation
open Tables Runs DatedSubjects
open SubjectAliases (Divides Sound fresh_dead run_held mergeAliases_keeps splitSubject_keeps new_sound strokes strokes_fresh)
open SubjectRegistry (ExternalAddressing AddressingTransfer MergeAliasesOutcome SplitSubjectOutcome Reply Call step)

-- What the values of a table add up to.
section
variable {κ ν μ : Type} [DecidableEq κ] [AddCommMonoid μ]

def total (measure : ν → μ) (t : Table κ ν) : μ := (t.entries.map fun e => measure e.2).sum

theorem total_insert (measure : ν → μ) {t : Table κ ν} (absent : get t k = none) (v : ν) :
    total measure (t.insert k v) = measure v + total measure t := by
  have outside : k ∉ t := by
    rw [AList.mem_keys,mem_keys]
    rintro ⟨w,there⟩
    rw [absent] at there
    cases there
  rw [total,AList.entries_insert_of_notMem outside,List.map_cons,List.sum_cons]
  rfl

theorem total_erase (measure : ν → μ) {t : Table κ ν} (there : get t k = some v) :
    measure v + total measure (t.erase k) = total measure t := by
  have listed : k ∈ t.entries.keys := AList.mem_keys.mp ((mem_keys t).mpr ⟨v,there⟩)
  obtain ⟨w,front,back,outside,shape,erased⟩ := List.exists_of_kerase listed
  have same : get t k = some w := by
    rw [← entries_get,shape]
    exact List.mem_append_right _ List.mem_cons_self
  obtain rfl : v = w := Option.some.inj (there.symm.trans same)
  have left_ : (t.erase k).entries = front ++ back := erased
  rw [total,total,left_,shape]
  simp only [List.map_append,List.map_cons,List.sum_append,List.sum_cons]
  abel

end

def rows (s : RegistryInner) : Multiset AddressingRecord := total (fun record => (record.addressings : Multiset AddressingRecord)) s.subjects

structure Move where
  row : AddressingRecord
  old : String
  new : String

def Move.transfer (m : Move) : AddressingTransfer := ⟨m.row.claimant,m.row.addressing,m.old,m.new⟩

-- The rows of the sources are what moves, the targets hold what moves to them, and nothing else has changed.
structure Relocated (s after : RegistryInner) (sources targets : List String) (moves : List Move) : Prop where
  conserved : rows after = rows s
  leaving : ∀ id ∈ sources,get after.subjects id = none ∧ ∃ record,get s.subjects id = some record ∧
    record.addressings.Perm ((moves.filter fun m => m.old = id).map (·.row))
  landed : ∀ id ∈ targets,get s.subjects id = none ∧ ∃ record,get after.subjects id = some record ∧
    record.addressings.Perm ((moves.filter fun m => m.new = id).map (·.row))
  between : ∀ m ∈ moves,m.old ∈ sources ∧ m.new ∈ targets
  resolves : ∀ m ∈ moves,get after.addressings m.row.addressing = some m.new
  untouched : ∀ id,id ∉ sources → id ∉ targets → get after.subjects id = get s.subjects id
  unmoved : ∀ a,(∀ m ∈ moves,m.row.addressing ≠ a) → get after.addressings a = get s.addressings a

def MergeConserves (s : RegistryInner) (sourceA sourceB : String) (result : Reply MergeAliasesOutcome × RegistryInner) : Prop :=
  match result.1 with
  | .ok outcome => ∃ moves,Relocated s result.2 [sourceA,sourceB] [outcome.newId] moves ∧
      outcome.addressingTransfers.Perm (moves.map Move.transfer)
  | .refused _ => result.2 = s
  | .panicked _ => False

def SplitConserves (s : RegistryInner) (sourceId : String) (groups : List (List ExternalAddressing))
    (result : Reply SplitSubjectOutcome × RegistryInner) : Prop :=
  match result.1 with
  | .ok outcome => ∃ moves,Relocated s result.2 [sourceId] outcome.newIds moves ∧
      outcome.addressingTransfers.Perm (moves.map Move.transfer) ∧ outcome.newIds.length = groups.length ∧
      ∀ m ∈ moves,∃ group,(group,m.new) ∈ groups.zip outcome.newIds ∧ m.row.addressing ∈ group
  | .refused _ => result.2 = s
  | .panicked _ => False

variable {uuid : Nat → String} {s t after : RegistryInner} {bare : SubjectRegistry.RegistryInner} {source recordA recordB : SubjectRecord}
  {sourceId sourceA sourceB : String} {pairs : List (List ExternalAddressing × String)} {placed : List (List AddressingRecord × String)}

def departing (records : List AddressingRecord) (old new : String) : List Move := records.map fun r => ⟨r,old,new⟩

@[simp] theorem departing_rows (records : List AddressingRecord) (old new : String) : (departing records old new).map (·.row) = records := by
  simp [departing,Function.comp_def]

@[simp] theorem departing_transfers (records : List AddressingRecord) (old new : String) :
    (departing records old new).map Move.transfer = transfers records old new := by
  simp [departing,transfers,Move.transfer,Function.comp_def]

theorem departing_old (records : List AddressingRecord) (old new id : String) :
    (departing records old new).filter (fun m => m.old = id) = if old = id then departing records old new else [] := by
  split
  · rename_i same
    exact List.filter_eq_self.mpr (by simp [departing,same])
  · rename_i other
    exact List.filter_eq_nil_iff.mpr (by simp [departing,other])

theorem departing_new (records : List AddressingRecord) (old new id : String) :
    (departing records old new).filter (fun m => m.new = id) = if new = id then departing records old new else [] := by
  split
  · rename_i same
    exact List.filter_eq_self.mpr (by simp [departing,same])
  · rename_i other
    exact List.filter_eq_nil_iff.mpr (by simp [departing,other])

theorem mem_departing {records : List AddressingRecord} {old new : String} {m : Move} (member : m ∈ departing records old new) :
    m.row ∈ records ∧ m.old = old ∧ m.new = new := by
  obtain ⟨r,inside,rfl⟩ := List.mem_map.mp member
  exact ⟨inside,rfl,rfl⟩

theorem merged_rows (unminted : get s.subjects (uuid s.drawn) = none) (atA : get s.subjects sourceA = some recordA)
    (atB : get s.subjects sourceB = some recordB) (apart : sourceA ≠ sourceB) :
    rows (merged uuid s sourceA sourceB recordA recordB) = rows s := by
  have absent : get ((s.subjects.erase sourceA).erase sourceB) (uuid s.drawn) = none := by
    simp only [get_erase,unminted,ite_self]
  have stillB : get (s.subjects.erase sourceA) sourceB = some recordB := by
    rw [get_erase,if_neg apart.symm,atB]
  have withoutA := total_erase (fun r : SubjectRecord => (r.addressings : Multiset AddressingRecord)) atA
  have withoutB := total_erase (fun r : SubjectRecord => (r.addressings : Multiset AddressingRecord)) stillB
  simp only [rows,merged]
  rw [total_insert _ absent,← withoutA,← withoutB,← Multiset.coe_add,add_assoc]

theorem merged_relocated (unminted : get s.subjects (uuid s.drawn) = none) (atA : get s.subjects sourceA = some recordA)
    (atB : get s.subjects sourceB = some recordB) (apart : sourceA ≠ sourceB)
    (subjects : after.subjects = (merged uuid s sourceA sourceB recordA recordB).subjects)
    (addressings : after.addressings = (merged uuid s sourceA sourceB recordA recordB).addressings) :
    Relocated s after [sourceA,sourceB] [uuid s.drawn]
      (departing recordA.addressings sourceA (uuid s.drawn) ++ departing recordB.addressings sourceB (uuid s.drawn)) := by
  have notA : sourceA ≠ uuid s.drawn := by
    rintro rfl
    rw [unminted] at atA
    cases atA
  have notB : sourceB ≠ uuid s.drawn := by
    rintro rfl
    rw [unminted] at atB
    cases atB
  have moving : ∀ m ∈ departing recordA.addressings sourceA (uuid s.drawn) ++ departing recordB.addressings sourceB (uuid s.drawn),
      m.row ∈ recordA.addressings ++ recordB.addressings ∧ m.old ∈ [sourceA,sourceB] ∧ m.new = uuid s.drawn := by
    intro m member
    rcases List.mem_append.mp member with first | second
    · obtain ⟨row,old,new⟩ := mem_departing first
      exact ⟨List.mem_append_left _ row,by rw [old]; exact List.mem_cons_self,new⟩
    · obtain ⟨row,old,new⟩ := mem_departing second
      exact ⟨List.mem_append_right _ row,by rw [old]; exact List.mem_cons_of_mem _ List.mem_cons_self,new⟩
  refine ⟨?_,?_,?_,?_,?_,?_,?_⟩
  · have same : rows after = rows (merged uuid s sourceA sourceB recordA recordB) := by rw [rows,subjects]; rfl
    exact same.trans (merged_rows unminted atA atB apart)
  · intro id member
    rw [subjects]
    rcases List.mem_cons.mp member with rfl | second
    · refine ⟨by simp [merged,notA],recordA,atA,?_⟩
      rw [List.filter_append,departing_old,departing_old,if_pos rfl,if_neg apart.symm,List.append_nil,departing_rows]
    · obtain rfl := List.mem_singleton.mp second
      refine ⟨by simp [merged,notB],recordB,atB,?_⟩
      rw [List.filter_append,departing_old,departing_old,if_neg apart,if_pos rfl,List.nil_append,departing_rows]
  · intro id member
    rw [List.mem_singleton.mp member,subjects]
    refine ⟨unminted,⟨uuid s.drawn,recordA.subjectType,recordA.addressings ++ recordB.addressings⟩,by simp [merged],?_⟩
    rw [List.filter_append,departing_new,departing_new,if_pos rfl,if_pos rfl,List.map_append,departing_rows,departing_rows]
  · intro m member
    obtain ⟨_,old,new⟩ := moving m member
    exact ⟨old,by rw [new]; exact List.mem_cons_self⟩
  · intro m member
    obtain ⟨row,_,new⟩ := moving m member
    rw [addressings,new]
    simp only [merged,get_insertAll]
    exact if_pos (List.mem_map_of_mem row)
  · intro id outside elsewhere
    rw [List.mem_cons,List.mem_singleton,not_or] at outside
    rw [subjects]
    simp [merged,outside.1,outside.2,List.mem_singleton.not.mp elsewhere]
  · intro a kept
    rw [addressings]
    simp only [merged,get_insertAll]
    refine if_neg fun named => ?_
    obtain ⟨r,inside,same⟩ := List.mem_map.mp named
    rcases List.mem_append.mp inside with first | second
    · exact kept ⟨r,sourceA,uuid s.drawn⟩ (List.mem_append_left _ (List.mem_map.mpr ⟨r,first,rfl⟩)) same
    · exact kept ⟨r,sourceB,uuid s.drawn⟩ (List.mem_append_right _ (List.mem_map.mpr ⟨r,second,rfl⟩)) same

theorem aliasesTryInsert_frame {key : String} {record : SubjectRegistry.AliasRecord} (put : aliasesTryInsert s key record = some after) :
    after.subjects = s.subjects ∧ after.addressings = s.addressings := by
  unfold aliasesTryInsert at put
  split at put
  · cases put
  · cases put
    exact ⟨rfl,rfl⟩

theorem mergeAliases_conserves (unminted : get s.subjects (uuid s.drawn) = none)
    (calm : (mergeAliases uuid s sourceA sourceB admin reason).1.panics = false) :
    MergeConserves s sourceA sourceB (mergeAliases uuid s sourceA sourceB admin reason) := by
  unfold mergeAliases at calm ⊢
  by_cases same : sourceA = sourceB
  · rw [if_pos same]
    rfl
  · rw [if_neg same] at calm ⊢
    cases atA : get s.subjects sourceA with
    | none => rfl
    | some recordA =>
      cases atB : get s.subjects sourceB with
      | none => rfl
      | some recordB =>
        simp only [atA,atB] at calm ⊢
        by_cases typed : recordA.subjectType ≠ recordB.subjectType
        · rw [if_pos typed]
          rfl
        · rw [if_neg typed] at calm ⊢
          cases putA : aliasesTryInsert (merged uuid s sourceA sourceB recordA recordB) sourceA
              ⟨sourceA,[uuid s.drawn],.merged,admin,reason⟩ with
          | none =>
            rw [putA] at calm
            cases calm
          | some first =>
            rw [putA] at calm
            cases putB : aliasesTryInsert first sourceB ⟨sourceB,[uuid s.drawn],.merged,admin,reason⟩ with
            | none =>
              simp only [putB] at calm
              cases calm
            | some second =>
              obtain ⟨subjectsA,addressingsA⟩ := aliasesTryInsert_frame putA
              obtain ⟨subjectsB,addressingsB⟩ := aliasesTryInsert_frame putB
              have relocated := fun claims => @merged_relocated uuid s {second with claims := claims} recordA recordB sourceA sourceB
                unminted atA atB same (subjectsB.trans subjectsA) (addressingsB.trans addressingsA)
              simp only [putB]
              refine ⟨_,relocated _,?_⟩
              rw [List.map_append,departing_transfers,departing_transfers]

def placeAll (source : SubjectRecord) (s : RegistryInner) (placed : List (List AddressingRecord × String)) : RegistryInner :=
  placed.foldl (fun s p => placeGroup s source p.2 p.1) s

theorem placeGroups_placed {done moves : List AddressingTransfer} (run : placeGroups source sourceId s pairs done = (some moves,t)) :
    ∃ placed,List.Forall₂ (fun pair p => pair.1.mapM (originalRecord source) = some p.1 ∧ pair.2 = p.2) pairs placed ∧
      t = placeAll source s placed ∧ moves = done ++ placed.flatMap fun p => transfers p.1 sourceId p.2 := by
  induction pairs generalizing s done with
  | nil =>
    cases run
    exact ⟨[],.nil,rfl,by simp⟩
  | cons pair rest ih =>
    obtain ⟨group,newId⟩ := pair
    unfold placeGroups at run
    cases found : group.mapM (originalRecord source) with
    | none =>
      rw [found] at run
      cases run
    | some records =>
      rw [found] at run
      obtain ⟨placed,each,rfl,rfl⟩ := ih run
      exact ⟨(records,newId)::placed,.cons ⟨found,rfl⟩ each,rfl,by simp⟩

theorem placeAll_subjects (source : SubjectRecord) (placed : List (List AddressingRecord × String)) (ids : (placed.map Prod.snd).Nodup) (s : RegistryInner) :
    (∀ id,id ∉ placed.map Prod.snd → get (placeAll source s placed).subjects id = get s.subjects id) ∧
      ∀ p ∈ placed,get (placeAll source s placed).subjects p.2 = some ⟨p.2,source.subjectType,p.1⟩ := by
  induction placed generalizing s with
  | nil => exact ⟨fun _ _ => rfl,fun _ member => by cases member⟩
  | cons p rest ih =>
    rw [List.map_cons,List.nodup_cons] at ids
    obtain ⟨others,made⟩ := ih ids.2 (placeGroup s source p.2 p.1)
    constructor
    · intro id outside
      rw [List.map_cons,List.mem_cons,not_or] at outside
      exact (others id outside.2).trans (by simp [placeGroup,outside.1])
    · intro q member
      rcases List.mem_cons.mp member with rfl | later
      · exact (others q.2 ids.1).trans (by simp [placeGroup])
      · exact made q later

theorem placeAll_rows (placed : List (List AddressingRecord × String)) (ids : (placed.map Prod.snd).Nodup) (s : RegistryInner)
    (absent : ∀ p ∈ placed,get s.subjects p.2 = none) :
    rows (placeAll source s placed) = ((placed.flatMap Prod.fst : List AddressingRecord) : Multiset AddressingRecord) + rows s := by
  induction placed generalizing s with
  | nil => exact (zero_add (rows s)).symm
  | cons p rest ih =>
    rw [List.map_cons,List.nodup_cons] at ids
    have first : rows (placeGroup s source p.2 p.1) = (p.1 : Multiset AddressingRecord) + rows s :=
      total_insert _ (absent p List.mem_cons_self) _
    have still : ∀ q ∈ rest,get (placeGroup s source p.2 p.1).subjects q.2 = none := by
      intro q member
      have other : q.2 ≠ p.2 := fun same => ids.1 (same ▸ List.mem_map_of_mem member)
      simp [placeGroup,other,absent q (List.mem_cons_of_mem _ member)]
    have later := ih ids.2 (placeGroup s source p.2 p.1) still
    rw [first] at later
    rw [List.flatMap_cons,← Multiset.coe_add,add_comm (p.1 : Multiset AddressingRecord),add_assoc]
    exact later

theorem placeAll_addressings (source : SubjectRecord) (placed : List (List AddressingRecord × String))
    (apart : ((placed.flatMap Prod.fst).map AddressingRecord.addressing).Nodup) (s : RegistryInner) :
    (∀ a,a ∉ (placed.flatMap Prod.fst).map AddressingRecord.addressing → get (placeAll source s placed).addressings a = get s.addressings a) ∧
      ∀ p ∈ placed,∀ r ∈ p.1,get (placeAll source s placed).addressings r.addressing = some p.2 := by
  induction placed generalizing s with
  | nil => exact ⟨fun _ _ => rfl,fun _ member => by cases member⟩
  | cons p rest ih =>
    rw [List.flatMap_cons,List.map_append,List.nodup_append] at apart
    obtain ⟨others,made⟩ := ih apart.2.1 (placeGroup s source p.2 p.1)
    constructor
    · intro a outside
      rw [List.flatMap_cons,List.map_append,List.mem_append,not_or] at outside
      refine (others a outside.2).trans ?_
      simp only [placeGroup,get_insertAll]
      exact if_neg outside.1
    · intro q member r inside
      rcases List.mem_cons.mp member with rfl | later
      · have listed := List.mem_map_of_mem (f := AddressingRecord.addressing) inside
        refine (others r.addressing fun again => apart.2.2 _ listed _ again rfl).trans ?_
        simp only [placeGroup,get_insertAll]
        exact if_pos listed
      · exact made q later r inside

theorem originalRecord_parts {a : ExternalAddressing} {r : AddressingRecord} (found : originalRecord source a = some r) :
    r ∈ source.addressings ∧ r.addressing = a := by
  unfold originalRecord at found
  exact ⟨List.mem_reverse.mp (List.mem_of_find?_eq_some found),by simpa using List.find?_some found⟩

theorem groupRecords_parts {group : List ExternalAddressing} {records : List AddressingRecord}
    (found : group.mapM (originalRecord source) = some records) :
    records.map AddressingRecord.addressing = group ∧ ∀ r ∈ records,r ∈ source.addressings := by
  induction group generalizing records with
  | nil =>
    cases found
    exact ⟨rfl,fun _ member => by cases member⟩
  | cons a rest ih =>
    rw [List.mapM_cons] at found
    simp only [Option.bind_eq_bind,Option.bind_eq_some_iff,Option.pure_def,Option.some.injEq] at found
    obtain ⟨r,first,tail,others,rfl⟩ := found
    obtain ⟨member,named⟩ := originalRecord_parts first
    obtain ⟨names,members⟩ := ih others
    exact ⟨by rw [List.map_cons,named,names],List.forall_mem_cons.mpr ⟨member,members⟩⟩

def Made (source : SubjectRecord) : List (List ExternalAddressing × String) → List (List AddressingRecord × String) → Prop :=
  List.Forall₂ fun pair p => pair.1.mapM (originalRecord source) = some p.1 ∧ pair.2 = p.2

theorem made_parts (made : Made source pairs placed) :
    placed.map Prod.snd = pairs.map Prod.snd ∧ (placed.flatMap Prod.fst).map AddressingRecord.addressing = (pairs.map Prod.fst).flatten ∧
      (∀ r ∈ placed.flatMap Prod.fst,r ∈ source.addressings) ∧
      ∀ p ∈ placed,∃ group,(group,p.2) ∈ pairs ∧ ∀ r ∈ p.1,r.addressing ∈ group := by
  induction made with
  | nil => exact ⟨rfl,rfl,fun _ member => (by cases member),fun _ member => (by cases member)⟩
  | @cons pair p pairs placed first _ ih =>
    obtain ⟨found,same⟩ := first
    obtain ⟨ids,names,members,cells⟩ := ih
    obtain ⟨named,inside⟩ := groupRecords_parts found
    refine ⟨by rw [List.map_cons,List.map_cons,ids,same],?_,?_,?_⟩
    · rw [List.flatMap_cons,List.map_append,List.map_cons,List.flatten_cons,named,names]
    · intro r member
      rw [List.flatMap_cons] at member
      rcases List.mem_append.mp member with here | later
      · exact inside r here
      · exact members r later
    · intro q member
      rcases List.mem_cons.mp member with rfl | later
      · refine ⟨pair.1,by rw [← same]; exact List.mem_cons_self,fun r listed => ?_⟩
        rw [← named]
        exact List.mem_map_of_mem listed
      · obtain ⟨group,pair_,listed⟩ := cells q later
        exact ⟨group,List.mem_cons_of_mem _ pair_,listed⟩

theorem made_all (made : Made source pairs placed) (apart : (pairs.map Prod.fst).flatten.Nodup)
    (covers : ∀ a,a ∈ (pairs.map Prod.fst).flatten ↔ a ∈ source.listed) :
    (placed.flatMap Prod.fst).Perm source.addressings ↔ source.listed.Nodup := by
  obtain ⟨_,names,members,_⟩ := made_parts made
  constructor
  · intro all
    have listed := all.map AddressingRecord.addressing
    rw [names] at listed
    exact listed.nodup_iff.mp apart
  · intro once
    have distinct : (placed.flatMap Prod.fst).Nodup := List.Nodup.of_map AddressingRecord.addressing (names.symm ▸ apart)
    refine (List.perm_ext_iff_of_nodup distinct (List.Nodup.of_map AddressingRecord.addressing once)).mpr fun r => ⟨members r,fun member => ?_⟩
    have listed : r.addressing ∈ (placed.flatMap Prod.fst).map AddressingRecord.addressing := by
      rw [names,covers]
      exact List.mem_map_of_mem member
    obtain ⟨other,inside,same⟩ := List.mem_map.mp listed
    have equal : other = r := List.inj_on_of_nodup_map once (members other inside) member same
    exact equal ▸ inside

def movesOf (placed : List (List AddressingRecord × String)) (sourceId : String) : List Move :=
  placed.flatMap fun p => departing p.1 sourceId p.2

theorem movesOf_rows (placed : List (List AddressingRecord × String)) (sourceId : String) :
    ((movesOf placed sourceId).filter fun m => m.old = sourceId).map (·.row) = placed.flatMap Prod.fst := by
  induction placed with
  | nil => rfl
  | cons p rest ih =>
    rw [movesOf,List.flatMap_cons,List.filter_append,departing_old,if_pos rfl,List.map_append,departing_rows,List.flatMap_cons,← ih]
    rfl

theorem movesOf_new (ids : (placed.map Prod.snd).Nodup) (member : p ∈ placed) (sourceId : String) :
    (movesOf placed sourceId).filter (fun m => m.new = p.2) = departing p.1 sourceId p.2 := by
  induction placed with
  | nil => cases member
  | cons first rest ih =>
    rw [List.map_cons,List.nodup_cons] at ids
    rw [movesOf,List.flatMap_cons,List.filter_append,departing_new,← movesOf]
    rcases List.mem_cons.mp member with rfl | later
    · have none_ : (movesOf rest sourceId).filter (fun m => m.new = p.2) = [] := by
        rw [List.filter_eq_nil_iff]
        intro m inside
        obtain ⟨q,behind,here⟩ := List.mem_flatMap.mp inside
        obtain ⟨_,_,new⟩ := mem_departing here
        have other : q.2 ≠ p.2 := fun same => ids.1 (same ▸ List.mem_map_of_mem behind)
        simp [new,other]
      rw [if_pos rfl,none_,List.append_nil]
    · have other : first.2 ≠ p.2 := fun same => ids.1 (same ▸ List.mem_map_of_mem later)
      rw [if_neg other,List.nil_append]
      exact ih ids.2 later

theorem split_relocated (made : Made source pairs placed) (there : get s.subjects sourceId = some source)
    (ids : (pairs.map Prod.snd).Nodup) (absent : ∀ id ∈ pairs.map Prod.snd,get s.subjects id = none)
    (apart : (pairs.map Prod.fst).flatten.Nodup) (covers : ∀ a,a ∈ (pairs.map Prod.fst).flatten ↔ a ∈ source.listed)
    (subjects : after.subjects = (placeAll source s placed).subjects.erase sourceId)
    (addressings : after.addressings = (placeAll source s placed).addressings) :
    (rows after = rows s ↔ source.listed.Nodup) ∧
      (source.listed.Nodup → Relocated s after [sourceId] (pairs.map Prod.snd) (movesOf placed sourceId)) := by
  obtain ⟨seconds,names,members,cells⟩ := made_parts made
  have live : sourceId ∉ pairs.map Prod.snd := by
    intro member
    have none_ := absent sourceId member
    rw [there] at none_
    cases none_
  have idsPlaced : (placed.map Prod.snd).Nodup := seconds ▸ ids
  have absentPlaced : ∀ p ∈ placed,get s.subjects p.2 = none := fun p member =>
    absent p.2 (seconds ▸ List.mem_map_of_mem member)
  obtain ⟨others,made_⟩ := placeAll_subjects source placed idsPlaced s
  obtain ⟨unmoved,moved⟩ := placeAll_addressings source placed (names.symm ▸ apart) s
  have sum : (source.addressings : Multiset AddressingRecord) + rows after =
      ((placed.flatMap Prod.fst : List AddressingRecord) : Multiset AddressingRecord) + rows s := by
    have still : get (placeAll source s placed).subjects sourceId = some source := (others sourceId (seconds ▸ live)).trans there
    have without := total_erase (fun r : SubjectRecord => (r.addressings : Multiset AddressingRecord)) still
    rw [← placeAll_rows placed idsPlaced s absentPlaced,rows,subjects]
    exact without
  have conserved : rows after = rows s ↔ source.listed.Nodup := by
    rw [← made_all made apart covers,← Multiset.coe_eq_coe]
    constructor
    · intro same
      rw [same] at sum
      exact (add_right_cancel sum).symm
    · intro all
      rw [all] at sum
      exact add_left_cancel sum
  refine ⟨conserved,fun once => ⟨conserved.mpr once,?_,?_,?_,?_,?_,?_⟩⟩
  · intro id member
    rw [List.mem_singleton.mp member,subjects,movesOf_rows]
    exact ⟨by rw [get_erase,if_pos rfl],source,there,((made_all made apart covers).mpr once).symm⟩
  · intro id member
    rw [← seconds] at member
    obtain ⟨p,inside,rfl⟩ := List.mem_map.mp member
    have other : p.2 ≠ sourceId := by
      rintro same
      rw [← same,← seconds] at live
      exact live member
    rw [subjects,get_erase,if_neg other,movesOf_new idsPlaced inside,departing_rows]
    exact ⟨absentPlaced p inside,_,made_ p inside,.refl _⟩
  · intro m member
    obtain ⟨p,inside,here⟩ := List.mem_flatMap.mp member
    obtain ⟨_,old,new⟩ := mem_departing here
    rw [old,new,← seconds]
    exact ⟨List.mem_cons_self,List.mem_map_of_mem inside⟩
  · intro m member
    obtain ⟨p,inside,here⟩ := List.mem_flatMap.mp member
    obtain ⟨row,_,new⟩ := mem_departing here
    rw [addressings,new]
    exact moved p inside m.row row
  · intro id outside elsewhere
    rw [subjects,get_erase,if_neg (List.mem_singleton.not.mp outside)]
    exact others id (seconds ▸ elsewhere)
  · intro a kept
    rw [addressings]
    refine unmoved a fun named => ?_
    obtain ⟨r,inside,same⟩ := List.mem_map.mp named
    obtain ⟨p,among,listed⟩ := List.mem_flatMap.mp inside
    exact kept ⟨r,sourceId,p.2⟩ (List.mem_flatMap.mpr ⟨p,among,List.mem_map.mpr ⟨r,listed,rfl⟩⟩) same

theorem Relocated.before {n : Nat} (relocated : Relocated {s with drawn := n} after sources targets moves) :
    Relocated s after sources targets moves :=
  ⟨relocated.conserved,relocated.leaving,relocated.landed,relocated.between,relocated.resolves,relocated.untouched,relocated.unmoved⟩

theorem movesOf_transfers (placed : List (List AddressingRecord × String)) (sourceId : String) :
    (movesOf placed sourceId).map Move.transfer = placed.flatMap fun p => transfers p.1 sourceId p.2 := by
  simp only [movesOf,List.map_flatMap,departing_transfers]

theorem accepted_conserves {n : Nat} {ids : List String} (made : Made source (groups.zip ids) placed)
    (seconds : (groups.zip ids).map Prod.snd = ids) (length : ids.length = groups.length)
    (split_ : (rows after = rows {s with drawn := n} ↔ source.listed.Nodup) ∧ (source.listed.Nodup →
      Relocated {s with drawn := n} after [sourceId] ((groups.zip ids).map Prod.snd) (movesOf placed sourceId))) :
    SplitConserves s sourceId groups (.ok ⟨ids,[] ++ placed.flatMap fun p => transfers p.1 sourceId p.2⟩,after) ↔ source.listed.Nodup := by
  obtain ⟨_,_,_,cells⟩ := made_parts made
  constructor
  · intro conserves
    obtain ⟨_,relocated,_⟩ := conserves
    exact split_.1.mp relocated.conserved
  · intro once
    have relocated := (split_.2 once).before
    rw [seconds] at relocated
    refine ⟨movesOf placed sourceId,relocated,?_,length,fun m member => ?_⟩
    · rw [movesOf_transfers]
      exact .refl _
    · obtain ⟨p,inside,here⟩ := List.mem_flatMap.mp member
      obtain ⟨row,_,new⟩ := mem_departing here
      obtain ⟨group,pair,listed⟩ := cells p inside
      exact ⟨group,by rw [new]; exact pair,listed m.row row⟩

theorem splitSubject_conserves (fresh : Function.Injective uuid) (unminted : ∀ i,get s.subjects (uuid (s.drawn+i)) = none)
    (calm : (splitSubject uuid s sourceId groups admin reason).1.panics = false) :
    SplitConserves s sourceId groups (splitSubject uuid s sourceId groups admin reason) ↔
      ∀ source,get s.subjects sourceId = some source → Divides source.undated groups → source.listed.Nodup := by
  have idsLength : (newIds uuid s groups.length).length = groups.length := by simp [newIds]
  have firsts : (groups.zip (newIds uuid s groups.length)).map Prod.fst = groups := List.map_fst_zip (by rw [idsLength])
  have seconds : (groups.zip (newIds uuid s groups.length)).map Prod.snd = newIds uuid s groups.length :=
    List.map_snd_zip (by rw [idsLength])
  have ids : (newIds uuid s groups.length).Nodup := by
    refine List.Nodup.map (fun i j same => ?_) List.nodup_range
    have := fresh same
    omega
  unfold splitSubject at calm ⊢
  cases there : get s.subjects sourceId with
  | none => exact iff_of_true rfl fun source here => (by cases here)
  | some source =>
    simp only [there] at calm ⊢
    by_cases few : groups.length < 2
    · rw [if_pos few]
      refine iff_of_true rfl fun other here divides => ?_
      exact absurd divides.several (by omega)
    · rw [if_neg few] at calm ⊢
      cases hollow : groups.findIdx? List.isEmpty with
      | some i =>
        refine iff_of_true rfl fun other here divides => ?_
        obtain ⟨inside,empty,_⟩ := List.findIdx?_eq_some_iff_getElem.mp hollow
        exact absurd (List.isEmpty_iff.mp empty) (divides.filled _ (List.getElem_mem inside))
      | none =>
        simp only [hollow] at calm ⊢
        by_cases apart : groups.flatten.Nodup
        · rw [if_neg (not_not.mpr apart)] at calm ⊢
          by_cases cover : groups.flatten.toFinset = source.listed.toFinset
          · rw [if_neg (not_not.mpr cover)] at calm ⊢
            have covers : ∀ a,a ∈ groups.flatten ↔ a ∈ source.listed := by
              intro a
              rw [← List.mem_toFinset,cover,List.mem_toFinset]
            have filled : ∀ group ∈ groups,group ≠ [] := by
              intro group member empty
              have shown := List.findIdx?_eq_none_iff.mp hollow group member
              rw [empty] at shown
              cases shown
            have divides : Divides source.undated groups := ⟨by omega,filled,apart,by simpa using covers⟩
            have needed : (∀ other,some source = some other → Divides other.undated groups → other.listed.Nodup) ↔ source.listed.Nodup := by
              constructor
              · exact fun each => each source rfl divides
              · intro once other same _
                cases same
                exact once
            rw [needed]
            cases run : placeGroups source sourceId {s with drawn := s.drawn+groups.length} (groups.zip (newIds uuid s groups.length)) [] with
            | mk placed t =>
              rw [run] at calm
              cases placed with
              | none => cases calm
              | some moves =>
                dsimp only at calm ⊢
                cases put : aliasesTryInsert {t with subjects := t.subjects.erase sourceId,states := t.states.erase sourceId} sourceId
                    ⟨sourceId,newIds uuid s groups.length,.split,admin,reason⟩ with
                | none =>
                  rw [put] at calm
                  cases calm
                | some recorded =>
                  obtain ⟨subjects,addressings⟩ := aliasesTryInsert_frame put
                  obtain ⟨placed,made,rfl,rfl⟩ := placeGroups_placed run
                  have absent : ∀ id ∈ newIds uuid s groups.length,get s.subjects id = none := by
                    intro id member
                    obtain ⟨i,_,rfl⟩ := List.mem_map.mp member
                    exact unminted i
                  have split_ := fun claims => @split_relocated {s with drawn := s.drawn+groups.length} {recorded with claims := claims}
                    source sourceId _ placed made there (by rw [seconds]; exact ids) (by rw [seconds]; exact absent)
                    (by rw [firsts]; exact apart) (by rw [firsts]; exact covers) subjects addressings
                  exact accepted_conserves made seconds idsLength (split_ _)
          · rw [if_pos cover]
            refine iff_of_true rfl fun other here divides => ?_
            cases here
            refine absurd (Finset.ext fun a => ?_) cover
            rw [List.mem_toFinset,List.mem_toFinset,divides.covers,undated_listed]
        · rw [if_pos apart]
          exact iff_of_true rfl fun other here divides => absurd divides.apart apart

theorem dates_unminted (fresh : Function.Injective uuid) (sound : Sound uuid bare) (dates : Dates s bare) (i : Nat) :
    get s.subjects (uuid (s.drawn+i)) = none := by
  have dead : get bare.subjects (uuid (bare.drawn+i)) = none := fresh_dead fresh sound
  rw [dates.subjects,dates.drawn] at dead
  exact Option.map_eq_none_iff.mp dead

-- Over every dating of the rows of every registry that can be reached.
theorem rows_conserved (fresh : Function.Injective uuid) (calls : List Call) (s : RegistryInner)
    (dates : Dates s (run (step uuid) .new calls).inner) :
    (∀ sourceA sourceB admin reason,MergeConserves s sourceA sourceB (mergeAliases uuid s sourceA sourceB admin reason)) ∧
      ∀ sourceId groups admin reason,SplitConserves s sourceId groups (splitSubject uuid s sourceId groups admin reason) ↔
        ∀ source,get s.subjects sourceId = some source → Divides source.undated groups → source.listed.Nodup := by
  have sound : Sound uuid (run (step uuid) .new calls).inner := (run_held fresh ⟨rfl,new_sound⟩ calls).2
  have unminted := dates_unminted fresh sound dates
  constructor
  · intro sourceA sourceB admin reason
    refine mergeAliases_conserves (unminted 0) ?_
    rw [(mergeAliases_dates dates sourceA sourceB admin reason).1]
    exact (mergeAliases_keeps fresh sound).calm
  · intro sourceId groups admin reason
    refine splitSubject_conserves fresh unminted ?_
    rw [(splitSubject_dates dates sourceId groups admin reason).1]
    exact (splitSubject_keeps fresh sound).calm

def local_ (value : String) : ExternalAddressing := ⟨"mpd",value⟩

def announcedTrack (addressings : List ExternalAddressing) : List Call := [.announce ⟨"track",addressings,[],none⟩ "mpd"]

def datedTrack (addressings : List ExternalAddressing) : RegistryInner :=
  ⟨(∅ : Table String SubjectRecord).insert "u" ⟨"u","track",addressings.map fun a => ⟨a,"mpd",1700000000⟩⟩,
    insertAll ∅ addressings "u",[],∅,∅,1⟩

theorem datedTrack_dates {addressings : List ExternalAddressing} (reached : (run (step strokes) .new (announcedTrack addressings)).inner =
      ⟨(∅ : Table String SubjectRegistry.SubjectRecord).insert "u" ⟨"u","track",SubjectRegistry.announced addressings "mpd"⟩,
        insertAll ∅ addressings "u",[],∅,∅,1⟩) :
    Dates (datedTrack addressings) (run (step strokes) .new (announcedTrack addressings)).inner := by
  rw [reached]
  refine ⟨fun id => ?_,rfl,rfl,rfl,rfl,rfl⟩
  simp only [datedTrack,get_insert,get_empty]
  split
  · simp [SubjectRecord.undated,AddressingRecord.undated,SubjectRegistry.announced,Function.comp_def]
  · rfl

theorem track_split_conserves :
    SplitConserves (datedTrack [local_ "a",local_ "b"]) "u" [[local_ "a"],[local_ "b"]]
      (splitSubject strokes (datedTrack [local_ "a",local_ "b"]) "u" [[local_ "a"],[local_ "b"]] "admin" none) := by
  refine ((rows_conserved strokes_fresh (announcedTrack [local_ "a",local_ "b"]) (datedTrack [local_ "a",local_ "b"])
    (datedTrack_dates rfl)).2 "u" [[local_ "a"],[local_ "b"]] "admin" none).mpr ?_
  intro source there _
  have shape : get (datedTrack [local_ "a",local_ "b"]).subjects "u" =
    some ⟨"u","track",[⟨local_ "a","mpd",1700000000⟩,⟨local_ "b","mpd",1700000000⟩]⟩ := rfl
  cases Option.some.inj (shape.symm.trans there)
  decide

-- An announcement that names an addressing twice, and a split of what it made: one of the two rows is gone.
theorem repeated_row_lost : ¬ ∀ (calls : List Call) (s : RegistryInner),Dates s (run (step strokes) .new calls).inner →
    ∀ sourceId groups admin reason,SplitConserves s sourceId groups (splitSubject strokes s sourceId groups admin reason) := by
  intro always
  have conserves := always (announcedTrack [local_ "a",local_ "a",local_ "b"]) (datedTrack [local_ "a",local_ "a",local_ "b"])
    (datedTrack_dates rfl) "u" [[local_ "a"],[local_ "b"]] "admin" none
  obtain ⟨moves,relocated,_⟩ := conserves
  have sizes := congrArg Multiset.card relocated.conserved
  revert sizes
  decide

end EvoCore.RowConservation
