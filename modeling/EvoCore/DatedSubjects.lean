import EvoCore.SubjectAliases

namespace EvoCore.DatedSubjects
open Tables
open SubjectRegistry (ExternalAddressing ClaimRecord AliasRecord Reply AddressingTransfer MergeAliasesOutcome SplitSubjectOutcome
  appendOnlyPanic)

-- The registry with the instants at which its addressings were added, and the two operations that move
-- rows from one subject to another.
structure AddressingRecord where
  addressing : ExternalAddressing
  claimant : String
  addedAt : Nat
deriving DecidableEq,Repr

structure SubjectRecord where
  id : String
  subjectType : String
  addressings : List AddressingRecord
deriving DecidableEq,Repr

def SubjectRecord.listed (r : SubjectRecord) : List ExternalAddressing := r.addressings.map AddressingRecord.addressing

structure RegistryInner where
  subjects : Table String SubjectRecord
  addressings : Table ExternalAddressing String
  claims : List ClaimRecord
  aliases : Table String AliasRecord
  states : Table String String
  drawn : Nat

def aliasesTryInsert (inner : RegistryInner) (key : String) (record : AliasRecord) : Option RegistryInner :=
  match get inner.aliases key with
  | some _ => none
  | none => some {inner with aliases := inner.aliases.insert key record}

def transfers (records : List AddressingRecord) (oldId newId : String) : List AddressingTransfer :=
  records.map fun r => ⟨r.claimant,r.addressing,oldId,newId⟩

section
variable (uuid : Nat → String)

def merged (inner : RegistryInner) (sourceA sourceB : String) (recordA recordB : SubjectRecord) : RegistryInner :=
  let newId := uuid inner.drawn
  let addressings := recordA.addressings ++ recordB.addressings
  {inner with
    subjects := ((inner.subjects.erase sourceA).erase sourceB).insert newId ⟨newId,recordA.subjectType,addressings⟩
    states := (inner.states.erase sourceA).erase sourceB
    addressings := insertAll inner.addressings (addressings.map AddressingRecord.addressing) newId
    drawn := inner.drawn+1}

def mergeAliases (inner : RegistryInner) (sourceA sourceB adminPlugin : String) (reason : Option String) :
    Reply MergeAliasesOutcome × RegistryInner :=
  if sourceA = sourceB then
    (.refused (.dispatch ("merge_aliases: cannot merge subject " ++ sourceA ++ " with itself")),inner)
  else
    match get inner.subjects sourceA with
    | none => (.refused (.dispatch ("merge_aliases: source subject " ++ sourceA ++ " does not exist")),inner)
    | some recordA =>
      match get inner.subjects sourceB with
      | none => (.refused (.dispatch ("merge_aliases: source subject " ++ sourceB ++ " does not exist")),inner)
      | some recordB =>
        if recordA.subjectType ≠ recordB.subjectType then
          (.refused (.dispatch ("merge_aliases: cannot merge across subject types (" ++ recordA.subjectType ++
            " != " ++ recordB.subjectType ++ ")")),inner)
        else
          let newId := uuid inner.drawn
          let moved := merged uuid inner sourceA sourceB recordA recordB
          match aliasesTryInsert moved sourceA ⟨sourceA,[newId],.merged,adminPlugin,reason⟩ with
          | none => (appendOnlyPanic sourceA "merge source_a",moved)
          | some first =>
            match aliasesTryInsert first sourceB ⟨sourceB,[newId],.merged,adminPlugin,reason⟩ with
            | none => (appendOnlyPanic sourceB "merge source_b",first)
            | some second =>
              (.ok ⟨newId,transfers recordA.addressings sourceA newId ++ transfers recordB.addressings sourceB newId⟩,
                {second with claims := second.claims ++ [⟨.merged [sourceA,sourceB] newId,adminPlugin,reason⟩]})

-- original_records: of two records for one addressing the map keeps the later.
def originalRecord (source : SubjectRecord) (a : ExternalAddressing) : Option AddressingRecord :=
  source.addressings.reverse.find? fun r => r.addressing = a

def placeGroup (inner : RegistryInner) (source : SubjectRecord) (newId : String) (records : List AddressingRecord) :
    RegistryInner :=
  {inner with
    subjects := inner.subjects.insert newId ⟨newId,source.subjectType,records⟩
    addressings := insertAll inner.addressings (records.map AddressingRecord.addressing) newId}

def placeGroups (source : SubjectRecord) (sourceId : String) : RegistryInner →
    List (List ExternalAddressing × String) → List AddressingTransfer → Option (List AddressingTransfer) × RegistryInner
  | inner,[],done => (some done,inner)
  | inner,(group,newId)::rest,done =>
    match group.mapM (originalRecord source) with
    | none => (none,inner)
    | some records =>
      placeGroups source sourceId (placeGroup inner source newId records) rest (done ++ transfers records sourceId newId)

def newIds (inner : RegistryInner) (count : Nat) : List String :=
  (List.range count).map fun i => uuid (inner.drawn+i)

def splitSubject (inner : RegistryInner) (sourceId : String) (groups : List (List ExternalAddressing))
    (adminPlugin : String) (reason : Option String) : Reply SplitSubjectOutcome × RegistryInner :=
  match get inner.subjects sourceId with
  | none => (.refused (.dispatch ("split_subject: source subject " ++ sourceId ++ " does not exist")),inner)
  | some source =>
    if groups.length < 2 then
      (.refused (.dispatch ("split_subject: partition must have at least 2 groups, got " ++ toString groups.length)),inner)
    else
      match groups.findIdx? List.isEmpty with
      | some i => (.refused (.dispatch ("split_subject: partition group " ++ toString i ++ " is empty")),inner)
      | none =>
        if ¬groups.flatten.Nodup then
          (.refused (.dispatch "split_subject: an addressing appears in more than one partition group"),inner)
        else if groups.flatten.toFinset ≠ source.listed.toFinset then
          (.refused (.dispatch ("split_subject: partition does not exactly cover the source's addressings " ++
            "(missing or extra)")),inner)
        else
          let ids := newIds uuid inner groups.length
          let minted := {inner with drawn := inner.drawn+groups.length}
          match placeGroups source sourceId minted (groups.zip ids) [] with
          | (none,placed) => (.panicked "validated above: every group addressing is on source",placed)
          | (some moves,placed) =>
            let dropped := {placed with subjects := placed.subjects.erase sourceId,states := placed.states.erase sourceId}
            match aliasesTryInsert dropped sourceId ⟨sourceId,ids,.split,adminPlugin,reason⟩ with
            | none => (appendOnlyPanic sourceId "split source",dropped)
            | some recorded =>
              (.ok ⟨ids,moves⟩,
                {recorded with claims := recorded.claims ++ [⟨.split sourceId ids,adminPlugin,reason⟩]})

end

def AddressingRecord.undated (r : AddressingRecord) : SubjectRegistry.AddressingRecord := ⟨r.addressing,r.claimant⟩
def SubjectRecord.undated (r : SubjectRecord) : SubjectRegistry.SubjectRecord :=
  ⟨r.id,r.subjectType,r.addressings.map AddressingRecord.undated⟩

-- The registry of the other modules, with some dates on its rows.
structure Dates (s : RegistryInner) (bare : SubjectRegistry.RegistryInner) : Prop where
  subjects : ∀ id,get bare.subjects id = (get s.subjects id).map SubjectRecord.undated
  addressings : bare.addressings = s.addressings
  claims : bare.claims = s.claims
  aliases : bare.aliases = s.aliases
  states : bare.states = s.states
  drawn : bare.drawn = s.drawn

variable {uuid : Nat → String} {s t : RegistryInner} {bare : SubjectRegistry.RegistryInner} {source : SubjectRecord}

@[simp] theorem undated_listed (record : SubjectRecord) : record.undated.listed = record.listed := by
  simp [SubjectRegistry.SubjectRecord.listed,SubjectRecord.listed,SubjectRecord.undated,AddressingRecord.undated,Function.comp_def]

@[simp] theorem undated_transfers (records : List AddressingRecord) (oldId newId : String) :
    SubjectRegistry.transfers (records.map AddressingRecord.undated) oldId newId = transfers records oldId newId := by
  simp [SubjectRegistry.transfers,transfers,AddressingRecord.undated,Function.comp_def]

theorem dates_try (dates : Dates s bare) (key : String) (record : AliasRecord) :
    (aliasesTryInsert s key record = none ∧ SubjectRegistry.aliasesTryInsert bare key record = none) ∨
      ∃ after bareAfter,aliasesTryInsert s key record = some after ∧
        SubjectRegistry.aliasesTryInsert bare key record = some bareAfter ∧ Dates after bareAfter := by
  have same := dates.aliases
  unfold aliasesTryInsert SubjectRegistry.aliasesTryInsert
  rw [same]
  cases get s.aliases key with
  | some _ => exact .inl ⟨rfl,rfl⟩
  | none => exact .inr ⟨_,_,rfl,rfl,⟨dates.subjects,dates.addressings,dates.claims,rfl,dates.states,dates.drawn⟩⟩

theorem dates_claim (dates : Dates s bare) (claim : ClaimRecord) :
    Dates {s with claims := s.claims ++ [claim]} {bare with claims := bare.claims ++ [claim]} :=
  ⟨dates.subjects,dates.addressings,congrArg (· ++ [claim]) dates.claims,dates.aliases,dates.states,dates.drawn⟩

theorem merged_dates (dates : Dates s bare) (sourceA sourceB : String) (recordA recordB : SubjectRecord) :
    Dates (merged uuid s sourceA sourceB recordA recordB)
      (SubjectRegistry.merged uuid bare sourceA sourceB recordA.undated recordB.undated) := by
  refine ⟨fun id => ?_,?_,dates.claims,dates.aliases,?_,?_⟩
  · simp only [SubjectRegistry.merged,merged,get_insert,get_erase,dates.subjects,dates.drawn]
    split
    · simp [SubjectRecord.undated]
    · split
      · rfl
      · split
        · rfl
        · rfl
  · have names : (recordA.undated.addressings ++ recordB.undated.addressings).map SubjectRegistry.AddressingRecord.addressing =
        (recordA.addressings ++ recordB.addressings).map AddressingRecord.addressing := by
      simp [SubjectRecord.undated,AddressingRecord.undated,Function.comp_def]
    simp only [SubjectRegistry.merged,merged,names,dates.addressings,dates.drawn]
  · simp only [SubjectRegistry.merged,merged,dates.states]
  · simp only [SubjectRegistry.merged,merged,dates.drawn]

theorem dropped_dates (dates : Dates s bare) (id : String) :
    Dates {s with subjects := s.subjects.erase id,states := s.states.erase id}
      {bare with subjects := bare.subjects.erase id,states := bare.states.erase id} := by
  refine ⟨fun other => ?_,dates.addressings,dates.claims,dates.aliases,?_,dates.drawn⟩
  · simp only [get_erase,dates.subjects]
    split
    · rfl
    · rfl
  · simp only [dates.states]

-- The dates play no part in a merge or in what it replies.
theorem mergeAliases_dates (dates : Dates s bare) (sourceA sourceB admin : String) (reason : Option String) :
    (mergeAliases uuid s sourceA sourceB admin reason).1 = (SubjectRegistry.mergeAliases uuid bare sourceA sourceB admin reason).1 ∧
      Dates (mergeAliases uuid s sourceA sourceB admin reason).2 (SubjectRegistry.mergeAliases uuid bare sourceA sourceB admin reason).2 := by
  unfold mergeAliases SubjectRegistry.mergeAliases
  split
  · exact ⟨rfl,dates⟩
  · simp only [dates.subjects]
    cases atA : get s.subjects sourceA with
    | none => exact ⟨rfl,dates⟩
    | some recordA =>
      cases atB : get s.subjects sourceB with
      | none => exact ⟨rfl,dates⟩
      | some recordB =>
        have types : recordA.undated.subjectType ≠ recordB.undated.subjectType ↔ recordA.subjectType ≠ recordB.subjectType := Iff.rfl
        simp only [Option.map_some,types]
        split
        · exact ⟨rfl,dates⟩
        · have moved := @merged_dates uuid s bare dates sourceA sourceB recordA recordB
          simp only [dates.drawn]
          rcases dates_try moved sourceA ⟨sourceA,[uuid s.drawn],.merged,admin,reason⟩ with ⟨taken,bareTaken⟩ |
            ⟨first,bareFirst,put,barePut,after⟩
          · rw [taken,bareTaken]
            exact ⟨rfl,moved⟩
          · rw [put,barePut]
            dsimp only
            rcases dates_try after sourceB ⟨sourceB,[uuid s.drawn],.merged,admin,reason⟩ with ⟨taken,bareTaken⟩ |
              ⟨second,bareSecond,putB,barePutB,afterB⟩
            · rw [taken,bareTaken]
              exact ⟨rfl,after⟩
            · rw [putB,barePutB]
              have movesA := undated_transfers recordA.addressings sourceA (uuid s.drawn)
              have movesB := undated_transfers recordB.addressings sourceB (uuid s.drawn)
              exact ⟨by rw [SubjectRecord.undated,SubjectRecord.undated,movesA,movesB],dates_claim afterB _⟩

theorem originalRecord_undated (source : SubjectRecord) (a : ExternalAddressing) :
    SubjectRegistry.originalRecord source.undated a = (originalRecord source a).map AddressingRecord.undated := by
  unfold SubjectRegistry.originalRecord originalRecord SubjectRecord.undated
  rw [← List.map_reverse,List.find?_map]
  rfl

theorem groupRecords_undated (source : SubjectRecord) (group : List ExternalAddressing) :
    group.mapM (SubjectRegistry.originalRecord source.undated) =
      (group.mapM (originalRecord source)).map (List.map AddressingRecord.undated) := by
  induction group with
  | nil => rfl
  | cons a rest ih =>
    rw [List.mapM_cons,List.mapM_cons,ih,originalRecord_undated]
    cases originalRecord source a with
    | none => rfl
    | some r =>
      cases rest.mapM (originalRecord source) with
      | none => rfl
      | some records => rfl

theorem placeGroup_dates (dates : Dates s bare) (source : SubjectRecord) (newId : String) (records : List AddressingRecord) :
    Dates (placeGroup s source newId records)
      (SubjectRegistry.placeGroup bare source.undated newId (records.map AddressingRecord.undated)) := by
  refine ⟨fun id => ?_,?_,dates.claims,dates.aliases,dates.states,dates.drawn⟩
  · simp only [SubjectRegistry.placeGroup,placeGroup,get_insert,dates.subjects]
    split
    · rfl
    · rfl
  · have names : (records.map AddressingRecord.undated).map SubjectRegistry.AddressingRecord.addressing =
        records.map AddressingRecord.addressing := by
      simp [AddressingRecord.undated,Function.comp_def]
    simp only [SubjectRegistry.placeGroup,placeGroup,names,dates.addressings]

theorem placeGroups_dates (dates : Dates s bare) (source : SubjectRecord) (sourceId : String)
    (pairs : List (List ExternalAddressing × String)) (done : List AddressingTransfer) :
    (placeGroups source sourceId s pairs done).1 = (SubjectRegistry.placeGroups source.undated sourceId bare pairs done).1 ∧
      Dates (placeGroups source sourceId s pairs done).2 (SubjectRegistry.placeGroups source.undated sourceId bare pairs done).2 := by
  induction pairs generalizing s bare done with
  | nil => exact ⟨rfl,dates⟩
  | cons pair rest ih =>
    obtain ⟨group,newId⟩ := pair
    unfold placeGroups SubjectRegistry.placeGroups
    rw [groupRecords_undated]
    cases group.mapM (originalRecord source) with
    | none => exact ⟨rfl,dates⟩
    | some records =>
      simp only [Option.map_some,undated_transfers]
      exact ih (placeGroup_dates dates source newId records) _

theorem splitSubject_dates (dates : Dates s bare) (sourceId : String) (groups : List (List ExternalAddressing)) (admin : String)
    (reason : Option String) :
    (splitSubject uuid s sourceId groups admin reason).1 = (SubjectRegistry.splitSubject uuid bare sourceId groups admin reason).1 ∧
      Dates (splitSubject uuid s sourceId groups admin reason).2 (SubjectRegistry.splitSubject uuid bare sourceId groups admin reason).2 := by
  unfold splitSubject SubjectRegistry.splitSubject
  simp only [dates.subjects]
  cases get s.subjects sourceId with
  | none => exact ⟨rfl,dates⟩
  | some source =>
    simp only [Option.map_some,undated_listed]
    split
    · exact ⟨rfl,dates⟩
    · cases groups.findIdx? List.isEmpty with
      | some i => exact ⟨rfl,dates⟩
      | none =>
        dsimp only
        split
        · exact ⟨rfl,dates⟩
        · split
          · exact ⟨rfl,dates⟩
          · have ids : SubjectRegistry.newIds uuid bare groups.length = newIds uuid s groups.length := by
              simp only [SubjectRegistry.newIds,newIds,dates.drawn]
            have minted : Dates {s with drawn := s.drawn+groups.length} {bare with drawn := bare.drawn+groups.length} :=
              ⟨dates.subjects,dates.addressings,dates.claims,dates.aliases,dates.states,congrArg (· + groups.length) dates.drawn⟩
            rw [ids]
            obtain ⟨same,placed⟩ := placeGroups_dates minted source sourceId (groups.zip (newIds uuid s groups.length)) []
            cases run : placeGroups source sourceId {s with drawn := s.drawn+groups.length} (groups.zip (newIds uuid s groups.length)) [] with
            | mk moves t =>
              cases bareRun : SubjectRegistry.placeGroups source.undated sourceId {bare with drawn := bare.drawn+groups.length}
                  (groups.zip (newIds uuid s groups.length)) [] with
              | mk bareMoves u =>
                rw [run,bareRun] at same placed
                obtain rfl : moves = bareMoves := same
                cases moves with
                | none => exact ⟨rfl,placed⟩
                | some moves =>
                  have dropped := dropped_dates placed sourceId
                  rcases dates_try dropped sourceId ⟨sourceId,newIds uuid s groups.length,.split,admin,reason⟩ with ⟨taken,bareTaken⟩ |
                    ⟨after,bareAfter,put,barePut,recorded⟩
                  · dsimp only
                    rw [taken,bareTaken]
                    exact ⟨rfl,dropped⟩
                  · dsimp only
                    rw [put,barePut]
                    exact ⟨rfl,dates_claim recorded _⟩

end EvoCore.DatedSubjects
