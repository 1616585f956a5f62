import EvoCore.SubjectRegistry

namespace EvoCore.SubjectAliases
open Tables Runs SubjectRegistry

def Live (s : RegistryInner) (id : String) : Prop := (describe s id).isSome
def Retired (s : RegistryInner) (id : String) : Prop := (describeAlias s id).isSome

-- What holds of every reachable registry, also after an announcement that repeats an addressing.
structure Sound (uuid : Nat → String) (s : RegistryInner) : Prop where
  index : ∀ a id,get s.addressings a = some id → ∃ record,get s.subjects id = some record ∧ a ∈ record.listed
  minted : ∀ k,k < s.drawn → Xor (Live s (uuid k)) (Retired s (uuid k))
  known : ∀ id,Live s id ∨ Retired s id → ∃ k,k < s.drawn ∧ id = uuid k
  states : ∀ id payload,get s.states id = some payload → Live s id
  successors : ∀ id record,get s.aliases id = some record → record.oldId = id ∧
    (record.newIds = [] ↔ record.kind = .tombstone) ∧
    ∀ k,id = uuid k → ∀ new,new ∈ record.newIds → ∃ j,k < j ∧ j < s.drawn ∧ new = uuid j

variable {uuid : Nat → String} {s : RegistryInner} {id : String}

theorem new_sound : Sound uuid .new := by
  refine ⟨?_,?_,?_,?_,?_⟩ <;> simp [RegistryInner.new,Live,Retired,describe,describeAlias]

theorem sound_claims (claims : List ClaimRecord) (sound : Sound uuid s) : Sound uuid {s with claims := claims} :=
  ⟨sound.index,sound.minted,sound.known,sound.states,sound.successors⟩

theorem fresh_dead (fresh : Function.Injective uuid) (sound : Sound uuid s) : describe s (uuid (s.drawn+i)) = none := by
  by_contra there
  obtain ⟨k,below,same⟩ := sound.known _ (.inl (Option.isSome_iff_ne_none.mpr there))
  have := fresh same
  omega

theorem fresh_unaliased (fresh : Function.Injective uuid) (sound : Sound uuid s) :
    describeAlias s (uuid (s.drawn+i)) = none := by
  by_contra there
  obtain ⟨k,below,same⟩ := sound.known _ (.inr (Option.isSome_iff_ne_none.mpr there))
  have := fresh same
  omega

theorem live_unaliased (sound : Sound uuid s) (live : Live s id) : get s.aliases id = none := by
  obtain ⟨k,below,same⟩ := sound.known id (.inl live)
  rw [same] at live
  have apart := sound.minted k below
  simp only [Xor,live,true_and,not_true,and_false,or_false] at apart
  rw [same]
  simpa [Retired,describeAlias] using apart

theorem known_range (sound : Sound uuid s) (known : Live s id ∨ Retired s id) (fresh : Function.Injective uuid) :
    id ≠ uuid (s.drawn+i) := by
  rintro rfl
  rcases known with live | retired
  · simp [Live,fresh_dead fresh sound] at live
  · simp [Retired,fresh_unaliased fresh sound] at retired

theorem states_sound (sound : Sound uuid s) (held : ∀ id payload,get states id = some payload → Live s id) :
    Sound uuid {s with states := states} :=
  ⟨sound.index,sound.minted,sound.known,held,sound.successors⟩

-- One call: some live ids are retired with their records, and the next n ids go live.
structure Turnover (uuid : Nat → String) (s t : RegistryInner) (gone : List String) (n : Nat) : Prop where
  drawn : t.drawn = s.drawn+n
  live : ∀ id,Live t id ↔ (Live s id ∧ id ∉ gone) ∨ ∃ i,i < n ∧ id = uuid (s.drawn+i)
  were : ∀ id,id ∈ gone → Live s id
  kept : ∀ id,id ∉ gone → get t.aliases id = get s.aliases id
  recorded : ∀ id,id ∈ gone → ∃ record,get t.aliases id = some record ∧ record.oldId = id ∧
    (record.newIds = [] ↔ record.kind = .tombstone) ∧ ∀ new,new ∈ record.newIds → ∃ i,i < n ∧ new = uuid (s.drawn+i)

theorem Turnover.quiet (drawn : t.drawn = s.drawn) (live : ∀ id,Live t id ↔ Live s id) (aliases : t.aliases = s.aliases) :
    Turnover uuid s t [] 0 :=
  ⟨drawn,fun id => by simp [live],by simp,fun id _ => by rw [aliases],by simp⟩

theorem Turnover.retired (turn : Turnover uuid s t gone n) : Retired t id ↔ Retired s id ∨ id ∈ gone := by
  by_cases leaves : id ∈ gone
  · obtain ⟨record,there,-⟩ := turn.recorded id leaves
    simp [Retired,describeAlias,there,leaves]
  · simp [Retired,describeAlias,turn.kept id leaves,leaves]

theorem turnover_sound (fresh : Function.Injective uuid) (sound : Sound uuid s) (turn : Turnover uuid s t gone n)
    (index : ∀ a id,get t.addressings a = some id → ∃ record,get t.subjects id = some record ∧ a ∈ record.listed)
    (states : ∀ id payload,get t.states id = some payload → Live t id) : Sound uuid t := by
  refine ⟨index,?_,?_,states,?_⟩
  · intro k below
    rw [turn.drawn] at below
    rw [turn.live,turn.retired]
    by_cases old : k < s.drawn
    · have none_new : ¬∃ i,i < n ∧ uuid k = uuid (s.drawn+i) := by
        rintro ⟨i,-,same⟩
        have := fresh same
        omega
      have apart := sound.minted k old
      by_cases leaves : uuid k ∈ gone
      · have live := turn.were _ leaves
        simp [Xor,leaves,none_new]
      · simpa [leaves,none_new] using apart
    · obtain ⟨i,rfl⟩ : ∃ i,k = s.drawn+i := ⟨k-s.drawn,by omega⟩
      have dead := fresh_dead fresh sound (i := i)
      have unaliased := fresh_unaliased fresh sound (i := i)
      have stays : uuid (s.drawn+i) ∉ gone := fun leaves => by
        have live := turn.were _ leaves
        simp [Live,dead] at live
      have new : ∃ j,j < n ∧ uuid (s.drawn+i) = uuid (s.drawn+j) := ⟨i,by omega,rfl⟩
      simp [Xor,Retired,unaliased,stays,new]
  · intro id there
    rw [turn.live,turn.retired] at there
    rw [turn.drawn]
    have before : Live s id ∨ Retired s id → ∃ k,k < s.drawn+n ∧ id = uuid k := fun known => by
      obtain ⟨k,below,same⟩ := sound.known id known
      exact ⟨k,by omega,same⟩
    rcases there with (⟨live,-⟩ | ⟨i,below,same⟩) | retired | leaves
    · exact before (.inl live)
    · exact ⟨s.drawn+i,by omega,same⟩
    · exact before (.inr retired)
    · exact before (.inl (turn.were id leaves))
  · intro id record aliased
    by_cases leaves : id ∈ gone
    · obtain ⟨written,there,old,shape,targets⟩ := turn.recorded id leaves
      cases Option.some.inj (there.symm.trans aliased)
      refine ⟨old,shape,fun k same new listed => ?_⟩
      obtain ⟨i,below,rfl⟩ := targets new listed
      obtain ⟨j,under,again⟩ := sound.known id (.inl (turn.were id leaves))
      have := fresh (same.symm.trans again)
      exact ⟨s.drawn+i,by omega,by rw [turn.drawn]; omega,rfl⟩
    · rw [turn.kept id leaves] at aliased
      obtain ⟨old,shape,later⟩ := sound.successors id record aliased
      refine ⟨old,shape,fun k same new listed => ?_⟩
      obtain ⟨j,after,below,found⟩ := later k same new listed
      exact ⟨j,after,by rw [turn.drawn]; omega,found⟩

theorem turnover_keeps (sound : Sound uuid s) (turn : Turnover uuid s t gone n)
    (aliased : get s.aliases id = some record) : get t.aliases id = some record := by
  rw [turn.kept id ?_,aliased]
  intro leaves
  have free := live_unaliased sound (turn.were id leaves)
  simp [aliased] at free

structure Keeps (uuid : Nat → String) (s : RegistryInner) (result : Reply α × RegistryInner) : Prop where
  sound : Sound uuid result.2
  turn : ∃ gone n,Turnover uuid s result.2 gone n
  calm : result.1.panics = false

theorem keeps_same (sound : Sound uuid s) (calm : reply.panics = false) : Keeps uuid s ((reply : Reply α),s) :=
  ⟨sound,⟨[],0,.quiet rfl (fun _ => Iff.rfl) rfl⟩,calm⟩

theorem created_keeps (announcement : SubjectAnnouncement) (claimant : String) (fresh : Function.Injective uuid) (sound : Sound uuid s) :
    Turnover uuid s (created uuid s announcement claimant) [] 1 ∧ Sound uuid (created uuid s announcement claimant) := by
  have dead := fresh_dead fresh sound (i := 0)
  simp only [describe,Nat.add_zero] at dead
  have turn : Turnover uuid s (created uuid s announcement claimant) [] 1 := by
    refine ⟨rfl,?_,by simp,fun id _ => rfl,by simp⟩
    intro id
    by_cases same : id = uuid s.drawn <;> simp [Live,describe,created,same]
  refine ⟨turn,turnover_sound fresh sound turn ?_ ?_⟩
  · intro a id indexed
    simp only [created,get_insertAll,get_insert] at indexed ⊢
    split at indexed
    · cases Option.some.inj indexed
      refine ⟨_,if_pos rfl,?_⟩
      simpa [SubjectRecord.listed,announced]
    · obtain ⟨record,live,listed⟩ := sound.index a id indexed
      have other : id ≠ uuid s.drawn := by
        rintro rfl
        simp [dead] at live
      exact ⟨record,by rw [if_neg other,live],listed⟩
  · intro id payload stored
    rw [turn.live]
    exact .inl ⟨sound.states id payload stored,by simp⟩

theorem extended_keeps (added : List ExternalAddressing) (claimant : String) (fresh : Function.Injective uuid) (sound : Sound uuid s) (live : Live s target) :
    Turnover uuid s (extended s target added claimant) [] 0 ∧ Sound uuid (extended s target added claimant) := by
  obtain ⟨record,there⟩ := Option.isSome_iff_exists.mp live
  simp only [describe] at there
  have turn : Turnover uuid s (extended s target added claimant) [] 0 := by
    refine .quiet rfl (fun id => ?_) rfl
    by_cases same : id = target <;> simp [Live,describe,extended,same]
  refine ⟨turn,turnover_sound fresh sound turn ?_ ?_⟩
  · intro a id indexed
    simp only [extended,get_insertAll,get_modify] at indexed ⊢
    split at indexed
    · rename_i new
      cases Option.some.inj indexed
      refine ⟨_,by rw [if_pos rfl,there]; rfl,?_⟩
      simp [SubjectRecord.listed,announced,new]
    · obtain ⟨old,here,listed⟩ := sound.index a id indexed
      by_cases same : id = target
      · subst same
        refine ⟨_,by rw [if_pos rfl,here]; rfl,?_⟩
        simp only [SubjectRecord.listed,List.map_append,List.mem_append] at listed ⊢
        exact .inl listed
      · exact ⟨old,by rw [if_neg same,here],listed⟩
  · intro id payload stored
    rw [turn.live]
    exact .inl ⟨sound.states id payload stored,by simp⟩

theorem claimIdx_parts (found : claimIdx record addressing claimant = some idx) :
    ∃ r,record.addressings[idx]? = some r ∧ r.addressing = addressing ∧ r.claimant = claimant := by
  unfold claimIdx at found
  rw [List.findIdx?_eq_some_iff_getElem] at found
  obtain ⟨below,holds,-⟩ := found
  simp only [decide_eq_true_eq] at holds
  exact ⟨_,List.getElem?_eq_getElem below,holds⟩

theorem listed_erase (found : claimIdx record addressing claimant = some idx) (listed : a ∈ record.listed)
    (other : a ≠ addressing) : ∃ r,r ∈ record.addressings.eraseIdx idx ∧ r.addressing = a := by
  obtain ⟨taken,there,named,-⟩ := claimIdx_parts found
  obtain ⟨r,member,rfl⟩ := List.mem_map.mp listed
  refine ⟨r,?_,rfl⟩
  rw [List.mem_eraseIdx_iff_getElem?]
  obtain ⟨i,here⟩ := List.mem_iff_getElem?.mp member
  refine ⟨i,?_,here⟩
  rintro rfl
  cases Option.some.inj (there.symm.trans here)
  exact other named

theorem released_keeps (fresh : Function.Injective uuid) (sound : Sound uuid s) (there : get s.subjects id = some record)
    (found : claimIdx record addressing claimant = some idx) :
    Turnover uuid s (released s id record idx addressing) [] 0 ∧ Sound uuid (released s id record idx addressing) := by
  have turn : Turnover uuid s (released s id record idx addressing) [] 0 := by
    refine .quiet rfl (fun other => ?_) rfl
    by_cases same : other = id <;> simp [Live,describe,released,same,there]
  refine ⟨turn,turnover_sound fresh sound turn ?_ ?_⟩
  · intro a owner indexed
    simp only [released,get_erase,get_insert] at indexed ⊢
    split at indexed
    · cases indexed
    · rename_i other
      obtain ⟨old,here,listed⟩ := sound.index a owner indexed
      by_cases same : owner = id
      · subst same
        cases Option.some.inj (there.symm.trans here)
        obtain ⟨r,member,named⟩ := listed_erase found listed other
        exact ⟨_,if_pos rfl,List.mem_map.mpr ⟨r,member,named⟩⟩
      · exact ⟨old,by rw [if_neg same,here],listed⟩
  · intro other payload stored
    rw [turn.live]
    exact .inl ⟨sound.states other payload stored,by simp⟩

theorem forgotten_keeps (actor : String) (reason : Option String) (fresh : Function.Injective uuid) (sound : Sound uuid s)
    (there : get s.subjects id = some record)
    (empty : record.addressings = []) :
    Turnover uuid s (forgotten s id actor reason) [id] 0 ∧ Sound uuid (forgotten s id actor reason) := by
  have live : Live s id := by simp [Live,describe,there]
  have free := live_unaliased sound live
  have shape : forgotten s id actor reason = {s with
      subjects := s.subjects.erase id,states := s.states.erase id
      aliases := s.aliases.insert id ⟨id,[],.tombstone,actor,reason⟩} := by
    simp [forgotten,aliasesTryInsert,free]
  rw [shape]
  have turn : Turnover uuid s {s with
      subjects := s.subjects.erase id,states := s.states.erase id
      aliases := s.aliases.insert id ⟨id,[],.tombstone,actor,reason⟩} [id] 0 := by
    refine ⟨rfl,?_,by simpa using live,?_,by simp⟩
    · intro other
      by_cases same : other = id <;> simp [Live,describe,same]
    · intro other apart
      simp [List.mem_singleton.not.mp apart]
  refine ⟨turn,turnover_sound fresh sound turn ?_ ?_⟩
  · intro a owner indexed
    obtain ⟨old,here,listed⟩ := sound.index a owner indexed
    have other : owner ≠ id := by
      rintro rfl
      cases Option.some.inj (there.symm.trans here)
      simp [SubjectRecord.listed,empty] at listed
    exact ⟨old,by simp [other,here],listed⟩
  · intro other payload stored
    simp only [get_erase] at stored
    split at stored
    · cases stored
    · rename_i apart
      have was := sound.states other payload stored
      simpa [Live,describe,apart] using was

theorem Turnover.after (first : Turnover uuid s t [] 0) (second : Turnover uuid t u gone n) : Turnover uuid s u gone n := by
  have live : ∀ id,Live t id ↔ Live s id := fun id => by simp [first.live]
  have drawn : t.drawn = s.drawn := first.drawn
  refine ⟨second.drawn.trans (by rw [drawn]),?_,?_,?_,?_⟩
  · intro id
    rw [second.live,live,drawn]
  · intro id leaves
    exact (live id).mp (second.were id leaves)
  · intro id stays
    rw [second.kept id stays,first.kept id (by simp)]
  · simpa only [drawn] using second.recorded

theorem Turnover.before (first : Turnover uuid s t gone n) (drawn : u.drawn = t.drawn) (live : ∀ id,Live u id ↔ Live t id)
    (aliases : u.aliases = t.aliases) : Turnover uuid s u gone n := by
  refine ⟨drawn.trans first.drawn,?_,first.were,?_,?_⟩
  · intro id
    rw [live,first.live]
  · intro id stays
    rw [aliases,first.kept id stays]
  · simpa only [aliases] using first.recorded

theorem distinctIds_live (addressings : List ExternalAddressing) (sound : Sound uuid s) (member : id ∈ distinctIds s addressings) : Live s id := by
  simp only [distinctIds,List.mem_dedup,List.mem_filterMap] at member
  obtain ⟨a,-,indexed⟩ := member
  obtain ⟨record,there,-⟩ := sound.index a id indexed
  simp [Live,describe,there]

theorem captureState_sound (sound : Sound uuid s)
    (live : ∀ id,outcome = .created id ∨ outcome = .updated id → Live s id) :
    Sound uuid (captureState s outcome state) := by
  have stored : ∀ id payload,Live s id → Sound uuid {s with states := s.states.insert id payload} := by
    intro id payload there
    apply states_sound sound
    intro other held found
    simp only [get_insert] at found
    split at found
    · rename_i same
      exact same ▸ there
    · exact sound.states other held found
  unfold captureState
  split
  · exact stored _ _ (live _ (.inl rfl))
  · exact stored _ _ (live _ (.inr rfl))
  · exact sound

theorem captureState_frame (s : RegistryInner) (outcome : AnnounceOutcome) (state : Option String) :
    (captureState s outcome state).drawn = s.drawn ∧
    (captureState s outcome state).subjects = s.subjects ∧ (captureState s outcome state).aliases = s.aliases ∧
    (captureState s outcome state).addressings = s.addressings := by
  unfold captureState
  split <;> exact ⟨rfl,rfl,rfl,rfl⟩

theorem captureState_keeps (outcome : AnnounceOutcome) (state : Option String) (turn : Turnover uuid s t gone n)
    (sound : Sound uuid t) (live : ∀ id,outcome = .created id ∨ outcome = .updated id → Live t id) :
    Turnover uuid s (captureState t outcome state) gone n ∧ Sound uuid (captureState t outcome state) := by
  have frame := captureState_frame t outcome state
  refine ⟨turn.before frame.1 (fun id => ?_) frame.2.2.1,captureState_sound sound live⟩
  simp only [Live,describe,frame.2.1]

-- Every accepted announcement: one id, no id, or several. Besides the outcome only the claim
-- log and the state of the subject change.
theorem announce_cases (uuid : Nat → String) (s : RegistryInner) (announcement : SubjectAnnouncement) (claimant : String) :
    (∃ error,announce uuid s announcement claimant = (.refused error,s) ∧
        (announcement.subjectType = "" ∨ announcement.addressings = [])) ∨
      (announcement.subjectType ≠ "" ∧ announcement.addressings ≠ []) ∧ ∃ claims,
        ((distinctIds s announcement.addressings = [] ∧ announce uuid s announcement claimant =
          (.ok (.created (uuid s.drawn)),captureState (created uuid {s with claims := claims} announcement claimant)
            (.created (uuid s.drawn)) announcement.state)) ∨
        (∃ target,distinctIds s announcement.addressings = [target] ∧ unresolved s announcement.addressings = [] ∧
          announce uuid s announcement claimant = (.ok (.noChange target),{s with claims := claims})) ∨
        (∃ target,distinctIds s announcement.addressings = [target] ∧ unresolved s announcement.addressings ≠ [] ∧
          announce uuid s announcement claimant = (.ok (.updated target),
            captureState (extended {s with claims := claims} target (unresolved s announcement.addressings) claimant)
              (.updated target) announcement.state)) ∨
        ∃ ids,distinctIds s announcement.addressings = ids ∧ 2 ≤ ids.length ∧
          announce uuid s announcement claimant = (.ok (.conflict ids),{s with claims := claims})) := by
  by_cases untyped : announcement.subjectType = ""
  · exact .inl ⟨.catalogue "subject announcement has empty subject_type",by simp [announce,untyped],.inl untyped⟩
  · by_cases bare : announcement.addressings = []
    · exact .inl ⟨.catalogue "subject announcement has no addressings",by simp [announce,untyped,bare],.inr bare⟩
    · refine .inr ⟨⟨untyped,bare⟩,?_⟩
      have same_ids : ∀ claims,distinctIds {s with claims := claims} announcement.addressings =
          distinctIds s announcement.addressings := fun _ => rfl
      have same_rest : ∀ claims,unresolved {s with claims := claims} announcement.addressings =
          unresolved s announcement.addressings := fun _ => rfl
      cases ids : distinctIds s announcement.addressings with
      | nil =>
        refine ⟨s.claims ++ announceClaims announcement claimant,.inl ⟨rfl,?_⟩⟩
        simp [announce,untyped,bare,announceOutcome,same_ids,ids]
      | cons target rest =>
        cases rest with
        | nil =>
          cases added : unresolved s announcement.addressings with
          | nil =>
            refine ⟨s.claims ++ announceClaims announcement claimant,.inr (.inl ⟨target,rfl,rfl,?_⟩)⟩
            simp [announce,untyped,bare,announceOutcome,same_ids,ids,same_rest,added,captureState]
          | cons a more =>
            refine ⟨s.claims ++ announceClaims announcement claimant,.inr (.inr (.inl ⟨target,rfl,by simp,?_⟩))⟩
            simp [announce,untyped,bare,announceOutcome,same_ids,ids,same_rest,added]
        | cons other more =>
          refine ⟨s.claims ++ announceClaims announcement claimant ++ [conflictClaim announcement (target::other::more) claimant],
            .inr (.inr (.inr ⟨_,rfl,by simp,?_⟩))⟩
          simp [announce,untyped,bare,announceOutcome,same_ids,ids,captureState]

theorem announce_keeps (fresh : Function.Injective uuid) (sound : Sound uuid s) :
    Keeps uuid s (announce uuid s announcement claimant) := by
  rcases announce_cases uuid s announcement claimant with ⟨error,same,-⟩ | ⟨-,claims,⟨-,result⟩ | ⟨target,-,-,result⟩ |
    ⟨target,only,-,result⟩ | ⟨ids,-,-,result⟩⟩
  · rw [same]
    exact keeps_same sound rfl
  · rw [result]
    obtain ⟨turn,after⟩ := created_keeps announcement claimant fresh (sound_claims claims sound)
    have quiet : Turnover uuid s {s with claims := claims} [] 0 := .quiet rfl (fun _ => Iff.rfl) rfl
    obtain ⟨next,last⟩ := captureState_keeps (.created (uuid s.drawn)) announcement.state (quiet.after turn) after
      fun id made => by
        simp only [AnnounceOutcome.created.injEq,reduceCtorEq,or_false] at made
        simp [Live,describe,created,made]
    exact ⟨last,⟨_,_,next⟩,rfl⟩
  · rw [result]
    exact ⟨sound_claims claims sound,⟨[],0,.quiet rfl (fun _ => Iff.rfl) rfl⟩,rfl⟩
  · rw [result]
    have live : Live s target := distinctIds_live announcement.addressings sound (by simp [only])
    obtain ⟨turn,after⟩ := extended_keeps (unresolved s announcement.addressings) claimant fresh (sound_claims claims sound) live
    have quiet : Turnover uuid s {s with claims := claims} [] 0 := .quiet rfl (fun _ => Iff.rfl) rfl
    obtain ⟨next,last⟩ := captureState_keeps (.updated target) announcement.state (quiet.after turn) after
      fun id made => by
        simp only [AnnounceOutcome.updated.injEq,reduceCtorEq,false_or] at made
        rw [← made,turn.live]
        exact .inl ⟨live,by simp⟩
    exact ⟨last,⟨_,_,next⟩,rfl⟩
  · rw [result]
    exact ⟨sound_claims claims sound,⟨[],0,.quiet rfl (fun _ => Iff.rfl) rfl⟩,rfl⟩

theorem updateState_keeps (sound : Sound uuid s) : Keeps uuid s (updateState s id state) := by
  unfold updateState
  cases there : get s.subjects id with
  | none => exact keeps_same sound rfl
  | some record =>
    cases state with
    | none =>
      refine ⟨states_sound sound ?_,⟨[],0,.quiet rfl (fun _ => Iff.rfl) rfl⟩,rfl⟩
      intro other payload stored
      simp only [get_erase] at stored
      split at stored
      · cases stored
      · exact sound.states other payload stored
    | some new =>
      refine ⟨states_sound sound ?_,⟨[],0,.quiet rfl (fun _ => Iff.rfl) rfl⟩,rfl⟩
      intro other payload stored
      simp only [get_insert] at stored
      split at stored
      · rename_i same
        simp [Live,describe,same,there]
      · exact sound.states other payload stored

theorem forgets_keeps (actor : String) (reason : Option String) (fresh : Function.Injective uuid) (sound : Sound uuid s)
    (there : get s.subjects id = some record)
    (found : claimIdx record addressing claimant = some idx) (empty : record.addressings.eraseIdx idx = []) :
    Turnover uuid s (forgotten (released s id record idx addressing) id actor reason) [id] 0 ∧
      Sound uuid (forgotten (released s id record idx addressing) id actor reason) := by
  obtain ⟨turn,after⟩ := released_keeps fresh sound there found
  have left : get (released s id record idx addressing).subjects id =
      some {record with addressings := record.addressings.eraseIdx idx} := by simp [released]
  obtain ⟨next,last⟩ := forgotten_keeps actor reason fresh after left empty
  exact ⟨turn.after next,last⟩

structure Removal (s : RegistryInner) (addressing : ExternalAddressing) (claimant id : String) (record : SubjectRecord)
    (idx : Nat) : Prop where
  indexed : get s.addressings addressing = some id
  there : get s.subjects id = some record
  found : claimIdx record addressing claimant = some idx

theorem retract_cases (s : RegistryInner) (addressing : ExternalAddressing) (claimant : String) (reason : Option String) :
    (∃ error,retract s addressing claimant reason = (.refused error,s)) ∨
      ∃ id record idx,Removal s addressing claimant id record idx ∧
        ((record.addressings.eraseIdx idx = [] ∧ retract s addressing claimant reason =
            (.ok (.subjectForgotten id record.subjectType),
              forgotten (released s id record idx addressing) id claimant reason)) ∨
          record.addressings.eraseIdx idx ≠ [] ∧ retract s addressing claimant reason =
            (.ok .addressingRemoved,released s id record idx addressing)) := by
  cases indexed : get s.addressings addressing with
  | none => exact .inl (by simp [retract,indexed])
  | some id =>
    cases there : get s.subjects id with
    | none => exact .inl (by simp [retract,indexed,there])
    | some record =>
      cases found : claimIdx record addressing claimant with
      | none => exact .inl (by simp [retract,indexed,there,found])
      | some idx =>
        refine .inr ⟨id,record,idx,⟨indexed,there,found⟩,?_⟩
        by_cases empty : record.addressings.eraseIdx idx = []
        · exact .inl ⟨empty,by simp [retract,indexed,there,found,empty]⟩
        · exact .inr ⟨empty,by simp [retract,indexed,there,found,empty]⟩

theorem forcedRetractAddressing_cases (s : RegistryInner) (addressing : ExternalAddressing) (target admin : String)
    (reason : Option String) :
    forcedRetractAddressing s addressing target admin reason = (.ok .notFound,s) ∨
      ∃ id record idx,Removal s addressing target id record idx ∧
        ((record.addressings.eraseIdx idx = [] ∧ forcedRetractAddressing s addressing target admin reason =
            (.ok (.subjectForgotten id record.subjectType),
              forgotten (released s id record idx addressing) id admin reason)) ∨
          record.addressings.eraseIdx idx ≠ [] ∧ forcedRetractAddressing s addressing target admin reason =
            (.ok (.addressingRemoved id),released s id record idx addressing)) := by
  cases indexed : get s.addressings addressing with
  | none => exact .inl (by simp [forcedRetractAddressing,indexed])
  | some id =>
    cases there : get s.subjects id with
    | none => exact .inl (by simp [forcedRetractAddressing,indexed,there])
    | some record =>
      cases found : claimIdx record addressing target with
      | none => exact .inl (by simp [forcedRetractAddressing,indexed,there,found])
      | some idx =>
        refine .inr ⟨id,record,idx,⟨indexed,there,found⟩,?_⟩
        by_cases empty : record.addressings.eraseIdx idx = []
        · exact .inl ⟨empty,by simp [forcedRetractAddressing,indexed,there,found,empty]⟩
        · exact .inr ⟨empty,by simp [forcedRetractAddressing,indexed,there,found,empty]⟩

theorem retract_keeps (fresh : Function.Injective uuid) (sound : Sound uuid s) :
    Keeps uuid s (retract s addressing claimant reason) := by
  rcases retract_cases s addressing claimant reason with ⟨error,same⟩ |
    ⟨id,record,idx,removal,⟨empty,result⟩ | ⟨-,result⟩⟩
  · rw [same]
    exact keeps_same sound rfl
  · rw [result]
    obtain ⟨turn,after⟩ := forgets_keeps claimant reason fresh sound removal.there removal.found empty
    exact ⟨after,⟨_,_,turn⟩,rfl⟩
  · rw [result]
    obtain ⟨turn,after⟩ := released_keeps fresh sound removal.there removal.found
    exact ⟨after,⟨_,_,turn⟩,rfl⟩

theorem forcedRetractAddressing_keeps (fresh : Function.Injective uuid) (sound : Sound uuid s) :
    Keeps uuid s (forcedRetractAddressing s addressing target admin reason) := by
  rcases forcedRetractAddressing_cases s addressing target admin reason with same |
    ⟨id,record,idx,removal,⟨empty,result⟩ | ⟨-,result⟩⟩
  · rw [same]
    exact keeps_same sound rfl
  · rw [result]
    obtain ⟨turn,after⟩ := forgets_keeps admin reason fresh sound removal.there removal.found empty
    exact ⟨after,⟨_,_,turn⟩,rfl⟩
  · rw [result]
    obtain ⟨turn,after⟩ := released_keeps fresh sound removal.there removal.found
    exact ⟨after,⟨_,_,turn⟩,rfl⟩

def mergedInto (uuid : Nat → String) (s : RegistryInner) (sourceA sourceB : String) (recordA recordB : SubjectRecord)
    (admin : String) (reason : Option String) : RegistryInner :=
  {merged uuid s sourceA sourceB recordA recordB with
    aliases := (s.aliases.insert sourceA ⟨sourceA,[uuid s.drawn],.merged,admin,reason⟩).insert sourceB
      ⟨sourceB,[uuid s.drawn],.merged,admin,reason⟩
    claims := s.claims ++ [⟨.merged [sourceA,sourceB] (uuid s.drawn),admin,reason⟩]}

theorem mergedInto_keeps (admin : String) (reason : Option String) (fresh : Function.Injective uuid) (sound : Sound uuid s)
    (atA : get s.subjects sourceA = some recordA) (atB : get s.subjects sourceB = some recordB) :
    Turnover uuid s (mergedInto uuid s sourceA sourceB recordA recordB admin reason) [sourceA,sourceB] 1 ∧
      Sound uuid (mergedInto uuid s sourceA sourceB recordA recordB admin reason) := by
  have dead := fresh_dead fresh sound (i := 0)
  simp only [describe,Nat.add_zero] at dead
  have turn : Turnover uuid s (mergedInto uuid s sourceA sourceB recordA recordB admin reason) [sourceA,sourceB] 1 := by
    refine ⟨rfl,?_,?_,?_,?_⟩
    · intro id
      by_cases new : id = uuid s.drawn
      · simp [Live,describe,mergedInto,merged,new]
      · by_cases isA : id = sourceA <;> by_cases isB : id = sourceB <;>
          simp [Live,describe,mergedInto,merged,new,isA,isB]
    · simp [Live,describe,atA,atB]
    · intro id stays
      simp only [List.mem_cons,List.not_mem_nil,or_false,not_or] at stays
      simp [mergedInto,stays]
    · intro id leaves
      simp only [List.mem_cons,List.not_mem_nil,or_false] at leaves
      have written : get (mergedInto uuid s sourceA sourceB recordA recordB admin reason).aliases id =
          some ⟨id,[uuid s.drawn],.merged,admin,reason⟩ := by
        rcases leaves with rfl | rfl
        · by_cases same : id = sourceB <;> simp [mergedInto,same]
        · simp [mergedInto]
      exact ⟨_,written,by simp⟩
  refine ⟨turn,turnover_sound fresh sound turn ?_ ?_⟩
  · intro a id indexed
    simp only [mergedInto,merged,get_insertAll,get_insert,get_erase] at indexed ⊢
    split at indexed
    · rename_i moved
      cases Option.some.inj indexed
      exact ⟨_,if_pos rfl,moved⟩
    · rename_i other
      obtain ⟨record,there,listed⟩ := sound.index a id indexed
      have notNew : id ≠ uuid s.drawn := by
        rintro rfl
        simp [dead] at there
      simp only [List.map_append,List.mem_append,not_or] at other
      have notA : id ≠ sourceA := by
        rintro rfl
        cases Option.some.inj (atA.symm.trans there)
        exact other.1 listed
      have notB : id ≠ sourceB := by
        rintro rfl
        cases Option.some.inj (atB.symm.trans there)
        exact other.2 listed
      exact ⟨record,by simp [notNew,notA,notB,there],listed⟩
  · intro id payload stored
    simp only [mergedInto,merged,get_erase] at stored
    split at stored
    · cases stored
    · split at stored
      · cases stored
      · rename_i notB notA
        rw [turn.live]
        exact .inl ⟨sound.states id payload stored,by simp [notA,notB]⟩

theorem mergeAliases_exact (admin : String) (reason : Option String) (sound : Sound uuid s) (atA : get s.subjects sourceA = some recordA)
    (atB : get s.subjects sourceB = some recordB) (apart : sourceA ≠ sourceB)
    (typed : recordA.subjectType = recordB.subjectType) :
    mergeAliases uuid s sourceA sourceB admin reason = (.ok ⟨uuid s.drawn,
      transfers recordA.addressings sourceA (uuid s.drawn) ++ transfers recordB.addressings sourceB (uuid s.drawn)⟩,
      mergedInto uuid s sourceA sourceB recordA recordB admin reason) := by
  have freeA : get s.aliases sourceA = none := live_unaliased sound (by simp [Live,describe,atA])
  have freeB : get s.aliases sourceB = none := live_unaliased sound (by simp [Live,describe,atB])
  simp [mergeAliases,apart,atA,atB,typed,aliasesTryInsert,merged,mergedInto,freeA,freeB,apart.symm]

theorem mergeAliases_cases (sourceA sourceB admin : String) (reason : Option String) (sound : Sound uuid s) :
    (∃ error,mergeAliases uuid s sourceA sourceB admin reason = (.refused error,s)) ∨
      ∃ recordA recordB,get s.subjects sourceA = some recordA ∧ get s.subjects sourceB = some recordB ∧
        sourceA ≠ sourceB ∧ recordA.subjectType = recordB.subjectType ∧
        mergeAliases uuid s sourceA sourceB admin reason = (.ok ⟨uuid s.drawn,
          transfers recordA.addressings sourceA (uuid s.drawn) ++ transfers recordB.addressings sourceB (uuid s.drawn)⟩,
          mergedInto uuid s sourceA sourceB recordA recordB admin reason) := by
  by_cases same : sourceA = sourceB
  · exact .inl (by simp [mergeAliases,same])
  · cases atA : get s.subjects sourceA with
    | none => exact .inl (by simp [mergeAliases,same,atA])
    | some recordA =>
      cases atB : get s.subjects sourceB with
      | none => exact .inl (by simp [mergeAliases,same,atA,atB])
      | some recordB =>
        by_cases typed : recordA.subjectType = recordB.subjectType
        · exact .inr ⟨recordA,recordB,rfl,rfl,same,typed,mergeAliases_exact admin reason sound atA atB same typed⟩
        · exact .inl (by simp [mergeAliases,same,atA,atB,typed])

theorem mergeAliases_keeps (fresh : Function.Injective uuid) (sound : Sound uuid s) :
    Keeps uuid s (mergeAliases uuid s sourceA sourceB admin reason) := by
  rcases mergeAliases_cases sourceA sourceB admin reason sound with ⟨error,same⟩ | ⟨recordA,recordB,atA,atB,-,-,result⟩
  · rw [same]
    exact keeps_same sound rfl
  · rw [result]
    obtain ⟨turn,after⟩ := mergedInto_keeps admin reason fresh sound atA atB
    exact ⟨after,⟨_,_,turn⟩,rfl⟩

section
variable {source : SubjectRecord} {group : List ExternalAddressing} {records : List AddressingRecord}
  {pairs : List (List ExternalAddressing × String)}

theorem originalRecord_parts (found : originalRecord source a = some r) : r ∈ source.addressings ∧ r.addressing = a := by
  unfold originalRecord at found
  have member := List.mem_of_find?_eq_some found
  have named := List.find?_some found
  exact ⟨by simpa using member,by simpa using named⟩

theorem originalRecord_some (listed : a ∈ source.listed) : ∃ r,originalRecord source a = some r := by
  obtain ⟨r,member,named⟩ := List.mem_map.mp listed
  unfold originalRecord
  rw [← Option.isSome_iff_exists,List.find?_isSome]
  exact ⟨r,by simpa using member,by simpa using named⟩

theorem groupRecords_some (listed : ∀ a,a ∈ group → a ∈ source.listed) :
    ∃ records,group.mapM (originalRecord source) = some records := by
  induction group with
  | nil => exact ⟨[],rfl⟩
  | cons a rest ih =>
    obtain ⟨r,found⟩ := originalRecord_some (listed a (by simp))
    obtain ⟨records,others⟩ := ih fun b member => listed b (by simp [member])
    exact ⟨r::records,by simp [List.mapM_cons,found,others]⟩

theorem groupRecords_parts (found : group.mapM (originalRecord source) = some records) :
    records.map AddressingRecord.addressing = group ∧ ∀ r,r ∈ records → r ∈ source.addressings := by
  induction group generalizing records with
  | nil =>
    cases Option.some.inj found
    simp
  | cons a rest ih =>
    rw [List.mapM_cons] at found
    cases first : originalRecord source a with
    | none => simp [first] at found
    | some r =>
      cases others : rest.mapM (originalRecord source) with
      | none => simp [first,others] at found
      | some tail =>
        simp only [first,others,Option.pure_def,Option.bind_eq_bind,Option.bind_some] at found
        cases Option.some.inj found
        obtain ⟨member,named⟩ := originalRecord_parts first
        obtain ⟨names,members⟩ := ih others
        exact ⟨by simp [named,names],by simpa [member] using members⟩

-- Placing the groups one after the other: under which id every addressing ends, and
-- what the new records hold. Nothing else is touched.
structure Placed (source : SubjectRecord) (s t : RegistryInner) (pairs : List (List ExternalAddressing × String)) : Prop where
  rest : t.aliases = s.aliases ∧ t.states = s.states ∧ t.drawn = s.drawn ∧ t.claims = s.claims
  others : ∀ id,id ∉ pairs.map Prod.snd → get t.subjects id = get s.subjects id
  unmoved : ∀ a,a ∉ (pairs.map Prod.fst).flatten → get t.addressings a = get s.addressings a
  records : ∀ group id,(group,id) ∈ pairs → ∃ records,group.mapM (originalRecord source) = some records ∧
    get t.subjects id = some ⟨id,source.subjectType,records⟩
  moved : ∀ group id,(group,id) ∈ pairs → ∀ a,a ∈ group → get t.addressings a = some id

theorem placeGroups_placed (s : RegistryInner) (sourceId : String) (done : List AddressingTransfer)
    (ids : (pairs.map Prod.snd).Nodup) (apart : (pairs.map Prod.fst).flatten.Nodup)
    (listed : ∀ a,a ∈ (pairs.map Prod.fst).flatten → a ∈ source.listed) :
    ∃ moves t,placeGroups source sourceId s pairs done = (some moves,t) ∧ Placed source s t pairs := by
  induction pairs generalizing s done with
  | nil => exact ⟨done,s,rfl,⟨⟨rfl,rfl,rfl,rfl⟩,fun _ _ => rfl,fun _ _ => rfl,by simp,by simp⟩⟩
  | cons pair rest ih =>
    obtain ⟨group,id⟩ := pair
    simp only [List.map_cons,List.nodup_cons,List.flatten_cons,List.nodup_append] at ids apart
    have inside : ∀ a,a ∈ group → a ∈ source.listed := fun a member => listed a (by simp [member])
    obtain ⟨records,found⟩ := groupRecords_some inside
    have behind : ∀ a ∈ (rest.map Prod.fst).flatten,a ∈ source.listed := by
      intro a member
      exact listed a (by simp only [List.map_cons,List.flatten_cons,List.mem_append]; exact .inr member)
    obtain ⟨moves,t,run,placed⟩ := ih (placeGroup s source id records) (done ++ transfers records sourceId id) ids.2 apart.2.1 behind
    refine ⟨moves,t,by simpa [placeGroups,found] using run,?_,?_,?_,?_,?_⟩
    · exact placed.rest
    · intro other outside
      simp only [List.map_cons,List.mem_cons,not_or] at outside
      rw [placed.others other outside.2]
      simp [placeGroup,outside.1]
    · intro a outside
      simp only [List.map_cons,List.flatten_cons,List.mem_append,not_or] at outside
      rw [placed.unmoved a outside.2]
      simp [placeGroup,(groupRecords_parts found).1,outside.1]
    · intro other newId member
      rcases List.mem_cons.mp member with same | later
      · cases same
        refine ⟨records,found,?_⟩
        rw [placed.others id ids.1]
        simp [placeGroup]
      · exact placed.records other newId later
    · intro other newId member a inside
      rcases List.mem_cons.mp member with same | later
      · cases same
        have outside : a ∉ (rest.map Prod.fst).flatten := fun later => apart.2.2 a inside a later rfl
        rw [placed.unmoved a outside]
        simp [placeGroup,(groupRecords_parts found).1,inside]
      · exact placed.moved other newId later a inside

end

-- What split_subject checks before it mints.
structure Divides (source : SubjectRecord) (groups : List (List ExternalAddressing)) : Prop where
  several : 2 ≤ groups.length
  filled : ∀ group,group ∈ groups → group ≠ []
  apart : groups.flatten.Nodup
  covers : ∀ a,a ∈ groups.flatten ↔ a ∈ source.listed

def splitInto (placed : RegistryInner) (sourceId : String) (ids : List String) (admin : String) (reason : Option String) :
    RegistryInner :=
  {placed with
    subjects := placed.subjects.erase sourceId
    states := placed.states.erase sourceId
    aliases := placed.aliases.insert sourceId ⟨sourceId,ids,.split,admin,reason⟩
    claims := placed.claims ++ [⟨.split sourceId ids,admin,reason⟩]}

theorem newIds_length : (newIds uuid s n).length = n := by simp [newIds]
theorem mem_newIds : id ∈ newIds uuid s n ↔ ∃ i,i < n ∧ id = uuid (s.drawn+i) := by
  simp [newIds,eq_comm]

theorem newIds_nodup (fresh : Function.Injective uuid) : (newIds uuid s n).Nodup := by
  apply List.Nodup.map _ List.nodup_range
  intro i j same
  have := fresh same
  omega

theorem splitSubject_exact (admin : String) (reason : Option String) (fresh : Function.Injective uuid) (sound : Sound uuid s)
    (there : get s.subjects sourceId = some source) (divides : Divides source groups) :
    ∃ moves placed,Placed source {s with drawn := s.drawn+groups.length} placed
        (groups.zip (newIds uuid s groups.length)) ∧
      splitSubject uuid s sourceId groups admin reason = (.ok ⟨newIds uuid s groups.length,moves⟩,
        splitInto placed sourceId (newIds uuid s groups.length) admin reason) := by
  have firsts : (groups.zip (newIds uuid s groups.length)).map Prod.fst = groups :=
    List.map_fst_zip (by rw [newIds_length])
  have seconds : (groups.zip (newIds uuid s groups.length)).map Prod.snd = newIds uuid s groups.length :=
    List.map_snd_zip (by rw [newIds_length])
  obtain ⟨moves,placed,run,shape⟩ := placeGroups_placed {s with drawn := s.drawn+groups.length} sourceId []
    (seconds ▸ newIds_nodup fresh) (firsts.symm ▸ divides.apart)
    (firsts.symm ▸ fun a member => (divides.covers a).mp member)
  refine ⟨moves,placed,shape,?_⟩
  have free : get s.aliases sourceId = none := live_unaliased sound (by simp [Live,describe,there])
  have enough : ¬groups.length < 2 := by have := divides.several; omega
  have filled : groups.findIdx? List.isEmpty = none := by
    rw [List.findIdx?_eq_none_iff]
    intro group member
    simpa using divides.filled group member
  have cover : groups.flatten.toFinset = source.listed.toFinset := by
    ext a
    simpa only [List.mem_toFinset] using divides.covers a
  have unaliased : get placed.aliases sourceId = none := by
    rw [shape.rest.1]
    exact free
  simp [splitSubject,there,enough,filled,divides.apart,cover,run,aliasesTryInsert,unaliased,splitInto]

theorem splitInto_keeps (admin : String) (reason : Option String) (fresh : Function.Injective uuid) (sound : Sound uuid s)
    (there : get s.subjects sourceId = some source) (divides : Divides source groups)
    (shape : Placed source {s with drawn := s.drawn+groups.length} placed (groups.zip (newIds uuid s groups.length))) :
    Turnover uuid s (splitInto placed sourceId (newIds uuid s groups.length) admin reason) [sourceId] groups.length ∧
      Sound uuid (splitInto placed sourceId (newIds uuid s groups.length) admin reason) := by
  have seconds : (groups.zip (newIds uuid s groups.length)).map Prod.snd = newIds uuid s groups.length :=
    List.map_snd_zip (by rw [newIds_length])
  have firsts : (groups.zip (newIds uuid s groups.length)).map Prod.fst = groups :=
    List.map_fst_zip (by rw [newIds_length])
  have live : Live s sourceId := by simp [Live,describe,there]
  have old : ∀ i,sourceId ≠ uuid (s.drawn+i) := fun i => known_range sound (.inl live) fresh
  have turn : Turnover uuid s (splitInto placed sourceId (newIds uuid s groups.length) admin reason)
      [sourceId] groups.length := by
    refine ⟨?_,?_,by simpa using live,?_,?_⟩
    · exact shape.rest.2.2.1
    · intro id
      by_cases same : id = sourceId
      · subst same
        simp [Live,describe,splitInto,old]
      · by_cases new : id ∈ newIds uuid s groups.length
        · rw [← seconds] at new
          obtain ⟨⟨group,newId⟩,member,rfl⟩ := List.mem_map.mp new
          obtain ⟨records,-,here⟩ := shape.records group newId member
          rw [seconds] at new
          simp [Live,describe,splitInto,same,here,mem_newIds.mp new]
        · have kept := shape.others id (by rw [seconds]; exact new)
          rw [mem_newIds] at new
          simp [Live,describe,splitInto,same,kept,new]
    · intro id stays
      simp [splitInto,List.mem_singleton.not.mp stays,shape.rest.1]
    · intro id leaves
      cases List.mem_singleton.mp leaves
      refine ⟨⟨sourceId,newIds uuid s groups.length,.split,admin,reason⟩,by simp [splitInto],rfl,?_,?_⟩
      · have some_id : newIds uuid s groups.length ≠ [] := by
          rw [← List.length_pos_iff,newIds_length]
          have := divides.several
          omega
        simp [some_id]
      · exact fun new listed => mem_newIds.mp listed
  refine ⟨turn,turnover_sound fresh sound turn ?_ ?_⟩
  · intro a id indexed
    simp only [splitInto] at indexed
    by_cases moved : a ∈ groups.flatten
    · rw [← firsts] at moved
      obtain ⟨group,member,inside⟩ := List.mem_flatten.mp moved
      obtain ⟨⟨same,newId⟩,pair,rfl⟩ := List.mem_map.mp member
      rw [shape.moved same newId pair a inside] at indexed
      obtain rfl : id = newId := (Option.some.inj indexed).symm
      obtain ⟨records,found,here⟩ := shape.records same id pair
      have new : id ∈ newIds uuid s groups.length := by
        rw [← seconds]
        exact List.mem_map.mpr ⟨_,pair,rfl⟩
      obtain ⟨i,-,rfl⟩ := mem_newIds.mp new
      refine ⟨_,by simpa [splitInto,(old i).symm] using here,?_⟩
      simpa only [SubjectRecord.listed,(groupRecords_parts found).1] using inside
    · rw [shape.unmoved a (by rw [firsts]; exact moved)] at indexed
      obtain ⟨record,here,listed⟩ := sound.index a id indexed
      have other : id ≠ sourceId := by
        rintro rfl
        cases Option.some.inj (there.symm.trans here)
        exact moved ((divides.covers a).mpr listed)
      have notNew : id ∉ newIds uuid s groups.length := fun new => by
        obtain ⟨i,-,rfl⟩ := mem_newIds.mp new
        have dead := fresh_dead fresh sound (i := i)
        simp [describe,here] at dead
      refine ⟨record,?_,listed⟩
      simp only [splitInto,get_erase,other,if_false]
      rw [shape.others id (by rw [seconds]; exact notNew)]
      exact here
  · intro id payload stored
    simp only [splitInto,get_erase,shape.rest.2.1] at stored
    split at stored
    · cases stored
    · rename_i other
      rw [turn.live]
      exact .inl ⟨sound.states id payload stored,by simpa using other⟩

theorem splitSubject_cases (sourceId : String) (groups : List (List ExternalAddressing)) (admin : String)
    (reason : Option String) (fresh : Function.Injective uuid) (sound : Sound uuid s) :
    (∃ error,splitSubject uuid s sourceId groups admin reason = (.refused error,s)) ∨
      ∃ source moves placed,get s.subjects sourceId = some source ∧ Divides source groups ∧
        Placed source {s with drawn := s.drawn+groups.length} placed (groups.zip (newIds uuid s groups.length)) ∧
        splitSubject uuid s sourceId groups admin reason = (.ok ⟨newIds uuid s groups.length,moves⟩,
          splitInto placed sourceId (newIds uuid s groups.length) admin reason) := by
  cases there : get s.subjects sourceId with
  | none => exact .inl (by simp [splitSubject,there])
  | some source =>
    by_cases few : groups.length < 2
    · exact .inl (by simp [splitSubject,there,few])
    · cases hollow : groups.findIdx? List.isEmpty with
      | some i => exact .inl (by simp [splitSubject,there,few,hollow])
      | none =>
        by_cases apart : groups.flatten.Nodup
        · by_cases cover : groups.flatten.toFinset = source.listed.toFinset
          · have divides : Divides source groups := by
              refine ⟨by omega,?_,apart,fun a => ?_⟩
              · simpa [List.findIdx?_eq_none_iff] using hollow
              · rw [← List.mem_toFinset,cover,List.mem_toFinset]
            obtain ⟨moves,placed,shape,result⟩ := splitSubject_exact admin reason fresh sound there divides
            exact .inr ⟨source,moves,placed,rfl,divides,shape,result⟩
          · exact .inl (by simp [splitSubject,there,few,hollow,apart,cover])
        · exact .inl (by simp [splitSubject,there,few,hollow,apart])

theorem splitSubject_keeps (fresh : Function.Injective uuid) (sound : Sound uuid s) :
    Keeps uuid s (splitSubject uuid s sourceId groups admin reason) := by
  rcases splitSubject_cases sourceId groups admin reason fresh sound with ⟨error,same⟩ |
    ⟨source,moves,placed,there,divides,shape,result⟩
  · rw [same]
    exact keeps_same sound rfl
  · rw [result]
    obtain ⟨turn,after⟩ := splitInto_keeps admin reason fresh sound there divides shape
    exact ⟨after,⟨_,_,turn⟩,rfl⟩

def Held (uuid : Nat → String) (r : SubjectRegistry) : Prop := r.poisoned = false ∧ Sound uuid r.inner

theorem locked_held (held : Held uuid r) (keeps : Keeps uuid r.inner (body r.inner)) :
    Held uuid (locked r body).2 ∧ ∃ gone n,Turnover uuid r.inner (locked r body).2.inner gone n := by
  simp only [locked,held.1,Bool.false_eq_true,if_false]
  exact ⟨⟨keeps.calm,keeps.sound⟩,keeps.turn⟩

theorem step_held (fresh : Function.Injective uuid) (held : Held uuid r) (call : Call) :
    Held uuid (step uuid r call) ∧ ∃ gone n,Turnover uuid r.inner (step uuid r call).inner gone n := by
  cases call with
  | announce announcement claimant => exact locked_held held (announce_keeps fresh held.2)
  | updateState id state => exact locked_held held (updateState_keeps held.2)
  | retract addressing claimant reason => exact locked_held held (retract_keeps fresh held.2)
  | forcedRetractAddressing addressing target admin reason => exact locked_held held (forcedRetractAddressing_keeps fresh held.2)
  | mergeAliases sourceA sourceB admin reason => exact locked_held held (mergeAliases_keeps fresh held.2)
  | splitSubject sourceId groups admin reason => exact locked_held held (splitSubject_keeps fresh held.2)

theorem run_held (fresh : Function.Injective uuid) (held : Held uuid r) (calls : List Call) :
    Held uuid (run (step uuid) r calls) :=
  run_keeps (fun _ call before => (step_held fresh before call).1) held

theorem run_keeps_aliases (fresh : Function.Injective uuid) (held : Held uuid r) (calls : List Call)
    (written : describeAlias r.inner id = some record) :
    describeAlias (run (step uuid) r calls).inner id = some record := by
  induction calls generalizing r with
  | nil => exact written
  | cons call rest ih =>
    obtain ⟨next,gone,n,turn⟩ := step_held fresh held call
    exact ih next (turnover_keeps held.2 turn written)

def Follows (s : RegistryInner) (new old : String) : Prop :=
  ∃ record,describeAlias s old = some record ∧ new ∈ record.newIds

theorem follows_later (sound : Sound uuid s) (follows : Follows s new (uuid k)) :
    ∃ j,k < j ∧ j < s.drawn ∧ new = uuid j := by
  obtain ⟨record,aliased,listed⟩ := follows
  exact (sound.successors _ record aliased).2.2 k rfl new listed

-- Ids drawn later only: the number of ids still to come bounds every chain.
theorem follows_ends (sound : Sound uuid s) : WellFounded (Follows s) := by
  have minted : ∀ m k,s.drawn - k = m → Acc (Follows s) (uuid k) := by
    intro m
    induction m using Nat.strong_induction_on with
    | h m ih =>
      intro k left
      constructor
      intro new follows
      obtain ⟨j,after,below,rfl⟩ := follows_later sound follows
      exact ih (s.drawn-j) (by omega) j rfl
  constructor
  intro old
  constructor
  intro new follows
  have ⟨record,aliased,_⟩ := follows
  obtain ⟨k,-,rfl⟩ := sound.known old (.inr (by simp [Retired,aliased]))
  obtain ⟨j,-,-,rfl⟩ := follows_later sound follows
  exact minted _ j rfl

theorem chain_known (sound : Sound uuid s) (retired : Retired s id)
    (chain : Relation.ReflTransGen (fun old new => Follows s new old) id last) : Live s last ∨ Retired s last := by
  induction chain with
  | refl => exact .inr retired
  | @tail middle next _ follows _ =>
    have ⟨record,aliased,_⟩ := follows
    obtain ⟨k,-,rfl⟩ := sound.known middle (.inr (by simp [Retired,aliased]))
    obtain ⟨j,-,below,rfl⟩ := follows_later sound follows
    rcases sound.minted j below with ⟨live,-⟩ | ⟨gone,-⟩
    · exact .inl live
    · exact .inr gone

theorem chain_end (sound : Sound uuid s) (known : Live s last ∨ Retired s last) (stops : ∀ next,¬Follows s next last) :
    Live s last ∨ ∃ record,describeAlias s last = some record ∧ record.kind = .tombstone := by
  rcases known with live | retired
  · exact .inl live
  · obtain ⟨record,aliased⟩ := Option.isSome_iff_exists.mp retired
    refine .inr ⟨record,aliased,(sound.successors last record aliased).2.1.mp ?_⟩
    apply List.eq_nil_iff_forall_not_mem.mpr
    exact fun next listed => stops next ⟨record,aliased,listed⟩

theorem alias_index_append_only (fresh : Function.Injective uuid) (calls more : List Call) :
    let r := run (step uuid) .new calls
    (∀ k,k < r.inner.drawn → Xor (Live r.inner (uuid k)) (Retired r.inner (uuid k))) ∧
      (∀ id,Live r.inner id ∨ Retired r.inner id → ∃ k,k < r.inner.drawn ∧ id = uuid k) ∧
      (∀ id record,describeAlias r.inner id = some record →
        describeAlias (run (step uuid) r more).inner id = some record) ∧
      (∀ id payload,get r.inner.states id = some payload → Live r.inner id) ∧
      WellFounded (Follows r.inner) ∧
      (∀ id last,Retired r.inner id → Relation.ReflTransGen (fun old new => Follows r.inner new old) id last →
        (∀ next,¬Follows r.inner next last) →
        Live r.inner last ∨ ∃ record,describeAlias r.inner last = some record ∧ record.kind = .tombstone) ∧
      r.poisoned = false := by
  intro r
  have held : Held uuid r := run_held fresh ⟨rfl,new_sound⟩ calls
  refine ⟨held.2.minted,held.2.known,?_,held.2.states,follows_ends held.2,?_,held.1⟩
  · intro id record written
    exact run_keeps_aliases fresh held more written
  · intro id last retired chain stops
    exact chain_end held.2 (chain_known held.2 retired chain) stops

-- A supply of pairwise different ids, for the runs on fixed calls.
def strokes (n : Nat) : String := String.ofList (List.replicate (n+1) 'u')

theorem strokes_fresh : Function.Injective strokes := by
  intro m n same
  have lists := congrArg (fun text => text.toList.length) same
  simpa [strokes] using lists

def twoTracks : List Call :=
  [.announce ⟨"track",[⟨"mpd","a"⟩],[],some "playing"⟩ "mpd",.announce ⟨"track",[⟨"mpd","b"⟩],[],none⟩ "mpd"]

theorem alias_index_append_only_merge :
    describeAlias (run (step strokes) .new (twoTracks ++ [Call.mergeAliases "u" "uu" "admin" none])).inner "u" =
        some ⟨"u",["uuu"],.merged,"admin",none⟩ ∧
      WellFounded (Follows (run (step strokes) .new (twoTracks ++ [Call.mergeAliases "u" "uu" "admin" none])).inner) ∧
      (run (step strokes) .new (twoTracks ++ [Call.mergeAliases "u" "uu" "admin" none])).poisoned = false := by
  obtain ⟨-,-,-,-,ends,-,calm⟩ :=
    alias_index_append_only strokes_fresh (twoTracks ++ [Call.mergeAliases "u" "uu" "admin" none]) []
  exact ⟨by decide,ends,calm⟩

end EvoCore.SubjectAliases
