import EvoCore.FactoryInstances

namespace EvoCore.FactoryInstances
open Tables Runs
open SubjectRegistry (RegistryInner ExternalAddressing SubjectAnnouncement AddressingRecord SubjectRecord)
open SubjectAliases (Sound)

variable {uuid : Nat → String} {s : RegistryInner} {w : World} {c : Call} {k : Nat} {id canonical plugin shelf : String}
  {addressing : ExternalAddressing} {write : Write} {phase : Phase}

theorem registers (uuid : Nat → String) (plugin shelf : String) (dead : get s.addressings addressing = none) :
    (∃ e,SubjectRegistry.announce uuid s ⟨shelf,[addressing],[],none⟩ plugin = (.refused e,s)) ∨
    ∃ after,SubjectRegistry.announce uuid s ⟨shelf,[addressing],[],none⟩ plugin = (.ok (.created (uuid s.drawn)),after) ∧
      (∀ a,get after.addressings a = if a = addressing then some (uuid s.drawn) else get s.addressings a) ∧
      ∀ other,get after.subjects other =
        if other = uuid s.drawn then some ⟨uuid s.drawn,shelf,[⟨addressing,plugin⟩]⟩ else get s.subjects other := by
  by_cases untyped : shelf = ""
  · exact .inl ⟨.catalogue "subject announcement has empty subject_type",by simp [SubjectRegistry.announce,untyped]⟩
  · refine .inr ⟨SubjectRegistry.created uuid { s with claims := s.claims ++ [] } ⟨shelf,[addressing],[],none⟩ plugin,?_,?_,?_⟩
    · simp [SubjectRegistry.announce,untyped,SubjectRegistry.announceOutcome,SubjectRegistry.distinctIds,dead,
        SubjectRegistry.captureState,SubjectRegistry.announceClaims]
    · intro a
      simp [SubjectRegistry.created,insertAll]
    · intro other
      simp [SubjectRegistry.created,SubjectRegistry.announced]

theorem drops (live : get s.addressings addressing = some canonical) {type_ : String}
    (there : get s.subjects canonical = some ⟨canonical,type_,[⟨addressing,plugin⟩]⟩) (reason : Option String) :
    ∃ outcome after,SubjectRegistry.retract s addressing plugin reason = (.ok outcome,after) ∧
      (∀ a,get after.addressings a = if a = addressing then none else get s.addressings a) ∧
      ∀ other,get after.subjects other = if other = canonical then none else get s.subjects other := by
  have found : SubjectRegistry.claimIdx ⟨canonical,type_,[⟨addressing,plugin⟩]⟩ addressing plugin = some 0 := by
    simp [SubjectRegistry.claimIdx]
  refine ⟨.subjectForgotten canonical type_,SubjectRegistry.forgotten
    (SubjectRegistry.released s canonical ⟨canonical,type_,[⟨addressing,plugin⟩]⟩ 0 addressing) canonical plugin reason,?_,?_,?_⟩
  · simp [SubjectRegistry.retract,live,there,found]
  · intro a
    unfold SubjectRegistry.forgotten SubjectRegistry.aliasesTryInsert
    dsimp only
    split <;> simp [SubjectRegistry.released]
  · intro other
    unfold SubjectRegistry.forgotten SubjectRegistry.aliasesTryInsert
    dsimp only
    split <;> by_cases same : other = canonical <;> simp [SubjectRegistry.released,same]

def Phase.holds : Phase → Option String
  | .registered canonicalId | .taken canonicalId => some canonicalId
  | _ => none

def Call.holds (id : String) (c : Call) : Option String := if c.instanceId = id then c.phase.holds else none

-- Every live addressing of the plugin is in one hand: the map's, that of an announce that has not recorded
-- it yet, or that of a retract that has not dropped it yet.
structure Owned (uuid : Nat → String) (w : World) : Prop where
  sound : Sound uuid w.registry
  held : ∀ id,(↑(get w.announcer.instances id).toList : Multiset String) + ↑(w.calls.filterMap (Call.holds id)) =
    ↑(get w.registry.addressings (w.announcer.addressing id)).toList
  single : ∀ id canonical,get w.registry.addressings (w.announcer.addressing id) = some canonical →
    ∃ type_,get w.registry.subjects canonical = some ⟨canonical,type_,[⟨w.announcer.addressing id,w.announcer.pluginName⟩]⟩

theorem addressing_inj {a : Announcer} {left right : String} (same : a.addressing left = a.addressing right) : left = right := by
  have values : a.pluginName ++ "/" ++ left = a.pluginName ++ "/" ++ right := congrArg ExternalAddressing.value same
  have lists := congrArg String.toList values
  rw [String.toList_append,String.toList_append (t := right)] at lists
  exact String.toList_injective (List.append_cancel_left lists)

theorem option_multiset {α : Type} {o : Option α} {x : α} {rest : Multiset α} (shape : rest + {x} = ↑o.toList) : o = some x ∧ rest = 0 := by
  have cards := congrArg Multiset.card shape
  rw [Multiset.card_add,Multiset.card_singleton,Multiset.coe_card] at cards
  cases o with
  | none => simp at cards
  | some y =>
    have none_ : rest = 0 := by
      rw [← Multiset.card_eq_zero]
      simpa using cards
    subst none_
    have same : ({x} : Multiset α) = {y} := by simpa using shape
    rw [Multiset.singleton_inj.mp same]
    exact ⟨rfl,rfl⟩

@[simp] theorem moved_announcer : (w.moved k phase).announcer = w.announcer := rfl
@[simp] theorem moved_registry : (w.moved k phase).registry = w.registry := rfl

theorem moved_held (there : w.calls[k]? = some c) (phase : Phase) :
    (↑((w.moved k phase).calls.filterMap (Call.holds c.instanceId)) : Multiset String) + ↑c.phase.holds.toList =
      ↑(w.calls.filterMap (Call.holds c.instanceId)) + ↑phase.holds.toList := by
  have moved := filterMap_modify (Call.holds c.instanceId) there fun c => { c with phase }
  have own : ∀ d : Call,d.instanceId = c.instanceId → Call.holds c.instanceId d = d.phase.holds := fun d same => if_pos same
  rw [own c rfl,own { c with phase } rfl] at moved
  exact moved

theorem moved_others (there : w.calls[k]? = some c) (phase : Phase) (other : id ≠ c.instanceId) :
    (↑((w.moved k phase).calls.filterMap (Call.holds id)) : Multiset String) = ↑(w.calls.filterMap (Call.holds id)) := by
  have moved := filterMap_modify (Call.holds id) there fun c => { c with phase }
  have quiet : ∀ d : Call,d.instanceId = c.instanceId → Call.holds id d = none := fun d same => if_neg fun own => other (own.symm.trans same)
  rw [quiet c rfl,quiet { c with phase } rfl] at moved
  exact add_right_cancel moved

theorem holding (owned : Owned uuid w) (there : w.calls[k]? = some c) (holds : c.phase.holds = some canonical) :
    get w.registry.addressings (w.announcer.addressing c.instanceId) = some canonical ∧ get w.announcer.instances c.instanceId = none := by
  have split_ := moved_held there .announcing
  have held := owned.held c.instanceId
  have none_ : Phase.announcing.holds = none := rfl
  rw [holds,none_,Option.toList_none,Multiset.coe_nil,add_zero,Option.toList_some,Multiset.coe_singleton] at split_
  rw [← split_,← add_assoc] at held
  obtain ⟨live,rest⟩ := option_multiset held
  exact ⟨live,by simpa using (add_eq_zero.mp rest).1⟩

-- What a turn must balance: the hand a live addressing is in before it and after it.
theorem owned_turn (owned : Owned uuid w) (there : w.calls[k]? = some c) (phase : Phase) {a : Announcer} {emitted : List Happening}
    {history : List Event} (named : a.pluginName = w.announcer.pluginName) (sound : Sound uuid s)
    (own : (↑(get a.instances c.instanceId).toList : Multiset String) + ↑phase.holds.toList +
        ↑(get w.registry.addressings (w.announcer.addressing c.instanceId)).toList =
      ↑(get w.announcer.instances c.instanceId).toList + ↑c.phase.holds.toList + ↑(get s.addressings (w.announcer.addressing c.instanceId)).toList)
    (others : ∀ id,id ≠ c.instanceId → get a.instances id = get w.announcer.instances id ∧
      get s.addressings (w.announcer.addressing id) = get w.registry.addressings (w.announcer.addressing id))
    (single : ∀ id canonical,get s.addressings (w.announcer.addressing id) = some canonical →
      ∃ type_,get s.subjects canonical = some ⟨canonical,type_,[⟨w.announcer.addressing id,w.announcer.pluginName⟩]⟩) :
    Owned uuid { w.moved k phase with announcer := a,registry := s,emitted,history } := by
  have addressing : ∀ id,a.addressing id = w.announcer.addressing id := fun id => by simp [Announcer.addressing,named]
  refine ⟨sound,fun id => ?_,fun id canonical live => ?_⟩
  · dsimp only
    rw [addressing]
    have held := owned.held id
    by_cases same : id = c.instanceId
    · subst same
      have moved := moved_held there phase
      generalize (↑(get a.instances c.instanceId).toList : Multiset String) = now at own ⊢
      generalize (↑(get w.announcer.instances c.instanceId).toList : Multiset String) = was at own held
      generalize (↑(get s.addressings (w.announcer.addressing c.instanceId)).toList : Multiset String) = after at own ⊢
      generalize (↑(get w.registry.addressings (w.announcer.addressing c.instanceId)).toList : Multiset String) = before at own held
      generalize (↑c.phase.holds.toList : Multiset String) = left at own moved
      generalize (↑phase.holds.toList : Multiset String) = taken at own moved
      generalize (↑((w.moved k phase).calls.filterMap (Call.holds c.instanceId)) : Multiset String) = calls at moved ⊢
      generalize (↑(w.calls.filterMap (Call.holds c.instanceId)) : Multiset String) = earlier at moved held
      have balance : now + calls + (left + before) = after + (left + before) := by
        calc now + calls + (left + before) = now + (calls + left) + before := by abel
          _ = now + (earlier + taken) + before := by rw [moved]
          _ = (now + taken + before) + earlier := by abel
          _ = (was + earlier) + left + after := by rw [own]; abel
          _ = after + (left + before) := by rw [held]; abel
      exact add_right_cancel balance
    · obtain ⟨instances,addressings⟩ := others id same
      rw [instances,addressings,← held,moved_others there phase same]
  · dsimp only at live ⊢
    rw [addressing] at live ⊢
    rw [named]
    exact single id canonical live

theorem owned_quiet (owned : Owned uuid w) (there : w.calls[k]? = some c) (phase : Phase) (alike : phase.holds = c.phase.holds)
    (emitted : List Happening) : Owned uuid { w.moved k phase with emitted } :=
  owned_turn owned there phase rfl owned.sound (by rw [alike,moved_announcer,moved_registry]) (fun _ _ => ⟨rfl,rfl⟩) owned.single

theorem registered_owned (fresh : Function.Injective uuid) (owned : Owned uuid w) (there : w.calls[k]? = some c) (at_ : c.phase = .checked)
    (dead : get w.registry.addressings (w.announcer.addressing c.instanceId) = none) : Owned uuid (turn uuid w k c write) := by
  have quiet : c.phase.holds = none := by rw [at_]; rfl
  have kept : SubjectAliases.Keeps uuid w.registry (SubjectRegistry.announce uuid w.registry (subjectAnnouncement w.announcer c.instanceId)
    w.announcer.pluginName) := SubjectAliases.announce_keeps fresh owned.sound
  simp only [turn,at_]
  rcases registers uuid w.announcer.pluginName w.announcer.targetShelf dead with
    ⟨e,refused⟩ | ⟨after,created,addressings,subjects⟩
  · rw [subjectAnnouncement,refused]
    exact owned_quiet owned there _ (by rw [quiet]; rfl) w.emitted
  · rw [subjectAnnouncement,created] at kept
    rw [subjectAnnouncement,created]
    refine owned_turn owned there (.registered (uuid w.registry.drawn)) rfl kept.sound ?_ ?_ ?_
    · have some_ : (Phase.registered (uuid w.registry.drawn)).holds = some (uuid w.registry.drawn) := rfl
      rw [quiet,dead,addressings,if_pos rfl,some_]
      simp
    · intro id other
      refine ⟨rfl,?_⟩
      rw [addressings,if_neg fun same => other (addressing_inj same)]
    · intro id canonical live
      rw [addressings] at live
      split at live
      · rename_i same
        cases Option.some.inj live
        refine ⟨w.announcer.targetShelf,?_⟩
        rw [subjects,if_pos rfl,same]
      · obtain ⟨type_,there_⟩ := owned.single id canonical live
        refine ⟨type_,?_⟩
        rw [subjects,if_neg,there_]
        rintro rfl
        have gone := SubjectAliases.fresh_dead fresh owned.sound (i := 0)
        simp only [SubjectRegistry.describe,Nat.add_zero,there_] at gone
        cases gone

theorem recorded_owned (owned : Owned uuid w) (there : w.calls[k]? = some c) (at_ : c.phase = .registered canonical) :
    Owned uuid (turn uuid w k c write) := by
  have holds : c.phase.holds = some canonical := by rw [at_]; rfl
  obtain ⟨live,absent⟩ := holding owned there holds
  simp only [turn,at_]
  refine owned_turn owned there (.recorded canonical) rfl owned.sound ?_ ?_ owned.single
  · rw [holds,absent,get_insert,if_pos rfl]
    have none_ : (Phase.recorded canonical).holds = none := rfl
    rw [none_]
    simp
  · intro id other
    exact ⟨by rw [get_insert,if_neg other],rfl⟩

theorem taken_owned (owned : Owned uuid w) (there : w.calls[k]? = some c) (at_ : c.phase = .retracting) :
    Owned uuid (turn uuid w k c write) := by
  have quiet : c.phase.holds = none := by rw [at_]; rfl
  simp only [turn,at_]
  split
  · exact owned_quiet owned there _ (by rw [quiet]; rfl) w.emitted
  · split
    · exact owned_quiet owned there _ (by rw [quiet]; rfl) w.emitted
    · rename_i canonical entry
      refine owned_turn owned there (.taken canonical) rfl owned.sound ?_ ?_ owned.single
      · rw [quiet,entry,get_erase,if_pos rfl]
        have some_ : (Phase.taken canonical).holds = some canonical := rfl
        rw [some_]
        simp
      · intro id other
        exact ⟨by rw [get_erase,if_neg other],rfl⟩

theorem dropped_single (owned : Owned uuid w) (live : get w.registry.addressings (w.announcer.addressing id) = some canonical)
    {after : RegistryInner}
    (addressings : ∀ a,get after.addressings a = if a = w.announcer.addressing id then none else get w.registry.addressings a)
    (subjects : ∀ other,get after.subjects other = if other = canonical then none else get w.registry.subjects other) :
    ∀ other found,get after.addressings (w.announcer.addressing other) = some found →
      ∃ type_,get after.subjects found = some ⟨found,type_,[⟨w.announcer.addressing other,w.announcer.pluginName⟩]⟩ := by
  intro other found live_
  rw [addressings] at live_
  split at live_
  · cases live_
  · rename_i apart
    obtain ⟨type_,there⟩ := owned.single other found live_
    obtain ⟨gone,there_⟩ := owned.single id canonical live
    refine ⟨type_,?_⟩
    rw [subjects,if_neg,there]
    rintro rfl
    rw [there] at there_
    injection there_ with same
    simp only [SubjectRecord.mk.injEq,List.cons.injEq,AddressingRecord.mk.injEq] at same
    exact apart same.2.2.1.1

theorem dropped_owned (write : Write) (fresh : Function.Injective uuid) (owned : Owned uuid w) (there : w.calls[k]? = some c)
    (at_ : c.phase = .taken canonical) :
    Owned uuid (turn uuid w k c write) ∧ ∃ outcome registry,turn uuid w k c write = { w.moved k (.dropped canonical outcome) with registry } := by
  have holds : c.phase.holds = some canonical := by rw [at_]; rfl
  obtain ⟨live,_⟩ := holding owned there holds
  obtain ⟨type_,there_⟩ := owned.single c.instanceId canonical live
  obtain ⟨outcome,after,shape,addressings,subjects⟩ := drops live there_ none
  have kept : SubjectAliases.Keeps uuid w.registry (SubjectRegistry.retract w.registry (w.announcer.addressing c.instanceId)
    w.announcer.pluginName none) := SubjectAliases.retract_keeps fresh owned.sound
  rw [shape] at kept
  simp only [turn,at_,shape]
  refine ⟨owned_turn owned there (.dropped canonical outcome) rfl kept.sound ?_ ?_ ?_,outcome,after,rfl⟩
  · rw [holds,live,addressings,if_pos rfl]
    have none_ : (Phase.dropped canonical outcome).holds = none := rfl
    rw [none_]
    simp
  · intro id other
    refine ⟨rfl,?_⟩
    rw [addressings,if_neg fun same => other (addressing_inj same)]
  · exact dropped_single owned live addressings subjects

theorem turn_owned (fresh : Function.Injective uuid) (owned : Owned uuid w) (there : w.calls[k]? = some c)
    (met : Calm w (.turn k write)) : Owned uuid (turn uuid w k c write) := by
  have calm := met c there
  cases at_ : c.phase with
  | checked =>
    have dead : get w.registry.addressings (w.announcer.addressing c.instanceId) = none := by simpa [Call.calm,at_] using calm
    exact registered_owned fresh owned there at_ dead
  | registered canonical => exact recorded_owned owned there at_
  | retracting => exact taken_owned owned there at_
  | taken canonical => exact (dropped_owned _ fresh owned there at_).1
  | announcing =>
    simp only [turn,at_]
    split <;> exact owned_quiet owned there _ (by rw [at_]; rfl) w.emitted
  | recorded canonical =>
    simp only [turn,at_]
    repeat' split
    all_goals exact owned_quiet owned there _ (by rw [at_]; rfl) w.emitted
  | stored canonical =>
    simp only [turn,at_]
    split <;> exact owned_quiet owned there _ (by rw [at_]; rfl) _
  | dropped canonical outcome =>
    simp only [turn,at_]
    repeat' split
    all_goals exact owned_quiet owned there _ (by rw [at_]; rfl) w.emitted
  | forgotten canonical =>
    simp only [turn,at_]
    split <;> exact owned_quiet owned there _ (by rw [at_]; rfl) _
  | done result =>
    simp only [turn,at_]
    exact owned

theorem owned_append (owned : Owned uuid w) (quiet : c.phase.holds = none) : Owned uuid { w with calls := w.calls ++ [c] } := by
  refine ⟨owned.sound,fun id => ?_,owned.single⟩
  have none_ : Call.holds id c = none := by simp [Call.holds,quiet]
  have same : (w.calls ++ [c]).filterMap (Call.holds id) = w.calls.filterMap (Call.holds id) := by simp [none_]
  dsimp only
  rw [same]
  exact owned.held id

theorem step_owned (fresh : Function.Injective uuid) (owned : Owned uuid w) (a : Action) (met : Calm w a) : Owned uuid (step uuid w a) := by
  cases a with
  | markLoadComplete => exact ⟨owned.sound,owned.held,owned.single⟩
  | announce instanceId payloadBytes => exact owned_append owned rfl
  | retract instanceId => exact owned_append owned rfl
  | turn k write =>
    simp only [step]
    split
    · rename_i c there
      exact turn_owned fresh owned there met
    · exact owned

-- An id is recorded while it does not stand, and taken while it does.
def Alternates : List Event → Prop
  | [] => True
  | .recorded _ id::rest => id ∉ standing rest ∧ Alternates rest
  | .taken _ id::rest => id ∈ standing rest ∧ Alternates rest

theorem standing_nodup (alternates : Alternates history) : (standing history).Nodup := by
  induction history with
  | nil => exact List.nodup_nil
  | cons e rest ih =>
    cases e with
    | recorded k id => exact List.nodup_cons.mpr ⟨alternates.1,ih alternates.2⟩
    | taken k id => exact (ih alternates.2).erase id

theorem alternates_older (alternates : Alternates (newer ++ older)) : Alternates older := by
  induction newer with
  | nil => exact alternates
  | cons e rest ih =>
    cases e with
    | recorded k id => exact ih alternates.2
    | taken k id => exact ih alternates.2

theorem standing_kept (stands : id ∈ standing older) (untaken : ∀ m,.taken m id ∉ between) : id ∈ standing (between ++ older) := by
  induction between with
  | nil => exact stands
  | cons e rest ih =>
    have tail := ih fun m member => untaken m (List.mem_cons_of_mem _ member)
    cases e with
    | recorded k other => exact List.mem_cons_of_mem _ tail
    | taken k other =>
      have apart : id ≠ other := by
        rintro rfl
        exact untaken k List.mem_cons_self
      exact (List.mem_erase_of_ne apart).mpr tail

structure Logged (w : World) : Prop where
  alternates : Alternates w.history
  members : ∀ id,id ∈ standing w.history ↔ (get w.announcer.instances id).isSome

theorem logged_noDouble (logged : Logged w) : NoDouble w := by
  intro newer between older k l id shape _ _
  by_contra untaken
  have alternates := logged.alternates
  rw [shape,List.append_assoc,List.cons_append] at alternates
  have fresh := (alternates_older alternates).1
  exact fresh (standing_kept List.mem_cons_self fun m member => untaken ⟨m,member⟩)

theorem logged_same {after : World} (logged : Logged w) (history : after.history = w.history)
    (instances : after.announcer.instances = w.announcer.instances) : Logged after :=
  ⟨history ▸ logged.alternates,fun id => by rw [history,instances]; exact logged.members id⟩

theorem turn_logged (owned : Owned uuid w) (logged : Logged w) (there : w.calls[k]? = some c) : Logged (turn uuid w k c write) := by
  cases at_ : c.phase with
  | registered canonical =>
    obtain ⟨_,absent⟩ := holding owned there (by rw [at_]; rfl : c.phase.holds = some canonical)
    have fresh : c.instanceId ∉ standing w.history := by
      rw [logged.members,absent]
      simp
    simp only [turn,at_]
    refine ⟨⟨fresh,logged.alternates⟩,fun id => ?_⟩
    rw [get_insert,standing,List.mem_cons,logged.members]
    by_cases same : id = c.instanceId <;> simp [same]
  | retracting =>
    simp only [turn,at_]
    split
    · exact logged_same logged rfl rfl
    · split
      · exact logged_same logged rfl rfl
      · rename_i canonical entry
        have stands : c.instanceId ∈ standing w.history := by
          rw [logged.members,entry]
          rfl
        refine ⟨⟨stands,logged.alternates⟩,fun id => ?_⟩
        rw [get_erase,standing,(standing_nodup logged.alternates).mem_erase_iff,logged.members]
        by_cases same : id = c.instanceId <;> simp [same]
  | _ =>
    simp only [turn,at_]
    repeat' split
    all_goals exact logged_same logged rfl rfl

theorem step_logged (owned : Owned uuid w) (logged : Logged w) (a : Action) : Logged (step uuid w a) := by
  cases a with
  | markLoadComplete => exact logged_same logged rfl rfl
  | announce instanceId payloadBytes => exact logged_same logged rfl rfl
  | retract instanceId => exact logged_same logged rfl rfl
  | turn k write =>
    simp only [step]
    split
    · rename_i c there
      exact turn_logged owned logged there
    · exact logged

-- A call that has touched the map or the registry, and has not failed.
def Phase.committed : Phase → Bool
  | .registered _ | .recorded _ | .stored _ | .taken _ | .dropped .. | .forgotten _ | .done (.ok _) => true
  | _ => false

def World.phaseOf (w : World) (k : Nat) : Option Phase := (w.calls[k]?).map (·.phase)

theorem phaseOf_moved (there : w.calls[k]? = some c) (phase : Phase) : (w.moved k phase).phaseOf k = some phase := by
  simp [World.phaseOf,World.moved,there]

def Unmoved (before after : World) : Prop :=
  after.announcer.instances = before.announcer.instances ∧ after.registry = before.registry

theorem turn_effect (fresh : Function.Injective uuid) (owned : Owned uuid w) (there : w.calls[k]? = some c)
    (met : Calm w (.turn k write)) : ∃ phase,(turn uuid w k c write).phaseOf k = some phase ∧
      (phase.committed ∨ Unmoved w (turn uuid w k c write)) ∧ (c.phase.committed → phase.committed) := by
  have calm := met c there
  cases at_ : c.phase with
  | announcing =>
    simp only [turn,at_]
    split
    · exact ⟨_,phaseOf_moved there _,.inr ⟨rfl,rfl⟩,by rintro ⟨⟩⟩
    · exact ⟨_,phaseOf_moved there _,.inr ⟨rfl,rfl⟩,by rintro ⟨⟩⟩
  | checked =>
    have dead : get w.registry.addressings (w.announcer.addressing c.instanceId) = none := by simpa [Call.calm,at_] using calm
    simp only [turn,at_]
    rcases registers uuid w.announcer.pluginName w.announcer.targetShelf dead with
      ⟨e,refused⟩ | ⟨after,created,_⟩
    · rw [subjectAnnouncement,refused]
      exact ⟨_,phaseOf_moved there _,.inr ⟨rfl,rfl⟩,by rintro ⟨⟩⟩
    · rw [subjectAnnouncement,created]
      exact ⟨_,phaseOf_moved there _,.inl rfl,fun _ => rfl⟩
  | registered canonical =>
    simp only [turn,at_]
    exact ⟨_,phaseOf_moved there _,.inl rfl,fun _ => rfl⟩
  | recorded canonical =>
    simp only [turn,at_]
    split
    · rename_i persistent
      have taken_ : write = .ok () := by simpa [Call.calm,at_,persistent] using calm
      rw [taken_]
      exact ⟨_,phaseOf_moved there _,.inl rfl,fun _ => rfl⟩
    · exact ⟨_,phaseOf_moved there _,.inl rfl,fun _ => rfl⟩
  | stored canonical =>
    have taken_ : write = .ok () := by simpa [Call.calm,at_] using calm
    simp only [turn,at_,taken_]
    exact ⟨_,phaseOf_moved there _,.inl rfl,fun _ => rfl⟩
  | retracting =>
    simp only [turn,at_]
    split
    · exact ⟨_,phaseOf_moved there _,.inr ⟨rfl,rfl⟩,by rintro ⟨⟩⟩
    · split
      · exact ⟨_,phaseOf_moved there _,.inr ⟨rfl,rfl⟩,by rintro ⟨⟩⟩
      · exact ⟨_,phaseOf_moved there _,.inl rfl,fun _ => rfl⟩
  | taken canonical =>
    obtain ⟨_,outcome,registry,shape⟩ := dropped_owned write fresh owned there at_
    rw [shape]
    exact ⟨_,phaseOf_moved there _,.inl rfl,fun _ => rfl⟩
  | dropped canonical outcome =>
    simp only [turn,at_]
    split
    · rename_i persistent
      have taken_ : write = .ok () := by simpa [Call.calm,at_,persistent] using calm
      rw [taken_]
      exact ⟨_,phaseOf_moved there _,.inl rfl,fun _ => rfl⟩
    · exact ⟨_,phaseOf_moved there _,.inl rfl,fun _ => rfl⟩
  | forgotten canonical =>
    have taken_ : write = .ok () := by simpa [Call.calm,at_] using calm
    simp only [turn,at_,taken_]
    exact ⟨_,phaseOf_moved there _,.inl rfl,fun _ => rfl⟩
  | done result =>
    simp only [turn,at_]
    refine ⟨.done result,?_,.inr ⟨rfl,rfl⟩,id⟩
    rw [World.phaseOf,there,Option.map_some,at_]

theorem turn_calls (uuid : Nat → String) (w : World) (k : Nat) (c : Call) (write : Write) :
    (turn uuid w k c write).calls = w.calls ∨ ∃ phase,(turn uuid w k c write).calls = (w.moved k phase).calls := by
  cases at_ : c.phase with
  | done result =>
    left
    simp only [turn,at_]
  | _ =>
    simp only [turn,at_]
    repeat' split
    all_goals exact .inr ⟨_,rfl⟩

theorem step_others (present : w.phaseOf k = some phase) (a : Action) (apart : ∀ write,a ≠ .turn k write) :
    (step uuid w a).phaseOf k = some phase := by
  have appended : ∀ c : Call,({ w with calls := w.calls ++ [c] } : World).phaseOf k = some phase := by
    intro c
    obtain ⟨d,there,same⟩ := Option.map_eq_some_iff.mp present
    rw [World.phaseOf,List.getElem?_append_left (List.getElem?_eq_some_iff.mp there).1,there]
    exact congrArg some same
  cases a with
  | markLoadComplete => exact present
  | announce instanceId payloadBytes => exact appended _
  | retract instanceId => exact appended _
  | turn i write =>
    have other : i ≠ k := by
      rintro rfl
      exact apart write rfl
    simp only [step]
    split
    · rename_i c there
      rcases turn_calls uuid w i c write with same | ⟨phase_,same⟩
      · rw [World.phaseOf,same]
        exact present
      · rw [World.phaseOf,same]
        rw [World.phaseOf] at present
        simpa [World.moved,List.getElem?_modify,other] using present
    · exact present

theorem step_committed (fresh : Function.Injective uuid) (owned : Owned uuid w) (a : Action) (met : Calm w a)
    (committed : ∃ phase,w.phaseOf k = some phase ∧ phase.committed) :
    ∃ phase,(step uuid w a).phaseOf k = some phase ∧ phase.committed := by
  obtain ⟨phase,present,committed⟩ := committed
  by_cases own : ∃ write,a = .turn k write
  · obtain ⟨write,rfl⟩ := own
    obtain ⟨c,there,same⟩ := Option.map_eq_some_iff.mp present
    obtain ⟨later,shown,_,keeps⟩ := turn_effect fresh owned there met
    simp only [step,there]
    exact ⟨later,shown,keeps (same ▸ committed)⟩
  · exact ⟨phase,step_others present a fun write same => own ⟨write,same⟩,committed⟩

theorem kept_throughout (fresh : Function.Injective uuid) (owned : Owned uuid w) (logged : Logged w) {actions : List Action}
    (met : Guarded (step uuid) Calm w actions) : Throughout (step uuid) (fun w => Owned uuid w ∧ Logged w) w actions :=
  guarded_keeps (fun _ a both met => ⟨step_owned fresh both.1 a met,step_logged both.1 both.2 a⟩) ⟨owned,logged⟩ met

theorem run_committed (fresh : Function.Injective uuid) (owned : Owned uuid w) {actions : List Action}
    (met : Guarded (step uuid) Calm w actions) (committed : ∃ phase,w.phaseOf k = some phase ∧ phase.committed) :
    ∃ phase,(run (step uuid) w actions).phaseOf k = some phase ∧ phase.committed := by
  have both := @guarded_keeps _ _ _ (fun w => Owned uuid w ∧ ∃ phase,w.phaseOf k = some phase ∧ phase.committed) _ _ _
    (fun _ a both met => ⟨step_owned fresh both.1 a met,step_committed fresh both.1 a met both.2⟩) ⟨owned,committed⟩ met
  exact (throughout_final both).2

theorem failures_leave (fresh : Function.Injective uuid) (owned : Owned uuid w) (logged : Logged w) {actions : List Action}
    (met : Guarded (step uuid) Calm w actions) : FailuresLeave uuid w actions := by
  intro before k write after e shape failed
  rw [shape,guarded_append] at met
  have now := (throughout_final (kept_throughout fresh owned logged met.1)).1
  rw [run_append,run_cons,run_nil]
  rw [shape,run_append,run_cons] at failed
  generalize run (step uuid) w before = reached at met now failed ⊢
  cases there : reached.calls[k]? with
  | none =>
    have still : step uuid reached (.turn k write) = reached := by simp only [step,there]
    rw [still]
    exact ⟨rfl,rfl⟩
  | some c =>
    have turned : step uuid reached (.turn k write) = turn uuid reached k c write := by simp only [step,there]
    obtain ⟨phase,shown,effect,_⟩ := turn_effect fresh now there met.2.1
    rcases effect with committed | unmoved
    · obtain ⟨final,last,kept⟩ := run_committed fresh (step_owned fresh now _ met.2.1) met.2.2 ⟨phase,turned ▸ shown,committed⟩
      cases Option.some.inj (last.symm.trans failed)
      cases kept
    · rw [turned]
      exact unmoved

theorem quiet_held (owned : Owned uuid w) (quiet : w.quiet) (id : String) :
    get w.announcer.instances id = get w.registry.addressings (w.announcer.addressing id) := by
  have none_ : w.calls.filterMap (Call.holds id) = [] := by
    apply List.filterMap_eq_nil_iff.mpr
    intro c member
    have done_ := List.all_eq_true.mp quiet c member
    have empty : c.phase.holds = none := by
      cases at_ : c.phase with
      | done result => rfl
      | _ => rw [at_] at done_; cases done_
    simp [Call.holds,empty]
  have held := owned.held id
  rw [none_,Multiset.coe_nil,add_zero,Multiset.coe_eq_coe] at held
  cases instance_ : get w.announcer.instances id with
  | none =>
    cases live : get w.registry.addressings (w.announcer.addressing id) with
    | none => rfl
    | some canonical => simp [instance_,live] at held
  | some canonical =>
    cases live : get w.registry.addressings (w.announcer.addressing id) with
    | none => simp [instance_,live] at held
    | some other => simpa [instance_,live] using held

-- What the drain still has to go through, and what it has emitted.
structure Draining (uuid : Nat → String) (w : World) (d : Drain) (rest : List (String × String)) : Prop where
  named : d.announcer.pluginName = w.announcer.pluginName
  shelf : d.announcer.targetShelf = w.announcer.targetShelf
  owned : Owned uuid ⟨d.announcer,d.registry,[],[],[]⟩
  entries : ∀ id canonical,get d.announcer.instances id = some canonical ↔ (id,canonical) ∈ rest

theorem drainOne_exact {d : Drain} {entry : String × String} {rest : List (String × String)} (fresh : Function.Injective uuid)
    (draining : Draining uuid w d (entry::rest)) (apart : entry.1 ∉ rest.map (·.1)) (busTakes : String → Bool) :
    Draining uuid w (drainOne busTakes d entry) rest ∧ (drainOne busTakes d entry).errored = d.errored ∧
      (drainOne busTakes d entry).emitted = d.emitted ++ if busTakes entry.1 then [w.retracted entry] else [] := by
  obtain ⟨named,shelf,owned,entries⟩ := draining
  have instance_ := (entries entry.1 entry.2).mpr List.mem_cons_self
  have held := quiet_held owned rfl entry.1
  rw [instance_] at held
  obtain ⟨type_,there⟩ := owned.single entry.1 entry.2 held.symm
  obtain ⟨outcome,after,shape,addressings,subjects⟩ := drops held.symm there none
  have kept : SubjectAliases.Keeps uuid d.registry (SubjectRegistry.retract d.registry (d.announcer.addressing entry.1)
    d.announcer.pluginName none) := SubjectAliases.retract_keeps fresh owned.sound
  have shape_ : SubjectRegistry.retract d.registry (({ d.announcer with instances := d.announcer.instances.erase entry.1 } : Announcer).addressing entry.1)
      d.announcer.pluginName none = (.ok outcome,after) := shape
  rw [shape] at kept
  simp only [drainOne,shape_]
  refine ⟨⟨named,shelf,⟨kept.sound,fun id => ?_,?_⟩,fun id canonical => ?_⟩,trivial,?_⟩
  · have was := owned.held id
    have addressing : ({ d.announcer with instances := d.announcer.instances.erase entry.1 } : Announcer).addressing id =
        d.announcer.addressing id := rfl
    dsimp only at was ⊢
    rw [addressing,addressings,get_erase]
    by_cases same : id = entry.1
    · subst same
      simp
    · rw [if_neg same,if_neg fun equal => same (addressing_inj equal)]
      exact was
  · exact dropped_single owned held.symm addressings subjects
  · rw [get_erase]
    constructor
    · intro found
      split at found
      · cases found
      · rename_i other
        refine (List.mem_cons.mp ((entries id canonical).mp found)).resolve_left ?_
        rintro rfl
        exact other rfl
    · intro member
      have other : id ≠ entry.1 := by
        rintro rfl
        exact apart (List.mem_map.mpr ⟨_,member,rfl⟩)
      rw [if_neg other]
      exact (entries id canonical).mpr (List.mem_cons_of_mem _ member)
  · simp only [World.retracted,named,shelf]
    split <;> simp

theorem drain_exact (fresh : Function.Injective uuid) (busTakes : String → Bool) {d : Drain} {rest : List (String × String)}
    (draining : Draining uuid w d rest) (apart : (rest.map (·.1)).Nodup) :
    Draining uuid w (rest.foldl (drainOne busTakes) d) [] ∧ (rest.foldl (drainOne busTakes) d).errored = d.errored ∧
      (rest.foldl (drainOne busTakes) d).emitted = d.emitted ++ (rest.filter fun entry => busTakes entry.1).map w.retracted := by
  induction rest generalizing d with
  | nil => exact ⟨draining,rfl,by simp⟩
  | cons entry rest ih =>
    obtain ⟨away,later⟩ := List.nodup_cons.mp apart
    obtain ⟨next,errored,emitted⟩ := drainOne_exact fresh draining away busTakes
    obtain ⟨final,errored_,emitted_⟩ := ih next later
    refine ⟨final,errored_.trans errored,?_⟩
    rw [List.foldl_cons,emitted_,emitted,List.filter_cons]
    split <;> simp_all

theorem mem_drainOrder {a : Announcer} : (id,canonical) ∈ drainOrder a ↔ get a.instances id = some canonical := by
  rw [drainOrder,(List.mergeSort_perm _ _).mem_iff,← entries_get,List.mem_map]
  constructor
  · rintro ⟨e,member,same⟩
    obtain ⟨key,value⟩ := e
    cases same
    exact member
  · exact fun member => ⟨⟨id,canonical⟩,member,rfl⟩

theorem drainOrder_nodup (a : Announcer) : ((drainOrder a).map (·.1)).Nodup := by
  have perm := ((List.mergeSort_perm (a.instances.entries.map fun e => (e.1,e.2)) fun left right => decide (right.1 ≤ left.1)).map (·.1)).nodup_iff
  rw [drainOrder,perm,List.map_map]
  exact a.instances.nodupKeys

theorem drainOrder_descends (a : Announcer) : ((drainOrder a).map (·.1)).Pairwise (· > ·) := by
  have sorted := @List.pairwise_mergeSort _ (fun left right : String × String => decide (right.1 ≤ left.1))
    (fun x y z first second => by
      simp only [decide_eq_true_eq] at first second ⊢
      exact le_trans second first)
    (fun x y => by
      simp only [Bool.or_eq_true,decide_eq_true_eq]
      exact le_total _ _) (a.instances.entries.map fun e => (e.1,e.2))
  have weak : ((drainOrder a).map (·.1)).Pairwise (· ≥ ·) := by
    rw [List.pairwise_map]
    exact sorted.imp fun ordered => of_decide_eq_true ordered
  exact (weak.and (drainOrder_nodup a)).imp fun both => lt_of_le_of_ne both.1 both.2.symm

theorem drainOrder_standing (logged : Logged w) :
    drainOrder w.announcer = (standing w.history).map (fun id => (id,(get w.announcer.instances id).getD "")) ↔ (standing w.history).Pairwise (· > ·) := by
  have names : ((standing w.history).map fun id => (id,(get w.announcer.instances id).getD "")).map (·.1) = standing w.history := by
    simp [Function.comp_def]
  have members : ((drainOrder w.announcer).map (·.1)).Perm (standing w.history) := by
    rw [List.perm_ext_iff_of_nodup (drainOrder_nodup _) (standing_nodup logged.alternates)]
    intro id
    rw [logged.members,List.mem_map,Option.isSome_iff_exists]
    constructor
    · rintro ⟨entry,member,rfl⟩
      exact ⟨entry.2,mem_drainOrder.mp member⟩
    · rintro ⟨canonical,entry⟩
      exact ⟨(id,canonical),mem_drainOrder.mpr entry,rfl⟩
  constructor
  · intro same
    have descends := drainOrder_descends w.announcer
    rwa [same,names] at descends
  · intro descends
    have order : (drainOrder w.announcer).map (·.1) = standing w.history :=
      members.eq_of_pairwise (fun x y _ _ left right => absurd left (lt_asymm right)) (drainOrder_descends _) descends
    rw [← order,List.map_map]
    refine (List.map_id' _).symm.trans (List.map_congr_left fun entry member => ?_)
    simp [mem_drainOrder.mp member]

theorem retracted_inj : Function.Injective w.retracted := by
  intro left right same
  injection same with _ ids canonicals
  exact Prod.ext ids canonicals

theorem drain_whole (fresh : Function.Injective uuid) (owned : Owned uuid w) (logged : Logged w) (quiet : w.quiet) (busTakes : String → Bool) :
    (∀ id,get (retractAllForDrain w busTakes).registry.addressings (w.announcer.addressing id) = none) ∧
    (retractAllForDrain w busTakes).errored = 0 ∧ ((∀ id,busTakes id = true) →
      ((retractAllForDrain w busTakes).emitted = w.unwinding ↔
        (standing w.history).Pairwise (· > ·))) := by
  have start : Draining uuid w ⟨w.announcer,w.registry,[],0,0⟩ (drainOrder w.announcer) := by
    refine ⟨rfl,rfl,⟨owned.sound,fun id => ?_,owned.single⟩,fun id canonical => mem_drainOrder.symm⟩
    have held := quiet_held owned quiet id
    dsimp only
    rw [held]
    simp
  obtain ⟨final,errored,emitted⟩ := drain_exact fresh busTakes start (drainOrder_nodup _)
  refine ⟨fun id => ?_,errored,fun takes => ?_⟩
  · have held := quiet_held final.owned rfl id
    have addressing : (retractAllForDrain w busTakes).announcer.addressing id = w.announcer.addressing id := by
      have named : (retractAllForDrain w busTakes).announcer.pluginName = w.announcer.pluginName := final.named
      simp [Announcer.addressing,named]
    have live : get (retractAllForDrain w busTakes).announcer.instances id =
        get (retractAllForDrain w busTakes).registry.addressings ((retractAllForDrain w busTakes).announcer.addressing id) := held
    rw [← addressing,← live]
    by_contra some_
    obtain ⟨canonical,entry⟩ := Option.ne_none_iff_exists'.mp some_
    have left := (final.entries id canonical).mp entry
    cases left
  · have all : (drainOrder w.announcer).filter (fun entry => busTakes entry.1) = drainOrder w.announcer := by
      rw [List.filter_eq_self]
      exact fun entry _ => takes entry.1
    have shape : (retractAllForDrain w busTakes).emitted = (drainOrder w.announcer).map w.retracted := by
      rw [all,List.nil_append] at emitted
      exact emitted
    rw [shape,← drainOrder_standing logged]
    have composed : w.unwinding = ((standing w.history).map fun id => (id,(get w.announcer.instances id).getD "")).map w.retracted := by
      simp [World.unwinding]
    rw [composed]
    exact (List.map_injective_iff.mpr retracted_inj).eq_iff

theorem fresh_owned (shelf : String) (policy : RetractionPolicy) (persistent : Bool) (sound : Sound uuid s)
    (clear : ∀ id,get s.addressings ⟨factoryInstanceScheme,addressingValue plugin id⟩ = none) :
    Owned uuid (.fresh plugin shelf policy persistent s) ∧ Logged (.fresh plugin shelf policy persistent s) := by
  have dead : ∀ id,get s.addressings ((World.fresh plugin shelf policy persistent s).announcer.addressing id) = none := clear
  refine ⟨⟨sound,fun id => ?_,fun id canonical live => ?_⟩,trivial,fun id => ?_⟩
  · have live : get (World.fresh plugin shelf policy persistent s).registry.addressings
        ((World.fresh plugin shelf policy persistent s).announcer.addressing id) = none := clear id
    rw [live]
    simp [World.fresh]
  · rw [show (World.fresh plugin shelf policy persistent s).registry = s from rfl,dead] at live
    cases live
  · simp [World.fresh,standing]

theorem instances_kept (uuid : Nat → String) (fresh : Function.Injective uuid) (past : List SubjectRegistry.Call) (plugin shelf : String)
    (policy : RetractionPolicy) (persistent : Bool) (actions : List Action)
    (clear : ∀ id,get (run (SubjectRegistry.step uuid) .new past).inner.addressings ⟨factoryInstanceScheme,addressingValue plugin id⟩ = none)
    (met : Guarded (step uuid) Calm (.fresh plugin shelf policy persistent (run (SubjectRegistry.step uuid) .new past).inner) actions) :
    let start := World.fresh plugin shelf policy persistent (run (SubjectRegistry.step uuid) .new past).inner
    let last := run (step uuid) start actions
    FailuresLeave uuid start actions ∧ Throughout (step uuid) NoDouble start actions ∧ Throughout (step uuid) Agree start actions ∧
      (last.quiet → ∀ busTakes,
        (∀ id,get (retractAllForDrain last busTakes).registry.addressings (last.announcer.addressing id) = none) ∧
        ((∀ id,busTakes id = true) →
          ((retractAllForDrain last busTakes).emitted = last.unwinding ↔ (standing last.history).Pairwise (· > ·)))) := by
  intro start last
  have held := SubjectAliases.run_held (r := .new) fresh ⟨rfl,SubjectAliases.new_sound⟩ past
  obtain ⟨owned,logged⟩ := fresh_owned shelf policy persistent held.2 clear
  have kept := throughout_prefixes.mp (kept_throughout fresh owned logged met)
  obtain ⟨owned_,logged_⟩ := throughout_final (kept_throughout fresh owned logged met)
  refine ⟨failures_leave fresh owned logged met,throughout_prefixes.mpr fun k => logged_noDouble (kept k).2,
    throughout_prefixes.mpr fun k quiet id => ?_,fun quiet busTakes => ?_⟩
  · exact congrArg Option.isSome (quiet_held (kept k).1 quiet id)
  · obtain ⟨clear_,_,order⟩ := drain_whole fresh owned_ logged_ quiet busTakes
    exact ⟨clear_,order⟩

def turns (k : Nat) : List Action := List.replicate 5 (.turn k (.ok ()))
def dacs : World := .fresh "org.dac" "audio" .dynamic true (run (SubjectRegistry.step SubjectAliases.strokes) .new []).inner
def reached (actions : List Action) : World := run (step SubjectAliases.strokes) dacs actions
def twoDacs : List Action := [Action.announce "a" 0] ++ turns 0 ++ [Action.announce "b" 0] ++ turns 1

theorem ascending_unwinds : (retractAllForDrain (reached twoDacs) fun _ => true).emitted = (reached twoDacs).unwinding := by
  have quiet : (reached twoDacs).quiet = true := by decide
  have ascending : (standing (reached twoDacs).history).Pairwise (· > ·) := by decide
  have kept := instances_kept SubjectAliases.strokes SubjectAliases.strokes_fresh [] "org.dac" "audio" .dynamic true twoDacs
    (fun _ => get_empty) (by decide)
  exact ((kept.2.2.2 quiet fun _ => true).2 fun _ => rfl).mpr ascending

-- A store that refuses the announce leaves the instance behind an Err. Two announces at the same time
-- are both told Ok. A retract between a second announce's look at the map and its own drop takes the
-- addressing away from under it. The drain goes by name, not by age.
theorem instance_escapes :
    ¬ FailuresLeave SubjectAliases.strokes dacs ([Action.announce "a" 0] ++ List.replicate 4 (Action.turn 0 (.error "disk full"))) ∧
    ¬ NoDouble (reached (([.announce "a" 0,.announce "a" 0,.turn 0 (.ok ()),.turn 1 (.ok ())] : List Action) ++ turns 0 ++ turns 1)) ∧
    ¬ Agree (reached ([Action.announce "a" 0] ++ turns 0 ++ ([.retract "a",.turn 1 (.ok ()),.announce "a" 0,.turn 2 (.ok ()),.turn 2 (.ok ())] : List Action) ++
      turns 1 ++ turns 2)) ∧
    (retractAllForDrain (reached ([Action.announce "b" 0] ++ turns 0 ++ [Action.announce "a" 0] ++ turns 1)) fun _ => true).emitted ≠
      (reached ([Action.announce "b" 0] ++ turns 0 ++ [Action.announce "a" 0] ++ turns 1)).unwinding := by
  refine ⟨fun leaves => ?_,fun double => ?_,fun agree => ?_,fun unwinds => ?_⟩
  · have left := leaves [.announce "a" 0,.turn 0 (.error "disk full")] 0 (.error "disk full") (List.replicate 2 (.turn 0 (.error "disk full")))
      (.invalid "factory instance announce persist failed: disk full") rfl (by decide)
    have live := congrArg (fun registry => get registry.addressings ⟨factoryInstanceScheme,"org.dac/a"⟩) left.2
    revert live
    decide
  · obtain ⟨m,taken⟩ := double [] [] [] 0 1 "a" (by decide) (by decide) (by decide)
    cases taken
  · have same := agree (by decide) "a"
    revert same
    decide
  · obtain ⟨owned,logged⟩ := @fresh_owned SubjectAliases.strokes _ "org.dac" "audio" .dynamic true SubjectAliases.new_sound fun _ => get_empty
    have kept := throughout_final (kept_throughout SubjectAliases.strokes_fresh owned logged
      (by decide : Guarded (step SubjectAliases.strokes) Calm (.fresh "org.dac" "audio" .dynamic true .new)
        ([Action.announce "b" 0] ++ turns 0 ++ [Action.announce "a" 0] ++ turns 1)))
    have quiet : (run (step SubjectAliases.strokes) (.fresh "org.dac" "audio" .dynamic true .new)
      ([Action.announce "b" 0] ++ turns 0 ++ [Action.announce "a" 0] ++ turns 1)).quiet = true := by decide
    have order := (drain_whole SubjectAliases.strokes_fresh kept.1 kept.2 quiet fun _ => true).2.2 fun _ => rfl
    have ascending := order.mp unwinds
    revert ascending
    decide

end EvoCore.FactoryInstances
