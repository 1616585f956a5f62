import EvoCore.StreamFanOut

namespace EvoCore.Streams
open Runs Tables

def touchEach (change : ConsumerEntry → SlotState → SlotState) (receivers : List ConsumerRx) (consumers : List ConsumerEntry) : List ConsumerRx :=
  consumers.foldl (fun receivers consumer => onSlot receivers consumer.slot (change consumer)) receivers

def ConsumerEntry.advanced (consumer : ConsumerEntry) : ConsumerEntry := {consumer with nextSeq := (consumer.nextSeq+1) % 2^64}

-- A subscription that draws an id, granted or not.
def Action.draws : Action → Bool
  | .subscribe _ policy => policy ≠ .block
  | _ => false

def StreamCoordinator.handles (c : StreamCoordinator) : List ConsumerHandle := c.receivers.map ConsumerRx.handle

-- After as many drawn ids: the entries and the receivers match, and while the ids have not gone round no two
-- receivers have the same.
structure Sound (c : StreamCoordinator) (drawn : Nat) : Prop where
  next : c.nextConsumerId = drawn % 2^64
  matched : ∀ streamId reg,get c.streams streamId = some reg → ∀ consumer ∈ reg.consumers,
    c.handles[consumer.slot]? = some ⟨streamId,consumer.consumerId⟩
  single : ∀ streamId reg,get c.streams streamId = some reg → (reg.consumers.map ConsumerEntry.slot).Nodup
  apart : (c.handles.map ConsumerHandle.consumerId).Nodup
  below : ∀ handle ∈ c.handles,handle.consumerId < drawn

section
variable {receivers : List ConsumerRx} {consumers : List ConsumerEntry} {change : ConsumerEntry → SlotState → SlotState}
  {place : Nat} {rx : ConsumerRx} {consumer : ConsumerEntry}

theorem onSlot_handles {only : SlotState → SlotState} :
    (onSlot receivers place only).map ConsumerRx.handle = receivers.map ConsumerRx.handle := by
  apply List.ext_getElem?
  intro i
  simp only [onSlot,List.getElem?_map,List.getElem?_modify]
  cases receivers[i]? with
  | none => rfl
  | some rx => by_cases same : place = i <;> simp [same]

theorem touchEach_handles : (touchEach change receivers consumers).map ConsumerRx.handle = receivers.map ConsumerRx.handle := by
  induction consumers generalizing receivers with
  | nil => rfl
  | cons consumer rest ih => exact ih.trans onSlot_handles

theorem touchEach_other (there : receivers[place]? = some rx) (outside : place ∉ consumers.map ConsumerEntry.slot) :
    (touchEach change receivers consumers)[place]? = some rx := by
  induction consumers generalizing receivers with
  | nil => exact there
  | cons consumer rest ih =>
    rw [List.map_cons,List.mem_cons,not_or] at outside
    exact ih (modify_other there fun same => outside.1 same.symm) outside.2

theorem touchEach_same (there : receivers[consumer.slot]? = some rx) (single : (consumers.map ConsumerEntry.slot).Nodup)
    (member : consumer ∈ consumers) :
    (touchEach change receivers consumers)[consumer.slot]? = some {rx with slot := change consumer rx.slot} := by
  induction consumers generalizing receivers with
  | nil => cases member
  | cons first rest ih =>
    rw [List.map_cons,List.nodup_cons] at single
    rcases List.mem_cons.mp member with rfl | later
    · have put : (onSlot receivers consumer.slot (change consumer))[consumer.slot]? = some {rx with slot := change consumer rx.slot} :=
        modify_same there
      have served : (touchEach change (onSlot receivers consumer.slot (change consumer)) rest)[consumer.slot]? = _ := touchEach_other put single.1
      exact served
    · have other : first.slot ≠ consumer.slot := fun same => single.1 (same ▸ List.mem_map_of_mem later)
      exact ih (modify_other there other) single.2 later

theorem serve_rounds (consumers : List ConsumerEntry) (e : Emission) (r : Round) :
    (consumers.foldl (Round.serve e) r).consumers = r.consumers++consumers.map ConsumerEntry.advanced ∧
    (consumers.foldl (Round.serve e) r).receivers =
      touchEach (fun consumer g => (consumer.offer g (e.frame consumer.nextSeq)).2) r.receivers consumers := by
  induction consumers generalizing r with
  | nil => exact ⟨(List.append_nil _).symm,rfl⟩
  | cons consumer rest ih =>
    obtain ⟨served,touched⟩ := ih (r.serve e consumer)
    refine ⟨?_,touched⟩
    rw [List.foldl_cons,served]
    simp [Round.serve,ConsumerEntry.advanced]

end

section
variable (debug : String → String) {c : StreamCoordinator} {drawn : Nat} {streamId : String} {reg : StreamRegistration}
  {consumer : ConsumerEntry}

theorem sound_start : Sound .new 0 where
  next := rfl
  matched streamId reg there := by simp [StreamCoordinator.new] at there
  single streamId reg there := by simp [StreamCoordinator.new] at there
  apart := by simp [StreamCoordinator.new,StreamCoordinator.handles]
  below handle member := by simp [StreamCoordinator.new,StreamCoordinator.handles] at member

theorem Sound.narrowed {after : StreamCoordinator} (sound : Sound c drawn) (next : after.nextConsumerId = c.nextConsumerId)
    (handles : after.handles = c.handles)
    (streams : ∀ streamId reg,get after.streams streamId = some reg → reg.consumers = [] ∨
      ∃ before,get c.streams streamId = some before ∧
        (reg.consumers.map fun consumer => (consumer.slot,consumer.consumerId)).Sublist
          (before.consumers.map fun consumer => (consumer.slot,consumer.consumerId))) : Sound after drawn where
  next := next.trans sound.next
  matched streamId reg there consumer member := by
    rw [handles]
    rcases streams streamId reg there with empty | ⟨before,was,part⟩
    · rw [empty] at member
      cases member
    · obtain ⟨old,among,same⟩ := List.mem_map.mp (part.subset (List.mem_map_of_mem member))
      obtain ⟨slot,id⟩ := Prod.mk.inj same
      rw [← slot,← id]
      exact sound.matched streamId before was old among
  single streamId reg there := by
    rcases streams streamId reg there with empty | ⟨before,was,part⟩
    · simp [empty]
    · have slots := part.map Prod.fst
      rw [List.map_map,List.map_map] at slots
      exact (sound.single streamId before was).sublist slots
  apart := handles ▸ sound.apart
  below := handles ▸ sound.below

theorem handles_there {handle : ConsumerHandle} {place : Nat} (there : c.handles[place]? = some handle) :
    ∃ rx,c.receivers[place]? = some rx ∧ rx.handle = handle := by
  rw [StreamCoordinator.handles,List.getElem?_map] at there
  exact Option.map_eq_some_iff.mp there

theorem emit_missing (missing : get c.streams streamId = none) {e : Emission} : (c.emit streamId e).2 = c := by
  rw [StreamCoordinator.emit,missing]

theorem emit_found (found : get c.streams streamId = some reg) (e : Emission) :
    (∀ other,get (c.emit streamId e).2.streams other =
      if other = streamId then some {reg with consumers := reg.consumers.map ConsumerEntry.advanced} else get c.streams other) ∧
    (c.emit streamId e).2.receivers =
      touchEach (fun consumer g => (consumer.offer g (e.frame consumer.nextSeq)).2) c.receivers reg.consumers ∧
    (c.emit streamId e).2.nextConsumerId = c.nextConsumerId := by
  simp only [StreamCoordinator.emit,found]
  split
  · rename_i empty
    have nobody := List.isEmpty_iff.mp empty
    refine ⟨?_,by rw [nobody]; rfl,rfl⟩
    intro other
    split
    · rename_i same
      rw [same,found,nobody]
      cases reg
      cases nobody
      rfl
    · rfl
  · obtain ⟨served,touched⟩ := serve_rounds reg.consumers e ⟨[],c.receivers,0,0⟩
    refine ⟨?_,touched,rfl⟩
    intro other
    rw [get_insert,serveAll,served,List.nil_append]

theorem sound_openStream (sound : Sound c drawn) (spec : StreamSpec) : Sound (c.openStream debug streamId spec).2 drawn := by
  rw [StreamCoordinator.openStream]
  split
  · split <;> exact sound
  · refine sound.narrowed rfl rfl ?_
    intro other reg there
    rw [get_insert] at there
    split at there
    · exact .inl (by rw [← Option.some.inj there])
    · exact .inr ⟨reg,there,List.Sublist.refl _⟩

theorem sound_close (sound : Sound c drawn) : Sound (c.close streamId).2 drawn := by
  rw [StreamCoordinator.close]
  split
  · exact sound
  · rename_i reg found
    refine sound.narrowed rfl (@touchEach_handles c.receivers reg.consumers fun _ => SlotState.close) ?_
    intro other reg_ there
    rw [get_erase] at there
    split at there
    · cases there
    · exact .inr ⟨reg_,there,List.Sublist.refl _⟩

theorem sound_emit (sound : Sound c drawn) (e : Emission) : Sound (c.emit streamId e).2 drawn := by
  cases found : get c.streams streamId with
  | none =>
    rw [emit_missing found]
    exact sound
  | some reg =>
    obtain ⟨streams,receivers,next⟩ := emit_found found e
    refine sound.narrowed next ?_ ?_
    · rw [StreamCoordinator.handles,receivers,touchEach_handles]
      rfl
    · intro other reg_ there
      rw [streams] at there
      split at there
      · rename_i same
        subst same
        refine .inr ⟨reg,found,?_⟩
        rw [← Option.some.inj there]
        simp [ConsumerEntry.advanced,Function.comp_def]
      · exact .inr ⟨reg_,there,List.Sublist.refl _⟩

theorem sound_unsubscribe (sound : Sound c drawn) (handle : ConsumerHandle) : Sound (c.unsubscribe handle) drawn := by
  refine sound.narrowed rfl rfl ?_
  intro other reg there
  rw [StreamCoordinator.unsubscribe,get_modify] at there
  split at there
  · rename_i same
    obtain ⟨before,was,rfl⟩ := Option.map_eq_some_iff.mp there
    exact .inr ⟨before,same ▸ was,List.filter_sublist.map _⟩
  · exact .inr ⟨reg,there,List.Sublist.refl _⟩

theorem sound_onSlot (sound : Sound c drawn) (place : Nat) (change : SlotState → SlotState) :
    Sound {c with receivers := onSlot c.receivers place change} drawn := by
  refine sound.narrowed rfl onSlot_handles ?_
  intro other reg there
  exact .inr ⟨reg,there,List.Sublist.refl _⟩

theorem sound_drawn (sound : Sound c drawn) : Sound {c with nextConsumerId := (c.nextConsumerId+1) % 2^64} (drawn+1) where
  next := by
    have next := sound.next
    change (c.nextConsumerId+1) % 2^64 = (drawn+1) % 2^64
    omega
  matched := sound.matched
  single := sound.single
  apart := sound.apart
  below handle member := Nat.lt_succ_of_lt (sound.below handle member)

def StreamCoordinator.grant (c : StreamCoordinator) (streamId : String) (policy : BackpressurePolicy) (reg : StreamRegistration) : StreamCoordinator where
  streams := c.streams.insert streamId {reg with consumers := reg.consumers++[⟨c.nextConsumerId,policy,c.receivers.length,0⟩]}
  nextConsumerId := (c.nextConsumerId+1) % 2^64
  receivers := c.receivers++[⟨SlotState.new,⟨streamId,c.nextConsumerId⟩⟩]

theorem subscribe_cases {policy : BackpressurePolicy} :
    (∃ reg,get c.streams streamId = some reg ∧ policy ≠ .block ∧
      c.subscribe streamId policy = (.ok c.receivers.length,c.grant streamId policy reg)) ∨
    ((∀ receiver,(c.subscribe streamId policy).1 ≠ .ok receiver) ∧ (c.subscribe streamId policy).2 =
      if policy = .block then c else {c with nextConsumerId := (c.nextConsumerId+1) % 2^64}) := by
  rw [StreamCoordinator.subscribe]
  split
  · exact .inr ⟨fun receiver granted => (by cases granted),rfl⟩
  · rename_i able
    split
    · exact .inr ⟨fun receiver granted => (by cases granted),rfl⟩
    · rename_i reg found
      split
      · exact .inl ⟨reg,found,able,rfl⟩
      · exact .inr ⟨fun receiver granted => (by cases granted),rfl⟩

theorem Sound.place_bound (sound : Sound c drawn) (found : get c.streams streamId = some reg) (member : consumer ∈ reg.consumers) :
    consumer.slot < c.receivers.length := by
  obtain ⟨rx,there,_⟩ := handles_there (sound.matched streamId reg found consumer member)
  exact (List.getElem?_eq_some_iff.mp there).choose

theorem sound_grant (sound : Sound c drawn) (found : get c.streams streamId = some reg) (fresh : drawn < 2^64)
    (policy : BackpressurePolicy) : Sound (c.grant streamId policy reg) (drawn+1) := by
  have id : c.nextConsumerId = drawn := sound.next.trans (Nat.mod_eq_of_lt fresh)
  have handles : (c.grant streamId policy reg).handles = c.handles++[⟨streamId,drawn⟩] := by
    simp [StreamCoordinator.grant,StreamCoordinator.handles,id]
  have grown : ∀ other reg_,get (c.grant streamId policy reg).streams other = some reg_ → get c.streams other = some reg_ ∨
      other = streamId ∧ reg_.consumers = reg.consumers++[⟨drawn,policy,c.receivers.length,0⟩] := by
    intro other reg_ there
    rw [StreamCoordinator.grant,get_insert,id] at there
    split at there
    · rename_i same
      exact .inr ⟨same,by rw [← Option.some.inj there]⟩
    · exact .inl there
  refine ⟨?_,?_,?_,?_,?_⟩
  · rw [StreamCoordinator.grant,id]
  · intro other reg_ there consumer member
    rw [handles]
    rcases grown other reg_ there with was | ⟨rfl,consumers⟩
    · exact append_there (sound.matched other reg_ was consumer member)
    · rw [consumers,List.mem_append,List.mem_singleton] at member
      rcases member with old | rfl
      · exact append_there (sound.matched other reg found consumer old)
      · simp [StreamCoordinator.handles]
  · intro other reg_ there
    rcases grown other reg_ there with was | ⟨rfl,consumers⟩
    · exact sound.single other reg_ was
    · rw [consumers,List.map_append,List.nodup_append]
      refine ⟨sound.single other reg found,List.nodup_singleton _,?_⟩
      intro slot among last member same
      obtain ⟨old,there_,rfl⟩ := List.mem_map.mp among
      rw [List.map_singleton,List.mem_singleton] at member
      exact absurd (same.trans member) (sound.place_bound found there_).ne
  · rw [handles,List.map_append,List.nodup_append]
    refine ⟨sound.apart,List.nodup_singleton _,?_⟩
    intro id_ among last member same
    obtain ⟨handle,there,rfl⟩ := List.mem_map.mp among
    rw [List.map_singleton,List.mem_singleton] at member
    exact absurd (same.trans member) (sound.below handle there).ne
  · intro handle member
    rw [handles,List.mem_append,List.mem_singleton] at member
    rcases member with old | rfl
    · exact Nat.lt_succ_of_lt (sound.below handle old)
    · exact Nat.lt_succ_self _

theorem sound_subscribe (sound : Sound c drawn) {policy : BackpressurePolicy} (within : policy ≠ .block → drawn < 2^64) :
    Sound (c.subscribe streamId policy).2 (if policy = .block then drawn else drawn+1) := by
  rcases subscribe_cases with ⟨reg,found,able,granted⟩ | ⟨_,refused⟩
  · rw [granted,if_neg able]
    exact sound_grant sound found (within able) policy
  · rw [refused]
    split
    · exact sound
    · exact sound_drawn sound

theorem sound_step {action : Action} (sound : Sound c drawn) (within : drawn+(if action.draws then 1 else 0) ≤ 2^64) :
    Sound (step debug c action) (drawn+if action.draws then 1 else 0) := by
  cases action with
  | openStream streamId spec => exact sound_openStream debug sound spec
  | close streamId => exact sound_close sound
  | emit streamId e => exact sound_emit sound e
  | subscribe streamId policy =>
    have kept := @sound_subscribe c drawn streamId sound policy
    by_cases blocked : policy = .block
    · have quiet : (Action.subscribe streamId policy).draws = false := by simp [Action.draws,blocked]
      rw [if_pos blocked] at kept
      rw [quiet]
      exact kept fun able => absurd blocked able
    · have draws : (Action.subscribe streamId policy).draws = true := by simp [Action.draws,blocked]
      rw [if_neg blocked] at kept
      rw [draws,if_pos rfl] at within ⊢
      exact kept fun _ => within
  | unsubscribe receiver =>
    simp only [step,perform]
    split
    · exact sound_unsubscribe sound _
    · exact sound
  | recv receiver =>
    simp only [step,perform]
    split
    · exact sound_onSlot sound receiver _
    · exact sound
  | tryRecv receiver =>
    simp only [step,perform]
    split
    · exact sound_onSlot sound receiver _
    · exact sound

theorem sound_run {actions : List Action} (sound : Sound c drawn) (within : drawn+actions.countP Action.draws ≤ 2^64) :
    Sound (run (step debug) c actions) (drawn+actions.countP Action.draws) := by
  induction actions generalizing c drawn with
  | nil => exact sound
  | cons action rest ih =>
    rw [List.countP_cons,Nat.add_comm (rest.countP Action.draws),← Nat.add_assoc] at within ⊢
    exact ih (sound_step debug sound (Nat.le_of_add_right_le within)) within

end

end EvoCore.Streams
