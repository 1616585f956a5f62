import EvoCore.Tables

namespace EvoCore.SingleFlights
open Tables

-- Calls that share work by key: the first one to ask opens a channel under the key and
-- does the work, those that come while it is open wait on the channel, and the worker
-- takes the entry away when it lands. Nothing below knows what the work is.
inductive Role where
  | idle
  | waits (channel : Nat)
  | works
  deriving DecidableEq,Repr

-- A channel has the key it was opened under, and what it was closed with; its owner is the
-- call that opened it.
structure Flights (κ ρ : Type) where
  inflight : Table κ Nat
  channels : List (κ × Option ρ)
  owners : List Nat
  calls : List (κ × Role)

inductive Move (κ ρ : Type) where
  | enter (key : κ)
  | stay
  | rest (i : Nat)
  | join (i : Nat)
  | land (i : Nat) (result : ρ)
  | wipe

section
variable {κ ρ : Type} [DecidableEq κ]

def Flights.setRole (flights : Flights κ ρ) (i : Nat) (role : Role) : Flights κ ρ :=
  { flights with calls := flights.calls.modify i fun call => (call.1,role) }

def Flights.join (flights : Flights κ ρ) (i : Nat) (key : κ) : Flights κ ρ :=
  match get flights.inflight key with
  | some channel => flights.setRole i (.waits channel)
  | none =>
    { flights.setRole i .works with
      inflight := flights.inflight.insert key flights.channels.length
      channels := flights.channels++[(key,none)]
      owners := flights.owners++[i] }

def Flights.land (flights : Flights κ ρ) (i : Nat) (key : κ) (result : ρ) : Flights κ ρ :=
  match get flights.inflight key with
  | some channel =>
    { flights.setRole i .idle with
      inflight := flights.inflight.erase key
      channels := flights.channels.modify channel fun opened => (opened.1,some result) }
  | none => flights.setRole i .idle

-- Only a worker lands, and a worker does nothing else.
def Flights.restAt (flights : Flights κ ρ) (i : Nat) : Flights κ ρ :=
  match flights.calls[i]? with
  | some (_,.works) | none => flights
  | some _ => flights.setRole i .idle

def Flights.joinAt (flights : Flights κ ρ) (i : Nat) : Flights κ ρ :=
  match flights.calls[i]? with
  | some (_,.works) | none => flights
  | some (key,_) => flights.join i key

def Flights.landAt (flights : Flights κ ρ) (i : Nat) (result : ρ) : Flights κ ρ :=
  match flights.calls[i]? with
  | some (key,.works) => flights.land i key result
  | _ => flights

def fly (flights : Flights κ ρ) : Move κ ρ → Flights κ ρ
  | .enter key => { flights with calls := flights.calls++[(key,.idle)] }
  | .stay => flights
  | .rest i => flights.restAt i
  | .join i => flights.joinAt i
  | .land i result => flights.landAt i result
  | .wipe => ⟨∅,[],[],flights.calls.map fun call => (call.1,.idle)⟩

omit [DecidableEq κ] in
theorem restAt_quiet {flights : Flights κ ρ} (found : flights.calls[i]? = some (key,role)) (quiet : role ≠ Role.works) :
    flights.restAt i = flights.setRole i .idle := by
  unfold Flights.restAt
  split
  · rename_i other works
    rw [found] at works
    cases works
    exact absurd rfl quiet
  · rename_i gone
    rw [found] at gone
    cases gone
  · rfl

theorem joinAt_quiet {flights : Flights κ ρ} (found : flights.calls[i]? = some (key,role)) (quiet : role ≠ Role.works) :
    flights.joinAt i = flights.join i key := by
  cases role with
  | works => exact absurd rfl quiet
  | idle => rw [Flights.joinAt,found]
  | waits channel => rw [Flights.joinAt,found]

def Works (flights : Flights κ ρ) (i : Nat) (key : κ) : Prop := flights.calls[i]? = some (key,Role.works)

-- An entry stands for one open channel, whose owner is at work; a worker has its own entry.
structure Sound (flights : Flights κ ρ) : Prop where
  owned : flights.owners.length = flights.channels.length
  entry : ∀ key channel,get flights.inflight key = some channel →
    flights.channels[channel]? = some (key,none) ∧ ∃ i,flights.owners[channel]? = some i ∧ Works flights i key
  worker : ∀ i key,Works flights i key → ∃ channel,get flights.inflight key = some channel ∧ flights.owners[channel]? = some i
  waiter : ∀ (i : Nat) (key : κ) (channel : Nat),flights.calls[i]? = some (key,Role.waits channel) →
    ∃ result,flights.channels[channel]? = some (key,result) ∧ (result = none → get flights.inflight key = some channel)

variable {flights : Flights κ ρ}

theorem sound_alone (sound : Sound flights) (one : Works flights i key) (two : Works flights j key) : i = j := by
  obtain ⟨channel,found,mine⟩ := sound.worker i key one
  obtain ⟨other,again,yours⟩ := sound.worker j key two
  rw [found] at again
  cases again
  exact Option.some.inj (mine.symm.trans yours)

theorem sound_entry (sound : Sound flights) : (∃ channel,get flights.inflight key = some channel) ↔ ∃ i,Works flights i key := by
  constructor
  · intro held
    obtain ⟨channel,found⟩ := held
    obtain ⟨_,i,_,works⟩ := sound.entry key channel found
    exact ⟨i,works⟩
  · intro held
    obtain ⟨i,works⟩ := held
    obtain ⟨channel,found,_⟩ := sound.worker i key works
    exact ⟨channel,found⟩

theorem setRole_sound (sound : Sound flights) (idle : ∀ key,¬Works flights i key) (role : Role) (quiet : role ≠ .works)
    (fits : ∀ key channel,role = .waits channel → (flights.calls[i]?).map (·.1) = some key → get flights.inflight key = some channel) :
    Sound (flights.setRole i role) := by
  have works : ∀ j key,Works (flights.setRole i role) j key ↔ Works flights j key := by
    intro j key
    constructor
    · intro there
      obtain ⟨before,found,same⟩ := modify_cases there
      split at same
      · cases same
        exact absurd rfl quiet
      · exact found.trans (congrArg some same.symm)
    · intro there
      refine modify_other there ?_
      intro same
      exact idle key (same ▸ there)
  refine ⟨sound.owned,?_,?_,?_⟩
  · intro key channel found
    obtain ⟨opened,j,mine,there⟩ := sound.entry key channel found
    exact ⟨opened,j,mine,(works j key).mpr there⟩
  · intro j key there
    exact sound.worker j key ((works j key).mp there)
  · intro j key channel waits
    obtain ⟨before,found,same⟩ := modify_cases waits
    split at same
    · rename_i here
      subst here
      cases same
      have held := fits before.1 channel rfl (by rw [found]; rfl)
      exact ⟨none,(sound.entry _ channel held).1,fun _ => held⟩
    · cases same
      exact sound.waiter j key channel found

omit [DecidableEq κ] in
theorem works_idle (found : flights.calls[i]? = some (key,role)) (quiet : role ≠ Role.works) : ∀ other,¬Works flights i other := by
  intro other there
  rw [Works,found] at there
  cases there
  exact quiet rfl

theorem opened_sound (sound : Sound flights) (found : flights.calls[i]? = some (key,role)) (quiet : role ≠ Role.works)
    (free : get flights.inflight key = none) :
    Sound { flights.setRole i .works with
      inflight := flights.inflight.insert key flights.channels.length
      channels := flights.channels++[(key,none)]
      owners := flights.owners++[i] } := by
  have idle := works_idle found quiet
  have moved : (flights.setRole i .works).calls[i]? = some (key,Role.works) := by
    rw [Flights.setRole,modify_same found]
  have kept : ∀ j other,Works flights j other → (flights.setRole i .works).calls[j]? = some (other,Role.works) := by
    intro j other there
    refine modify_other there ?_
    intro same
    exact idle other (same ▸ there)
  have place : flights.owners.length = flights.channels.length := sound.owned
  refine ⟨by simp [place],?_,?_,?_⟩
  · intro other channel held
    simp only [get_insert] at held
    split at held
    · rename_i same
      cases held
      subst same
      exact ⟨List.getElem?_concat_length,i,by rw [← place]; exact List.getElem?_concat_length,moved⟩
    · obtain ⟨opened,j,mine,works⟩ := sound.entry other channel held
      exact ⟨append_there opened,j,append_there mine,kept j other works⟩
  · intro j other works
    simp only [get_insert]
    obtain ⟨before,was,same⟩ := modify_cases works
    split at same
    · rename_i here
      subst here
      cases same
      rw [found] at was
      cases was
      exact ⟨flights.channels.length,if_pos rfl,by rw [← place]; exact List.getElem?_concat_length⟩
    · obtain ⟨channel,held,mine⟩ := sound.worker j other (was.trans (congrArg some same.symm))
      refine ⟨channel,?_,append_there mine⟩
      rw [if_neg]
      · exact held
      · intro same
        rw [same,free] at held
        cases held
  · intro j other channel waits
    obtain ⟨before,was,same⟩ := modify_cases waits
    split at same
    · cases same
    · cases same
      obtain ⟨result,opened,live⟩ := sound.waiter j other channel was
      refine ⟨result,append_there opened,?_⟩
      intro blank
      have held := live blank
      simp only [get_insert]
      rw [if_neg]
      · exact held
      · intro same
        rw [same,free] at held
        cases held

theorem join_sound (sound : Sound flights) (found : flights.calls[i]? = some (key,role)) (quiet : role ≠ Role.works) :
    Sound (flights.join i key) := by
  unfold Flights.join
  split
  · rename_i channel held
    refine setRole_sound sound (works_idle found quiet) (.waits channel) (fun same => by cases same) ?_
    intro other joined same here
    cases same
    rw [found] at here
    cases here
    exact held
  · rename_i free
    exact opened_sound sound found quiet free

theorem land_sound (sound : Sound flights) (works : Works flights i key) (result : ρ) : Sound (flights.land i key result) := by
  obtain ⟨channel,held,mine⟩ := sound.worker i key works
  have opened := (sound.entry key channel held).1
  rw [Flights.land,held]
  have kept : ∀ j other,j ≠ i → Works flights j other → (flights.setRole i .idle).calls[j]? = some (other,Role.works) :=
    fun j other apart there => modify_other there (Ne.symm apart)
  refine ⟨by simp [Flights.setRole,sound.owned],?_,?_,?_⟩
  · intro other entry there
    simp only [get_erase] at there
    split at there
    · cases there
    · rename_i different
      obtain ⟨blank,j,owner,busy⟩ := sound.entry other entry there
      have apart : channel ≠ entry := by
        intro same
        rw [← same,opened] at blank
        cases blank
        exact different rfl
      refine ⟨modify_other blank apart,j,owner,kept j other ?_ busy⟩
      intro same
      rw [same,Works,show flights.calls[i]? = _ from works] at busy
      cases busy
      exact different rfl
  · intro j other busy
    obtain ⟨before,was,same⟩ := modify_cases busy
    split at same
    · cases same
    · rename_i apart
      have before_ : Works flights j other := was.trans (congrArg some same.symm)
      obtain ⟨entry,there,owner⟩ := sound.worker j other before_
      refine ⟨entry,?_,owner⟩
      simp only [get_erase]
      rw [if_neg]
      · exact there
      · intro same
        rw [same] at before_
        exact apart (sound_alone sound works before_)
  · intro j other entry waits
    obtain ⟨before,was,same⟩ := modify_cases waits
    split at same
    · cases same
    · cases same
      obtain ⟨outcome,there,live⟩ := sound.waiter j other entry was
      by_cases same : channel = entry
      · subst same
        rw [opened] at there
        cases there
        exact ⟨some result,modify_same opened,fun blank => by cases blank⟩
      · refine ⟨outcome,modify_other there same,?_⟩
        intro blank
        have entered := live blank
        simp only [get_erase]
        rw [if_neg]
        · exact entered
        · intro alike
          rw [alike,held] at entered
          exact same (Option.some.inj entered)

theorem fly_sound (sound : Sound flights) (move : Move κ ρ) : Sound (fly flights move) := by
  cases move with
  | stay => exact sound
  | enter key =>
    refine ⟨sound.owned,?_,?_,?_⟩
    · intro other channel held
      obtain ⟨opened,i,mine,works⟩ := sound.entry other channel held
      exact ⟨opened,i,mine,append_there works⟩
    · intro i other works
      obtain was | ⟨_,fresh⟩ := append_cases works
      · exact sound.worker i other was
      · cases fresh
    · intro i other channel waits
      obtain was | ⟨_,fresh⟩ := append_cases waits
      · exact sound.waiter i other channel was
      · cases fresh
  | rest i =>
    rw [fly,Flights.restAt]
    split
    · exact sound
    · exact sound
    · rename_i call busy found
      refine setRole_sound sound (@works_idle _ _ _ _ call.1 call.2 found ?_) .idle (by decide) (fun _ _ same _ => by cases same)
      intro same
      exact busy call.1 (Prod.ext rfl same)
  | join i =>
    rw [fly,Flights.joinAt]
    split
    · exact sound
    · exact sound
    · rename_i key role busy found
      exact join_sound sound found busy
  | land i result =>
    rw [fly,Flights.landAt]
    split
    · rename_i key works
      exact land_sound sound works result
    · exact sound
  | wipe =>
    have none_at_work : ∀ (i : Nat) (key : κ) (role : Role),(flights.calls.map fun call => (call.1,Role.idle))[i]? = some (key,role) → role = .idle := by
      intro i key role there
      rw [List.getElem?_map] at there
      obtain ⟨call,_,same⟩ := Option.map_eq_some_iff.mp there
      exact (congrArg Prod.snd same).symm
    refine ⟨rfl,?_,?_,?_⟩
    · intro key channel held
      rw [fly,get_empty] at held
      cases held
    · intro i key works
      cases none_at_work i key _ works
    · intro i key channel waits
      cases none_at_work i key _ waits

theorem fly_channel (sound : Sound flights) (move : Move κ ρ) (there : flights.channels[channel]? = some (key,result)) :
    (fly flights move).channels[channel]? = some (key,result) ∨ move = .wipe ∨
    ∃ i outcome,move = .land i outcome ∧ flights.owners[channel]? = some i ∧ Works flights i key ∧ result = none ∧
      get flights.inflight key = some channel ∧ (fly flights move).channels[channel]? = some (key,some outcome) := by
  cases move with
  | stay => exact .inl there
  | enter _ => exact .inl there
  | wipe => exact .inr (.inl rfl)
  | rest i =>
    refine .inl ?_
    rw [fly,Flights.restAt]
    split <;> exact there
  | join i =>
    refine .inl ?_
    rw [fly,Flights.joinAt]
    split
    · exact there
    · exact there
    · unfold Flights.join
      split
      · exact there
      · exact append_there there
  | land i outcome =>
    rw [fly,Flights.landAt]
    split
    · rename_i other works
      obtain ⟨entry,held,mine⟩ := sound.worker i other works
      have opened := (sound.entry other entry held).1
      rw [Flights.land,held]
      by_cases same : entry = channel
      · subst same
        rw [opened] at there
        cases there
        exact .inr (.inr ⟨i,outcome,rfl,mine,works,rfl,held,modify_same opened⟩)
      · exact .inl (modify_other there same)
    · exact .inl there

theorem fly_entry (sound : Sound flights) (move : Move κ ρ) (held : get flights.inflight key = some channel) :
    get (fly flights move).inflight key = some channel ∨ move = .wipe ∨
    ∃ i outcome,move = .land i outcome ∧ flights.owners[channel]? = some i ∧ Works flights i key := by
  have opened := (sound.entry key channel held).1
  cases move with
  | stay => exact .inl held
  | enter _ => exact .inl held
  | wipe => exact .inr (.inl rfl)
  | rest i =>
    refine .inl ?_
    rw [fly,Flights.restAt]
    split <;> exact held
  | join i =>
    refine .inl ?_
    rw [fly,Flights.joinAt]
    split
    · exact held
    · exact held
    · rename_i other role busy found
      unfold Flights.join
      split
      · exact held
      · rename_i free
        simp only [get_insert]
        rw [if_neg]
        · exact held
        · intro same
          rw [same,free] at held
          cases held
  | land i outcome =>
    rw [fly,Flights.landAt]
    split
    · rename_i other works
      by_cases same : key = other
      · subst same
        obtain ⟨entry,again,mine⟩ := sound.worker i key works
        rw [held] at again
        cases again
        exact .inr (.inr ⟨i,outcome,rfl,mine,works⟩)
      · obtain ⟨entry,again,_⟩ := sound.worker i other works
        rw [Flights.land,again]
        refine .inl ?_
        simp only [get_erase]
        rw [if_neg same]
        exact held
    · exact .inl held

end

end EvoCore.SingleFlights
