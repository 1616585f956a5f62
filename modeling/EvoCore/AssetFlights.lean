import EvoCore.AssetCache
import EvoCore.SingleFlights

namespace EvoCore.AssetCache
open Runs Tables SingleFlights

-- What a channel was closed with: the outcome its fetcher published, or none.
abbrev Outcome := Except String (List UInt8)

structure Tracked where
  cache : Cache
  owners : List Nat

def installs (cache : Cache) (i : Nat) : Bool :=
  match cache.tasks[i]? with
  | some task => task.phase = .missed && (get cache.inflight task.hash).isNone
  | none => false

def ownersAfter (tracked : Tracked) : Action → List Nat
  | .advance i _ => if installs tracked.cache i then tracked.owners++[i] else tracked.owners
  | .restart => []
  | _ => tracked.owners

section
variable (hashBytes : List UInt8 → String) (bound : Nat)

def trackedStep (tracked : Tracked) (action : Action) : Tracked :=
  ⟨step hashBytes bound tracked.cache action,ownersAfter tracked action⟩

end

def Phase.role : Phase → Role
  | .waiting channel => .waits channel
  | .fetching => .works
  | _ => .idle

def ChannelState.result : ChannelState → Option (Option Outcome)
  | .opened => none
  | .published outcome => some (some outcome)
  | .closed => some none

def called (task : Task) : String × Role := (task.hash,task.phase.role)

def channelled (channel : Channel) : String × Option (Option Outcome) := (channel.hash,channel.state.result)

def Tracked.view (tracked : Tracked) : Flights String (Option Outcome) :=
  ⟨tracked.cache.inflight,tracked.cache.channels.map channelled,tracked.owners,tracked.cache.tasks.map called⟩

def waitMove (cache : Cache) (i channel : Nat) (env : Env) : Move String (Option Outcome) :=
  match cache.channels[channel]? with
  | some ⟨_,.opened⟩ => if env.timedOut then .rest i else .stay
  | _ => .rest i

def taskMove (cache : Cache) (i : Nat) (env : Env) : Phase → Move String (Option Outcome)
  | .missed => .join i
  | .fetching => .land i (some env.fetched)
  | .waiting channel => waitMove cache i channel env
  | _ => .rest i

def moveOf (cache : Cache) : Action → Move String (Option Outcome)
  | .get hash | .getOrFetch hash | .put hash _ | .delete hash => .enter hash
  | .advance i env =>
    match cache.tasks[i]? with
    | some task => taskMove cache i env task.phase
    | none => .stay
  | .cancel i =>
    match cache.tasks[i]? with
    | some task => if task.phase = .fetching then .land i none else .rest i
    | none => .stay
  | .restart => .wipe

variable {hashBytes : List UInt8 → String} {bound : Nat} {cache : Cache} {task : Task} {env : Env} {i channel : Nat} {hash : String}

theorem map_modified {α β : Type} {items : List α} {change : α → α} {after : β → β} {seen : α → β}
    (shown : ∀ item,items[i]? = some item → seen (change item) = after (seen item)) :
    (items.modify i change).map seen = (items.map seen).modify i after := by
  apply List.ext_getElem?
  intro j
  rw [List.getElem?_map,List.getElem?_modify,List.getElem?_modify,List.getElem?_map]
  by_cases same : i = j
  · subst same
    cases there : items[i]? with
    | none => simp
    | some item => simp [shown item there]
  · simp [same]

-- A call that goes on from a phase that neither fetches nor waits leaves the map and the channels alone.
structure Quiet (cache : Cache) (after : Cache × Phase) : Prop where
  inflight : after.1.inflight = cache.inflight
  channels : after.1.channels = cache.channels
  tasks : after.1.tasks = cache.tasks
  role : after.2.role = .idle

theorem beginPut_role : (beginPut hashBytes hash bytes).role = .idle := by
  unfold beginPut
  split <;> rfl

theorem quiet_task (missed : task.phase ≠ .missed) (fetching : task.phase ≠ .fetching) (waiting : ∀ channel,task.phase ≠ .waiting channel) :
    Quiet cache (advanceTask hashBytes bound cache task env) := by
  unfold advanceTask
  cases phase : task.phase with
  | missed => exact absurd phase missed
  | fetching => exact absurd phase fetching
  | waiting channel => exact absurd phase (waiting channel)
  | reading =>
    dsimp only
    split
    · exact ⟨rfl,rfl,rfl,rfl⟩
    · split
      · exact ⟨rfl,rfl,rfl,rfl⟩
      · refine ⟨rfl,rfl,rfl,?_⟩
        dsimp only
        split <;> rfl
  | creatingDir bytes =>
    refine ⟨rfl,rfl,rfl,?_⟩
    dsimp only
    split
    · rfl
    · split <;> rfl
  | opening bytes =>
    dsimp only
    split <;> exact ⟨rfl,rfl,rfl,rfl⟩
  | writing file written rest =>
    dsimp only
    split
    · exact ⟨rfl,rfl,rfl,rfl⟩
    · split
      · refine ⟨rfl,rfl,rfl,?_⟩
        dsimp only
        split <;> rfl
      · exact ⟨rfl,rfl,rfl,rfl⟩
  | moving bytes =>
    dsimp only
    split
    · split <;> exact ⟨rfl,rfl,rfl,rfl⟩
    · exact ⟨rfl,rfl,rfl,rfl⟩
  | deleting =>
    dsimp only
    split <;> exact ⟨rfl,rfl,rfl,rfl⟩
  | returned answer => exact ⟨rfl,rfl,rfl,rfl⟩
  | stopped => exact ⟨rfl,rfl,rfl,rfl⟩

theorem phase_called (tasks : List Task) (i : Nat) (phase : Phase) :
    (tasks.modify i fun task => { task with phase }).map called = (tasks.map called).modify i fun call => (call.1,phase.role) :=
  map_modified fun _ _ => rfl

theorem called_there (owners : List Nat) (found : cache.tasks[i]? = some task) :
    (Tracked.view ⟨cache,owners⟩).calls[i]? = some (task.hash,task.phase.role) := by
  simp [Tracked.view,found,called]

theorem advanced_view (owners : List Nat) (found : cache.tasks[i]? = some task) :
    Tracked.view ⟨advance hashBytes bound cache i env,owners⟩ =
      ⟨(advanceTask hashBytes bound cache task env).1.inflight,(advanceTask hashBytes bound cache task env).1.channels.map channelled,owners,
        (cache.tasks.map called).modify i fun call => (call.1,(advanceTask hashBytes bound cache task env).2.role)⟩ := by
  simp only [advance,found,Tracked.view,phase_called]

theorem quiet_view (owners : List Nat) (found : cache.tasks[i]? = some task) (quiet : Quiet cache (advanceTask hashBytes bound cache task env))
    (idle : task.phase.role ≠ .works) :
    Tracked.view ⟨advance hashBytes bound cache i env,owners⟩ = fly (Tracked.view ⟨cache,owners⟩) (.rest i) := by
  rw [advanced_view owners found,fly,restAt_quiet (called_there owners found) idle]
  simp only [quiet.inflight,quiet.channels,quiet.role]
  rfl

theorem joined_view (owners : List Nat) (found : cache.tasks[i]? = some task) (missed : task.phase = .missed) :
    Tracked.view ⟨advance hashBytes bound cache i env,if (get cache.inflight task.hash).isNone then owners++[i] else owners⟩ =
      fly (Tracked.view ⟨cache,owners⟩) (.join i) := by
  have idle : task.phase.role ≠ .works := by rw [missed]; decide
  rw [advanced_view _ found,fly,joinAt_quiet (called_there owners found) idle]
  unfold advanceTask Flights.join
  simp only [missed]
  cases held : get cache.inflight task.hash with
  | some channel =>
    simp only [Tracked.view,held]
    rfl
  | none =>
    simp only [Tracked.view,held,List.length_map,List.map_append]
    rfl

theorem dropped_channels (channels : List Channel) (channel : Nat) (state : ChannelState) (closed : state.result = some outcome) :
    (channels.modify channel fun opened => { opened with state }).map channelled =
      (channels.map channelled).modify channel fun opened => (opened.1,some outcome) :=
  map_modified fun _ _ => by simp [channelled,closed]

theorem landed_view (owners : List Nat) (found : cache.tasks[i]? = some task) (fetching : task.phase = .fetching) (change : Task → Task)
    (idle : (change task).phase.role = .idle) (same : ∀ other,(change other).hash = other.hash) (state : ChannelState) (closed : state.result = some outcome) :
    Tracked.view ⟨{ dropGuard cache task.hash state with tasks := cache.tasks.modify i change },owners⟩ =
      fly (Tracked.view ⟨cache,owners⟩) (.land i outcome) := by
  have works := called_there owners found
  rw [fetching] at works
  have calls : (cache.tasks.modify i change).map called = (cache.tasks.map called).modify i fun call => (call.1,.idle) := by
    apply map_modified
    intro item there
    rw [found] at there
    cases there
    simp [called,idle,same]
  rw [fly,Flights.landAt,works]
  simp only [Phase.role,Flights.land,Tracked.view,calls]
  unfold dropGuard
  cases held : get cache.inflight task.hash with
  | some channel => simp only [dropped_channels _ _ _ closed,Flights.setRole]
  | none => rfl

theorem waited_view (owners : List Nat) (found : cache.tasks[i]? = some task) (waiting : task.phase = .waiting channel) :
    Tracked.view ⟨advance hashBytes bound cache i env,owners⟩ = fly (Tracked.view ⟨cache,owners⟩) (waitMove cache i channel env) := by
  have idle : task.phase.role ≠ .works := by rw [waiting]; intro same; cases same
  have resting : ∀ phase,advanceTask hashBytes bound cache task env = (cache,phase) → phase.role = .idle →
      Tracked.view ⟨advance hashBytes bound cache i env,owners⟩ = fly (Tracked.view ⟨cache,owners⟩) (.rest i) :=
    fun phase gives quiet => quiet_view owners found (by rw [gives]; exact ⟨rfl,rfl,rfl,quiet⟩) idle
  unfold waitMove
  split
  · rename_i hash opened
    split
    · rename_i late
      exact resting (.returned none) (by simp [advanceTask,waiting,opened,late]) rfl
    · rename_i early
      have stays : advanceTask hashBytes bound cache task env = (cache,.waiting channel) := by simp [advanceTask,waiting,opened,early]
      rw [advanced_view _ found,stays]
      have kept : (cache.tasks.map called).modify i (fun call => (call.1,Role.waits channel)) = cache.tasks.map called := by
        apply List.ext_getElem?
        intro j
        rw [List.getElem?_modify]
        by_cases here : i = j
        · subst here
          simp [found,called,waiting,Phase.role]
        · simp [here]
      simp only [Phase.role,kept]
      rfl
  · rename_i otherwise
    cases there : cache.channels[channel]? with
    | none => exact resting .reading (by simp [advanceTask,waiting,there]) rfl
    | some heard =>
      obtain ⟨hash,state⟩ := heard
      cases state with
      | opened => exact absurd there (otherwise hash)
      | closed => exact resting .reading (by simp [advanceTask,waiting,there]) rfl
      | published outcome =>
        cases outcome with
        | ok bytes => exact resting (.returned (some bytes)) (by simp [advanceTask,waiting,there]) rfl
        | error text => exact resting (.returned none) (by simp [advanceTask,waiting,there]) rfl

theorem onDisk_role {phase : Phase} (there : phase.onDisk = true) : phase.role = .idle := by
  cases phase with
  | creatingDir _ | opening _ | writing _ _ _ | moving _ | deleting => rfl
  | reading | missed | waiting _ | fetching | returned _ | stopped => cases there

theorem cancelled_idle : (cancelled task).phase.role = .idle := by
  unfold cancelled
  split
  · rename_i there
    exact onDisk_role there
  · unfold stop
    split
    · rename_i done
      cases phase : task.phase with
      | returned answer => rfl
      | reading | missed | waiting _ | fetching | creatingDir _ | opening _ | writing _ _ _ | moving _ | deleting | stopped =>
        rw [phase] at done
        cases done
    · rfl

theorem stop_idle (task : Task) : called (stop task) = (task.hash,.idle) := by
  unfold stop
  split
  · rename_i done
    unfold called
    cases phase : task.phase with
    | returned answer => rfl
    | reading | missed | waiting _ | fetching | creatingDir _ | opening _ | writing _ _ _ | moving _ | deleting | stopped =>
      rw [phase] at done
      cases done
  · rfl

theorem cancelled_view (owners : List Nat) (found : cache.tasks[i]? = some task) :
    Tracked.view ⟨cancel cache i,owners⟩ = fly (Tracked.view ⟨cache,owners⟩) (if task.phase = .fetching then .land i none else .rest i) := by
  rw [cancel,found]
  have kept : ∀ other : Task,(cancelled other).hash = other.hash := by
    intro other
    unfold cancelled stop
    split
    · rfl
    · split <;> rfl
  by_cases fetching : task.phase = .fetching
  · simp only [fetching,if_true]
    exact landed_view owners found fetching cancelled cancelled_idle kept .closed rfl
  · have quiet : task.phase.role ≠ .works := by
      intro works
      cases phase : task.phase with
      | fetching => exact fetching phase
      | reading | missed | waiting _ | creatingDir _ | opening _ | writing _ _ _ | moving _ | deleting | returned _ | stopped =>
        rw [phase] at works
        cases works
    simp only [fetching,if_false]
    rw [fly,restAt_quiet (called_there owners found) quiet]
    have calls : (cache.tasks.modify i cancelled).map called = (cache.tasks.map called).modify i fun call => (call.1,.idle) :=
      map_modified fun other _ => by simp [called,kept,cancelled_idle]
    simp only [Tracked.view,calls,Flights.setRole]

theorem spawned_view {phase : Phase} (owners : List Nat) (quiet : phase.role = .idle) :
    Tracked.view ⟨spawn cache hash op phase,owners⟩ = fly (Tracked.view ⟨cache,owners⟩) (.enter hash) := by
  simp [Tracked.view,spawn,fly,called,quiet]

theorem advanced_owners (tracked : Tracked) (found : tracked.cache.tasks[i]? = some task) (other : task.phase ≠ .missed) :
    ownersAfter tracked (.advance i env) = tracked.owners := by
  simp [ownersAfter,installs,found,other]

theorem tracked_view (tracked : Tracked) (action : Action) :
    (trackedStep hashBytes bound tracked action).view = fly tracked.view (moveOf tracked.cache action) := by
  cases action with
  | get hash => exact spawned_view _ (by unfold beginRead; split <;> rfl)
  | getOrFetch hash => exact spawned_view _ (by unfold beginRead; split <;> rfl)
  | put hash bytes => exact spawned_view _ beginPut_role
  | delete hash => exact spawned_view _ (by unfold beginDelete; split <;> rfl)
  | restart =>
    simp only [trackedStep,ownersAfter,step,restart,moveOf,fly,Tracked.view,List.map_map]
    congr 2
    exact funext stop_idle
  | cancel i =>
    simp only [trackedStep,ownersAfter,step,moveOf]
    cases found : tracked.cache.tasks[i]? with
    | none =>
      rw [cancel,found]
      rfl
    | some task => exact cancelled_view _ found
  | advance i env =>
    cases found : tracked.cache.tasks[i]? with
    | none => simp [trackedStep,ownersAfter,installs,step,advance,moveOf,found,fly]
    | some task =>
      simp only [trackedStep,step,moveOf,found]
      by_cases missed : task.phase = .missed
      · have owners : ownersAfter tracked (.advance i env) =
            if (get tracked.cache.inflight task.hash).isNone then tracked.owners++[i] else tracked.owners := by
          simp [ownersAfter,installs,found,missed]
        rw [missed,taskMove,owners]
        exact joined_view tracked.owners found missed
      · rw [advanced_owners tracked found missed]
        cases phase : task.phase with
        | missed => exact absurd phase missed
        | waiting channel => exact waited_view _ found phase
        | fetching =>
          have landed := landed_view tracked.owners found phase
            (fun other => { other with phase := (advanceTask hashBytes bound tracked.cache task env).2 })
            (by
              simp only [advanceTask,phase]
              split
              · exact beginPut_role
              · rfl)
            (fun _ => rfl) (.published env.fetched) rfl
          rw [taskMove,← landed,advance,found]
          simp only [advanceTask,phase]
        | reading | creatingDir _ | opening _ | writing _ _ _ | moving _ | deleting | returned _ | stopped =>
          refine quiet_view _ found (quiet_task missed ?_ ?_) ?_
          · rw [phase]
            exact fun same => by cases same
          · rw [phase]
            exact fun _ same => by cases same
          · rw [phase]
            exact fun same => by cases same

def Fetches (cache : Cache) (i : Nat) (hash : String) : Prop :=
  ∃ task,cache.tasks[i]? = some task ∧ task.hash = hash ∧ task.phase = .fetching

def Waits (cache : Cache) (i : Nat) (hash : String) (channel : Nat) : Prop :=
  ∃ task,cache.tasks[i]? = some task ∧ task.hash = hash ∧ task.phase = .waiting channel

structure SingleFlight (tracked : Tracked) : Prop where
  alone : ∀ hash i j,Fetches tracked.cache i hash → Fetches tracked.cache j hash → i = j
  held : ∀ hash,(∃ channel,get tracked.cache.inflight hash = some channel) ↔ ∃ i,Fetches tracked.cache i hash
  guard : ∀ hash channel,get tracked.cache.inflight hash = some channel → ∃ i,tracked.owners[channel]? = some i ∧ Fetches tracked.cache i hash
  served : ∀ i hash channel,Waits tracked.cache i hash channel → ∃ state,tracked.cache.channels[channel]? = some ⟨hash,state⟩ ∧
    (state = .opened → get tracked.cache.inflight hash = some channel ∧
      ∃ j,tracked.owners[channel]? = some j ∧ Fetches tracked.cache j hash)

def Heard (channel : Nat) (env : Env) (phase : Phase) : ChannelState → Prop
  | .published (.ok bytes) => phase = .returned (some bytes)
  | .published (.error _) => phase = .returned none
  | .closed => phase = .reading
  | .opened => phase = .waiting channel ∨ env.timedOut = true

structure OwnStep (before after : Tracked) (action : Action) : Prop where
  entry : ∀ hash channel,get before.cache.inflight hash = some channel → get after.cache.inflight hash = some channel ∨ action = .restart ∨
    ∃ i,before.owners[channel]? = some i ∧ Fetches before.cache i hash ∧ ((∃ env,action = .advance i env) ∨ action = .cancel i)
  channel : ∀ (channel : Nat) (hash : String) (state : ChannelState),before.cache.channels[channel]? = some (Channel.mk hash state) →
    after.cache.channels[channel]? = some (Channel.mk hash state) ∨ action = .restart ∨
    (state = .opened ∧ ∃ i,before.owners[channel]? = some i ∧ Fetches before.cache i hash ∧
      ((∃ env,action = .advance i env ∧ after.cache.channels[channel]? = some (Channel.mk hash (.published env.fetched))) ∨
        (action = .cancel i ∧ after.cache.channels[channel]? = some (Channel.mk hash .closed))))
  hears : ∀ (i : Nat) (hash : String) (channel : Nat) (state : ChannelState) (env : Env),Waits before.cache i hash channel →
    before.cache.channels[channel]? = some (Channel.mk hash state) →
    action = .advance i env → ∃ task,after.cache.tasks[i]? = some task ∧ task.hash = hash ∧ Heard channel env task.phase state

theorem role_works {phase : Phase} (works : phase.role = .works) : phase = .fetching := by
  cases phase with
  | fetching => rfl
  | reading | missed | waiting _ | creatingDir _ | opening _ | writing _ _ _ | moving _ | deleting | returned _ | stopped => cases works

theorem called_found {tracked : Tracked} (there : tracked.view.calls[i]? = some (hash,role)) :
    ∃ task,tracked.cache.tasks[i]? = some task ∧ task.hash = hash ∧ task.phase.role = role := by
  rw [Tracked.view,List.getElem?_map] at there
  obtain ⟨task,found,same⟩ := Option.map_eq_some_iff.mp there
  cases same
  exact ⟨task,found,rfl,rfl⟩

theorem channelled_found {tracked : Tracked} (there : tracked.view.channels[channel]? = some (hash,result)) :
    ∃ state,tracked.cache.channels[channel]? = some (Channel.mk hash state) ∧ ChannelState.result state = result := by
  rw [Tracked.view,List.getElem?_map] at there
  obtain ⟨opened,found,same⟩ := Option.map_eq_some_iff.mp there
  cases same
  exact ⟨opened.state,found,rfl⟩

theorem channelled_there {tracked : Tracked} (there : tracked.cache.channels[channel]? = some (Channel.mk hash state)) :
    tracked.view.channels[channel]? = some (hash,state.result) := by
  simp [Tracked.view,there,channelled]

theorem result_injective (one two : ChannelState) (same : one.result = two.result) : one = two := by
  cases one <;> cases two <;> cases same <;> rfl

theorem works_fetches {tracked : Tracked} : Works tracked.view i hash ↔ Fetches tracked.cache i hash := by
  constructor
  · intro works
    obtain ⟨task,found,named,role⟩ := called_found works
    exact ⟨task,found,named,role_works role⟩
  · intro fetches
    obtain ⟨task,found,rfl,fetching⟩ := fetches
    rw [Works,show tracked.view.calls[i]? = _ from called_there tracked.owners found,fetching]
    rfl

theorem singleFlight_view {tracked : Tracked} (sound : Sound tracked.view) : SingleFlight tracked := by
  refine ⟨?_,?_,?_,?_⟩
  · intro hash i j one two
    exact sound_alone sound (works_fetches.mpr one) (works_fetches.mpr two)
  · intro hash
    simp only [← works_fetches]
    exact sound_entry sound
  · intro hash channel held
    obtain ⟨_,i,mine,works⟩ := sound.entry hash channel held
    exact ⟨i,mine,works_fetches.mp works⟩
  · intro i hash channel waits
    obtain ⟨task,found,rfl,waiting⟩ := waits
    have role : tracked.view.calls[i]? = some (task.hash,Role.waits channel) := by
      rw [show tracked.view.calls[i]? = _ from called_there tracked.owners found,waiting]
      rfl
    obtain ⟨result,there,live⟩ := sound.waiter i task.hash channel role
    obtain ⟨state,opened,rfl⟩ := channelled_found there
    refine ⟨state,opened,?_⟩
    intro blank
    have held := live (by rw [blank]; rfl)
    obtain ⟨_,j,mine,works⟩ := sound.entry _ channel held
    exact ⟨held,j,mine,works_fetches.mp works⟩

def Ends (action : Action) : Move String (Option Outcome) → Prop
  | .land i outcome => (∃ env,action = .advance i env ∧ outcome = some env.fetched) ∨ (action = .cancel i ∧ outcome = none)
  | .wipe => action = .restart
  | _ => True

theorem moveOf_ends (cache : Cache) (action : Action) : Ends action (moveOf cache action) := by
  cases action with
  | get _ | getOrFetch _ | put _ _ | delete _ => trivial
  | restart => rfl
  | cancel i =>
    simp only [moveOf]
    split
    · split
      · exact .inr ⟨rfl,rfl⟩
      · trivial
    · trivial
  | advance i env =>
    simp only [moveOf]
    split
    · unfold taskMove
      split
      · trivial
      · exact .inl ⟨env,rfl,rfl⟩
      · unfold waitMove
        split
        · split <;> trivial
        · trivial
      · trivial
    · trivial

theorem moveOf_land (lands : moveOf cache action = .land i outcome) :
    (∃ env,action = .advance i env ∧ outcome = some env.fetched) ∨ (action = .cancel i ∧ outcome = none) := by
  have ends := moveOf_ends cache action
  rwa [lands] at ends

theorem moveOf_wipe (wipes : moveOf cache action = .wipe) : action = .restart := by
  have ends := moveOf_ends cache action
  rwa [wipes] at ends

theorem advanced_phase (hashBytes : List UInt8 → String) (bound : Nat) (env : Env) (found : cache.tasks[i]? = some task) :
    ∃ after,(advance hashBytes bound cache i env).tasks[i]? = some after ∧
    after.hash = task.hash ∧ after.phase = (advanceTask hashBytes bound cache task env).2 := by
  refine ⟨{ task with phase := (advanceTask hashBytes bound cache task env).2 },?_,rfl,rfl⟩
  rw [advance,found]
  exact modify_same found

theorem hears_channel (waiting : task.phase = .waiting channel)
    (there : cache.channels[channel]? = some (Channel.mk hash state)) : Heard channel env (advanceTask hashBytes bound cache task env).2 state := by
  simp only [advanceTask,waiting,there]
  cases state with
  | closed => rfl
  | opened =>
    unfold Heard
    cases late : env.timedOut with
    | true => exact .inr rfl
    | false => exact .inl rfl
  | published outcome => cases outcome <;> rfl

theorem ownStep_view {tracked : Tracked} (sound : Sound tracked.view) (action : Action) :
    OwnStep tracked (trackedStep hashBytes bound tracked action) action := by
  have after : (trackedStep hashBytes bound tracked action).view = fly tracked.view (moveOf tracked.cache action) := tracked_view tracked action
  refine ⟨?_,?_,?_⟩
  · intro hash channel held
    obtain kept | wiped | ⟨i,outcome,landed,mine,works⟩ := fly_entry sound (moveOf tracked.cache action) held
    · rw [← after] at kept
      exact .inl kept
    · exact .inr (.inl (moveOf_wipe wiped))
    · refine .inr (.inr ⟨i,mine,works_fetches.mp works,?_⟩)
      obtain ⟨env,rfl,_⟩ | ⟨rfl,_⟩ := moveOf_land landed
      · exact .inl ⟨env,rfl⟩
      · exact .inr rfl
  · intro channel hash state there
    obtain kept | wiped | ⟨i,outcome,landed,mine,works,blank,_,closed⟩ := fly_channel sound (moveOf tracked.cache action) (channelled_there there)
    · rw [← after] at kept
      obtain ⟨same,found,alike⟩ := channelled_found kept
      rw [result_injective _ _ alike] at found
      exact .inl found
    · exact .inr (.inl (moveOf_wipe wiped))
    · rw [← after] at closed
      obtain ⟨last,found,alike⟩ := channelled_found closed
      refine .inr (.inr ⟨result_injective state .opened blank,i,mine,works_fetches.mp works,?_⟩)
      obtain ⟨env,rfl,rfl⟩ | ⟨rfl,rfl⟩ := moveOf_land landed
      · rw [result_injective _ (.published env.fetched) alike] at found
        exact .inl ⟨env,rfl,found⟩
      · rw [result_injective _ .closed alike] at found
        exact .inr ⟨rfl,found⟩
  · intro i hash channel state env waits there advances
    obtain ⟨task,found,rfl,waiting⟩ := waits
    subst advances
    obtain ⟨later,kept,named,moved⟩ := advanced_phase hashBytes bound env found
    refine ⟨later,kept,named,?_⟩
    rw [moved]
    exact hears_channel waiting there

theorem tracked_sound (hashBytes : List UInt8 → String) (bound : Nat) (actions : List Action) :
    Sound (run (trackedStep hashBytes bound) ⟨start,[]⟩ actions).view := by
  refine @run_keeps _ _ _ (fun tracked : Tracked => Sound tracked.view) _ _ ?_ ?_
  · intro tracked action sound
    rw [tracked_view]
    exact fly_sound sound _
  · refine ⟨rfl,?_,?_,?_⟩
    · intro key channel held
      cases held
    · intro i key works
      cases works
    · intro i key channel waits
      cases waits

theorem tracked_cache (tracked : Tracked) (actions : List Action) :
    (run (trackedStep hashBytes bound) tracked actions).cache = run (step hashBytes bound) tracked.cache actions := by
  induction actions generalizing tracked with
  | nil => rfl
  | cons action rest rest_ih => exact rest_ih _

theorem single_flight (hashBytes : List UInt8 → String) (bound : Nat) (actions : List Action) :
    let tracked := run (trackedStep hashBytes bound) ⟨start,[]⟩ actions
    tracked.cache = run (step hashBytes bound) start actions ∧ SingleFlight tracked ∧
      ∀ action,OwnStep tracked (trackedStep hashBytes bound tracked action) action :=
  ⟨tracked_cache ⟨start,[]⟩ actions,singleFlight_view (tracked_sound hashBytes bound actions),
    ownStep_view (tracked_sound hashBytes bound actions)⟩

end EvoCore.AssetCache
