import EvoCore.Runs
import EvoCore.Tables

namespace EvoCore.ClockSync
open Runs Tables

inductive SyncQuality where
  | unknown
  | warming
  | locked
  | stale
  deriving DecidableEq,Repr

def serialiseQuality : SyncQuality → String
  | .unknown => "unknown"
  | .warming => "warming"
  | .locked => "locked"
  | .stale => "stale"

structure ClockSync where
  groupId : String
  displayName : String
  sourceHostDeviceId : Option String
  isLocalHost : Bool
  offsetMs : Int
  uncertaintyMs : Nat
  lastSyncAtMs : Nat
  quality : SyncQuality
  deriving DecidableEq,Repr

structure ClockSyncChanged where
  groupId : String
  displayName : String
  sourceHostDeviceId : Option String
  isLocalHost : Bool
  offsetMs : Int
  uncertaintyMs : Nat
  quality : String
  at_ : Int
  deriving DecidableEq,Repr

structure Runtime where
  states : Table String ClockSync
  happenings : List ClockSyncChanged

-- The clock at each emission, and whether the bus takes a group's happening.
structure Bus where
  now : String → Int
  accepts : String → Bool

def emit (bus : Bus) (runtime : Runtime) (h : ClockSyncChanged) : Runtime :=
  if bus.accepts h.groupId then { runtime with happenings := runtime.happenings++[h] } else runtime

def ClockSync.changed (state : ClockSync) (isLocalHost : Bool) (at_ : Int) : ClockSyncChanged :=
  ⟨state.groupId,state.displayName,state.sourceHostDeviceId,isLocalHost,state.offsetMs,state.uncertaintyMs,serialiseQuality state.quality,at_⟩

def ClockSync.sampled (state : ClockSync) (offsetMs : Int) (uncertaintyMs atMs : Nat) : ClockSync :=
  { state with offsetMs,uncertaintyMs,lastSyncAtMs := atMs,quality := .locked }

def recordSyncSample (runtime : Runtime) (groupId sourceHostDeviceId : String) (offsetMs : Int) (uncertaintyMs atMs : Nat)
    (bus : Bus) : Runtime :=
  match get runtime.states groupId with
  | none => runtime
  | some state =>
    if state.isLocalHost then runtime
    else if state.sourceHostDeviceId ≠ some sourceHostDeviceId then runtime
    else
      let new := state.sampled offsetMs uncertaintyMs atMs
      let stored := { runtime with states := runtime.states.insert groupId new }
      if state.quality = .locked ∧ state.offsetMs = offsetMs then stored
      else emit bus stored (new.changed false (bus.now groupId))

def isLocal (localDeviceId : String) (sourceHostDeviceId : Option String) : Bool := sourceHostDeviceId == some localDeviceId

def newQuality (localDeviceId : String) (sourceHostDeviceId : Option String) : SyncQuality :=
  match sourceHostDeviceId with
  | none => .unknown
  | some _ => if isLocal localDeviceId sourceHostDeviceId then .locked else .warming

def elected (localDeviceId groupId displayName : String) (sourceHostDeviceId : Option String) (nowMs : Nat) (prior : Option ClockSync) :
    ClockSync :=
  let entry := prior.getD ⟨groupId,displayName,none,false,0,0,0,.unknown⟩
  { entry with
    displayName
    sourceHostDeviceId
    isLocalHost := isLocal localDeviceId sourceHostDeviceId
    offsetMs := 0
    uncertaintyMs := 0
    lastSyncAtMs := if isLocal localDeviceId sourceHostDeviceId then nowMs else 0
    quality := newQuality localDeviceId sourceHostDeviceId }

def applySourceHostElection (localDeviceId : String) (runtime : Runtime) (groupId displayName : String)
    (sourceHostDeviceId : Option String) (nowMs : Nat) (bus : Bus) : Runtime :=
  let prior := get runtime.states groupId
  let new := elected localDeviceId groupId displayName sourceHostDeviceId nowMs prior
  let stored := { runtime with states := runtime.states.insert groupId new }
  if prior.map (·.quality) = some (newQuality localDeviceId sourceHostDeviceId) then stored
  else emit bus stored (new.changed (isLocal localDeviceId sourceHostDeviceId) (bus.now groupId))

def ClockSync.expires (cutoff : Nat) (state : ClockSync) : Bool :=
  !state.isLocalHost && state.quality = .locked && state.lastSyncAtMs ≠ 0 && state.lastSyncAtMs < cutoff

def ClockSync.expired (state : ClockSync) : ClockSync := { state with quality := .stale }

def cutoff (now stalenessMs : Nat) : Nat := now-stalenessMs % 2^64

def transition (cutoff : Nat) (bus : Bus) (entry : Sigma fun _ : String => ClockSync) : Option ClockSyncChanged :=
  if entry.2.expires cutoff then some (entry.2.expired.changed false (bus.now entry.2.groupId)) else none

def evaluateStaleness (runtime : Runtime) (now stalenessMs : Nat) (bus : Bus) : Runtime :=
  let limit := cutoff now stalenessMs
  (runtime.states.entries.filterMap (transition limit bus)).foldl (emit bus)
    { runtime with states := mapValues runtime.states fun state => if state.expires limit then state.expired else state }

inductive Call where
  | recordSyncSample (groupId sourceHostDeviceId : String) (offsetMs : Int) (uncertaintyMs atMs : Nat) (bus : Bus)
  | applySourceHostElection (groupId displayName : String) (sourceHostDeviceId : Option String) (nowMs : Nat) (bus : Bus)
  | evaluateStaleness (now stalenessMs : Nat) (bus : Bus)

def step (localDeviceId : String) (runtime : Runtime) : Call → Runtime
  | .recordSyncSample groupId host offsetMs uncertaintyMs atMs bus =>
    recordSyncSample runtime groupId host offsetMs uncertaintyMs atMs bus
  | .applySourceHostElection groupId displayName host nowMs bus =>
    applySourceHostElection localDeviceId runtime groupId displayName host nowMs bus
  | .evaluateStaleness now stalenessMs bus => evaluateStaleness runtime now stalenessMs bus

def Runtime.new : Runtime := ⟨∅,[]⟩

-- What a receiver aligns to.
structure Alignment where
  sourceHostDeviceId : Option String
  isLocalHost : Bool
  offsetMs : Int
  quality : String
  deriving DecidableEq,Repr

def ClockSync.alignment (state : ClockSync) : Alignment :=
  ⟨state.sourceHostDeviceId,state.isLocalHost,state.offsetMs,serialiseQuality state.quality⟩

def ClockSyncChanged.alignment (h : ClockSyncChanged) : Alignment := ⟨h.sourceHostDeviceId,h.isLocalHost,h.offsetMs,h.quality⟩

def lastChanged (happenings : List ClockSyncChanged) (groupId : String) : Option ClockSyncChanged :=
  (happenings.filter fun h => h.groupId = groupId).getLast?

def heard (runtime : Runtime) (groupId : String) : Option Alignment :=
  (lastChanged runtime.happenings groupId).map ClockSyncChanged.alignment

def Told (runtime : Runtime) : Prop :=
  ∀ groupId state,get runtime.states groupId = some state → heard runtime groupId = some state.alignment

-- An election that moves the group to another host moves its quality too, and the bus takes what it is given.
def Announced (localDeviceId : String) (runtime : Runtime) : Call → Prop
  | .recordSyncSample groupId host offsetMs _ _ bus =>
    ∀ state ∈ get runtime.states groupId,state.isLocalHost = false → state.sourceHostDeviceId = some host →
      (state.quality = .locked ∧ state.offsetMs = offsetMs) ∨ bus.accepts groupId = true
  | .applySourceHostElection groupId _ host _ bus =>
    (∀ state ∈ get runtime.states groupId,state.sourceHostDeviceId ≠ host → state.quality ≠ newQuality localDeviceId host) ∧
      ((get runtime.states groupId).map (·.quality) = some (newQuality localDeviceId host) ∨ bus.accepts groupId = true)
  | .evaluateStaleness now stalenessMs bus =>
    ∀ entry ∈ runtime.states.entries,entry.2.expires (cutoff now stalenessMs) = true → bus.accepts entry.1 = true

structure Sound (localDeviceId groupId : String) (state : ClockSync) : Prop where
  keyed : state.groupId = groupId
  hosted : state.isLocalHost = isLocal localDeviceId state.sourceHostDeviceId
  unmeasured : state.quality = .unknown ∨ state.quality = .warming ∨ state.isLocalHost = true → state.offsetMs = 0

-- The part of the invariant that no call can break.
structure Steady (localDeviceId : String) (runtime : Runtime) : Prop where
  sound : ∀ groupId state,get runtime.states groupId = some state → Sound localDeviceId groupId state
  silent : ∀ groupId,get runtime.states groupId = none → heard runtime groupId = none

structure Kept (localDeviceId : String) (runtime : Runtime) : Prop extends Steady localDeviceId runtime where
  told : Told runtime

section
variable {localDeviceId groupId displayName : String} {host : Option String} {bus : Bus} {runtime : Runtime}
  {state new : ClockSync} {h : ClockSyncChanged} {hs : List ClockSyncChanged}

theorem serialiseQuality_injective (same : serialiseQuality one = serialiseQuality two) : one = two := by
  cases one <;> cases two <;> first | rfl | simp [serialiseQuality] at same

theorem heard_emit (bus : Bus) (runtime : Runtime) (h : ClockSyncChanged) (groupId : String) :
    heard (emit bus runtime h) groupId =
      if h.groupId = groupId ∧ bus.accepts groupId = true then some h.alignment else heard runtime groupId := by
  unfold emit
  by_cases of : h.groupId = groupId
  · subst of
    by_cases taken : bus.accepts h.groupId = true
    · simp [taken,heard,lastChanged]
    · simp [taken]
  · split
    · simp [heard,lastChanged,of]
    · simp [of]

theorem heard_emits (same : ∀ h ∈ hs,h.groupId = groupId → h.alignment = said) :
    heard (hs.foldl (emit bus) runtime) groupId =
      if bus.accepts groupId = true ∧ ∃ h ∈ hs,h.groupId = groupId then some said else heard runtime groupId := by
  induction hs generalizing runtime with
  | nil => simp
  | cons first rest ih =>
    rw [List.foldl_cons,ih (fun h later => same h (List.mem_cons_of_mem _ later)),heard_emit]
    by_cases taken : bus.accepts groupId = true
    · by_cases of : first.groupId = groupId
      · simp [taken,of,same first List.mem_cons_self of]
      · simp [taken,of]
    · simp [taken]

@[simp] theorem emit_states : (emit bus runtime h).states = runtime.states := by
  unfold emit
  split <;> rfl

@[simp] theorem emits_states : (hs.foldl (emit bus) runtime).states = runtime.states := by
  induction hs generalizing runtime with
  | nil => rfl
  | cons first rest ih => rw [List.foldl_cons,ih,emit_states]

theorem stored_told (told : Told runtime) :
    Told { runtime with states := runtime.states.insert groupId new } ↔ heard runtime groupId = some new.alignment := by
  constructor
  · intro after
    exact after groupId new (by simp)
  · intro already a state there
    change heard runtime a = some state.alignment
    rw [get_insert] at there
    split at there
    · rename_i same
      cases there
      rw [same,already]
    · exact told a state there

theorem emitted_told (told : Told runtime) (of : h.groupId = groupId) (telling : h.alignment = new.alignment) :
    Told (emit bus { runtime with states := runtime.states.insert groupId new } h) ↔
      bus.accepts groupId = true ∨ heard runtime groupId = some new.alignment := by
  by_cases taken : bus.accepts groupId = true
  · refine iff_of_true ?_ (.inl taken)
    intro a state there
    rw [emit_states,get_insert] at there
    rw [heard_emit]
    split at there
    · rename_i same
      cases there
      rw [if_pos ⟨of.trans same.symm,same ▸ taken⟩,telling]
    · rename_i other
      rw [if_neg (fun both => other (both.1.symm.trans of))]
      exact told a state there
  · have untaken : emit bus { runtime with states := runtime.states.insert groupId new } h =
        { runtime with states := runtime.states.insert groupId new } := by simp [emit,of,taken]
    rw [untaken,stored_told told]
    simp [taken]

theorem sampled_alignment (remote : state.isLocalHost = false) :
    ((state.sampled offsetMs uncertaintyMs atMs).changed false at_).alignment = (state.sampled offsetMs uncertaintyMs atMs).alignment := by
  simp [ClockSync.changed,ClockSyncChanged.alignment,ClockSync.alignment,ClockSync.sampled,remote]

theorem sampled_same : state.alignment = (state.sampled offsetMs uncertaintyMs atMs).alignment ↔
    state.quality = .locked ∧ state.offsetMs = offsetMs := by
  constructor
  · intro same
    have offsets := congrArg Alignment.offsetMs same
    have qualities : serialiseQuality state.quality = serialiseQuality .locked := congrArg Alignment.quality same
    exact ⟨serialiseQuality_injective qualities,offsets⟩
  · intro same
    simp [ClockSync.alignment,ClockSync.sampled,same.1,same.2]

theorem record_exact (kept : Kept localDeviceId runtime) :
    Told (recordSyncSample runtime groupId source offsetMs uncertaintyMs atMs bus) ↔
      Announced localDeviceId runtime (.recordSyncSample groupId source offsetMs uncertaintyMs atMs bus) := by
  have told := kept.told
  simp only [recordSyncSample,Announced]
  cases there : get runtime.states groupId with
  | none => simpa using told
  | some state =>
    have said := told groupId state there
    have keyed := (kept.sound groupId state there).keyed
    simp only [Option.mem_def,Option.some.injEq,forall_eq']
    by_cases hosting : state.isLocalHost = true
    · simpa [hosting] using told
    have remote := Bool.not_eq_true _ ▸ hosting
    by_cases ours : state.sourceHostDeviceId = some source
    · simp only [hosting,ours,ne_eq,not_true_eq_false,if_false,forall_const,Bool.false_eq_true]
      split
      · rename_i same
        rw [stored_told told,said]
        simpa [same] using sampled_same.mpr same
      · rename_i differs
        rw [emitted_told told keyed (sampled_alignment remote),said,Option.some.injEq,sampled_same]
        simp [differs]
    · simpa [hosting,ours] using told

theorem elected_alignment : ((elected localDeviceId groupId displayName host nowMs prior).changed (isLocal localDeviceId host) at_).alignment =
    (elected localDeviceId groupId displayName host nowMs prior).alignment := rfl

theorem newQuality_measured (sound : Sound localDeviceId groupId state) (same : state.quality = newQuality localDeviceId state.sourceHostDeviceId) :
    state.offsetMs = 0 := by
  apply sound.unmeasured
  rw [same,sound.hosted]
  unfold newQuality
  split
  · exact .inl rfl
  · split
    · rename_i here
      exact .inr (.inr here)
    · exact .inr (.inl rfl)

theorem elected_same (sound : Sound localDeviceId groupId state) (same : state.quality = newQuality localDeviceId host) :
    state.alignment = (elected localDeviceId groupId displayName host nowMs (some state)).alignment ↔ state.sourceHostDeviceId = host := by
  constructor
  · intro aligned
    exact congrArg Alignment.sourceHostDeviceId aligned
  · intro unmoved
    subst unmoved
    simp [ClockSync.alignment,elected,sound.hosted,newQuality_measured sound same,same]

theorem election_exact (kept : Kept localDeviceId runtime) :
    Told (applySourceHostElection localDeviceId runtime groupId displayName host nowMs bus) ↔
      Announced localDeviceId runtime (.applySourceHostElection groupId displayName host nowMs bus) := by
  have told := kept.told
  simp only [applySourceHostElection,Announced]
  cases there : get runtime.states groupId with
  | none =>
    have silent := kept.silent groupId there
    simp only [Option.map_none,reduceCtorEq,if_false]
    have keyed : (elected localDeviceId groupId displayName host nowMs none).groupId = groupId := rfl
    rw [emitted_told told keyed elected_alignment,silent]
    simp
  | some state =>
    have said := told groupId state there
    have sound := kept.sound groupId state there
    simp only [Option.map_some,Option.some.injEq,Option.mem_def,forall_eq']
    split
    · rename_i same
      rw [stored_told told,said,Option.some.injEq,elected_same sound same]
      simp [same]
    · rename_i moved
      rw [emitted_told told sound.keyed elected_alignment,said]
      have differs : ¬state.alignment = (elected localDeviceId groupId displayName host nowMs (some state)).alignment :=
        fun aligned => moved (serialiseQuality_injective (congrArg Alignment.quality aligned))
      simp [moved,differs]

theorem expires_remote (old : state.expires limit = true) : state.isLocalHost = false ∧ state.quality = .locked := by
  simp only [ClockSync.expires,Bool.and_eq_true,Bool.not_eq_true',decide_eq_true_eq] at old
  exact ⟨old.1.1.1,old.1.1.2⟩

theorem expired_alignment (old : state.expires limit = true) :
    (state.expired.changed false at_).alignment = state.expired.alignment := by
  simp [ClockSync.changed,ClockSyncChanged.alignment,ClockSync.alignment,ClockSync.expired,(expires_remote old).1]

theorem expired_differs (old : state.expires limit = true) : state.alignment ≠ state.expired.alignment := by
  intro same
  have qualities : serialiseQuality state.quality = serialiseQuality .stale := congrArg Alignment.quality same
  rw [(expires_remote old).2] at qualities
  cases serialiseQuality_injective qualities

theorem transition_of (kept : Kept localDeviceId runtime)
    (emitted : h ∈ runtime.states.entries.filterMap (transition limit bus)) :
    ∃ state,get runtime.states h.groupId = some state ∧ state.expires limit = true ∧ h.alignment = state.expired.alignment := by
  obtain ⟨⟨key,state⟩,member,made⟩ := List.mem_filterMap.mp emitted
  have there := (entries_get runtime.states).mp member
  unfold transition at made
  split at made
  · rename_i old
    cases made
    have keyed : state.groupId = key := (kept.sound key state there).keyed
    exact ⟨state,keyed ▸ there,old,expired_alignment old⟩
  · cases made

theorem transition_there (kept : Kept localDeviceId runtime) (there : get runtime.states groupId = some state)
    (old : state.expires limit = true) : ∃ h ∈ runtime.states.entries.filterMap (transition limit bus),h.groupId = groupId := by
  refine ⟨state.expired.changed false (bus.now state.groupId),?_,(kept.sound groupId state there).keyed⟩
  exact List.mem_filterMap.mpr ⟨⟨groupId,state⟩,(entries_get runtime.states).mpr there,by simp [transition,old]⟩

@[simp] theorem evaluate_states : (evaluateStaleness runtime now stalenessMs bus).states =
    mapValues runtime.states fun state => if state.expires (cutoff now stalenessMs) then state.expired else state := by
  simp [evaluateStaleness]

theorem evaluate_heard (kept : Kept localDeviceId runtime) (there : get runtime.states groupId = some state) :
    heard (evaluateStaleness runtime now stalenessMs bus) groupId =
      if bus.accepts groupId = true ∧ state.expires (cutoff now stalenessMs) = true then some state.expired.alignment
      else some state.alignment := by
  have same : ∀ h ∈ runtime.states.entries.filterMap (transition (cutoff now stalenessMs) bus),h.groupId = groupId →
      h.alignment = state.expired.alignment := by
    intro h emitted of
    obtain ⟨other,known,_,alike⟩ := transition_of kept emitted
    rw [of,there] at known
    cases known
    exact alike
  have emits : (∃ h ∈ runtime.states.entries.filterMap (transition (cutoff now stalenessMs) bus),h.groupId = groupId) ↔
      state.expires (cutoff now stalenessMs) = true := by
    constructor
    · intro found
      obtain ⟨h,emitted,of⟩ := found
      obtain ⟨other,known,old,_⟩ := transition_of kept emitted
      rw [of,there] at known
      cases known
      exact old
    · exact transition_there kept there
  unfold evaluateStaleness
  rw [heard_emits same,← kept.told groupId state there]
  simp only [emits]
  rfl

theorem evaluate_exact (kept : Kept localDeviceId runtime) :
    Told (evaluateStaleness runtime now stalenessMs bus) ↔ Announced localDeviceId runtime (.evaluateStaleness now stalenessMs bus) := by
  constructor
  · intro told entry member old
    have there := (entries_get runtime.states).mp member
    have said := told entry.1 entry.2.expired (by simp [there,old])
    rw [evaluate_heard kept there] at said
    by_contra refused
    simp only [refused,false_and,if_false,Option.some.injEq] at said
    exact expired_differs old said
  · intro met groupId state there
    simp only [evaluate_states,get_mapValues,Option.map_eq_some_iff] at there
    obtain ⟨before,known,rfl⟩ := there
    rw [evaluate_heard kept known]
    by_cases old : before.expires (cutoff now stalenessMs) = true
    · simp [old,met ⟨groupId,before⟩ ((entries_get runtime.states).mpr known) old]
    · simp [old]

theorem stored_steady (steady : Steady localDeviceId runtime) (sound : Sound localDeviceId groupId new) :
    Steady localDeviceId { runtime with states := runtime.states.insert groupId new } := by
  constructor
  case sound =>
    intro a state there
    rw [get_insert] at there
    split at there
    · rename_i same
      cases there
      exact same ▸ sound
    · exact steady.sound a state there
  case silent =>
    intro a absent
    rw [get_insert] at absent
    split at absent
    · cases absent
    · exact steady.silent a absent

theorem emit_steady (steady : Steady localDeviceId runtime) (there : get runtime.states h.groupId = some state) :
    Steady localDeviceId (emit bus runtime h) := by
  constructor
  case sound => simpa using steady.sound
  case silent =>
    intro a absent
    rw [emit_states] at absent
    have apart : h.groupId ≠ a := by
      intro same
      rw [same,absent] at there
      cases there
    rw [heard_emit,if_neg fun both => apart both.1]
    exact steady.silent a absent

theorem emits_steady (steady : Steady localDeviceId runtime) (there : ∀ h ∈ hs,∃ state,get runtime.states h.groupId = some state) :
    Steady localDeviceId (hs.foldl (emit bus) runtime) := by
  induction hs generalizing runtime with
  | nil => exact steady
  | cons first rest ih =>
    obtain ⟨state,known⟩ := there first List.mem_cons_self
    apply ih (emit_steady steady known)
    intro h later
    simpa using there h (List.mem_cons_of_mem _ later)

theorem record_steady (steady : Steady localDeviceId runtime) :
    Steady localDeviceId (recordSyncSample runtime groupId source offsetMs uncertaintyMs atMs bus) := by
  unfold recordSyncSample
  cases there : get runtime.states groupId with
  | none => exact steady
  | some state =>
    have sound := steady.sound groupId state there
    simp only
    split
    · exact steady
    · rename_i hosting
      split
      · exact steady
      · have measured : Sound localDeviceId groupId (state.sampled offsetMs uncertaintyMs atMs) :=
          ⟨sound.keyed,sound.hosted,by simp [ClockSync.sampled,hosting]⟩
        split
        · exact stored_steady steady measured
        · apply emit_steady (stored_steady steady measured)
          change get (runtime.states.insert groupId _) state.groupId = some _
          rw [sound.keyed,get_insert,if_pos rfl]

theorem elected_sound (keyed : ∀ state ∈ prior,Sound localDeviceId groupId state) :
    Sound localDeviceId groupId (elected localDeviceId groupId displayName host nowMs prior) := by
  refine ⟨?_,rfl,fun _ => rfl⟩
  cases prior with
  | none => rfl
  | some state => exact (keyed state rfl).keyed

theorem election_steady (steady : Steady localDeviceId runtime) :
    Steady localDeviceId (applySourceHostElection localDeviceId runtime groupId displayName host nowMs bus) := by
  have sound : Sound localDeviceId groupId (elected localDeviceId groupId displayName host nowMs (get runtime.states groupId)) :=
    elected_sound (steady.sound groupId)
  have stored := stored_steady steady sound
  simp only [applySourceHostElection]
  split
  · exact stored
  · apply emit_steady stored
    simp only [ClockSync.changed,sound.keyed,get_insert]
    rfl

theorem evaluate_steady (kept : Kept localDeviceId runtime) : Steady localDeviceId (evaluateStaleness runtime now stalenessMs bus) := by
  have swept : Steady localDeviceId { runtime with
      states := mapValues runtime.states fun state => if state.expires (cutoff now stalenessMs) then state.expired else state } := by
    constructor
    case sound =>
      intro groupId state there
      simp only [get_mapValues,Option.map_eq_some_iff] at there
      obtain ⟨before,known,rfl⟩ := there
      have sound := kept.sound groupId before known
      split
      · rename_i old
        exact ⟨sound.keyed,sound.hosted,by simp [ClockSync.expired,(expires_remote old).1]⟩
      · exact sound
    case silent =>
      intro groupId absent
      simp only [get_mapValues,Option.map_eq_none_iff] at absent
      exact kept.silent groupId absent
  apply emits_steady swept
  intro h emitted
  obtain ⟨state,known,_⟩ := transition_of kept emitted
  simp [known]

theorem step_exact (kept : Kept localDeviceId runtime) (call : Call) :
    Told (step localDeviceId runtime call) ↔ Announced localDeviceId runtime call := by
  cases call with
  | recordSyncSample => exact record_exact kept
  | applySourceHostElection => exact election_exact kept
  | evaluateStaleness => exact evaluate_exact kept

theorem step_steady (kept : Kept localDeviceId runtime) (call : Call) : Steady localDeviceId (step localDeviceId runtime call) := by
  cases call with
  | recordSyncSample => exact record_steady kept.toSteady
  | applySourceHostElection => exact election_steady kept.toSteady
  | evaluateStaleness => exact evaluate_steady kept

theorem new_kept : Kept localDeviceId Runtime.new := by
  refine ⟨⟨?_,?_⟩,?_⟩
  · intro groupId state there
    cases there
  · intro groupId _
    rfl
  · intro groupId state there
    cases there

theorem untold (groupId : String) (before now : Alignment) (last : heard runtime groupId = some before)
    (current : (get runtime.states groupId).map ClockSync.alignment = some now) (apart : before ≠ now) : ¬Told runtime := by
  intro told
  obtain ⟨state,there,is⟩ := Option.map_eq_some_iff.mp current
  have said := told groupId state there
  rw [last,is] at said
  exact apart (Option.some.inj said)

end

theorem happenings_tell (localDeviceId : String) (calls : List Call) :
    Throughout (step localDeviceId) Told Runtime.new calls ↔ Guarded (step localDeviceId) (Announced localDeviceId) Runtime.new calls := by
  apply throughout_strong (Kept localDeviceId) (fun _ kept => kept.told)
  · intro runtime call kept met
    have steady := step_steady kept call
    exact ⟨steady,(step_exact kept call).mpr met⟩
  · exact fun runtime call kept told => (step_exact kept call).mp told
  · exact new_kept

def open_ : Bus := ⟨fun _ => 0,fun _ => true⟩

-- Host b takes over from host a before a sample has landed, and the receiver still follows a.
def warmFailover : List Call :=
  [.applySourceHostElection "g" "Lounge" (some "a") 0 open_,.applySourceHostElection "g" "Lounge" (some "b") 0 open_]

-- The local node takes over from a locked remote host.
def lockedTakeover : List Call :=
  [.applySourceHostElection "g" "Lounge" (some "a") 0 open_,.recordSyncSample "g" "a" 12 3 1000 open_,
    .applySourceHostElection "g" "Lounge" (some "local") 2000 open_]

theorem failovers_untold : ¬Told (run (step "local") .new warmFailover) ∧ ¬Told (run (step "local") .new lockedTakeover) := by
  constructor
  · exact untold "g" ⟨some "a",false,0,"warming"⟩ ⟨some "b",false,0,"warming"⟩ (by decide) (by decide) (by decide)
  · exact untold "g" ⟨some "a",false,12,"locked"⟩ ⟨some "local",true,0,"locked"⟩ (by decide) (by decide) (by decide)

end EvoCore.ClockSync
