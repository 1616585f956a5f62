import EvoCore.AssetCache

namespace EvoCore.AssetCache
open Runs Tables

section
variable {hashBytes : List UInt8 → String} {disk middle third after : Disk} {hash other : String} {n m : Nat} {written bytes : List UInt8} {now : Int}

-- The files under their hashes have their hashes, and a temporary name has a file of its own.
structure Disk.Sound (hashBytes : List UInt8 → String) (disk : Disk) : Prop where
  finals : ∀ hash n,get disk.finals hash = some n → ∃ content,disk.content n = some content ∧ hashBytes content = hash
  temps : ∀ hash n,get disk.temps hash = some n → n < disk.files.length
  apart : ∀ hash other n,get disk.temps hash = some n → get disk.finals other ≠ some n
  alone : ∀ hash other n,get disk.temps hash = some n → get disk.temps other = some n → hash = other

structure Writes (disk : Disk) (hash : String) (n : Nat) (written : List UInt8) : Prop where
  content : disk.content n = some written
  unnamed : ∀ other,get disk.finals other ≠ some n
  temps : ∀ other,get disk.temps other = some n → other = hash
  own : ∀ m,get disk.temps hash = some m → m = n

def Written (disk : Disk) (hash : String) (bytes : List UInt8) : Prop :=
  ∀ n,get disk.temps hash = some n → disk.content n = some bytes

theorem content_bound (there : disk.content n = some bytes) : n < disk.files.length := by
  obtain ⟨file,found,-⟩ := Option.map_eq_some_iff.mp there
  exact (List.getElem?_eq_some_iff.mp found).1

@[simp] theorem content_setContent :
    (disk.setContent n bytes now).content m = if m = n then (disk.content n).map fun _ => bytes else disk.content m := by
  by_cases same : m = n
  · subst same
    simp [Disk.content,Disk.setContent,Function.comp_def]
  · have apart : n ≠ m := Ne.symm same
    simp [Disk.content,Disk.setContent,same,apart]

@[simp] theorem content_touchMtime : (disk.touchMtime n now).content m = disk.content m := by
  by_cases same : n = m
  · subst same
    simp [Disk.content,Disk.touchMtime,Function.comp_def]
  · simp [Disk.content,Disk.touchMtime,same]

structure Disk.Fewer (after before : Disk) : Prop where
  content : ∀ n,after.content n = before.content n
  length : after.files.length = before.files.length
  finals : ∀ hash n,get after.finals hash = some n → get before.finals hash = some n
  temps : ∀ hash n,get after.temps hash = some n → get before.temps hash = some n

theorem fewer_same : disk.Fewer disk := ⟨fun _ => rfl,rfl,fun _ _ there => there,fun _ _ there => there⟩

theorem fewer_trans (second : third.Fewer middle) (first : middle.Fewer disk) : third.Fewer disk :=
  ⟨fun n => (second.content n).trans (first.content n),second.length.trans first.length,
    fun hash n there => first.finals hash n (second.finals hash n there),
    fun hash n there => first.temps hash n (second.temps hash n there)⟩

theorem fewer_touch : (disk.touchMtime n now).Fewer disk :=
  ⟨fun _ => content_touchMtime,by simp [Disk.touchMtime],fun _ _ there => there,fun _ _ there => there⟩

theorem get_of_erase {t : Table String Nat} (there : get (t.erase other) hash = some n) : get t hash = some n := by
  rw [get_erase] at there
  split at there
  · cases there
  · exact there

theorem fewer_remove (name : Name) : (disk.remove name).Fewer disk := by
  cases name with
  | final hash => exact ⟨fun _ => rfl,rfl,fun _ _ there => get_of_erase there,fun _ _ there => there⟩
  | temp hash => exact ⟨fun _ => rfl,rfl,fun _ _ there => there,fun _ _ there => get_of_erase there⟩

theorem fewer_dropOldest : (dropOldest bound removable disk total victims).Fewer disk := by
  induction victims generalizing disk total with
  | nil => exact fewer_same
  | cons victim rest ih =>
    unfold dropOldest
    split
    · exact fewer_same
    · split
      · exact fewer_trans ih (fewer_remove victim.name)
      · exact ih

theorem fewer_evict : (evictToBound bound removable disk).Fewer disk := fewer_dropOldest

theorem sound_fewer (fewer : after.Fewer disk) (sound : disk.Sound hashBytes) : after.Sound hashBytes where
  finals hash n there := by
    rw [fewer.content]
    exact sound.finals hash n (fewer.finals hash n there)
  temps hash n there := fewer.length ▸ sound.temps hash n (fewer.temps hash n there)
  apart hash other n there final := sound.apart hash other n (fewer.temps hash n there) (fewer.finals other n final)
  alone hash other n there also := sound.alone hash other n (fewer.temps hash n there) (fewer.temps other n also)

theorem writes_fewer (fewer : after.Fewer disk) (writes : Writes disk hash n written) : Writes after hash n written where
  content := (fewer.content n).trans writes.content
  unnamed other final := writes.unnamed other (fewer.finals other n final)
  temps other there := writes.temps other (fewer.temps other n there)
  own m there := writes.own m (fewer.temps hash m there)

theorem written_fewer (fewer : after.Fewer disk) (held : Written disk hash bytes) : Written after hash bytes :=
  fun n there => (fewer.content n).trans (held n (fewer.temps hash n there))

theorem sound_setContent (sound : disk.Sound hashBytes) (unnamed : ∀ other,get disk.finals other ≠ some n) :
    (disk.setContent n bytes now).Sound hashBytes where
  finals hash m there := by
    have other : m ≠ n := fun same => unnamed hash (same ▸ there)
    rw [content_setContent,if_neg other]
    exact sound.finals hash m there
  temps hash m there := by
    simp only [Disk.setContent,List.length_modify]
    exact sound.temps hash m there
  apart := sound.apart
  alone := sound.alone

theorem writes_setContent (writes : Writes disk hash m written) (other : m ≠ n) :
    Writes (disk.setContent n bytes now) hash m written where
  content := by rw [content_setContent,if_neg other,writes.content]
  unnamed := writes.unnamed
  temps := writes.temps
  own := writes.own

theorem written_setContent (held : Written disk hash bytes) (other : get disk.temps hash ≠ some n) :
    Written (disk.setContent n written now) hash bytes := by
  intro m there
  have apart : m ≠ n := fun same => other (same ▸ there)
  rw [content_setContent,if_neg apart]
  exact held m there

theorem writes_own (writes : Writes disk hash n written) : Writes (disk.writeAt n written.length bytes now) hash n (written++bytes) := by
  have appended : overlay written written.length bytes = written++bytes := by simp [overlay]
  unfold Disk.writeAt
  rw [writes.content]
  exact ⟨by simp [writes.content,appended],writes.unnamed,writes.temps,writes.own⟩

theorem writeAt_setContent (writes : Writes disk hash n written) :
    ∃ content,disk.writeAt n written.length bytes now = disk.setContent n content now := by
  unfold Disk.writeAt
  rw [writes.content]
  exact ⟨_,rfl⟩

def Disk.addTemp (disk : Disk) (hash : String) (now : Int) : Disk :=
  { disk with temps := disk.temps.insert hash disk.files.length,files := disk.files++[⟨[],now⟩] }

theorem content_addTemp (bound : m < disk.files.length) : (disk.addTemp hash now).content m = disk.content m := by
  simp [Disk.content,Disk.addTemp,List.getElem?_append_left bound]

theorem content_added : (disk.addTemp hash now).content disk.files.length = some [] := by
  simp [Disk.content,Disk.addTemp]

theorem temps_addTemp : get (disk.addTemp hash now).temps other = if other = hash then some disk.files.length else get disk.temps other :=
  get_insert _

theorem final_bound (sound : disk.Sound hashBytes) (there : get disk.finals hash = some n) : n < disk.files.length := by
  obtain ⟨content,found,-⟩ := sound.finals hash n there
  exact content_bound found

theorem sound_addTemp (sound : disk.Sound hashBytes) : (disk.addTemp hash now).Sound hashBytes where
  finals other n there := by
    rw [content_addTemp (final_bound sound there)]
    exact sound.finals other n there
  temps other n there := by
    have longer : (disk.addTemp hash now).files.length = disk.files.length+1 := by simp [Disk.addTemp]
    rw [temps_addTemp] at there
    split at there
    · cases there
      omega
    · have bound := sound.temps other n there
      omega
  apart other final n there named := by
    rw [temps_addTemp] at there
    split at there
    · cases there
      exact absurd (final_bound sound named) (lt_irrefl _)
    · exact sound.apart other final n there named
  alone left right n there also := by
    rw [temps_addTemp] at there also
    split at there
    · rename_i first
      split at also
      · rename_i second
        exact first.trans second.symm
      · cases there
        exact absurd (sound.temps right _ also) (lt_irrefl _)
    · split at also
      · cases also
        exact absurd (sound.temps left _ there) (lt_irrefl _)
      · exact sound.alone left right n there also

theorem createTemp_cases (disk : Disk) (hash : String) (now : Int) : (∃ n,get disk.temps hash = some n ∧ disk.createTemp hash now = (disk.setContent n [] now,n)) ∨
    (get disk.temps hash = none ∧ disk.createTemp hash now = (disk.addTemp hash now,disk.files.length)) := by
  cases there : get disk.temps hash with
  | some n => exact .inl ⟨n,rfl,by simp [Disk.createTemp,there]⟩
  | none => exact .inr ⟨rfl,by simp [Disk.createTemp,there,Disk.addTemp]⟩

theorem sound_createTemp (sound : disk.Sound hashBytes) : (disk.createTemp hash now).1.Sound hashBytes := by
  obtain ⟨n,there,same⟩ | ⟨_,same⟩ := createTemp_cases disk hash now
  · rw [same]
    exact sound_setContent sound fun other => sound.apart hash other n there
  · rw [same]
    exact sound_addTemp sound

theorem writes_created (sound : disk.Sound hashBytes) :
    Writes (disk.createTemp hash now).1 hash (disk.createTemp hash now).2 [] := by
  obtain ⟨n,there,same⟩ | ⟨fresh,same⟩ := createTemp_cases disk hash now
  · rw [same]
    obtain ⟨file,found⟩ := Option.isSome_iff_exists.mp (by simpa using sound.temps hash n there : disk.files[n]?.isSome)
    refine ⟨?_,fun other => sound.apart hash other n there,fun other also => sound.alone other hash n also there,?_⟩
    · rw [content_setContent,if_pos rfl]
      simp [Disk.content,found]
    · intro m also
      exact Option.some.inj (also.symm.trans there)
  · rw [same]
    refine ⟨content_added,fun other named => absurd (final_bound sound named) (lt_irrefl _),?_,?_⟩
    · intro other there
      rw [temps_addTemp] at there
      split at there
      · assumption
      · exact absurd (sound.temps other _ there) (lt_irrefl _)
    · intro m there
      rw [temps_addTemp,if_pos rfl] at there
      exact (Option.some.inj there).symm

theorem writes_createTemp (apart : other ≠ hash) (writes : Writes disk other m written) :
    Writes (disk.createTemp hash now).1 other m written ∧ (disk.createTemp hash now).2 ≠ m := by
  have bound := content_bound writes.content
  obtain ⟨n,there,same⟩ | ⟨fresh,same⟩ := createTemp_cases disk hash now
  · rw [same]
    have different : m ≠ n := fun equal => apart (writes.temps hash (equal ▸ there)).symm
    exact ⟨writes_setContent writes different,different.symm⟩
  · rw [same]
    refine ⟨⟨(content_addTemp bound).trans writes.content,writes.unnamed,?_,?_⟩,bound.ne'⟩
    · intro named there
      rw [temps_addTemp] at there
      split at there
      · cases there
        exact absurd bound (lt_irrefl _)
      · exact writes.temps named there
    · intro n there
      rw [temps_addTemp,if_neg apart] at there
      exact writes.own n there

theorem written_createTemp (sound : disk.Sound hashBytes) (apart : other ≠ hash) (held : Written disk other bytes) :
    Written (disk.createTemp hash now).1 other bytes := by
  obtain ⟨n,there,same⟩ | ⟨fresh,same⟩ := createTemp_cases disk hash now
  · rw [same]
    exact written_setContent held fun also => apart (sound.alone other hash n also there)
  · rw [same]
    intro n there
    rw [temps_addTemp,if_neg apart] at there
    rw [content_addTemp (sound.temps other n there)]
    exact held n there

theorem renameTemp_some (moved : disk.renameTemp hash = some after) :
    ∃ n,get disk.temps hash = some n ∧ after = { disk with finals := disk.finals.insert hash n,temps := disk.temps.erase hash } := by
  obtain ⟨n,there,same⟩ := Option.map_eq_some_iff.mp moved
  exact ⟨n,there,same.symm⟩

theorem sound_rename (sound : disk.Sound hashBytes) (held : Written disk hash bytes) (proper : hashBytes bytes = hash)
    (moved : disk.renameTemp hash = some after) : after.Sound hashBytes := by
  obtain ⟨n,there,rfl⟩ := renameTemp_some moved
  constructor
  · intro other m named
    rw [get_insert] at named
    split at named
    · rename_i same
      cases named
      exact ⟨bytes,held n there,proper.trans same.symm⟩
    · exact sound.finals other m named
  · intro other m named
    exact sound.temps other m (get_of_erase named)
  · intro left right m named final
    rw [get_insert] at final
    split at final
    · cases final
      have same := sound.alone left hash n (get_of_erase named) there
      rw [get_erase,if_pos same] at named
      cases named
    · exact sound.apart left right m (get_of_erase named) final
  · intro left right m named also
    exact sound.alone left right m (get_of_erase named) (get_of_erase also)

theorem writes_rename (apart : other ≠ hash) (writes : Writes disk other m written) (moved : disk.renameTemp hash = some after) :
    Writes after other m written := by
  obtain ⟨n,there,rfl⟩ := renameTemp_some moved
  refine ⟨writes.content,?_,fun named found => writes.temps named (get_of_erase found),fun k found => writes.own k (get_of_erase found)⟩
  intro named final
  rw [get_insert] at final
  split at final
  · cases final
    exact apart (writes.temps hash there).symm
  · exact writes.unnamed named final

theorem written_rename (held : Written disk other bytes) (moved : disk.renameTemp hash = some after) : Written after other bytes := by
  obtain ⟨n,there,rfl⟩ := renameTemp_some moved
  exact fun m found => held m (get_of_erase found)

end

section
variable {hashBytes : List UInt8 → String} {bound i : Nat} {cache after : Cache} {task : Task} {env : Env} {phase next : Phase}
  {disk middle : Disk} {channels : List Channel} {hash : String} {outcome : ChannelState} {change : Task → Task}

def Phase.replacing : Phase → Bool
  | .writing _ _ _ | .moving _ => true
  | _ => false

def Phase.file : Phase → Option Nat
  | .writing n _ _ => some n
  | _ => none

def PhaseSound (hashBytes : List UInt8 → String) (disk : Disk) (channels : List Channel) (hash : String) : Phase → Prop
  | .waiting ch =>
    ∃ state,channels[ch]? = some ⟨hash,state⟩ ∧ ∀ bytes,state = .published (.ok bytes) → hashBytes bytes = hash
  | .creatingDir bytes | .opening bytes => hashBytes bytes = hash
  | .returned answer => ∀ bytes,answer = some bytes → hashBytes bytes = hash
  | .writing n written rest => hashBytes (written++rest) = hash ∧ Writes disk hash n written
  | .moving bytes => hashBytes bytes = hash ∧ Written disk hash bytes
  | _ => True

-- Two calls replacing a file replace different ones, and write to different ones.
def Apart (left right : Task) : Prop :=
  left.phase.replacing = true → right.phase.replacing = true →
    left.hash ≠ right.hash ∧ ∀ n,left.phase.file = some n → right.phase.file ≠ some n

structure Safe (hashBytes : List UInt8 → String) (cache : Cache) : Prop where
  disk : cache.disk.Sound hashBytes
  inflight : ∀ hash ch,get cache.inflight hash = some ch → cache.channels[ch]? = some ⟨hash,.opened⟩
  tasks : ∀ (i : Nat) (task : Task),cache.tasks[i]? = some task → PhaseSound hashBytes cache.disk cache.channels task.hash task.phase
  apart : ∀ (i j : Nat) (left right : Task),cache.tasks[i]? = some left → cache.tasks[j]? = some right → i ≠ j → Apart left right

theorem apart_idle (idle : task.phase.replacing = false) : Apart task other := by
  intro replacing
  rw [idle] at replacing
  cases replacing

theorem apart_symm (apart : Apart task other) : Apart other task := by
  intro left right
  obtain ⟨different,files⟩ := apart right left
  exact ⟨different.symm,fun n mine its => files n its mine⟩

theorem phase_fewer (fewer : middle.Fewer disk) (sound : PhaseSound hashBytes disk channels hash phase) :
    PhaseSound hashBytes middle channels hash phase := by
  cases phase with
  | writing n written rest => exact ⟨sound.1,writes_fewer fewer sound.2⟩
  | moving bytes => exact ⟨sound.1,written_fewer fewer sound.2⟩
  | _ => exact sound

structure Moves (hashBytes : List UInt8 → String) (cache after : Cache) (i : Nat) (moved : Task) : Prop where
  disk : after.disk.Sound hashBytes
  inflight : ∀ hash ch,get after.inflight hash = some ch → after.channels[ch]? = some ⟨hash,.opened⟩
  own : PhaseSound hashBytes after.disk after.channels moved.hash moved.phase
  others : ∀ (j : Nat) (other : Task),j ≠ i → cache.tasks[j]? = some other → PhaseSound hashBytes after.disk after.channels other.hash other.phase
  apart : ∀ (j : Nat) (other : Task),j ≠ i → cache.tasks[j]? = some other → Apart moved other

theorem safe_moves (safe : Safe hashBytes cache) (there : cache.tasks[i]? = some task)
    (moves : Moves hashBytes cache after i (change task)) : Safe hashBytes { after with tasks := cache.tasks.modify i change } where
  disk := moves.disk
  inflight := moves.inflight
  tasks j moved found := by
    obtain ⟨old,before,rfl⟩ := modify_cases found
    split
    · rename_i same
      subst same
      cases before.symm.trans there
      exact moves.own
    · rename_i different
      exact moves.others j old (Ne.symm different) before
  apart j k left right found also different := by
    obtain ⟨old,before,rfl⟩ := modify_cases found
    obtain ⟨mate,beside,rfl⟩ := modify_cases also
    split
    · rename_i first
      subst first
      cases before.symm.trans there
      rw [if_neg different]
      exact moves.apart k mate (Ne.symm different) beside
    · rename_i first
      split
      · rename_i second
        subst second
        cases beside.symm.trans there
        exact apart_symm (moves.apart j old (Ne.symm first) before)
      · exact safe.apart j k old mate before beside different

theorem moves_fewer (safe : Safe hashBytes cache) (fewer : middle.Fewer cache.disk) (idle : moved.phase.replacing = false)
    (own : PhaseSound hashBytes middle cache.channels moved.hash moved.phase) :
    Moves hashBytes cache { cache with disk := middle } i moved where
  disk := sound_fewer fewer safe.disk
  inflight := safe.inflight
  own := own
  others j other _ found := phase_fewer fewer (safe.tasks j other found)
  apart _ _ _ _ := apart_idle idle

theorem moves_calm (safe : Safe hashBytes cache) (idle : moved.phase.replacing = false)
    (own : PhaseSound hashBytes cache.disk cache.channels moved.hash moved.phase) : Moves hashBytes cache cache i moved :=
  moves_fewer safe fewer_same idle own

def Unwaited (cache : Cache) (hash : String) : Prop :=
  ∀ ch,get cache.inflight hash = some ch → ∀ other ∈ cache.tasks,other.phase ≠ .waiting ch

theorem dropGuard_disk : (dropGuard cache hash outcome).disk = cache.disk := by
  unfold dropGuard
  split <;> rfl

-- The channels of other hashes stay open; that of this one gets the outcome.
theorem dropGuard_inflight (safe : Safe hashBytes cache) (there : get (dropGuard cache hash outcome).inflight other = some ch) :
    (dropGuard cache hash outcome).channels[ch]? = some ⟨other,.opened⟩ := by
  unfold dropGuard at there ⊢
  cases mine : get cache.inflight hash with
  | none =>
    rw [mine] at there
    exact safe.inflight other ch there
  | some own =>
    rw [mine] at there
    rw [get_erase] at there
    split at there
    · cases there
    · rename_i different
      have open_ := safe.inflight other ch there
      refine modify_other open_ ?_
      rintro rfl
      cases (safe.inflight hash own mine).symm.trans open_
      exact different rfl

theorem dropGuard_waiting (safe : Safe hashBytes cache) (member : waiter ∈ cache.tasks)
    (proper : ∀ bytes,outcome = .published (.ok bytes) → hashBytes bytes = hash ∨ Unwaited cache hash)
    (sound : PhaseSound hashBytes cache.disk cache.channels waiter.hash waiter.phase) :
    PhaseSound hashBytes (dropGuard cache hash outcome).disk (dropGuard cache hash outcome).channels waiter.hash waiter.phase := by
  rw [dropGuard_disk]
  unfold dropGuard
  cases mine : get cache.inflight hash with
  | none => exact sound
  | some own =>
    cases at_ : waiter.phase with
    | waiting ch =>
      rw [at_] at sound
      obtain ⟨state,found,delivered⟩ := sound
      by_cases same : own = ch
      · subst same
        cases (safe.inflight hash own mine).symm.trans found
        refine ⟨outcome,modify_same found,?_⟩
        intro bytes published
        obtain good | unwaited := proper bytes published
        · exact good
        · exact absurd at_ (unwaited own mine waiter member)
      · exact ⟨state,modify_other found same,delivered⟩
    | _ =>
      rw [at_] at sound
      exact sound

theorem moves_guard (safe : Safe hashBytes cache) (idle : moved.phase.replacing = false)
    (proper : ∀ bytes,outcome = .published (.ok bytes) → hashBytes bytes = hash ∨ Unwaited cache hash)
    (own : ∀ channels,PhaseSound hashBytes cache.disk channels moved.hash moved.phase) :
    Moves hashBytes cache (dropGuard cache hash outcome) i moved where
  disk := by
    rw [dropGuard_disk]
    exact safe.disk
  inflight _ _ there := dropGuard_inflight safe there
  own := by
    rw [dropGuard_disk]
    exact own _
  others j other _ found := dropGuard_waiting safe (List.mem_of_getElem? found) proper (safe.tasks j other found)
  apart _ _ _ _ := apart_idle idle

theorem moves_fetch (safe : Safe hashBytes cache) :
    Moves hashBytes cache
      { cache with inflight := cache.inflight.insert hash cache.channels.length,channels := cache.channels++[⟨hash,.opened⟩] }
      i { task with phase := .fetching } where
  disk := safe.disk
  inflight other ch there := by
    rw [get_insert] at there
    split at there
    · rename_i same
      cases there
      simp [same]
    · exact append_there (safe.inflight other ch there)
  own := trivial
  others j other _ found := by
    have sound := safe.tasks j other found
    cases at_ : other.phase with
    | waiting ch =>
      rw [at_] at sound
      obtain ⟨state,there,delivered⟩ := sound
      exact ⟨state,append_there there,delivered⟩
    | _ =>
      rw [at_] at sound
      exact sound
  apart _ _ _ _ := apart_idle rfl

theorem returned_none {channels : List Channel} : PhaseSound hashBytes disk channels hash (.returned none) := fun _ none_ => nomatch none_

theorem beginPut_sound {channels : List Channel} : PhaseSound hashBytes disk channels hash (beginPut hashBytes hash bytes) := by
  unfold beginPut
  split
  · rename_i checked
    simp only [Bool.and_eq_true,decide_eq_true_eq] at checked
    exact checked.2
  · exact returned_none

theorem beginPut_idle : (beginPut hashBytes hash bytes).replacing = false := by
  unfold beginPut
  split <;> rfl

theorem moves_reading (safe : Safe hashBytes cache) (at_ : task.phase = .reading) :
    Moves hashBytes cache (advanceTask hashBytes bound cache task env).1 i
      { task with phase := (advanceTask hashBytes bound cache task env).2 } := by
  unfold advanceTask
  rw [at_]
  dsimp only
  split
  · exact moves_calm safe rfl returned_none
  · cases there : get cache.disk.finals task.hash with
    | none =>
      dsimp only
      split
      · exact moves_calm safe rfl trivial
      · exact moves_calm safe rfl returned_none
    | some n =>
      refine moves_fewer safe fewer_touch rfl ?_
      intro bytes held
      obtain ⟨content,found,proper⟩ := safe.disk.finals task.hash n there
      cases found.symm.trans held
      exact proper

theorem moves_missed (safe : Safe hashBytes cache) (at_ : task.phase = .missed) :
    Moves hashBytes cache (advanceTask hashBytes bound cache task env).1 i
      { task with phase := (advanceTask hashBytes bound cache task env).2 } := by
  unfold advanceTask
  rw [at_]
  dsimp only
  cases there : get cache.inflight task.hash with
  | none => exact moves_fetch safe
  | some ch => exact moves_calm safe rfl ⟨.opened,safe.inflight task.hash ch there,fun _ none_ => nomatch none_⟩

theorem moves_waiting (safe : Safe hashBytes cache) (there : cache.tasks[i]? = some task) (at_ : task.phase = .waiting ch) :
    Moves hashBytes cache (advanceTask hashBytes bound cache task env).1 i
      { task with phase := (advanceTask hashBytes bound cache task env).2 } := by
  have sound := safe.tasks i task there
  rw [at_] at sound
  obtain ⟨state,found,delivered⟩ := sound
  unfold advanceTask
  rw [at_]
  dsimp only
  rw [found]
  cases state with
  | opened =>
    dsimp only
    split
    · exact moves_calm safe rfl returned_none
    · exact moves_calm safe rfl ⟨.opened,found,delivered⟩
  | closed => exact moves_calm safe rfl trivial
  | published outcome =>
    cases outcome with
    | error reason => exact moves_calm safe rfl returned_none
    | ok bytes =>
      refine moves_calm safe rfl ?_
      rintro _ ⟨⟩
      exact delivered bytes rfl

theorem moves_fetching (safe : Safe hashBytes cache) (at_ : task.phase = .fetching)
    (proper : ∀ bytes,env.fetched = .ok bytes → hashBytes bytes = task.hash ∨ Unwaited cache task.hash) :
    Moves hashBytes cache (advanceTask hashBytes bound cache task env).1 i
      { task with phase := (advanceTask hashBytes bound cache task env).2 } := by
  unfold advanceTask
  rw [at_]
  dsimp only
  cases got : env.fetched with
  | error reason => exact moves_guard safe rfl (fun bytes none_ => nomatch none_) fun _ => returned_none
  | ok bytes =>
    refine moves_guard safe beginPut_idle ?_ fun _ => beginPut_sound
    rintro _ ⟨⟩
    exact proper bytes got

-- No other call is between opening the temporary file of the hash and renaming it.
def Alone (cache : Cache) (i : Nat) (hash : String) : Prop :=
  ∀ (j : Nat) (other : Task),j ≠ i → cache.tasks[j]? = some other → other.phase.replacing = true → other.hash ≠ hash

theorem moves_opening (safe : Safe hashBytes cache) (there : cache.tasks[i]? = some task) (at_ : task.phase = .opening bytes)
    (alone : env.io = true → Alone cache i task.hash) :
    Moves hashBytes cache (advanceTask hashBytes bound cache task env).1 i
      { task with phase := (advanceTask hashBytes bound cache task env).2 } := by
  have checked := safe.tasks i task there
  rw [at_] at checked
  unfold advanceTask
  rw [at_]
  dsimp only
  split
  · rename_i ok
    refine ⟨sound_createTemp safe.disk,safe.inflight,⟨checked,writes_created safe.disk⟩,?_,?_⟩
    · intro j other different found
      have sound := safe.tasks j other found
      cases phase : other.phase with
      | writing n written rest =>
        rw [phase] at sound
        have apart := alone ok j other different found (by rw [phase]; rfl)
        exact ⟨sound.1,(writes_createTemp apart sound.2).1⟩
      | moving bytes =>
        rw [phase] at sound
        have apart := alone ok j other different found (by rw [phase]; rfl)
        exact ⟨sound.1,written_createTemp safe.disk apart sound.2⟩
      | _ =>
        rw [phase] at sound
        exact sound
    · intro j other different found _ replacing
      have apart := alone ok j other different found replacing
      refine ⟨apart.symm,?_⟩
      rintro _ ⟨⟩ same
      have sound := safe.tasks j other found
      cases phase : other.phase with
      | writing n written rest =>
        rw [phase] at same sound
        exact (writes_createTemp apart sound.2).2 (Option.some.inj same).symm
      | _ =>
        rw [phase] at same
        cases same
  · exact moves_calm safe rfl returned_none

theorem moves_writing (safe : Safe hashBytes cache) (there : cache.tasks[i]? = some task)
    (at_ : task.phase = .writing n written rest) :
    Moves hashBytes cache (advanceTask hashBytes bound cache task env).1 i
      { task with phase := (advanceTask hashBytes bound cache task env).2 } := by
  have checked := safe.tasks i task there
  have apart := fun j other different found => safe.apart i j task other there found (Ne.symm different)
  have replacing : task.phase.replacing = true := by rw [at_]; rfl
  have file : task.phase.file = some n := by rw [at_]; rfl
  rw [at_] at checked
  obtain ⟨proper,writes⟩ := checked
  unfold advanceTask
  rw [at_]
  dsimp only
  split
  · exact moves_calm safe rfl returned_none
  · split
    · rename_i ended
      split
      · exact moves_calm safe rfl trivial
      · refine ⟨safe.disk,safe.inflight,⟨?_,?_⟩,fun j other _ found => safe.tasks j other found,?_⟩
        · rw [List.isEmpty_iff.mp ended,List.append_nil] at proper
          exact proper
        · intro m named
          rw [writes.own m named]
          exact writes.content
        · intro j other different found _ beside
          refine ⟨(apart j other different found replacing beside).1,?_⟩
          intro m none_
          cases none_
    · refine ⟨?_,safe.inflight,⟨?_,writes_own writes⟩,?_,?_⟩
      · obtain ⟨content,same⟩ := writeAt_setContent writes
        rw [same]
        exact sound_setContent safe.disk writes.unnamed
      · rw [List.append_assoc,List.take_append_drop]
        exact proper
      · intro j other different found
        have sound := safe.tasks j other found
        obtain ⟨content,same⟩ := writeAt_setContent writes
        rw [same]
        cases phase : other.phase with
        | writing m theirs left =>
          rw [phase] at sound
          have files := (apart j other different found replacing (by rw [phase]; rfl)).2 n file
          refine ⟨sound.1,writes_setContent sound.2 ?_⟩
          rintro rfl
          exact files (by rw [phase]; rfl)
        | moving bytes =>
          rw [phase] at sound
          have hashes := (apart j other different found replacing (by rw [phase]; rfl)).1
          refine ⟨sound.1,written_setContent sound.2 ?_⟩
          intro named
          exact hashes (writes.temps other.hash named).symm
        | _ =>
          rw [phase] at sound
          exact sound
      · intro j other different found _ beside
        have both := apart j other different found replacing beside
        refine ⟨both.1,?_⟩
        rintro _ ⟨⟩
        exact both.2 n file

theorem moves_moving (safe : Safe hashBytes cache) (there : cache.tasks[i]? = some task) (at_ : task.phase = .moving bytes) :
    Moves hashBytes cache (advanceTask hashBytes bound cache task env).1 i
      { task with phase := (advanceTask hashBytes bound cache task env).2 } := by
  have checked := safe.tasks i task there
  have apart := fun j other different found => safe.apart i j task other there found (Ne.symm different)
  have replacing : task.phase.replacing = true := by rw [at_]; rfl
  rw [at_] at checked
  obtain ⟨proper,written⟩ := checked
  have answered {disk : Disk} {channels : List Channel} : PhaseSound hashBytes disk channels task.hash (.returned (putAnswer task.op bytes)) := by
    unfold putAnswer
    split
    · rintro _ ⟨⟩
      exact proper
    · exact returned_none
  unfold advanceTask
  rw [at_]
  dsimp only
  split
  · rename_i middle moved
    split at moved
    · have others : ∀ (j : Nat) (other : Task),j ≠ i → cache.tasks[j]? = some other →
          PhaseSound hashBytes middle cache.channels other.hash other.phase := by
        intro j other different found
        have sound := safe.tasks j other found
        cases phase : other.phase with
        | writing m theirs left =>
          rw [phase] at sound
          have hashes := (apart j other different found replacing (by rw [phase]; rfl)).1
          exact ⟨sound.1,writes_rename hashes.symm sound.2 moved⟩
        | moving bytes =>
          rw [phase] at sound
          exact ⟨sound.1,written_rename sound.2 moved⟩
        | _ =>
          rw [phase] at sound
          exact sound
      have after := sound_rename safe.disk written proper moved
      split
      · exact ⟨after,safe.inflight,trivial,others,fun _ _ _ _ => apart_idle rfl⟩
      · split
        · refine ⟨sound_fewer fewer_evict after,safe.inflight,answered,?_,fun _ _ _ _ => apart_idle rfl⟩
          intro j other different found
          exact phase_fewer fewer_evict (others j other different found)
        · exact ⟨after,safe.inflight,answered,others,fun _ _ _ _ => apart_idle rfl⟩
    · cases moved
  · exact moves_calm safe rfl returned_none

-- A fetch hands over bytes of another hash only while no call waits for it; and a put opens
-- its temporary file only while no other call writes or renames that of the same hash.
def orderly (hashBytes : List UInt8 → String) (cache : Cache) : Action → Bool
  | .advance i env =>
    match cache.tasks[i]? with
    | none => true
    | some task =>
      match task.phase with
      | .fetching =>
        match env.fetched with
        | .ok bytes =>
          hashBytes bytes = task.hash || cache.tasks.all fun other => (get cache.inflight task.hash).all fun ch => other.phase ≠ .waiting ch
        | .error _ => true
      | .opening _ => !env.io || (cache.tasks.eraseIdx i).all fun other => !other.phase.replacing || other.hash ≠ task.hash
      | _ => true
  | _ => true

theorem orderly_fetching (there : cache.tasks[i]? = some task) (at_ : task.phase = .fetching)
    (met : orderly hashBytes cache (.advance i env) = true) (got : env.fetched = .ok bytes) :
    hashBytes bytes = task.hash ∨ Unwaited cache task.hash := by
  simp only [orderly,there,at_,got,Bool.or_eq_true,decide_eq_true_eq,List.all_eq_true] at met
  obtain proper | unwaited := met
  · exact .inl proper
  · refine .inr fun ch mine other member => ?_
    have each := unwaited other member
    rw [mine] at each
    simpa using each

theorem orderly_opening (there : cache.tasks[i]? = some task) (at_ : task.phase = .opening bytes)
    (met : orderly hashBytes cache (.advance i env) = true) (ok : env.io = true) : Alone cache i task.hash := by
  simp only [orderly,there,at_,ok,Bool.not_true,Bool.false_or,List.all_eq_true,List.mem_eraseIdx_iff_getElem?] at met
  intro j other different found replacing
  have each := met other ⟨j,different,found⟩
  simpa [replacing] using each

theorem advance_safe (safe : Safe hashBytes cache) (met : orderly hashBytes cache (.advance i env) = true) :
    Safe hashBytes (advance hashBytes bound cache i env) := by
  unfold advance
  cases there : cache.tasks[i]? with
  | none => exact safe
  | some task =>
    refine safe_moves safe there ?_
    cases at_ : task.phase with
    | reading => exact moves_reading safe at_
    | missed => exact moves_missed safe at_
    | waiting ch => exact moves_waiting safe there at_
    | fetching => exact moves_fetching safe at_ fun bytes => orderly_fetching there at_ met
    | opening bytes => exact moves_opening safe there at_ (orderly_opening there at_ met)
    | writing n written rest => exact moves_writing safe there at_
    | moving bytes => exact moves_moving safe there at_
    | creatingDir bytes =>
      have checked := safe.tasks i task there
      rw [at_] at checked
      unfold advanceTask
      rw [at_]
      dsimp only
      split
      · exact moves_calm safe rfl trivial
      · split
        · exact moves_calm safe rfl checked
        · exact moves_calm safe rfl returned_none
    | deleting =>
      unfold advanceTask
      rw [at_]
      dsimp only
      split
      · exact moves_fewer safe (fewer_remove _) rfl returned_none
      · exact moves_calm safe rfl returned_none
    | returned answer =>
      have checked := safe.tasks i task there
      rw [at_] at checked
      unfold advanceTask
      rw [at_]
      exact moves_calm safe rfl checked
    | stopped =>
      unfold advanceTask
      rw [at_]
      exact moves_calm safe rfl trivial

theorem cancelled_phase (task : Task) : (cancelled task).hash = task.hash ∧
    ((cancelled task).phase = task.phase ∨ (cancelled task).phase = .stopped) := by
  unfold cancelled stop
  split
  · exact ⟨rfl,.inl rfl⟩
  · split
    · exact ⟨rfl,.inl rfl⟩
    · exact ⟨rfl,.inr rfl⟩

theorem cancel_safe (safe : Safe hashBytes cache) : Safe hashBytes (cancel cache i) := by
  unfold cancel
  cases there : cache.tasks[i]? with
  | none => exact safe
  | some task =>
    refine safe_moves safe there ?_
    obtain ⟨hashes,phases⟩ := cancelled_phase task
    split
    · rename_i fetching
      have idle : (cancelled task).phase = .stopped := by simp [cancelled,stop,fetching,Phase.onDisk,Phase.isReturned]
      refine moves_guard safe (by rw [idle]; rfl) (fun _ none_ => nomatch none_) fun _ => ?_
      rw [idle]
      trivial
    · obtain same | stopped := phases
      · refine ⟨safe.disk,safe.inflight,?_,fun j other _ found => safe.tasks j other found,?_⟩
        · rw [hashes,same]
          exact safe.tasks i task there
        · intro j other different found
          unfold Apart
          rw [hashes,same]
          exact safe.apart i j task other there found (Ne.symm different)
      · refine moves_calm safe (by rw [stopped]; rfl) ?_
        rw [stopped]
        trivial

theorem restart_safe (safe : Safe hashBytes cache) : Safe hashBytes (restart cache) := by
  have stopped : ∀ task,(stop task).phase.replacing = false := by
    intro task
    unfold stop
    split
    · rename_i returned
      cases at_ : task.phase <;> rw [at_] at returned <;> first | rfl | cases returned
    · rfl
  refine ⟨safe.disk,fun _ _ none_ => by simp [restart] at none_,?_,?_⟩
  · intro i task there
    simp only [restart,List.getElem?_map,Option.map_eq_some_iff] at there
    obtain ⟨old,before,rfl⟩ := there
    have sound := safe.tasks i old before
    unfold stop
    split
    · rename_i returned
      cases at_ : old.phase with
      | returned answer =>
        rw [at_] at sound
        exact sound
      | _ =>
        rw [at_] at returned
        cases returned
    · trivial
  · intro i j left right there _ _
    obtain ⟨old,-,rfl⟩ := List.mem_map.mp (List.mem_of_getElem? there)
    exact apart_idle (stopped old)

theorem spawn_safe (safe : Safe hashBytes cache) (idle : phase.replacing = false)
    (sound : PhaseSound hashBytes cache.disk cache.channels hash phase) : Safe hashBytes (spawn cache hash op phase) := by
  refine ⟨safe.disk,safe.inflight,?_,?_⟩
  · intro i task there
    obtain old | ⟨-,rfl⟩ := append_cases there
    · exact safe.tasks i task old
    · exact sound
  · intro i j left right there also different
    obtain old | ⟨first,rfl⟩ := append_cases there
    · obtain mate | ⟨second,rfl⟩ := append_cases also
      · exact safe.apart i j left right old mate different
      · exact apart_symm (apart_idle idle)
    · exact apart_idle idle

theorem step_safe (safe : Safe hashBytes cache) (met : orderly hashBytes cache action = true) :
    Safe hashBytes (step hashBytes bound cache action) := by
  cases action with
  | get hash =>
    refine spawn_safe safe ?_ ?_ <;> unfold beginRead <;> split
    · rfl
    · rfl
    · trivial
    · exact returned_none
  | getOrFetch hash =>
    refine spawn_safe safe ?_ ?_ <;> unfold beginRead <;> split
    · rfl
    · rfl
    · trivial
    · exact returned_none
  | put hash bytes => exact spawn_safe safe beginPut_idle beginPut_sound
  | delete hash =>
    refine spawn_safe safe ?_ ?_ <;> unfold beginDelete <;> split
    · rfl
    · rfl
    · trivial
    · exact returned_none
  | advance i env => exact advance_safe safe met
  | cancel i => exact cancel_safe safe
  | restart => exact restart_safe safe

theorem start_safe : Safe hashBytes start := by
  refine ⟨⟨?_,?_,?_,?_⟩,?_,?_,?_⟩ <;> intros <;> simp_all [start]

def Intact (hashBytes : List UInt8 → String) (cache : Cache) : Prop :=
  ∀ task ∈ cache.tasks,∀ bytes,task.phase = .returned (some bytes) → hashBytes bytes = task.hash

theorem safe_intact (safe : Safe hashBytes cache) : Intact hashBytes cache := by
  intro task member bytes returned
  obtain ⟨i,there⟩ := List.mem_iff_getElem?.mp member
  have sound := safe.tasks i task there
  rw [returned] at sound
  exact sound bytes rfl

theorem returned_intact (actions : List Action)
    (met : Guarded (step hashBytes bound) (fun cache action => orderly hashBytes cache action = true) start actions) :
    Throughout (step hashBytes bound) (Intact hashBytes) start actions := by
  have safe := guarded_keeps (fun _ _ safe met => step_safe safe met) start_safe met
  rw [throughout_prefixes] at safe ⊢
  exact fun k => safe_intact (safe k)

end

def shortHash : String := "a12871fee210fb8619291eaea194581cbd2531e4b23759d225f6806923f63222"

-- SHA-256 on the few contents below.
def digest (bytes : List UInt8) : String :=
  if bytes = [1,2] then shortHash
  else if bytes = [] then "e3b0c44298fc1c149afbf4c8996fb92427ae41e4649b934ca495991b7852b855"
  else "084fed08b978af4d7d196a7446a86b58009e636b611db16211b65a9aadff29c5"

def fair : Env := ⟨0,true,7,.error "",false,true,fun _ => true⟩

def fetch (bytes : List UInt8) : Env := { fair with fetched := .ok bytes }

def coalesced : List Action :=
  [.getOrFetch shortHash,.getOrFetch shortHash,.advance 0 fair,.advance 0 fair,.advance 1 fair,.advance 1 fair]

def stored : List Action :=
  coalesced++([.advance 0 (fetch [1,2]),.advance 1 fair,.advance 0 fair,.advance 0 fair,.advance 0 fair,.advance 0 fair,.advance 0 fair,
    .get shortHash,.advance 2 fair] : List Action)

theorem stored_intact : Throughout (step digest 1000) (Intact digest) start stored :=
  returned_intact stored (by decide)

-- A waiter gets what the fetcher sent before it was checked; and of two puts one renames what
-- the other has just cut to nothing.
theorem delivered_unchecked :
    ¬Throughout (step digest 1000) (Intact digest) start (coalesced++([.advance 0 (fetch [3]),.advance 1 fair] : List Action)) ∧
    ¬Throughout (step digest 1000) (Intact digest) start
      [.put shortHash [1,2],.put shortHash [1,2],.advance 0 fair,.advance 0 fair,.advance 0 fair,.advance 0 fair,
        .advance 1 fair,.advance 1 fair,.advance 0 fair,.get shortHash,.advance 2 fair] := by
  constructor
  · intro held
    exact absurd (throughout_final held ⟨shortHash,.getOrFetch,.returned (some [3]),false⟩ (by decide) [3] rfl) (by decide)
  · intro held
    exact absurd (throughout_final held ⟨shortHash,.get,.returned (some []),false⟩ (by decide) [] rfl) (by decide)

end EvoCore.AssetCache
