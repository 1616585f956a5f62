import EvoCore.Runs
import EvoCore.Tables

namespace EvoCore.SubjectForwarders
open Runs Tables

-- SubscribeSubject and UnsubscribeSubject of crates/evo/src/wire_client.rs on one plugin connection. The
-- reader handles one frame at a time; the forwarder tasks run beside it. An update is known by its
-- position in the registry's broadcast.
inductive Word where
  | subscribe
  | unsubscribe
deriving DecidableEq,Repr

inductive Reader (ι : Type) where
  | idle
  | opening (id : ι)
  | inserting (id : ι) (position : Nat)
  | spawning (id : ι) (task : Nat)
  | cancelling (id : ι) (task : Nat)
  | acking (id : ι) (word : Word)
deriving DecidableEq,Repr

inductive Stage where
  | spawning
  | running
  | pushing (update : Nat)
  | ending
  | done
deriving DecidableEq,Repr

-- `cancelled` says that cancel_rx is ready: the signal was sent or its sender dropped. `born` is the
-- length of the broadcast when the task entered the map; no code reads it.
structure Task (ι : Type) where
  id : ι
  position : Nat
  cancelled : Bool
  stage : Stage
  born : Nat
deriving DecidableEq,Repr

structure Push where
  task : Nat
  update : Nat
deriving DecidableEq,Repr

-- `acked` is the last acknowledged frame of an id, with the length of the broadcast at its ack.
structure Connection (ι : Type) where
  updates : List ι
  subscriptionForwarders : Table ι Nat
  tasks : List (Task ι)
  reader : Reader ι
  pushes : List Push
  acked : Table ι (Word × Nat)

inductive Event (ι : Type) where
  | subscribeSubject (id : ι)
  | unsubscribeSubject (id : ι)
  | reader
  | observe (task : Nat)
  | recv (task : Nat)
  | push (task : Nat)
  | clean (task : Nat)
  | publish (id : ι)
deriving DecidableEq,Repr

variable {ι : Type} [DecidableEq ι]

def Connection.opened : Connection ι := ⟨[],∅,[],.idle,[],∅⟩

def Connection.turn (s : Connection ι) (task : Nat) (change : Task ι → Task ι) : Connection ι :=
  {s with tasks := s.tasks.modify task change}

-- Taking an entry out of the map, or overwriting it, drops its cancel_tx.
def Connection.dropEntry (s : Connection ι) (id : ι) : Connection ι :=
  match get s.subscriptionForwarders id with
  | none => s
  | some task => {s with subscriptionForwarders := s.subscriptionForwarders.erase id}.turn task ({· with cancelled := true})

def Connection.insert (s : Connection ι) (id : ι) (position : Nat) : Connection ι :=
  let freed := s.dropEntry id
  {freed with
    subscriptionForwarders := freed.subscriptionForwarders.insert id s.tasks.length
    tasks := freed.tasks ++ [⟨id,position,false,.spawning,s.updates.length⟩]
    reader := .spawning id s.tasks.length}

def Connection.read (s : Connection ι) : Connection ι :=
  match s.reader with
  | .idle => s
  | .opening id => {s with reader := .inserting id s.updates.length}
  | .inserting id position => s.insert id position
  | .spawning id task => {s.turn task ({· with stage := .running}) with reader := .acking id .subscribe}
  | .cancelling id task => {s.turn task ({· with cancelled := true}) with reader := .acking id .unsubscribe}
  | .acking id word => {s with acked := s.acked.insert id (word,s.updates.length),reader := .idle}

-- One pass of the select loop: the signal, or the next item of the broadcast.
def Connection.observe (s : Connection ι) (task : Nat) (t : Task ι) : Connection ι :=
  if t.stage = .running ∧ t.cancelled then s.turn task ({· with stage := .ending}) else s

def Connection.recv (s : Connection ι) (task : Nat) (t : Task ι) : Connection ι :=
  match t.stage,s.updates[t.position]? with
  | .running,some id => s.turn task ({· with
      position := t.position+1
      stage := if id = t.id then .pushing t.position else .running})
  | _,_ => s

def Connection.push (s : Connection ι) (task : Nat) (t : Task ι) : Connection ι :=
  match t.stage with
  | .pushing update => {s.turn task ({· with stage := .running}) with pushes := s.pushes ++ [⟨task,update⟩]}
  | _ => s

def Connection.clean (s : Connection ι) (task : Nat) (t : Task ι) : Connection ι :=
  if t.stage = .ending then (s.turn task ({· with stage := .done})).dropEntry t.id else s

def Connection.step (s : Connection ι) : Event ι → Connection ι
  | .subscribeSubject id =>
    match s.reader with
    | .idle => {s with reader := if (get s.subscriptionForwarders id).isSome then .acking id .subscribe else .opening id}
    | _ => s
  | .unsubscribeSubject id =>
    match s.reader,get s.subscriptionForwarders id with
    | .idle,some task => {s with
        subscriptionForwarders := s.subscriptionForwarders.erase id
        reader := .cancelling id task}
    | .idle,none => {s with reader := .acking id .unsubscribe}
    | _,_ => s
  | .reader => s.read
  | .publish id => {s with updates := s.updates ++ [id]}
  | .observe task => match s.tasks[task]? with
    | some t => s.observe task t
    | none => s
  | .recv task => match s.tasks[task]? with
    | some t => s.recv task t
    | none => s
  | .push task => match s.tasks[task]? with
    | some t => s.push task t
    | none => s
  | .clean task => match s.tasks[task]? with
    | some t => s.clean task t
    | none => s

def Task.pushes (t : Task ι) : Bool := t.stage ≠ .ending && t.stage ≠ .done

-- A forwarder that will go through every update from its position on.
def Task.live (t : Task ι) : Bool := t.pushes && !t.cancelled

def Task.pushed (t : Task ι) (update : Nat) : Bool := update < t.position && t.stage ≠ .pushing update

def Reader.unsubscribes (id : ι) : Reader ι → Bool
  | .cancelling other _ => other = id
  | .acking other .unsubscribe => other = id
  | _ => false

structure Obeyed (s : Connection ι) : Prop where
  delivers : ∀ id since update,get s.acked id = some (.subscribe,since) → s.reader.unsubscribes id = false →
    since ≤ update → s.updates[update]? = some id →
    ∃ k t,get s.subscriptionForwarders id = some k ∧ s.tasks[k]? = some t ∧ t.live ∧
      (s.pushes.filter (·.update = update)).length = if t.pushed update then 1 else 0
  single : ∀ (j k : Nat) (t u : Task ι),s.tasks[j]? = some t → s.tasks[k]? = some u → t.id = u.id → t.pushes → u.pushes → j = k
  settled : s.reader = .idle → ∀ id,(∃ since,get s.acked id = some (.subscribe,since)) ↔
    ∃ k t,get s.subscriptionForwarders id = some k ∧ s.tasks[k]? = some t ∧ t.id = id ∧ t.live

-- Every earlier forwarder of an id has cleaned up before the next one enters the map.
def Succeeds (s : Connection ι) : Event ι → Prop
  | .reader => ∀ id position,s.reader = .inserting id position → ∀ t,t ∈ s.tasks → t.id = id → t.stage = .done
  | _ => True

structure Kept (s : Connection ι) (k : Nat) (t : Task ι) : Prop where
  bound : t.position ≤ s.updates.length ∧ t.born ≤ s.updates.length
  ended : t.stage = .ending ∨ t.stage = .done → t.cancelled
  entered : t.cancelled = false → get s.subscriptionForwarders t.id = some k ∨ s.reader = .cancelling t.id k
  spawning : t.stage = .spawning → s.reader = .spawning t.id k
  pushing : ∀ update,t.stage = .pushing update → update+1 = t.position ∧ s.updates[update]? = some t.id
  counted : ∀ update,t.born ≤ update → s.pushes.count ⟨k,update⟩ =
    if update < t.position ∧ s.updates[update]? = some t.id ∧ t.stage ≠ .pushing update then 1 else 0

-- What the id's entry will say once the frame in hand is acknowledged.
def Connection.wanted (s : Connection ι) (id : ι) : Option Word :=
  match s.reader with
  | .spawning other _ => if other = id then some .subscribe else (get s.acked id).map (·.1)
  | .cancelling other _ => if other = id then some .unsubscribe else (get s.acked id).map (·.1)
  | .acking other word => if other = id then some word else (get s.acked id).map (·.1)
  | _ => (get s.acked id).map (·.1)

def Connection.readerKept (s : Connection ι) : Prop :=
  match s.reader with
  | .opening id => get s.subscriptionForwarders id = none
  | .inserting id position => get s.subscriptionForwarders id = none ∧ position ≤ s.updates.length
  | .spawning id task => ∃ t,s.tasks[task]? = some t ∧ t.id = id ∧ t.stage = .spawning
  | .cancelling id task => get s.subscriptionForwarders id = none ∧ ∃ t,s.tasks[task]? = some t ∧ t.id = id ∧ t.cancelled = false
  | _ => True

structure Tracked (s : Connection ι) : Prop where
  kept : ∀ (k : Nat) (t : Task ι),s.tasks[k]? = some t → Kept s k t
  older : ∀ (j k : Nat) (t u : Task ι),s.tasks[j]? = some t → s.tasks[k]? = some u → j < k → t.id = u.id →
    t.stage = .done ∧ t.position ≤ u.born
  held : ∀ id (k : Nat),get s.subscriptionForwarders id = some k → ∃ t,s.tasks[k]? = some t ∧ t.id = id ∧ t.cancelled = false
  reader : s.readerKept
  word : ∀ id,(get s.subscriptionForwarders id).isSome ↔ s.wanted id = some .subscribe
  since : ∀ id since (k : Nat) (t : Task ι),get s.acked id = some (.subscribe,since) → get s.subscriptionForwarders id = some k →
    s.tasks[k]? = some t → t.born ≤ since
  pushed : ∀ push,push ∈ s.pushes → ∃ t,s.tasks[push.task]? = some t ∧ push.update < t.position ∧
    s.updates[push.update]? = some t.id

variable {s : Connection ι} {j k : Nat} {t u : Task ι} {id : ι}

omit [DecidableEq ι] in
@[simp] theorem turn_updates (change : Task ι → Task ι) : (s.turn k change).updates = s.updates := rfl
omit [DecidableEq ι] in
@[simp] theorem turn_pushes (change : Task ι → Task ι) : (s.turn k change).pushes = s.pushes := rfl
omit [DecidableEq ι] in
@[simp] theorem turn_entries (change : Task ι → Task ι) :
    (s.turn k change).subscriptionForwarders = s.subscriptionForwarders := rfl
omit [DecidableEq ι] in
@[simp] theorem turn_reader (change : Task ι → Task ι) : (s.turn k change).reader = s.reader := rfl
omit [DecidableEq ι] in
@[simp] theorem turn_acked (change : Task ι → Task ι) : (s.turn k change).acked = s.acked := rfl

theorem Kept.live (kept : Kept s k t) (open_ : t.cancelled = false) : t.live := by
  have running : t.pushes := by
    simp only [Task.pushes,Bool.and_eq_true,decide_eq_true_eq]
    refine ⟨?_,?_⟩
    · intro ending
      rw [kept.ended (.inl ending)] at open_
      cases open_
    · intro done
      rw [kept.ended (.inr done)] at open_
      cases open_
  simp [Task.live,running,open_]

theorem Tracked.only (held : Tracked s) (one : s.tasks[j]? = some t) (other : s.tasks[k]? = some u) (same : t.id = u.id)
    (first : t.stage ≠ .done) (second : u.stage ≠ .done) : j = k := by
  rcases Nat.lt_trichotomy j k with below | equal | above
  · exact absurd (held.older j k t u one other below same).1 first
  · exact equal
  · exact absurd (held.older k j u t other one above same.symm).1 second

omit [DecidableEq ι] in
theorem Task.pushes_running (pushes : Task.pushes t) : t.stage ≠ .done := by
  simp only [Task.pushes,Bool.and_eq_true,decide_eq_true_eq] at pushes
  exact pushes.2

theorem wanted_acked (acked : get s.acked id = some (.subscribe,since)) (keeps : s.reader.unsubscribes id = false) :
    s.wanted id = some .subscribe := by
  unfold Connection.wanted
  cases reading : s.reader with
  | spawning other task =>
    simp only [acked,Option.map_some]
    split <;> rfl
  | cancelling other task =>
    have apart : other ≠ id := by simpa [Reader.unsubscribes,reading] using keeps
    simp [apart,acked]
  | acking other word =>
    cases word with
    | subscribe =>
      simp only [acked,Option.map_some]
      split <;> rfl
    | unsubscribe =>
      have apart : other ≠ id := by simpa [Reader.unsubscribes,reading] using keeps
      simp [apart,acked]
  | _ => simp [acked]

theorem Tracked.pushes_own (held : Tracked s) (entry : get s.subscriptionForwarders id = some k) (there : s.tasks[k]? = some t)
    (named : t.id = id) (young : t.born ≤ update) (updated : s.updates[update]? = some id) :
    (s.pushes.filter (·.update = update)).length = s.pushes.count ⟨k,update⟩ := by
  rw [List.count_eq_length_filter]
  congr 1
  apply List.filter_congr
  intro push member
  have own : push.update = update ↔ push = ⟨k,update⟩ := by
    constructor
    · intro same
      obtain ⟨u,other,read,pushed⟩ := held.pushed push member
      rw [same] at read pushed
      have named' : u.id = t.id := by
        rw [named]
        exact Option.some.inj (pushed.symm.trans updated)
      have place : push.task = k := by
        rcases Nat.lt_trichotomy push.task k with below | equal | above
        · have past := (held.older _ _ u t other there below named').2
          omega
        · exact equal
        · have over_ := (held.older _ _ t u there other above named'.symm).1
          obtain ⟨found,again,-,open_⟩ := held.held id k entry
          rw [there] at again
          cases again
          rw [(held.kept k t there).ended (.inr over_)] at open_
          cases open_
      rw [←place,←same]
    · intro equal
      rw [equal]
  by_cases same : push.update = update
  · simp [own.mp same]
  · have apart : push ≠ ⟨k,update⟩ := fun equal => same (own.mpr equal)
    simp [same,apart]

theorem Tracked.obeyed (held : Tracked s) : Obeyed s := by
  refine ⟨?_,?_,?_⟩
  · intro id since update acked keeps later updated
    have present := (held.word id).mpr (wanted_acked acked keeps)
    obtain ⟨k,entry⟩ := Option.isSome_iff_exists.mp present
    obtain ⟨t,there,named,open_⟩ := held.held id k entry
    have young := Nat.le_trans (held.since id since k t acked entry there) later
    have counted := (held.kept k t there).counted update young
    refine ⟨k,t,entry,there,(held.kept k t there).live open_,?_⟩
    rw [held.pushes_own entry there named young updated,counted]
    subst named
    simp [Task.pushed,updated]
  · intro j k t u one other same first second
    exact held.only one other same (Task.pushes_running first) (Task.pushes_running second)
  · intro idle id
    have word := held.word id
    simp only [Connection.wanted,idle] at word
    constructor
    · intro ⟨since,acked⟩
      rw [acked] at word
      obtain ⟨k,entry⟩ := Option.isSome_iff_exists.mp (word.mpr rfl)
      obtain ⟨t,there,named,open_⟩ := held.held id k entry
      exact ⟨k,t,entry,there,named,(held.kept k t there).live open_⟩
    · intro ⟨k,t,entry,_⟩
      rw [entry] at word
      obtain ⟨⟨found,since⟩,acked,same⟩ := Option.map_eq_some_iff.mp (word.mp rfl)
      cases same
      exact ⟨since,acked⟩

theorem Kept.frame {after : Connection ι} (kept : Kept s k t) (updates : after.updates = s.updates)
    (entered : t.cancelled = false → get s.subscriptionForwarders t.id = some k ∨ s.reader = .cancelling t.id k →
      get after.subscriptionForwarders t.id = some k ∨ after.reader = .cancelling t.id k)
    (spawning : t.stage = .spawning → s.reader = .spawning t.id k → after.reader = .spawning t.id k)
    (pushes : ∀ update,after.pushes.count ⟨k,update⟩ = s.pushes.count ⟨k,update⟩) : Kept after k t := by
  refine ⟨by rw [updates]; exact kept.bound,kept.ended,?_,?_,by rw [updates]; exact kept.pushing,?_⟩
  · exact fun open_ => entered open_ (kept.entered open_)
  · exact fun early => spawning early (kept.spawning early)
  · intro update young
    rw [updates,pushes]
    exact kept.counted update young

theorem Tracked.turns {after : Connection ι} {change : Task ι → Task ι} (held : Tracked s) (there : s.tasks[k]? = some t)
    (tasks : after.tasks = s.tasks.modify k change) (updates : after.updates = s.updates)
    (entries : after.subscriptionForwarders = s.subscriptionForwarders) (acked : after.acked = s.acked)
    (cancelling : ∀ id j,j ≠ k → s.reader = .cancelling id j → after.reader = .cancelling id j)
    (starting : ∀ id j,j ≠ k → s.reader = .spawning id j → after.reader = .spawning id j)
    (reader : after.readerKept) (wanted : ∀ id,after.wanted id = s.wanted id)
    (pushes : ∀ push : Push,push.task ≠ k → after.pushes.count push = s.pushes.count push)
    (added : ∀ push,push ∈ after.pushes → push ∈ s.pushes ∨
      push.task = k ∧ push.update < (change t).position ∧ s.updates[push.update]? = some t.id)
    (named : (change t).id = t.id) (born : (change t).born = t.born)
    (signal : get s.subscriptionForwarders t.id = some k → (change t).cancelled = t.cancelled)
    (running : t.stage ≠ .done) (onward : t.position ≤ (change t).position) (kept : Kept after k (change t)) : Tracked after := by
  have others {j : Nat} {u : Task ι} (found : s.tasks[j]? = some u) (apart : k ≠ j) : after.tasks[j]? = some u := by
    rw [tasks]
    exact modify_other found apart
  have self : after.tasks[k]? = some (change t) := by
    rw [tasks]
    exact modify_same there
  have cases {j : Nat} {u : Task ι} (found : after.tasks[j]? = some u) : j = k ∧ u = change t ∨ k ≠ j ∧ s.tasks[j]? = some u := by
    by_cases same : k = j
    · subst same
      rw [self] at found
      exact .inl ⟨rfl,(Option.some.inj found).symm⟩
    · rw [tasks] at found
      obtain ⟨before,old,rfl⟩ := modify_cases found
      rw [if_neg same]
      exact .inr ⟨same,old⟩
  refine ⟨?_,?_,?_,reader,?_,?_,?_⟩
  · intro j u found
    rcases cases found with ⟨rfl,rfl⟩ | ⟨apart,old⟩
    · exact kept
    · apply (held.kept j u old).frame updates
      · rw [entries]
        exact fun _ place => place.imp_right (cancelling u.id j (Ne.symm apart))
      · exact fun _ => starting u.id j (Ne.symm apart)
      · exact fun update => pushes ⟨j,update⟩ (Ne.symm apart)
  · intro j l u v one two below same
    rcases cases one with ⟨rfl,rfl⟩ | ⟨apart,old⟩
    · rcases cases two with ⟨rfl,rfl⟩ | ⟨_,old⟩
      · omega
      · exact absurd (held.older j l t v there old below (named.symm.trans same)).1 running
    · rcases cases two with ⟨rfl,rfl⟩ | ⟨_,old'⟩
      · rw [born]
        exact held.older j l u t old there below (same.trans named)
      · exact held.older j l u v old old' below same
  · intro id j entry
    rw [entries] at entry
    obtain ⟨u,old,own,open_⟩ := held.held id j entry
    by_cases same : k = j
    · subst same
      rw [there] at old
      cases old
      exact ⟨_,self,named.trans own,(signal (own ▸ entry)).trans open_⟩
    · exact ⟨u,others old same,own,open_⟩
  · intro id
    rw [entries,wanted]
    exact held.word id
  · intro id since j u ack entry found
    rw [acked] at ack
    rw [entries] at entry
    rcases cases found with ⟨rfl,rfl⟩ | ⟨_,old⟩
    · rw [born]
      exact held.since id since j t ack entry there
    · exact held.since id since j u ack entry old
  · intro push member
    rw [updates]
    rcases added push member with old | ⟨rfl,read,pushed⟩
    · obtain ⟨u,found,read,pushed⟩ := held.pushed push old
      by_cases same : k = push.task
      · subst same
        rw [there] at found
        cases found
        exact ⟨_,self,Nat.lt_of_lt_of_le read onward,by rw [named]; exact pushed⟩
      · exact ⟨u,others found same,read,pushed⟩
    · exact ⟨_,self,read,by rw [named]; exact pushed⟩

theorem readerKept_turn {change : Task ι → Task ι} (kept : s.readerKept) (there : s.tasks[k]? = some t)
    (named : (change t).id = t.id) (signal : (change t).cancelled = t.cancelled) (started : t.stage ≠ .spawning) :
    (s.turn k change).readerKept := by
  have others {j : Nat} {u : Task ι} (found : s.tasks[j]? = some u) (apart : k ≠ j) : (s.turn k change).tasks[j]? = some u :=
    modify_other found apart
  simp only [Connection.readerKept,turn_reader,turn_entries,turn_updates] at kept ⊢
  cases reading : s.reader with
  | spawning id task =>
    rw [reading] at kept
    obtain ⟨u,old,own,early⟩ := kept
    by_cases same : k = task
    · subst same
      rw [there] at old
      cases old
      exact absurd early started
    · exact ⟨u,others old same,own,early⟩
  | cancelling id task =>
    rw [reading] at kept
    obtain ⟨free,u,old,own,open_⟩ := kept
    refine ⟨free,?_⟩
    by_cases same : k = task
    · subst same
      rw [there] at old
      cases old
      exact ⟨_,modify_same there,named.trans own,signal.trans open_⟩
    · exact ⟨u,others old same,own,open_⟩
  | _ => simpa only [reading] using kept

theorem Tracked.advances {change : Task ι → Task ι} (held : Tracked s) (there : s.tasks[k]? = some t) (more : List Push)
    (pushes : ∀ push : Push,push.task ≠ k → more.count push = 0)
    (added : ∀ push,push ∈ more → push.task = k ∧ push.update < (change t).position ∧ s.updates[push.update]? = some t.id)
    (named : (change t).id = t.id) (born : (change t).born = t.born) (signal : (change t).cancelled = t.cancelled)
    (running : t.stage ≠ .done) (started : t.stage ≠ .spawning) (onward : t.position ≤ (change t).position)
    (kept : Kept {s.turn k change with pushes := s.pushes ++ more} k (change t)) :
    Tracked {s.turn k change with pushes := s.pushes ++ more} := by
  refine held.turns there rfl rfl rfl rfl (fun _ _ _ same => same) (fun _ _ _ same => same) ?_ (fun _ => rfl) ?_ ?_ named born
    (fun _ => signal) running onward kept
  · exact readerKept_turn held.reader there named signal started
  · intro push apart
    rw [List.count_append,pushes push apart,Nat.add_zero]
  · intro push member
    exact (List.mem_append.mp member).imp_right (added push)

theorem Tracked.walks {change : Task ι → Task ι} (held : Tracked s) (there : s.tasks[k]? = some t)
    (named : (change t).id = t.id) (born : (change t).born = t.born) (signal : (change t).cancelled = t.cancelled)
    (running : t.stage ≠ .done) (started : t.stage ≠ .spawning) (onward : t.position ≤ (change t).position)
    (kept : Kept (s.turn k change) k (change t)) : Tracked (s.turn k change) := by
  have same : {s.turn k change with pushes := s.pushes ++ []} = s.turn k change := by simp [Connection.turn]
  have moved := held.advances there [] (fun _ _ => rfl) (fun _ member => by cases member) named born signal running started onward
  rw [same] at moved
  exact moved kept

theorem observe_tracked (held : Tracked s) (there : s.tasks[k]? = some t) : Tracked (s.observe k t) := by
  unfold Connection.observe
  split
  · rename_i ready
    have kept := held.kept k t there
    refine held.walks there rfl rfl rfl ?_ ?_ (Nat.le_refl _) ?_
    · simp [ready.1]
    · simp [ready.1]
    · refine ⟨kept.bound,fun _ => ready.2,kept.entered,by simp,by simp,?_⟩
      intro update young
      have counted := kept.counted update young
      simpa [ready.1] using counted
  · exact held

theorem recv_tracked (held : Tracked s) (there : s.tasks[k]? = some t) : Tracked (s.recv k t) := by
  unfold Connection.recv
  split
  · rename_i id running next
    have kept := held.kept k t there
    obtain ⟨bound,-⟩ := List.getElem?_eq_some_iff.mp next
    refine held.walks there rfl rfl rfl ?_ ?_ (Nat.le_succ _) ?_
    · simp [running]
    · simp [running]
    · refine ⟨⟨bound,kept.bound.2⟩,?_,kept.entered,?_,?_,?_⟩
      · intro ended
        split at ended <;> simp at ended
      · intro early
        split at early <;> cases early
      · intro update pushing
        dsimp only at pushing ⊢
        split at pushing
        · rename_i own
          cases pushing
          exact ⟨rfl,own ▸ next⟩
        · cases pushing
      · intro update young
        have counted := kept.counted update young
        rw [running] at counted
        rw [turn_pushes,turn_updates,counted]
        -- The item that was read is pushed next, or is another subject's.
        by_cases last : update = t.position
        · subst last
          by_cases own : id = t.id
          · simp [own]
          · simp [next,own]
        · have same : update < t.position+1 ↔ update < t.position := by omega
          have apart : (if id = t.id then Stage.pushing t.position else .running) ≠ .pushing update := by
            split
            · simp [Ne.symm last]
            · simp
          simp [same,apart]
  · exact held

theorem push_tracked (held : Tracked s) (there : s.tasks[k]? = some t) : Tracked (s.push k t) := by
  unfold Connection.push
  split
  · rename_i update pushing
    have kept := held.kept k t there
    obtain ⟨read,own⟩ := kept.pushing update pushing
    refine held.advances there [⟨k,update⟩] ?_ ?_ rfl rfl rfl ?_ ?_ (Nat.le_refl _) ?_
    · intro push apart
      have other : ⟨k,update⟩ ≠ push := fun same => apart (by rw [←same])
      simp [other]
    · intro push member
      cases List.mem_singleton.mp member
      refine ⟨rfl,?_,own⟩
      simp only
      omega
    · simp [pushing]
    · simp [pushing]
    · refine ⟨kept.bound,by simp,kept.entered,by simp,by simp,?_⟩
      intro other young
      have counted := kept.counted other young
      rw [pushing] at counted
      simp only [turn_updates]
      rw [List.count_append,counted]
      by_cases same : other = update
      · subst same
        have past : other < t.position := by omega
        simp [past,own]
      · have apart : (⟨k,update⟩ : Push) ≠ ⟨k,other⟩ := by simp [Ne.symm same]
        simp [apart,Ne.symm same]
  · exact held

-- The entry that the self-clean would take is gone: the task's own went with the signal, and no other
-- task of the id is running.
theorem Tracked.unhooked (held : Tracked s) (there : s.tasks[k]? = some t) (ending : t.stage = .ending) :
    get s.subscriptionForwarders t.id = none := by
  cases entry : get s.subscriptionForwarders t.id with
  | none => rfl
  | some other =>
    obtain ⟨u,found,named,open_⟩ := held.held t.id other entry
    have running : u.stage ≠ .done := by
      intro done
      rw [(held.kept other u found).ended (.inr done)] at open_
      cases open_
    have same := held.only there found named.symm (by simp [ending]) running
    subst same
    rw [there] at found
    cases found
    rw [(held.kept k t there).ended (.inl ending)] at open_
    cases open_

theorem clean_tracked (held : Tracked s) (there : s.tasks[k]? = some t) : Tracked (s.clean k t) := by
  unfold Connection.clean
  split
  · rename_i ending
    have kept := held.kept k t there
    have free : get (s.turn k ({· with stage := .done})).subscriptionForwarders t.id = none := held.unhooked there ending
    simp only [Connection.dropEntry,free]
    refine held.walks there rfl rfl rfl ?_ ?_ (Nat.le_refl _) ?_
    · simp [ending]
    · simp [ending]
    · refine ⟨kept.bound,fun _ => kept.ended (.inl ending),kept.entered,by simp,by simp,?_⟩
      intro update young
      have counted := kept.counted update young
      simpa [ending] using counted
  · exact held

theorem publish_tracked (held : Tracked s) : Tracked {s with updates := s.updates ++ [id]} := by
  have old {update : Nat} (read : update < s.updates.length) : (s.updates ++ [id])[update]? = s.updates[update]? :=
    List.getElem?_append_left read
  refine ⟨?_,held.older,held.held,?_,held.word,held.since,?_⟩
  · intro k t there
    have kept := held.kept k t there
    refine ⟨?_,kept.ended,kept.entered,kept.spawning,?_,?_⟩
    · have bound := kept.bound
      simp only [List.length_append,List.length_singleton]
      omega
    · intro update pushing
      obtain ⟨read,own⟩ := kept.pushing update pushing
      have bound := kept.bound
      exact ⟨read,(old (by omega)).trans own⟩
    · intro update young
      rw [kept.counted update young]
      by_cases read : update < t.position
      · have bound := kept.bound
        simp only [old (Nat.lt_of_lt_of_le read bound.1)]
      · simp [read]
  · have before := held.reader
    simp only [Connection.readerKept] at before ⊢
    cases reading : s.reader with
    | inserting other position =>
      rw [reading] at before
      refine ⟨before.1,?_⟩
      simp only [List.length_append]
      omega
    | _ => simpa only [reading] using before
  · intro push member
    obtain ⟨t,there,read,own⟩ := held.pushed push member
    have bound := (held.kept push.task t there).bound
    exact ⟨t,there,read,(old (by omega)).trans own⟩

theorem Tracked.reads {after : Connection ι} (held : Tracked s) (tasks : after.tasks = s.tasks) (updates : after.updates = s.updates)
    (entries : after.subscriptionForwarders = s.subscriptionForwarders) (pushes : after.pushes = s.pushes)
    (cancelling : ∀ id task,s.reader ≠ .cancelling id task) (starting : ∀ id task,s.reader ≠ .spawning id task)
    (reader : after.readerKept) (word : ∀ id,(get s.subscriptionForwarders id).isSome ↔ after.wanted id = some .subscribe)
    (since : ∀ id since,get after.acked id = some (.subscribe,since) →
      get s.acked id = some (.subscribe,since) ∨ since = s.updates.length) : Tracked after := by
  refine ⟨?_,?_,?_,reader,?_,?_,?_⟩
  · intro k t there
    rw [tasks] at there
    apply (held.kept k t there).frame updates
    · rw [entries]
      intro _ place
      exact .inl (place.resolve_right (cancelling t.id k))
    · exact fun _ early => absurd early (starting t.id k)
    · exact fun update => by rw [pushes]
  · rw [tasks]
    exact held.older
  · rw [tasks,entries]
    exact held.held
  · rw [entries]
    exact word
  · intro id stamp k t acked entry there
    rw [tasks] at there
    rw [entries] at entry
    rcases since id stamp acked with old | rfl
    · exact held.since id stamp k t old entry there
    · exact (held.kept k t there).bound.2
  · rw [tasks,updates,pushes]
    exact held.pushed

theorem subscribe_tracked (held : Tracked s) (idle : s.reader = .idle) : Tracked {s with
    reader := if (get s.subscriptionForwarders id).isSome then .acking id .subscribe else .opening id} := by
  have word := held.word
  simp only [Connection.wanted,idle] at word
  refine held.reads rfl rfl rfl rfl (by simp [idle]) (by simp [idle]) ?_ ?_ (fun _ _ acked => .inl acked)
  · cases entry : get s.subscriptionForwarders id with
    | none => simpa [Connection.readerKept] using entry
    | some task => trivial
  · intro other
    cases entry : get s.subscriptionForwarders id with
    | none => simpa [Connection.wanted] using word other
    | some task =>
      simp only [Connection.wanted,Option.isSome_some,↓reduceIte]
      split
      · rename_i same
        simp [←same,entry]
      · exact word other

theorem unsubscribe_absent (held : Tracked s) (idle : s.reader = .idle) (free : get s.subscriptionForwarders id = none) :
    Tracked {s with reader := .acking id .unsubscribe} := by
  have word := held.word
  simp only [Connection.wanted,idle] at word
  refine held.reads rfl rfl rfl rfl (by simp [idle]) (by simp [idle]) trivial ?_ (fun _ _ acked => .inl acked)
  intro other
  simp only [Connection.wanted]
  split
  · rename_i same
    simp [←same,free]
  · exact word other

theorem unsubscribe_present (held : Tracked s) (idle : s.reader = .idle) (entry : get s.subscriptionForwarders id = some task) :
    Tracked {s with subscriptionForwarders := s.subscriptionForwarders.erase id,reader := .cancelling id task} := by
  have word := held.word
  simp only [Connection.wanted,idle] at word
  have kept {other : ι} {k : Nat} (found : get (s.subscriptionForwarders.erase id) other = some k) :
      other ≠ id ∧ get s.subscriptionForwarders other = some k := by
    rw [get_erase] at found
    split at found
    · cases found
    · rename_i apart
      exact ⟨apart,found⟩
  refine ⟨?_,held.older,?_,?_,?_,?_,held.pushed⟩
  · intro k t there
    refine (held.kept k t there).frame rfl ?_ ?_ ?_
    · intro _ place
      have own := place.resolve_right (by simp [idle])
      by_cases same : t.id = id
      · rw [same,entry] at own
        exact .inr (by rw [same,Option.some.inj own])
      · exact .inl (by simpa [same] using own)
    · simp [idle]
    · exact fun _ => rfl
  · exact fun other k found => held.held other k (kept found).2
  · refine ⟨by simp,?_⟩
    obtain ⟨t,there,named,open_⟩ := held.held id task entry
    exact ⟨t,there,named,open_⟩
  · intro other
    simp only [Connection.wanted,get_erase]
    by_cases same : other = id
    · simp [same]
    · simpa [same,Ne.symm same] using word other
  · exact fun other since k t acked found => held.since other since k t acked (kept found).2

theorem open_tracked (held : Tracked s) (opening : s.reader = .opening id) :
    Tracked {s with reader := .inserting id s.updates.length} := by
  have before := held.reader
  have word := held.word
  simp only [Connection.readerKept,Connection.wanted,opening] at before word
  exact held.reads rfl rfl rfl rfl (by simp [opening]) (by simp [opening]) ⟨before,Nat.le_refl _⟩ word
    (fun _ _ acked => .inl acked)

theorem ack_tracked (held : Tracked s) (acking : s.reader = .acking id word) :
    Tracked {s with acked := s.acked.insert id (word,s.updates.length),reader := .idle} := by
  have before := held.word
  simp only [Connection.wanted,acking] at before
  refine held.reads rfl rfl rfl rfl (by simp [acking]) (by simp [acking]) trivial ?_ ?_
  · intro other
    rw [before other]
    simp only [Connection.wanted,get_insert]
    by_cases same : other = id
    · simp [same]
    · simp [same,Ne.symm same]
  · intro other since acked
    rw [get_insert] at acked
    split at acked
    · cases acked
      exact .inr rfl
    · exact .inl acked

theorem spawn_tracked (held : Tracked s) (spawning : s.reader = .spawning id task) :
    Tracked {s.turn task ({· with stage := .running}) with reader := .acking id .subscribe} := by
  have before := held.reader
  simp only [Connection.readerKept,spawning] at before
  obtain ⟨t,there,named,early⟩ := before
  have kept := held.kept task t there
  refine held.turns there rfl rfl rfl rfl (by simp [spawning]) ?_ trivial ?_ (fun _ _ => rfl) (fun _ member => .inl member) rfl rfl
    (fun _ => rfl) (by simp [early]) (Nat.le_refl _) ?_
  · intro other j apart same
    rw [spawning] at same
    cases same
    exact absurd rfl apart
  · intro other
    simp only [Connection.wanted,spawning,turn_acked]
  · refine ⟨kept.bound,by simp,?_,by simp,by simp,?_⟩
    · intro open_
      exact .inl ((kept.entered open_).resolve_right (by simp [spawning]))
    · intro update young
      have counted := kept.counted update young
      simpa [early] using counted

theorem cancel_tracked (held : Tracked s) (cancelling : s.reader = .cancelling id task) :
    Tracked {s.turn task ({· with cancelled := true}) with reader := .acking id .unsubscribe} := by
  have before := held.reader
  simp only [Connection.readerKept,cancelling] at before
  obtain ⟨free,t,there,named,open_⟩ := before
  have kept := held.kept task t there
  have running : t.stage ≠ .done := by
    intro done
    rw [kept.ended (.inr done)] at open_
    cases open_
  refine held.turns there rfl rfl rfl rfl ?_ (by simp [cancelling]) trivial ?_ (fun _ _ => rfl) (fun _ member => .inl member) rfl rfl
    ?_ running (Nat.le_refl _) ?_
  · intro other j apart same
    rw [cancelling] at same
    cases same
    exact absurd rfl apart
  · intro other
    simp only [Connection.wanted,cancelling,turn_acked]
  · intro entry
    rw [named,free] at entry
    cases entry
  · refine ⟨kept.bound,fun _ => rfl,by simp,?_,kept.pushing,kept.counted⟩
    intro early
    have reading := kept.spawning early
    rw [cancelling] at reading
    cases reading

theorem insert_tracked (held : Tracked s) (inserting : s.reader = .inserting id position)
    (succeeds : ∀ t,t ∈ s.tasks → t.id = id → t.stage = .done) : Tracked (s.insert id position) := by
  have before := held.reader
  have word := held.word
  simp only [Connection.readerKept,Connection.wanted,inserting] at before word
  obtain ⟨free,early⟩ := before
  simp only [Connection.insert,Connection.dropEntry,free]
  have known {k : Nat} {t : Task ι} (old : s.tasks[k]? = some t) :
      (s.tasks ++ [⟨id,position,false,.spawning,s.updates.length⟩])[k]? = some t := by
    obtain ⟨bound,-⟩ := List.getElem?_eq_some_iff.mp old
    rw [List.getElem?_append_left bound]
    exact old
  have new : (s.tasks ++ [⟨id,position,false,.spawning,s.updates.length⟩])[s.tasks.length]? =
      some ⟨id,position,false,.spawning,s.updates.length⟩ := by simp
  have cases {k : Nat} {t : Task ι} (found : (s.tasks ++ [⟨id,position,false,.spawning,s.updates.length⟩])[k]? = some t) :
      s.tasks[k]? = some t ∨ k = s.tasks.length ∧ t = ⟨id,position,false,.spawning,s.updates.length⟩ := by
    by_cases bound : k < s.tasks.length
    · rw [List.getElem?_append_left bound] at found
      exact .inl found
    · rw [List.getElem?_append_right (Nat.le_of_not_lt bound),List.getElem?_singleton] at found
      split at found
      · exact .inr ⟨by omega,(Option.some.inj found).symm⟩
      · cases found
  refine ⟨?_,?_,?_,?_,?_,?_,?_⟩
  · intro k t found
    rcases cases found with old | ⟨rfl,rfl⟩
    · refine (held.kept k t old).frame rfl ?_ ?_ (fun _ => rfl)
      · intro _ place
        have own := place.resolve_right (by simp [inserting])
        have apart : t.id ≠ id := by
          intro same
          rw [same,free] at own
          cases own
        exact .inl (by simpa [apart] using own)
      · simp [inserting]
    · refine ⟨⟨early,Nat.le_refl _⟩,by simp,by simp,by simp,by simp,?_⟩
      intro update young
      have unread : ¬ update < position := by
        simp only at young
        omega
      simp only [unread,false_and,↓reduceIte]
      apply List.count_eq_zero_of_not_mem
      intro member
      obtain ⟨t,there,-⟩ := held.pushed _ member
      simp at there
  · intro j k t u one two below same
    rcases cases two with old | ⟨rfl,rfl⟩
    · rcases cases one with old' | ⟨rfl,rfl⟩
      · exact held.older j k t u old' old below same
      · obtain ⟨bound,-⟩ := List.getElem?_eq_some_iff.mp old
        omega
    · rcases cases one with old' | ⟨rfl,rfl⟩
      · exact ⟨succeeds t (List.mem_of_getElem? old') same,(held.kept j t old').bound.1⟩
      · omega
  · intro other k found
    rw [get_insert] at found
    split at found
    · rename_i same
      cases found
      exact ⟨_,new,same.symm,rfl⟩
    · obtain ⟨t,old,state⟩ := held.held other k found
      exact ⟨t,known old,state⟩
  · exact ⟨_,new,rfl,rfl⟩
  · intro other
    simp only [Connection.wanted,get_insert]
    by_cases same : other = id
    · simp [same]
    · simpa [same,Ne.symm same] using word other
  · intro other since k t acked entry found
    rw [get_insert] at entry
    split at entry
    · rename_i same
      have absent := word other
      rw [same,free] at absent
      rw [same] at acked
      simp [acked] at absent
    · obtain ⟨u,old,-⟩ := held.held other k entry
      have again := known old
      rw [found] at again
      cases again
      exact held.since other since k t acked entry old
  · intro push member
    obtain ⟨t,old,state⟩ := held.pushed push member
    exact ⟨t,known old,state⟩

theorem read_tracked (held : Tracked s) (succeeds : Succeeds s .reader) : Tracked s.read := by
  unfold Connection.read
  cases reading : s.reader with
  | idle => exact held
  | opening id => exact open_tracked held reading
  | inserting id position => exact insert_tracked held reading (succeeds id position reading)
  | spawning id task => exact spawn_tracked held reading
  | cancelling id task => exact cancel_tracked held reading
  | acking id word => exact ack_tracked held reading

theorem step_tracked (held : Tracked s) (succeeds : Succeeds s event) : Tracked (s.step event) := by
  cases event with
  | subscribeSubject id =>
    simp only [Connection.step]
    split
    · rename_i idle
      exact subscribe_tracked held idle
    · exact held
  | unsubscribeSubject id =>
    simp only [Connection.step]
    split
    · rename_i idle entry
      exact unsubscribe_present held idle entry
    · rename_i idle free
      exact unsubscribe_absent held idle free
    · exact held
  | reader => exact read_tracked held succeeds
  | observe task =>
    simp only [Connection.step]
    split
    · rename_i there
      exact observe_tracked held there
    · exact held
  | recv task =>
    simp only [Connection.step]
    split
    · rename_i there
      exact recv_tracked held there
    · exact held
  | push task =>
    simp only [Connection.step]
    split
    · rename_i there
      exact push_tracked held there
    · exact held
  | clean task =>
    simp only [Connection.step]
    split
    · rename_i there
      exact clean_tracked held there
    · exact held
  | publish id => exact publish_tracked held

theorem opened_tracked : Tracked (Connection.opened : Connection ι) := by
  refine ⟨?_,?_,?_,trivial,?_,?_,?_⟩ <;> simp [Connection.opened,Connection.wanted]

theorem subscriptions_obeyed (events : List (Event ι)) (succeeds : Guarded Connection.step Succeeds .opened events) :
    Throughout Connection.step Obeyed .opened events := by
  have all := guarded_keeps (fun s event held (met : Succeeds s event) => step_tracked held met) opened_tracked succeeds
  exact throughout_prefixes.mpr fun k => (throughout_prefixes.mp all k).obeyed

instance (s : Connection ι) (event : Event ι) : Decidable (Succeeds s event) :=
  match event with
  | .reader =>
    match reading : s.reader with
    | .inserting id position => decidable_of_iff (∀ t,t ∈ s.tasks → t.id = id → t.stage = .done) (by simp [Succeeds,reading])
    | .idle => .isTrue (by simp [Succeeds,reading])
    | .opening _ => .isTrue (by simp [Succeeds,reading])
    | .spawning _ _ => .isTrue (by simp [Succeeds,reading])
    | .cancelling _ _ => .isTrue (by simp [Succeeds,reading])
    | .acking _ _ => .isTrue (by simp [Succeeds,reading])
  | .subscribeSubject _ => .isTrue trivial
  | .unsubscribeSubject _ => .isTrue trivial
  | .observe _ => .isTrue trivial
  | .recv _ => .isTrue trivial
  | .push _ => .isTrue trivial
  | .clean _ => .isTrue trivial
  | .publish _ => .isTrue trivial

-- A subscription, an update, the unsubscribe with its self-clean, and the same again.
def patientRun : List (Event String) :=
  [.subscribeSubject "track",.reader,.reader,.reader,.reader,.publish "track",.publish "queue",.recv 0,.push 0,.recv 0,
    .unsubscribeSubject "track",.reader,.reader,.observe 0,.clean 0,
    .subscribeSubject "track",.reader,.reader,.reader,.reader,.publish "track",.recv 1,.push 1]

theorem patient_subscriptions_obeyed :
    (run Connection.step .opened patientRun).pushes = [⟨0,0⟩,⟨1,2⟩] ∧
    Throughout Connection.step Obeyed .opened patientRun :=
  ⟨by decide,subscriptions_obeyed patientRun (by decide)⟩

-- The same without the wait: the first task's self-clean takes the second one's entry.
def hastyRun : List (Event String) :=
  [.subscribeSubject "track",.reader,.reader,.reader,.reader,.unsubscribeSubject "track",.reader,.reader,.observe 0,
    .subscribeSubject "track",.reader,.reader,.reader,.reader,.clean 0,.observe 1,.clean 1]

theorem resubscription_killed : ¬ Obeyed (run Connection.step .opened hastyRun) := by
  intro obeyed
  have idle : (run Connection.step .opened hastyRun).reader = .idle := by decide
  have acked : get (run Connection.step .opened hastyRun).acked "track" = some (.subscribe,0) := by decide
  obtain ⟨k,t,entry,-⟩ := (obeyed.settled idle "track").mp ⟨0,acked⟩
  have absent : get (run Connection.step .opened hastyRun).subscriptionForwarders "track" = none := by decide
  rw [absent] at entry
  cases entry

end EvoCore.SubjectForwarders
