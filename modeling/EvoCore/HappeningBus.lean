import EvoCore.Coalescer
import EvoCore.Runs

namespace EvoCore.HappeningBus
open Runs
open Coalescer (HappeningEnvelope)

-- The bus of crates/evo/src/happenings.rs and the happenings_log table it writes through to. A
-- seq counts emissions, so it stays a number here; the casts to i64 that a request or the
-- configuration can reach are kept.
structure PersistedHappening (η : Type) where
  seq : Nat
  kind : String
  payload : η
  atMs : Nat
deriving DecidableEq,Repr

def PersistedHappening.envelope (row : PersistedHappening η) : HappeningEnvelope η := ⟨row.seq,row.payload⟩

def asI64 (n : Nat) : Int := Int.bmod n (2^64)

def u64Max : Nat := 2^64-1
def u32Max : Nat := 2^32-1

def saturatingSub (a b : Int) : Int := max (-2^63) (min (2^63-1) (a-b))

section Store
variable {η : Type} (log : List (PersistedHappening η))

-- One transaction: a taken primary key refuses all of its rows. record_happening is the case of one row.
def recordHappeningsBatch (rows : List (PersistedHappening η)) : Option (List (PersistedHappening η)) :=
  if rows.any fun row => log.any fun taken => taken.seq = row.seq then none else some (log ++ rows)

def loadHappeningsSince (cursor limit : Nat) : List (PersistedHappening η) :=
  ((log.filter fun row => asI64 cursor < row.seq).insertionSort fun a b => a.seq ≤ b.seq).take limit

def loadMaxHappeningSeq : Nat := (log.map (·.seq)).max?.getD 0

def loadOldestHappeningSeq : Nat := (log.map (·.seq)).min?.getD 0

def stickyHappeningKinds : List String := ["plugin_admission_skipped"]

def trimmed (nowMs windowSecs capacity : Nat) (row : PersistedHappening η) : Bool :=
  let cutoffMs := saturatingSub (asI64 nowMs) (asI64 (min (windowSecs*1000) u64Max))
  (asI64 row.atMs < cutoffMs || (row.seq : Int) ≤ loadMaxHappeningSeq log - asI64 capacity) &&
    !stickyHappeningKinds.contains row.kind

def trimHappeningsLog (nowMs windowSecs capacity : Nat) : List (PersistedHappening η) :=
  log.filter fun row => !trimmed log nowMs windowSecs capacity row

end Store

-- What the holder of emit_lock is doing: its rows wait for the store, or are in the log and go out
-- one by one.
inductive Emission (η : Type) where
  | minted (rows : List (PersistedHappening η))
  | recorded (left : List (HappeningEnvelope η))
deriving DecidableEq,Repr

def Emission.pending : Emission η → List (HappeningEnvelope η)
  | .minted rows => rows.map (·.envelope)
  | .recorded left => left

-- The transients have their seq and are not on the channel yet. A receiver of tx_env is a position in
-- what was sent.
structure Bus (η : Type) where
  nextSeq : Nat
  log : List (PersistedHappening η)
  emitLock : Option (Emission η)
  transients : List (HappeningEnvelope η)
  sent : List (HappeningEnvelope η)
deriving DecidableEq,Repr

def Bus.pending (bus : Bus η) : List (HappeningEnvelope η) := (bus.emitLock.map (·.pending)).getD []

-- The rows that wait for the store, and the envelopes that are in the log and not sent.
def Bus.minted (bus : Bus η) : List (PersistedHappening η) :=
  match bus.emitLock with
  | some (.minted rows) => rows
  | _ => []

def Bus.left (bus : Bus η) : List (HappeningEnvelope η) :=
  match bus.emitLock with
  | some (.recorded left) => left
  | _ => []

def Bus.withPersistence (log : List (PersistedHappening η)) (sent : List (HappeningEnvelope η)) : Bus η :=
  ⟨loadMaxHappeningSeq log+1,log,none,[],sent⟩

inductive Emit (η : Type) where
  | emit (happening : η)
  | send (position : Nat)
  | emitDurable (happening : η) (atMs : Nat)
  | emitDurableBatch (happenings : List η) (atMs : Nat)
  | record (stored : Bool)
  | broadcast

section
variable {η : Type} (kindStr : η → String)

def mintedRows (atMs : Nat) : Nat → List η → List (PersistedHappening η)
  | _,[] => []
  | seq,happening::rest => ⟨seq,kindStr happening,happening,atMs⟩::mintedRows atMs (seq+1) rest

-- Another durable emission waits at the lock.
def acquire (bus : Bus η) (happenings : List η) (atMs : Nat) : Bus η :=
  match bus.emitLock with
  | some _ => bus
  | none => {bus with
      nextSeq := bus.nextSeq+happenings.length
      emitLock := some (.minted (mintedRows kindStr atMs bus.nextSeq happenings))}

def Bus.step (bus : Bus η) : Emit η → Bus η
  | .emit happening => {bus with
      nextSeq := bus.nextSeq+1
      transients := bus.transients ++ [⟨bus.nextSeq,happening⟩]}
  | .send position =>
    match bus.transients[position]? with
    | none => bus
    | some env => {bus with transients := bus.transients.eraseIdx position,sent := bus.sent ++ [env]}
  | .emitDurable happening atMs => acquire kindStr bus [happening] atMs
  | .emitDurableBatch happenings atMs => if happenings.isEmpty then bus else acquire kindStr bus happenings atMs
  | .record stored =>
    match bus.emitLock with
    | some (.minted rows) =>
      match if stored then recordHappeningsBatch bus.log rows else none with
      | none => {bus with emitLock := none}
      | some log => {bus with log := log,emitLock := some (.recorded (rows.map (·.envelope)))}
    | _ => bus
  | .broadcast =>
    match bus.emitLock with
    | some (.recorded (env::rest)) => {bus with emitLock := some (.recorded rest),sent := bus.sent ++ [env]}
    | some (.recorded []) => {bus with emitLock := none}
    | _ => bus

end

-- The envelope an event puts on the channel.
def Bus.announced (bus : Bus η) : Emit η → Option (HappeningEnvelope η)
  | .send position => bus.transients[position]?
  | .broadcast =>
    match bus.emitLock with
    | some (.recorded (env::_)) => some env
    | _ => none
  | _ => none

inductive Move (kindStr : η → String) (bus : Bus η) : Option (HappeningEnvelope η) → Bus η → Prop where
  | idle : Move kindStr bus none bus
  | mint (happening : η) : Move kindStr bus none
      {bus with nextSeq := bus.nextSeq+1,transients := bus.transients ++ [⟨bus.nextSeq,happening⟩]}
  | send (position : Nat) (there : bus.transients[position]? = some env) : Move kindStr bus (some env)
      {bus with transients := bus.transients.eraseIdx position,sent := bus.sent ++ [env]}
  | acquire (happenings : List η) (atMs : Nat) (free : bus.emitLock = none) : Move kindStr bus none
      {bus with
        nextSeq := bus.nextSeq+happenings.length
        emitLock := some (.minted (mintedRows kindStr atMs bus.nextSeq happenings))}
  | fail (holds : bus.emitLock = some (.minted rows)) : Move kindStr bus none {bus with emitLock := none}
  | record (holds : bus.emitLock = some (.minted rows)) : Move kindStr bus none
      {bus with log := bus.log ++ rows,emitLock := some (.recorded (rows.map (·.envelope)))}
  | broadcast (holds : bus.emitLock = some (.recorded (env::rest))) : Move kindStr bus (some env)
      {bus with emitLock := some (.recorded rest),sent := bus.sent ++ [env]}
  | release (holds : bus.emitLock = some (.recorded [])) : Move kindStr bus none {bus with emitLock := none}

variable {η : Type} {kindStr : η → String} {bus : Bus η}

theorem acquire_move : Move kindStr bus none (acquire kindStr bus happenings atMs) := by
  unfold acquire
  cases lock : bus.emitLock with
  | some emission => exact .idle
  | none => exact .acquire happenings atMs lock

theorem step_move : Move kindStr bus (bus.announced event) (bus.step kindStr event) := by
  cases event with
  | emit happening => exact .mint happening
  | send position =>
    simp only [Bus.announced,Bus.step]
    cases there : bus.transients[position]? with
    | none => exact .idle
    | some env => exact .send position there
  | emitDurable happening atMs => exact acquire_move
  | emitDurableBatch happenings atMs =>
    simp only [Bus.announced,Bus.step]
    split
    · exact .idle
    · exact acquire_move
  | record stored =>
    simp only [Bus.announced,Bus.step]
    split
    · rename_i rows holds
      split
      · exact .fail holds
      · rename_i log kept
        cases stored with
        | false => cases kept
        | true =>
          simp only [↓reduceIte,recordHappeningsBatch] at kept
          split at kept
          · cases kept
          · cases Option.some.inj kept
            exact .record holds
    · exact .idle
  | broadcast =>
    simp only [Bus.announced,Bus.step]
    cases lock : bus.emitLock with
    | none => exact .idle
    | some emission =>
      cases emission with
      | minted rows => exact .idle
      | recorded left =>
        cases left with
        | nil => exact .release lock
        | cons env rest => exact .broadcast lock

theorem mintedRows_range (member : row ∈ mintedRows kindStr atMs seq happenings) :
    seq ≤ row.seq ∧ row.seq < seq+happenings.length := by
  induction happenings generalizing seq with
  | nil => simp [mintedRows] at member
  | cons happening rest ih =>
    simp only [List.length_cons]
    rcases List.mem_cons.mp member with rfl | later
    · exact ⟨Nat.le_refl _,by simp⟩
    · have range := ih later
      omega

theorem mintedRows_ascending : (mintedRows kindStr atMs seq happenings).Pairwise fun a b => a.seq < b.seq := by
  induction happenings generalizing seq with
  | nil => exact .nil
  | cons happening rest ih =>
    refine .cons ?_ ih
    intro row member
    have range := mintedRows_range member
    simp only
    omega

theorem ascending_distinct {rows : List (PersistedHappening η)} (ascending : rows.Pairwise fun a b => a.seq < b.seq) :
    (rows.map (·.seq)).Nodup := by
  apply List.pairwise_map.mpr
  exact ascending.imp fun less => Nat.ne_of_lt less

-- Every envelope that went out or still may: what was sent, then the lock's, then the transients.
def Bus.issued (bus : Bus η) : List (HappeningEnvelope η) := bus.sent ++ bus.pending ++ bus.transients

structure Fresh (bus : Bus η) : Prop where
  distinct : (bus.issued.map (·.seq)).Nodup
  below : ∀ env,env ∈ bus.issued → env.seq < bus.nextSeq
  logged : ∀ row,row ∈ bus.log → row.seq < bus.nextSeq

theorem send_perm {transients : List (HappeningEnvelope η)} (there : transients[position]? = some env) :
    (sent ++ [env] ++ pending ++ transients.eraseIdx position).Perm (sent ++ pending ++ transients) := by
  obtain ⟨bound,rfl⟩ := List.getElem?_eq_some_iff.mp there
  have chosen : (transients[position]::transients.eraseIdx position).Perm transients :=
    List.getElem_cons_eraseIdx_perm bound
  simp only [List.append_assoc,List.singleton_append]
  apply List.Perm.append_left
  exact List.perm_middle.symm.trans (chosen.append_left pending)

theorem Fresh.fewer (fresh : Fresh bus) (part : after.issued.Subperm bus.issued) (counter : after.nextSeq = bus.nextSeq)
    (kept : ∀ row,row ∈ after.log → row.seq < bus.nextSeq) : Fresh after := by
  refine ⟨?_,?_,?_⟩
  · obtain ⟨some_,same,below⟩ := part
    exact (same.map _).nodup_iff.mp (fresh.distinct.sublist (below.map _))
  · intro env member
    rw [counter]
    exact fresh.below env (part.subset member)
  · intro row member
    rw [counter]
    exact kept row member

theorem Fresh.more (fresh : Fresh bus) (new : List (HappeningEnvelope η)) (same : after.issued.Perm (bus.issued ++ new))
    (counter : bus.nextSeq ≤ after.nextSeq) (kept : after.log = bus.log) (ascending : (new.map (·.seq)).Nodup)
    (range : ∀ env,env ∈ new → bus.nextSeq ≤ env.seq ∧ env.seq < after.nextSeq) : Fresh after := by
  refine ⟨?_,?_,?_⟩
  · rw [(same.map _).nodup_iff,List.map_append,List.nodup_append]
    refine ⟨fresh.distinct,ascending,?_⟩
    intro old there n later
    obtain ⟨env,member,rfl⟩ := List.mem_map.mp there
    obtain ⟨env',member',rfl⟩ := List.mem_map.mp later
    have below := fresh.below env member
    have above := (range env' member').1
    omega
  · intro env member
    rcases List.mem_append.mp (same.mem_iff.mp member) with old | later
    · exact Nat.lt_of_lt_of_le (fresh.below env old) counter
    · exact (range env later).2
  · intro row member
    rw [kept] at member
    exact Nat.lt_of_lt_of_le (fresh.logged row member) counter

theorem move_fresh (fresh : Fresh bus) (move : Move kindStr bus out after) : Fresh after := by
  cases move with
  | idle => exact fresh
  | mint happening =>
    refine fresh.more [⟨bus.nextSeq,happening⟩] ?_ (Nat.le_succ _) rfl (List.nodup_singleton _) ?_
    · exact .of_eq (List.append_assoc ..).symm
    intro env member
    cases List.mem_singleton.mp member
    exact ⟨Nat.le_refl _,Nat.lt_succ_self _⟩
  | send position there => exact fresh.fewer (send_perm there).subperm rfl fresh.logged
  | acquire happenings atMs free =>
    have opened : bus.pending = [] := by simp [Bus.pending,free]
    refine fresh.more ((mintedRows kindStr atMs bus.nextSeq happenings).map (·.envelope)) ?_ (Nat.le_add_right _ _) rfl ?_ ?_
    · simp only [Bus.issued,opened,List.append_nil,List.append_assoc]
      exact List.perm_append_comm.append_left bus.sent
    · rw [List.map_map]
      exact ascending_distinct mintedRows_ascending
    · intro env member
      obtain ⟨row,minted,rfl⟩ := List.mem_map.mp member
      exact mintedRows_range minted
  | fail holds =>
    refine fresh.fewer ?_ rfl fresh.logged
    simp only [Bus.issued,Bus.pending,Option.map_none,Option.getD_none,List.append_nil]
    exact (((List.sublist_append_left bus.sent _)).append_right _).subperm
  | record holds =>
    rename_i rows
    refine fresh.fewer (List.Perm.of_eq ?_).subperm rfl ?_
    · simp [Bus.issued,Bus.pending,holds,Emission.pending]
    · intro row member
      rcases List.mem_append.mp member with old | new
      · exact fresh.logged row old
      · apply fresh.below row.envelope
        simp only [Bus.issued,Bus.pending,holds,List.mem_append]
        exact .inl (.inr (List.mem_map_of_mem new))
  | broadcast holds =>
    refine fresh.fewer (List.Perm.of_eq ?_).subperm rfl fresh.logged
    simp [Bus.issued,Bus.pending,holds,Emission.pending]
  | release holds =>
    refine fresh.fewer (List.Perm.of_eq ?_).subperm rfl fresh.logged
    simp [Bus.issued,Bus.pending,holds,Emission.pending]

def durable (log : List (PersistedHappening η)) (env : HappeningEnvelope η) : Bool := log.any fun row => row.seq = env.seq

@[simp] theorem durable_iff {log : List (PersistedHappening η)} : durable log env ↔ ∃ row,row ∈ log ∧ row.seq = env.seq := by
  simp [durable]

-- Without trimming the log and what the lock holder minted for it are one ascending list.
structure Ordered (bus : Bus η) : Prop where
  ascending : (bus.log ++ bus.minted).Pairwise fun a b => a.seq < b.seq
  foreign : ∀ env,env ∈ bus.transients → ¬ durable bus.log env
  owing : ∀ env,env ∈ bus.left → env ∈ bus.log.map (·.envelope)
  told : ∀ env,env ∈ bus.sent → durable bus.log env → env ∈ bus.log.map (·.envelope)

theorem Ordered.log_ascending (ordered : Ordered bus) : bus.log.Pairwise fun a b => a.seq < b.seq :=
  (List.pairwise_append.mp ordered.ascending).1

theorem minted_issued (member : row ∈ bus.minted) : row.envelope ∈ bus.pending := by
  unfold Bus.minted at member
  split at member
  · rename_i rows holds
    simp only [Bus.pending,holds,Option.map_some,Option.getD_some,Emission.pending]
    exact List.mem_map_of_mem member
  · cases member

theorem Fresh.apart (fresh : Fresh bus) (pending : env ∈ bus.pending) (other : env' ∈ bus.sent ∨ env' ∈ bus.transients) :
    env.seq ≠ env'.seq := by
  have distinct := fresh.distinct
  simp only [Bus.issued,List.map_append,List.nodup_append,List.mem_append] at distinct
  obtain ⟨⟨-,-,first⟩,-,second⟩ := distinct
  rcases other with sent | transient
  · exact (first _ (List.mem_map_of_mem sent) _ (List.mem_map_of_mem pending)).symm
  · exact second _ (.inr (List.mem_map_of_mem pending)) _ (List.mem_map_of_mem transient)

theorem durable_recorded (fresh : Fresh bus) (holds : bus.emitLock = some (.minted rows))
    (known : durable bus.log env ∨ env ∈ bus.sent) : durable (bus.log ++ rows) env = durable bus.log env := by
  have waiting : bus.minted = rows := by simp [Bus.minted,holds]
  rcases known with logged | sent
  · simp only [durable,List.any_append] at logged ⊢
    simp [logged]
  · have absent : rows.any (fun row => row.seq = env.seq) = false := by
      simp only [List.any_eq_false,decide_eq_true_eq]
      intro row member
      exact fresh.apart (minted_issued (waiting ▸ member)) (.inl sent)
    simp only [durable,List.any_append] at absent ⊢
    simp [absent]

theorem move_ordered (fresh : Fresh bus) (ordered : Ordered bus) (move : Move kindStr bus out after) : Ordered after := by
  cases move with
  | idle => exact ordered
  | mint happening =>
    refine ⟨ordered.ascending,?_,ordered.owing,ordered.told⟩
    intro env member
    rcases List.mem_append.mp member with old | new
    · exact ordered.foreign env old
    · cases List.mem_singleton.mp new
      simp only [durable_iff,not_exists,not_and]
      intro row logged
      exact Nat.ne_of_lt (fresh.logged row logged)
  | send position there =>
    refine ⟨ordered.ascending,fun env member => ordered.foreign env (List.mem_of_mem_eraseIdx member),ordered.owing,?_⟩
    intro env member logged
    rcases List.mem_append.mp member with old | new
    · exact ordered.told env old logged
    · cases List.mem_singleton.mp new
      exact absurd logged (ordered.foreign _ (List.mem_of_getElem? there))
  | acquire happenings atMs free =>
    refine ⟨?_,ordered.foreign,by simp [Bus.left],ordered.told⟩
    refine List.pairwise_append.mpr ⟨ordered.log_ascending,mintedRows_ascending,?_⟩
    intro row logged minted member
    exact Nat.lt_of_lt_of_le (fresh.logged row logged) (mintedRows_range member).1
  | fail holds =>
    refine ⟨?_,ordered.foreign,by simp [Bus.left],ordered.told⟩
    simpa [Bus.minted] using ordered.log_ascending
  | record holds =>
    rename_i rows
    have waiting : bus.minted = rows := by simp [Bus.minted,holds]
    refine ⟨?_,?_,?_,?_⟩
    · simpa [Bus.minted,holds] using ordered.ascending
    · intro env transient there
      obtain ⟨row,member,same⟩ := durable_iff.mp there
      rcases List.mem_append.mp member with old | new
      · exact ordered.foreign env transient (durable_iff.mpr ⟨row,old,same⟩)
      · exact fresh.apart (minted_issued (waiting ▸ new)) (.inr transient) same
    · intro env member
      simp only [List.map_append,List.mem_append]
      exact .inr member
    · intro env sent there
      rw [durable_recorded fresh holds (.inr sent)] at there
      simp only [List.map_append,List.mem_append]
      exact .inl (ordered.told env sent there)
  | broadcast holds =>
    refine ⟨?_,ordered.foreign,?_,?_⟩
    · simpa [Bus.minted,holds] using ordered.ascending
    · intro env member
      apply ordered.owing env
      simp only [Bus.left,holds]
      exact List.mem_cons_of_mem _ member
    · intro env member logged
      rcases List.mem_append.mp member with old | new
      · exact ordered.told env old logged
      · cases List.mem_singleton.mp new
        exact ordered.owing _ (by simp [Bus.left,holds])
  | release holds =>
    refine ⟨?_,ordered.foreign,by simp [Bus.left],ordered.told⟩
    simpa [Bus.minted,holds] using ordered.ascending

theorem le_loadMaxHappeningSeq {log : List (PersistedHappening η)} (member : row ∈ log) :
    row.seq ≤ loadMaxHappeningSeq log := by
  have there : row.seq ∈ log.map (·.seq) := List.mem_map_of_mem member
  unfold loadMaxHappeningSeq
  cases top : (log.map (·.seq)).max? with
  | none =>
    rw [List.max?_eq_none_iff] at top
    simp [top] at there
  | some high => exact (List.max?_eq_some_iff.mp top).2 row.seq there

theorem withPersistence_fresh (distinct : (sent.map (·.seq)).Nodup) (below : ∀ env,env ∈ sent → env.seq ≤ loadMaxHappeningSeq log) :
    Fresh (Bus.withPersistence (η := η) log sent) := by
  refine ⟨?_,?_,?_⟩
  · simpa [Bus.issued,Bus.pending,Bus.withPersistence] using distinct
  · intro env member
    have old : env ∈ sent := by simpa [Bus.issued,Bus.pending,Bus.withPersistence] using member
    exact Nat.lt_succ_of_le (below env old)
  · intro row member
    exact Nat.lt_succ_of_le (le_loadMaxHappeningSeq member)

-- The steward's life as the seqs see it. A restart loses what was in flight; `sent` goes on as the
-- record of all that was ever broadcast.
inductive Lifecycle (η : Type) where
  | emits (event : Emit η)
  | trim (nowMs windowSecs capacity : Nat)
  | restart

def lifecycle (kindStr : η → String) (bus : Bus η) : Lifecycle η → Bus η
  | .emits event => bus.step kindStr event
  | .trim nowMs windowSecs capacity => {bus with log := trimHappeningsLog bus.log nowMs windowSecs capacity}
  | .restart => .withPersistence bus.log bus.sent

-- No seq twice, and no saved cursor at or above a seq still to be minted.
structure CursorsKept (bus : Bus η) : Prop where
  distinct : (bus.sent.map (·.seq)).Nodup
  ahead : ∀ env,env ∈ bus.sent → env.seq < bus.nextSeq

-- A restart finds a row at or above every seq that went out.
def LogCovers (bus : Bus η) : Lifecycle η → Prop
  | .restart => ∀ env,env ∈ bus.sent → env.seq ≤ loadMaxHappeningSeq bus.log
  | _ => True

theorem sent_issued (member : env ∈ bus.sent) : env ∈ bus.issued :=
  List.mem_append_left _ (List.mem_append_left _ member)

theorem Fresh.cursors (fresh : Fresh bus) : CursorsKept bus := by
  refine ⟨?_,fun env member => fresh.below env (sent_issued member)⟩
  have part : bus.sent.Sublist bus.issued := by
    rw [Bus.issued,List.append_assoc]
    exact List.sublist_append_left ..
  exact fresh.distinct.sublist (part.map _)

theorem lifecycle_fresh (fresh : Fresh bus) (covers : LogCovers bus event) : Fresh (lifecycle kindStr bus event) := by
  cases event with
  | emits event => exact move_fresh fresh step_move
  | trim nowMs windowSecs capacity =>
    refine fresh.fewer (List.Perm.refl _).subperm rfl ?_
    intro row member
    exact fresh.logged row (List.mem_of_mem_filter member)
  | restart => exact withPersistence_fresh fresh.cursors.distinct covers

theorem restart_needs (kept : CursorsKept (lifecycle kindStr bus event)) : LogCovers bus event := by
  cases event with
  | restart =>
    intro env member
    exact Nat.le_of_lt_succ (kept.ahead env member)
  | _ => trivial

theorem cursors_never_reused_exactly (log : List (PersistedHappening η)) (events : List (Lifecycle η)) :
    Throughout (lifecycle kindStr) CursorsKept (.withPersistence log []) events ↔
      Guarded (lifecycle kindStr) LogCovers (.withPersistence log []) events := by
  apply throughout_strong Fresh
  · exact fun bus fresh => fresh.cursors
  · exact fun bus event fresh covers => lifecycle_fresh fresh covers
  · exact fun bus event _ kept => restart_needs kept
  · exact withPersistence_fresh .nil (by simp)

-- A seq that only a transient carried, and one whose row was trimmed, are minted again.
theorem seq_reused_after_restart :
    ¬ ((run (lifecycle fun kind => kind) (.withPersistence [] [])
      [.emits (.emit "flight_mode_changed"),.emits (.send 0),.restart,
        .emits (.emitDurable "subject_forgotten" 1000),.emits (.record true),.emits .broadcast]).sent.map (·.seq)).Nodup ∧
    ¬ ((run (lifecycle fun kind => kind) (.withPersistence [] [])
      [.emits (.emitDurable "subject_registered" 1000),.emits (.record true),.emits .broadcast,.emits .broadcast,
        .trim 4000 1 1024,.restart,
        .emits (.emitDurable "subject_forgotten" 9000),.emits (.record true),.emits .broadcast]).sent.map (·.seq)).Nodup := by
  decide

end EvoCore.HappeningBus
