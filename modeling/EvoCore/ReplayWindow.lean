import EvoCore.ReplayDelivery

namespace EvoCore.ReplayWindow
open Runs HappeningBus Subscriptions

-- The subscriptions beside trim_happenings_log and restarts of the steward. `history` is every row
-- that was ever logged; no code reads it.
structure Archive (η : Type) where
  system : System η
  history : List (PersistedHappening η)

inductive Upkeep (η : Type) where
  | event (event : Event η)
  | trim (nowMs windowSecs capacity : Nat)
  | restart

def Archive.booted (η : Type) : Archive η := ⟨System.booted [],[]⟩

variable {η : Type}

def Archive.step (kindStr : η → String) (a : Archive η) : Upkeep η → Archive η
  | .event event =>
    let after := a.system.step kindStr event
    ⟨after,a.history ++ after.bus.log.drop a.system.bus.log.length⟩
  | .trim nowMs windowSecs capacity =>
    {a with system := {a.system with bus := lifecycle kindStr a.system.bus (.trim nowMs windowSecs capacity)}}
  | .restart => {a with system := System.booted a.system.bus.log}

-- A call of run_subscription: one that is on its way, or one that begins here and has asked for the window.
inductive Underway (s : System η) : Subscription η → Prop where
  | begun (member : sub ∈ s.subscriptions) : Underway s sub
  | begins (cursor : Nat) (accepts : η → Bool) :
      Underway s (advance s.bus (subscribeWithCurrentSeq s.bus (some cursor) accepts) (.loadOldest none))

-- Whatever the replay query is about to answer holds every row above the cursor that was ever logged.
def Honest (a : Archive η) : Prop :=
  ∀ sub cursor rows,Underway a.system sub → sub.asks (.loadSince none) = some cursor →
    (advance a.system.bus sub (.loadSince none)).phase = .replaying rows cursor →
      ∀ row,row ∈ a.history → cursor < row.seq → row ∈ rows

def Lets (s : System η) (cursor : Nat) : Prop :=
  refused s.bus cursor = false ∨ ∃ sub,sub ∈ s.subscriptions ∧ sub.phase = .acked ∧ sub.since = some cursor

def Fits (log : List (PersistedHappening η)) (cursor : Nat) : Prop :=
  (∃ row,row ∈ log ∧ cursor < row.seq) → (log.filter fun row => asI64 cursor < row.seq).length ≤ u32Max

-- What a trim takes is a part of the log below all that it leaves, it leaves something, and no
-- subscription between the gate and its query asks for what it takes.
structure Tail (s : System η) (gone : PersistedHappening η → Bool) : Prop where
  leaves : ∀ row,row ∈ s.bus.log → gone row → ∃ other,other ∈ s.bus.log ∧ gone other = false
  below : ∀ row other,row ∈ s.bus.log → gone row → other ∈ s.bus.log → gone other = false → row.seq < other.seq
  unasked : ∀ row sub cursor,row ∈ s.bus.log → gone row → sub ∈ s.subscriptions → sub.phase = .acked →
    sub.since = some cursor → row.seq ≤ cursor

def KeepsWindow (kindStr : η → String) (a : Archive η) : Upkeep η → Prop
  | .event event =>
    let after := a.system.step kindStr event
    ∀ cursor,Lets after cursor → Fits after.bus.log cursor
  | .trim nowMs windowSecs capacity => Tail a.system (trimmed a.system.bus.log nowMs windowSecs capacity)
  | .restart => True

variable {kindStr : η → String} {a : Archive η} {s : System η} {bus : Bus η} {sub : Subscription η}

theorem asks_iff : sub.asks (.loadSince none) = some cursor ↔ sub.phase = .acked ∧ sub.since = some cursor := by
  cases phase : sub.phase <;> simp [Subscription.asks,phase]

theorem refused_iff : refused bus cursor = true ↔
    0 < loadOldestHappeningSeq bus.log ∧ cursor < loadOldestHappeningSeq bus.log := by
  simp [refused]

theorem gate_asks (begins : sub.phase = .subscribed) (since : sub.since = some cursor) :
    (advance bus sub (.loadOldest none)).asks (.loadSince none) =
      if refused bus cursor then none else some cursor := by
  simp only [advance,begins,checkWindow,since,←refused_iff]
  split
  · rfl
  · simp [Subscription.asks,Subscription.ack,since]

theorem lets_iff : Lets s cursor ↔ ∃ sub,Underway s sub ∧ sub.asks (.loadSince none) = some cursor := by
  constructor
  · intro lets
    rcases lets with free | ⟨sub,member,acked,since⟩
    · refine ⟨_,.begins cursor fun _ => true,?_⟩
      rw [gate_asks rfl rfl,free]
      rfl
    · exact ⟨sub,.begun member,asks_iff.mpr ⟨acked,since⟩⟩
  · intro ⟨sub,underway,asked⟩
    cases underway with
    | begun member => exact .inr ⟨sub,member,asks_iff.mp asked⟩
    | begins started accepts =>
      rw [gate_asks rfl rfl] at asked
      split at asked
      · cases asked
      · rename_i free
        cases Option.some.inj asked
        exact .inl (Bool.eq_false_iff.mpr free)

theorem query_answers (asked : sub.asks (.loadSince none) = some cursor) :
    (advance bus sub (.loadSince none)).phase = .replaying (loadHappeningsSince bus.log cursor u32Max) cursor := by
  obtain ⟨acked,since⟩ := asks_iff.mp asked
  simp [advance,acked,replayQuery,since]

theorem honest_replays : Honest a ↔ ∀ cursor,Lets a.system cursor → ∀ row,row ∈ a.history → cursor < row.seq →
    row ∈ loadHappeningsSince a.system.bus.log cursor u32Max := by
  constructor
  · intro honest cursor lets
    obtain ⟨sub,underway,asked⟩ := lets_iff.mp lets
    exact honest sub cursor _ underway asked (query_answers asked)
  · intro replays sub cursor rows underway asked answer
    rw [query_answers asked,Phase.replaying.injEq] at answer
    rw [←answer.1]
    exact replays cursor (lets_iff.mpr ⟨sub,underway,asked⟩)

theorem mem_loadHappeningsSince {log : List (PersistedHappening η)} (member : row ∈ loadHappeningsSince log cursor limit) : row ∈ log := by
  have sorted := List.mem_of_mem_take member
  exact List.mem_of_mem_filter ((List.perm_insertionSort _ _).mem_iff.mp sorted)

-- The rows above the cursor end the answer, so the limit cuts off the last one of them first.
theorem fits_iff {log : List (PersistedHappening η)} (ascending : log.Pairwise fun a b => a.seq < b.seq) :
    (∀ row,row ∈ log → cursor < row.seq → row ∈ loadHappeningsSince log cursor u32Max) ↔ Fits log cursor := by
  have low := asI64_le (n := cursor)
  constructor
  · intro replays ⟨row,member,above⟩
    let asked := log.filter fun row => asI64 cursor < row.seq
    have sorted : asked.Pairwise fun a b => a.seq < b.seq := ascending.filter _
    have among : row ∈ asked := List.mem_filter.mpr ⟨member,by simp only [decide_eq_true_eq]; omega⟩
    have some_ : asked ≠ [] := List.ne_nil_of_mem among
    have last := asked.getLast_mem some_
    have high : row.seq ≤ (asked.getLast some_).seq := by
      rw [←asked.dropLast_append_getLast some_] at among sorted
      rcases List.mem_append.mp among with before | same
      · exact Nat.le_of_lt ((List.pairwise_append.mp sorted).2.2 row before _ (List.mem_singleton.mpr rfl))
      · rw [List.mem_singleton.mp same]
    have answered := replays _ (List.mem_of_mem_filter last) (Nat.lt_of_lt_of_le above high)
    rw [loadHappeningsSince_take ascending] at answered
    obtain ⟨i,bound,same⟩ := List.mem_iff_getElem.mp answered
    rw [List.length_take] at bound
    rw [List.getElem_take,List.getLast_eq_getElem] at same
    have distinct : asked.Nodup := sorted.imp fun less same => by simp [same] at less
    have place := (List.Nodup.getElem_inj_iff distinct).mp same
    change asked.length ≤ u32Max
    omega
  · intro fits row member above
    rw [loadHappeningsSince_whole ascending (fits ⟨row,member,above⟩)]
    refine List.mem_filter.mpr ⟨member,?_⟩
    simp only [decide_eq_true_eq]
    omega

-- Unlike Ordered this outlives a trim.
structure Rising (bus : Bus η) : Prop where
  ascending : (bus.log ++ bus.minted).Pairwise fun a b => a.seq < b.seq
  range : ∀ row,row ∈ bus.log ++ bus.minted → 0 < row.seq ∧ row.seq < bus.nextSeq
  counter : 0 < bus.nextSeq

theorem Rising.log_ascending (rising : Rising bus) : bus.log.Pairwise fun a b => a.seq < b.seq :=
  (List.pairwise_append.mp rising.ascending).1

theorem Rising.log_range (rising : Rising bus) (member : row ∈ bus.log) : 0 < row.seq ∧ row.seq < bus.nextSeq :=
  rising.range row (List.mem_append_left _ member)

theorem Rising.fewer {after : Bus η} (rising : Rising bus) (part : (after.log ++ after.minted).Sublist (bus.log ++ bus.minted))
    (counter : bus.nextSeq ≤ after.nextSeq) : Rising after := by
  refine ⟨rising.ascending.sublist part,?_,Nat.lt_of_lt_of_le rising.counter counter⟩
  intro row member
  have range := rising.range row (part.subset member)
  exact ⟨range.1,Nat.lt_of_lt_of_le range.2 counter⟩

theorem move_rising (rising : Rising bus) (move : Move kindStr bus out after) : Rising after := by
  cases move with
  | idle => exact rising
  | mint happening => exact rising.fewer (List.Sublist.refl _) (Nat.le_succ _)
  | send position there => exact rising.fewer (List.Sublist.refl _) (Nat.le_refl _)
  | acquire happenings atMs free =>
    refine ⟨?_,?_,Nat.lt_of_lt_of_le rising.counter (Nat.le_add_right _ _)⟩
    · refine List.pairwise_append.mpr ⟨rising.log_ascending,mintedRows_ascending,?_⟩
      intro row logged minted member
      exact Nat.lt_of_lt_of_le (rising.log_range logged).2 (mintedRows_range member).1
    · intro row member
      have counter := rising.counter
      rcases List.mem_append.mp member with logged | minted
      · have range := rising.log_range logged
        simp only
        omega
      · have range := mintedRows_range minted
        simp only
        omega
  | fail holds => exact rising.fewer (by simp [Bus.minted]) (Nat.le_refl _)
  | record holds => exact rising.fewer (by simp [Bus.minted,holds]) (Nat.le_refl _)
  | broadcast holds => exact rising.fewer (by simp [Bus.minted]) (Nat.le_refl _)
  | release holds => exact rising.fewer (by simp [Bus.minted]) (Nat.le_refl _)

theorem restart_rising (rising : Rising bus) : Rising (Bus.withPersistence bus.log []) := by
  refine ⟨?_,?_,Nat.succ_pos _⟩
  · simpa [Bus.withPersistence,Bus.minted] using rising.log_ascending
  · intro row member
    have logged : row ∈ bus.log := by simpa [Bus.withPersistence,Bus.minted] using member
    exact ⟨(rising.log_range logged).1,Nat.lt_succ_of_le (le_loadMaxHappeningSeq logged)⟩

theorem oldest_first {rest : List (PersistedHappening η)} (ascending : (row::rest).Pairwise fun a b => a.seq < b.seq) :
    loadOldestHappeningSeq (row::rest) = row.seq := by
  have least : ((row::rest).map (·.seq)).min? = some row.seq := by
    apply List.min?_eq_some_iff.mpr
    refine ⟨by simp,?_⟩
    intro n member
    obtain ⟨other,among,rfl⟩ := List.mem_map.mp member
    rcases List.mem_cons.mp among with rfl | later
    · exact Nat.le_refl _
    · exact Nat.le_of_lt ((List.pairwise_cons.mp ascending).1 other later)
  simp only [loadOldestHappeningSeq,least,Option.getD_some]

theorem refused_false (rising : Rising bus) :
    refused bus cursor = false ↔ ∀ row rest,bus.log = row::rest → row.seq ≤ cursor := by
  rw [Bool.eq_false_iff,ne_eq,refused_iff]
  cases log : bus.log with
  | nil => simp [loadOldestHappeningSeq]
  | cons row rest =>
    have member : row ∈ bus.log := by simp [log]
    have positive := (rising.log_range member).1
    rw [oldest_first (log ▸ rising.log_ascending)]
    constructor
    · intro free other tail same
      cases same
      omega
    · intro reaches
      have reached := reaches row rest rfl
      omega

theorem move_log (move : Move kindStr bus out after) : ∃ rows,after.log = bus.log ++ rows := by
  cases move with
  | record holds => exact ⟨_,rfl⟩
  | _ => exact ⟨[],(List.append_nil _).symm⟩

theorem step_log (s : System η) (kindStr : η → String) (event : Event η) : ∃ rows,(s.step kindStr event).bus.log = s.bus.log ++ rows := by
  cases event with
  | emits event => exact move_log step_move
  | subscribe since accepts =>
    refine ⟨[],?_⟩
    simp only [System.step,List.append_nil]
    split <;> rfl
  | call subscriber call =>
    refine ⟨[],?_⟩
    simp only [System.step,List.append_nil]
    split <;> rfl

theorem step_rising (rising : Rising s.bus) : Rising (s.step kindStr event).bus := by
  cases event with
  | emits event => exact move_rising rising step_move
  | subscribe since accepts =>
    simp only [System.step]
    split
    · exact rising
    · exact rising
  | call subscriber call =>
    simp only [System.step]
    split
    · exact rising
    · exact rising

theorem turn_acked (turn : Turn bus sub asked after) (acked : after.phase = .acked) :
    sub.phase = .subscribed ∨ after = sub := by
  cases turn with
  | idle => exact .inr rfl
  | ack before => exact .inl before
  | recv before there => simp [before] at acked
  | _ => cases acked

theorem advance_asks (asked : (advance bus sub call).asks (.loadSince none) = some cursor) :
    sub.asks (.loadSince none) = some cursor ∨ refused bus cursor = false := by
  obtain ⟨acked,since⟩ := asks_iff.mp asked
  rcases turn_acked advance_turn acked with waits | same
  · cases call with
    | loadOldest failed =>
      simp only [advance,waits,checkWindow] at asked
      cases named : sub.since with
      | none => simp [named,Subscription.asks,Subscription.ack] at asked
      | some started =>
        cases failed with
        | some e => simp [named,Subscription.asks,Subscription.close] at asked
        | none =>
          have gate : (advance bus sub (.loadOldest none)).asks (.loadSince none) = _ := gate_asks waits named
          simp only [advance,waits,checkWindow,named] at asked gate
          rw [asked] at gate
          split at gate
          · cases gate
          · rename_i free
            cases Option.some.inj gate
            exact .inr (Bool.eq_false_iff.mpr free)
    | _ => exact .inl (by simpa only [advance,waits] using asked)
  · exact .inl (same ▸ asked)

theorem step_asks (member : sub ∈ (s.step kindStr event).subscriptions) (asked : sub.asks (.loadSince none) = some cursor) :
    Lets s cursor := by
  have old (there : sub ∈ s.subscriptions) : Lets s cursor := .inr ⟨sub,there,asks_iff.mp asked⟩
  cases event with
  | emits event => exact old member
  | subscribe since accepts =>
    simp only [System.step] at member
    split at member
    · exact old member
    · rcases List.mem_append.mp member with there | new
      · exact old there
      · cases List.mem_singleton.mp new
        cases asked
  | call subscriber call =>
    simp only [System.step] at member
    split at member
    · exact old member
    · rename_i before there
      rcases List.mem_or_eq_of_mem_set member with kept | rfl
      · exact old kept
      · rcases advance_asks asked with same | free
        · exact .inr ⟨before,List.mem_of_getElem? there,asks_iff.mp same⟩
        · exact .inl free

theorem step_lets (rising : Rising s.bus) (lets : Lets (s.step kindStr event) cursor) : Lets s cursor := by
  rcases lets with free | ⟨sub,member,acked,since⟩
  · left
    obtain ⟨rows,longer⟩ := step_log s kindStr event
    rw [refused_false (step_rising rising)] at free
    rw [refused_false rising]
    intro row rest first
    exact free row (rest ++ rows) (by rw [longer,first]; rfl)
  · exact step_asks member (asks_iff.mpr ⟨acked,since⟩)

structure Traced (a : Archive η) : Prop where
  rising : Rising a.system.bus
  logged : ∀ row,row ∈ a.system.bus.log → row ∈ a.history

-- The two ways to lose a row: it is gone from the log, or the query stops before it.
theorem honest_iff (traced : Traced a) : Honest a ↔
    (∀ row,row ∈ a.history → row ∉ a.system.bus.log → ∀ cursor,Lets a.system cursor → row.seq ≤ cursor) ∧
      ∀ cursor,Lets a.system cursor → Fits a.system.bus.log cursor := by
  have ascending := traced.rising.log_ascending
  rw [honest_replays]
  constructor
  · intro replays
    refine ⟨?_,?_⟩
    · intro row known gone cursor lets
      apply Nat.le_of_not_lt
      intro above
      exact gone (mem_loadHappeningsSince (replays cursor lets row known above))
    · intro cursor lets
      exact (fits_iff ascending).mp fun row member above => replays cursor lets row (traced.logged row member) above
  · intro ⟨passed,fits⟩ cursor lets row known above
    by_cases member : row ∈ a.system.bus.log
    · exact (fits_iff ascending).mpr (fits cursor lets) row member above
    · exact absurd (passed row known member cursor lets) (Nat.not_le_of_lt above)

theorem step_traced (traced : Traced a) : Traced (a.step kindStr event) := by
  cases event with
  | event event =>
    refine ⟨step_rising traced.rising,?_⟩
    intro row member
    obtain ⟨rows,longer⟩ := step_log a.system kindStr event
    simp only [Archive.step,longer,List.drop_left,List.mem_append] at member ⊢
    exact member.imp_left (traced.logged row)
  | trim nowMs windowSecs capacity =>
    refine ⟨traced.rising.fewer ?_ (Nat.le_refl _),?_⟩
    · exact List.filter_sublist.append_right _
    · intro row member
      exact traced.logged row (List.mem_of_mem_filter member)
  | restart => exact ⟨restart_rising traced.rising,traced.logged⟩

theorem trim_mem : row ∈ trimHappeningsLog log nowMs windowSecs capacity ↔
    row ∈ log ∧ trimmed (η := η) log nowMs windowSecs capacity row = false := by
  simp [trimHappeningsLog]

theorem head_least {log : List (PersistedHappening η)} (ascending : log.Pairwise fun a b => a.seq < b.seq)
    (first : log = row::rest) (member : other ∈ log) : row.seq ≤ other.seq := by
  subst first
  rcases List.mem_cons.mp member with rfl | later
  · exact Nat.le_refl _
  · exact Nat.le_of_lt ((List.pairwise_cons.mp ascending).1 other later)

section Trim
variable {nowMs windowSecs capacity : Nat}

theorem trim_lets (traced : Traced a) (tail : Tail a.system (trimmed a.system.bus.log nowMs windowSecs capacity))
    (lets : Lets (a.step kindStr (.trim nowMs windowSecs capacity)).system cursor) : Lets a.system cursor := by
  rcases lets with free | acked
  · left
    rw [refused_false (step_traced traced).rising] at free
    rw [refused_false traced.rising]
    intro row rest first
    have member : row ∈ a.system.bus.log := by simp [first]
    have kept : ∃ other,other ∈ trimHappeningsLog a.system.bus.log nowMs windowSecs capacity := by
      cases gone : trimmed a.system.bus.log nowMs windowSecs capacity row with
      | false => exact ⟨row,trim_mem.mpr ⟨member,gone⟩⟩
      | true =>
        obtain ⟨other,there,stays⟩ := tail.leaves row member gone
        exact ⟨other,trim_mem.mpr ⟨there,stays⟩⟩
    obtain ⟨other,there⟩ := kept
    obtain ⟨least,others,log⟩ := List.exists_cons_of_ne_nil (List.ne_nil_of_mem there)
    have listed : least ∈ a.system.bus.log := (trim_mem.mp (by rw [log]; exact List.mem_cons_self)).1
    exact Nat.le_trans (head_least traced.rising.log_ascending first listed) (free least others log)
  · exact .inr acked

theorem trim_passed (traced : Traced a) (tail : Tail a.system (trimmed a.system.bus.log nowMs windowSecs capacity))
    (member : row ∈ a.system.bus.log) (gone : trimmed a.system.bus.log nowMs windowSecs capacity row = true)
    (lets : Lets (a.step kindStr (.trim nowMs windowSecs capacity)).system cursor) : row.seq ≤ cursor := by
  rcases lets with free | ⟨sub,among,acked,since⟩
  · rw [refused_false (step_traced traced).rising] at free
    obtain ⟨other,there,stays⟩ := tail.leaves row member gone
    have kept := trim_mem.mpr ⟨there,stays⟩
    obtain ⟨least,others,log⟩ := List.exists_cons_of_ne_nil (List.ne_nil_of_mem kept)
    obtain ⟨listed,least_stays⟩ := trim_mem.mp (log ▸ List.mem_cons_self : least ∈ trimHappeningsLog a.system.bus.log _ _ _)
    have lower := tail.below row least member gone listed least_stays
    exact Nat.le_trans (Nat.le_of_lt lower) (free least others log)
  · exact tail.unasked row sub cursor member gone among acked since

theorem trim_honest (traced : Traced a) (honest : Honest a)
    (tail : Tail a.system (trimmed a.system.bus.log nowMs windowSecs capacity)) :
    Honest (a.step kindStr (.trim nowMs windowSecs capacity)) := by
  obtain ⟨passed,fits⟩ := (honest_iff traced).mp honest
  refine (honest_iff (step_traced traced)).mpr ⟨?_,?_⟩
  · intro row known absent cursor lets
    by_cases member : row ∈ a.system.bus.log
    · apply trim_passed traced tail member ?_ lets
      exact Bool.eq_true_of_not_eq_false fun stays => absent (trim_mem.mpr ⟨member,stays⟩)
    · exact passed row known member cursor (trim_lets traced tail lets)
  · intro cursor lets ⟨row,member,above⟩
    have before := fits cursor (trim_lets traced tail lets) ⟨row,(trim_mem.mp member).1,above⟩
    exact Nat.le_trans (List.filter_sublist.filter _).length_le before

theorem trim_needs (traced : Traced a) (honest : Honest (a.step kindStr (.trim nowMs windowSecs capacity))) :
    Tail a.system (trimmed a.system.bus.log nowMs windowSecs capacity) := by
  have after : Traced (a.step kindStr (.trim nowMs windowSecs capacity)) := step_traced traced
  have passed := ((honest_iff after).mp honest).1
  have lost (row : PersistedHappening η) (member : row ∈ a.system.bus.log)
      (gone : trimmed a.system.bus.log nowMs windowSecs capacity row = true) :
      row ∉ trimHappeningsLog a.system.bus.log nowMs windowSecs capacity := by
    intro kept
    simp [(trim_mem.mp kept).2] at gone
  refine ⟨?_,?_,?_⟩
  · intro row member gone
    cases log : trimHappeningsLog a.system.bus.log nowMs windowSecs capacity with
    | nil =>
      have open_ : Lets (a.step kindStr (.trim nowMs windowSecs capacity)).system 0 := by
        left
        rw [refused_false after.rising]
        intro first rest there
        cases log.symm.trans there
      have low := passed row (traced.logged row member) (lost row member gone) 0 open_
      have positive := (traced.rising.log_range member).1
      omega
    | cons other rest =>
      refine ⟨other,trim_mem.mp ?_⟩
      rw [log]
      exact List.mem_cons_self
  · intro row other member gone there stays
    have kept := trim_mem.mpr ⟨there,stays⟩
    obtain ⟨least,others,log⟩ := List.exists_cons_of_ne_nil (List.ne_nil_of_mem kept)
    have open_ : Lets (a.step kindStr (.trim nowMs windowSecs capacity)).system least.seq := by
      left
      rw [refused_false after.rising]
      intro first rest same
      cases log.symm.trans same
      exact Nat.le_refl _
    have low := passed row (traced.logged row member) (lost row member gone) least.seq open_
    have least_ := head_least after.rising.log_ascending log kept
    have distinct : row.seq ≠ other.seq := by
      intro same
      have equal := List.inj_on_of_nodup_map (ascending_distinct traced.rising.log_ascending) member there same
      rw [equal,stays] at gone
      cases gone
    omega
  · intro row sub cursor member gone among acked since
    exact passed row (traced.logged row member) (lost row member gone) cursor (.inr ⟨sub,among,acked,since⟩)

end Trim

theorem event_honest (traced : Traced a) (honest : Honest a) (fits : KeepsWindow kindStr a (.event event)) :
    Honest (a.step kindStr (.event event)) := by
  have passed := ((honest_iff traced).mp honest).1
  refine (honest_iff (step_traced traced)).mpr ⟨?_,fits⟩
  intro row known absent cursor lets
  obtain ⟨rows,longer⟩ := step_log a.system kindStr event
  simp only [Archive.step,longer,List.drop_left,List.mem_append,not_or] at known absent
  rcases known with old | new
  · exact passed row old absent.1 cursor (step_lets traced.rising lets)
  · exact absurd new absent.2

theorem restart_lets (lets : Lets (a.step kindStr .restart).system cursor) : Lets a.system cursor := by
  rcases lets with free | ⟨sub,member,_⟩
  · exact .inl free
  · cases member

theorem step_honest (traced : Traced a) (honest : Honest a) (keeps : KeepsWindow kindStr a event) :
    Honest (a.step kindStr event) := by
  cases event with
  | event event => exact event_honest traced honest keeps
  | trim nowMs windowSecs capacity => exact trim_honest traced honest keeps
  | restart =>
    obtain ⟨passed,fits⟩ := (honest_iff traced).mp honest
    refine (honest_iff (step_traced traced)).mpr ⟨?_,?_⟩
    · exact fun row known absent cursor lets => passed row known absent cursor (restart_lets lets)
    · exact fun cursor lets => fits cursor (restart_lets lets)

theorem step_needs (traced : Traced a) (honest : Honest (a.step kindStr event)) : KeepsWindow kindStr a event := by
  cases event with
  | event event => exact ((honest_iff (step_traced traced)).mp honest).2
  | trim nowMs windowSecs capacity => exact trim_needs traced honest
  | restart => trivial

theorem booted_traced : Traced (Archive.booted η) := by
  refine ⟨⟨?_,?_,?_⟩,?_⟩
  · exact .nil
  · intro row member
    cases member
  · exact Nat.succ_pos _
  · intro row member
    cases member

theorem booted_honest : Honest (Archive.booted η) := by
  apply (honest_iff booted_traced).mpr
  refine ⟨?_,?_⟩
  · intro row known
    cases known
  · intro cursor lets ⟨row,member,above⟩
    cases member

theorem replay_honest_exactly (events : List (Upkeep η)) :
    Throughout (Archive.step kindStr) Honest (Archive.booted η) events ↔
      Guarded (Archive.step kindStr) (KeepsWindow kindStr) (Archive.booted η) events := by
  apply throughout_strong fun a => Traced a ∧ Honest a
  · exact fun a held => held.2
  · exact fun a event held keeps => ⟨step_traced held.1,step_honest held.1 held.2 keeps⟩
  · exact fun a event held honest => step_needs held.1 honest
  · exact ⟨booted_traced,booted_honest⟩

def emitted (kind : String) (atMs : Nat) : List (Upkeep String) :=
  [.emitDurable kind atMs,.record true,.broadcast,.broadcast].map fun event => .event (.emits event)

-- A sticky row that outlives the rows after it holds the window open; an emptied log has no window.
def stickyRun : List (Upkeep String) :=
  emitted "plugin_admission_skipped" 1000 ++ emitted "custody_taken" 1001 ++ emitted "custody_released" 1002 ++
    [Upkeep.trim 2000 3600 1]

def agedRun : List (Upkeep String) := emitted "custody_taken" 1000 ++ [Upkeep.trim 4000 1 1024]

theorem trimmed_rows_missed :
    ¬ Honest (run (Archive.step fun kind => kind) (Archive.booted String) stickyRun) ∧
      ¬ Honest (run (Archive.step fun kind => kind) (Archive.booted String) agedRun) := by
  refine ⟨?_,?_⟩
  · intro honest
    have replays := honest_replays.mp honest 1 (.inl (by decide)) ⟨2,"custody_taken","custody_taken",1001⟩
    exact absurd (replays (by decide) (by decide)) (by decide)
  · intro honest
    have replays := honest_replays.mp honest 0 (.inl (by decide)) ⟨1,"custody_taken","custody_taken",1000⟩
    exact absurd (replays (by decide) (by decide)) (by decide)

end EvoCore.ReplayWindow
