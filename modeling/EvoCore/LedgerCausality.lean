import EvoCore.LedgerOrder

namespace EvoCore.Ledger.Order
open EvoCore.Ledger Runs Tables

section
variable {backend : Backend} {crypto : CryptographicServices} {toJson : WithdrawalEntry → String} {entries later : Entries}
  {s after : Steward} {task next : Task} {i : Nat} {ledgerId entryId : String} {ms last now : UInt64} {entry record : PersistedLedgerEntry}

-- From here on the backend's order of timestamps is not theirs.
def ceiling : Backend → Nat
  | .memory => 2^64
  | .sqlite => 2^63

theorem order_below (below : ms.toNat < ceiling backend) : backend.order ms = ms.toNat := by
  cases backend with
  | memory => rfl
  | sqlite => exact if_pos below

theorem order_top (backend : Backend) (first : UInt64) (rest : List UInt64) :
    rest.foldl (fun top ms => if backend.order top < backend.order ms then ms else top) first ∈ first::rest ∧
    ∀ ms ∈ first::rest,backend.order ms ≤
      backend.order (rest.foldl (fun top ms => if backend.order top < backend.order ms then ms else top) first) := by
  induction rest generalizing first with
  | nil => simp
  | cons second rest ih =>
    rw [List.foldl_cons]
    split
    · rename_i greater
      obtain ⟨member,bounds⟩ := ih second
      refine ⟨List.mem_cons_of_mem _ member,?_⟩
      intro ms among
      rcases List.mem_cons.mp among with rfl | among
      · exact greater.le.trans (bounds second List.mem_cons_self)
      · exact bounds ms among
    · rename_i least
      obtain ⟨member,bounds⟩ := ih first
      constructor
      · rcases List.mem_cons.mp member with same | among
        · rw [same]
          exact List.mem_cons_self
        · exact List.mem_cons_of_mem _ (List.mem_cons_of_mem _ among)
      · intro ms among
        rcases List.mem_cons.mp among with rfl | among
        · exact bounds ms List.mem_cons_self
        · rcases List.mem_cons.mp among with rfl | among
          · exact (not_lt.mp least).trans (bounds first List.mem_cons_self)
          · exact bounds ms (List.mem_cons_of_mem _ among)

def Stored (entries : Entries) (ledgerId : String) (ms : UInt64) : Prop :=
  ∃ entryId entry,get entries entryId = some entry ∧ entry.ledgerId = ledgerId ∧ entry.createdAtMs = ms

theorem mem_timestamps : ms ∈ timestamps entries ledgerId ↔ Stored entries ledgerId ms := by
  simp only [timestamps,List.mem_map,List.mem_filter,decide_eq_true_eq,Stored]
  constructor
  · rintro ⟨entry,⟨⟨⟨entryId,_⟩,member,rfl⟩,inLedger⟩,stamped⟩
    exact ⟨entryId,_,(entries_get entries).mp member,inLedger,stamped⟩
  · rintro ⟨entryId,entry,there,inLedger,stamped⟩
    exact ⟨entry,⟨⟨⟨entryId,entry⟩,(entries_get entries).mpr there,rfl⟩,inLedger⟩,stamped⟩

-- The rows of the store: below the ceiling, apart in their ledger, and signed.
structure Rows (backend : Backend) (crypto : CryptographicServices) (entries : Entries) : Prop where
  below : ∀ ledgerId ms,Stored entries ledgerId ms → ms.toNat < ceiling backend
  distinct : ∀ one two entry other,get entries one = some entry → get entries two = some other →
    entry.ledgerId = other.ledgerId → entry.createdAtMs = other.createdAtMs → one = two
  verified : ∀ entryId entry,get entries entryId = some entry → verifyEntry crypto entry = true

theorem query_top (rows : Rows backend crypto entries) (stored : Stored entries ledgerId ms) :
    ms.toNat ≤ (queryMaxCreatedAtMsForLedger backend entries ledgerId).toNat := by
  have member := mem_timestamps.mpr stored
  unfold queryMaxCreatedAtMsForLedger
  cases listed : timestamps entries ledgerId with
  | nil =>
    rw [listed] at member
    cases member
  | cons first rest =>
    rw [listed] at member
    obtain ⟨among,bounds⟩ := order_top backend first rest
    have bound := bounds ms member
    rw [← listed] at among
    rw [order_below (rows.below ledgerId ms stored),order_below (rows.below ledgerId _ (mem_timestamps.mp among))] at bound
    exact_mod_cast bound

-- A timestamp given out: its row is stored, or on the way.
def Out (s : Steward) (ledgerId : String) (ms : UInt64) : Prop :=
  Stored s.entries ledgerId ms ∨
    ∃ (j : Nat) (task : Task) (record : PersistedLedgerEntry),s.tasks[j]? = some task ∧ task.phase = .writing record ∧
      record.ledgerId = ledgerId ∧ record.createdAtMs = ms

def Covers (s : Steward) (ledgerId : String) (last : UInt64) : Prop := ∀ ms,Out s ledgerId ms → ms.toNat ≤ last.toNat

def TaskSafe (backend : Backend) (crypto : CryptographicServices) (s : Steward) (i : Nat) (task : Task) : Prop :=
  match task.phase with
  | .seeding => s.lock = some i ∧ get s.floor task.draft.ledgerId = none
  | .seeded last => s.lock = some i ∧ get s.floor task.draft.ledgerId = none ∧ Covers s task.draft.ledgerId last
  | .writing record =>
    (∃ ms,record = task.draft.record crypto ms) ∧ record.createdAtMs.toNat < ceiling backend ∧
      (get s.floor record.ledgerId).isSome ∧ ¬Stored s.entries record.ledgerId record.createdAtMs
  | _ => True

structure Safe (backend : Backend) (crypto : CryptographicServices) (s : Steward) : Prop where
  rows : Rows backend crypto s.entries
  floors : ∀ ledgerId last,get s.floor ledgerId = some last → Covers s ledgerId last
  tasks : ∀ (i : Nat) (task : Task),s.tasks[i]? = some task → TaskSafe backend crypto s i task
  appended : ∀ (i : Nat) (task : Task),s.tasks[i]? = some task → task.appended = true →
    ∃ entry,get s.entries task.draft.entryId = some entry ∧ entry.ledgerId = task.draft.ledgerId
  apart : ∀ (i j : Nat) (left right : Task) (one two : PersistedLedgerEntry),s.tasks[i]? = some left → s.tasks[j]? = some right →
    i ≠ j → left.phase = .writing one → right.phase = .writing two → one.ledgerId = two.ledgerId → one.createdAtMs ≠ two.createdAtMs

-- A step of one call that gives out no timestamp.
structure Calm (backend : Backend) (crypto : CryptographicServices) (s after : Steward) (i : Nat) (task : Task) (change : Task → Task) :
    Prop where
  tasks : after.tasks = s.tasks.modify i change
  idle : ∀ record,(change task).phase ≠ .writing record
  rows : Rows backend crypto after.entries
  stored : ∀ ledgerId ms,Stored after.entries ledgerId ms → Stored s.entries ledgerId ms ∨
    ∃ record,task.phase = .writing record ∧ record.ledgerId = ledgerId ∧ record.createdAtMs = ms
  keeps : ∀ entryId entry,get s.entries entryId = some entry →
    ∃ next,get after.entries entryId = some next ∧ next.ledgerId = entry.ledgerId ∧ next.createdAtMs = entry.createdAtMs
  floor : after.floor = s.floor
  lock : ∀ j,j ≠ i → s.lock = some j → after.lock = some j
  own : (∀ ledgerId last,Covers s ledgerId last → Covers after ledgerId last) → TaskSafe backend crypto after i (change task)
  draft : (change task).draft = task.draft
  appended : (change task).appended = true → task.appended = true ∨
    ∃ record,task.phase = .writing record ∧ get after.entries task.draft.entryId = some record

theorem calm_out (there : s.tasks[i]? = some task) (calm : Calm backend crypto s after i task change) (out : Out after ledgerId ms) :
    Out s ledgerId ms := by
  obtain stored | ⟨j,moved,record,found,writing,facts⟩ := out
  · obtain before | ⟨record,writing,facts⟩ := calm.stored ledgerId ms stored
    · exact .inl before
    · exact .inr ⟨i,task,record,there,writing,facts⟩
  · rw [calm.tasks] at found
    obtain ⟨old,before,rfl⟩ := modify_cases found
    split at writing
    · rename_i same
      subst same
      cases before.symm.trans there
      exact absurd writing (calm.idle record)
    · exact .inr ⟨j,old,record,before,writing,facts⟩

theorem safe_calm (safe : Safe backend crypto s) (there : s.tasks[i]? = some task)
    (calm : Calm backend crypto s after i task change) : Safe backend crypto after := by
  have covers : ∀ ledgerId last,Covers s ledgerId last → Covers after ledgerId last :=
    fun ledgerId last covers ms out => covers ms (calm_out there calm out)
  have keeps : ∀ (j : Nat) (old : Task),s.tasks[j]? = some old → old.appended = true →
      ∃ entry,get after.entries old.draft.entryId = some entry ∧ entry.ledgerId = old.draft.ledgerId := by
    intro j old before stored
    obtain ⟨entry,row,inLedger⟩ := safe.appended j old before stored
    obtain ⟨next,final,same,-⟩ := calm.keeps _ entry row
    exact ⟨next,final,same.trans inLedger⟩
  refine ⟨calm.rows,?_,?_,?_,?_⟩
  · intro ledgerId last floor
    rw [calm.floor] at floor
    exact covers ledgerId last (safe.floors ledgerId last floor)
  · intro j moved found
    rw [calm.tasks] at found
    obtain ⟨old,before,rfl⟩ := modify_cases found
    split
    · rename_i same
      subst same
      cases before.symm.trans there
      exact calm.own covers
    · rename_i different
      have sound := safe.tasks j old before
      unfold TaskSafe at sound ⊢
      cases at_ : old.phase with
      | seeding =>
        rw [at_] at sound
        exact ⟨calm.lock j (Ne.symm different) sound.1,calm.floor ▸ sound.2⟩
      | seeded last =>
        rw [at_] at sound
        exact ⟨calm.lock j (Ne.symm different) sound.1,calm.floor ▸ sound.2.1,covers _ last sound.2.2⟩
      | writing record =>
        rw [at_] at sound
        refine ⟨sound.1,sound.2.1,calm.floor ▸ sound.2.2.1,?_⟩
        intro stored
        obtain before_ | ⟨other,writing,ledger,stamp⟩ := calm.stored _ _ stored
        · exact sound.2.2.2 before_
        · exact safe.apart i j task old other record there before different writing at_ ledger stamp
      | _ => trivial
  · intro j moved found stored
    rw [calm.tasks] at found
    obtain ⟨old,before,rfl⟩ := modify_cases found
    split at stored
    · rename_i same
      subst same
      cases before.symm.trans there
      rw [if_pos rfl,calm.draft]
      obtain already | ⟨record,writing,row⟩ := calm.appended stored
      · exact keeps i task there already
      · have sound := safe.tasks i task there
        unfold TaskSafe at sound
        rw [writing] at sound
        obtain ⟨⟨ms,rfl⟩,-⟩ := sound
        exact ⟨_,row,rfl⟩
    · rename_i different
      rw [if_neg different]
      exact keeps j old before stored
  · intro j k left right one two found also different first second
    rw [calm.tasks] at found also
    obtain ⟨old,before,rfl⟩ := modify_cases found
    obtain ⟨mate,beside,rfl⟩ := modify_cases also
    split at first
    · rename_i same
      subst same
      cases before.symm.trans there
      exact absurd first (calm.idle one)
    · split at second
      · rename_i same
        subst same
        cases beside.symm.trans there
        exact absurd second (calm.idle two)
      · exact safe.apart j k old mate one two before beside different first second

theorem max_toNat (a b : UInt64) : (max a b).toNat = max a.toNat b.toNat := by
  change (if a ≤ b then b else a).toNat = _
  split
  · rename_i le
    exact (max_eq_right (UInt64.le_iff_toNat_le.mp le)).symm
  · rename_i greater
    exact (max_eq_left (Nat.le_of_lt (Nat.lt_of_not_le fun le => greater (UInt64.le_iff_toNat_le.mpr le)))).symm

theorem ceiling_word (backend : Backend) : ceiling backend ≤ 2^64 := by
  cases backend <;> decide

-- Below the ceiling the timestamp picked is above the last.
def Clear (backend : Backend) (last now : UInt64) : Prop := now.toNat < ceiling backend ∧ last.toNat+1 < ceiling backend

theorem pick_above (clear : Clear backend last now) :
    last.toNat < (pick floor ledgerId last now).2.toNat ∧ (pick floor ledgerId last now).2.toNat < ceiling backend := by
  obtain ⟨clock,room⟩ := clear
  have word := ceiling_word backend
  have next : (last+1).toNat = last.toNat+1 := by
    rw [UInt64.toNat_add]
    exact Nat.mod_eq_of_lt (by simp; omega)
  have picked : (pick floor ledgerId last now).2.toNat = max now.toNat (last.toNat+1) := by
    rw [← next]
    exact max_toNat now (last+1)
  omega

theorem pick_out (out : Out { (s.picks crypto task last now).1 with
      tasks := s.tasks.modify i fun _ => (s.picks crypto task last now).2 } ledgerId ms) :
    Out s ledgerId ms ∨ (ledgerId = task.draft.ledgerId ∧ ms = (pick s.floor task.draft.ledgerId last now).2) := by
  obtain stored | ⟨j,moved,record,found,writing,inLedger,stamped⟩ := out
  · exact .inl (.inl stored)
  · obtain ⟨old,before,rfl⟩ := modify_cases found
    split at writing
    · cases writing
      exact .inr ⟨inLedger.symm,stamped.symm⟩
    · exact .inl (.inr ⟨j,old,record,before,writing,inLedger,stamped⟩)

theorem safe_pick (safe : Safe backend crypto s) (there : s.tasks[i]? = some task) (free : ∀ j,j ≠ i → s.lock ≠ some j)
    (covers : Covers s task.draft.ledgerId last) (clear : Clear backend last now) :
    Safe backend crypto { (s.picks crypto task last now).1 with
      tasks := s.tasks.modify i fun _ => (s.picks crypto task last now).2 } := by
  obtain ⟨above,room⟩ : last.toNat < (pick s.floor task.draft.ledgerId last now).2.toNat ∧
    (pick s.floor task.draft.ledgerId last now).2.toNat < ceiling backend := pick_above clear
  have floors : ∀ ledgerId,get (pick s.floor task.draft.ledgerId last now).1 ledgerId =
      if ledgerId = task.draft.ledgerId then some (pick s.floor task.draft.ledgerId last now).2 else get s.floor ledgerId :=
    fun _ => get_insert _
  have fresh : ¬Stored s.entries task.draft.ledgerId (pick s.floor task.draft.ledgerId last now).2 := by
    intro stored
    exact absurd (covers _ (.inl stored)) (Nat.not_le.mpr above)
  refine ⟨safe.rows,?_,?_,?_,?_⟩
  · intro ledgerId floor at_ ms out
    change get (pick s.floor task.draft.ledgerId last now).1 ledgerId = some floor at at_
    rw [floors] at at_
    split at at_
    · rename_i same
      subst same
      cases at_
      obtain before | ⟨-,rfl⟩ := pick_out out
      · exact (covers ms before).trans above.le
      · exact le_rfl
    · rename_i other
      obtain before | ⟨same,-⟩ := pick_out out
      · exact safe.floors ledgerId floor at_ ms before
      · exact absurd same other
  · intro j moved found
    obtain ⟨old,before,rfl⟩ := modify_cases found
    split
    · refine ⟨⟨_,rfl⟩,room,?_,fresh⟩
      change (get (pick s.floor task.draft.ledgerId last now).1 task.draft.ledgerId).isSome
      rw [floors,if_pos rfl]
      rfl
    · rename_i different
      have sound := safe.tasks j old before
      unfold TaskSafe at sound ⊢
      cases at_ : old.phase with
      | seeding =>
        rw [at_] at sound
        exact absurd sound.1 (free j (Ne.symm different))
      | seeded last =>
        rw [at_] at sound
        exact absurd sound.1 (free j (Ne.symm different))
      | writing record =>
        rw [at_] at sound
        refine ⟨sound.1,sound.2.1,?_,sound.2.2.2⟩
        change (get (pick s.floor task.draft.ledgerId last now).1 record.ledgerId).isSome
        rw [floors]
        split
        · rfl
        · exact sound.2.2.1
      | _ => trivial
  · intro j moved found stored
    obtain ⟨old,before,rfl⟩ := modify_cases found
    split at stored
    · rename_i same
      subst same
      cases before.symm.trans there
      rw [if_pos rfl]
      exact safe.appended i task there stored
    · rename_i different
      rw [if_neg different]
      exact safe.appended j old before stored
  · have apart : ∀ (j : Nat) (old : Task) (record : PersistedLedgerEntry),s.tasks[j]? = some old → old.phase = .writing record →
        record.ledgerId = task.draft.ledgerId → record.createdAtMs ≠ (pick s.floor task.draft.ledgerId last now).2 := by
      intro j old record before writing ledger same
      have bound := covers record.createdAtMs (.inr ⟨j,old,record,before,writing,ledger,rfl⟩)
      rw [same] at bound
      exact absurd bound (Nat.not_le.mpr above)
    intro j k left right one two found also different first second ledgers
    obtain ⟨old,before,rfl⟩ := modify_cases found
    obtain ⟨mate,beside,rfl⟩ := modify_cases also
    split at first
    · rename_i mine
      cases first
      rw [if_neg fun same => different (mine.symm.trans same)] at second
      exact (apart k mate two beside second ledgers.symm).symm
    · split at second
      · cases second
        exact apart j old one before first ledgers
      · exact safe.apart j k old mate one two before beside different first second ledgers

inductive Turn (backend : Backend) (crypto : CryptographicServices) (s : Steward) (i : Nat) : Steward → Prop where
  | still : Turn backend crypto s i s
  | calm {mine : Task} {change : Task → Task} {after_ : Steward} : s.tasks[i]? = some mine →
    Calm backend crypto s after_ i mine change → Turn backend crypto s i after_
  | pick {mine : Task} {top clock : UInt64} : s.tasks[i]? = some mine → (∀ j,j ≠ i → s.lock ≠ some j) →
    Covers s mine.draft.ledgerId top → Clear backend top clock →
    Turn backend crypto s i
      { (s.picks crypto mine top clock).1 with tasks := s.tasks.modify i fun _ => (s.picks crypto mine top clock).2 }

theorem safe_turn (safe : Safe backend crypto s) (turn : Turn backend crypto s i after) : Safe backend crypto after := by
  cases turn with
  | still => exact safe
  | calm there calm => exact safe_calm safe there calm
  | pick there free covers clear => exact safe_pick safe there free covers clear

theorem turn_aside (safe : Safe backend crypto s) (there : s.tasks[i]? = some task)
    (idle : ∀ record,(change task).phase ≠ .writing record) (draft : (change task).draft = task.draft)
    (flag : (change task).appended = task.appended) (lock_ : ∀ j,j ≠ i → s.lock = some j → lock = some j)
    (own : (∀ ledgerId last,Covers s ledgerId last → Covers ⟨s.entries,s.floor,lock,s.tasks.modify i change⟩ ledgerId last) →
      TaskSafe backend crypto ⟨s.entries,s.floor,lock,s.tasks.modify i change⟩ i (change task)) :
    Turn backend crypto s i ⟨s.entries,s.floor,lock,s.tasks.modify i change⟩ :=
  .calm there ⟨rfl,idle,safe.rows,fun _ _ stored => .inl stored,fun _ entry row => ⟨entry,row,rfl,rfl⟩,rfl,lock_,own,draft,
    fun appended => .inl (flag ▸ appended)⟩

theorem stored_insert (stored : Stored (entries.insert entryId record) ledgerId ms) :
    Stored entries ledgerId ms ∨ (record.ledgerId = ledgerId ∧ record.createdAtMs = ms) := by
  obtain ⟨one,entry,there,inLedger,stamped⟩ := stored
  rw [get_insert] at there
  split at there
  · cases there
    exact .inr ⟨inLedger,stamped⟩
  · exact .inl ⟨one,entry,there,inLedger,stamped⟩

theorem rows_insert (rows : Rows backend crypto entries) (below : record.createdAtMs.toNat < ceiling backend)
    (unstored : ¬Stored entries record.ledgerId record.createdAtMs) (signed : verifyEntry crypto record = true) :
    Rows backend crypto (entries.insert entryId record) where
  below ledgerId ms stored := by
    obtain before | ⟨-,rfl⟩ := stored_insert stored
    · exact rows.below ledgerId ms before
    · exact below
  distinct one two entry other there also ledgers stamps := by
    rw [get_insert] at there also
    split at there
    · rename_i first
      cases there
      split at also
      · rename_i second
        exact first.trans second.symm
      · exact absurd ⟨two,other,also,ledgers.symm,stamps.symm⟩ unstored
    · split at also
      · cases also
        exact absurd ⟨one,entry,there,ledgers,stamps⟩ unstored
      · exact rows.distinct one two entry other there also ledgers stamps
  verified one entry there := by
    rw [get_insert] at there
    split at there
    · cases there
      exact signed
    · exact rows.verified one entry there

-- A link is in none of the columns that order and signature rest on.
theorem link_row (crypto : CryptographicServices) (found : get entries originalEntryId = some original)
    (there : get (entries.insert originalEntryId { original with withdrawnByEntryId := some withdrawal }) entryId = some entry) :
    ∃ old,get entries entryId = some old ∧ entry.ledgerId = old.ledgerId ∧ entry.createdAtMs = old.createdAtMs ∧
      verifyEntry crypto entry = verifyEntry crypto old := by
  rw [get_insert] at there
  split at there
  · rename_i same
    subst same
    cases there
    exact ⟨original,found,rfl,rfl,rfl⟩
  · exact ⟨entry,there,rfl,rfl,rfl⟩

theorem stored_link (found : get entries originalEntryId = some original)
    (stored : Stored (entries.insert originalEntryId { original with withdrawnByEntryId := some withdrawal }) ledgerId ms) :
    Stored entries ledgerId ms := by
  obtain ⟨one,entry,there,inLedger,stamped⟩ := stored
  obtain ⟨old,before,ledger,stamp,-⟩ := link_row noOpCryptographicServices found there
  exact ⟨one,old,before,ledger ▸ inLedger,stamp ▸ stamped⟩

theorem rows_link (rows : Rows backend crypto entries) (found : get entries originalEntryId = some original) :
    Rows backend crypto (entries.insert originalEntryId { original with withdrawnByEntryId := some withdrawal }) where
  below ledgerId ms stored := rows.below ledgerId ms (stored_link found stored)
  distinct one two entry other there also ledgers stamps := by
    obtain ⟨old,before,ledger,stamp,-⟩ := link_row crypto found there
    obtain ⟨mate,beside,itsLedger,itsStamp,-⟩ := link_row crypto found also
    exact rows.distinct one two old mate before beside (ledger ▸ itsLedger ▸ ledgers) (stamp ▸ itsStamp ▸ stamps)
  verified one entry there := by
    obtain ⟨old,before,-,-,same⟩ := link_row crypto found there
    rw [same]
    exact rows.verified one old before

-- The timestamp below the one that a step picks.
def mints (s : Steward) (task : Task) : Option UInt64 :=
  match task.phase with
  | .minting => if s.lock.isSome then none else get s.floor task.draft.ledgerId
  | .seeded last => some last
  | _ => none

def clear (backend : Backend) (s : Steward) : Action → Bool
  | .advance i env => (s.tasks[i]?.bind (mints s)).all fun last => env.now.toNat < ceiling backend && last.toNat+1 < ceiling backend
  | _ => true

theorem clear_mints (met : clear backend s (.advance i env) = true) (there : s.tasks[i]? = some task) (picks : mints s task = some last) :
    Clear backend last env.now := by
  simpa [clear,there,picks,Clear] using met

theorem turn_minting (safe : Safe backend crypto s) (there : s.tasks[i]? = some task) (at_ : task.phase = .minting)
    (met : clear backend s (.advance i env) = true) : Turn backend crypto s i
      { (advanceTask backend crypto s i task env).1 with
        tasks := s.tasks.modify i fun _ => (advanceTask backend crypto s i task env).2 } := by
  unfold advanceTask
  rw [at_]
  dsimp only
  split
  · rw [modify_fixed fun old found => Option.some.inj (there.symm.trans found)]
    exact .still
  · rename_i open_
    have free : s.lock = none := by simpa using open_
    cases floor : get s.floor task.draft.ledgerId with
    | some last =>
      refine .pick there (fun j _ held => by rw [free] at held; cases held) (safe.floors _ last floor) ?_
      exact clear_mints met there (by simp [mints,at_,free,floor])
    | none =>
      dsimp only
      refine turn_aside safe there (fun _ writing => by cases writing) rfl rfl ?_ fun _ => ⟨rfl,floor⟩
      intro j _ held
      rw [free] at held
      cases held

theorem turn_seeding (safe : Safe backend crypto s) (there : s.tasks[i]? = some task) (at_ : task.phase = .seeding) :
    Turn backend crypto s i
      { (advanceTask backend crypto s i task env).1 with
        tasks := s.tasks.modify i fun _ => (advanceTask backend crypto s i task env).2 } := by
  have sound := safe.tasks i task there
  unfold TaskSafe at sound
  rw [at_] at sound
  obtain ⟨lock,floor⟩ := sound
  unfold advanceTask
  rw [at_]
  dsimp only
  split
  · dsimp only
    refine turn_aside safe there (fun _ writing => nomatch writing) rfl rfl ?_ fun _ => trivial
    intro j other held
    rw [lock] at held
    exact absurd (Option.some.inj held).symm other
  · refine turn_aside safe there (fun _ writing => nomatch writing) rfl rfl (fun _ _ held => held) fun covers => ⟨lock,floor,?_⟩
    -- While the floor is missing no row of the ledger is on its way.
    refine covers _ _ fun ms out => ?_
    obtain stored | ⟨j,mate,record,found,writing,ledger,-⟩ := out
    · exact query_top safe.rows stored
    · have other := safe.tasks j mate found
      unfold TaskSafe at other
      rw [writing] at other
      have present := other.2.2.1
      rw [ledger,floor] at present
      cases present

theorem turn_writing (honest : ∀ message,crypto.verify message (crypto.sign message) = true) (safe : Safe backend crypto s)
    (there : s.tasks[i]? = some task) (at_ : task.phase = .writing record) : Turn backend crypto s i
      { (advanceTask backend crypto s i task env).1 with
        tasks := s.tasks.modify i fun _ => (advanceTask backend crypto s i task env).2 } := by
  have sound := safe.tasks i task there
  unfold TaskSafe at sound
  rw [at_] at sound
  obtain ⟨⟨ms,rfl⟩,below,-,unstored⟩ := sound
  have refused (error : PersistenceError) : Turn backend crypto s i
      ⟨s.entries,s.floor,s.lock,s.tasks.modify i fun _ => task.returns (.error (.persistence error))⟩ :=
    turn_aside safe there (fun _ writing => nomatch writing) rfl rfl (fun _ _ held => held) fun _ => trivial
  unfold advanceTask
  rw [at_]
  dsimp only
  split
  · exact refused _
  · unfold appendLedgerEntry
    cases fresh : get s.entries (task.draft.record crypto ms).entryId with
    | some old => exact refused _
    | none =>
      dsimp only
      refine .calm there ⟨rfl,?_,rows_insert safe.rows below unstored (honest _),?_,?_,rfl,fun _ _ held => held,?_,rfl,?_⟩
      · intro record writing
        dsimp only at writing
        split at writing <;> cases writing
      · intro ledgerId stamp stored
        obtain before | facts := stored_insert stored
        · exact .inl before
        · exact .inr ⟨_,at_,facts⟩
      · intro entryId entry row
        exact ⟨entry,untouched_insert fresh entryId entry row,rfl,rfl⟩
      · intro _
        unfold TaskSafe
        dsimp only
        generalize task.original = original
        cases original <;> trivial
      · intro _
        refine .inr ⟨_,at_,?_⟩
        rw [get_insert]
        exact if_pos rfl

theorem turn_linking (safe : Safe backend crypto s) (there : s.tasks[i]? = some task) (at_ : task.phase = .linking) :
    Turn backend crypto s i
      { (advanceTask backend crypto s i task env).1 with
        tasks := s.tasks.modify i fun _ => (advanceTask backend crypto s i task env).2 } := by
  have aside (result : Except LedgerError String) :
      Turn backend crypto s i ⟨s.entries,s.floor,s.lock,s.tasks.modify i fun _ => task.returns result⟩ :=
    turn_aside safe there (fun _ writing => nomatch writing) rfl rfl (fun _ _ held => held) fun _ => trivial
  unfold advanceTask
  rw [at_]
  dsimp only
  split
  · exact aside _
  · split
    · exact aside _
    · rename_i later linked
      obtain rfl | ⟨original,found,free,rfl⟩ := link_store linked
      · exact aside _
      · dsimp only
        refine .calm there ⟨rfl,(fun _ writing => nomatch writing),rows_link safe.rows found,?_,?_,rfl,fun _ _ held => held,
          fun _ => trivial,rfl,fun appended => .inl appended⟩
        · exact fun _ _ stored => .inl (stored_link found stored)
        · intro entryId entry row
          obtain ⟨next,final,same,-⟩ : ∃ next,
              get (s.entries.insert (task.original.getD "") { original with withdrawnByEntryId := some task.draft.entryId }) entryId =
                some next ∧ Kept entry next := preserved_link found free entryId entry row
          have inLedger := congrArg PersistedLedgerEntry.ledgerId same
          have stamped := congrArg PersistedLedgerEntry.createdAtMs same
          exact ⟨next,final,inLedger,stamped⟩

theorem turn_advance (honest : ∀ message,crypto.verify message (crypto.sign message) = true) (safe : Safe backend crypto s)
    (met : clear backend s (.advance i env) = true) : Turn backend crypto s i (advance backend crypto s i env) := by
  unfold advance
  cases there : s.tasks[i]? with
  | none => exact .still
  | some task =>
    dsimp only
    cases at_ : task.phase with
    | minting => exact turn_minting safe there at_ met
    | seeding => exact turn_seeding safe there at_
    | seeded last =>
      have sound := safe.tasks i task there
      unfold TaskSafe at sound
      rw [at_] at sound
      obtain ⟨lock,-,covers⟩ := sound
      unfold advanceTask
      rw [at_]
      refine .pick there ?_ covers (clear_mints met there (by simp [mints,at_]))
      intro j other held
      rw [lock] at held
      exact other (Option.some.inj held).symm
    | writing record => exact turn_writing honest safe there at_
    | linking => exact turn_linking safe there at_
    | returned | dropped =>
      unfold advanceTask
      rw [at_]
      dsimp only
      rw [modify_fixed fun old found => Option.some.inj (there.symm.trans found)]
      exact .still

theorem drop_cases (task : Task) : (drop task).draft = task.draft ∧ (drop task).appended = task.appended ∧
    ((∃ result,(drop task).phase = .returned result) ∨ (drop task).phase = .dropped) := by
  unfold drop
  split
  · rename_i done
    refine ⟨rfl,rfl,.inl ?_⟩
    cases at_ : task.phase with
    | returned result => exact ⟨result,rfl⟩
    | _ =>
      rw [at_] at done
      cases done
  · exact ⟨rfl,rfl,.inr rfl⟩

theorem drop_idle (record : PersistedLedgerEntry) : (drop task).phase ≠ .writing record := by
  intro writing
  obtain ⟨-,-,⟨result,done⟩ | done⟩ := drop_cases task
  · cases done.symm.trans writing
  · cases done.symm.trans writing

theorem drop_safe : TaskSafe backend crypto s i (drop task) := by
  unfold TaskSafe
  obtain ⟨-,-,⟨result,done⟩ | done⟩ := drop_cases task
  · rw [done]
    trivial
  · rw [done]
    trivial

theorem turn_drop (safe : Safe backend crypto s) : Turn backend crypto s i (dropCall s i) := by
  unfold dropCall
  split
  · rename_i present
    obtain ⟨task,there⟩ := Option.isSome_iff_exists.mp present
    obtain ⟨draft,flag,-⟩ := drop_cases task
    refine turn_aside safe there drop_idle draft flag ?_ fun _ => drop_safe
    intro j other held
    rw [if_neg fun same => other (Option.some.inj (held.symm.trans same)),held]
  · exact .still

theorem restart_safe (safe : Safe backend crypto s) : Safe backend crypto (restart s) := by
  refine ⟨safe.rows,?_,?_,?_,?_⟩
  · intro ledgerId last floor
    simp [restart] at floor
  · intro j moved found
    obtain ⟨task,-,rfl⟩ := List.mem_map.mp (List.mem_of_getElem? found)
    exact drop_safe
  · intro j moved found appended
    simp only [restart,List.getElem?_map,Option.map_eq_some_iff] at found
    obtain ⟨task,before,rfl⟩ := found
    obtain ⟨draft,flag,-⟩ := drop_cases task
    rw [draft]
    exact safe.appended j task before (flag ▸ appended)
  · intro j k left right one two found _ _ writing
    obtain ⟨task,-,rfl⟩ := List.mem_map.mp (List.mem_of_getElem? found)
    exact absurd writing (drop_idle one)

theorem begin_cases : ((begin entryId ledgerId schemaVersion payload subjectPlugin original).phase = .minting ∨
      ∃ result,(begin entryId ledgerId schemaVersion payload subjectPlugin original).phase = .returned result) ∧
    (begin entryId ledgerId schemaVersion payload subjectPlugin original).appended = false := by
  unfold begin
  split
  · exact ⟨.inr ⟨_,rfl⟩,rfl⟩
  · cases payload with
    | none => exact ⟨.inr ⟨_,rfl⟩,rfl⟩
    | some payloadJson => exact ⟨.inl rfl,rfl⟩

theorem open_cases (toJson : WithdrawalEntry → String) (entryId : String) (ms : UInt64) (request : Call) :
    ((open_ toJson entryId ms request).phase = .minting ∨
      ∃ result,(open_ toJson entryId ms request).phase = .returned result) ∧ (open_ toJson entryId ms request).appended = false := by
  cases request <;> exact begin_cases

theorem call_safe (safe : Safe backend crypto s) (request : Call) :
    Safe backend crypto { s with tasks := s.tasks++[open_ toJson entryId ms request] } := by
  obtain ⟨phase,flag⟩ := open_cases toJson entryId ms request
  have idle : ∀ record,(open_ toJson entryId ms request).phase ≠ .writing record := by
    intro record writing
    obtain at_ | ⟨result,at_⟩ := phase
    · cases at_.symm.trans writing
    · cases at_.symm.trans writing
  have fewer : ∀ ledgerId stamp,Out { s with tasks := s.tasks++[open_ toJson entryId ms request] } ledgerId stamp →
      Out s ledgerId stamp := by
    intro ledgerId stamp out
    obtain stored | ⟨j,task,record,found,writing,facts⟩ := out
    · exact .inl stored
    · obtain before | ⟨-,rfl⟩ := append_cases found
      · exact .inr ⟨j,task,record,before,writing,facts⟩
      · exact absurd writing (idle record)
  have covers : ∀ ledgerId last,Covers s ledgerId last → Covers { s with tasks := s.tasks++[open_ toJson entryId ms request] }
      ledgerId last := fun ledgerId last covers stamp out => covers stamp (fewer ledgerId stamp out)
  refine ⟨safe.rows,?_,?_,?_,?_⟩
  · intro ledgerId last floor
    exact covers ledgerId last (safe.floors ledgerId last floor)
  · intro j task found
    obtain before | ⟨-,rfl⟩ := append_cases found
    · have sound := safe.tasks j task before
      unfold TaskSafe at sound ⊢
      cases at_ : task.phase with
      | seeded last =>
        rw [at_] at sound
        exact ⟨sound.1,sound.2.1,covers _ last sound.2.2⟩
      | _ =>
        rw [at_] at sound
        exact sound
    · unfold TaskSafe
      obtain at_ | ⟨result,at_⟩ := phase
      · rw [at_]
        trivial
      · rw [at_]
        trivial
  · intro j task found appended
    obtain before | ⟨-,rfl⟩ := append_cases found
    · exact safe.appended j task before appended
    · rw [flag] at appended
      cases appended
  · intro j k left right one two found also different first second
    obtain before | ⟨-,rfl⟩ := append_cases found
    · obtain beside | ⟨-,rfl⟩ := append_cases also
      · exact safe.apart j k left right one two before beside different first second
      · exact absurd second (idle two)
    · exact absurd first (idle one)

theorem step_safe (honest : ∀ message,crypto.verify message (crypto.sign message) = true) (safe : Safe backend crypto s)
    (met : clear backend s action = true) : Safe backend crypto (step backend crypto toJson s action) := by
  cases action with
  | call entryId withdrawnAtMs request => exact call_safe safe request
  | advance i env => exact safe_turn safe (turn_advance honest safe met)
  | drop i => exact safe_turn safe (turn_drop safe)
  | restart => exact restart_safe safe

theorem start_safe : Safe backend crypto start := by
  have none_ : ∀ ledgerId ms,¬Stored start.entries ledgerId ms := by
    rintro ledgerId ms ⟨entryId,entry,there,-⟩
    simp [start] at there
  refine ⟨⟨fun ledgerId ms stored => absurd stored (none_ ledgerId ms),?_,?_⟩,?_,?_,?_,?_⟩ <;> intros <;> simp_all [start]

-- Once a row of the ledger is stored, the calls from the n-th on get greater timestamps.
structure Later (entryId ledgerId : String) (ms : UInt64) (n : Nat) (s : Steward) : Prop where
  row : ∃ entry,get s.entries entryId = some entry ∧ entry.ledgerId = ledgerId ∧ entry.createdAtMs = ms
  under : ∀ (j : Nat) (task : Task),n ≤ j → s.tasks[j]? = some task → task.draft.ledgerId = ledgerId →
    ∀ record,task.phase = .writing record → ms.toNat < record.createdAtMs.toNat
  rows : ∀ (j : Nat) (task : Task),n ≤ j → s.tasks[j]? = some task → task.draft.ledgerId = ledgerId → task.appended = true →
    ∃ entry,get s.entries task.draft.entryId = some entry ∧ ms.toNat < entry.createdAtMs.toNat

theorem later_calm (later : Later entryId ledgerId ms n s) (there : s.tasks[i]? = some task)
    (calm : Calm backend crypto s after i task change) : Later entryId ledgerId ms n after := by
  have keeps : ∀ (j : Nat) (old : Task),n ≤ j → s.tasks[j]? = some old → old.draft.ledgerId = ledgerId → old.appended = true →
      ∃ entry,get after.entries old.draft.entryId = some entry ∧ ms.toNat < entry.createdAtMs.toNat := by
    intro j old beyond before inLedger appended
    obtain ⟨entry,row,greater⟩ := later.rows j old beyond before inLedger appended
    obtain ⟨next,final,-,stamp⟩ := calm.keeps _ entry row
    exact ⟨next,final,stamp ▸ greater⟩
  refine ⟨?_,?_,?_⟩
  · obtain ⟨entry,row,inLedger,stamped⟩ := later.row
    obtain ⟨next,final,ledger,stamp⟩ := calm.keeps entryId entry row
    exact ⟨next,final,ledger.trans inLedger,stamp.trans stamped⟩
  · intro j moved beyond found inLedger record writing
    rw [calm.tasks] at found
    obtain ⟨old,before,rfl⟩ := modify_cases found
    split at writing
    · rename_i same
      subst same
      cases before.symm.trans there
      exact absurd writing (calm.idle record)
    · rename_i different
      rw [if_neg different] at inLedger
      exact later.under j old beyond before inLedger record writing
  · intro j moved beyond found inLedger appended
    rw [calm.tasks] at found
    obtain ⟨old,before,rfl⟩ := modify_cases found
    split at appended
    · rename_i same
      subst same
      cases before.symm.trans there
      rw [if_pos rfl,calm.draft] at inLedger ⊢
      obtain already | ⟨record,writing,row⟩ := calm.appended appended
      · exact keeps i task beyond there inLedger already
      · exact ⟨record,row,later.under i task beyond there inLedger record writing⟩
    · rename_i different
      rw [if_neg different] at inLedger ⊢
      exact keeps j old beyond before inLedger appended

theorem later_pick (later : Later entryId ledgerId ms n s) (there : s.tasks[i]? = some task) (covers : Covers s task.draft.ledgerId last)
    (clear : Clear backend last now) : Later entryId ledgerId ms n
      { (s.picks crypto task last now).1 with tasks := s.tasks.modify i fun _ => (s.picks crypto task last now).2 } := by
  refine ⟨later.row,?_,?_⟩
  · intro j moved beyond found inLedger record writing
    obtain ⟨old,before,rfl⟩ := modify_cases found
    split at writing
    · rename_i same
      subst same
      cases before.symm.trans there
      rw [if_pos rfl] at inLedger
      cases writing
      obtain ⟨above,-⟩ : last.toNat < (pick s.floor task.draft.ledgerId last now).2.toNat ∧
        (pick s.floor task.draft.ledgerId last now).2.toNat < ceiling backend := pick_above clear
      obtain ⟨entry,row,ledger,stamped⟩ := later.row
      have bound := covers ms (.inl ⟨entryId,entry,row,ledger.trans inLedger.symm,stamped⟩)
      exact Nat.lt_of_le_of_lt bound above
    · rename_i different
      rw [if_neg different] at inLedger
      exact later.under j old beyond before inLedger record writing
  · intro j moved beyond found inLedger appended
    obtain ⟨old,before,rfl⟩ := modify_cases found
    split at appended
    · rename_i same
      subst same
      cases before.symm.trans there
      rw [if_pos rfl] at inLedger ⊢
      exact later.rows i task beyond there inLedger appended
    · rename_i different
      rw [if_neg different] at inLedger ⊢
      exact later.rows j old beyond before inLedger appended

theorem later_turn (later : Later entryId ledgerId ms n s) (turn : Turn backend crypto s i after) : Later entryId ledgerId ms n after := by
  cases turn with
  | still => exact later
  | calm there calm => exact later_calm later there calm
  | pick there free covers clear => exact later_pick later there covers clear

theorem later_step (honest : ∀ message,crypto.verify message (crypto.sign message) = true) (safe : Safe backend crypto s)
    (later : Later entryId ledgerId ms n s) (met : clear backend s action = true) :
    Later entryId ledgerId ms n (step backend crypto toJson s action) := by
  cases action with
  | call minted withdrawnAtMs request =>
    obtain ⟨phase,flag⟩ := open_cases toJson minted withdrawnAtMs request
    refine ⟨later.row,?_,?_⟩
    · intro j task beyond found inLedger record writing
      obtain before | ⟨-,rfl⟩ := append_cases found
      · exact later.under j task beyond before inLedger record writing
      · obtain at_ | ⟨result,at_⟩ := phase
        · cases at_.symm.trans writing
        · cases at_.symm.trans writing
    · intro j task beyond found inLedger appended
      obtain before | ⟨-,rfl⟩ := append_cases found
      · exact later.rows j task beyond before inLedger appended
      · rw [flag] at appended
        cases appended
  | advance i env => exact later_turn later (turn_advance honest safe met)
  | drop i => exact later_turn later (turn_drop safe)
  | restart =>
    refine ⟨later.row,?_,?_⟩
    · intro j moved beyond found inLedger record writing
      obtain ⟨task,-,rfl⟩ := List.mem_map.mp (List.mem_of_getElem? found)
      exact absurd writing (drop_idle record)
    · intro j moved beyond found inLedger appended
      simp only [step,restart,List.getElem?_map,Option.map_eq_some_iff] at found
      obtain ⟨task,before,rfl⟩ := found
      obtain ⟨draft,flag,-⟩ := drop_cases task
      rw [draft] at inLedger ⊢
      exact later.rows j task beyond before inLedger (flag ▸ appended)

-- What a reader of the store finds.
structure Causal (crypto : CryptographicServices) (s : Steward) : Prop where
  distinct : ∀ one two entry other,get s.entries one = some entry → get s.entries two = some other →
    entry.ledgerId = other.ledgerId → entry.createdAtMs = other.createdAtMs → one = two
  verified : ∀ entryId entry,get s.entries entryId = some entry → verifyEntry crypto entry = true

-- An append that had returned in the first state is before every append called since.
def Ordered (before after : Steward) : Prop :=
  ∀ (i j : Nat) (first second : Task) (entry other : PersistedLedgerEntry),
    before.tasks[i]? = some first → first.appended = true → before.tasks.length ≤ j → after.tasks[j]? = some second →
    second.appended = true → first.draft.ledgerId = second.draft.ledgerId →
    get after.entries first.draft.entryId = some entry → get after.entries second.draft.entryId = some other →
    entry.createdAtMs.toNat < other.createdAtMs.toNat

def NoOverflow (s : Steward) : Action → Prop
  | .advance i _ => ∀ task last,s.tasks[i]? = some task → mints s task = some last → last.toNat+1 < 2^64
  | _ => True

theorem later_ordered (safe : Safe backend crypto s) (each : ∀ entryId ledgerId ms,Later entryId ledgerId ms s.tasks.length s →
    Later entryId ledgerId ms s.tasks.length after) : Ordered s after := by
  intro i j first second entry other found appended beyond also stored same row final
  obtain ⟨old,before,inLedger⟩ := safe.appended i first found appended
  have later : Later first.draft.entryId first.draft.ledgerId old.createdAtMs s.tasks.length s := by
    refine ⟨⟨old,before,inLedger,rfl⟩,?_,?_⟩
    · intro k task past there
      exact absurd (List.getElem?_eq_some_iff.mp there).1 (Nat.not_lt.mpr past)
    · intro k task past there
      exact absurd (List.getElem?_eq_some_iff.mp there).1 (Nat.not_lt.mpr past)
  obtain ⟨⟨kept,here,-,stamp⟩,-,rows⟩ := each _ _ _ later
  cases here.symm.trans row
  obtain ⟨next,there,greater⟩ := rows j second beyond also same.symm stored
  cases there.symm.trans final
  rw [stamp]
  exact greater

theorem order_causal (honest : ∀ message,crypto.verify message (crypto.sign message) = true) (actions : List Action)
    (met : Guarded (step backend crypto toJson) (fun s action => clear backend s action = true) start actions) :
    Throughout (step backend crypto toJson) (Causal crypto) start actions ∧
    Guarded (step backend crypto toJson) NoOverflow start actions ∧
    ∀ first second,actions = first++second →
      Ordered (run (step backend crypto toJson) start first) (run (step backend crypto toJson) start actions) := by
  have safe : Throughout (step backend crypto toJson) (Safe backend crypto) start actions :=
    guarded_keeps (fun s action safe met => step_safe honest safe met) start_safe met
  refine ⟨?_,?_,?_⟩
  · rw [throughout_prefixes] at safe ⊢
    exact fun k => ⟨(safe k).rows.distinct,(safe k).rows.verified⟩
  · rw [guarded_positions] at met ⊢
    intro k action there
    cases action with
    | advance i env =>
      intro task last found picks
      have bound := (clear_mints (met k _ there) found picks).2
      exact bound.trans_le (ceiling_word backend)
    | _ => trivial
  · rintro first second rfl
    rw [guarded_append] at met
    have here := throughout_prefixes.mp safe first.length
    rw [List.take_left] at here
    refine later_ordered here fun entryId ledgerId ms later => ?_
    have both : Throughout (step backend crypto toJson)
        (fun s => Safe backend crypto s ∧
          Later entryId ledgerId ms (run (step backend crypto toJson) start first).tasks.length s)
        (run (step backend crypto toJson) start first) second :=
      guarded_keeps (fun s action held met => ⟨step_safe honest held.1 met,later_step honest held.1 held.2 met⟩) ⟨here,later⟩ met.2
    rw [run_append]
    exact (throughout_final both).2

end

theorem noOp_honest (message : List UInt8) :
    noOpCryptographicServices.verify message (noOpCryptographicServices.sign message) = true := rfl

def consent (entryId : String) : Action := .call entryId 0 (.appendConsent (some "\x7b\x7d") none)

def tick (i : Nat) (now : UInt64) : Action := .advance i ⟨now,none⟩

-- Two appends at once, a restart that loses one of them, and a clock that has gone back.
def restarted : List Action :=
  [consent "a",consent "b",tick 0 5,tick 1 5,tick 0 5,tick 0 5,tick 1 3,tick 1 3,.restart,
    consent "c",tick 2 1,tick 2 1,tick 2 1,tick 2 1]

theorem restarted_causal :
    Throughout (step .sqlite noOpCryptographicServices written) (Causal noOpCryptographicServices) start restarted :=
  (order_causal noOp_honest restarted (by decide)).1

def Action.clock : Action → UInt64
  | .call _ withdrawnAtMs _ => withdrawnAtMs
  | .advance _ env => env.now
  | _ => 0

-- After 2^63-1 the stored timestamps turn negative, and the restart finds the one before.
def wrapped : List Action :=
  [consent "a",tick 0 0x7fffffffffffffff,tick 0 0x7fffffffffffffff,tick 0 0x7fffffffffffffff,tick 0 0x7fffffffffffffff,
    consent "b",tick 1 0x7fffffffffffffff,tick 1 0x7fffffffffffffff,.restart,
    consent "c",tick 2 0,tick 2 0,tick 2 0,tick 2 0]

theorem wrapped_repeats : ¬∀ actions : List Action,(∀ action ∈ actions,action.clock.toNat < 2^63) →
    Throughout (step .sqlite noOpCryptographicServices written) (Causal noOpCryptographicServices) start actions := by
  intro claim
  have held := throughout_final (claim wrapped (by decide))
  have same := held.distinct "b" "c" ⟨"b",ledgerConsent,1,"\x7b\x7d",none,"none",0x8000000000000000,none,none⟩
    ⟨"c",ledgerConsent,1,"\x7b\x7d",none,"none",0x8000000000000000,none,none⟩ (by decide) (by decide) rfl rfl
  exact absurd same (by decide)

end EvoCore.Ledger.Order
