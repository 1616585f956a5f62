import EvoCore.ChainSteps

namespace EvoCore.ChainReplay
open External DomainEntries ChainAppend ChainSteps HashLinks

variable {crates : DomainCrates} {c : DomainChain} {w : DomainWitness} {entries : List DomainWitness} {k : Nat}

-- The key an AdmitPeer carries decodes; other ops carry none.
def KeyReadable (crates : DomainCrates) (w : DomainWitness) : Prop :=
  ∃ keys,updatePublicKeys crates ∅ w = .ok keys

theorem update_readable (readable : KeyReadable crates w) (keys : Std.ExtTreeMap String VerifyingKey) :
    ∃ next,updatePublicKeys crates keys w = .ok next := by
  obtain ⟨found,updated⟩ := readable
  unfold updatePublicKeys at updated ⊢
  split at updated
  · split at updated
    · cases updated
    · exact ⟨_,rfl⟩
  · exact ⟨_,rfl⟩

theorem readable_update (updated : updatePublicKeys crates keys w = .ok next) : KeyReadable crates w := by
  unfold updatePublicKeys at updated
  unfold KeyReadable updatePublicKeys
  split at updated
  · split at updated
    · cases updated
    · exact ⟨_,rfl⟩
  · exact ⟨_,rfl⟩

theorem rebuildLoop_append (keys : Std.ExtTreeMap String VerifyingKey) (xs ys : List DomainWitness) :
    rebuildLoop crates keys (xs++ys) = match rebuildLoop crates keys xs with
      | (.error e,left) => (.error e,left)
      | (.ok (),next) => rebuildLoop crates next ys := by
  induction xs generalizing keys with
  | nil => rfl
  | cons x rest ih =>
    simp only [List.cons_append,rebuildLoop]
    cases updatePublicKeys crates keys x with
    | error e => rfl
    | ok next => exact ih next

theorem rebuildLoop_exact : (rebuildLoop crates keys entries).1 = .ok () ↔ ∀ e ∈ entries,KeyReadable crates e := by
  induction entries generalizing keys with
  | nil => simp [rebuildLoop]
  | cons w rest ih =>
    simp only [rebuildLoop,List.mem_cons,forall_eq_or_imp]
    cases updated : updatePublicKeys crates keys w with
    | error e =>
      refine iff_of_false (by simp) fun both => ?_
      obtain ⟨next,other⟩ := update_readable both.1 keys
      rw [updated] at other
      cases other
    | ok next =>
      rw [ih]
      exact ⟨fun later => ⟨readable_update updated,later⟩,fun both => both.2⟩

theorem keysOf_snoc (rebuilt : (rebuildPublicKeys crates entries).1 = .ok ())
    (updated : updatePublicKeys crates (keysOf crates entries) w = .ok keys) :
    rebuildPublicKeys crates (entries++[w]) = (.ok (),keys) := by
  have shape : rebuildLoop crates ∅ entries = (.ok (),keysOf crates entries) := Prod.ext rebuilt rfl
  simp only [rebuildPublicKeys,rebuildLoop_append,shape,rebuildLoop,updated]

-- Replaying through append_replayed on an empty chain.
def Replays (crates : DomainCrates) (entries : List DomainWitness) : Prop :=
  ∃ result,replay crates (new crates .memory none) entries = .ok result

theorem replay_append (xs ys : List DomainWitness) : replay crates c (xs++ys) = .ok result ↔
    ∃ middle,replay crates c xs = .ok middle ∧ replay crates middle ys = .ok result := by
  induction xs generalizing c with
  | nil => simp [replay]
  | cons x rest ih =>
    simp only [List.cons_append,replay]
    cases appendReplayed crates c x with
    | error e => simp
    | ok next => exact ih

theorem replay_snoc : replay crates c (xs++[w]) = .ok result ↔
    ∃ middle,replay crates c xs = .ok middle ∧ appendReplayed crates middle w = .ok result := by
  rw [replay_append]
  refine exists_congr fun middle => and_congr_right fun _ => ?_
  simp only [replay]
  cases appendReplayed crates middle w <;> simp

theorem appendReplayed_exact : appendReplayed crates c w = .ok next ↔
    w.prevHashB64 = c.headHashB64 ∧ Admitted crates c.publicKeys w c.entries.length ∧
    ∃ keys,updatePublicKeys crates c.publicKeys w = .ok keys ∧
      next = {c with entries := c.entries++[w],headHashB64 := canonicalHashB64 crates w,publicKeys := keys} := by
  have flag : c.entries.isEmpty = (c.entries.length == 0) := by cases c.entries <;> rfl
  unfold appendReplayed Admitted
  rw [flag]
  constructor
  · intro appended
    split at appended
    · cases appended
    · rename_i same
      split at appended
      · cases appended
      · rename_i accepted
        split at appended
        · cases appended
        · rename_i keys updated
          exact ⟨not_not.mp same,accepted,keys,updated,(Except.ok.inj appended).symm⟩
  · rintro ⟨same,accepted,keys,updated,rfl⟩
    simp [same,accepted,updated]

theorem replay_result (start : replay crates (new crates persistence log) entries = .ok result) :
    result = ⟨entries,headOf crates entries,keysOf crates entries,persistence,log⟩ ∧
    (rebuildPublicKeys crates entries).1 = .ok () := by
  induction entries using List.reverseRecOn generalizing result with
  | nil =>
    cases Except.ok.inj start
    exact ⟨rfl,rfl⟩
  | append_singleton before w ih =>
    obtain ⟨middle,first,last⟩ := replay_snoc.mp start
    obtain ⟨rfl,rebuilt⟩ := ih first
    obtain ⟨_,_,keys,updated,rfl⟩ := appendReplayed_exact.mp last
    have grown := keysOf_snoc rebuilt updated
    exact ⟨by simp [headOf,keysOf,grown],by rw [grown]⟩

theorem replays_rebuilds (replays : Replays crates entries) : (rebuildPublicKeys crates entries).1 = .ok () := by
  obtain ⟨result,start⟩ := replays
  exact (replay_result start).2

-- One more entry replays exactly when it names the tip, verifies under a key from
-- the entries before it and, if it admits a peer, carries a readable key.
theorem replay_grows : (∃ result,replay crates (new crates persistence log) (entries++[w]) = .ok result) ↔
    (∃ result,replay crates (new crates persistence log) entries = .ok result) ∧
    w.prevHashB64 = headOf crates entries ∧ Admitted crates (keysOf crates entries) w entries.length ∧
    KeyReadable crates w := by
  constructor
  · rintro ⟨result,start⟩
    obtain ⟨middle,first,last⟩ := replay_snoc.mp start
    obtain ⟨rfl,_⟩ := replay_result first
    obtain ⟨same,accepted,keys,updated,_⟩ := appendReplayed_exact.mp last
    exact ⟨⟨_,first⟩,same,accepted,readable_update updated⟩
  · rintro ⟨⟨middle,first⟩,same,accepted,readable⟩
    obtain ⟨rfl,_⟩ := replay_result first
    obtain ⟨keys,updated⟩ := update_readable readable (keysOf crates entries)
    exact ⟨_,replay_snoc.mpr ⟨_,first,appendReplayed_exact.mpr ⟨same,accepted,keys,updated,rfl⟩⟩⟩

theorem replays_snoc : Replays crates (entries++[w]) ↔ Replays crates entries ∧
    w.prevHashB64 = headOf crates entries ∧ Admitted crates (keysOf crates entries) w entries.length ∧
    KeyReadable crates w := replay_grows

theorem replay_moves (somewhere : ∃ result,replay crates (new crates persistence log) entries = .ok result) :
    ∃ result,replay crates (new crates persistence' log') entries = .ok result := by
  induction entries using List.reverseRecOn with
  | nil => exact ⟨_,rfl⟩
  | append_singleton before w ih =>
    obtain ⟨shorter,facts⟩ := replay_grows.mp somewhere
    exact replay_grows.mpr ⟨ih shorter,facts⟩

theorem replays_anywhere (replays : Replays crates entries) :
    replay crates (new crates persistence log) entries =
      .ok ⟨entries,headOf crates entries,keysOf crates entries,persistence,log⟩ := by
  obtain ⟨result,start⟩ := replay_moves replays
  rw [start,(replay_result start).1]

theorem replays_take (replays : Replays crates entries) (k : Nat) : Replays crates (entries.take k) := by
  obtain ⟨result,start⟩ := replays
  rw [← List.take_append_drop k entries] at start
  obtain ⟨middle,first,_⟩ := (replay_append _ _).mp start
  exact ⟨middle,first⟩

theorem replays_left (replays : Replays crates (entries++others)) : Replays crates entries := by
  have shorter := replays_take replays entries.length
  rwa [List.take_left] at shorter

theorem replays_linked (replays : Replays crates entries) :
    Linked (canonicalHashB64 crates) DomainWitness.prevHashB64 (zeroPrevHashB64 crates) entries := by
  induction entries using List.reverseRecOn with
  | nil => trivial
  | append_singleton before w ih =>
    obtain ⟨shorter,named,_⟩ := replays_snoc.mp replays
    exact linked_snoc.mpr ⟨ih shorter,named⟩

-- The states a chain can be in: made empty, loaded, delivered to, reset.
inductive Reachable (crates : DomainCrates) : DomainChain → Prop where
  | created : Reachable crates (new crates persistence log)
  | loaded : loadOrCreate crates persistence log = .ok chain → Reachable crates chain
  | delivered : Reachable crates chain → Reachable crates (deliver crates chain d)
  | cleared : Reachable crates chain → Reachable crates (reset crates io chain).2

theorem loaded_result (loaded : loadOrCreate crates persistence log = .ok c) :
    ∃ entries,Replays crates entries ∧ c = ⟨entries,headOf crates entries,keysOf crates entries,persistence,log⟩ := by
  unfold loadOrCreate at loaded
  dsimp only at loaded
  split at loaded
  · cases loaded
  · rename_i entries _
    exact ⟨entries,replay_moves ⟨c,loaded⟩,(replay_result loaded).1⟩

theorem reset_memory (crates : DomainCrates) (io : FileResult) (c : DomainChain) :
    ∃ log,(reset crates io c).2 = new crates c.persistence log := by
  unfold reset
  dsimp only
  split
  · split
    · exact ⟨_,by simp only [new]; congr⟩
    · exact ⟨_,by simp only [new]; congr⟩
  · exact ⟨c.log,rfl⟩

theorem reachable_anchored (reachable : Reachable crates c) : Anchored crates c := by
  induction reachable with
  | created => exact new_anchored
  | loaded loaded =>
    obtain ⟨entries,replays,same⟩ := loaded_result loaded
    rw [same]
    exact ⟨replays_linked replays,rfl⟩
  | delivered _ ih => exact deliver_anchored ih
  | cleared _ _ =>
    rename_i before io _ _
    obtain ⟨log,same⟩ := reset_memory crates io before
    rw [same]
    exact new_anchored

end EvoCore.ChainReplay
