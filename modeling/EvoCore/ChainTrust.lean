import EvoCore.ChainForks
import EvoCore.ChainHistory
import EvoCore.DomainProjection

namespace EvoCore.ChainTrust
open External DomainEntries IdealCrates ChainAppend ChainSteps ChainReplay ChainForks ChainHistory HonestSigners
open DomainProjection Runs Std

variable {crates : DomainCrates} {c : DomainChain} {d : Delivery} {w : DomainWitness} {entries : List DomainWitness}
  {device : String} {k : Nat}

def admits (device : String) (w : DomainWitness) : Bool :=
  match w.op with
  | .admitPeer subject _ _ _ => subject == device
  | _ => false

def discards (device : String) (w : DomainWitness) : Bool :=
  match w.op with
  | .discardPeer subject _ => subject == device
  | _ => false

-- Some entry grants it and none after it takes it back.
def Latest (grants revokes : DomainWitness → Bool) (entries : List DomainWitness) : Prop :=
  ∃ before w after,entries = before++w::after ∧ grants w = true ∧ ∀ e ∈ after,revokes e = false

def Standing (entries : List DomainWitness) (device : String) : Prop := Latest (admits device) (discards device) entries
def Discarded (entries : List DomainWitness) (device : String) : Prop := Latest (discards device) (admits device) entries

theorem latest_snoc {grants revokes : DomainWitness → Bool} : Latest grants revokes (entries++[w]) ↔
    grants w = true ∨ (revokes w = false ∧ Latest grants revokes entries) := by
  constructor
  · intro latest
    obtain ⟨before,v,after,shape,said,quiet⟩ := latest
    rcases List.eq_nil_or_concat after with empty | ⟨rest,last,more⟩
    · subst empty
      obtain ⟨_,last⟩ := List.append_inj' shape rfl
      cases List.cons.inj last with
      | intro here _ => exact .inl (here ▸ said)
    · subst more
      have longer : entries++[w] = (before++v::rest)++[last] := by simpa using shape
      obtain ⟨shorter,same⟩ := List.append_inj' longer rfl
      cases List.cons.inj same with
      | intro here _ =>
        subst here
        refine .inr ⟨quiet w (by simp),before,v,rest,shorter,said,?_⟩
        intro e member
        exact quiet e (by simp [member])
  · intro either
    cases either with
    | inl said => exact ⟨entries,w,[],rfl,said,by simp⟩
    | inr kept =>
      obtain ⟨quiet,before,v,after,shape,said,still⟩ := kept
      refine ⟨before,v,after++[w],by simp [shape],said,?_⟩
      intro e member
      cases List.mem_append.mp member with
      | inl earlier => exact still e earlier
      | inr last => rw [List.mem_singleton.mp last]; exact quiet

theorem standing_snoc : Standing (entries++[w]) device ↔
    admits device w = true ∨ (discards device w = false ∧ Standing entries device) := latest_snoc

theorem admits_not_discards (admitted : admits device w = true) : discards device w = false := by
  unfold admits at admitted
  unfold discards
  cases op : w.op <;> simp_all

theorem standing_discarded : Standing entries device ↔
    (∃ e ∈ entries,admits device e = true) ∧ ¬ Discarded entries device := by
  induction entries using List.reverseRecOn with
  | nil =>
    refine iff_of_false ?_ fun both => by simp at both
    intro standing
    obtain ⟨before,w,after,shape,_⟩ := standing
    simp at shape
  | append_singleton before w ih =>
    rw [standing_snoc,Discarded,latest_snoc,← Discarded,ih]
    cases admitted : admits device w with
    | true => simp [admits_not_discards admitted,admitted]
    | false => simp [admitted,and_assoc,and_comm,and_left_comm]

def stateOf (view : DomainStateView) (device : String) : Option TrustState :=
  (view.trust[device]?).map TrustProjection.state

-- Of all ops only these two reach the state column of the trust ledger.
theorem apply_state (view : DomainStateView) (w : DomainWitness) (device : String) :
    stateOf (view.apply w) device = if admits device w then some .admitted
      else if discards device w then (stateOf view device).map fun _ => .discarded else stateOf view device := by
  unfold stateOf admits discards DomainStateView.apply
  cases op : w.op with
  | admitPeer subject display key endpoints =>
    by_cases same : subject = device
    · simp [same]
    · simp [ExtTreeMap.getElem?_insert,same]
  | discardPeer subject reason =>
    by_cases same : subject = device
    · subst same
      cases row : view.trust[subject]? <;> simp [row]
    · simp [ExtTreeMap.getElem?_modify,same]
  | renamePeerDisplayName subject display =>
    by_cases same : subject = device
    · subst same
      cases row : view.trust[subject]? <;> simp [row]
    · simp [ExtTreeMap.getElem?_modify,same]
  | removeMemberFromGroup groupId subject =>
    simp only [removeMemberFromGroup]
    split
    · rfl
    · split <;> rfl
  | setGroupLeader groupId subject =>
    simp only [setGroupLeader]
    split
    · rfl
    · split <;> rfl
  | _ => rfl

theorem state_exact (entries : List DomainWitness) (device : String) :
    stateOf (applied entries) device = some .admitted ↔ Standing entries device := by
  induction entries using List.reverseRecOn with
  | nil =>
    refine iff_of_false (by simp [stateOf,applied,emptyView]) ?_
    intro standing
    obtain ⟨before,w,after,shape,_⟩ := standing
    simp at shape
  | append_singleton before w ih =>
    rw [applied_snoc,apply_state,standing_snoc,← ih]
    cases admitted : admits device w with
    | true => simp
    | false =>
      cases discarded : discards device w with
      | true => cases stateOf (applied before) device <;> simp
      | false => simp

-- Every entry but the first comes from a device the entries before it hold admitted.
def Trusted (crates : DomainCrates) (entries : List DomainWitness) : Prop :=
  ∀ k e,0 < k → entries[k]? = some e →
    stateOf (projectChain crates (entries.take k)) e.originatorDeviceId = some .admitted

theorem trusted_exact : Trusted crates entries ↔
    ∀ k e,0 < k → entries[k]? = some e → Standing (entries.take k) e.originatorDeviceId := by
  have same : ∀ kept device,stateOf (projectChain crates kept) device = stateOf (applied kept) device := by
    intro kept device
    simp [stateOf]
  simp only [Trusted,same,state_exact]

theorem trusted_take (trusted : Trusted crates entries) (k : Nat) : Trusted crates (entries.take k) := by
  rw [trusted_exact] at trusted ⊢
  intro j e later standing
  have inside : j < k := by
    by_contra beyond
    rw [List.getElem?_eq_none (by rw [List.length_take]; omega)] at standing
    cases standing
  rw [List.getElem?_take_of_lt inside] at standing
  rw [List.take_take,Nat.min_eq_left (Nat.le_of_lt inside)]
  exact trusted j e later standing

theorem trusted_snoc : Trusted crates (entries++[w]) ↔
    Trusted crates entries ∧ (0 < entries.length → Standing entries w.originatorDeviceId) := by
  simp only [trusted_exact]
  constructor
  · intro all
    constructor
    · intro j e later standing
      obtain ⟨inside,_⟩ := List.getElem?_eq_some_iff.mp standing
      have here := all j e later (by rw [List.getElem?_append_left inside]; exact standing)
      rwa [List.take_append_of_le_length (Nat.le_of_lt inside)] at here
    · intro later
      have here := all entries.length w later (by simp)
      rwa [List.take_left] at here
  · intro both j e later standing
    by_cases inside : j < entries.length
    · rw [List.getElem?_append_left inside] at standing
      rw [List.take_append_of_le_length (Nat.le_of_lt inside)]
      exact both.1 j e later standing
    · have last : j = entries.length := by
        obtain ⟨bound,_⟩ := List.getElem?_eq_some_iff.mp standing
        simp at bound
        omega
      subst last
      simp only [List.getElem?_concat_length,Option.some.injEq] at standing
      rw [List.take_left,← standing]
      exact both.2 later

-- The resolver holds keys only of devices that some entry admits.
def Keyed (c : DomainChain) : Prop :=
  ∀ device,c.publicKeys.contains device = true → ∃ e ∈ c.entries,admits device e = true

theorem update_keyed {keys next : ExtTreeMap String VerifyingKey} (updated : updatePublicKeys crates keys w = .ok next)
    (held : next.contains device = true) : keys.contains device = true ∨ admits device w = true := by
  unfold updatePublicKeys at updated
  split at updated
  · rename_i subject _ _ _ op
    have named : admits device w = (subject == device) := by rw [admits,op]
    split at updated
    · cases updated
    · cases updated
      rw [ExtTreeMap.contains_insert,Bool.or_eq_true] at held
      rw [named]
      cases held with
      | inl same => right; simpa using same
      | inr older => exact .inl older
  · cases updated
    exact .inl held

theorem rebuild_keyed {keys : ExtTreeMap String VerifyingKey} (held : (rebuildLoop crates keys entries).2.contains device = true) :
    keys.contains device = true ∨ ∃ e ∈ entries,admits device e = true := by
  induction entries generalizing keys with
  | nil => exact .inl held
  | cons w rest ih =>
    simp only [rebuildLoop] at held
    split at held
    · exact .inl held
    · rename_i next updated
      rcases ih held with older | ⟨e,member,admitted⟩
      · rcases update_keyed updated older with before | here
        · exact .inl before
        · exact .inr ⟨w,List.mem_cons_self,here⟩
      · exact .inr ⟨e,List.mem_cons_of_mem _ member,admitted⟩

theorem deliver_keyed (c : DomainChain) (d : Delivery) (keyed : Keyed c) : Keyed (deliver crates c d) := by
  by_cases entering : ∃ k,Enters crates c d k
  · obtain ⟨k,enters⟩ := entering
    obtain ⟨entries,_,keys,_⟩ := deliver_enters enters
    intro device held
    rw [entries]
    rw [keys,keysAfter] at held
    split at held
    · rename_i whole
      obtain ⟨next,updated⟩ := update_readable (enters.2.extends_ whole).1 c.publicKeys
      rw [updated] at held
      rw [whole,List.take_length]
      rcases update_keyed updated held with older | here
      · obtain ⟨e,member,admitted⟩ := keyed device older
        exact ⟨e,List.mem_append_left _ member,admitted⟩
      · exact ⟨d.2,by simp,here⟩
    · rcases rebuild_keyed held with older | found
      · simp at older
      · exact found
  · obtain ⟨log,same⟩ := deliver_stays fun k enters => entering ⟨k,enters⟩
    rw [same]
    exact keyed

-- All that admits the device goes when the entries behind the first k do.
def Displaced (c : DomainChain) (k : Nat) (device : String) : Prop :=
  (∃ e ∈ c.entries.drop k,admits device e = true) ∧ ∀ e ∈ c.entries.take k,admits device e = false

-- The resolver forgets no key of a discarded device, and until a fork is resolved it holds what the losing
-- entries admitted. Nobody it lets in on either account is an originator here.
def Sanctioned (crates : DomainCrates) (c : DomainChain) (d : Delivery) : Prop :=
  ∀ k,Enters crates c d k → 0 < k →
    ¬ Discarded (c.entries.take k) d.2.originatorDeviceId ∧ ¬ Displaced c k d.2.originatorDeviceId

theorem standing_sanctioned (known : ∃ e ∈ c.entries,admits device e = true) :
    Standing (c.entries.take k) device ↔ ¬ Discarded (c.entries.take k) device ∧ ¬ Displaced c k device := by
  rw [standing_discarded,and_comm]
  refine and_congr_right fun _ => ?_
  constructor
  · intro kept displaced
    obtain ⟨e,member,admitted⟩ := kept
    rw [displaced.2 e member] at admitted
    cases admitted
  · intro kept
    by_contra gone
    obtain ⟨e,member,admitted⟩ := known
    rw [← List.take_append_drop k c.entries] at member
    have unadmitted : ∀ e ∈ c.entries.take k,admits device e = false := by
      intro e inside
      exact Bool.eq_false_iff.mpr fun here => gone ⟨e,inside,here⟩
    cases List.mem_append.mp member with
    | inl inside => exact gone ⟨e,inside,admitted⟩
    | inr beyond => exact kept ⟨⟨e,beyond,admitted⟩,unadmitted⟩

theorem deliver_trusted (c : DomainChain) (d : Delivery) (trusted : Trusted crates c.entries) (keyed : Keyed c) :
    Trusted crates (deliver crates c d).entries ↔ Sanctioned crates c d := by
  by_cases entering : ∃ k,Enters crates c d k
  · obtain ⟨k,enters⟩ := entering
    have bound := placement_bound enters.2.fresh enters.1
    have length : (c.entries.take k).length = k := by simpa using bound
    have only : ∀ j,Enters crates c d j → j = k := fun j other => Option.some.inj (other.1.symm.trans enters.1)
    rw [(deliver_enters enters).1,trusted_snoc,length]
    constructor
    · intro both j other later
      rw [only j other] at later ⊢
      exact (standing_sanctioned (keyed _ (admitted_contains enters.2.admitted later))).mp (both.2 later)
    · intro sanctioned
      refine ⟨trusted_take trusted k,fun later => ?_⟩
      exact (standing_sanctioned (keyed _ (admitted_contains enters.2.admitted later))).mpr (sanctioned k enters later)
  · have outside : ∀ k,¬ Enters crates c d k := fun k enters => entering ⟨k,enters⟩
    obtain ⟨log,same⟩ := deliver_stays outside
    rw [same]
    exact iff_of_true trusted fun k enters => absurd enters (outside k)

theorem trusted_exactly (crates : DomainCrates) (persistence : DomainChainPersistence) (log : ChainLog)
    (deliveries : List Delivery) :
    Throughout (deliver crates) (fun c => Trusted crates c.entries) (new crates persistence log) deliveries ↔
      Guarded (deliver crates) (Sanctioned crates) (new crates persistence log) deliveries := by
  refine throughout_under (fun c _ => Keyed c) (fun c d trusted keyed => deliver_trusted c d trusted keyed) ?_ ?_
  · intro k e _ standing
    simp [new] at standing
  · apply guarded_prefixes
    intro before d after _
    refine run_keeps deliver_keyed ?_
    intro device held
    simp [new] at held

-- A guest is admitted and discarded, and then admits itself again.
section DiscardedGuest
variable (crates)

def guestDiscard : DomainWitness :=
  sign crates founder ⟨"w3"⟩ (canonicalHashB64 crates (guestAdmission crates)) 101 "founder" [] (.discardPeer "guest" none)
def guestReturn : DomainWitness :=
  sign crates guest ⟨"w4"⟩ (canonicalHashB64 crates (guestDiscard crates)) 102 "guest" [] (admission crates "guest" guest)

def discardedChain : DomainChain :=
  ⟨[founding crates,guestAdmission crates,guestDiscard crates],canonicalHashB64 crates (guestDiscard crates),
    (founderKeys crates).insert "guest" (crates.verifyingKey guest),.memory,none⟩

variable {crates}

theorem guestDiscard_applied (documented : Documented crates.toCrates) :
    tryAppend crates io (guestChain crates) (guestDiscard crates) = (.ok .applied,discardedChain crates) := by
  refine extends_applied ?_ rfl ?_ rfl rfl
  · simp [Known,guestChain,founding,selfAdmission,guestAdmission,guestDiscard,sign]
  · exact signed_admitted documented (by simp [guestChain,founderKeys,ExtTreeMap.getElem_insert])

theorem guestReturn_enters (documented : Documented crates.toCrates) :
    Enters crates (discardedChain crates) (.done,guestReturn crates) 3 := by
  refine ⟨placement_extends rfl,?_,signed_admitted documented (by simp [discardedChain]),?_⟩
  · simp [Known,discardedChain,founding,selfAdmission,guestAdmission,guestDiscard,guestReturn,sign]
  · intro _
    exact ⟨admission_readable documented rfl,.inl rfl⟩

theorem guest_not_standing : ¬ Standing (discardedChain crates).entries "guest" := by
  have split : (discardedChain crates).entries = [founding crates,guestAdmission crates]++[guestDiscard crates] := rfl
  rw [split,standing_snoc]
  simp [admits,discards,guestDiscard,sign]

theorem guestReturn_breaks (documented : Documented crates.toCrates) :
    ¬ Trusted crates (run (deliver crates) (new crates .memory none) [(.done,founding crates),
      (.done,guestAdmission crates),(.done,guestDiscard crates),(.done,guestReturn crates)]).entries := by
  simp only [run_cons,run_nil]
  rw [deliver_result (founding_in_memory documented),deliver_result (guestAdmission_applied documented),
    deliver_result (guestDiscard_applied documented),(deliver_enters (guestReturn_enters documented)).1,trusted_snoc]
  intro both
  exact guest_not_standing (both.2 (by simp [discardedChain]))

theorem discarded_guest_returns : ¬ ∀ (crates : DomainCrates),
    Documented crates.toCrates → Ideal crates.toCrates → CollisionFree crates →
    ∀ persistence log deliveries,Trusted crates (run (deliver crates) (new crates persistence log) deliveries).entries := by
  intro always
  exact guestReturn_breaks domainLibrary_documented
    (always domainLibrary domainLibrary_documented domainLibrary_ideal domainLibrary_free .memory none _)

end DiscardedGuest

end EvoCore.ChainTrust
