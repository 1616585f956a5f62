import EvoCore.ChainReplay
import EvoCore.IdealCrates

namespace EvoCore.HonestSigners
open External DomainEntries ChainAppend ChainSteps ChainReplay HashLinks

variable {crates : DomainCrates} {c : DomainChain} {w : DomainWitness} {k : Nat}

-- The op with which a device's key enters the chain, as bootstrap_genesis writes it.
def admission (crates : DomainCrates) (device : String) (key : SigningKey) : DomainStateOp :=
  .admitPeer device device (crates.encode (crates.verifyingKey key).bytes) []

theorem admission_decodes (documented : Documented crates.toCrates) (device : String) (key : SigningKey) :
    decodeVerifyingKey crates device (crates.encode (crates.verifyingKey key).bytes) = .ok (crates.verifyingKey key) := by
  simp [decodeVerifyingKey,documented.decode_encode,documented.key_length,documented.key_parses]

theorem admission_updates (documented : Documented crates.toCrates) (op : w.op = admission crates device key) :
    updatePublicKeys crates keys w = .ok (keys.insert device (crates.verifyingKey key)) := by
  simp [updatePublicKeys,op,admission,admission_decodes documented]

-- A device's first word: it signs its own admission.
def selfAdmission (crates : DomainCrates) (key : SigningKey) (identifier device : String) (ts : UInt64) : DomainWitness :=
  sign crates key ⟨identifier⟩ (zeroPrevHashB64 crates) ts device [] (admission crates device key)

theorem selfAdmission_admitted (documented : Documented crates.toCrates) :
    Admitted crates keys (selfAdmission crates key identifier device ts) 0 := by
  have resolved : resolveVerifyingKey crates (selfAdmission crates key identifier device ts) true keys =
      .ok (crates.verifyingKey key) := by
    simp [resolveVerifyingKey,selfAdmission,sign,admission,admission_decodes documented]
  simp only [Admitted,verified,beq_self_eq_true,resolved]
  simp [selfAdmission,verify_sign crates documented]

theorem signed_admitted (documented : Documented crates.toCrates)
    (held : keys[device]? = some (crates.verifyingKey key)) :
    Admitted crates keys (sign crates key identifier prev ts device endpoints op) (k+1) := by
  have resolved : resolveVerifyingKey crates (sign crates key identifier prev ts device endpoints op) false keys =
      .ok (crates.verifyingKey key) := by
    simp [resolveVerifyingKey,sign,held]
  have later : (k+1 == 0) = false := rfl
  simp [Admitted,verified,later,resolved,verify_sign crates documented]

theorem unheld_refused (unheld : keys[w.originatorDeviceId]? = none) : ¬ Admitted crates keys w (k+1) := by
  have later : (k+1 == 0) = false := rfl
  simp [Admitted,verified,later,resolveVerifyingKey,unheld]

theorem placement_extends (extends_ : w.prevHashB64 = c.headHashB64) : placement crates c w = some c.entries.length := by
  simp [placement,extends_]

theorem extends_applied (fresh : ¬ Known c w) (extends_ : w.prevHashB64 = c.headHashB64)
    (admitted : Admitted crates c.publicKeys w c.entries.length)
    (written : persistEntry crates io c w = (.ok (),log))
    (updated : updatePublicKeys crates c.publicKeys w = .ok keys) :
    tryAppend crates io c w = (.ok .applied,
      {c with entries := c.entries++[w],headHashB64 := canonicalHashB64 crates w,publicKeys := keys,log}) := by
  rw [tryAppend_settles fresh (placement_extends extends_) admitted]
  simp [settle,extend,written,updated]

theorem admission_readable (documented : Documented crates.toCrates) (op : w.op = admission crates device key) :
    KeyReadable crates w := ⟨_,admission_updates documented op⟩

theorem placement_head_fork (last : c.entries.getLast? = some localHead) (off : w.prevHashB64 ≠ c.headHashB64)
    (sibling : w.prevHashB64 = localHead.prevHashB64) (other : w.id ≠ localHead.id)
    (held : c.publicKeys.contains w.originatorDeviceId = true) (first : linearisationCmp w localHead = .lt) :
    placement crates c w = some (c.entries.length-1) := by
  have one : forksAtHead crates c w localHead = true := by simp [forksAtHead,sibling,other,held]
  simp only [placement,if_neg off,last,one,if_true,first]

-- The smallest chain: one device has founded it. It is the start of every scene below.
section Founded
variable (crates)

def founder : SigningKey := ⟨[1]⟩
def guest : SigningKey := ⟨[2]⟩
def founding : DomainWitness := selfAdmission crates founder "w0" "founder" 1

-- Something the founder does next, at a time of its choice.
def gesture (identifier : String) (ts : UInt64) : DomainWitness :=
  sign crates founder ⟨identifier⟩ (canonicalHashB64 crates (founding crates)) ts "founder" [] (.deleteGroup "g")

def founderKeys : Std.ExtTreeMap String VerifyingKey :=
  (∅ : Std.ExtTreeMap String VerifyingKey).insert "founder" (crates.verifyingKey founder)

def foundedChain (persistence : DomainChainPersistence) (log : ChainLog) : DomainChain :=
  ⟨[founding crates],canonicalHashB64 crates (founding crates),founderKeys crates,persistence,log⟩

variable {crates}

theorem founding_applied (documented : Documented crates.toCrates)
    (written : persistEntry crates io (new crates persistence log) (founding crates) = (.ok (),next)) :
    tryAppend crates io (new crates persistence log) (founding crates) =
      (.ok .applied,foundedChain crates persistence next) := by
  refine extends_applied ?_ rfl (selfAdmission_admitted documented) written (admission_updates documented rfl)
  simp [Known,new]

theorem founding_in_memory (documented : Documented crates.toCrates) :
    tryAppend crates io (new crates .memory log) (founding crates) =
      (.ok .applied,foundedChain crates .memory log) := founding_applied documented rfl

theorem foundedChain_reachable (documented : Documented crates.toCrates) :
    Reachable crates (foundedChain crates .memory none) := by
  have founded : Reachable crates (deliver crates (new crates .memory none) (.done,founding crates)) := .delivered .created
  rw [deliver_result (founding_in_memory documented)] at founded
  exact founded

theorem founding_replays (documented : Documented crates.toCrates) : Replays crates [founding crates] := by
  have root : Replays crates ([]++[founding crates]) :=
    replays_snoc.mpr ⟨⟨_,rfl⟩,rfl,selfAdmission_admitted documented,admission_readable documented rfl⟩
  exact root

theorem founding_keys (documented : Documented crates.toCrates) : keysOf crates [founding crates] = founderKeys crates := by
  simp only [keysOf,rebuildPublicKeys,rebuildLoop]
  rw [admission_updates documented rfl]
  rfl

theorem second_replays (documented : Documented crates.toCrates)
    (signed : w = sign crates founder identifier (canonicalHashB64 crates (founding crates)) ts "founder" endpoints op)
    (updated : updatePublicKeys crates (founderKeys crates) w = .ok keys) :
    Replays crates [founding crates,w] ∧ keysOf crates [founding crates,w] = keys := by
  have held : (keysOf crates [founding crates])["founder"]? = some (crates.verifyingKey founder) := by
    rw [founding_keys documented]; simp [founderKeys]
  have admitted : Admitted crates (keysOf crates [founding crates]) w 1 := by
    rw [signed]; exact signed_admitted documented held
  have root := founding_replays documented
  have grown : Replays crates ([founding crates]++[w]) :=
    replays_snoc.mpr ⟨root,by rw [signed]; rfl,admitted,readable_update updated⟩
  have rebuilt : rebuildPublicKeys crates ([founding crates]++[w]) = (.ok (),keys) :=
    keysOf_snoc (replays_rebuilds root) (by rw [founding_keys documented]; exact updated)
  exact ⟨grown,congrArg Prod.snd rebuilt⟩

end Founded

end EvoCore.HonestSigners
