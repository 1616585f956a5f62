import EvoCore.DomainEntries

namespace EvoCore.ChainAppend
open External DomainEntries

inductive DomainChainError where
  | witness (error : WitnessError)
  | io (detail : String)
  | encoding (detail : String)
  | unknownOriginator (deviceId : String)
  | malformedPublicKey (deviceId reason : String)
  | prevHashMismatch (expected actual : String)
deriving DecidableEq,Repr

inductive AppendOutcome where
  | applied
  | duplicateAlreadyPresent
  | forkLost (winningHeadHashB64 : String)
deriving DecidableEq,Repr

def AppendOutcome.isCanonical : AppendOutcome → Bool
  | .applied | .duplicateAlreadyPresent => true
  | .forkLost _ => false

def AppendOutcome.isFreshApply : AppendOutcome → Bool
  | .applied => true
  | _ => false

inductive DomainChainPersistence where
  | disk (domainStateDir : String)
  | memory
deriving DecidableEq,Repr

-- chain.log as its lines; none when the file does not exist. A serialised witness
-- escapes every line break, so one witness is one line.
abbrev ChainLog := Option (List String)

-- How the one file operation of a call ends. A failed one reports its reason and
-- leaves whatever it left in chain.log.
inductive FileResult where
  | done
  | failed (reason : String) (left : ChainLog)
deriving DecidableEq,Repr

-- The mutex-guarded Inner, the persistence strategy and the log it writes to.
structure DomainChain where
  entries : List DomainWitness
  headHashB64 : String
  publicKeys : Std.ExtTreeMap String VerifyingKey
  persistence : DomainChainPersistence
  log : ChainLog

variable (crates : DomainCrates)

def new (persistence : DomainChainPersistence) (log : ChainLog) : DomainChain :=
  ⟨[],zeroPrevHashB64 crates,∅,persistence,log⟩

def decodeVerifyingKey (deviceId publicKeyB64 : String) : Except DomainChainError VerifyingKey :=
  match crates.decode publicKeyB64 with
  | .error e => .error (.malformedPublicKey deviceId ("base64: " ++ e))
  | .ok bytes =>
    if bytes.length ≠ 32 then
      .error (.malformedPublicKey deviceId ("expected 32 bytes, got " ++ toString bytes.length))
    else match crates.verifyingKeyFromBytes bytes with
      | .error e => .error (.malformedPublicKey deviceId ("ed25519 parse: " ++ e))
      | .ok key => .ok key

def resolveVerifyingKey (w : DomainWitness) (chainEmpty : Bool)
    (publicKeys : Std.ExtTreeMap String VerifyingKey) : Except DomainChainError VerifyingKey :=
  if chainEmpty then
    match w.op with
    | .admitPeer deviceId _ publicKeyB64 _ =>
      if deviceId = w.originatorDeviceId then decodeVerifyingKey crates deviceId publicKeyB64
      else .error (.unknownOriginator w.originatorDeviceId)
    | _ => .error (.unknownOriginator w.originatorDeviceId)
  else match publicKeys[w.originatorDeviceId]? with
    | some key => .ok key
    | none => .error (.unknownOriginator w.originatorDeviceId)

def updatePublicKeys (publicKeys : Std.ExtTreeMap String VerifyingKey) (w : DomainWitness) :
    Except DomainChainError (Std.ExtTreeMap String VerifyingKey) :=
  match w.op with
  | .admitPeer deviceId _ publicKeyB64 _ =>
    match decodeVerifyingKey crates deviceId publicKeyB64 with
    | .error e => .error e
    | .ok key => .ok (publicKeys.insert deviceId key)
  | _ => .ok publicKeys

-- The loop of rebuild_public_keys: it stops at the first undecodable key and
-- leaves the map as far as it got.
def rebuildLoop (publicKeys : Std.ExtTreeMap String VerifyingKey) :
    List DomainWitness → Except DomainChainError Unit × Std.ExtTreeMap String VerifyingKey
  | [] => (.ok (),publicKeys)
  | w::rest =>
    match updatePublicKeys crates publicKeys w with
    | .error e => (.error e,publicKeys)
    | .ok next => rebuildLoop next rest

def rebuildPublicKeys (entries : List DomainWitness) :
    Except DomainChainError Unit × Std.ExtTreeMap String VerifyingKey := rebuildLoop crates ∅ entries

def appendToLog (io : FileResult) (log : ChainLog) (w : DomainWitness) : Except DomainChainError Unit × ChainLog :=
  match io with
  | .failed reason left => (.error (.io reason),left)
  | .done => (.ok (),some (log.getD [] ++ [crates.witnessToString w]))

def rewriteLogAtomic (io : FileResult) (entries : List DomainWitness) : Except DomainChainError Unit × ChainLog :=
  match io with
  | .failed reason left => (.error (.io reason),left)
  | .done => (.ok (),some (entries.map crates.witnessToString))

def persistEntry (io : FileResult) (c : DomainChain) (w : DomainWitness) : Except DomainChainError Unit × ChainLog :=
  match c.persistence with
  | .memory => (.ok (),c.log)
  | .disk _ => appendToLog crates io c.log w

def persistFullLog (io : FileResult) (c : DomainChain) : Except DomainChainError Unit × ChainLog :=
  match c.persistence with
  | .memory => (.ok (),c.log)
  | .disk _ => rewriteLogAtomic crates io c.entries

-- Both displacing branches end alike: cut the vector to the kept entries, push the
-- winner, move the head, rebuild the resolver, rewrite the log. The first three
-- have happened when the rebuild or the rewrite fails.
def install (io : FileResult) (c : DomainChain) (w : DomainWitness) (kept : List DomainWitness) :
    Except DomainChainError AppendOutcome × DomainChain :=
  let entries := kept ++ [w]
  let rebuilt := rebuildPublicKeys crates entries
  let moved := {c with entries,headHashB64 := canonicalHashB64 crates w,publicKeys := rebuilt.2}
  match rebuilt.1 with
  | .error e => (.error e,moved)
  | .ok () =>
    match persistFullLog crates io moved with
    | (.error e,log) => (.error e,{moved with log})
    | (.ok (),log) => (.ok .applied,{moved with log})

def verified (w : DomainWitness) (chainEmpty : Bool) (publicKeys : Std.ExtTreeMap String VerifyingKey) :
    Except DomainChainError Unit :=
  match resolveVerifyingKey crates w chainEmpty publicKeys with
  | .error e => .error e
  | .ok key => match verify crates w key with
    | .error e => .error (.witness e)
    | .ok () => .ok ()

-- The ? operator ahead of every mutation: an error returns with the chain untouched.
def orReturn (c : DomainChain) (check : Except DomainChainError Unit)
    (next : Except DomainChainError AppendOutcome × DomainChain) : Except DomainChainError AppendOutcome × DomainChain :=
  match check with
  | .error e => (.error e,c)
  | .ok () => next

def prevHashMismatch (c : DomainChain) (w : DomainWitness) : Except DomainChainError AppendOutcome × DomainChain :=
  (.error (.prevHashMismatch c.headHashB64 w.prevHashB64),c)

-- The guard of the depth-1 branch: same parent as the last entry, another id, and an
-- originator whose key is held, or a rival founder.
def forksAtHead (c : DomainChain) (w localHead : DomainWitness) : Bool :=
  let originatorKnown := c.publicKeys.contains w.originatorDeviceId ||
    (w.op.isAdmitPeer && localHead.prevHashB64 == zeroPrevHashB64 crates)
  w.prevHashB64 == localHead.prevHashB64 && w.id != localHead.id && originatorKnown

-- Depth-1 fork against the last entry. none: the branch is not taken.
def depthOneFork (io : FileResult) (c : DomainChain) (w : DomainWitness) :
    Option (Except DomainChainError AppendOutcome × DomainChain) :=
  match c.entries.getLast? with
  | none => none
  | some localHead =>
    if forksAtHead crates c w localHead then
      match linearisationCmp w localHead with
      | .lt => some (orReturn c (verified crates w (c.entries.length == 1) c.publicKeys)
          (install crates io c w c.entries.dropLast))
      | .eq | .gt => some (.ok (.forkLost c.headHashB64),c)
    else none

-- Depth-N fork against the entry after the ancestor that w names.
def depthNFork (io : FileResult) (c : DomainChain) (w : DomainWitness) :
    Except DomainChainError AppendOutcome × DomainChain :=
  match c.entries.findIdx? (fun e => canonicalHashB64 crates e == w.prevHashB64) with
  | none => prevHashMismatch c w
  | some ancestorIdx =>
    match c.entries[ancestorIdx+1]? with
    | none => prevHashMismatch c w
    | some localFirstDivergent =>
      if localFirstDivergent.id = w.id then (.ok .duplicateAlreadyPresent,c)
      else if !c.publicKeys.contains w.originatorDeviceId then prevHashMismatch c w
      else orReturn c (verified crates w false c.publicKeys)
        (match linearisationCmp w localFirstDivergent with
          | .lt => install crates io c w (c.entries.take (ancestorIdx+1))
          | .eq | .gt => (.ok (.forkLost c.headHashB64),c))

-- The second half of the linear path: the log line is written before the resolver
-- is updated, and the entry is pushed last.
def extend (io : FileResult) (c : DomainChain) (w : DomainWitness) :
    Except DomainChainError AppendOutcome × DomainChain :=
  match persistEntry crates io c w with
  | (.error e,log) => (.error e,{c with log})
  | (.ok (),log) =>
    match updatePublicKeys crates c.publicKeys w with
    | .error e => (.error e,{c with log})
    | .ok publicKeys =>
      (.ok .applied,{c with entries := c.entries ++ [w],headHashB64 := canonicalHashB64 crates w,publicKeys,log})

def linearAppend (io : FileResult) (c : DomainChain) (w : DomainWitness) :
    Except DomainChainError AppendOutcome × DomainChain :=
  orReturn c (verified crates w c.entries.isEmpty c.publicKeys) (extend crates io c w)

def tryAppend (io : FileResult) (c : DomainChain) (w : DomainWitness) :
    Except DomainChainError AppendOutcome × DomainChain :=
  if c.entries.any (fun e => e.id == w.id) then (.ok .duplicateAlreadyPresent,c)
  else if w.prevHashB64 ≠ c.headHashB64 then
    match depthOneFork crates io c w with
    | some result => result
    | none => depthNFork crates io c w
  else linearAppend crates io c w

def appendReplayed (c : DomainChain) (w : DomainWitness) : Except DomainChainError DomainChain :=
  if w.prevHashB64 ≠ c.headHashB64 then .error (.prevHashMismatch c.headHashB64 w.prevHashB64)
  else match verified crates w c.entries.isEmpty c.publicKeys with
    | .error e => .error e
    | .ok () =>
      match updatePublicKeys crates c.publicKeys w with
      | .error e => .error e
      | .ok publicKeys =>
        .ok {c with entries := c.entries ++ [w],headHashB64 := canonicalHashB64 crates w,publicKeys}

def replay (c : DomainChain) : List DomainWitness → Except DomainChainError DomainChain
  | [] => .ok c
  | w::rest =>
    match appendReplayed crates c w with
    | .error e => .error e
    | .ok next => replay next rest

-- char::is_whitespace, the Unicode White_Space property str::trim strips.
def isWhitespace (c : Char) : Bool :=
  (9 ≤ c.toNat && c.toNat ≤ 13) || (0x2000 ≤ c.toNat && c.toNat ≤ 0x200a) ||
    [0x20,0x85,0xa0,0x1680,0x2028,0x2029,0x202f,0x205f,0x3000].contains c.toNat

def loadLines (lineNo : Nat) : List String → Except DomainChainError (List DomainWitness)
  | [] => .ok []
  | line::rest =>
    if line.toList.all isWhitespace then loadLines (lineNo+1) rest
    else match crates.witnessFromString line with
      | .error e => .error (.encoding ("chain.log line " ++ toString (lineNo+1) ++ ": " ++ e))
      | .ok w => match loadLines (lineNo+1) rest with
        | .error e => .error e
        | .ok entries => .ok (w::entries)

def loadChainLog (log : ChainLog) : Except DomainChainError (List DomainWitness) :=
  match log with
  | none => .ok []
  | some lines => loadLines crates 0 lines

def loadOrCreate (persistence : DomainChainPersistence) (log : ChainLog) : Except DomainChainError DomainChain :=
  let entries := match persistence with
    | .disk _ => loadChainLog crates log
    | .memory => .ok []
  match entries with
  | .error e => .error e
  | .ok entries => replay crates (new crates persistence log) entries

def reset (io : FileResult) (c : DomainChain) : Except DomainChainError Unit × DomainChain :=
  let cleared := {c with entries := [],headHashB64 := zeroPrevHashB64 crates,publicKeys := ∅}
  match c.persistence,c.log with
  | .disk _,some _ =>
    match io with
    | .failed reason left => (.error (.io reason),{cleared with log := left})
    | .done => (.ok (),{cleared with log := none})
  | _,_ => (.ok (),cleared)

-- The scan of tail_after: nothing until the named entry, everything after it.
def tailLoop (fromHash : String) : List DomainWitness → Option (List DomainWitness)
  | [] => none
  | entry::rest => if canonicalHashB64 crates entry = fromHash then some rest else tailLoop fromHash rest

def tailAfter (c : DomainChain) (fromHash : String) : List DomainWitness :=
  if fromHash = c.headHashB64 then []
  else if fromHash = zeroPrevHashB64 crates then c.entries
  else (tailLoop crates fromHash c.entries).getD c.entries

end EvoCore.ChainAppend
