import EvoCore.ChainReplay
import EvoCore.DomainProjection

namespace EvoCore.DomainRuntime
open External DomainEntries ChainAppend DomainProjection

inductive DomainWitnessRuntimeError where
  | chain (error : DomainChainError)
  | staleChain (localHead witnessPrev : String)
deriving DecidableEq,Repr

inductive Effect where
  | chainHeadChanged (newHeadB64 : String) (chainLength : Nat)
  | gestureApplied (witness : DomainWitness) (wasLocal : Bool)
  | gestureDuplicate (witnessId : String)
  | broadcastWitness (witness : DomainWitness)
  | requestTailFromPeer (peerId fromHash : String)
deriving DecidableEq,Repr

structure DomainWitnessRuntime where
  chain : DomainChain
  signingKey : SigningKey
  localDeviceId : String
  projection : DomainStateView
  effects : List Effect

variable (crates : DomainCrates)

def new (chain : DomainChain) (signingKey : SigningKey) (localDeviceId : String) : DomainWitnessRuntime :=
  ⟨chain,signingKey,localDeviceId,projectChain crates chain.entries,[]⟩

-- project_chain of the snapshot, with length and head as the chain reports them.
def refreshed (chain : DomainChain) : DomainStateView :=
  {projectChain crates chain.entries with chainLength := chain.entries.length,chainHeadB64 := chain.headHashB64}

def refreshProjectionAfterAppend (rt : DomainWitnessRuntime) : DomainWitnessRuntime :=
  {rt with projection := refreshed crates rt.chain}

def emit (rt : DomainWitnessRuntime) (effects : List Effect) : DomainWitnessRuntime :=
  {rt with effects := rt.effects ++ effects}

def headChanged (rt : DomainWitnessRuntime) : Effect := .chainHeadChanged rt.chain.headHashB64 rt.chain.entries.length

def reset (io : FileResult) (rt : DomainWitnessRuntime) : Except DomainWitnessRuntimeError Unit × DomainWitnessRuntime :=
  match ChainAppend.reset crates io rt.chain with
  | (.error e,chain) => (.error (.chain e),{rt with chain})
  | (.ok (),chain) =>
    let next := refreshProjectionAfterAppend crates {rt with chain}
    (.ok (),emit next [headChanged next])

-- The wall clock and the drawn witness id are arguments.
def appendLocalGesture (io : FileResult) (identifier : WitnessId) (now : UInt64) (rt : DomainWitnessRuntime)
    (op : DomainStateOp) (localEndpoints : List NetworkEndpoint) :
    Except DomainWitnessRuntimeError (DomainWitness × AppendOutcome) × DomainWitnessRuntime :=
  let witness := sign crates rt.signingKey identifier rt.chain.headHashB64 now rt.localDeviceId localEndpoints op
  match tryAppend crates io rt.chain witness with
  | (.error e,chain) => (.error (.chain e),{rt with chain})
  | (.ok outcome,chain) =>
    if outcome.isFreshApply then
      let next := refreshProjectionAfterAppend crates {rt with chain}
      (.ok (witness,outcome),emit next [headChanged next,.gestureApplied witness true,.broadcastWitness witness])
    else (.ok (witness,outcome),{rt with chain})

def receiveRemoteWitness (io : FileResult) (rt : DomainWitnessRuntime) (witness : DomainWitness) (fromPeerId : String) :
    Except DomainWitnessRuntimeError AppendOutcome × DomainWitnessRuntime :=
  match tryAppend crates io rt.chain witness with
  | (.ok .applied,chain) =>
    let next := refreshProjectionAfterAppend crates {rt with chain}
    (.ok .applied,emit next [headChanged next,.gestureApplied witness false])
  | (.ok outcome,chain) => (.ok outcome,emit {rt with chain} [.gestureDuplicate witness.id.value])
  | (.error (.prevHashMismatch expected actual),chain) =>
    (.error (.staleChain expected actual),emit {rt with chain} [.requestTailFromPeer fromPeerId expected])
  | (.error other,chain) => (.error (.chain other),{rt with chain})

-- The loop of apply_response_batch; each witness comes with the fate of the file
-- operation it may cause.
def applyBatchFrom (count : Nat) (rt : DomainWitnessRuntime) (fromPeerId : String) :
    List (FileResult × DomainWitness) → Except DomainWitnessRuntimeError Nat × DomainWitnessRuntime
  | [] => (.ok count,rt)
  | (io,witness)::rest =>
    match receiveRemoteWitness crates io rt witness fromPeerId with
    | (.error e,next) => (.error e,next)
    | (.ok outcome,next) => applyBatchFrom (if outcome.isFreshApply then count+1 else count) next fromPeerId rest

def applyResponseBatch (rt : DomainWitnessRuntime) (witnesses : List (FileResult × DomainWitness)) (fromPeerId : String) :
    Except DomainWitnessRuntimeError Nat × DomainWitnessRuntime := applyBatchFrom crates 0 rt fromPeerId witnesses

def bootstrapGenesis (io : FileResult) (identifier : WitnessId) (now : UInt64) (rt : DomainWitnessRuntime)
    (displayName : String) (localEndpoints : List NetworkEndpoint) :
    Except DomainWitnessRuntimeError (Option DomainWitness) × DomainWitnessRuntime :=
  if rt.chain.entries.isEmpty then
    let publicKeyB64 := crates.encode (crates.verifyingKey rt.signingKey).bytes
    match appendLocalGesture crates io identifier now rt
      (.admitPeer rt.localDeviceId displayName publicKeyB64 localEndpoints) localEndpoints with
    | (.error e,next) => (.error e,next)
    | (.ok (witness,_),next) => (.ok (some witness),next)
  else (.ok none,rt)

def tailAfter (rt : DomainWitnessRuntime) (fromHash : String) : List DomainWitness := ChainAppend.tailAfter crates rt.chain fromHash

inductive Call where
  | reset (io : FileResult)
  | appendLocalGesture (io : FileResult) (identifier : WitnessId) (now : UInt64) (op : DomainStateOp)
      (localEndpoints : List NetworkEndpoint)
  | receiveRemoteWitness (io : FileResult) (witness : DomainWitness) (fromPeerId : String)
  | applyResponseBatch (witnesses : List (FileResult × DomainWitness)) (fromPeerId : String)
  | bootstrapGenesis (io : FileResult) (identifier : WitnessId) (now : UInt64) (displayName : String)
      (localEndpoints : List NetworkEndpoint)

def step (rt : DomainWitnessRuntime) : Call → DomainWitnessRuntime
  | .reset io => (reset crates io rt).2
  | .appendLocalGesture io identifier now op localEndpoints =>
    (appendLocalGesture crates io identifier now rt op localEndpoints).2
  | .receiveRemoteWitness io witness fromPeerId => (receiveRemoteWitness crates io rt witness fromPeerId).2
  | .applyResponseBatch witnesses fromPeerId => (applyResponseBatch crates rt witnesses fromPeerId).2
  | .bootstrapGenesis io identifier now displayName localEndpoints =>
    (bootstrapGenesis crates io identifier now rt displayName localEndpoints).2

end EvoCore.DomainRuntime
