import EvoCore.GateAgreement

namespace EvoCore.OperatorGates
open BearerTokens PeerOrigin Runs

-- An open WebSocket: the principal stored at the upgrade and the ids of its subscriptions. The token that was
-- presented, the ids revoked since and the last tick since are kept only to speak about them.
structure Connection where
  principal : Principal
  presented : Option BearerToken
  activeSubs : List String
  revoked : List String
  clock : Option UInt64
deriving DecidableEq

structure World where
  surface : Surface
  nowMs : UInt64
  connections : List Connection

inductive Action where
  | issue (key : External.SigningKey) (id : String) (capabilities : CapabilitySet) (ttlMs : UInt64)
  | revoke (tokenId : String)
  | tick (nowMs : UInt64)
  | http (op : WireOp) (peer : IpAddr) (headers : HeaderMap)
  | upgrade (peer : IpAddr) (headers : HeaderMap)
  | request (connection : Nat) (op : String)
  | subscribe (connection : Nat) (subscriptionId op : String) (opens : Bool)
  | unsubscribe (connection : Nat) (subscriptionId : String)

variable (crates : BearerCrates)

def presentedToken (tokenStr : Option String) : Option BearerToken :=
  tokenStr.bind fun text => (BearerToken.decode crates text).toOption

def World.revoke (w : World) (tokenId : String) : World :=
  { w with
    surface := { w.surface with validator :=
      { w.surface.validator with revocations := w.surface.validator.revocations.revoke tokenId } }
    connections := w.connections.map fun c => { c with revoked := tokenId::c.revoked } }

def World.tick (w : World) (nowMs : UInt64) : World :=
  { w with nowMs,connections := w.connections.map fun c => { c with clock := some nowMs } }

def World.amend (w : World) (i : Nat) (change : List String → List String) : World :=
  { w with connections := w.connections.modify i fun c => { c with activeSubs := change c.activeSubs } }

-- A frame under an id still in the map is refused after the gate; the dispatcher may refuse too.
def opensSub (s : Surface) (c : Connection) (subscriptionId op : String) (opens : Bool) : Bool :=
  (handleSubscribe s c.principal op).isOk && !c.activeSubs.contains subscriptionId && opens

def step (w : World) : Action → World
  | .issue .. => w
  | .revoke tokenId => w.revoke tokenId
  | .tick nowMs => w.tick nowMs
  | .http .. => w
  | .upgrade peer headers =>
    match wsHandler crates w.surface peer headers w.nowMs with
    | .error _ => w
    | .ok up => { w with connections := w.connections ++
      [⟨up.principal,presentedToken crates ((extractBearer headers).map (·.1)),[],[],none⟩] }
  | .request .. => w
  | .subscribe i subscriptionId op opens =>
    match w.connections[i]? with
    | none => w
    | some c => if opensSub w.surface c subscriptionId op opens then w.amend i (· ++ [subscriptionId]) else w
  | .unsubscribe i subscriptionId => w.amend i (·.erase subscriptionId)

structure Dispatch where
  tokenId : String
  token : Option BearerToken
deriving DecidableEq

def isGated (s : Surface) (op : WireOpId) : Bool :=
  match Tables.get s.schemaById op.text with
  | some requirement => requirement ≠ .none
  | none => false

def dispatched (w : World) : Action → Option Dispatch
  | .http op peer headers =>
    match if op ∈ w.surface.schema.ops then capabilityGate crates (w.surface.layer op) ⟨some peer,headers⟩ w.nowMs
      else .ok none with
    | .ok (some principal) => some ⟨principal.tokenId,presentedToken crates (HttpRequest.mk (some peer) headers).extractBearer⟩
    | _ => none
  | .request i op =>
    match w.connections[i]? with
    | none => none
    | some c =>
      match handleRequest w.surface c.principal op with
      | .ok id => if isGated w.surface id then some ⟨c.principal.tokenId,c.presented⟩ else none
      | .error _ => none
  | .subscribe i subscriptionId op opens =>
    match w.connections[i]? with
    | none => none
    | some c => if opensSub w.surface c subscriptionId op opens then some ⟨c.principal.tokenId,c.presented⟩ else none
  | _ => none

def isLive (w : World) (d : Dispatch) : Bool :=
  !w.surface.validator.revocations.isRevoked d.tokenId && d.token.all fun token => w.nowMs < token.expiresAtMs

def Lawful (w : World) (a : Action) : Prop := (dispatched crates w a).all (isLive w) = true

instance lawfulDecidable (w : World) (a : Action) : Decidable (Lawful crates w a) := by
  unfold Lawful
  infer_instance

-- The name the LAN callers go by is no token's id. Whoever revokes it revokes nothing.
def lanAdmits (w : World) (op : WireOp) (peer : IpAddr) (headers : HeaderMap) : Bool :=
  op ∈ w.surface.schema.ops && (HttpRequest.mk (some peer) headers).extractBearer.isNone && op.capability ≠ .none &&
    (admitReason w.surface.tier (isLanOrigin (effectiveOrigin peer headers))).isSome &&
    (w.surface.floor (isLanOrigin (effectiveOrigin peer headers))).satisfies op.capability

def passes (w : World) (class_ : FrameClass) (c : Connection) (op : String) : Bool :=
  w.surface.schema.ops.any fun known => known.id.text = op && classifyOp known = class_ &&
    c.principal.capabilities.satisfies known.capability && (class_ = .subscribe || known.capability ≠ .none)

-- Neither a revocation of the token nor its expiry has come since the upgrade. A LAN caller has no token,
-- and the name of all of them is off the list.
def Unlapsed (w : World) (c : Connection) : Prop :=
  match c.presented with
  | none => w.surface.validator.revocations.isRevoked c.principal.tokenId = false
  | some token => c.principal.tokenId ∉ c.revoked ∧ ∀ nowMs ∈ c.clock,nowMs < token.expiresAtMs

-- What the upgrade checked still holds of a connection whose frame its own set lets through, and no LAN
-- caller is served while the name of all of them is on the list.
def InTime (w : World) : Action → Prop
  | .http op peer headers => lanAdmits w op peer headers = true → w.surface.validator.revocations.isRevoked lanTrustTokenId = false
  | .request i op => ∀ c,w.connections[i]? = some c → passes w .request c op = true → Unlapsed w c
  | .subscribe i subscriptionId op opens => ∀ c,w.connections[i]? = some c → passes w .subscribe c op = true →
    subscriptionId ∉ c.activeSubs → opens = true → Unlapsed w c
  | _ => True

def Heard (w : World) : Prop := ∀ (i : Nat) c,w.connections[i]? = some c → ∀ token,c.presented = some token →
  (w.surface.validator.revocations.isRevoked c.principal.tokenId = true ↔ c.principal.tokenId ∈ c.revoked) ∧
  (c.clock = some w.nowMs ∨ c.clock = none ∧ w.nowMs < token.expiresAtMs)

variable {crates} {w : World} {c : Connection}

theorem frameGate_ok {s : Surface} {class_ : FrameClass} {principal : Principal} {opStr : String} {id : WireOpId} :
    frameGate s class_ principal opStr = .ok id ↔
      ∃ op ∈ s.schema.ops,op.id = id ∧ op.id.text = opStr ∧ classifyOp op = class_ ∧
        principal.capabilities.satisfies op.capability = true := by
  constructor
  · intro passed
    by_cases listed : opStr ∈ s.schema.ops.map fun op => op.id.text
    · obtain ⟨op,member,rfl⟩ := List.mem_map.mp listed
      simp only [frameGate,new_text,schemaById_op member,dispatchTable_op member] at passed
      split at passed
      · cases passed
      · rename_i same
        split at passed
        · rename_i satisfied
          exact ⟨op,member,Except.ok.inj passed,rfl,not_not.mp same,satisfied⟩
        · cases passed
    · have absent : Tables.get s.schemaById opStr = none :=
        (Tables.load_absent (schema_loads WireOp.capability) listed).trans Tables.get_empty
      unfold frameGate at passed
      cases named : WireOpId.new opStr with
      | error e => rw [named] at passed; cases passed
      | ok other =>
        have text : other.text = opStr := by
          unfold WireOpId.new at named
          split at named
          · cases named
          · split at named
            · rw [← Except.ok.inj named]
            · cases named
        simp only [named,text,absent] at passed
        cases passed
  · rintro ⟨op,member,rfl,rfl,rfl,satisfied⟩
    rw [frameGate_op member,if_pos satisfied]

theorem isGated_op {s : Surface} {op : WireOp} (member : op ∈ s.schema.ops) :
    isGated s op.id = true ↔ op.capability ≠ .none := by
  simp [isGated,schemaById_op member]

theorem request_exact (there : w.connections[i]? = some c) : dispatched crates w (.request i op) =
    if passes w .request c op = true then some ⟨c.principal.tokenId,c.presented⟩ else none := by
  simp only [dispatched,there]
  cases passed : handleRequest w.surface c.principal op with
  | ok id =>
    obtain ⟨known,member,rfl,rfl,class_,satisfied⟩ := frameGate_ok.mp passed
    by_cases gated : isGated w.surface known.id = true
    · have met : passes w .request c known.id.text = true :=
        List.any_eq_true.mpr ⟨known,member,by simp [class_,satisfied,(isGated_op member).mp gated]⟩
      simp only [gated,met,if_true]
    · have unmet : ¬ passes w .request c known.id.text = true := by
        intro met
        obtain ⟨other,also,same⟩ := List.any_eq_true.mp met
        simp only [Bool.and_eq_true,decide_eq_true_eq,Bool.or_eq_true,reduceCtorEq,false_or] at same
        have equal : other = known := List.inj_on_of_nodup_map w.surface.schema.unique also member same.1.1.1
        exact gated ((isGated_op member).mpr (equal ▸ same.2))
      dsimp only
      rw [if_neg gated,if_neg unmet]
  | error e =>
    have unmet : ¬ passes w .request c op = true := by
      intro met
      obtain ⟨other,also,same⟩ := List.any_eq_true.mp met
      simp only [Bool.and_eq_true,decide_eq_true_eq] at same
      have ok := frameGate_ok.mpr ⟨other,also,rfl,same.1.1.1,same.1.1.2,same.1.2⟩
      rw [handleRequest,ok] at passed
      cases passed
    rw [if_neg unmet]

theorem subscribe_exact (there : w.connections[i]? = some c) : dispatched crates w (.subscribe i subId op opens) =
    if passes w .subscribe c op = true ∧ subId ∉ c.activeSubs ∧ opens = true then
      some ⟨c.principal.tokenId,c.presented⟩ else none := by
  have gate : (handleSubscribe w.surface c.principal op).isOk = true ↔ passes w .subscribe c op = true := by
    constructor
    · intro passed
      cases shown : handleSubscribe w.surface c.principal op with
      | error e => rw [shown] at passed; cases passed
      | ok id =>
        obtain ⟨known,member,_,text,class_,satisfied⟩ := frameGate_ok.mp shown
        exact List.any_eq_true.mpr ⟨known,member,by simp [text,class_,satisfied]⟩
    · intro met
      obtain ⟨other,also,same⟩ := List.any_eq_true.mp met
      simp only [Bool.and_eq_true,decide_eq_true_eq] at same
      rw [handleSubscribe,frameGate_ok.mpr ⟨other,also,rfl,same.1.1.1,same.1.1.2,same.1.2⟩]
      rfl
  simp only [dispatched,there,opensSub,Bool.and_eq_true,Bool.not_eq_true',List.contains_iff_mem,gate,
    Bool.eq_false_iff,ne_eq,and_assoc]

theorem live_exact {i : Nat} (heard : Heard w) (there : w.connections[i]? = some c) :
    isLive w ⟨c.principal.tokenId,c.presented⟩ = true ↔ Unlapsed w c := by
  unfold Unlapsed
  cases shown : c.presented with
  | none => simp [isLive]
  | some token =>
    obtain ⟨revoked,clock⟩ := heard i c there token shown
    rw [← revoked]
    rcases clock with ticked | ⟨still,current⟩
    · simp [isLive,ticked]
    · simp [isLive,still,current]

theorem amend_heard (heard : Heard w) : Heard (w.amend i change) := by
  intro j c there token shown
  rw [World.amend,List.getElem?_modify] at there
  split at there
  · obtain ⟨old,before,rfl⟩ := Option.map_eq_some_iff.mp there
    exact heard j old before token shown
  · exact heard j c (by simpa using there) token shown

theorem step_heard (heard : Heard w) (a : Action) : Heard (step crates w a) := by
  cases a with
  | issue key id caps ttlMs | http op peer headers | request i op => exact heard
  | unsubscribe i subId => exact amend_heard heard
  | subscribe i subId op opens =>
    simp only [step]
    split
    · exact heard
    · split
      · exact amend_heard heard
      · exact heard
  | revoke tokenId =>
    intro j c there token shown
    obtain ⟨old,before,rfl⟩ := Option.map_eq_some_iff.mp (List.getElem?_map.symm.trans there)
    obtain ⟨revoked,clock⟩ := heard j old before token shown
    exact ⟨by simp [step,World.revoke,revoked],clock⟩
  | tick nowMs =>
    intro j c there token shown
    obtain ⟨old,before,rfl⟩ := Option.map_eq_some_iff.mp (List.getElem?_map.symm.trans there)
    exact ⟨(heard j old before token shown).1,.inl rfl⟩
  | upgrade peer headers =>
    simp only [step]
    split
    · exact heard
    · rename_i up upgraded
      intro j c there token shown
      rw [List.getElem?_append] at there
      split at there
      · exact heard j c there token shown
      · have new := List.mem_singleton.mp (List.mem_of_getElem? there)
        subst new
        cases bearer : extractBearer headers with
        | none =>
          rw [bearer] at shown
          cases shown
        | some offered =>
          obtain ⟨other,decoded,verified,rfl⟩ := (upgrade_bearing bearer).mp upgraded
          have same : other = token := by simpa [bearer,presentedToken,decoded,Except.toOption] using shown
          subst same
          have inForce := (verify_ok.mp verified).1
          exact ⟨by simp [inForce.unrevoked],.inr ⟨rfl,inForce.current⟩⟩

theorem request_lawful (heard : Heard w) : Lawful crates w (.request i op) ↔ InTime w (.request i op) := by
  cases there : w.connections[i]? with
  | none => simp [Lawful,InTime,dispatched,there]
  | some c =>
    simp only [Lawful,InTime,request_exact there,there,Option.some.injEq,forall_eq',← live_exact heard there]
    split <;> simp [*]

theorem subscribe_lawful (heard : Heard w) : Lawful crates w (.subscribe i subId op opens) ↔ InTime w (.subscribe i subId op opens) := by
  cases there : w.connections[i]? with
  | none => simp [Lawful,InTime,dispatched,there]
  | some c =>
    simp only [Lawful,InTime,subscribe_exact there,there,Option.some.injEq,forall_eq',← live_exact heard there]
    split
    · rename_i met
      simp [met]
    · rename_i unmet
      simp only [Option.all_none,true_iff]
      exact fun passed fresh open_ => absurd ⟨passed,fresh,open_⟩ unmet

theorem http_lawful : Lawful crates w (.http op peer headers) ↔ InTime w (.http op peer headers) := by
  by_cases member : op ∈ w.surface.schema.ops
  swap
  · simp [Lawful,InTime,dispatched,lanAdmits,member]
  by_cases gated : op.capability = .none
  · simp [Lawful,InTime,dispatched,lanAdmits,member,gated,capabilityGate]
  have shape : dispatched crates w (.http op peer headers) =
      match capabilityGate crates (w.surface.layer op) ⟨some peer,headers⟩ w.nowMs with
      | .ok (some principal) => some ⟨principal.tokenId,presentedToken crates (HttpRequest.mk (some peer) headers).extractBearer⟩
      | _ => none := by
    simp only [dispatched,member,if_true]
  cases shown : (HttpRequest.mk (some peer) headers).extractBearer with
  | none =>
    have admits : lanAdmits w op peer headers = true ↔
        ∃ principal,capabilityGate crates (w.surface.layer op) ⟨some peer,headers⟩ w.nowMs = .ok (some principal) := by
      constructor
      · intro met
        simp only [lanAdmits,Bool.and_eq_true,decide_eq_true_eq] at met
        exact ⟨_,(gate_unbearing gated shown).mpr ⟨met.1.2,rfl,met.2⟩⟩
      · rintro ⟨principal,ok⟩
        obtain ⟨admitted,rfl,satisfied⟩ := (gate_unbearing gated shown).mp ok
        simp [lanAdmits,member,shown,gated,admitted,satisfied]
    rw [Lawful,shape,shown]
    split
    · rename_i principal ok
      obtain ⟨_,rfl,_⟩ := (gate_unbearing gated shown).mp ok
      simp [InTime,admits.mpr ⟨_,ok⟩,isLive,presentedToken]
    · rename_i other
      have unmet : ¬ lanAdmits w op peer headers = true := fun met => (admits.mp met).elim other
      simp [InTime,unmet]
  | some tokenStr =>
    have vacuous : InTime w (.http op peer headers) := by simp [InTime,lanAdmits,shown]
    refine iff_of_true ?_ vacuous
    rw [Lawful,shape,shown]
    split
    · rename_i principal ok
      obtain ⟨token,decoded,verified,rfl,_⟩ := (gate_bearing gated shown).mp ok
      have inForce := (verify_ok.mp verified).1
      simp [isLive,presentedToken,decoded,Except.toOption,inForce.unrevoked,inForce.current]
    · rfl

theorem lawful_exact (heard : Heard w) (a : Action) : Lawful crates w a ↔ InTime w a := by
  cases a with
  | http op peer headers => exact http_lawful
  | request i op => exact request_lawful heard
  | subscribe i subId op opens => exact subscribe_lawful heard
  | _ => exact iff_of_true rfl trivial

theorem dispatches_exact (crates : BearerCrates) (w : World) (heard : Heard w) (actions : List Action) :
    Guarded (step crates) (Lawful crates) w actions ↔ Guarded (step crates) InTime w actions :=
  guarded_iff Heard (fun _ a heard => lawful_exact heard a) (fun _ a heard _ => step_heard heard a) heard

-- A library that reads every text as the one token, and the device it was issued on.
def oneToken : BearerCrates := { bearerLibrary with urlDecode := fun _ => .ok [],tokenFromSlice := fun _ => .ok (granting holder) }
def device : World := ⟨{ household with validator := ⟨oneToken.verifyingKey deviceKey,⟨[]⟩⟩ },1500,[]⟩
def remote : Action := .upgrade (.v4 (8,8,8,8)) [("authorization",Bytes.utf8 "Bearer A")]

theorem device_served : Guarded (step oneToken) (Lawful oneToken) device
    [remote,.request 0 "list_plugins",.tick 5000,.revoke "other",.request 0 "list_plugins"] := by
  refine (dispatches_exact oneToken device (fun _ _ there => by cases there) _).mpr ⟨trivial,?_,trivial,trivial,?_,trivial⟩
  · intro c there _
    cases there
    exact ⟨List.not_mem_nil,fun _ none_ => by cases none_⟩
  · intro c there _
    cases there
    refine ⟨by decide,fun nowMs ticked => ?_⟩
    cases ticked
    decide

-- The socket opened before the revocation, or before the expiry, is still served after it. The same
-- bearer on HTTP is not.
theorem revoked_served :
    ¬ Guarded (step oneToken) (Lawful oneToken) device [remote,.revoke "id",.request 0 "list_plugins"] ∧
    ¬ Guarded (step oneToken) (Lawful oneToken) device [remote,.tick 7000,.request 0 "list_plugins"] ∧
    Guarded (step oneToken) (Lawful oneToken) device
      [remote,.request 0 "list_plugins",.revoke "id",.http listPlugins (.v4 (8,8,8,8)) [("authorization",Bytes.utf8 "Bearer A")]] := by
  decide

end EvoCore.OperatorGates
