import EvoCore.OperatorGates
import EvoCore.TokenIntegrity

namespace EvoCore.OperatorGates
open BearerTokens PeerOrigin

variable {crates : BearerCrates} {s : Surface} {op : WireOp} {principal : Principal}

theorem extractBearer_plain (plain : headers.header "sec-websocket-protocol" = none) (peer : Option IpAddr) :
    extractBearer headers = ((HttpRequest.mk peer headers).extractBearer).map fun token => (token,none) := by
  have offered : headers.text "sec-websocket-protocol" = none := by rw [HeaderMap.text,plain]; rfl
  unfold extractBearer HttpRequest.extractBearer
  rw [offered]
  cases (headers.text "authorization").bind (stripNonEmpty bearerStart) with
  | none => rfl
  | some rest => rfl

-- The floor the surface gives a caller without a bearer.
def Surface.floor (s : Surface) (lanOrigin : Bool) : CapabilitySet :=
  if lanOrigin then s.lanPrivilegedCaps.getD s.lanTrustCaps else s.lanTrustCaps

@[simp] theorem layer_requirement : (s.layer op).requirement = op.capability := rfl
@[simp] theorem layer_validator : (s.layer op).validator = s.validator := rfl
@[simp] theorem layer_tier : (s.layer op).tier = s.tier := rfl
@[simp] theorem layer_admitted : (s.layer op).admittedCaps lanOrigin = s.floor lanOrigin := rfl

theorem gate_unbearing (gated : op.capability ≠ .none) (missing : (HttpRequest.mk (some peer) headers).extractBearer = none) :
    capabilityGate crates (s.layer op) ⟨some peer,headers⟩ nowMs = .ok (some principal) ↔
      (admitReason s.tier (isLanOrigin (effectiveOrigin peer headers))).isSome = true ∧
      principal = ⟨lanTrustTokenId,s.floor (isLanOrigin (effectiveOrigin peer headers))⟩ ∧
      principal.capabilities.satisfies op.capability = true := by
  simp only [capabilityGate,layer_requirement,layer_tier,layer_admitted,gated,if_false,missing,Option.map_some,Option.getD_some]
  cases admitReason s.tier (isLanOrigin (effectiveOrigin peer headers)) with
  | none => simp
  | some reason =>
    simp only [Option.isSome_some,true_and]
    by_cases satisfied : (s.floor (isLanOrigin (effectiveOrigin peer headers))).satisfies op.capability = true
    · simp only [satisfied,if_true]
      constructor
      · intro same
        cases Option.some.inj (Except.ok.inj same)
        exact ⟨rfl,satisfied⟩
      · rintro ⟨rfl,_⟩
        rfl
    · simp only [satisfied]
      constructor
      · intro same
        cases same
      · rintro ⟨rfl,also⟩
        exact absurd also satisfied

theorem upgrade_unbearing (missing : extractBearer headers = none) :
    wsHandler crates s peer headers nowMs = .ok up ↔
      (admitReason s.tier (isLanOrigin (effectiveOrigin peer headers))).isSome = true ∧
      up = ⟨⟨lanTrustTokenId,s.floor (isLanOrigin (effectiveOrigin peer headers))⟩,none⟩ := by
  simp only [wsHandler,missing,Surface.floor]
  cases s.tier <;> cases isLanOrigin (effectiveOrigin peer headers) <;> simp [admitReason,eq_comm]

theorem gate_bearing (gated : op.capability ≠ .none) (shown : (HttpRequest.mk (some peer) headers).extractBearer = some tokenStr) :
    capabilityGate crates (s.layer op) ⟨some peer,headers⟩ nowMs = .ok (some principal) ↔
      ∃ token,BearerToken.decode crates tokenStr = .ok token ∧ s.validator.verify crates token nowMs = .ok () ∧
        principal = ⟨token.id,token.capabilities⟩ ∧ principal.capabilities.satisfies op.capability = true := by
  simp only [capabilityGate,layer_requirement,layer_validator,gated,if_false,shown]
  cases decoded : BearerToken.decode crates tokenStr with
  | error e => simp
  | ok token =>
    dsimp only
    cases checked : s.validator.checkCapability crates token op.capability nowMs with
    | ok _ =>
      obtain ⟨verified,satisfied⟩ := check_ok.mp checked
      constructor
      · intro same
        cases Option.some.inj (Except.ok.inj same)
        exact ⟨token,rfl,verified,rfl,satisfied⟩
      · rintro ⟨other,same,_,rfl,_⟩
        cases Except.ok.inj same
        rfl
    | error e =>
      constructor
      · intro same
        cases e <;> cases same
      · rintro ⟨other,same,verified,rfl,satisfied⟩
        cases Except.ok.inj same
        rw [check_ok.mpr ⟨verified,satisfied⟩] at checked
        cases checked

theorem upgrade_bearing (shown : extractBearer headers = some (tokenStr,protocol)) :
    wsHandler crates s peer headers nowMs = .ok up ↔
      ∃ token,BearerToken.decode crates tokenStr = .ok token ∧ s.validator.verify crates token nowMs = .ok () ∧
        up = ⟨⟨token.id,token.capabilities⟩,protocol⟩ := by
  simp only [wsHandler,shown]
  cases decoded : BearerToken.decode crates tokenStr with
  | error e => simp
  | ok token =>
    dsimp only
    cases verified : s.validator.verify crates token nowMs with
    | error e => simp [verified]
    | ok _ => simp [verified,eq_comm]

theorem handleRequest_op (member : op ∈ s.schema.ops) (class_ : classifyOp op = .request) :
    handleRequest s principal op.id.text = .ok op.id ↔ principal.capabilities.satisfies op.capability = true := by
  rw [handleRequest,← class_,frameGate_op member]
  split <;> simp [*]

theorem capabilityGate_upgrade (member : op ∈ s.schema.ops) (class_ : classifyOp op = .request) (gated : op.capability ≠ .none)
    (plain : headers.header "sec-websocket-protocol" = none) :
    capabilityGate crates (s.layer op) ⟨some peer,headers⟩ nowMs = .ok (some principal) ↔
      ∃ up,wsHandler crates s peer headers nowMs = .ok up ∧ up.principal = principal ∧
        handleRequest s up.principal op.id.text = .ok op.id := by
  have same := extractBearer_plain plain (some peer)
  cases shown : (HttpRequest.mk (some peer) headers).extractBearer with
  | none =>
    rw [shown] at same
    rw [gate_unbearing gated shown]
    constructor
    · rintro ⟨admitted,rfl,satisfied⟩
      exact ⟨_,(upgrade_unbearing same).mpr ⟨admitted,rfl⟩,rfl,(handleRequest_op member class_).mpr satisfied⟩
    · rintro ⟨up,upgraded,rfl,passed⟩
      obtain ⟨admitted,rfl⟩ := (upgrade_unbearing same).mp upgraded
      exact ⟨admitted,rfl,(handleRequest_op member class_).mp passed⟩
  | some tokenStr =>
    rw [shown] at same
    rw [gate_bearing gated shown]
    constructor
    · rintro ⟨token,decoded,verified,rfl,satisfied⟩
      exact ⟨_,(upgrade_bearing same).mpr ⟨token,decoded,verified,rfl⟩,rfl,(handleRequest_op member class_).mpr satisfied⟩
    · rintro ⟨up,upgraded,rfl,passed⟩
      obtain ⟨token,decoded,verified,rfl⟩ := (upgrade_bearing same).mp upgraded
      exact ⟨token,decoded,verified,rfl,(handleRequest_op member class_).mp passed⟩

-- What either surface makes of a caller without a bearer from outside the LAN does not depend on
-- the privileged set, and it is the trust floor.
theorem gate_outside (missing : (HttpRequest.mk peer headers).extractBearer = none)
    (outside : (peer.map fun ip => isLanOrigin (effectiveOrigin ip headers)).getD false = false)
    (admitted : capabilityGate crates layer ⟨peer,headers⟩ nowMs = .ok (some principal)) :
    principal = ⟨lanTrustTokenId,layer.lanTrustCaps⟩ ∧ ∀ other,
      capabilityGate crates {layer with lanPrivilegedCaps := other} ⟨peer,headers⟩ nowMs = .ok (some principal) := by
  have floored : ∀ l : AuthLayer,l.admittedCaps false = l.lanTrustCaps := fun _ => rfl
  have same : ∀ other,capabilityGate crates {layer with lanPrivilegedCaps := other} ⟨peer,headers⟩ nowMs =
      capabilityGate crates layer ⟨peer,headers⟩ nowMs := by
    intro other
    simp only [capabilityGate,missing,outside,floored]
  refine ⟨?_,fun other => (same other).trans admitted⟩
  simp only [capabilityGate,missing,outside,floored] at admitted
  split at admitted
  · cases admitted
  · split at admitted
    · split at admitted
      · exact (Option.some.inj (Except.ok.inj admitted)).symm
      · cases admitted
    · cases admitted

theorem upgrade_outside (missing : extractBearer headers = none) (outside : isLanOrigin (effectiveOrigin peer headers) = false)
    (upgraded : wsHandler crates s peer headers nowMs = .ok up) :
    up.principal = ⟨lanTrustTokenId,s.lanTrustCaps⟩ ∧ ∀ other,
      wsHandler crates {s with lanPrivilegedCaps := other} peer headers nowMs = .ok up := by
  obtain ⟨admitted,shape⟩ := (upgrade_unbearing missing).mp upgraded
  rw [outside] at shape admitted
  have floored : ∀ t : Surface,t.floor false = t.lanTrustCaps := fun _ => rfl
  refine ⟨by rw [shape,floored],fun other => (upgrade_unbearing missing).mpr ?_⟩
  rw [outside]
  exact ⟨admitted,shape⟩

-- One request, two surfaces.
theorem gates_agree (crates : BearerCrates) (s : Surface) :
    (∀ op ∈ s.schema.ops,classifyOp op = .request → op.capability ≠ .none →
      ∀ peer (headers : HeaderMap) nowMs principal,headers.header "sec-websocket-protocol" = none →
        (capabilityGate crates (s.layer op) ⟨some peer,headers⟩ nowMs = .ok (some principal) ↔
          ∃ up,wsHandler crates s peer headers nowMs = .ok up ∧ up.principal = principal ∧
            handleRequest s up.principal op.id.text = .ok op.id)) ∧
    (∀ (layer : AuthLayer) peer headers nowMs principal,(HttpRequest.mk peer headers).extractBearer = none →
      (peer.map fun ip => isLanOrigin (effectiveOrigin ip headers)).getD false = false →
      capabilityGate crates layer ⟨peer,headers⟩ nowMs = .ok (some principal) →
      principal = ⟨lanTrustTokenId,layer.lanTrustCaps⟩ ∧ ∀ other,
        capabilityGate crates {layer with lanPrivilegedCaps := other} ⟨peer,headers⟩ nowMs = .ok (some principal)) ∧
    ∀ peer headers nowMs up,extractBearer headers = none → isLanOrigin (effectiveOrigin peer headers) = false →
      wsHandler crates s peer headers nowMs = .ok up →
      up.principal = ⟨lanTrustTokenId,s.lanTrustCaps⟩ ∧ ∀ other,
        wsHandler crates {s with lanPrivilegedCaps := other} peer headers nowMs = .ok up := by
  refine ⟨?_,?_,?_⟩
  · intro op member class_ gated peer headers nowMs principal plain
    exact capabilityGate_upgrade member class_ gated plain
  · intro layer peer headers nowMs principal missing outside admitted
    exact gate_outside missing outside admitted
  · intro peer headers nowMs up missing outside upgraded
    exact upgrade_outside missing outside upgraded

-- A caller on the LAN, and one from outside.
def listPlugins : WireOp := ⟨⟨"list_plugins",by decide⟩,.read "plugins"⟩
def household : Surface :=
  ⟨⟨[listPlugins],by decide⟩,⟨⟨[]⟩,⟨[]⟩⟩,.secure,⟨[]⟩,some ⟨[.write "plugins"]⟩⟩

theorem household_agrees :
    (∃ up,wsHandler bearerLibrary household (.v4 (192,168,1,10)) [] 1000 = .ok up ∧
      up.principal = ⟨lanTrustTokenId,⟨[.write "plugins"]⟩⟩ ∧
      handleRequest household up.principal "list_plugins" = .ok listPlugins.id) ∧
    capabilityGate bearerLibrary (household.layer listPlugins) ⟨some (.v4 (8,8,8,8)),[]⟩ 1000 = .error .unauthorized :=
  ⟨((gates_agree bearerLibrary household).1 listPlugins (List.mem_singleton_self _) (by decide) (by decide)
    (.v4 (192,168,1,10)) [] 1000 ⟨lanTrustTokenId,⟨[.write "plugins"]⟩⟩ rfl).mp rfl,rfl⟩

end EvoCore.OperatorGates
