import EvoCore.Heartbeats
import EvoCore.ChainTrust

namespace EvoCore.Heartbeats
open External Bytes DomainEntries DomainProjection JsonText Runs Std
open Tables (get)

variable {crates : HeartbeatCrates} {w : World} {bytes : List UInt8} {deviceId : String} {found : HeartbeatPayload × VerifyingKey}

theorem evoState_names : ∀ s t : EvoState,s.name = t.name → s = t := by
  intro s t
  cases s <;> cases t <;> decide

theorem quoted_opens (text : String) (x y : List Char) : quoted text ++ x ≠ ']'::y :=
  fun same => absurd (List.cons.inj same).1 (by decide)

theorem toVec_injective : Function.Injective HeartbeatPayload.toVec := by
  intro p q same
  have texts : p.toJson = q.toJson := String.ofList_injective (utf8_injective same)
  simp only [HeartbeatPayload.toJson,List.cons.injEq,true_and,List.append_cancel_left_eq] at texts
  obtain ⟨ids,rest⟩ := quoted_delimited _ _ _ _ texts
  simp only [List.cons.injEq,true_and,List.append_cancel_left_eq] at rest
  obtain ⟨endpoints,rest⟩ := array_delimited quoted_delimited quoted_opens _ _ _ _ rest
  simp only [List.cons.injEq,true_and,List.append_cancel_left_eq] at rest
  obtain ⟨states,rest⟩ := quoted_delimited _ _ _ _ rest
  simp only [List.cons.injEq,true_and,List.append_cancel_left_eq] at rest
  have times : p.signedAtMs = q.signedAtMs := Nat.repr_injective (String.toList_injective (List.append_cancel_right rest))
  cases p
  cases q
  simp only [HeartbeatPayload.mk.injEq]
  exact ⟨ids,endpoints,evoState_names _ _ states,times⟩

-- The rows of the trust ledger are kept under their own device id.
def KeyedRows (trust : ExtTreeMap String TrustProjection) : Prop :=
  ∀ (device : String) (row : TrustProjection),trust[device]? = some row → row.deviceId = device

def Keyed (view : DomainStateView) : Prop := KeyedRows view.trust

theorem keyed_modify {trust : ExtTreeMap String TrustProjection} (keyed : KeyedRows trust) (subject : String)
    (change : TrustProjection → TrustProjection) (same : ∀ row,(change row).deviceId = row.deviceId) :
    KeyedRows (trust.modify subject change) := by
  intro device row there
  rw [ExtTreeMap.getElem?_modify] at there
  split at there
  · rename_i equal
    obtain ⟨before,held,rfl⟩ := Option.map_eq_some_iff.mp there
    rw [same,keyed subject before held]
    exact Std.compare_eq_iff_eq.mp equal
  · exact keyed device row there

theorem keyed_insert {trust : ExtTreeMap String TrustProjection} (keyed : KeyedRows trust) (new : TrustProjection) :
    KeyedRows (trust.insert new.deviceId new) := by
  intro device row there
  rw [ExtTreeMap.getElem?_insert] at there
  split at there
  · rename_i equal
    cases Option.some.inj there
    exact Std.compare_eq_iff_eq.mp equal
  · exact keyed device row there

theorem apply_keyed (view : DomainStateView) (w : DomainWitness) (keyed : Keyed view) : Keyed (view.apply w) := by
  unfold DomainStateView.apply
  cases op : w.op with
  | admitPeer subject display key endpoints => exact keyed_insert keyed ⟨subject,display,key,w.tsNs,none,none,.admitted⟩
  | discardPeer subject reason => exact keyed_modify keyed subject _ fun _ => rfl
  | renamePeerDisplayName subject display => exact keyed_modify keyed subject _ fun _ => rfl
  | removeMemberFromGroup groupId subject =>
    simp only [removeMemberFromGroup]
    split
    · exact keyed
    · split <;> exact keyed
  | setGroupLeader groupId subject =>
    simp only [setGroupLeader]
    split
    · exact keyed
    · split <;> exact keyed
  | _ => exact keyed

theorem applied_keyed (entries : List DomainWitness) : Keyed (applied entries) := by
  induction entries using List.reverseRecOn with
  | nil =>
    intro device row there
    simp [applied,emptyView] at there
  | append_singleton before w ih =>
    rw [applied_snoc]
    exact apply_keyed _ w ih

theorem member_found {view : DomainStateView} (keyed : Keyed view) (deviceId : String) :
    (list crates (some view)).find? (fun r => r.deviceId = deviceId) = (view.trust[deviceId]?).map (projectionToMember crates) := by
  have inside : ∀ member,member ∈ list crates (some view) ↔ ∃ entry ∈ view.trust.toList,projectionToMember crates entry.2 = member := by
    intro member
    rw [list,(List.mergeSort_perm _ _).mem_iff,List.mem_map]
  have own : ∀ entry ∈ view.trust.toList,view.trust[entry.2.deviceId]? = some entry.2 := by
    intro entry member
    have there := ExtTreeMap.mem_toList_iff_getElem?_eq_some.mp member
    rwa [keyed entry.1 entry.2 there]
  cases looked : (list crates (some view)).find? (fun r => r.deviceId = deviceId) with
  | none =>
    cases held : view.trust[deviceId]? with
    | none => rfl
    | some row =>
      have listed : (deviceId,row) ∈ view.trust.toList := ExtTreeMap.mem_toList_iff_getElem?_eq_some.mpr held
      have unlike := List.find?_eq_none.mp looked _ ((inside _).mpr ⟨_,listed,rfl⟩)
      exact absurd (decide_eq_true (keyed deviceId row held)) unlike
  | some member =>
    obtain ⟨entry,listed,rfl⟩ := (inside _).mp (List.mem_of_find?_eq_some looked)
    have named : (projectionToMember crates entry.2).deviceId = deviceId := by simpa using List.find?_some looked
    have named : entry.2.deviceId = deviceId := named
    rw [← named,own entry listed]
    rfl

theorem keyOf_known (keyed : ∀ view,w.projection = some view → Keyed view) (known : keyOf crates w.projection deviceId = some key) :
    w.state deviceId = some .admitted ∨ w.state deviceId = some .discarded := by
  unfold keyOf at known
  split at known
  · cases known
  · rename_i bytes given
    obtain ⟨member,named,_⟩ := Option.bind_eq_some_iff.mp given
    cases bound : w.projection with
    | none =>
      rw [bound] at named
      cases named
    | some view =>
      rw [bound,member_found (keyed view bound)] at named
      obtain ⟨row,there,_⟩ := Option.map_eq_some_iff.mp named
      have state : w.state deviceId = some row.state := by
        rw [World.state,bound,Option.bind_some,there,Option.map_some]
      rw [state]
      cases row.state with
      | admitted => exact .inl rfl
      | discarded => exact .inr rfl

theorem keyOf_row {view : DomainStateView} {row : TrustProjection} (keyed : Keyed view) (there : view.trust[deviceId]? = some row)
    (decoded : crates.decode row.publicKeyB64 = .ok bytes) (sized : bytes.length = publicKeyLength)
    (parses : crates.verifyingKeyFromBytes bytes = .ok key) : keyOf crates (some view) deviceId = some key := by
  simp only [keyOf,member_found keyed,there,Option.map_some,Option.bind_some,projectionToMember,decoded,Except.toOption,sized,if_true,parses]

theorem verifiedPacket_parts (passes : verifiedPacket crates w bytes = some found) :
    ∃ envelope,crates.envelopeFromSlice bytes = .ok envelope ∧ envelope.payload = found.1 ∧
      w.nowMs - replayWindowMs ≤ found.1.signedAtMs ∧ keyOf crates w.projection found.1.deviceId = some found.2 := by
  unfold verifiedPacket at passes
  split at passes
  · cases passes
  · split at passes
    · cases passes
    · rename_i envelope decoded
      split at passes
      · cases passes
      · split at passes
        · cases passes
        · rename_i fresh
          split at passes
          · cases passes
          · rename_i key known
            split at passes
            · cases Option.some.inj passes
              exact ⟨envelope,decoded,rfl,Nat.not_lt.mp fresh,known⟩
            · cases passes

theorem verifiedPacket_known {envelope : HeartbeatEnvelope} (short : bytes.length ≤ maxHeartbeatBytes)
    (decoded : crates.envelopeFromSlice bytes = .ok envelope) (remote : envelope.payload.deviceId ≠ w.localDeviceId)
    (fresh : w.nowMs - replayWindowMs ≤ envelope.payload.signedAtMs)
    (known : keyOf crates w.projection envelope.payload.deviceId = some key)
    (signed : crates.verify key envelope.payload.toVec envelope.signature = true) :
    verifiedPacket crates w bytes = some (envelope.payload,key) := by
  simp only [verifiedPacket,if_neg (Nat.not_lt.mpr short),decoded,if_neg remote,if_neg (Nat.not_lt.mpr fresh),known,signed,if_true]

structure Sound (w : World) : Prop where
  keyed : ∀ view,w.projection = some view → Keyed view
  clocks : ∀ e ∈ w.emissions,e.envelope.payload.signedAtMs ≤ e.atMs
  newest : Newest w

theorem onPacket_dropped (drops : verifiedPacket crates w bytes = none) : onPacket crates w bytes = w := by
  simp only [onPacket,drops]

theorem onPacket_verified (passes : verifiedPacket crates w bytes = some found) : onPacket crates w bytes =
    { w with
      peers := w.peers.insert found.1.deviceId ⟨found.1.deviceId,w.nowMs,found.1.endpoints,found.1.evoState⟩
      received := w.received ++ [⟨found.1.deviceId,w.nowMs,found.1.endpoints,found.1.evoState⟩]
      verified := w.verified ++ [found.1] } := by
  simp only [onPacket,passes]

theorem newest_other {p : HeartbeatPayload} {row : PeerHeartbeat} (newest : Newest w) (other : deviceId ≠ p.deviceId) :
    match get (w.peers.insert p.deviceId row) deviceId with
    | none => ∀ q ∈ w.verified ++ [p],q.deviceId ≠ deviceId
    | some row => ∃ q ∈ w.verified ++ [p],q.deviceId = deviceId ∧ row.endpoints = q.endpoints ∧ row.evoState = q.evoState ∧
        ∀ r ∈ w.verified ++ [p],r.deviceId = deviceId → r.signedAtMs ≤ q.signedAtMs := by
  have held := newest deviceId
  rw [Tables.get_insert,if_neg other]
  cases there : get w.peers deviceId with
  | none =>
    rw [there] at held
    intro q member
    rcases List.mem_append.mp member with old | new
    · exact held q old
    · rw [List.mem_singleton.mp new]
      exact other.symm
  | some row =>
    rw [there] at held
    obtain ⟨q,member,own,endpoints,state,most⟩ := held
    refine ⟨q,List.mem_append_left _ member,own,endpoints,state,fun r inside mine => ?_⟩
    rcases List.mem_append.mp inside with old | new
    · exact most r old mine
    · rw [List.mem_singleton.mp new] at mine
      exact absurd mine.symm other

theorem packet_newest (newest : Newest w) (passes : verifiedPacket crates w bytes = some found)
    (met : InOrder crates w (.packet bytes)) : Newest (onPacket crates w bytes) := by
  obtain ⟨_,order⟩ := met found passes
  rw [onPacket_verified passes]
  intro deviceId
  by_cases own : deviceId = found.1.deviceId
  swap
  · exact newest_other newest own
  subst own
  dsimp only
  rw [Tables.get_insert,if_pos rfl]
  -- The payload is the newest itself, or an older one that says what the newest says.
  by_cases latest : ∀ q ∈ w.verified,q.deviceId = found.1.deviceId → q.signedAtMs ≤ found.1.signedAtMs
  · refine ⟨found.1,List.mem_append_right _ (List.mem_singleton_self _),rfl,rfl,rfl,fun q member own => ?_⟩
    rcases List.mem_append.mp member with old | new
    · exact latest q old own
    · rw [List.mem_singleton.mp new]
  · obtain ⟨row,there,endpoints,state⟩ := order.resolve_left latest
    have there : get w.peers found.1.deviceId = some row := there
    have held := newest found.1.deviceId
    rw [there] at held
    obtain ⟨p,member,own,alike,same,most⟩ := held
    refine ⟨p,List.mem_append_left _ member,own,endpoints.symm.trans alike,state.symm.trans same,fun q inside mine => ?_⟩
    rcases List.mem_append.mp inside with old | new
    · exact most q old mine
    · rw [List.mem_singleton.mp new]
      simp only [not_forall] at latest
      obtain ⟨q,old,its,later⟩ := latest
      have bounded := most q old its
      omega

-- An older packet that says something else than every newer one takes the row back.
theorem older_replaces {q : HeartbeatPayload} (passes : verifiedPacket crates w bytes = some found) (inside : q ∈ w.verified)
    (own : q.deviceId = found.1.deviceId) (older : found.1.signedAtMs < q.signedAtMs)
    (differ : ∀ p ∈ w.verified,q.signedAtMs ≤ p.signedAtMs → p.endpoints ≠ found.1.endpoints) :
    ¬ Newest (onPacket crates w bytes) := by
  intro newest
  have held := newest found.1.deviceId
  rw [onPacket_verified passes] at held
  dsimp only at held
  rw [Tables.get_insert,if_pos rfl] at held
  obtain ⟨p,member,_,endpoints,_,most⟩ := held
  have latest := most q (List.mem_append_left _ inside) own
  rcases List.mem_append.mp member with old | new
  · exact differ p old latest endpoints.symm
  · rw [List.mem_singleton.mp new] at latest
    omega

@[simp] theorem onPacket_projection (w : World) (bytes : List UInt8) : (onPacket crates w bytes).projection = w.projection := by
  unfold onPacket
  split <;> rfl

@[simp] theorem onPacket_emissions (w : World) (bytes : List UInt8) : (onPacket crates w bytes).emissions = w.emissions := by
  unfold onPacket
  split <;> rfl

@[simp] theorem onPacket_nowMs (w : World) (bytes : List UInt8) : (onPacket crates w bytes).nowMs = w.nowMs := by
  unfold onPacket
  split <;> rfl

@[simp] theorem onPacket_localDeviceId (w : World) (bytes : List UInt8) :
    (onPacket crates w bytes).localDeviceId = w.localDeviceId := by
  unfold onPacket
  split <;> rfl

theorem step_sound (w : World) (a : Action) (sound : Sound w) (met : InOrder crates w a) : Sound (step crates w a) := by
  cases a with
  | tick ms => exact ⟨sound.keyed,sound.clocks,sound.newest⟩
  | chain entries =>
    refine ⟨fun view bound => ?_,sound.clocks,sound.newest⟩
    cases Option.some.inj bound
    exact applied_keyed entries
  | emit key deviceId endpoints evoState clockMs =>
    simp only [step,emitOne]
    split
    · exact sound
    · refine ⟨sound.keyed,fun e member => ?_,sound.newest⟩
      rcases List.mem_append.mp member with old | new
      · exact sound.clocks e old
      · cases List.mem_singleton.mp new
        exact met
  | packet bytes =>
    have projection : (step crates w (.packet bytes)).projection = w.projection := onPacket_projection w bytes
    have emissions : (step crates w (.packet bytes)).emissions = w.emissions := onPacket_emissions w bytes
    refine ⟨fun view bound => sound.keyed view (projection ▸ bound),fun e member => sound.clocks e (emissions ▸ member),?_⟩
    cases passes : verifiedPacket crates w bytes with
    | none =>
      simp only [step,onPacket_dropped passes]
      exact sound.newest
    | some found => exact packet_newest sound.newest passes met

theorem step_admitted (w : World) (a : Action) (sound : Sound w) (met : InOrder crates w a) : OnlyAdmitted crates w a := by
  cases a with
  | packet bytes =>
    intro envelope decoded outside
    cases passes : verifiedPacket crates w bytes with
    | none =>
      rw [onPacket_dropped passes]
      exact ⟨rfl,rfl⟩
    | some found =>
      obtain ⟨envelope_,decoded_,same,_,known⟩ := verifiedPacket_parts passes
      cases Except.ok.inj (decoded.symm.trans decoded_)
      rw [same] at outside
      exact absurd ((keyOf_known sound.keyed known).resolve_right (met found passes).1) outside
  | _ => trivial

theorem step_timely (w : World) (a : Action) (sound : Sound w) (ideal : Unforged crates w a) : Timely crates w a := by
  cases a with
  | packet bytes =>
    intro found passes
    obtain ⟨e,member,signed,same⟩ := ideal found passes
    obtain ⟨_,_,_,fresh,_⟩ := verifiedPacket_parts passes
    have payload := toVec_injective same
    have early := sound.clocks e member
    rw [payload] at early
    exact ⟨e,member,payload,signed,by omega⟩
  | _ => trivial

theorem fresh_sound (nowMs : Nat) (localDeviceId : String) : Sound (.fresh nowMs localDeviceId) := by
  refine ⟨?_,?_,?_⟩
  · intro view bound
    cases bound
  · intro e member
    cases member
  · intro deviceId p member
    cases member

theorem heartbeats_fresh (crates : HeartbeatCrates) (nowMs : Nat) (localDeviceId : String) (actions : List Action)
    (ideal : Guarded (step crates) (Unforged crates) (.fresh nowMs localDeviceId) actions)
    (met : Guarded (step crates) (InOrder crates) (.fresh nowMs localDeviceId) actions) :
    Guarded (step crates) (OnlyAdmitted crates) (.fresh nowMs localDeviceId) actions ∧
    Throughout (step crates) Newest (.fresh nowMs localDeviceId) actions ∧
    Guarded (step crates) (Timely crates) (.fresh nowMs localDeviceId) actions := by
  have sound := guarded_keeps step_sound (fresh_sound nowMs localDeviceId) met
  refine ⟨?_,?_,?_⟩
  · exact guarded_carries step_sound step_admitted (fresh_sound nowMs localDeviceId) met
  · exact throughout_prefixes.mpr fun k => (throughout_prefixes.mp sound k).newest
  · refine @guarded_carries _ _ _ Sound _ _ _ _ ?_ ?_ (fresh_sound nowMs localDeviceId) (guarded_and.mpr ⟨met,ideal⟩)
    · exact fun w a held both => step_sound w a held both.1
    · exact fun w a held both => step_timely w a held both.2

-- A house with one peer, whose clock is then ten minutes ahead. A packet on the wire is the number of the
-- envelope it carries.
def peerKey : SigningKey := ⟨[7]⟩
def atHome : HeartbeatPayload := ⟨"kitchen",["10.0.0.7:7000"],.live,3600000⟩
def ahead : HeartbeatPayload := ⟨"kitchen",["10.0.0.8:7000"],.paused,4200000⟩
def envelopeOf (payload : HeartbeatPayload) : HeartbeatEnvelope := ⟨payload,IdealCrates.library.sign peerKey payload.toVec⟩

def post : HeartbeatCrates where
  toCrates := IdealCrates.library
  envelopeToVec envelope := if envelope.payload = atHome then [0] else [1]
  envelopeFromSlice bytes := if bytes = [0] then .ok (envelopeOf atHome) else if bytes = [1] then .ok (envelopeOf ahead) else .error "expected value"

def admission : DomainWitness :=
  ⟨⟨"w1"⟩,"",0,"lounge",[],.admitPeer "kitchen" "Kitchen" (IdealCrates.encode (IdealCrates.library.verifyingKey peerKey).bytes) [],""⟩
def discarding : DomainWitness := ⟨⟨"w2"⟩,"",1,"lounge",[],.discardPeer "kitchen" none,""⟩

def emission (payload : HeartbeatPayload) : Action :=
  .emit peerKey payload.deviceId payload.endpoints payload.evoState payload.signedAtMs

def lounge : World := .fresh 3600000 "lounge"

def kitchenKey : VerifyingKey := IdealCrates.library.verifyingKey peerKey

def Listed (view : DomainStateView) : Prop := ∃ row,view.trust["kitchen"]? = some row ∧ row.publicKeyB64 = IdealCrates.encode kitchenKey.bytes

theorem kitchen_key {view : DomainStateView} (keyed : Keyed view) (listed : Listed view) :
    keyOf post (some view) "kitchen" = some kitchenKey := by
  obtain ⟨row,there,own⟩ := listed
  apply @keyOf_row _ kitchenKey.bytes _ _ _ _ keyed there
  · rw [own]
    exact IdealCrates.decode_encode kitchenKey.bytes
  · decide
  · rfl

theorem kitchen_verified (entries : List DomainWitness) (bound : w.projection = some (applied entries)) (listed : Listed (applied entries))
    (remote : w.localDeviceId = "lounge") {payload : HeartbeatPayload} (decoded : post.envelopeFromSlice bytes = .ok (envelopeOf payload))
    (short : bytes.length ≤ maxHeartbeatBytes) (own : payload.deviceId = "kitchen") (fresh : w.nowMs - replayWindowMs ≤ payload.signedAtMs) :
    verifiedPacket post w bytes = some (payload,kitchenKey) := by
  apply verifiedPacket_known short decoded
  · simp [envelopeOf,own,remote]
  · exact fresh
  · simpa only [bound,envelopeOf,own] using kitchen_key (applied_keyed entries) listed
  · exact IdealCrates.library_documented.sign_verifies peerKey payload.toVec

theorem admission_listed : Listed (applied [admission]) := by
  refine ⟨⟨"kitchen","Kitchen",IdealCrates.encode kitchenKey.bytes,0,none,none,.admitted⟩,?_,rfl⟩
  decide
theorem discarding_listed : Listed (applied [admission,discarding]) := by
  refine ⟨⟨"kitchen","Kitchen",IdealCrates.encode kitchenKey.bytes,0,some 1,none,.discarded⟩,?_,rfl⟩
  decide

structure Wired (w : World) (entries : List DomainWitness) (nowMs : Nat) (sent : List (HeartbeatPayload × Nat))
    (heard : List HeartbeatPayload) : Prop where
  bound : w.projection = some (applied entries)
  listed : Listed (applied entries)
  remote : w.localDeviceId = "lounge"
  clock : w.nowMs = nowMs
  outbox : w.emissions = sent.map fun sending => ⟨peerKey,envelopeOf sending.1,sending.2⟩
  verified : w.verified = heard

theorem Wired.packet (wired : Wired w entries nowMs sent heard) {payload : HeartbeatPayload}
    (passes : verifiedPacket post w bytes = some (payload,kitchenKey)) : Wired (onPacket post w bytes) entries nowMs sent (heard++[payload]) := by
  constructor
  · rw [onPacket_projection,wired.bound]
  · exact wired.listed
  · rw [onPacket_localDeviceId,wired.remote]
  · rw [onPacket_nowMs,wired.clock]
  · rw [onPacket_emissions,wired.outbox]
  · rw [onPacket_verified passes,wired.verified]

theorem Wired.tick (wired : Wired w entries nowMs sent heard) (ms : Nat) :
    Wired (step post w (.tick ms)) entries (nowMs + ms) sent heard := by
  refine ⟨wired.bound,wired.listed,wired.remote,?_,wired.outbox,wired.verified⟩
  simp only [step,wired.clock]

theorem Wired.chain (wired : Wired w entries nowMs sent heard) (listed : Listed (applied later)) :
    Wired (step post w (.chain later)) later nowMs sent heard := ⟨rfl,listed,wired.remote,wired.clock,wired.outbox,wired.verified⟩

theorem Wired.emit (wired : Wired w entries nowMs sent heard) (payload : HeartbeatPayload) :
    Wired (step post w (emission payload)) entries nowMs (sent++[(payload,nowMs)]) heard := by
  have small : ∀ envelope,(post.envelopeToVec envelope).length = 1 := fun envelope => by simp only [post]; split <;> rfl
  have sends : step post w (emission payload) = { w with emissions := w.emissions++[⟨peerKey,envelopeOf payload,w.nowMs⟩] } :=
    if_neg (by rw [small]; decide)
  rw [sends]
  refine ⟨wired.bound,wired.listed,wired.remote,wired.clock,?_,wired.verified⟩
  simp only [wired.outbox,wired.clock,List.map_append,List.map_cons,List.map_nil]

theorem Wired.passes (wired : Wired w entries nowMs sent heard) (bytes : List UInt8) (payload : HeartbeatPayload)
    (decoded : post.envelopeFromSlice bytes = .ok (envelopeOf payload)) (short : bytes.length ≤ maxHeartbeatBytes)
    (own : payload.deviceId = "kitchen") (fresh : nowMs - replayWindowMs ≤ payload.signedAtMs) :
    verifiedPacket post w bytes = some (payload,kitchenKey) :=
  kitchen_verified entries wired.bound wired.listed wired.remote decoded short own (wired.clock ▸ fresh)

theorem Wired.unforged (wired : Wired w entries nowMs sent heard) {payload : HeartbeatPayload} (member : payload ∈ sent.map Prod.fst)
    (passes : verifiedPacket post w bytes = some (payload,kitchenKey)) : Unforged post w (.packet bytes) := by
  intro found verified
  cases Option.some.inj (passes.symm.trans verified)
  obtain ⟨sending,there,rfl⟩ := List.mem_map.mp member
  refine ⟨⟨peerKey,envelopeOf sending.1,sending.2⟩,?_,rfl,rfl⟩
  rw [wired.outbox]
  exact List.mem_map.mpr ⟨sending,there,rfl⟩

theorem Wired.ordered (wired : Wired w entries nowMs sent heard) {payload : HeartbeatPayload} (own : payload.deviceId = "kitchen")
    (stays : ((applied entries).trust["kitchen"]?).map TrustProjection.state ≠ some .discarded)
    (newest : ∀ q ∈ heard,q.signedAtMs ≤ payload.signedAtMs)
    (passes : verifiedPacket post w bytes = some (payload,kitchenKey)) : InOrder post w (.packet bytes) := by
  intro found verified
  cases Option.some.inj (passes.symm.trans verified)
  refine ⟨?_,.inl fun q member _ => newest q (wired.verified ▸ member)⟩
  rw [own,World.state,wired.bound]
  exact stays

-- Two packets in the order they were signed, the second delivered twice.
def arrival : List Action :=
  [.chain [admission],emission atHome,.packet [0],.tick 600000,emission ahead,.packet [1],.packet [1]]

theorem arrival_fresh : Guarded (step post) (OnlyAdmitted post) lounge arrival ∧
    Throughout (step post) Newest lounge arrival ∧ Guarded (step post) (Timely post) lounge arrival := by
  have first : Wired (run (step post) lounge (arrival.take 2)) [admission] 3600000 [(atHome,3600000)] [] :=
    ⟨rfl,admission_listed,rfl,rfl,rfl,rfl⟩
  have older := first.passes [0] atHome rfl (by decide) rfl (by decide)
  have second : Wired (run (step post) lounge (arrival.take 5)) [admission] (3600000 + 600000) [(atHome,3600000),(ahead,4200000)] [atHome] :=
    ((first.packet older).tick 600000).emit ahead
  have newer := second.passes [1] ahead rfl (by decide) rfl (by decide)
  have third : Wired (run (step post) lounge (arrival.take 6)) [admission] (3600000 + 600000) [(atHome,3600000),(ahead,4200000)]
      [atHome,ahead] := second.packet newer
  have again := third.passes [1] ahead rfl (by decide) rfl (by decide)
  have ideal : Guarded (step post) (Unforged post) lounge arrival :=
    ⟨trivial,trivial,first.unforged (by decide) older,trivial,trivial,second.unforged (by decide) newer,third.unforged (by decide) again,trivial⟩
  have clock := (first.packet older).tick 600000 |>.clock
  have met : Guarded (step post) (InOrder post) lounge arrival :=
    ⟨trivial,Nat.le_refl _,first.ordered rfl (by decide) (by decide) older,trivial,Nat.le_of_eq clock.symm,
      second.ordered rfl (by decide) (by decide) newer,third.ordered rfl (by decide) (by decide) again,trivial⟩
  exact heartbeats_fresh post 3600000 "lounge" arrival ideal met

-- The newer packet, then the older: the row goes back. The newer one again twelve minutes after it was
-- sent, which still moves the row's time. And once more after the peer's discard.
def replayed : List Action :=
  [.chain [admission],emission atHome,emission ahead,.packet [1],.packet [0],.tick 720000,.packet [1],.chain [admission,discarding],.packet [1]]

def outgoing : List (HeartbeatPayload × Nat) := [(atHome,3600000),(ahead,3600000)]

theorem replays_accepted : Guarded (step post) (Unforged post) lounge replayed ∧ ¬ Guarded (step post) (OnlyAdmitted post) lounge replayed ∧
    ¬ Throughout (step post) Newest lounge replayed ∧ ¬ Guarded (step post) (Timely post) lounge replayed := by
  have first : Wired (run (step post) lounge (replayed.take 3)) [admission] 3600000 outgoing [] := ⟨rfl,admission_listed,rfl,rfl,rfl,rfl⟩
  have newer := first.passes [1] ahead rfl (by decide) rfl (by decide)
  have second : Wired (run (step post) lounge (replayed.take 4)) [admission] 3600000 outgoing [ahead] := first.packet newer
  have older := second.passes [0] atHome rfl (by decide) rfl (by decide)
  have third : Wired (run (step post) lounge (replayed.take 6)) [admission] (3600000 + 720000) outgoing [ahead,atHome] :=
    (second.packet older).tick 720000
  have late := third.passes [1] ahead rfl (by decide) rfl (by decide)
  have fourth : Wired (run (step post) lounge (replayed.take 8)) [admission,discarding] (3600000 + 720000) outgoing [ahead,atHome,ahead] :=
    (third.packet late).chain discarding_listed
  have discarded := fourth.passes [1] ahead rfl (by decide) rfl (by decide)
  refine ⟨?_,?_,?_,?_⟩
  · exact ⟨trivial,trivial,trivial,first.unforged (by decide) newer,second.unforged (by decide) older,trivial,
      third.unforged (by decide) late,trivial,fourth.unforged (by decide) discarded,trivial⟩
  · intro met
    have outside : (run (step post) lounge (replayed.take 8)).state "kitchen" ≠ some .admitted := by
      rw [World.state,fourth.bound]
      decide
    have same := (guarded_positions.mp met 8 (.packet [1]) rfl (envelopeOf ahead) rfl outside).2
    rw [onPacket_verified discarded] at same
    exact absurd (congrArg List.length same) (by simp)
  · intro held
    have there : ahead ∈ (run (step post) lounge (replayed.take 4)).verified := second.verified ▸ List.mem_singleton_self _
    refine older_replaces older there rfl (by decide) ?_ (throughout_prefixes.mp held 5)
    rw [second.verified]
    decide
  · intro met
    obtain ⟨e,member,_,_,soon⟩ := guarded_positions.mp met 6 (.packet [1]) rfl (ahead,kitchenKey) late
    rw [third.outbox] at member
    rw [third.clock] at soon
    have sentAt : e.atMs = 3600000 := by
      obtain ⟨sending,there,rfl⟩ := List.mem_map.mp member
      exact (by decide : ∀ sending ∈ outgoing,sending.2 = 3600000) sending there
    rw [sentAt] at soon
    exact absurd soon (by decide)

end EvoCore.Heartbeats
