import EvoCore.GateAgreement
import EvoCore.Fields

namespace EvoCore.PeerOrigin
open Fields BearerTokens OperatorGates

-- The characters an address is written with.
def addressChar (c : Char) : Bool := (toDigit 16 c).isSome || c = '.' || c = ':'

def Eats (text rest : List Char) : Prop := ∃ used,text = used++rest ∧ ∀ c ∈ used,addressChar c = true

theorem eats_refl : Eats text text := ⟨[],rfl,fun _ member => by cases member⟩

theorem eats_trans (first : Eats text middle) (second : Eats middle rest) : Eats text rest := by
  obtain ⟨used,rfl,fine⟩ := first
  obtain ⟨more,rfl,fine_⟩ := second
  refine ⟨used++more,by simp,?_⟩
  intro c member
  exact (List.mem_append.mp member).elim (fine c) (fine_ c)

theorem eats_all (eaten : Eats text []) : ∀ c ∈ text,addressChar c = true := by
  obtain ⟨used,rfl,fine⟩ := eaten
  simpa using fine

theorem toDigit_wider {radix : Nat} {c : Char} (small : radix ≤ 16) (digit : (toDigit radix c).isSome = true) : (toDigit 16 c).isSome = true := by
  obtain ⟨n,found⟩ := Option.isSome_iff_exists.mp digit
  unfold toDigit at found ⊢
  dsimp only at found ⊢
  obtain ⟨written,bound⟩ := Option.filter_eq_some_iff.mp found
  have wide : n < 16 := Nat.lt_of_lt_of_le (of_decide_eq_true bound) small
  exact Option.isSome_iff_exists.mpr ⟨n,Option.filter_eq_some_iff.mpr ⟨written,decide_eq_true wide⟩⟩

theorem number_eats (small : radix ≤ 16) (read : readNumber radix maxDigits bound zero text = some (n,rest)) : Eats text rest := by
  unfold readNumber at read
  dsimp only at read
  split at read
  · cases read
  · split at read
    · cases read
    · split at read
      · cases read
      · cases read
        have taken := List.prefix_iff_eq_take.mp (List.takeWhile_prefix (l := text) fun c => (toDigit radix c).isSome)
        refine ⟨text.takeWhile fun c => (toDigit radix c).isSome,?_,?_⟩
        · conv_lhs => rw [← List.take_append_drop (text.takeWhile fun c => (toDigit radix c).isSome).length text]
          rw [← taken]
        · intro c member
          have digit := List.mem_takeWhile_imp member
          simp [addressChar,toDigit_wider small digit]

theorem separator_eats (written : addressChar sep = true) (read : afterSeparator sep first text = some rest) : Eats text rest := by
  unfold afterSeparator at read
  split at read
  · cases read
    exact eats_refl
  · split at read
    · rename_i c more
      split at read
      · rename_i same
        cases read
        exact ⟨[c],rfl,fun d member => by rw [List.mem_singleton.mp member,same]; exact written⟩
      · cases read
    · cases read

theorem octet_eats (read : readOctet first text = some (octet,rest)) : Eats text rest := by
  simp only [readOctet,Option.bind_eq_bind,Option.bind_eq_some_iff,Option.pure_def,Option.some.injEq,Prod.mk.injEq] at read
  obtain ⟨middle,separated,⟨n,after⟩,number,_,rfl⟩ := read
  exact eats_trans (separator_eats (by decide) separated) (number_eats (by decide) number)

theorem ipv4_eats (read : readIpv4 text = some (octets,rest)) : Eats text rest := by
  simp only [readIpv4,Option.bind_eq_bind,Option.bind_eq_some_iff,Option.pure_def,Option.some.injEq,Prod.mk.injEq] at read
  obtain ⟨⟨a,one⟩,first,⟨b,two⟩,second,⟨c,three⟩,third,⟨d,four⟩,fourth,_,rfl⟩ := read
  exact eats_trans (octet_eats first) (eats_trans (octet_eats second) (eats_trans (octet_eats third) (octet_eats fourth)))

theorem groups_eats (n : Nat) : Eats text (readGroups first n text).2.2 := by
  induction n generalizing first text with
  | zero => exact eats_refl
  | succ n n_ih =>
    unfold readGroups
    split
    · rename_i a b c d rest read
      split at read
      · cases read
      · obtain ⟨middle,separated,dotted⟩ := Option.bind_eq_some_iff.mp read
        exact eats_trans (separator_eats (by decide) separated) (ipv4_eats dotted)
    · split
      · rename_i group rest read
        obtain ⟨middle,separated,number⟩ := Option.bind_eq_some_iff.mp read
        exact eats_trans (separator_eats (by decide) separated) (eats_trans (number_eats (by decide) number) n_ih)
      · exact eats_refl

theorem ipv6_eats (read : readIpv6 text = some (addr,rest)) : Eats text rest := by
  have head := @groups_eats text true 8
  unfold readIpv6 at read
  dsimp only at read
  split at read
  · obtain ⟨a,_,same⟩ := Option.map_eq_some_iff.mp read
    cases same
    exact head
  · split at read
    · cases read
    · split at read
      · rename_i more left
        obtain ⟨a,_,same⟩ := Option.map_eq_some_iff.mp read
        cases same
        rw [left] at head
        have colons : Eats (':' :: ':' :: more) more := ⟨[':',':'],rfl,fun c member => by simp at member; subst member; decide⟩
        exact eats_trans head (eats_trans colons (groups_eats _))
      · cases read

theorem parseIp_chars (read : parseIp text = some addr) : ∀ c ∈ text,addressChar c = true := by
  apply eats_all
  unfold parseIp at read
  split at read
  · rename_i octets rest dotted
    split at read
    · rename_i done
      exact done ▸ ipv4_eats dotted
    · cases read
  · split at read
    · rename_i address rest groups
      split at read
      · rename_i done
        exact done ▸ ipv6_eats groups
      · cases read
    · cases read

theorem address_code {c : Char} (written : addressChar c = true) : 46 ≤ c.toNat ∧ c.toNat ≤ 122 := by
  simp only [addressChar,Bool.or_eq_true,decide_eq_true_eq] at written
  obtain (digit | rfl) | rfl := written
  · unfold toDigit at digit
    dsimp only at digit
    split at digit
    · rename_i decimal
      obtain ⟨low,high⟩ := Char.isDigit_iff_toNat.mp decimal
      exact ⟨Nat.le_trans (by decide) low,Nat.le_trans high (by decide)⟩
    · split at digit
      · rename_i lower
        omega
      · split at digit
        · rename_i upper
          omega
        · cases digit
  · decide
  · decide

theorem address_apart {c d : Char} (written : addressChar c = true) (low : d.toNat < 46) : c ≠ d := by
  intro same
  have bounds := address_code written
  rw [same] at bounds
  omega

theorem address_unblank {c : Char} (written : addressChar c = true) : isBlank c = false := by
  simp [isBlank,address_apart written (show ' '.toNat < 46 by decide),address_apart written (show '\t'.toNat < 46 by decide)]

theorem trim_plain {text : List Char} (plain : ∀ c ∈ text,isBlank c = false) : trim text = text := by
  have front : ∀ {chars : List Char},(∀ c ∈ chars,isBlank c = false) → chars.dropWhile isBlank = chars := by
    intro chars fine
    cases chars with
    | nil => rfl
    | cons c rest => rw [List.dropWhile_cons_of_neg]; simp [fine c List.mem_cons_self]
  rw [trim,front plain,front,List.reverse_reverse]
  intro c member
  exact plain c (List.mem_reverse.mp member)

theorem loopback_lan (near : isLoopbackAddr peer = true) : isLanOrigin peer = true := by
  have octets : ∀ quad,v4Loopback quad = true → v4Lan quad = true := fun quad near => by simp [v4Lan,near]
  cases peer with
  | v4 quad => exact octets quad near
  | v6 segments =>
    simp only [isLoopbackAddr,Bool.or_eq_true] at near
    simp only [isLanOrigin,Bool.or_eq_true]
    obtain here | mapped := near
    · exact .inl (.inl (.inl here))
    · right
      cases found : toIpv4Mapped segments with
      | none => rw [found] at mapped; cases mapped
      | some quad =>
        rw [found] at mapped
        exact octets quad mapped

-- The proxy appends the client's address to what the client has sent.
def asBytes (text : List Char) : List UInt8 := text.map fun c => UInt8.ofNat c.toNat

def relayedValue (sent : List (List UInt8)) (client : List Char) : List UInt8 := [0x2c,0x20].intercalate (sent++[asBytes client])

def relayed (others : HeaderMap) (sent : List (List UInt8)) (client : List Char) : HeaderMap :=
  ("x-forwarded-for",relayedValue sent client)::others

def leftmost (value : List UInt8) : List Char := trim ((value.map fun b => Char.ofNat b.toNat).takeWhile (· ≠ ','))

-- A client that writes nothing, or readable values of which the first begins with an address outside the LAN.
def OutsideFirst : List (List UInt8) → Prop
  | [] => True
  | first::rest => (∀ value ∈ first::rest,(toStr value).isSome = true) ∧ ∃ addr,parseIp (leftmost first) = some addr ∧ isLanOrigin addr = false

theorem intercalate_all {items : List (List α)} {sep : List α} {good : α → Prop} (fine : ∀ b ∈ sep,good b) :
    (∀ b ∈ sep.intercalate items,good b) ↔ ∀ item ∈ items,∀ b ∈ item,good b := by
  induction items with
  | nil => simp
  | cons item rest rest_ih =>
    cases rest with
    | nil => simp
    | cons next more =>
      rw [List.intercalate_cons_cons]
      simp only [List.mem_append,List.forall_mem_cons,or_imp,forall_and] at rest_ih ⊢
      rw [rest_ih]
      constructor
      · intro all
        exact ⟨all.1.1,all.2⟩
      · intro all
        exact ⟨⟨all.1,fine⟩,all.2⟩

def readableByte (b : UInt8) : Prop := b = 9 ∨ (32 ≤ b ∧ b < 127)

theorem separator_readable : ∀ b ∈ ([0x2c,0x20] : List UInt8),readableByte b := by
  intro b member
  simp only [List.mem_cons,List.not_mem_nil,or_false] at member
  obtain rfl | rfl := member
  · exact .inr ⟨by decide,by decide⟩
  · exact .inr ⟨by decide,by decide⟩

theorem toStr_isSome : (toStr value).isSome = true ↔ ∀ b ∈ value,readableByte b := by
  unfold toStr
  split
  · rename_i all
    simpa [readableByte] using all
  · rename_i unread
    simpa [readableByte] using unread

variable {client : List Char} {sent : List (List UInt8)} {others : HeaderMap}

theorem asBytes_readable (written : ∀ c ∈ client,addressChar c = true) : ∀ b ∈ asBytes client,readableByte b := by
  intro b member
  obtain ⟨c,inside,rfl⟩ := List.mem_map.mp member
  have bounds := address_code (written c inside)
  refine .inr ⟨?_,?_⟩
  · rw [UInt8.le_iff_toNat_le,UInt8.toNat_ofNat']
    change 32 ≤ _
    omega
  · rw [UInt8.lt_iff_toNat_lt,UInt8.toNat_ofNat']
    change _ < 127
    omega

theorem asBytes_chars (written : ∀ c ∈ client,addressChar c = true) : ((asBytes client).map fun b => Char.ofNat b.toNat) = client := by
  rw [asBytes,List.map_map]
  conv_rhs => rw [← List.map_id client]
  apply List.map_congr_left
  intro c inside
  have bounds := address_code (written c inside)
  have code : (UInt8.ofNat c.toNat).toNat = c.toNat := by
    rw [UInt8.toNat_ofNat']
    omega
  simp [code]

theorem relayed_readable (written : ∀ c ∈ client,addressChar c = true) :
    (toStr (relayedValue sent client)).isSome = true ↔ ∀ value ∈ sent,(toStr value).isSome = true := by
  simp only [toStr_isSome]
  rw [relayedValue,intercalate_all separator_readable]
  simp only [List.mem_append,List.mem_singleton,or_imp,forall_and,forall_eq]
  exact and_iff_left (asBytes_readable written)

theorem comma_free (written : ∀ c ∈ client,addressChar c = true) : ',' ∉ client :=
  fun member => address_apart (written ',' member) (by decide) rfl

theorem relayed_first (written : ∀ c ∈ client,addressChar c = true) :
    leftmost (relayedValue sent client) = match sent with
      | [] => client
      | first::_ => leftmost first := by
  unfold leftmost relayedValue
  cases sent with
  | nil =>
    simp only [List.nil_append,List.intercalate_singleton,asBytes_chars written]
    rw [field_free (comma_free written)]
    exact trim_plain fun c member => address_unblank (written c member)
  | cons first rest =>
    have shape : ∃ more,[0x2c,0x20].intercalate (first::rest++[asBytes client]) = first++0x2c::more := by
      cases rest with
      | nil => exact ⟨_,by simp [List.intercalate_cons_cons]; rfl⟩
      | cons next more => exact ⟨_,by simp [List.intercalate_cons_cons]; rfl⟩
    obtain ⟨more,joined⟩ := shape
    rw [joined,List.map_append,List.map_cons]
    exact congrArg trim first_field

theorem relayed_outside (near : isLoopbackAddr peer = true) (address : parseIp client = some addr) (outside : isLanOrigin addr = false) :
    isLanOrigin (effectiveOrigin peer (relayed others sent client)) = false ↔ OutsideFirst sent := by
  have written := parseIp_chars address
  have lan := loopback_lan near
  have text : (relayed others sent client).text "x-forwarded-for" = toStr (relayedValue sent client) := by
    simp [HeaderMap.text,HeaderMap.header,relayed]
  simp only [effectiveOrigin,near,text,Bool.not_true,Bool.false_eq_true,if_false]
  cases read : toStr (relayedValue sent client) with
  | none =>
    have unread : ¬∀ value ∈ sent,(toStr value).isSome = true := by
      rw [← relayed_readable written,read]
      decide
    simp only [lan,Bool.true_eq_false,false_iff]
    cases sent with
    | nil => exact absurd (fun value member => by cases member) unread
    | cons first rest => exact fun harmless => unread harmless.1
  | some forwarded =>
    have readable : ∀ value ∈ sent,(toStr value).isSome = true := by
      rw [← relayed_readable written,read]
      rfl
    have same : trim (forwarded.takeWhile (· ≠ ',')) = leftmost (relayedValue sent client) := by
      unfold toStr at read
      split at read
      · cases read
        rfl
      · cases read
    simp only [same,relayed_first written]
    cases sent with
    | nil => simp [address,outside,OutsideFirst]
    | cons first rest =>
      rw [OutsideFirst,and_iff_right readable]
      cases parsed : parseIp (leftmost first) with
      | none => simp [lan]
      | some found => simp

-- What the gate makes of the relayed request when it has no bearer, whatever else it carries.
structure StaysOutside (peer : IpAddr) (client : List Char) (sent : List (List UInt8)) : Prop where
  origin : ∀ others,isLanOrigin (effectiveOrigin peer (relayed others sent client)) = false
  refused : ∀ crates (layer : AuthLayer) others nowMs,layer.requirement ≠ .none → layer.tier ≠ .open_ →
    (HttpRequest.mk (some peer) (relayed others sent client)).extractBearer = none →
    capabilityGate crates layer ⟨some peer,relayed others sent client⟩ nowMs = .error .unauthorized
  floored : ∀ crates (layer : AuthLayer) others nowMs principal,(HttpRequest.mk (some peer) (relayed others sent client)).extractBearer = none →
    capabilityGate crates layer ⟨some peer,relayed others sent client⟩ nowMs = .ok (some principal) →
    principal = ⟨lanTrustTokenId,layer.lanTrustCaps⟩
  same : ∀ others,isLanOrigin (effectiveOrigin peer (relayed others sent client)) = isLanOrigin (effectiveOrigin peer (relayed others [] client))

theorem gate_refuses {layer : AuthLayer} {headers : HeaderMap} (gated : layer.requirement ≠ .none) (secured : layer.tier ≠ .open_)
    (missing : (HttpRequest.mk (some peer) headers).extractBearer = none) (outside : isLanOrigin (effectiveOrigin peer headers) = false) :
    capabilityGate crates layer ⟨some peer,headers⟩ nowMs = .error .unauthorized := by
  simp only [capabilityGate,gated,if_false,missing,Option.map_some,Option.getD_some,outside]
  cases tier : layer.tier with
  | open_ => exact absurd tier secured
  | secure => rfl
  | secureIndustrial => rfl

theorem stays_outside (peer addr : IpAddr) (client : List Char) (sent : List (List UInt8)) (near : isLoopbackAddr peer = true)
    (address : parseIp client = some addr) (outside : isLanOrigin addr = false) : StaysOutside peer client sent ↔ OutsideFirst sent := by
  constructor
  · intro stays
    exact (relayed_outside near address outside).mp (stays.origin [])
  · intro harmless
    have origin : ∀ others,isLanOrigin (effectiveOrigin peer (relayed others sent client)) = false :=
      fun others => (relayed_outside near address outside).mpr harmless
    have bare : ∀ others,isLanOrigin (effectiveOrigin peer (relayed others [] client)) = false :=
      fun others => (relayed_outside near address outside).mpr trivial
    refine ⟨origin,?_,?_,?_⟩
    · intro crates layer others nowMs gated secured missing
      exact gate_refuses gated secured missing (origin others)
    · intro crates layer others nowMs principal missing admitted
      exact (gate_outside missing (origin others) admitted).1
    · intro others
      rw [origin,bare]

theorem bare_client_stays : StaysOutside (.v4 (127,0,0,1)) "8.8.8.8".toList [asBytes "1.1.1.1".toList] :=
  (stays_outside (.v4 (127,0,0,1)) (.v4 (8,8,8,8)) "8.8.8.8".toList [asBytes "1.1.1.1".toList]
    (by decide) (by decide) (by decide)).mpr ⟨by decide,.v4 (1,1,1,1),by decide,by decide⟩

-- A client from outside that writes a LAN address itself, or nothing that can be read.
theorem client_chooses : isLanOrigin (.v4 (8,8,8,8)) = false ∧ parseIp "8.8.8.8".toList = some (.v4 (8,8,8,8)) ∧
    ¬StaysOutside (.v4 (127,0,0,1)) "8.8.8.8".toList [asBytes "10.0.0.1".toList] ∧
    ¬StaysOutside (.v4 (127,0,0,1)) "8.8.8.8".toList [asBytes "unknown".toList] ∧
    ¬StaysOutside (.v4 (127,0,0,1)) "8.8.8.8".toList [[0xff]] := by
  refine ⟨by decide,by decide,?_,?_,?_⟩
  · exact fun stays => absurd (stays.origin []) (by decide)
  · exact fun stays => absurd (stays.origin []) (by decide)
  · exact fun stays => absurd (stays.origin []) (by decide)

end EvoCore.PeerOrigin
