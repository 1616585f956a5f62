import EvoCore.TrustAdmission

namespace EvoCore.Trust

variable {crates : Crates} {keys keys' : List TrustKey} {revocations : RevocationSet} {now : Int} {r : Request}
  {a b k cur leaf op : TrustKey}

-- The same key under another file name.
structure Copy (a b : TrustKey) : Prop where
  keyId : a.keyId = b.keyId
  verifying : a.verifying = b.verifying
  info : a.info = b.info

-- The same result, up to what an error says.
structure Agree {α : Type} (x y : Except TrustError α) : Prop where
  value : x.toOption = y.toOption
  revoked : ∀ e e',x = .error e → y = .error e' → e.isRevoked = e'.isRevoked

def signersOf (crates : Crates) (r : Request) : List TrustKey :=
  match r.digest,r.message,readSignatureFile r.sig with
  | .ok id,.ok msg,.ok sig => (r.signers crates msg sig).filter fun _ => !r.revocations.digests.contains id
  | _,_,_ => []

def isOperator (k : TrustKey) : Bool := k.role = .operatorRoot

-- Where the verifier takes the first parent or the first successor, every other one is a copy of it.
structure Unambiguous (crates : Crates) (r : Request) : Prop where
  parents : ∀ c ∈ r.keys,∀ a ∈ r.keys,∀ b ∈ r.keys,c.info.key.signedBy = some a.keyId → b.keyId = a.keyId → Copy a b
  successors : (signersOf crates r).any isOperator = false → ∀ old ∈ signersOf crates r,∀ a ∈ r.keys,∀ b ∈ r.keys,
    succeeds crates old r.keys r.revocations r.now a = true → succeeds crates old r.keys r.revocations r.now b = true → Copy a b

def supreme (crates : Crates) (r : Request) (k : TrustKey) : Except TrustError TrustOutcome := do
  checkWindow crates k r.now
  r.chainOf crates k
  finalise crates k r.pluginName r.declaredTrust r.opt

def Turn.settles : Turn → Option (Option TrustOutcome)
  | .returned result => some result.toOption
  | .next _ => none

-- What one signer says by itself, if it is one that ends the matter: an operator root where one signed, else a
-- signer that is not passed over.
def settles (crates : Crates) (r : Request) (k : TrustKey) : Option (Option TrustOutcome) :=
  if (signersOf crates r).any isOperator then if isOperator k then some (supreme crates r k).toOption else none
  else (r.turn crates k).settles

-- All signers that end the matter end it alike.
def SignersAgree (crates : Crates) (r : Request) : Prop :=
  ∀ a ∈ signersOf crates r,∀ b ∈ signersOf crates r,settles crates r a = none ∨ settles crates r b = none ∨ settles crates r a = settles crates r b

def Request.withKeys (r : Request) (keys : List TrustKey) : Request := { r with keys }

theorem Copy.refl (k : TrustKey) : Copy k k := ⟨rfl,rfl,rfl⟩

theorem Agree.refl {α : Type} (x : Except TrustError α) : Agree x x := by
  refine ⟨rfl,?_⟩
  intro e e' left right
  rw [Except.error.inj (left.symm.trans right)]

theorem Agree.bind {α β : Type} {x y : Except TrustError α} {f g : α → Except TrustError β} (first : Agree x y)
    (next : ∀ u,Agree (f u) (g u)) : Agree (x >>= f) (y >>= g) := by
  cases x with
  | error e =>
    cases y with
    | error e' =>
      refine ⟨rfl,?_⟩
      intro d d' left right
      cases left
      cases right
      exact first.revoked e e' rfl rfl
    | ok v => cases first.value
  | ok u =>
    cases y with
    | error e' => cases first.value
    | ok v =>
      cases first.value
      exact next u

theorem find_copies {xs ys : List TrustKey} {p q : TrustKey → Bool} (perm : xs.Perm ys) (same : ∀ a ∈ xs,p a = q a)
    (one : ∀ a ∈ xs,∀ b ∈ xs,p a = true → p b = true → Copy a b) :
    (xs.find? p = none ∧ ys.find? q = none) ∨ ∃ a ∈ xs,∃ b,xs.find? p = some a ∧ ys.find? q = some b ∧ Copy a b := by
  cases found : xs.find? p with
  | none =>
    refine .inl ⟨rfl,?_⟩
    rw [List.find?_eq_none] at found ⊢
    intro a member
    have there := perm.mem_iff.mpr member
    rw [← same a there]
    exact found a there
  | some a =>
    have member := List.mem_of_find?_eq_some found
    have holds := List.find?_some found
    cases other : ys.find? q with
    | none =>
      have refuted := List.find?_eq_none.mp other a (perm.mem_iff.mp member)
      rw [← same a member] at refuted
      exact absurd holds refuted
    | some b =>
      have there := perm.mem_iff.mpr (List.mem_of_find?_eq_some other)
      have fits := List.find?_some other
      rw [← same b there] at fits
      exact .inr ⟨a,member,b,rfl,rfl,one a member b there holds fits⟩

theorem window_copy (copy : Copy a b) : checkWindow crates b now = checkWindow crates a now := by
  unfold checkWindow
  rw [copy.keyId,copy.info]

theorem revoked_copy (copy : Copy a b) : Agree (checkRevoked crates b revocations) (checkRevoked crates a revocations) := by
  have same : isKeyRevoked crates revocations b = isKeyRevoked crates revocations a := by
    simp only [isKeyRevoked,keyFingerprint,copy.verifying]
  unfold checkRevoked
  rw [same]
  split
  · refine ⟨rfl,?_⟩
    intro e e' left right
    cases left
    cases right
    rfl
  · exact .refl _

theorem chain_agrees (clear : Unambiguous crates r) (perm : r.keys.Perm keys) (member : cur ∈ r.keys) (copy : Copy cur k) :
    Agree (validateChainFrom crates keys revocations now left k) (validateChainFrom crates r.keys revocations now left cur) := by
  induction left generalizing cur k with
  | zero =>
    unfold validateChainFrom
    rw [window_copy copy]
    refine .bind (.refl _) fun _ => .bind (revoked_copy copy) fun _ => ?_
    rw [← copy.info,← copy.keyId]
    exact .refl _
  | succ left ih =>
    unfold validateChainFrom
    rw [window_copy copy]
    refine .bind (.refl _) fun _ => .bind (revoked_copy copy) fun _ => ?_
    rw [← copy.info,← copy.keyId]
    have role : k.role = cur.role := by rw [TrustKey.role,TrustKey.role,copy.info]
    cases signed : cur.info.key.signedBy with
    | none => exact .refl _
    | some id =>
      have one : ∀ a ∈ r.keys,∀ b ∈ r.keys,decide (a.keyId = id) = true → decide (b.keyId = id) = true → Copy a b := by
        intro a first b second here there
        have named : a.keyId = id := by simpa using here
        have also : b.keyId = id := by simpa using there
        exact clear.parents cur member a first b second (by rw [signed,named]) (also.trans named.symm)
      rcases find_copies perm (fun _ _ => rfl) one with ⟨none_,others⟩ | ⟨parent,above,other,found,foundOther,same⟩
      · simp only [none_,others]
        exact .refl _
      · have above_ : other.role = parent.role := by rw [TrustKey.role,TrustKey.role,same.info]
        simp only [found,foundOther,role,above_,← same.keyId]
        split
        · exact .refl _
        · exact ih above same

theorem chainOf_agrees (clear : Unambiguous crates r) (perm : r.keys.Perm keys) (member : k ∈ r.keys) :
    Agree ((r.withKeys keys).chainOf crates k) (r.chainOf crates k) := chain_agrees clear perm member (.refl k)

theorem toBool_toOption {α : Type} (x : Except TrustError α) : x.toBool = x.toOption.isSome := by
  cases x <;> rfl

theorem rotation_agrees (clear : Unambiguous crates r) (perm : r.keys.Perm keys) (signer : leaf ∈ signersOf crates r)
    (plain : (signersOf crates r).any isOperator = false) :
    (r.rotationOf crates leaf = none ∧ (r.withKeys keys).rotationOf crates leaf = none) ∨
    ∃ a ∈ r.keys,∃ b,r.rotationOf crates leaf = some a ∧ (r.withKeys keys).rotationOf crates leaf = some b ∧ Copy a b := by
  apply find_copies perm
  · intro cand there
    have chain := (chainOf_agrees clear perm there).value
    unfold Request.chainOf Request.withKeys at chain
    simp only [succeeds,Request.withKeys,toBool_toOption,chain]
  · exact clear.successors plain leaf signer

theorem authorise_value (one two : String) {ceiling declared : TrustClass} {opt : TrustOptions} :
    (authorise ceiling one declared opt).toOption = (authorise ceiling two declared opt).toOption := by
  unfold authorise
  cases effectiveTrustClass declared ceiling opt.degradeTrust <;> rfl

theorem intersection_copy {name : String} {declared : TrustClass} {opt : TrustOptions} (copy : Copy a b) :
    (finaliseIntersection crates leaf b name declared opt).toOption = (finaliseIntersection crates leaf a name declared opt).toOption := by
  simp only [finaliseIntersection,limiting,← copy.info]
  split
  · rfl
  · split
    · rfl
    · split
      · rw [← copy.info]
        exact authorise_value _ _
      · exact authorise_value _ _

theorem mem_signersOf (signer : k ∈ signersOf crates r) : k ∈ r.keys ∧ ∃ id msg sig,Signed r id msg sig := by
  unfold signersOf at signer
  split at signer
  · rename_i id msg sig digest message read
    obtain ⟨accepted,unrevoked⟩ := List.mem_filter.mp signer
    refine ⟨(mem_signers.mp accepted).1,id,msg,sig,digest,by simpa using unrevoked,message,?_,read⟩
    cases present : r.sig with
    | none => simp [present,readSignatureFile] at read
    | some _ => rfl
  · cases signer

theorem signed_moved {id msg sig : List UInt8} (signed : Signed r id msg sig) : Signed (r.withKeys keys) id msg sig :=
  ⟨signed.digest,signed.unrevoked,signed.message,signed.present,signed.sig⟩

theorem signersOf_signed {id msg sig : List UInt8} (signed : Signed r id msg sig) : signersOf crates r = r.signers crates msg sig := by
  simp [signersOf,signed.digest,signed.message,signed.sig,signed.unrevoked]

theorem granted_settles (result : Except TrustError TrustOutcome) :
    (match result with | .ok outcome => Turn.returned (.ok outcome) | .error e => .next e).settles = result.toOption.map some := by
  cases result <;> rfl

theorem turn_settles (clear : Unambiguous crates r) (perm : r.keys.Perm keys) (signer : leaf ∈ signersOf crates r)
    (plain : (signersOf crates r).any isOperator = false) :
    ((r.withKeys keys).turn crates leaf).settles = (r.turn crates leaf).settles := by
  have agree := chainOf_agrees clear perm (mem_signersOf signer).1
  unfold Request.turn
  cases chain : (r.withKeys keys).chainOf crates leaf with
  | ok u =>
    cases other : r.chainOf crates leaf with
    | ok v => rfl
    | error e =>
      rw [chain,other] at agree
      cases agree.value
  | error e =>
    cases other : r.chainOf crates leaf with
    | ok v =>
      rw [chain,other] at agree
      cases agree.value
    | error e' =>
      have revoked := agree.revoked e e' chain other
      simp only [Request.tryRotation,revoked]
      split
      · rfl
      · rcases rotation_agrees clear perm signer plain with ⟨none_,others⟩ | ⟨a,_,b,found,foundOther,same⟩
        · simp only [none_,others]
          rfl
        · simp only [found,foundOther]
          have value : (finaliseIntersection crates leaf b r.pluginName r.declaredTrust r.opt).toOption =
              (finaliseIntersection crates leaf a r.pluginName r.declaredTrust r.opt).toOption := intersection_copy same
          exact (granted_settles _).trans ((congrArg (Option.map some) value).trans (granted_settles _).symm)

theorem supreme_value (clear : Unambiguous crates r) (perm : r.keys.Perm keys) (member : op ∈ r.keys) :
    (supreme crates (r.withKeys keys) op).toOption = (supreme crates r op).toOption := by
  have agree : Agree (supreme crates (r.withKeys keys) op) (supreme crates r op) :=
    .bind (.refl _) fun _ => .bind (chainOf_agrees clear perm member) fun _ => .refl _
  exact agree.value

theorem signersOf_perm (perm : r.keys.Perm keys) : (signersOf crates r).Perm (signersOf crates (r.withKeys keys)) := by
  simp only [signersOf,Request.withKeys]
  split
  · exact (perm.filter _).filter _
  · exact .refl _

theorem settles_perm (clear : Unambiguous crates r) (perm : r.keys.Perm keys) (signer : k ∈ signersOf crates r) :
    settles crates (r.withKeys keys) k = settles crates r k := by
  unfold settles
  rw [← (signersOf_perm perm).any_eq]
  cases plain : (signersOf crates r).any isOperator with
  | true => rw [if_pos rfl,if_pos rfl,supreme_value clear perm (mem_signersOf signer).1]
  | false => rw [if_neg Bool.false_ne_true,if_neg Bool.false_ne_true,turn_settles clear perm signer plain]

theorem walkSigners_value (leaves : List TrustKey) (lastErr : Option TrustError) :
    (r.walkSigners crates leaves lastErr).toOption = (leaves.findSome? fun k => (r.turn crates k).settles).join := by
  induction leaves generalizing lastErr with
  | nil => rfl
  | cons leaf rest ih =>
    rw [Request.walkSigners,List.findSome?_cons]
    cases r.turn crates leaf with
    | returned result => rfl
    | next e => exact ih (some e)

theorem first_operator (leaves : List TrustKey) {f : TrustKey → Option TrustOutcome} :
    (leaves.findSome? fun k => if isOperator k then some (f k) else none) = (leaves.find? isOperator).map f := by
  induction leaves with
  | nil => rfl
  | cons k rest ih =>
    rw [List.findSome?_cons,List.find?_cons]
    cases isOperator k with
    | true => rfl
    | false => exact ih

theorem admitSigners_value : (r.admitSigners crates (signersOf crates r)).toOption =
    ((signersOf crates r).findSome? (settles crates r)).join := by
  unfold Request.admitSigners
  split
  · rename_i empty
    rw [List.isEmpty_iff.mp empty]
    rfl
  · split
    · rename_i op found
      have first : (signersOf crates r).find? isOperator = some op := found
      have any : (signersOf crates r).any isOperator = true :=
        List.any_eq_true.mpr ⟨op,List.mem_of_find?_eq_some first,List.find?_some first⟩
      have told : settles crates r = fun k => if isOperator k then some (supreme crates r k).toOption else none := by
        funext k
        rw [settles,if_pos any]
      rw [told,first_operator,first]
      rfl
    · rename_i found
      have none_ : (signersOf crates r).find? isOperator = none := found
      have any : ¬ (signersOf crates r).any isOperator = true := by
        simpa using List.find?_eq_none.mp none_
      have told : settles crates r = fun k => (r.turn crates k).settles := by
        funext k
        rw [settles,if_neg any]
      rw [told,walkSigners_value]

theorem verifyAt_signers {id msg sig : List UInt8} (signed : Signed r id msg sig) :
    r.verifyAt crates = r.admitSigners crates (signersOf crates r) := by
  have unsigned : r.sig.isNone = false := by simpa using signed.present
  rw [signersOf_signed signed]
  simp [Request.verifyAt,signed.digest,signed.unrevoked,signed.message,signed.sig,unsigned,bind,Except.bind]

theorem verifyAt_value (same : ∀ id msg sig,Signed r id msg sig →
      ((r.withKeys keys).admitSigners crates (signersOf crates (r.withKeys keys))).toOption =
        (r.admitSigners crates (signersOf crates r)).toOption) :
    ((r.withKeys keys).verifyAt crates).toOption = (r.verifyAt crates).toOption := by
  have digest_ : (r.withKeys keys).digest = r.digest := rfl
  have revocations : (r.withKeys keys).revocations = r.revocations := rfl
  have bytes : (r.withKeys keys).message = r.message := rfl
  have sig_ : (r.withKeys keys).sig = r.sig := rfl
  have opt : (r.withKeys keys).opt = r.opt := rfl
  by_cases signed : ∃ id msg sig,Signed r id msg sig
  · obtain ⟨id,msg,sig,signed⟩ := signed
    rw [verifyAt_signers (signed_moved signed),verifyAt_signers signed,same id msg sig signed]
  · unfold Request.verifyAt
    rw [digest_,revocations,bytes,sig_,opt]
    cases digest : r.digest with
    | error e => simp only [bind,Except.bind]
    | ok id =>
      simp only [bind,Except.bind]
      split
      · rfl
      · rename_i unrevoked
        split
        · rfl
        · rename_i present
          cases message : r.message with
          | error e => simp only
          | ok msg =>
            cases read : readSignatureFile r.sig with
            | error e => simp only
            | ok sig => exact absurd ⟨id,msg,sig,digest,by simpa using unrevoked,message,by simpa [Option.isSome_iff_ne_none] using present,read⟩ signed

theorem findSome_perm {xs ys : List TrustKey} {f g : TrustKey → Option (Option TrustOutcome)} (perm : xs.Perm ys)
    (same : ∀ a ∈ xs,g a = f a) (alike : ∀ a ∈ xs,∀ b ∈ xs,f a = none ∨ f b = none ∨ f a = f b) :
    ys.findSome? g = xs.findSome? f := by
  cases found : xs.findSome? f with
  | none =>
    rw [List.findSome?_eq_none_iff] at found ⊢
    intro a member
    have there := perm.mem_iff.mpr member
    rw [same a there]
    exact found a there
  | some x =>
    obtain ⟨a,member,told⟩ := List.exists_of_findSome?_eq_some found
    cases other : ys.findSome? g with
    | none =>
      have silent := List.findSome?_eq_none_iff.mp other a (perm.mem_iff.mp member)
      rw [same a member,told] at silent
      cases silent
    | some y =>
      obtain ⟨b,among,also⟩ := List.exists_of_findSome?_eq_some other
      have there := perm.mem_iff.mpr among
      rw [same b there] at also
      rcases alike a member b there with silent | silent | equal
      · rw [told] at silent; cases silent
      · rw [also] at silent; cases silent
      · rw [← also,← equal,told]

theorem agreeing_perm (clear : Unambiguous crates r) (agree : SignersAgree crates r) (perm : r.keys.Perm keys) :
    ((r.withKeys keys).verifyAt crates).toOption = (r.verifyAt crates).toOption := by
  apply verifyAt_value
  intro id msg sig signed
  rw [admitSigners_value,admitSigners_value,
    findSome_perm (signersOf_perm perm) (fun k signer => settles_perm clear perm signer) agree]

theorem first_settles (clear : Unambiguous crates r) (signer : k ∈ signersOf crates r) (told : settles crates r k = some x) :
    ((r.withKeys (k::r.keys.erase k)).verifyAt crates).toOption = x := by
  obtain ⟨member,id,msg,sig,signed⟩ := mem_signersOf signer
  have perm : r.keys.Perm (k::r.keys.erase k) := List.perm_cons_erase member
  have verified : crates.verify k.verifying msg sig = true := (mem_signers.mp (signersOf_signed signed ▸ signer)).2
  have front : signersOf crates (r.withKeys (k::r.keys.erase k)) =
      k::(r.keys.erase k).filter fun k => crates.verify k.verifying msg sig := by
    rw [signersOf_signed (signed_moved signed)]
    exact List.filter_cons_of_pos verified
  rw [verifyAt_signers (signed_moved signed),admitSigners_value,front,List.findSome?_cons,settles_perm clear perm signer,told]
  rfl

theorem order_irrelevant (crates : Crates) (bundle : OutOfProcessBundle) (keys : List TrustKey) (revocations : RevocationSet)
    (opt : TrustOptions) (now : Int) (clear : Unambiguous crates (outOfProcessRequest crates bundle keys revocations opt now)) :
    (∀ keys',keys.Perm keys' → (verifyOutOfProcessBundleAt crates bundle keys' revocations opt now).toOption =
      (verifyOutOfProcessBundleAt crates bundle keys revocations opt now).toOption) ↔
      SignersAgree crates (outOfProcessRequest crates bundle keys revocations opt now) := by
  constructor
  · intro always a signerA b signerB
    cases toldA : settles crates (outOfProcessRequest crates bundle keys revocations opt now) a with
    | none => exact .inl rfl
    | some x =>
      cases toldB : settles crates (outOfProcessRequest crates bundle keys revocations opt now) b with
      | none => exact .inr (.inl rfl)
      | some y =>
        have firstA := first_settles clear signerA toldA
        have firstB := first_settles clear signerB toldB
        have permA : keys.Perm (a::keys.erase a) := List.perm_cons_erase (mem_signersOf signerA).1
        have permB : keys.Perm (b::keys.erase b) := List.perm_cons_erase (mem_signersOf signerB).1
        exact .inr (.inr (congrArg some (firstA.symm.trans ((always _ permA).trans ((always _ permB).symm.trans firstB)))))
  · intro agree keys' perm
    exact agreeing_perm clear agree perm

instance : DecidablePred (Copy k) := fun b =>
  decidable_of_iff (k.keyId = b.keyId ∧ k.verifying = b.verifying ∧ k.info = b.info)
    ⟨fun held => ⟨held.1,held.2.1,held.2.2⟩,fun copy => ⟨copy.keyId,copy.verifying,copy.info⟩⟩

instance : Decidable (Unambiguous crates r) :=
  decidable_of_iff
    ((∀ c ∈ r.keys,∀ a ∈ r.keys,∀ b ∈ r.keys,c.info.key.signedBy = some a.keyId → b.keyId = a.keyId → Copy a b) ∧
      ((signersOf crates r).any isOperator = false → ∀ old ∈ signersOf crates r,∀ a ∈ r.keys,∀ b ∈ r.keys,
        succeeds crates old r.keys r.revocations r.now a = true → succeeds crates old r.keys r.revocations r.now b = true → Copy a b))
    ⟨fun held => ⟨held.1,held.2⟩,fun clear => ⟨clear.parents,clear.successors⟩⟩

instance : Decidable (SignersAgree crates r) := inferInstanceAs (Decidable (∀ a ∈ signersOf crates r,∀ b ∈ signersOf crates r,
  settles crates r a = none ∨ settles crates r b = none ∨ settles crates r a = settles crates r b))

-- Two sidecars of one public key, one of which may not sign for the declared class.
def wideKey : TrustKey := ⟨"wide","wide",keyBytes 2,keySection "wide",anyPlugin⟩

def narrowKey : TrustKey := ⟨"narrow","narrow",keyBytes 2,keySection "narrow",⟨["*"],.sandbox⟩⟩

-- Two operator roots of one public key where `notAfter` differs.
def operatorKey (keyId : String) (notAfter : Option Int) : TrustKey :=
  ⟨keyId,keyId,keyBytes 2,{ keySection keyId with notAfter,role := some .operatorRoot },anyPlugin⟩

def countersigners : List TrustKey :=
  [narrowKey,operatorKey "op" none,wideKey,{ operatorKey "op" none with basename := "copy" }]

-- An operator root that is there twice has the word over both vendor keys, whichever way round the list is.
theorem countersigned_unordered :
    (verifyOutOfProcessBundleAt plainCrates (signedBundle 2) countersigners.reverse ⟨[],[]⟩ strictOptions (days 100)).toOption =
      (verifyOutOfProcessBundleAt plainCrates (signedBundle 2) countersigners ⟨[],[]⟩ strictOptions (days 100)).toOption ∧
    verifyOutOfProcessBundleAt plainCrates (signedBundle 2) countersigners ⟨[],[]⟩ strictOptions (days 100) = .ok ⟨.standard,false⟩ :=
  ⟨(order_irrelevant plainCrates (signedBundle 2) countersigners ⟨[],[]⟩ strictOptions (days 100) (by decide)).mpr (by decide)
    _ (List.reverse_perm _).symm,by decide⟩

def sidecar (k : TrustKey) : Sidecar := ⟨k.basename,k.verifying,k.info⟩

def listed (keys : List TrustKey) : Except TrustError TrustOutcome := do
  let loaded ← loadTrustRoot plainCrates (keys.map sidecar) []
  verifyOutOfProcessBundleAt plainCrates (signedBundle 2) loaded ⟨[],[]⟩ strictOptions (days 100)

-- Two roots of one `key_id`, one of them expired.
def childKey : TrustKey := ⟨"child","child",keyBytes 2,{ keySection "child" with signedBy := some "root" },anyPlugin⟩

def rootKey (basename : String) (notAfter : Option Int) : TrustKey :=
  ⟨basename,"root",keyBytes 1,{ keySection "root" with notAfter,role := some .projectRoot },anyPlugin⟩

-- Two successors of one key, one of which may not sign for this plugin.
def otherSuccessor : TrustKey := { newVendor with basename := "other",keyId := "other",info :=
  ⟨{ newVendor.info.key with keyId := some "other" },⟨["org.other"],.platform⟩⟩ }

theorem orders_differ :
    (listed [wideKey,narrowKey] = .ok ⟨.standard,false⟩ ∧
      listed [narrowKey,wideKey] = .error (.trustClassNotAuthorised .standard "narrow" .sandbox)) ∧
    (listed [operatorKey "new" none,operatorKey "old" (some 0)] = .ok ⟨.standard,false⟩ ∧
      (listed [operatorKey "old" (some 0),operatorKey "new" none]).toBool = false) ∧
    (listed [childKey,rootKey "a" none,rootKey "b" (some 0)] = .ok ⟨.standard,false⟩ ∧
      (listed [childKey,rootKey "b" (some 0),rootKey "a" none]).toBool = false) ∧
    listed [expiredRoot,oldVendor,newVendor,otherSuccessor] = .ok ⟨.standard,false⟩ ∧
      listed [expiredRoot,oldVendor,otherSuccessor,newVendor] = .error (.nameNotAuthorised "org.example.plugin" "other") := by
  decide

end EvoCore.Trust
