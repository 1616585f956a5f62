import EvoCore.BundleTrust

namespace EvoCore.Trust

variable {crates : Crates} {all : List TrustKey} {revocations : RevocationSet} {now : Int} {r : Request}

-- The `signed_by` walk of a key, however long: itself, its parent, and so on.
inductive OnWalk (all : List TrustKey) : TrustKey → TrustKey → Prop where
  | self : OnWalk all k k
  | up : parentOf all k = some parent → OnWalk all parent ancestor → OnWalk all k ancestor

def Unrevoked (crates : Crates) (r : Request) (k : TrustKey) : Prop :=
  ∀ j,OnWalk r.keys k j → isKeyRevoked crates r.revocations j = false

-- A key that stands for an admission at the class `eff`.
structure Vouches (crates : Crates) (r : Request) (msg sig : List UInt8) (eff : TrustClass) (k : TrustKey) : Prop where
  loaded : k ∈ r.keys
  verifies : crates.verify k.verifying msg sig = true
  named : nameMatchesPrefixes crates r.pluginName k.info.authorisation.namePrefixes = true
  declared : r.declaredTrust.rank ≤ eff.rank
  capped : k.info.authorisation.maxTrustClass.rank ≤ eff.rank
  unrevoked : Unrevoked crates r k

-- The payload was read, its digest is not revoked, and a signature is there.
structure Signed (r : Request) (id msg sig : List UInt8) : Prop where
  digest : r.digest = .ok id
  unrevoked : id ∉ r.revocations.digests
  message : r.message = .ok msg
  present : r.sig.isSome = true
  sig : readSignatureFile r.sig = .ok sig

def Sound (crates : Crates) (r : Request) (result : Except TrustError TrustOutcome) : Prop :=
  ∀ eff,result = .ok ⟨eff,false⟩ → ∃ id msg sig,Signed r id msg sig ∧ ∃ k,Vouches crates r msg sig eff k

-- No operator root signed, every earlier signer was passed over, and the fallback admits this one.
structure RotationAdmits (crates : Crates) (r : Request) (msg sig : List UInt8) (eff : TrustClass) (leaf : TrustKey) : Prop where
  unsupreme : ∀ k ∈ r.signers crates msg sig,k.role ≠ .operatorRoot
  first : ∃ before after,r.signers crates msg sig = before++leaf::after ∧ ∀ k ∈ before,∃ e,r.turn crates k = .next e
  fallback : ∃ e rot,r.chainOf crates leaf = .error e ∧ e.isRevoked = false ∧ r.rotationOf crates leaf = some rot ∧
    finaliseIntersection crates leaf rot r.pluginName r.declaredTrust r.opt = .ok ⟨eff,false⟩

-- A walk that stopped early hides no revoked key, or another key would have admitted the bundle too.
def RotationsClean (crates : Crates) (r : Request) : Prop :=
  ∀ id msg sig eff leaf,Signed r id msg sig → RotationAdmits crates r msg sig eff leaf →
    Unrevoked crates r leaf ∨ ∃ other,other ≠ leaf ∧ Vouches crates r msg sig eff other

theorem chain_step (valid : validateChainFrom crates all revocations now left cur = .ok u) :
    isKeyRevoked crates revocations cur = false ∧
      ∀ parent,parentOf all cur = some parent → ∃ left',validateChainFrom crates all revocations now left' parent = .ok u := by
  unfold validateChainFrom at valid
  cases window : checkWindow crates cur now with
  | error e => simp [window,bind,Except.bind] at valid
  | ok _ =>
    cases unrevoked : checkRevoked crates cur revocations with
    | error e => simp [window,unrevoked,bind,Except.bind] at valid
    | ok _ =>
      have clear : isKeyRevoked crates revocations cur = false := by
        unfold checkRevoked at unrevoked
        split at unrevoked
        · cases unrevoked
        · rename_i clear
          exact Bool.not_eq_true _ ▸ clear
      refine ⟨clear,?_⟩
      intro parent above
      simp only [window,unrevoked,bind,Except.bind] at valid
      cases signed : cur.info.key.signedBy with
      | none => simp [parentOf,signed] at above
      | some id =>
        have found : all.find? (fun p => p.keyId = id) = some parent := by simpa [parentOf,signed] using above
        simp only [signed,found] at valid
        split at valid
        · cases valid
        · split at valid
          · cases valid
          · exact ⟨_,valid⟩

theorem chain_unrevoked (walk : OnWalk all k j) (valid : validateChainFrom crates all revocations now left k = .ok u) :
    isKeyRevoked crates revocations j = false := by
  induction walk generalizing left with
  | self => exact (chain_step valid).1
  | up above _ ih =>
    obtain ⟨left',rest⟩ := (chain_step valid).2 _ above
    exact ih rest

theorem chainOf_unrevoked (valid : r.chainOf crates k = .ok u) : Unrevoked crates r k :=
  fun _ walk => chain_unrevoked walk valid

theorem effectiveTrustClass_bounds (granted : effectiveTrustClass declared keyMax degrade = .ok eff) :
    declared.rank ≤ eff.rank ∧ keyMax.rank ≤ eff.rank := by
  unfold effectiveTrustClass at granted
  split at granted
  · split at granted
    · cases granted
      omega
    · cases granted
  · cases granted
    omega

theorem authorise_bounds (granted : authorise keyMax basename declared opt = .ok outcome) :
    declared.rank ≤ outcome.effectiveTrust.rank ∧ keyMax.rank ≤ outcome.effectiveTrust.rank := by
  unfold authorise at granted
  split at granted
  · rename_i eff given
    cases granted
    exact effectiveTrustClass_bounds given
  · cases granted

theorem finalise_bounds (granted : finalise crates k name declared opt = .ok outcome) :
    nameMatchesPrefixes crates name k.info.authorisation.namePrefixes = true ∧
      declared.rank ≤ outcome.effectiveTrust.rank ∧ k.info.authorisation.maxTrustClass.rank ≤ outcome.effectiveTrust.rank := by
  unfold finalise at granted
  split at granted
  · cases granted
  · rename_i named
    exact ⟨by simpa using named,authorise_bounds granted⟩

theorem limiting_caps : old.info.authorisation.maxTrustClass.rank ≤ (limiting old new).info.authorisation.maxTrustClass.rank := by
  unfold limiting
  split <;> omega

theorem finaliseIntersection_bounds (granted : finaliseIntersection crates old new name declared opt = .ok outcome) :
    nameMatchesPrefixes crates name old.info.authorisation.namePrefixes = true ∧
      declared.rank ≤ outcome.effectiveTrust.rank ∧ old.info.authorisation.maxTrustClass.rank ≤ outcome.effectiveTrust.rank := by
  unfold finaliseIntersection at granted
  split at granted
  · cases granted
  · rename_i named
    split at granted
    · cases granted
    · have bounds := authorise_bounds granted
      exact ⟨by simpa using named,bounds.1,Nat.le_trans limiting_caps bounds.2⟩

theorem mem_signers : k ∈ r.signers crates msg sig ↔ k ∈ r.keys ∧ crates.verify k.verifying msg sig = true := by
  simp [Request.signers]

theorem walkSigners_returned (admitted : r.walkSigners crates leaves lastErr = .ok outcome) :
    ∃ before leaf after,leaves = before++leaf::after ∧ (∀ k ∈ before,∃ e,r.turn crates k = .next e) ∧
      r.turn crates leaf = .returned (.ok outcome) := by
  induction leaves generalizing lastErr with
  | nil => cases admitted
  | cons leaf rest ih =>
    unfold Request.walkSigners at admitted
    split at admitted
    · rename_i result returned
      exact ⟨[],leaf,rest,rfl,by simp,by rw [returned,admitted]⟩
    · rename_i e passed
      obtain ⟨before,found,after,shape,skipped,returned⟩ := ih admitted
      refine ⟨leaf::before,found,after,by rw [shape]; rfl,?_,returned⟩
      intro k earlier
      cases earlier with
      | head => exact ⟨e,passed⟩
      | tail _ deeper => exact skipped k deeper

theorem walkSigners_here (skipped : ∀ k ∈ before,∃ e,r.turn crates k = .next e) (returned : r.turn crates leaf = .returned result) :
    r.walkSigners crates (before++leaf::after) lastErr = result := by
  induction before generalizing lastErr with
  | nil => simp [Request.walkSigners,returned]
  | cons k rest ih =>
    obtain ⟨e,passed⟩ := skipped k List.mem_cons_self
    rw [List.cons_append,Request.walkSigners,passed]
    exact ih fun j later => skipped j (List.mem_cons_of_mem _ later)

-- A turn that admits does so through the signer's own chain or through the fallback.
theorem turn_admits (admits : r.turn crates leaf = .returned (.ok outcome)) :
    (∃ u,r.chainOf crates leaf = .ok u ∧ finalise crates leaf r.pluginName r.declaredTrust r.opt = .ok outcome) ∨
    ∃ e rot,r.chainOf crates leaf = .error e ∧ e.isRevoked = false ∧ r.rotationOf crates leaf = some rot ∧
      finaliseIntersection crates leaf rot r.pluginName r.declaredTrust r.opt = .ok outcome := by
  unfold Request.turn at admits
  split at admits
  · rename_i u valid
    split at admits
    · cases admits
    · exact .inl ⟨u,valid,Turn.returned.inj admits⟩
  · rename_i e broken
    unfold Request.tryRotation at admits
    split at admits
    · cases admits
    · rename_i other
      split at admits
      · cases admits
      · rename_i rot found
        split at admits
        · rename_i got granted
          cases admits
          exact .inr ⟨e,rot,broken,Bool.not_eq_true _ ▸ other,found,granted⟩
        · cases admits

theorem turn_fallback (broken : r.chainOf crates leaf = .error e) (other : e.isRevoked = false)
    (found : r.rotationOf crates leaf = some rot)
    (granted : finaliseIntersection crates leaf rot r.pluginName r.declaredTrust r.opt = .ok outcome) :
    r.turn crates leaf = .returned (.ok outcome) := by
  simp [Request.turn,broken,Request.tryRotation,other,found,granted]

theorem verifyAt_signed : r.verifyAt crates = .ok ⟨eff,false⟩ ↔
    ∃ id msg sig,Signed r id msg sig ∧ r.admitSigners crates (r.signers crates msg sig) = .ok ⟨eff,false⟩ := by
  constructor
  · intro admitted
    unfold Request.verifyAt at admitted
    cases digest : r.digest with
    | error e => simp [digest,bind,Except.bind] at admitted
    | ok id =>
      simp only [digest,bind,Except.bind] at admitted
      split at admitted
      · cases admitted
      · rename_i unrevoked
        split at admitted
        · split at admitted <;> cases admitted
        · rename_i present
          cases message : r.message with
          | error e => simp [message] at admitted
          | ok msg =>
            cases read : readSignatureFile r.sig with
            | error e => simp [message,read] at admitted
            | ok sig =>
              simp only [message,read] at admitted
              refine ⟨id,msg,sig,⟨digest,by simpa using unrevoked,message,?_,read⟩,admitted⟩
              simpa [Option.isSome_iff_ne_none] using present
  · intro signed
    obtain ⟨id,msg,sig,signed,admitted⟩ := signed
    have unsigned : r.sig.isNone = false := by simpa [Option.isSome_iff_ne_none] using signed.present
    simp [Request.verifyAt,signed.digest,signed.unrevoked,signed.message,signed.sig,unsigned,admitted,bind,Except.bind]

theorem admitSigners_cases (admitted : r.admitSigners crates (r.signers crates msg sig) = .ok ⟨eff,false⟩) :
    (∃ k ∈ r.signers crates msg sig,∃ u,r.chainOf crates k = .ok u ∧
      finalise crates k r.pluginName r.declaredTrust r.opt = .ok ⟨eff,false⟩) ∨
    ∃ leaf,leaf ∈ r.signers crates msg sig ∧ RotationAdmits crates r msg sig eff leaf := by
  unfold Request.admitSigners at admitted
  split at admitted
  · cases admitted
  · split at admitted
    · rename_i op supreme
      cases window : checkWindow crates op r.now with
      | error e => simp [window,bind,Except.bind] at admitted
      | ok _ =>
        cases chain : r.chainOf crates op with
        | error e => simp [window,chain,bind,Except.bind] at admitted
        | ok u =>
          simp only [window,chain,bind,Except.bind] at admitted
          exact .inl ⟨op,List.mem_of_find?_eq_some supreme,u,chain,admitted⟩
    · rename_i unsupreme
      obtain ⟨before,leaf,after,shape,skipped,returned⟩ := walkSigners_returned admitted
      have signer : leaf ∈ r.signers crates msg sig := by simp [shape]
      rcases turn_admits returned with ⟨u,chain,granted⟩ | fallback
      · exact .inl ⟨leaf,signer,u,chain,granted⟩
      · refine .inr ⟨leaf,signer,?_,⟨before,after,shape,skipped⟩,fallback⟩
        simpa using List.find?_eq_none.mp unsupreme

theorem rotation_returns (rotation : RotationAdmits crates r msg sig eff leaf) :
    r.admitSigners crates (r.signers crates msg sig) = .ok ⟨eff,false⟩ := by
  obtain ⟨before,after,shape,skipped⟩ := rotation.first
  obtain ⟨e,rot,broken,other,found,granted⟩ := rotation.fallback
  have filled : (r.signers crates msg sig).isEmpty = false := by simp [shape]
  have unsupreme : (r.signers crates msg sig).find? (fun k => k.role = .operatorRoot) = none := by
    rw [List.find?_eq_none]
    simpa using rotation.unsupreme
  simp only [Request.admitSigners,filled,unsupreme,Bool.false_eq_true,if_false]
  rw [shape]
  exact walkSigners_here skipped (turn_fallback broken other found granted)

theorem chain_vouches (signer : k ∈ r.signers crates msg sig) (chain : r.chainOf crates k = .ok u)
    (granted : finalise crates k r.pluginName r.declaredTrust r.opt = .ok ⟨eff,false⟩) : Vouches crates r msg sig eff k := by
  have bounds := finalise_bounds granted
  have verified := mem_signers.mp signer
  exact ⟨verified.1,verified.2,bounds.1,bounds.2.1,bounds.2.2,chainOf_unrevoked chain⟩

theorem rotation_vouches (signer : leaf ∈ r.signers crates msg sig) (rotation : RotationAdmits crates r msg sig eff leaf)
    (clear : Unrevoked crates r leaf) : Vouches crates r msg sig eff leaf := by
  obtain ⟨e,rot,_,_,_,granted⟩ := rotation.fallback
  have bounds := finaliseIntersection_bounds granted
  have verified := mem_signers.mp signer
  exact ⟨verified.1,verified.2,bounds.1,bounds.2.1,bounds.2.2,clear⟩

theorem verifyAt_sound : Sound crates r (r.verifyAt crates) ↔ RotationsClean crates r := by
  constructor
  · intro sound id msg sig eff leaf signed rotation
    have admitted := verifyAt_signed.mpr ⟨id,msg,sig,signed,rotation_returns rotation⟩
    obtain ⟨_,msg',sig',signed',k,vouches⟩ := sound eff admitted
    cases Except.ok.inj (signed.message.symm.trans signed'.message)
    cases Except.ok.inj (signed.sig.symm.trans signed'.sig)
    by_cases same : k = leaf
    · exact .inl (same ▸ vouches.unrevoked)
    · exact .inr ⟨k,same,vouches⟩
  · intro clean eff admitted
    obtain ⟨id,msg,sig,signed,granted⟩ := verifyAt_signed.mp admitted
    refine ⟨id,msg,sig,signed,?_⟩
    rcases admitSigners_cases granted with ⟨k,signer,u,chain,final⟩ | ⟨leaf,signer,rotation⟩
    · exact ⟨k,chain_vouches signer chain final⟩
    · rcases clean id msg sig eff leaf signed rotation with clear | ⟨other,_,vouches⟩
      · exact ⟨leaf,rotation_vouches signer rotation clear⟩
      · exact ⟨other,vouches⟩

theorem admission_sound (crates : Crates) (keys : List TrustKey) (revocations : RevocationSet) (opt : TrustOptions) (now : Int) :
    (∀ bundle,Sound crates (outOfProcessRequest crates bundle keys revocations opt now)
        (verifyOutOfProcessBundleAt crates bundle keys revocations opt now) ↔
      RotationsClean crates (outOfProcessRequest crates bundle keys revocations opt now)) ∧
    ∀ bundle,Sound crates (artefactRequest crates bundle keys revocations opt now)
        (verifyArtefactBundleAt crates bundle keys revocations opt now) ↔
      RotationsClean crates (artefactRequest crates bundle keys revocations opt now) :=
  ⟨fun _ => verifyAt_sound,fun _ => verifyAt_sound⟩

-- Crates that behave as the real ones do on the inputs below: a signature names its key.
def plainCrates : Crates :=
  ⟨fun vk _ sig => sig.take 32 = vk,id,id,fun bytes => toString bytes,fun _ => none,.ok,fun _ _ => false,toString⟩

def keyBytes (n : UInt8) : List UInt8 := List.replicate 32 n

def days (n : Int) : Int := n*24*3600*10^9

def keySection (keyId : String) : KeySection := ⟨none,some keyId,none,none,none,none,none,none⟩

def anyPlugin : Authorisation := ⟨["*"],.platform⟩

-- The distribution root expired and was revoked; the vendor key it signed has a successor of its own.
def expiredRoot : TrustKey :=
  ⟨"dist","dist",keyBytes 1,{ keySection "dist" with notAfter := some (days 99),role := some .distributionRoot },anyPlugin⟩

def oldVendor : TrustKey :=
  ⟨"old","old",keyBytes 2,{ keySection "old" with notAfter := some (days 160),signedBy := some "dist" },anyPlugin⟩

def newVendor : TrustKey :=
  ⟨"new","new",keyBytes 3,{ keySection "new" with notBefore := some (days 90),supersedes := some "old" },anyPlugin⟩

def signedBundle (n : UInt8) : OutOfProcessBundle :=
  ⟨⟨"/p/manifest.toml",some [7]⟩,⟨"/p/plugin",some [8]⟩,some (some (List.replicate 64 n)),"org.example.plugin",.standard⟩

def strictOptions : TrustOptions := ⟨false,false⟩

theorem revokedParent_admitted :
    ¬Sound plainCrates
      (outOfProcessRequest plainCrates (signedBundle 2) [expiredRoot,oldVendor,newVendor] ⟨[],[keyBytes 1]⟩ strictOptions (days 100))
      (verifyOutOfProcessBundleAt plainCrates (signedBundle 2) [expiredRoot,oldVendor,newVendor] ⟨[],[keyBytes 1]⟩ strictOptions
        (days 100)) := by
  intro sound
  obtain ⟨_,msg,sig,signed,k,vouches⟩ := sound .standard (by decide)
  cases Except.ok.inj signed.sig
  have only : k = oldVendor := by
    have loaded : k = expiredRoot ∨ k = oldVendor ∨ k = newVendor := by simpa [outOfProcessRequest] using vouches.loaded
    rcases loaded with rfl | rfl | rfl
    · exact absurd vouches.verifies (by simp [plainCrates,expiredRoot,keyBytes])
    · rfl
    · exact absurd vouches.verifies (by simp [plainCrates,newVendor,keyBytes])
  subst only
  have walk : OnWalk [expiredRoot,oldVendor,newVendor] oldVendor expiredRoot := .up (by decide) .self
  exact absurd (vouches.unrevoked expiredRoot walk) (by decide)

end EvoCore.Trust
