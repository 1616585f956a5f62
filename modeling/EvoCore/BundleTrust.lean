import EvoCore.Bytes

namespace EvoCore.Trust
open Bytes

inductive TrustClass where
  | platform
  | privileged
  | standard
  | unprivileged
  | sandbox
  deriving DecidableEq,Repr

-- The declaration order: a smaller rank is more privileged.
def TrustClass.rank : TrustClass → Nat
  | .platform => 0
  | .privileged => 1
  | .standard => 2
  | .unprivileged => 3
  | .sandbox => 4

inductive KeyRole where
  | projectRoot
  | distributionRoot
  | operatorRoot
  | vendor
  | individualAuthor
  deriving DecidableEq,Repr

inductive TrustError where
  | io (context : String)
  | missingOrBadSignature
  | signatureNotRecognised
  | keyMetadata (detail : String)
  | nameNotAuthorised (name keyBasename : String)
  | trustClassNotAuthorised (declared : TrustClass) (key : String) (max : TrustClass)
  | revoked (what : String)
  | unsignedInadmissible
  | canonicalisationFailed (detail : String)
  | fingerprintMismatch (declared actual : String)
  | keyExpired (keyId at_ : String)
  | chainBroken (detail : String)
  | roleMismatch (child parent : String) (childRole parentRole : KeyRole)
  deriving DecidableEq,Repr

def TrustError.isRevoked : TrustError → Bool
  | .revoked _ => true
  | _ => false

-- Instants are nanoseconds since the epoch.
structure KeySection where
  fingerprint : Option String
  keyId : Option String
  algorithm : Option String
  notBefore : Option Int
  notAfter : Option Int
  supersedes : Option String
  signedBy : Option String
  role : Option KeyRole
  deriving DecidableEq,Repr

structure Authorisation where
  namePrefixes : List String
  maxTrustClass : TrustClass
  deriving DecidableEq,Repr

structure KeyMeta where
  key : KeySection
  authorisation : Authorisation
  deriving DecidableEq,Repr

structure TrustKey where
  basename : String
  keyId : String
  verifying : List UInt8
  info : KeyMeta
  deriving DecidableEq,Repr

def TrustKey.role (k : TrustKey) : KeyRole := k.info.key.role.getD .vendor

-- What the crates compute, and the canonical form of a manifest.
structure Crates where
  verify : List UInt8 → List UInt8 → List UInt8 → Bool
  sha256 : List UInt8 → List UInt8
  blake3 : List UInt8 → List UInt8
  hex : List UInt8 → String
  unhex : String → Option (List UInt8)
  canonicalise : List UInt8 → Except String (List UInt8)
  globIsMatch : String → String → Bool
  showTime : Int → String

structure RevocationSet where
  digests : List (List UInt8)
  keyFingerprints : List (List UInt8)
  deriving DecidableEq,Repr

structure TrustOptions where
  allowUnsigned : Bool
  degradeTrust : Bool
  deriving DecidableEq,Repr

structure TrustOutcome where
  effectiveTrust : TrustClass
  wasUnsigned : Bool
  deriving DecidableEq,Repr

variable (crates : Crates)

def displayDigest (digest : List UInt8) : String := "sha256:"++crates.hex digest

section Sidecars

def validateKeyId (id : String) : Except TrustError Unit :=
  if id.isEmpty then .error (.keyMetadata "key_id is empty")
  else if 64 < id.utf8ByteSize then .error (.keyMetadata ("key_id is "++toString id.utf8ByteSize++" chars; limit is 64"))
  else if id.toList.all fun c => c.isLower || c.isDigit || c == '_' then .ok ()
  else .error (.keyMetadata ("key_id "++id.quote++" must be snake_case (lowercase ASCII letters, digits, underscores)"))

def validateWindow (key : KeySection) : Except TrustError Unit :=
  match key.notBefore,key.notAfter with
  | some nb,some na =>
    if na < nb then
      .error (.keyMetadata ("validity window is empty: not_before "++crates.showTime nb++" is after not_after "++crates.showTime na))
    else .ok ()
  | _,_ => .ok ()

def validateFingerprint (key : KeySection) (vk : List UInt8) : Except TrustError Unit :=
  match key.fingerprint with
  | none => .ok ()
  | some declared =>
    if !declared.startsWith "sha256:" then
      .error (.keyMetadata ("fingerprint must start with \"sha256:\": "++declared.quote))
    else
      match crates.unhex (declared.drop 7).toString with
      | none => .error (.keyMetadata "fingerprint hex decode failed")
      | some want =>
        if want.length ≠ 32 then .error (.keyMetadata ("fingerprint must be 32 bytes, got "++toString want.length))
        else if crates.sha256 vk ≠ want then
          .error (.fingerprintMismatch declared (displayDigest crates (crates.sha256 vk)))
        else .ok ()

def validate (info : KeyMeta) (vk : List UInt8) : Except TrustError String := do
  match info.key.algorithm with
  | some alg =>
    if alg ≠ "ed25519" then
      throw (.keyMetadata ("unsupported algorithm "++alg.quote++"; only \"ed25519\" is accepted"))
  | none => pure ()
  match info.key.keyId with
  | some id => validateKeyId id
  | none => pure ()
  validateWindow crates info.key
  validateFingerprint crates info.key vk
  pure (info.key.keyId.getD (crates.hex ((crates.blake3 vk).take 16)))

-- A `.pem` with its sidecar, both read and parsed.
structure Sidecar where
  stem : String
  verifying : List UInt8
  info : KeyMeta
  deriving DecidableEq,Repr

def loadKey (entry : Sidecar) : Except TrustError TrustKey := do
  let keyId ← validate crates entry.info entry.verifying
  pure ⟨entry.stem,keyId,entry.verifying,entry.info⟩

-- The entries of a directory come in the order in which the file system lists them.
def loadDir (entries : List Sidecar) : Except TrustError (List TrustKey) := entries.mapM (loadKey crates)

def loadTrustRoot (optTrust etcTrustD : List Sidecar) : Except TrustError (List TrustKey) := do
  let opt ← loadDir crates optTrust
  let etc ← loadDir crates etcTrustD
  pure (opt++etc)

end Sidecars

section Matching

-- The White_Space property of Unicode.
def isWhitespace (c : Char) : Bool :=
  (9 ≤ c.toNat && c.toNat ≤ 13) || (8192 ≤ c.toNat && c.toNat ≤ 8202) ||
    [32,133,160,5760,8232,8233,8239,8287,12288].contains c.toNat

def trim (text : List Char) : List Char := ((text.dropWhile isWhitespace).reverse.dropWhile isWhitespace).reverse

def patternMatch (name pat : String) : Bool :=
  let p := trim pat.toList
  if p = ['*'] then true
  else if p.contains '*' then crates.globIsMatch (String.ofList p) name
  else name.toList = p || (p++['.']).isPrefixOf name.toList

def nameMatchesPrefixes (name : String) (namePrefixes : List String) : Bool := namePrefixes.any (patternMatch crates name)

def effectiveTrustClass (declared keyMax : TrustClass) (degrade : Bool) : Except (TrustClass × TrustClass) TrustClass :=
  if declared.rank < keyMax.rank then
    if degrade then .ok keyMax else .error (declared,keyMax)
  else .ok declared

end Matching

section Chains

def checkWindow (k : TrustKey) (now : Int) : Except TrustError Unit :=
  match k.info.key.notBefore.filter (now < ·),k.info.key.notAfter.filter (· < now) with
  | some nb,_ => .error (.keyExpired k.keyId ("not_before="++crates.showTime nb))
  | none,some na => .error (.keyExpired k.keyId ("not_after="++crates.showTime na))
  | none,none => .ok ()

def keyFingerprint (k : TrustKey) : List UInt8 := crates.sha256 k.verifying

def isKeyRevoked (revocations : RevocationSet) (k : TrustKey) : Bool := revocations.keyFingerprints.contains (keyFingerprint crates k)

def checkRevoked (k : TrustKey) (revocations : RevocationSet) : Except TrustError Unit :=
  if isKeyRevoked crates revocations k then
    .error (.revoked ("trust key "++k.basename++" ("++displayDigest crates (keyFingerprint crates k)++")"))
  else .ok ()

def parentCanSignChild (parent child : KeyRole) : Bool :=
  match child with
  | .projectRoot => false
  | .distributionRoot => parent = .projectRoot
  | .operatorRoot => true
  | .vendor => parent = .projectRoot || parent = .distributionRoot || parent = .operatorRoot
  | .individualAuthor => parent = .projectRoot || parent = .distributionRoot || parent = .operatorRoot || parent = .vendor

def maxChainDepth : Nat := 8

def parentOf (all : List TrustKey) (k : TrustKey) : Option TrustKey :=
  k.info.key.signedBy.bind fun id => all.find? fun p => p.keyId = id

-- The loop of `validate_chain`, with the depth still allowed.
def validateChainFrom (all : List TrustKey) (revocations : RevocationSet) (now : Int) :
    Nat → TrustKey → Except TrustError Unit
  | left,cur => do
    checkWindow crates cur now
    checkRevoked crates cur revocations
    match cur.info.key.signedBy with
    | none => pure ()
    | some parentId =>
      match left with
      | 0 => throw (.chainBroken ("exceeded MAX_CHAIN_DEPTH ("++toString maxChainDepth++") at "++cur.keyId))
      | left+1 =>
        match all.find? fun p => p.keyId = parentId with
        | none => throw (.chainBroken (cur.keyId++" declares signed_by="++parentId++" but no such key in trust set"))
        | some parent =>
          if !parentCanSignChild parent.role cur.role then
            throw (.roleMismatch cur.keyId parent.keyId cur.role parent.role)
          else validateChainFrom all revocations now left parent

def validateChain (leaf : TrustKey) (all : List TrustKey) (revocations : RevocationSet) (now : Int) : Except TrustError Unit :=
  validateChainFrom crates all revocations now maxChainDepth leaf

def minRotationOverlap : Int := 30*24*3600*10^9

def inOverlapWindow (old new : TrustKey) (now : Int) : Bool :=
  match new.info.key.notBefore,old.info.key.notAfter with
  | some nb,some na => nb ≤ na && minRotationOverlap ≤ na-nb && nb ≤ now && now ≤ na
  | _,_ => false

def succeeds (leaf : TrustKey) (all : List TrustKey) (revocations : RevocationSet) (now : Int) (cand : TrustKey) : Bool :=
  cand.info.key.supersedes = some leaf.keyId && inOverlapWindow leaf cand now &&
    (validateChain crates cand all revocations now).toBool

def rotationWindowAccepts (leaf : TrustKey) (all : List TrustKey) (revocations : RevocationSet) (now : Int) : Option TrustKey :=
  all.find? (succeeds crates leaf all revocations now)

end Chains

section Payloads

-- A file of the bundle as it is read; `none` is an I/O failure.
structure File where
  path : String
  content : Option (List UInt8)
  deriving DecidableEq,Repr

def File.read (file : File) : Except TrustError (List UInt8) :=
  match file.content with
  | some bytes => .ok bytes
  | none => .error (.io ("read "++file.path))

def canonicalManifest (manifest : File) : Except TrustError (List UInt8) := do
  let raw ← manifest.read
  match crates.canonicalise raw with
  | .ok canonical => pure canonical
  | .error e => throw (.canonicalisationFailed (manifest.path++": "++e))

def signingMessage (manifest exec : File) : Except TrustError (List UInt8) := do
  let canonical ← canonicalManifest crates manifest
  let art ← exec.read
  pure ([1]++canonical++crates.sha256 art)

def installDigest (manifest exec : File) : Except TrustError (List UInt8) := do
  let msg ← signingMessage crates manifest exec
  pure (crates.sha256 msg)

def topLevelExcluded (rel : String) : Bool :=
  !rel.toList.contains '/' && (rel = "manifest.toml" || rel = "manifest.sig")

-- The files the recursive walk collected, with their paths relative to the plugin directory.
def contentTreeDigest (collected : Except TrustError (List (String × File))) : Except TrustError (List UInt8) := do
  let entries ← collected
  let covered := (entries.mergeSort fun a b => a.1 ≤ b.1).filter fun e => !topLevelExcluded e.1
  let parts ← covered.mapM fun e => do
    let content ← e.2.read
    pure (crates.sha256 (utf8 e.1)++crates.sha256 content)
  pure (crates.sha256 parts.flatten)

def signingMessageArtefact (manifest : File) (collected : Except TrustError (List (String × File))) :
    Except TrustError (List UInt8) := do
  let canonical ← canonicalManifest crates manifest
  let tree ← contentTreeDigest crates collected
  pure ([2]++canonical++tree)

def installDigestArtefact (manifest : File) (collected : Except TrustError (List (String × File))) :
    Except TrustError (List UInt8) := do
  let msg ← signingMessageArtefact crates manifest collected
  pure (crates.sha256 msg)

-- `manifest.sig`: absent, unreadable, or its bytes.
def readSignatureFile (sig : Option (Option (List UInt8))) : Except TrustError (List UInt8) :=
  match sig.join with
  | some b => if b.length = 64 then .ok b else .error .missingOrBadSignature
  | none => .error .missingOrBadSignature

end Payloads

section Admission

def authorise (keyMax : TrustClass) (keyBasename : String) (declared : TrustClass) (opt : TrustOptions) : Except TrustError TrustOutcome :=
  match effectiveTrustClass declared keyMax opt.degradeTrust with
  | .ok eff => .ok ⟨eff,false⟩
  | .error (d,m) => .error (.trustClassNotAuthorised d keyBasename m)

def finalise (k : TrustKey) (pluginName : String) (declared : TrustClass) (opt : TrustOptions) : Except TrustError TrustOutcome :=
  if !nameMatchesPrefixes crates pluginName k.info.authorisation.namePrefixes then
    .error (.nameNotAuthorised pluginName k.basename)
  else authorise k.info.authorisation.maxTrustClass k.basename declared opt

-- The key with the stricter ceiling limits the class.
def limiting (old new : TrustKey) : TrustKey :=
  if old.info.authorisation.maxTrustClass.rank < new.info.authorisation.maxTrustClass.rank then new else old

def finaliseIntersection (old new : TrustKey) (pluginName : String) (declared : TrustClass) (opt : TrustOptions) :
    Except TrustError TrustOutcome :=
  if !nameMatchesPrefixes crates pluginName old.info.authorisation.namePrefixes then
    .error (.nameNotAuthorised pluginName old.basename)
  else if !nameMatchesPrefixes crates pluginName new.info.authorisation.namePrefixes then
    .error (.nameNotAuthorised pluginName new.basename)
  else authorise (limiting old new).info.authorisation.maxTrustClass (limiting old new).basename declared opt

-- What the two verifiers share: the payload is the signed message, its digest names the install.
structure Request where
  digest : Except TrustError (List UInt8)
  message : Except TrustError (List UInt8)
  sig : Option (Option (List UInt8))
  pluginName : String
  declaredTrust : TrustClass
  keys : List TrustKey
  revocations : RevocationSet
  opt : TrustOptions
  now : Int

def Request.chainOf (r : Request) (k : TrustKey) : Except TrustError Unit := validateChain crates k r.keys r.revocations r.now

def Request.rotationOf (r : Request) (leaf : TrustKey) : Option TrustKey :=
  rotationWindowAccepts crates leaf r.keys r.revocations r.now

-- One turn of the signer loop returns, or leaves a new `last_err`.
inductive Turn where
  | returned (result : Except TrustError TrustOutcome)
  | next (lastErr : TrustError)

def Request.tryRotation (r : Request) (leaf : TrustKey) (e : TrustError) : Turn :=
  if e.isRevoked then .next e
  else
    match r.rotationOf crates leaf with
    | none => .next e
    | some rot =>
      match finaliseIntersection crates leaf rot r.pluginName r.declaredTrust r.opt with
      | .ok outcome => .returned (.ok outcome)
      | .error rotErr => .next rotErr

def Request.turn (r : Request) (leaf : TrustKey) : Turn :=
  match r.chainOf crates leaf with
  | .ok _ =>
    if !nameMatchesPrefixes crates r.pluginName leaf.info.authorisation.namePrefixes then
      .next (.nameNotAuthorised r.pluginName leaf.basename)
    else .returned (finalise crates leaf r.pluginName r.declaredTrust r.opt)
  | .error e => r.tryRotation crates leaf e

def Request.walkSigners (r : Request) : List TrustKey → Option TrustError → Except TrustError TrustOutcome
  | [],lastErr => .error (lastErr.getD .signatureNotRecognised)
  | leaf::rest,_ =>
    match r.turn crates leaf with
    | .returned result => result
    | .next e => r.walkSigners rest (some e)

def Request.signers (r : Request) (msg sig : List UInt8) : List TrustKey := r.keys.filter fun k => crates.verify k.verifying msg sig

def Request.admitSigners (r : Request) (signers : List TrustKey) : Except TrustError TrustOutcome :=
  if signers.isEmpty then .error .signatureNotRecognised
  else
    match signers.find? fun k => k.role = .operatorRoot with
    | some op => do
      checkWindow crates op r.now
      r.chainOf crates op
      finalise crates op r.pluginName r.declaredTrust r.opt
    | none => r.walkSigners crates signers none

def Request.verifyAt (r : Request) : Except TrustError TrustOutcome := do
  let id ← r.digest
  if r.revocations.digests.contains id then
    throw (.revoked (displayDigest crates id))
  if r.sig.isNone then
    if !r.opt.allowUnsigned then throw .unsignedInadmissible
    else pure ⟨.sandbox,true⟩
  else
    let msg ← r.message
    let sig ← readSignatureFile r.sig
    r.admitSigners crates (r.signers crates msg sig)

structure OutOfProcessBundle where
  manifest : File
  exec : File
  sig : Option (Option (List UInt8))
  pluginName : String
  declaredTrust : TrustClass

def outOfProcessRequest (bundle : OutOfProcessBundle) (keys : List TrustKey) (revocations : RevocationSet) (opt : TrustOptions)
    (now : Int) : Request :=
  ⟨installDigest crates bundle.manifest bundle.exec,signingMessage crates bundle.manifest bundle.exec,bundle.sig,
    bundle.pluginName,bundle.declaredTrust,keys,revocations,opt,now⟩

def verifyOutOfProcessBundleAt (bundle : OutOfProcessBundle) (keys : List TrustKey) (revocations : RevocationSet)
    (opt : TrustOptions) (now : Int) : Except TrustError TrustOutcome :=
  (outOfProcessRequest crates bundle keys revocations opt now).verifyAt crates

structure ArtefactBundle where
  manifest : File
  collected : Except TrustError (List (String × File))
  sig : Option (Option (List UInt8))
  pluginName : String
  declaredTrust : TrustClass

def artefactRequest (bundle : ArtefactBundle) (keys : List TrustKey) (revocations : RevocationSet) (opt : TrustOptions)
    (now : Int) : Request :=
  ⟨installDigestArtefact crates bundle.manifest bundle.collected,signingMessageArtefact crates bundle.manifest bundle.collected,
    bundle.sig,bundle.pluginName,bundle.declaredTrust,keys,revocations,opt,now⟩

def verifyArtefactBundleAt (bundle : ArtefactBundle) (keys : List TrustKey) (revocations : RevocationSet)
    (opt : TrustOptions) (now : Int) : Except TrustError TrustOutcome :=
  (artefactRequest crates bundle keys revocations opt now).verifyAt crates

end Admission

end EvoCore.Trust
