import Ostadix.Hex
import Ostadix.SortBy
import Ostadix.Table
import Mathlib.Data.Prod.Lex
import Mathlib.Data.String.Basic

/-! The registry of node profiles: signed event lists, verified against pinned roots. -/

namespace Ostadix.Registry

open Wire (Bytes utf8 beBytes)

abbrev RegistryPublicKey := Vector UInt8 32

abbrev Digest := Vector UInt8 32

inductive RegistryError where
  | empty (field : String)
  | tooLong (field : String) (maximum : ℕ)
  | invalidNamespace (field value : String)
  | invalidValidity (record : String)
  | unsupportedVersion (record : String) (found expected : UInt16)
  | emptySnapshot
  | tooManyEvents (maximum : ℕ)
  | tooManySnapshots (maximum : ℕ)
  | zeroSequence
  | sequenceMismatch (expected found : UInt64)
  | previousEventMismatch (sequence : UInt64)
  | timestampRollback (sequence : UInt64)
  | futureEvent (sequence issuedAtMs nowMs : UInt64)
  | invalidSignature (sequence : UInt64)
  | unauthorizedSigner (sequence : UInt64) («namespace» : String)
  | invalidRootEvent
  | namespaceMismatch (event body : String)
  | invalidDelegationScope (parent child : String)
  | missingDelegation («namespace» : String)
  | equivocation («namespace» : String) (sequence : UInt64)
  | profileRollback («namespace» nodeId : String) (current incoming : UInt64)
  | profileEquivocation («namespace» nodeId : String) (generation : UInt64)
  | profileNotYetValid («namespace» nodeId : String)
  | staleProfile («namespace» nodeId : String) (expiresAtMs : UInt64)
  | profileIssuerMismatch
  | profileNodeMismatch (profile publication : String)
  | nonCanonicalEncoding
  | canonical (message : String)
  deriving DecidableEq, Repr

abbrev Result := Except RegistryError

/-! ## Records -/

structure NamespaceRoot where
  schemaVersion : UInt16
  «namespace» : String
  rootPublicKey : RegistryPublicKey
  (validFromMs expiresAtMs : UInt64)
  deriving DecidableEq

structure NamespaceDelegation where
  schemaVersion : UInt16
  (parentNamespace childNamespace : String)
  delegatePublicKey : RegistryPublicKey
  (validFromMs expiresAtMs : UInt64)
  deriving DecidableEq

/-- A profile, with the fields that the registry does not read in their encoded form. -/
structure NodeProfile where
  (nodeId issuerKey : String)
  (profileGeneration issuedAt expiresAt : UInt64)
  content : Bytes
  deriving DecidableEq

structure ProfilePublication where
  schemaVersion : UInt16
  «namespace» : String
  nodeId : String
  profile : NodeProfile
  deriving DecidableEq

inductive RegistryEventBody where
  | namespaceRoot (root : NamespaceRoot)
  | namespaceDelegation (delegation : NamespaceDelegation)
  | publishProfile (publication : ProfilePublication)
  deriving DecidableEq

structure RegistryEvent where
  schemaVersion : UInt16
  sequence : UInt64
  previousEventSha256 : Option Digest
  issuedAtMs : UInt64
  «namespace» : String
  signerPublicKey : RegistryPublicKey
  body : RegistryEventBody
  deriving DecidableEq

structure SignedRegistryEvent where
  event : RegistryEvent
  signature : Bytes
  deriving DecidableEq

structure RegistrySnapshot where
  schemaVersion : UInt16
  events : List SignedRegistryEvent
  deriving DecidableEq

structure RegistryStore where
  schemaVersion : UInt16
  snapshots : List RegistrySnapshot

structure RegistryRootPin where
  «namespace» : String
  publicKey : RegistryPublicKey
  deriving DecidableEq

structure RegistryTrust where
  schemaVersion : UInt16
  roots : List RegistryRootPin

structure RegistryProfileKey where
  «namespace» : String
  nodeId : String
  deriving DecidableEq

inductive ProfileStalenessPolicy where
  | reject | allowExpired
  deriving DecidableEq

structure VerifiedRegistryProfile where
  publication : ProfilePublication
  eventSha256 : Digest
  (issuedAtMs expiresAtMs : UInt64)
  stale : Bool
  deriving DecidableEq

structure VerifiedRegistry where
  profiles : Table RegistryProfileKey VerifiedRegistryProfile
  verifiedSnapshots : ℕ
  lastSequences : Table String UInt64

/-! ## Cryptography and encoding -/

/-- What the registry takes from elsewhere: a fallible encoding, the hash and the signatures. -/
structure Crypto where
  canonicalEvent : RegistryEvent → Except String Bytes
  canonicalSignedEvent : SignedRegistryEvent → Except String Bytes
  sha256 : Bytes → Digest
  publicKeyId : RegistryPublicKey → Digest
  isVerifyingKey : RegistryPublicKey → Bool
  verifyStrict : RegistryPublicKey → Bytes → Bytes → Bool

variable (crypto : Crypto)

def registrySigningPreimage (event : RegistryEvent) : Result Bytes := do
  let body ← (crypto.canonicalEvent event).mapError .canonical
  return utf8 "OSTADIX/REGISTRY-EVENT/V1\x00" ++ beBytes 8 body.length ++ body

def verifyEventSignature (signed : SignedRegistryEvent) : Result Unit := do
  let invalid := RegistryError.invalidSignature signed.event.sequence
  ensure (signed.signature.length = 64) invalid
  ensure (crypto.isVerifyingKey signed.event.signerPublicKey = true) invalid
  let preimage ← registrySigningPreimage crypto signed.event
  ensure (crypto.verifyStrict signed.event.signerPublicKey preimage signed.signature = true) invalid

def registryEventSha256 (signed : SignedRegistryEvent) : Result Digest := do
  let bytes ← (crypto.canonicalSignedEvent signed).mapError .canonical
  ensure (bytes.length < 2 ^ 64) (.canonical "registry record is too large")
  return crypto.sha256
    (utf8 "OSTADIX/REGISTRY-SIGNED-EVENT/V1\x00" ++ beBytes 8 bytes.length ++ bytes)

/-! ## Shapes -/

def registrySchema : UInt16 := 1

def validateVersion (record : String) (found : UInt16) : Result Unit :=
  ensure (found = registrySchema) (.unsupportedVersion record found registrySchema)

def validateValidity (record : String) (validFromMs expiresAtMs : UInt64) : Result Unit :=
  ensure (validFromMs < expiresAtMs) (.invalidValidity record)

def isAsciiLowercase (byte : UInt8) : Bool := 97 ≤ byte && byte ≤ 122

def isAsciiDigit (byte : UInt8) : Bool := 48 ≤ byte && byte ≤ 57

def isAsciiAlphanumeric (byte : UInt8) : Bool :=
  isAsciiLowercase byte || isAsciiDigit byte || 65 ≤ byte && byte ≤ 90

def isSegment (segment : String) : Bool :=
  segment ≠ "" && segment ≠ "." && segment ≠ ".." &&
    ((utf8 segment).all fun byte =>
      isAsciiLowercase byte || isAsciiDigit byte || byte = 46 || byte = 95 || byte = 45) &&
    (utf8 segment).head?.any isAsciiAlphanumeric && (utf8 segment).getLast?.any isAsciiAlphanumeric

def validateNamespace (field value : String) : Result Unit := do
  ensure (value ≠ "") (.empty field)
  ensure (value.utf8ByteSize ≤ 128) (.tooLong field 128)
  ensure ((Text.split '/' value).all isSegment = true) (.invalidNamespace field value)

def validateNodeId (nodeId : String) : Result Unit := do
  ensure (nodeId ≠ "") (.empty "profile node identity")
  ensure (nodeId.utf8ByteSize ≤ 128) (.tooLong "profile node identity" 128)
  ensure (((utf8 nodeId).any fun byte => byte < 32 || byte = 127) = false)
    (.invalidNamespace "profile node identity" nodeId)

def isWithinScope (value scope : String) : Bool :=
  value = scope || ((Text.after? scope value).any fun suffix => suffix.toList.head? = some '/')

def isStrictDescendant (value scope : String) : Bool := value ≠ scope && isWithinScope value scope

def NamespaceRoot.validate (root : NamespaceRoot) : Result Unit := do
  validateVersion "namespace root" root.schemaVersion
  validateNamespace "root namespace" root.namespace
  validateValidity "namespace root" root.validFromMs root.expiresAtMs

def NamespaceDelegation.validate (delegation : NamespaceDelegation) : Result Unit := do
  validateVersion "namespace delegation" delegation.schemaVersion
  validateNamespace "delegation parent namespace" delegation.parentNamespace
  validateNamespace "delegation child namespace" delegation.childNamespace
  ensure (isStrictDescendant delegation.childNamespace delegation.parentNamespace = true)
    (.invalidDelegationScope delegation.parentNamespace delegation.childNamespace)
  validateValidity "namespace delegation" delegation.validFromMs delegation.expiresAtMs

def ProfilePublication.validate (publication : ProfilePublication) : Result Unit := do
  validateVersion "profile publication" publication.schemaVersion
  validateNamespace "profile namespace" publication.namespace
  validateNodeId publication.nodeId
  ensure (publication.profile.nodeId = publication.nodeId)
    (.profileNodeMismatch publication.profile.nodeId publication.nodeId)

def RegistryEventBody.validate : RegistryEventBody → Result Unit
  | .namespaceRoot root => root.validate
  | .namespaceDelegation delegation => delegation.validate
  | .publishProfile publication => publication.validate

def RegistryEvent.validateShape (event : RegistryEvent) : Result Unit := do
  validateVersion "registry event" event.schemaVersion
  ensure (event.sequence ≠ 0) .zeroSequence
  validateNamespace "event namespace" event.namespace
  event.body.validate

def maxRegistryEvents : ℕ := 16384

def maxRegistrySnapshots : ℕ := 256

def RegistrySnapshot.validateShape (snapshot : RegistrySnapshot) : Result Unit := do
  validateVersion "registry snapshot" snapshot.schemaVersion
  ensure (snapshot.events ≠ []) .emptySnapshot
  ensure (snapshot.events.length ≤ maxRegistryEvents) (.tooManyEvents maxRegistryEvents)

def RegistrySnapshot.lastSequence (snapshot : RegistrySnapshot) : UInt64 :=
  (snapshot.events.getLast?.map (·.event.sequence)).getD 0

def RegistryStore.validateShape (store : RegistryStore) : Result Unit := do
  validateVersion "registry store" store.schemaVersion
  ensure (store.snapshots.length ≤ maxRegistrySnapshots) (.tooManySnapshots maxRegistrySnapshots)
  store.snapshots.forM (·.validateShape)

/-- Namespaces are ordered by their text, keys by their bytes. -/
def identityOrder (value : String) (key : RegistryPublicKey) : String ×ₗ List ℕ :=
  toLex (value, key.toList.map UInt8.toNat)

/-- The roots in their order, without repetitions. -/
def canonicalRoots (roots : List RegistryRootPin) : List RegistryRootPin :=
  retainNew [] (sortBy (fun root => identityOrder root.namespace root.publicKey) roots)

def RegistryTrust.validate (trust : RegistryTrust) : Result Unit := do
  validateVersion "registry trust" trust.schemaVersion
  ensure (trust.roots ≠ []) (.empty "registry trust roots")
  ensure (canonicalRoots trust.roots = trust.roots) .nonCanonicalEncoding

/-! ## Authorities -/

structure Authority where
  scope : String
  publicKey : RegistryPublicKey
  (validFromMs expiresAtMs : UInt64)
  deriving DecidableEq

namespace Authority

def authorizes (authority : Authority) (value : String) (publicKey : RegistryPublicKey)
    (atMs : UInt64) : Bool :=
  authority.publicKey = publicKey && isWithinScope value authority.scope &&
    authority.validFromMs ≤ atMs && atMs < authority.expiresAtMs

def authorizesRoot (authority : Authority) (root : NamespaceRoot) (nowMs : UInt64) : Bool :=
  authority.publicKey = root.rootPublicKey && root.namespace = authority.scope &&
    authority.validFromMs ≤ root.validFromMs && root.expiresAtMs ≤ authority.expiresAtMs &&
    authority.validFromMs ≤ nowMs && nowMs < authority.expiresAtMs

def containsInterval (authority : Authority) (validFromMs expiresAtMs : UInt64) : Bool :=
  authority.validFromMs ≤ validFromMs && expiresAtMs ≤ authority.expiresAtMs

end Authority

def NamespaceDelegation.authority (delegation : NamespaceDelegation) : Authority :=
  ⟨delegation.childNamespace, delegation.delegatePublicKey, delegation.validFromMs,
    delegation.expiresAtMs⟩

def RegistryRootPin.authority (root : RegistryRootPin) : Authority :=
  ⟨root.namespace, root.publicKey, 0, 0xFFFFFFFFFFFFFFFF⟩

/-! ## Snapshots -/

structure SnapshotVerification where
  rootNamespace : String
  profiles : Table RegistryProfileKey VerifiedRegistryProfile
  activeDelegations : List Authority
  lastSequence : UInt64

structure SnapshotState where
  (authorities activeDelegations : List Authority)
  profiles : Table RegistryProfileKey VerifiedRegistryProfile
  previousDigest : Digest
  previousIssuedAt : UInt64

variable (nowMs : UInt64)

def admitDelegation (s : SnapshotState) (event : RegistryEvent) (authorizing : List Authority)
    (delegation : NamespaceDelegation) : Result SnapshotState := do
  ensure (event.namespace = delegation.parentNamespace)
    (.namespaceMismatch event.namespace delegation.parentNamespace)
  ensure (event.issuedAtMs ≤ delegation.validFromMs ∧ (authorizing.any fun authority =>
      authority.containsInterval delegation.validFromMs delegation.expiresAtMs) = true)
    (.invalidValidity "bounded namespace delegation")
  let delegated := delegation.authority
  let active := delegated.validFromMs ≤ nowMs ∧ nowMs < delegated.expiresAtMs
  return { s with
    authorities := s.authorities ++ [delegated]
    activeDelegations :=
      if active then s.activeDelegations ++ [delegated] else s.activeDelegations }

def validateProfileIssuer (publication : ProfilePublication) (signer : RegistryPublicKey) :
    Result Unit :=
  ensure (publication.profile.issuerKey = hexEncode (crypto.publicKeyId signer).toList)
    .profileIssuerMismatch

def ProfilePublication.key (publication : ProfilePublication) : RegistryProfileKey :=
  ⟨publication.namespace, publication.nodeId⟩

def checkGeneration (key : RegistryProfileKey) (generation : UInt64) :
    Option VerifiedRegistryProfile → Result Unit
  | none => .ok ()
  | some existing => do
    let current := existing.publication.profile.profileGeneration
    ensure (current ≤ generation) (.profileRollback key.namespace key.nodeId current generation)
    ensure (generation ≠ current) (.profileEquivocation key.namespace key.nodeId generation)

def admitPublication (s : SnapshotState) (signed : SignedRegistryEvent)
    (authorizing : List Authority) (publication : ProfilePublication) : Result SnapshotState := do
  let event := signed.event
  let profile := publication.profile
  ensure (event.namespace = publication.namespace)
    (.namespaceMismatch event.namespace publication.namespace)
  validateProfileIssuer crypto publication event.signerPublicKey
  ensure (profile.issuedAt ≤ event.issuedAtMs ∧ event.issuedAtMs < profile.expiresAt ∧
      (authorizing.any fun authority =>
        authority.containsInterval profile.issuedAt profile.expiresAt) = true)
    (.invalidValidity "authority-bounded profile publication")
  checkGeneration publication.key profile.profileGeneration (s.profiles.lookup publication.key)
  let digest ← registryEventSha256 crypto signed
  let verified : VerifiedRegistryProfile :=
    ⟨publication, digest, profile.issuedAt, profile.expiresAt, profile.expiresAt ≤ nowMs⟩
  return { s with profiles := s.profiles.insert publication.key verified }

def admitBody (s : SnapshotState) (signed : SignedRegistryEvent) (authorizing : List Authority) :
    Result SnapshotState :=
  match signed.event.body with
  | .namespaceRoot _ => .error .invalidRootEvent
  | .namespaceDelegation delegation => admitDelegation nowMs s signed.event authorizing delegation
  | .publishProfile publication => admitPublication crypto nowMs s signed authorizing publication

def verifyEvent (s : SnapshotState) (entry : SignedRegistryEvent × ℕ) : Result SnapshotState := do
  let (signed, index) := entry
  let event := signed.event
  event.validateShape
  let expected := UInt64.ofNat index + 1
  ensure (event.sequence = expected) (.sequenceMismatch expected event.sequence)
  ensure (event.previousEventSha256 = some s.previousDigest)
    (.previousEventMismatch event.sequence)
  ensure (s.previousIssuedAt ≤ event.issuedAtMs) (.timestampRollback event.sequence)
  ensure (event.issuedAtMs ≤ nowMs) (.futureEvent event.sequence event.issuedAtMs nowMs)
  verifyEventSignature crypto signed
  let authorizing := s.authorities.filter fun authority =>
    authority.authorizes event.namespace event.signerPublicKey event.issuedAtMs
  ensure (authorizing ≠ []) (.unauthorizedSigner event.sequence event.namespace)
  let s ← admitBody crypto nowMs s signed authorizing
  let digest ← registryEventSha256 crypto signed
  return { s with previousDigest := digest, previousIssuedAt := event.issuedAtMs }

def rootOf (body : RegistryEventBody) : Result NamespaceRoot :=
  match body with
  | .namespaceRoot root => .ok root
  | _ => .error .invalidRootEvent

def verifyRoot (first : SignedRegistryEvent) (anchor : Authority) : Result NamespaceRoot := do
  let event := first.event
  event.validateShape
  ensure (event.sequence = 1 ∧ event.previousEventSha256 = none) .invalidRootEvent
  verifyEventSignature crypto first
  let root ← rootOf event.body
  ensure (event.namespace = root.namespace ∧ event.signerPublicKey = root.rootPublicKey ∧
    event.issuedAtMs = root.validFromMs) .invalidRootEvent
  ensure (anchor.authorizesRoot root nowMs = true) (.missingDelegation root.namespace)
  ensure (root.validFromMs ≤ nowMs ∧ nowMs < root.expiresAtMs)
    (.invalidValidity "current namespace root")
  return root

def ordered (profiles : Table RegistryProfileKey VerifiedRegistryProfile) :
    List ((_ : RegistryProfileKey) × VerifiedRegistryProfile) :=
  sortBy (fun entry => (toLex (entry.1.namespace, entry.1.nodeId) : String ×ₗ String))
    profiles.entries

def checkStaleness (staleness : ProfileStalenessPolicy)
    (entry : (_ : RegistryProfileKey) × VerifiedRegistryProfile) : Result Unit := do
  let ⟨key, profile⟩ := entry
  ensure (profile.issuedAtMs ≤ nowMs) (.profileNotYetValid key.namespace key.nodeId)
  ensure (¬(profile.stale = true ∧ staleness = .reject))
    (.staleProfile key.namespace key.nodeId profile.expiresAtMs)

def verifySnapshot (staleness : ProfileStalenessPolicy) (snapshot : RegistrySnapshot)
    (anchor : Authority) : Result SnapshotVerification := do
  snapshot.validateShape
  match snapshot.events with
  | [] => .error .emptySnapshot
  | first :: rest =>
    let root ← verifyRoot crypto nowMs first anchor
    let rootAuthority : Authority := ⟨root.namespace, root.rootPublicKey,
      max root.validFromMs anchor.validFromMs, min root.expiresAtMs anchor.expiresAtMs⟩
    let digest ← registryEventSha256 crypto first
    let s ← (rest.zipIdx 1).foldlM (verifyEvent crypto nowMs)
      ⟨[rootAuthority], [], ∅, digest, first.event.issuedAtMs⟩
    (ordered s.profiles).forM (checkStaleness nowMs staleness)
    return ⟨root.namespace, s.profiles, s.activeDelegations, snapshot.lastSequence⟩

/-! ## Stores -/

def snapshotRootIdentity (snapshot : RegistrySnapshot) : Result (String × RegistryPublicKey) := do
  snapshot.validateShape
  match snapshot.events with
  | [] => .error .emptySnapshot
  | first :: _ =>
    let root ← rootOf first.event.body
    return (root.namespace, root.rootPublicKey)

def rootIdentities : List RegistrySnapshot → List String →
    Result (List (String × RegistryPublicKey))
  | [], _ => .ok []
  | snapshot :: rest, names => do
    let identity ← snapshotRootIdentity snapshot
    ensure (identity.1 ∉ names) (.equivocation identity.1 1)
    return identity :: (← rootIdentities rest (identity.1 :: names))

structure Resolution where
  authorities : List Authority
  verified : List SnapshotVerification
  unresolved : List (RegistrySnapshot × String × RegistryPublicKey)

variable (staleness : ProfileStalenessPolicy)

/-- Verify a snapshot if an authority names its root; it stays unresolved otherwise. -/
def visit (r : Resolution) (entry : RegistrySnapshot × String × RegistryPublicKey) :
    Result Resolution :=
  let (snapshot, root, publicKey) := entry
  match r.authorities.find? fun authority =>
      authority.publicKey = publicKey && root = authority.scope with
  | none => .ok { r with unresolved := r.unresolved ++ [entry] }
  | some anchor => do
    let checked ← verifySnapshot crypto nowMs staleness snapshot anchor
    return { r with
      authorities := r.authorities ++ checked.activeDelegations
      verified := r.verified ++ [checked] }

/-- Each pass resolves a snapshot or fails, so as many as there are snapshots suffice. -/
def resolve : ℕ → Resolution → Result Resolution
  | 0, r => .ok r
  | fuel + 1, r =>
    match r.unresolved with
    | [] => .ok r
    | (_, root, _) :: _ => do
      let r' ← r.unresolved.foldlM (visit crypto nowMs staleness) { r with unresolved := [] }
      ensure (r'.unresolved.length < r.unresolved.length) (.missingDelegation root)
      resolve fuel r'

def mergeProfile (profiles : Table RegistryProfileKey VerifiedRegistryProfile)
    (entry : (_ : RegistryProfileKey) × VerifiedRegistryProfile) :
    Result (Table RegistryProfileKey VerifiedRegistryProfile) :=
  let ⟨key, profile⟩ := entry
  match profiles.lookup key with
  | none => .ok (profiles.insert key profile)
  | some existing => .error (.profileEquivocation key.namespace key.nodeId
      (max profile.publication.profile.profileGeneration
        existing.publication.profile.profileGeneration))

def mergeSnapshot (profiles : Table RegistryProfileKey VerifiedRegistryProfile)
    (snapshot : SnapshotVerification) : Result (Table RegistryProfileKey VerifiedRegistryProfile) :=
  (ordered snapshot.profiles).foldlM mergeProfile profiles

def verifyRegistryStore (store : RegistryStore) (trust : RegistryTrust) :
    Result VerifiedRegistry := do
  store.validateShape
  trust.validate
  let identities ← rootIdentities store.snapshots []
  ensure ((identities.map fun (name, key) => identityOrder name key).IsChain (· < ·))
    .nonCanonicalEncoding
  let r ← resolve crypto nowMs staleness store.snapshots.length
    ⟨trust.roots.map (·.authority), [], store.snapshots.zip identities⟩
  let profiles ← r.verified.foldlM mergeSnapshot ∅
  return ⟨profiles, store.snapshots.length,
    r.verified.foldl (fun sequences snapshot =>
      sequences.insert snapshot.rootNamespace snapshot.lastSequence) ∅⟩

end Ostadix.Registry
