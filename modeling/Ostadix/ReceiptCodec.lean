import Ostadix.Receipt

/-! The unsigned bodies of execution receipts (`OWRECEIPT`) and what is signed of them. -/

namespace Ostadix.Receipt

open Wire

def receiptSigningDomain : Bytes :=
  [79, 83, 84, 65, 68, 73, 88, 47, 79, 87, 82, 69, 67, 69, 73, 80, 84, 47, 86, 49, 0]

def worldReceiptSchemaV1 : UInt16 := 1

def ed25519SignatureAlgorithmV1 : UInt16 := 1

def worldReceiptHeaderBytes : ℕ := 24

def worldReceiptTrailerBytes : ℕ := 96

def maxWorldReceiptBytes : ℕ := 16 * 1024

def maxWorldReceiptBodyBytes : ℕ :=
  maxWorldReceiptBytes - worldReceiptHeaderBytes - worldReceiptTrailerBytes

/-! ## Encoding -/

def putIdentity (record : IdentityWireRecord) : Check Bytes := do
  let bytes ← record.encode.mapError .identityWire
  ensure (bytes.length < 2 ^ 16) (.malformed "nested identity exceeds u16 length")
  return putU16 (UInt16.ofNat bytes.length) ++ bytes

def putDigest (digest : ArtifactId) : Check Bytes := do
  let bytes ← orError (.malformed "invalid artifact digest") (hexDecode digest.value)
  ensure (bytes.length = 32) (.malformed "artifact digest is not SHA-256")
  return bytes

def putText (value : String) : Check Bytes := do
  ensure (utf8 value ≠ [] ∧ (utf8 value).length ≤ maxReceiptIdentifierBytes)
    (.malformed "invalid bounded identifier")
  return putU16 (UInt16.ofNat (utf8 value).length) ++ utf8 value

def putCount (count : ℕ) : Check Bytes := do
  ensure (count < 2 ^ 16) (.malformed "count overflow")
  return putU16 (UInt16.ofNat count)

def putTag (value : UInt8) : Check Bytes := .ok [value, 0, 0, 0]

def putEntries {α : Type} (put : α → Check Bytes) (entries : List α) : Check Bytes :=
  concat [putCount entries.length, concat (entries.map put)]

def putProcess : Option ProcessIdentity → Check Bytes
  | some process => putIdentity (.process process)
  | none => .ok (putU16 0)

def encodeContext (context : ContextFields) : Check Bytes :=
  concat [putIdentity (.receipt context.receipt), putIdentity (.world context.world),
    putIdentity (.governor context.governor), putIdentity (.attempt context.attempt),
    putIdentity (.node context.placement.value.node),
    putIdentity (.domain context.placement.value.domain),
    putProcess context.placement.value.process]

def digestSource : UInt8 := 1

def digestBundle : UInt8 := 2

def digestPackage : UInt8 := 4

def digestHgraph : UInt8 := 8

def digestEffects : UInt8 := 16

def digestMask : UInt8 := 31

def present (digest : Option ArtifactId) (bit : UInt8) : UInt8 := if digest.isSome then bit else 0

def SubjectFields.mask (subject : SubjectFields) : UInt8 :=
  present subject.source digestSource ||| present subject.bundle digestBundle |||
    present subject.package digestPackage ||| present subject.logicalHgraph digestHgraph |||
    present subject.effects digestEffects

def putOptionalDigest (digest : Option ArtifactId) : Check Bytes :=
  concat (digest.toList.map putDigest)

def encodeSubject (subject : SubjectFields) : Check Bytes :=
  concat (putTag subject.mask :: subject.digests.map putOptionalDigest)

def encodeComponent (component : ComponentObservation) : Check Bytes :=
  concat [putTag component.value.kind.toU8, .ok (putU64 component.value.generation),
    putText component.value.identity, putDigest component.value.digest]

def encodeCapability (capability : CapabilityObservation) : Check Bytes :=
  concat [putIdentity (.capability capability.value.capability),
    putEntries (fun right : ReceiptRight => putText right.value) capability.value.rights]

def encodeObject (object : ObjectObservation) : Check Bytes :=
  concat [putIdentity (.object object.value.object), putTag object.value.role.toU8,
    putDigest object.value.content, .ok (putU64 object.value.bytesLen)]

def encodeCapsule (capsule : CapsuleObservation) : Check Bytes :=
  concat [putDigest capsule.value.digest, putText capsule.value.evaluator,
    putIdentity (.node capsule.value.affinity)]

def encodeEffect (effect : EffectObservation) : Check Bytes :=
  concat [putIdentity (.resource effect.value.resource), putDigest effect.value.before,
    putDigest effect.value.after]

def encodeRejection (rejection : PlacementRejection) : Check Bytes :=
  concat [putIdentity (.node rejection.value.node), putText rejection.value.reason]

def encodeCheckpoint (checkpoint : CheckpointObservation) : Check Bytes :=
  concat [putIdentity (.checkpoint checkpoint.value.checkpoint), putDigest checkpoint.value.state,
    putTag (if checkpoint.value.recovered then 1 else 0)]

def putValue (value : PortableValueRecord) : Check Bytes := do
  let bytes ← value.encode.mapError .portableValue
  return putU32 (UInt32.ofNat bytes.length) ++ bytes

def encodeTerminal : ReceiptTerminal → Check Bytes
  | .success value => concat [putTag 1, putValue value]
  | .failure code detailDigest => concat [putTag 2, putText code, putDigest detailDigest]
  | .cancelled => putTag 3
  | .deadlineExceeded => putTag 4
  | .worldFailed => putTag 5
  | .worldStopped => putTag 6

def encodeCommit : ReceiptCommitFence → Check Bytes
  | .uncommitted => putTag 0
  | .governed governor => concat [putTag 1, putIdentity (.governor governor)]

def encodeEvidence : Option EvidenceObservation → Check Bytes
  | some evidence =>
    concat [putTag 1, putText evidence.value.gate, putDigest evidence.value.transcript]
  | none => putTag 0

def encodeBody (receipt : ExecutionReceipt) : Check Bytes := do
  let output ← concat [encodeContext receipt.value.context.value,
    encodeSubject receipt.value.subject.value,
    putEntries encodeComponent receipt.value.components,
    putEntries encodeCapability receipt.value.capabilities,
    putEntries encodeObject receipt.value.objects,
    putEntries encodeCapsule receipt.value.capsules,
    putEntries encodeEffect receipt.value.effects,
    putEntries encodeRejection receipt.value.context.value.placement.value.rejected,
    putEntries encodeCheckpoint receipt.value.checkpoints,
    encodeTerminal receipt.value.terminal,
    encodeCommit receipt.value.commit,
    encodeEvidence receipt.value.evidence]
  ensure (output.length ≤ maxWorldReceiptBodyBytes)
    (.recordTooLarge (worldReceiptHeaderBytes + output.length + worldReceiptTrailerBytes)
      maxWorldReceiptBytes)
  return output

/-! ## Decoding -/

abbrev Cursor := Reader ReceiptError

def takeBytes (length : ℕ) : Cursor Bytes :=
  take (fun _ _ => .malformed "truncated unsigned body") length

def readU8 : Cursor UInt8 := takeU8 fun _ _ => .malformed "truncated unsigned body"

def readU16 : Cursor UInt16 := takeU16 fun _ _ => .malformed "truncated unsigned body"

def readU32 : Cursor UInt32 := takeU32 fun _ _ => .malformed "truncated unsigned body"

def readU64 : Cursor UInt64 := takeU64 fun _ _ => .malformed "truncated unsigned body"

def peekU16 : Cursor UInt16 := fun bytes =>
  if bytes.length < 2 then .error (.malformed "truncated u16")
  else .ok (getU16 (bytes.take 2), bytes)

def zeros (length : ℕ) : Cursor Unit := do
  let bytes ← takeBytes length
  lift (ensure (bytes.all (· = 0)) (.malformed "nonzero reserved field"))

def readText : Cursor String := do
  let length ← readU16
  lift (ensure (length ≠ 0 ∧ length.toNat ≤ maxReceiptIdentifierBytes)
    (.malformed "invalid text length"))
  let bytes ← takeBytes length.toNat
  lift (decodeUtf8 (.malformed "text is not UTF-8") bytes)

def readDigest : Cursor ArtifactId := do
  let bytes ← takeBytes 32
  lift ((Checked.new validateArtifactDigest (hexEncode bytes)).mapError .identity)

def readIdentity : Cursor IdentityWireRecord := do
  let length ← readU16
  lift (ensure (length ≠ 0) (.malformed "missing required identity"))
  let bytes ← takeBytes length.toNat
  lift ((IdentityWireRecord.decode bytes).mapError .identityWire)

def readCount (maximum : ℕ) (kind : String) : Cursor ℕ := do
  let actual ← readU16
  lift (ensure (actual.toNat ≤ maximum) (.limit kind actual.toNat maximum))
  return actual.toNat

def expectIdentity {α : Type} (variant : String) (select : IdentityWireRecord → Option α) :
    Cursor α := do
  let record ← readIdentity
  lift (orError (.malformed ("wrong nested identity kind for " ++ variant)) (select record))

def expectReceipt : Cursor ReceiptIdentity :=
  expectIdentity "Receipt" fun | .receipt identity => some identity | _ => none

def expectWorld : Cursor WorldIdentity :=
  expectIdentity "World" fun | .world identity => some identity | _ => none

def expectGovernor : Cursor GovernorIdentity :=
  expectIdentity "Governor" fun | .governor identity => some identity | _ => none

def expectAttempt : Cursor AttemptIdentity :=
  expectIdentity "Attempt" fun | .attempt identity => some identity | _ => none

def expectNode : Cursor NodeIdentity :=
  expectIdentity "Node" fun | .node identity => some identity | _ => none

def expectDomain : Cursor DomainIdentity :=
  expectIdentity "Domain" fun | .domain identity => some identity | _ => none

def expectProcess : Cursor ProcessIdentity :=
  expectIdentity "Process" fun | .process identity => some identity | _ => none

def expectCapability : Cursor CapabilityIdentity :=
  expectIdentity "Capability" fun | .capability identity => some identity | _ => none

def expectObject : Cursor ObjectIdentity :=
  expectIdentity "Object" fun | .object identity => some identity | _ => none

def expectResource : Cursor ResourceIdentity :=
  expectIdentity "Resource" fun | .resource identity => some identity | _ => none

def expectCheckpoint : Cursor CheckpointIdentity :=
  expectIdentity "Checkpoint" fun | .checkpoint identity => some identity | _ => none

def readProcess : Cursor (Option ProcessIdentity) := do
  if (← peekU16) = 0 then
    let _ ← readU16
    return none
  else
    return some (← expectProcess)

def nextDigest (mask bit : UInt8) : Cursor (Option ArtifactId) :=
  if mask &&& bit ≠ 0 then some <$> readDigest else pure none

def decodeSubject : Cursor ReceiptSubject := do
  let mask ← readU8
  lift (ensure (mask ≠ 0 ∧ mask &&& ~~~digestMask = 0)
    (.malformed "invalid subject digest mask"))
  zeros 3
  let source ← nextDigest mask digestSource
  let bundle ← nextDigest mask digestBundle
  let package ← nextDigest mask digestPackage
  let logicalHgraph ← nextDigest mask digestHgraph
  let effects ← nextDigest mask digestEffects
  lift (Checked.new SubjectFields.check ⟨source, bundle, package, logicalHgraph, effects⟩)

def decodeComponent : Cursor ComponentObservation := do
  let kind ← lift (ComponentKind.fromU8 (← readU8))
  zeros 3
  let generation ← readU64
  let identity ← readText
  let digest ← readDigest
  lift (Checked.new ComponentFields.check ⟨kind, identity, generation, digest⟩)

def decodeRight : Cursor ReceiptRight := do
  let text ← readText
  lift (Checked.new (validateIdentifier "capability right") text)

def decodeCapability : Cursor CapabilityObservation := do
  let capability ← expectCapability
  let count ← readCount maxReceiptRights "rights"
  lift (ensure (count ≠ 0) (.malformed "capability has no rights"))
  let rights ← readMany decodeRight count
  lift (Constructed.new CapabilityFields.construct ⟨capability, rights⟩)

def decodeObject : Cursor ObjectObservation := do
  let object ← expectObject
  let role ← lift (ObjectRole.fromU8 (← readU8))
  zeros 3
  let content ← readDigest
  let bytesLen ← readU64
  lift (Checked.new ObjectFields.check ⟨object, role, content, bytesLen⟩)

def decodeCapsule : Cursor CapsuleObservation := do
  let digest ← readDigest
  let evaluator ← readText
  let affinity ← expectNode
  lift (Checked.new CapsuleFields.check ⟨digest, evaluator, affinity⟩)

def decodeEffect : Cursor EffectObservation := do
  let resource ← expectResource
  let before ← readDigest
  let after ← readDigest
  lift (Checked.new EffectFields.check ⟨resource, before, after⟩)

def decodeRejection : Cursor PlacementRejection := do
  let node ← expectNode
  let reason ← readText
  lift (Checked.new RejectionFields.check ⟨node, reason⟩)

def recoveryFlag : UInt8 → Check Bool
  | 0 => .ok false
  | 1 => .ok true
  | _ => .error (.malformed "invalid recovery flag")

def decodeCheckpoint : Cursor CheckpointObservation := do
  let checkpoint ← expectCheckpoint
  let state ← readDigest
  let recovered ← lift (recoveryFlag (← readU8))
  zeros 3
  lift (Checked.new CheckpointFields.check ⟨checkpoint, state, recovered⟩)

def readTag : Cursor UInt8 := do
  let tag ← readU8
  zeros 3
  return tag

def readValue : Cursor PortableValueRecord := do
  let length ← readU32
  let bytes ← takeBytes length.toNat
  lift ((PortableValueRecord.decode bytes).mapError .portableValue)

def decodeTerminal : Cursor ReceiptTerminal := do
  match ← readTag with
  | 1 => .success <$> readValue
  | 2 => do
    let code ← readText
    let detailDigest ← readDigest
    lift (ReceiptTerminal.newFailure code detailDigest)
  | 3 => return .cancelled
  | 4 => return .deadlineExceeded
  | 5 => return .worldFailed
  | 6 => return .worldStopped
  | _ => lift (.error (.malformed "unknown terminal tag"))

def decodeCommit : Cursor ReceiptCommitFence := do
  match ← readTag with
  | 0 => return .uncommitted
  | 1 => .governed <$> expectGovernor
  | _ => lift (.error (.malformed "unknown commit tag"))

def decodeEvidence : Cursor (Option EvidenceObservation) := do
  match ← readTag with
  | 0 => return none
  | 1 => do
    let gate ← readText
    let transcript ← readDigest
    some <$> lift (Checked.new EvidenceFields.check ⟨gate, transcript⟩)
  | _ => lift (.error (.malformed "unknown evidence tag"))

def readEntries {α : Type} (maximum : ℕ) (kind : String) (read : Cursor α) : Cursor (List α) := do
  let count ← readCount maximum kind
  readMany read count

def decodeParts : Cursor ReceiptParts := do
  let receipt ← expectReceipt
  let world ← expectWorld
  let governor ← expectGovernor
  let attempt ← expectAttempt
  let node ← expectNode
  let domain ← expectDomain
  let process ← readProcess
  let subject ← decodeSubject
  let components ← readEntries maxReceiptComponents "components" decodeComponent
  let capabilities ← readEntries maxReceiptCapabilities "capabilities" decodeCapability
  let objects ← readEntries maxReceiptObjects "objects" decodeObject
  let capsules ← readEntries maxReceiptCapsules "capsules" decodeCapsule
  let effects ← readEntries maxReceiptEffects "effects" decodeEffect
  let rejected ← readEntries maxReceiptRejections "placement rejections" decodeRejection
  let checkpoints ← readEntries maxReceiptCheckpoints "checkpoints" decodeCheckpoint
  let terminal ← decodeTerminal
  let commit ← decodeCommit
  let evidence ← decodeEvidence
  return ⟨receipt, world, governor, attempt, node, domain, process, rejected, subject, components,
    capabilities, objects, capsules, effects, checkpoints, terminal, commit, evidence⟩

def decodeBody (body : Bytes) : Check ExecutionReceipt := do
  let parts ← whole (fun _ => .malformed "trailing unsigned body bytes") decodeParts body
  parts.assemble

/-- Decode a body and insist on its canonical form. -/
def inspectUnsignedReceipt (body : Bytes) : Check ExecutionReceipt := do
  ensure (body ≠ [] ∧ body.length ≤ maxWorldReceiptBodyBytes)
    (.malformed "invalid unsigned body length")
  let receipt ← decodeBody body
  let canonical ← encodeBody receipt
  ensure (canonical = body) (.malformed "unsigned body is not canonical")
  return receipt

/-! ## Signing -/

def buildPreimage (body : Bytes) (keyId : Digest) : Bytes :=
  receiptSigningDomain ++ (putU16 worldReceiptSchemaV1 ++ (putU16 ed25519SignatureAlgorithmV1 ++
    (putU32 (UInt32.ofNat body.length) ++ (keyId.bytes ++ body))))

end Ostadix.Receipt
