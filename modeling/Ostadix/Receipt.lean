import Ostadix.Hex
import Ostadix.SortBy
import Ostadix.ValueCodec
import Mathlib.Data.Prod.Lex

/-! Execution receipts: facts about one execution, in a canonical arrangement. -/

namespace Ostadix.Receipt

open Wire

def maxReceiptComponents : ℕ := 8

def maxReceiptCapabilities : ℕ := 16

def maxReceiptRights : ℕ := 16

def maxReceiptObjects : ℕ := 16

def maxReceiptCapsules : ℕ := 8

def maxReceiptEffects : ℕ := 16

def maxReceiptRejections : ℕ := 16

def maxReceiptCheckpoints : ℕ := 16

def maxReceiptIdentifierBytes : ℕ := 96

inductive ReceiptError where
  | identity (error : WorldIdentityError)
  | identityWire (error : IdentityWireError)
  | portableValue (error : PortableValueError)
  | invalidField (field reason : String)
  | limit (kind : String) (actual maximum : ℕ)
  | nonCanonicalOrder (kind : String)
  | commitFenceMismatch
  | malformed (reason : String)
  | recordTooLarge (actual maximum : ℕ)

abbrev Check := Except ReceiptError

/-- One of the bytes `.`, `_`, `-`, `/`, `+`, which an identifier may hold after its first byte. -/
def isIdentifierMark (byte : UInt8) : Bool :=
  byte = 46 || byte = 95 || byte = 45 || byte = 47 || byte = 43

def isIdentifier (bytes : Bytes) : Bool :=
  bytes.zipIdx.all fun (byte, index) =>
    isAsciiLowercase byte || isAsciiDigit byte || (index ≠ 0 && isIdentifierMark byte)

def validateIdentifier (field value : String) : Check Unit :=
  ensure (utf8 value ≠ [] ∧ (utf8 value).length ≤ maxReceiptIdentifierBytes ∧
    isIdentifier (utf8 value)) (.invalidField field "must be a bounded lowercase identifier")

def validateDigest (field : String) (digest : ArtifactId) : Check Unit :=
  ensure (¬ (utf8 digest.value).all (· = 48))
    (.invalidField field "all-zero SHA-256 is reserved")

def identityKey (record : IdentityWireRecord) : Check Bytes :=
  record.encode.mapError .identityWire

def enforceLimit (kind : String) (actual maximum : ℕ) : Check Unit :=
  ensure (actual ≤ maximum) (.limit kind actual maximum)

def rejectAdjacentDuplicates {α : Type} (entries : List α) (kind : String)
    (same : α → α → Bool) : Check Unit :=
  ensure (anyAdjacent same entries = false) (.nonCanonicalOrder kind)

/-- The order of the entries of two keys; entries without a key are not moved. -/
def keyLe : Check Bytes → Check Bytes → Prop
  | .ok left, .ok right => byteOrder left ≤ byteOrder right
  | _, _ => True

instance : DecidableRel keyLe
  | .ok left, .ok right => inferInstanceAs (Decidable (byteOrder left ≤ byteOrder right))
  | .ok _, .error _ => .isTrue trivial
  | .error _, .ok _ => .isTrue trivial
  | .error _, .error _ => .isTrue trivial

def sortIdentityEntries {α : Type} (key : α → Check Bytes) (entries : List α) :
    Check (List α) := do
  let keyed ← entries.mapM key
  let keyed := sortBy byteOrder keyed
  ensure (anyAdjacent (fun a b => a = b) keyed = false) (.nonCanonicalOrder "identity observation")
  return entries.insertionSort fun a b => keyLe (key a) (key b)

/-! ## Observations -/

abbrev ReceiptRight := Checked (validateIdentifier "capability right")

inductive ComponentKind where
  | project | liveSystem | kernelWorld
  deriving DecidableEq, Repr

def ComponentKind.toU8 : ComponentKind → UInt8
  | .project => 1
  | .liveSystem => 2
  | .kernelWorld => 3

def ComponentKind.fromU8 : UInt8 → Check ComponentKind
  | 1 => .ok .project
  | 2 => .ok .liveSystem
  | 3 => .ok .kernelWorld
  | _ => .error (.malformed "unknown component kind")

structure ComponentFields where
  kind : ComponentKind
  identity : String
  generation : UInt64
  digest : ArtifactId
  deriving DecidableEq

def ComponentFields.check (component : ComponentFields) : Check Unit := do
  validateIdentifier "component identity" component.identity
  validateDigest "component digest" component.digest
  ensure (component.kind = .project ∨ component.generation ≠ 0)
    (.invalidField "component generation"
      "live-system and KernelWorld generations must be nonzero")

/-- A project, live system or kernel World that is bound by a digest. -/
abbrev ComponentObservation := Checked ComponentFields.check

def componentKey (component : ComponentObservation) : ℕ ×ₗ List ℕ ×ₗ ℕ :=
  toLex (component.value.kind.toU8.toNat, toLex (textOrder component.value.identity,
    component.value.generation.toNat))

structure SubjectFields where
  (source bundle package logicalHgraph effects : Option ArtifactId)
  deriving DecidableEq

def SubjectFields.digests (subject : SubjectFields) : List (Option ArtifactId) :=
  [subject.source, subject.bundle, subject.package, subject.logicalHgraph, subject.effects]

def SubjectFields.check (subject : SubjectFields) : Check Unit := do
  ensure (∃ digest ∈ subject.digests, digest ≠ none)
    (.invalidField "subject" "at least one content digest is required")
  (["source digest", "bundle digest", "package digest", "logical HGraph digest",
    "effects digest"].zip subject.digests).forM fun (field, digest) =>
      digest.toList.forM (validateDigest field)

abbrev ReceiptSubject := Checked SubjectFields.check

structure RejectionFields where
  node : NodeIdentity
  reason : String
  deriving DecidableEq

def RejectionFields.check (rejection : RejectionFields) : Check Unit :=
  validateIdentifier "placement rejection reason" rejection.reason

abbrev PlacementRejection := Checked RejectionFields.check

def rejectionKey (rejection : PlacementRejection) : List ℕ ×ₗ List ℕ ×ₗ ℕ :=
  toLex (textOrder rejection.value.node.world.value,
    toLex (textOrder rejection.value.node.node.value,
      rejection.value.node.generation.value.toNat))

structure PlacementFields where
  node : NodeIdentity
  domain : DomainIdentity
  process : Option ProcessIdentity
  rejected : List PlacementRejection
  deriving DecidableEq

def PlacementFields.construct (placement : PlacementFields) : Check PlacementFields := do
  ensure (placement.domain.node = placement.node ∧
      ∀ process ∈ placement.process, process.domain = placement.domain)
    (.invalidField "placement" "domain/process must be nested beneath the selected node")
  enforceLimit "placement rejections" placement.rejected.length maxReceiptRejections
  let rejected := sortBy rejectionKey placement.rejected
  ensure (¬ (rejected.any (·.value.node = placement.node) ∨
      anyAdjacent (fun a b => a.value.node = b.value.node) rejected))
    (.nonCanonicalOrder "placement rejection")
  return { placement with rejected }

abbrev ReceiptPlacement := Constructed PlacementFields.construct

structure ContextFields where
  receipt : ReceiptIdentity
  world : WorldIdentity
  governor : GovernorIdentity
  attempt : AttemptIdentity
  placement : ReceiptPlacement

def ContextFields.check (context : ContextFields) : Check Unit :=
  ensure (context.receipt.world = context.world.world ∧ context.governor.world = context.world ∧
      context.attempt.world = context.world.world ∧
      context.placement.value.node.world = context.world.world)
    (.invalidField "context" "all identities must name the same exact World")

abbrev ReceiptContext := Checked ContextFields.check

structure CapabilityFields where
  capability : CapabilityIdentity
  rights : List ReceiptRight
  deriving DecidableEq

def CapabilityFields.construct (observation : CapabilityFields) : Check CapabilityFields := do
  ensure (observation.rights ≠ [] ∧ observation.rights.length ≤ maxReceiptRights)
    (.limit "capability rights" observation.rights.length maxReceiptRights)
  let rights := sortBy (fun right => textOrder right.value) observation.rights
  ensure (anyAdjacent (fun a b => a = b) rights = false) (.nonCanonicalOrder "capability right")
  return { observation with rights }

abbrev CapabilityObservation := Constructed CapabilityFields.construct

inductive ObjectRole where
  | input | output | replica | transfer
  deriving DecidableEq, Repr

def ObjectRole.toU8 : ObjectRole → UInt8
  | .input => 1
  | .output => 2
  | .replica => 3
  | .transfer => 4

def ObjectRole.fromU8 : UInt8 → Check ObjectRole
  | 1 => .ok .input
  | 2 => .ok .output
  | 3 => .ok .replica
  | 4 => .ok .transfer
  | _ => .error (.malformed "unknown object role")

structure ObjectFields where
  object : ObjectIdentity
  role : ObjectRole
  content : ArtifactId
  bytesLen : UInt64
  deriving DecidableEq

def ObjectFields.check (observation : ObjectFields) : Check Unit :=
  validateDigest "object content" observation.content

abbrev ObjectObservation := Checked ObjectFields.check

structure CapsuleFields where
  digest : ArtifactId
  evaluator : String
  affinity : NodeIdentity
  deriving DecidableEq

def CapsuleFields.check (capsule : CapsuleFields) : Check Unit := do
  validateDigest "capsule digest" capsule.digest
  validateIdentifier "capsule evaluator" capsule.evaluator

abbrev CapsuleObservation := Checked CapsuleFields.check

def capsuleKey (capsule : CapsuleObservation) : List ℕ ×ₗ List ℕ :=
  toLex (textOrder capsule.value.digest.value, textOrder capsule.value.evaluator)

structure EffectFields where
  resource : ResourceIdentity
  (before after : ArtifactId)
  deriving DecidableEq

def EffectFields.check (effect : EffectFields) : Check Unit := do
  validateDigest "effect before" effect.before
  validateDigest "effect after" effect.after

abbrev EffectObservation := Checked EffectFields.check

structure CheckpointFields where
  checkpoint : CheckpointIdentity
  state : ArtifactId
  recovered : Bool
  deriving DecidableEq

def CheckpointFields.check (observation : CheckpointFields) : Check Unit :=
  validateDigest "checkpoint state" observation.state

abbrev CheckpointObservation := Checked CheckpointFields.check

structure EvidenceFields where
  gate : String
  transcript : ArtifactId
  deriving DecidableEq

def EvidenceFields.check (evidence : EvidenceFields) : Check Unit := do
  validateIdentifier "evidence gate" evidence.gate
  validateDigest "evidence transcript" evidence.transcript

abbrev EvidenceObservation := Checked EvidenceFields.check

/-! ## Receipts -/

inductive ReceiptTerminal where
  | success (value : PortableValueRecord)
  | failure (code : String) (detailDigest : ArtifactId)
  | cancelled
  | deadlineExceeded
  | worldFailed
  | worldStopped

def validateFailure (code : String) (detailDigest : ArtifactId) : Check Unit := do
  validateIdentifier "terminal failure code" code
  validateDigest "terminal failure detail" detailDigest

def ReceiptTerminal.newFailure (code : String) (detailDigest : ArtifactId) :
    Check ReceiptTerminal := do
  validateFailure code detailDigest
  return .failure code detailDigest

def ReceiptTerminal.validate : ReceiptTerminal → Check Unit
  | .success value => value.validate.mapError .portableValue
  | .failure code detailDigest => validateFailure code detailDigest
  | .cancelled | .deadlineExceeded | .worldFailed | .worldStopped => .ok ()

inductive ReceiptCommitFence where
  | uncommitted
  | governed (fence : GovernorIdentity)
  deriving DecidableEq

def ReceiptCommitFence.validate (governor : GovernorIdentity) : ReceiptCommitFence → Check Unit
  | .uncommitted => .ok ()
  | .governed fence => ensure (fence = governor) .commitFenceMismatch

structure ReceiptFields where
  context : ReceiptContext
  subject : ReceiptSubject
  components : List ComponentObservation
  capabilities : List CapabilityObservation
  objects : List ObjectObservation
  capsules : List CapsuleObservation
  effects : List EffectObservation
  checkpoints : List CheckpointObservation
  terminal : ReceiptTerminal
  commit : ReceiptCommitFence
  evidence : Option EvidenceObservation

namespace ReceiptFields

def NamesWorld (r : ReceiptFields) (world : WorldId) : Prop :=
  (∀ entry ∈ r.capabilities, entry.value.capability.world = world) ∧
  (∀ entry ∈ r.objects, entry.value.object.world = world) ∧
  (∀ entry ∈ r.capsules, entry.value.affinity.world = world) ∧
  (∀ entry ∈ r.effects, entry.value.resource.owner.worldId = world) ∧
  (∀ entry ∈ r.checkpoints, entry.value.checkpoint.attempt.world = world) ∧
  (∀ entry ∈ r.context.value.placement.value.rejected, entry.value.node.world = world)

instance (r : ReceiptFields) (world : WorldId) : Decidable (r.NamesWorld world) :=
  inferInstanceAs (Decidable (_ ∧ _))

def enforceLimits (r : ReceiptFields) : Check Unit := do
  enforceLimit "components" r.components.length maxReceiptComponents
  enforceLimit "capability observations" r.capabilities.length maxReceiptCapabilities
  enforceLimit "object observations" r.objects.length maxReceiptObjects
  enforceLimit "capsule observations" r.capsules.length maxReceiptCapsules
  enforceLimit "effect observations" r.effects.length maxReceiptEffects
  enforceLimit "checkpoint observations" r.checkpoints.length maxReceiptCheckpoints

def construct (r : ReceiptFields) : Check ReceiptFields := do
  r.enforceLimits
  ensure (r.NamesWorld r.context.value.world.world)
    (.invalidField "observations" "every observation must name the receipt World")
  r.checkpoints.forM fun checkpoint =>
    ensure (checkpoint.value.checkpoint.attempt = r.context.value.attempt)
      (.invalidField "checkpoint" "checkpoint must belong to the receipt attempt")
  r.terminal.validate
  r.commit.validate r.context.value.governor
  let components := sortBy componentKey r.components
  rejectAdjacentDuplicates components "component" fun a b =>
    a.value.kind = b.value.kind && a.value.identity = b.value.identity &&
      a.value.generation = b.value.generation
  let capabilities ← sortIdentityEntries
    (fun entry => identityKey (.capability entry.value.capability)) r.capabilities
  let objects ← sortIdentityEntries (fun entry => identityKey (.object entry.value.object))
    r.objects
  let capsules := sortBy capsuleKey r.capsules
  rejectAdjacentDuplicates capsules "capsule" fun a b =>
    a.value.digest = b.value.digest && a.value.evaluator = b.value.evaluator
  let effects ← sortIdentityEntries
    (fun entry => identityKey (.resource entry.value.resource)) r.effects
  let checkpoints ← sortIdentityEntries
    (fun entry => identityKey (.checkpoint entry.value.checkpoint)) r.checkpoints
  return { r with components, capabilities, objects, capsules, effects, checkpoints }

end ReceiptFields

abbrev ExecutionReceipt := Constructed ReceiptFields.construct

/-- Everything a receipt is made of, before any constructor ran. -/
structure ReceiptParts where
  receipt : ReceiptIdentity
  world : WorldIdentity
  governor : GovernorIdentity
  attempt : AttemptIdentity
  node : NodeIdentity
  domain : DomainIdentity
  process : Option ProcessIdentity
  rejected : List PlacementRejection
  subject : ReceiptSubject
  components : List ComponentObservation
  capabilities : List CapabilityObservation
  objects : List ObjectObservation
  capsules : List CapsuleObservation
  effects : List EffectObservation
  checkpoints : List CheckpointObservation
  terminal : ReceiptTerminal
  commit : ReceiptCommitFence
  evidence : Option EvidenceObservation

def ReceiptParts.assemble (p : ReceiptParts) : Check ExecutionReceipt := do
  let placement ← Constructed.new PlacementFields.construct
    ⟨p.node, p.domain, p.process, p.rejected⟩
  let context ← Checked.new ContextFields.check
    ⟨p.receipt, p.world, p.governor, p.attempt, placement⟩
  Constructed.new ReceiptFields.construct ⟨context, p.subject, p.components, p.capabilities,
    p.objects, p.capsules, p.effects, p.checkpoints, p.terminal, p.commit, p.evidence⟩

end Ostadix.Receipt
