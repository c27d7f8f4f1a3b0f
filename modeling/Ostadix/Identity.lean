import Ostadix.Wire

/-! Generation-bound identities of governed Worlds, each with the proof that it was accepted. -/

namespace Ostadix

open Wire

def maxSimpleIdBytes : ℕ := 128

def maxResourceIdBytes : ℕ := 256

inductive WorldIdentityError where
  | emptyIdentifier (kind : String)
  | identifierTooLong (kind : String) (limit : ℕ)
  | invalidIdentifier (kind value : String)
  | zeroGeneration (kind : String)
  | invalidArtifactDigest
  deriving DecidableEq, Repr

def WorldIdentityError.message : WorldIdentityError → String
  | .emptyIdentifier kind => s!"{kind} must not be empty"
  | .identifierTooLong kind limit => s!"{kind} exceeds the {limit}-byte limit"
  | .invalidIdentifier kind value =>
    kind ++ " `" ++ value ++ "` contains an unsupported character or path component"
  | .zeroGeneration kind => s!"{kind} must be nonzero"
  | .invalidArtifactDigest =>
    "artifact identity must be exactly 64 lowercase hexadecimal SHA-256 characters"

def isAsciiDigit (b : UInt8) : Bool := 48 ≤ b && b ≤ 57

def isAsciiLowercase (b : UInt8) : Bool := 97 ≤ b && b ≤ 122

def isAsciiUppercase (b : UInt8) : Bool := 65 ≤ b && b ≤ 90

def isComponentByte (b : UInt8) : Bool :=
  isAsciiLowercase b || isAsciiUppercase b || isAsciiDigit b || b = 46 || b = 95 || b = 45 || b = 43

def validateComponent (kind value : String) : Except WorldIdentityError Unit := do
  ensure (utf8 value ≠ []) (.emptyIdentifier kind)
  ensure ((utf8 value).length ≤ maxSimpleIdBytes) (.identifierTooLong kind maxSimpleIdBytes)
  ensure (value ≠ "." ∧ value ≠ ".." ∧ (utf8 value).all isComponentByte)
    (.invalidIdentifier kind value)

def resourceKind : String := "resource identity"

def validateResourcePath (value : String) : Except WorldIdentityError Unit := do
  ensure (utf8 value ≠ []) (.emptyIdentifier resourceKind)
  ensure ((utf8 value).length ≤ maxResourceIdBytes)
    (.identifierTooLong resourceKind maxResourceIdBytes)
  ensure (value.toList.head? ≠ some '/' ∧ value.toList.getLast? ≠ some '/' ∧
      ∀ component ∈ Text.split '/' value, component ≠ "" ∧ component ≠ "." ∧ component ≠ ".." ∧
        (validateComponent resourceKind component).isOk)
    (.invalidIdentifier resourceKind value)

/-! ## Identifiers and generations -/

abbrev Component (kind : String) := Checked (validateComponent kind)

lemma Component.length_le {kind : String} (c : Component kind) : (utf8 c.value).length ≤ 128 := by
  have hvalid := c.valid
  simp only [validateComponent, bind_eq_ok, ensure_eq_ok] at hvalid
  obtain ⟨-, -, -, hlen, -⟩ := hvalid
  exact hlen

abbrev WorldId := Component "world identity"
abbrev ProcessId := Component "process identity"
abbrev WorldNodeId := Component "node identity"
abbrev DomainId := Component "domain identity"
abbrev ObjectId := Component "object identity"
abbrev CapabilityId := Component "capability identity"
abbrev LeaseId := Component "lease identity"
abbrev TaskId := Component "task identity"
abbrev CheckpointId := Component "checkpoint identity"
abbrev ReceiptId := Component "receipt identity"

def validateGeneration (kind : String) (value : UInt64) : Except WorldIdentityError Unit :=
  ensure (value ≠ 0) (.zeroGeneration kind)

abbrev Generation (kind : String) := Checked (validateGeneration kind)

abbrev WorldEpoch := Generation "world epoch"
abbrev GovernorTerm := Generation "governor term"
abbrev GovernorLogIndex := Generation "governor log index"
abbrev NodeGeneration := Generation "node generation"
abbrev DomainGeneration := Generation "domain generation"
abbrev ProcessGeneration := Generation "process generation"
abbrev ResourceGeneration := Generation "resource generation"
abbrev ObjectVersion := Generation "object version"
abbrev AttemptGeneration := Generation "attempt generation"

/-- A relative resource name such as `cpu/slot-0`. -/
abbrev ResourceId := Checked validateResourcePath

lemma ResourceId.length_le (r : ResourceId) : (utf8 r.value).length ≤ 256 := by
  have hvalid := r.valid
  simp only [validateResourcePath, bind_eq_ok, ensure_eq_ok] at hvalid
  obtain ⟨-, -, -, hlen, -⟩ := hvalid
  exact hlen

def sha256HexBytes : ℕ := 64

def validateArtifactDigest (value : String) : Except WorldIdentityError Unit :=
  ensure ((utf8 value).length = sha256HexBytes ∧
    (utf8 value).all fun b => isAsciiDigit b || (97 ≤ b && b ≤ 102)) .invalidArtifactDigest

abbrev ArtifactId := Checked validateArtifactDigest

/-! ## Identities -/

structure WorldIdentity where
  world : WorldId
  epoch : WorldEpoch
  deriving DecidableEq

structure GovernorIdentity where
  world : WorldIdentity
  term : GovernorTerm
  logIndex : GovernorLogIndex
  deriving DecidableEq

structure NodeIdentity where
  world : WorldId
  node : WorldNodeId
  generation : NodeGeneration
  deriving DecidableEq

structure DomainIdentity where
  node : NodeIdentity
  domain : DomainId
  generation : DomainGeneration
  deriving DecidableEq

structure ProcessIdentity where
  domain : DomainIdentity
  process : ProcessId
  generation : ProcessGeneration
  deriving DecidableEq

inductive ResourceOwner where
  | world (world : WorldIdentity)
  | node (node : NodeIdentity)
  | domain (domain : DomainIdentity)
  | process (process : ProcessIdentity)
  deriving DecidableEq

def ResourceOwner.worldId : ResourceOwner → WorldId
  | .world owner => owner.world
  | .node owner => owner.world
  | .domain owner => owner.node.world
  | .process owner => owner.domain.node.world

structure ResourceIdentity where
  owner : ResourceOwner
  resource : ResourceId
  generation : ResourceGeneration
  deriving DecidableEq

structure ObjectIdentity where
  world : WorldId
  object : ObjectId
  version : ObjectVersion
  deriving DecidableEq

structure CapabilityIdentity where
  world : WorldId
  capability : CapabilityId
  deriving DecidableEq

structure LeaseIdentity where
  world : WorldId
  lease : LeaseId
  deriving DecidableEq

structure TaskIdentity where
  world : WorldId
  task : TaskId
  deriving DecidableEq

structure AttemptIdentity where
  world : WorldId
  task : TaskId
  attempt : AttemptGeneration
  deriving DecidableEq

abbrev TaskAttemptIdentity := AttemptIdentity

structure CheckpointIdentity where
  attempt : AttemptIdentity
  checkpoint : CheckpointId
  deriving DecidableEq

structure ReceiptIdentity where
  world : WorldId
  receipt : ReceiptId
  deriving DecidableEq

structure ArtifactPublicationIdentity where
  world : WorldIdentity
  artifact : ArtifactId
  deriving DecidableEq

end Ostadix
