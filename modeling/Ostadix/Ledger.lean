import Ostadix.Basic
import Ostadix.Identity
import Ostadix.SortBy
import Mathlib.Data.Prod.Lex

/-! The attempt ledger of a Fabric provider: its entries, their checks and the mutations. -/

namespace Ostadix.Ledger

open Wire

def maxEntries : ℕ := 128

def maxReasonCodeBytes : ℕ := 64

def maxReasonMessageBytes : ℕ := 1024

def maxFabricHeaderBytes : ℕ := 48 * 1024

def maxExecutionCandidateBytes : ℕ := 16 * 1024

abbrev Result (α : Type) := Except String α

/-! ## Bindings -/

structure Sha256Digest where
  bytes : Bytes
  length_eq : bytes.length = 32
  deriving DecidableEq

def Sha256Digest.isZero (digest : Sha256Digest) : Bool := digest.bytes.all (· == 0)

def isLowerHexByte (b : UInt8) : Bool := isAsciiDigit b || (97 ≤ b && b ≤ 102)

def fromSha256 (value : String) : Result Unit :=
  ensure ((utf8 value).length = 64 ∧ (utf8 value).all isLowerHexByte) "semantic digest"

/-- A digest in the form of lowercase hexadecimal text. -/
abbrev SemanticDigest := Checked fromSha256

abbrev NonZero := { n : UInt64 // n ≠ 0 }

structure LogicalTaskId where
  (execution semanticSha256 : Sha256Digest)
  deriving DecidableEq

structure AttemptId where
  task : LogicalTaskId
  generation : UInt64
  deriving DecidableEq

def requireNonzeroDigest (label : String) (digest : Sha256Digest) : Result Unit :=
  ensure (digest.isZero = false)
    ("invalid execution-fabric record: " ++ label ++ " must not be the all-zero digest")

def AttemptId.validate (attempt : AttemptId) : Result Unit := do
  requireNonzeroDigest "execution identity" attempt.task.execution
  requireNonzeroDigest "logical task semantic identity" attempt.task.semanticSha256
  ensure (attempt.generation ≠ 0)
    "invalid execution-fabric record: attempt generation must be nonzero"

/-- The replay keys and the execution binding of an attempt. -/
structure AttemptBinding where
  issuerKeyId : SemanticDigest
  attempt : AttemptId
  (leaseNonce tlsClientPrincipalSha256 : SemanticDigest)
  (submissionBindingSha256 capsuleSha256 sourceClosureSha256 : Sha256Digest)
  nodeId : String
  (nodeGeneration executionCellIncarnation : NonZero)
  deriving DecidableEq

def isNodeIdByte (b : UInt8) : Bool :=
  isAsciiLowercase b || isAsciiUppercase b || isAsciiDigit b || b = 46 || b = 95 || b = 45 ||
    b = 58 || b = 47

def requireLedgerDigest (field : String) (digest : Sha256Digest) : Result Unit :=
  ensure (digest.isZero = false) ("Fabric ledger " ++ field ++ " digest must not be all-zero")

namespace AttemptBinding

def validate (binding : AttemptBinding) : Result Unit := do
  binding.attempt.validate.mapError ("invalid Fabric ledger attempt: " ++ ·)
  requireLedgerDigest "submission binding" binding.submissionBindingSha256
  requireLedgerDigest "capsule" binding.capsuleSha256
  requireLedgerDigest "source closure" binding.sourceClosureSha256
  ensure (utf8 binding.nodeId ≠ [] ∧ (utf8 binding.nodeId).length ≤ 128 ∧
      (utf8 binding.nodeId).all isNodeIdByte)
    "Fabric ledger node identity is not a bounded ASCII token"

def key (binding : AttemptBinding) : List ℕ ×ₗ List ℕ ×ₗ List ℕ ×ₗ ℕ ×ₗ List ℕ :=
  toLex ((utf8 binding.issuerKeyId.value).map UInt8.toNat,
    toLex (binding.attempt.task.execution.bytes.map UInt8.toNat,
      toLex (binding.attempt.task.semanticSha256.bytes.map UInt8.toNat,
        toLex (binding.attempt.generation.toNat,
          (utf8 binding.leaseNonce.value).map UInt8.toNat))))

def sameNonce (a b : AttemptBinding) : Bool :=
  a.issuerKeyId = b.issuerKeyId && a.leaseNonce = b.leaseNonce

def sameAttempt (a b : AttemptBinding) : Bool :=
  a.issuerKeyId = b.issuerKeyId && a.attempt = b.attempt

end AttemptBinding

abbrev ValidBinding := Checked AttemptBinding.validate

/-! ## Terminal candidates -/

structure StoredTerminal where
  (headerBytes candidateBytes : Bytes)
  terminalSha256 : Sha256Digest
  deriving DecidableEq

/-- What the receipt of a terminal candidate says about its attempt. -/
structure ReceiptBinding where
  issuerKeyId : SemanticDigest
  attempt : AttemptId
  leaseNonce : SemanticDigest
  (submissionBindingSha256 capsuleSha256 sourceClosureSha256 : Sha256Digest)
  nodeId : String
  (nodeGeneration executionCellIncarnation : NonZero)
  deriving DecidableEq

/-- What the ledger takes of the Fabric protocol: checks, a codec and a digest. -/
structure Protocol where
  TerminalCandidate : Type
  receipt : TerminalCandidate → ReceiptBinding
  validate : TerminalCandidate → Result Unit
  encodeResponse : TerminalCandidate → Result (Bytes × Bytes)
  decodeResponse : Bytes → Bytes → Result TerminalCandidate
  terminalPartsSha256 : Bytes → Bytes → Sha256Digest

variable (protocol : Protocol)

namespace StoredTerminal

def newExact (headerBytes candidateBytes : Bytes) : Result StoredTerminal := do
  ensure (headerBytes ≠ [] ∧ headerBytes.length ≤ maxFabricHeaderBytes)
    "Fabric ledger terminal header is outside protocol bounds"
  ensure (candidateBytes ≠ [] ∧ candidateBytes.length ≤ maxExecutionCandidateBytes)
    "Fabric ledger candidate payload is outside protocol bounds"
  return ⟨headerBytes, candidateBytes, protocol.terminalPartsSha256 headerBytes candidateBytes⟩

def fromCandidate (candidate : protocol.TerminalCandidate) : Result StoredTerminal := do
  (protocol.validate candidate).mapError ("invalid Fabric terminal candidate: " ++ ·)
  let (headerBytes, candidateBytes) ←
    (protocol.encodeResponse candidate).mapError ("cannot encode Fabric terminal candidate: " ++ ·)
  newExact protocol headerBytes candidateBytes

def decodeTerminalCandidate (terminal : StoredTerminal) : Result protocol.TerminalCandidate :=
  (protocol.decodeResponse terminal.headerBytes terminal.candidateBytes).mapError
    ("stored Fabric terminal is invalid: " ++ ·)

def validate (terminal : StoredTerminal) : Result Unit := do
  let expected ← newExact protocol terminal.headerBytes terminal.candidateBytes
  ensure (expected.terminalSha256 = terminal.terminalSha256)
    "Fabric ledger terminal byte digest mismatch"
  discard (terminal.decodeTerminalCandidate protocol)

end StoredTerminal

def validateTerminalBinding (binding : AttemptBinding) (candidate : protocol.TerminalCandidate) :
    Result Unit :=
  ensure (protocol.receipt candidate =
      { issuerKeyId := binding.issuerKeyId
        attempt := binding.attempt
        leaseNonce := binding.leaseNonce
        submissionBindingSha256 := binding.submissionBindingSha256
        capsuleSha256 := binding.capsuleSha256
        sourceClosureSha256 := binding.sourceClosureSha256
        nodeId := binding.nodeId
        nodeGeneration := binding.nodeGeneration
        executionCellIncarnation := binding.executionCellIncarnation })
    "Fabric terminal candidate does not match its durable attempt binding"

/-! ## Entries -/

inductive LedgerState where
  | received | validated | accepted | running | terminalCandidate | rejected | abandoned
  deriving DecidableEq, Repr

namespace LedgerState

def isIncomplete : LedgerState → Bool
  | received | validated | accepted | running => true
  | terminalCandidate | rejected | abandoned => false

def name : LedgerState → String
  | received => "Received"
  | validated => "Validated"
  | accepted => "Accepted"
  | running => "Running"
  | terminalCandidate => "TerminalCandidate"
  | rejected => "Rejected"
  | abandoned => "Abandoned"

end LedgerState

def entrySchema : String := "ostadix.fabric-attempt-ledger-entry/v1"

def isReasonByte (b : UInt8) : Bool := isAsciiLowercase b || isAsciiDigit b || b = 45

def isControl (c : Char) : Bool := c.toNat < 32 || (127 ≤ c.toNat && c.toNat < 160)

def validateReason (code message : String) : Result Unit := do
  ensure (utf8 code ≠ [] ∧ (utf8 code).length ≤ maxReasonCodeBytes ∧ (utf8 code).all isReasonByte)
    "Fabric ledger reason code is invalid"
  ensure (utf8 message ≠ [] ∧ (utf8 message).length ≤ maxReasonMessageBytes ∧
      message.toList.all fun c => !isControl c)
    "Fabric ledger reason message is invalid"

structure Entry where
  schema : String := entrySchema
  binding : AttemptBinding
  state : LedgerState
  transitionSequence : UInt64 := 1
  terminal : Option StoredTerminal := none
  reasonCode : Option String := none
  reasonMessage : Option String := none
  deriving DecidableEq

namespace Entry

def setState (entry : Entry) (state : LedgerState) : Result Entry := do
  ensure (entry.transitionSequence.toNat + 1 < 2 ^ 64)
    "Fabric ledger transition sequence overflow"
  return { entry with
    state
    transitionSequence := entry.transitionSequence + 1
    terminal := none
    reasonCode := none
    reasonMessage := none }

def setReason (entry : Entry) (state : LedgerState) (code message : String) : Result Entry := do
  validateReason code message
  let entry ← entry.setState state
  return { entry with reasonCode := some code, reasonMessage := some message }

def setTerminal (entry : Entry) (terminal : StoredTerminal) : Result Entry := do
  let entry ← entry.setState .terminalCandidate
  return { entry with terminal := some terminal }

def present {α : Type} (message : String) : Option α → Result α
  | some value => .ok value
  | none => .error message

/-- The checks on what an entry carries in its state. -/
def validateMaterial (entry : Entry) : Result Unit :=
  match entry.state with
  | .terminalCandidate => do
    let terminal ← present "terminal Fabric ledger entry omitted exact response bytes"
      entry.terminal
    terminal.validate protocol
    let candidate ← terminal.decodeTerminalCandidate protocol
    validateTerminalBinding protocol entry.binding candidate
    ensure (entry.reasonCode = none ∧ entry.reasonMessage = none)
      "terminal candidate ledger entry unexpectedly carries a reason"
  | .rejected | .abandoned => do
    ensure (entry.terminal = none) "reason terminal Fabric ledger entry carries candidate bytes"
    let code ← present "terminal ledger reason code is absent" entry.reasonCode
    let message ← present "terminal ledger reason message is absent" entry.reasonMessage
    validateReason code message
  | _ =>
    ensure (entry.terminal = none ∧ entry.reasonCode = none ∧ entry.reasonMessage = none)
      "nonterminal Fabric ledger entry carries terminal material"

def validate (entry : Entry) : Result Unit := do
  ensure (entry.schema = entrySchema) "unsupported Fabric ledger entry schema"
  entry.binding.validate
  ensure (entry.transitionSequence ≠ 0) "Fabric ledger transition sequence must be nonzero"
  entry.validateMaterial protocol

end Entry

/-! ## Bodies -/

structure Body where
  executionCellIncarnation : NonZero
  entries : List Entry
  deriving DecidableEq

def checkIncarnation (incarnation : NonZero) (entry : Entry) : Result Unit :=
  ensure (entry.binding.executionCellIncarnation.val ≤ incarnation.val)
    "Fabric ledger entry belongs to a future execution-cell incarnation"

def checkOrder : List Entry → Result Unit
  | left :: right :: entries => do
    ensure (left.binding.key < right.binding.key)
      "Fabric ledger entries are duplicated or not in canonical key order"
    checkOrder (right :: entries)
  | _ => .ok ()

def checkReplay (left right : Entry) : Result Unit := do
  ensure (left.binding.sameNonce right.binding = false)
    "Fabric ledger contains a reused issuer-scoped nonce"
  ensure (left.binding.sameAttempt right.binding = false)
    "Fabric ledger contains a rebound issuer-scoped attempt"

def checkReplays : List Entry → Result Unit
  | [] => .ok ()
  | left :: entries => do
    entries.forM (checkReplay left)
    checkReplays entries

def validateBody (body : Body) : Result Unit := do
  ensure (body.entries.length ≤ maxEntries)
    "Fabric attempt-ledger snapshot exceeds its V1 entry bound"
  body.entries.forM fun entry => do
    entry.validate protocol
    checkIncarnation body.executionCellIncarnation entry
  checkOrder body.entries
  checkReplays body.entries

/-! ## Lookup -/

inductive ConflictKind where
  | nonceReused | attemptRebound
  deriving DecidableEq, Repr

def ConflictKind.message : ConflictKind → String
  | .nonceReused => "Fabric lease nonce is already consumed by a different attempt or binding"
  | .attemptRebound => "Fabric attempt coordinate is already bound to a different nonce or command"

inductive BindingLookup where
  | exact (index : ℕ)
  | conflict (kind : ConflictKind) (existing : AttemptBinding)
  | unknown

def locateBinding (requested : AttemptBinding) : List Entry → BindingLookup
  | [] => .unknown
  | entry :: entries =>
    if entry.binding = requested then .exact 0
    else if entry.binding.sameNonce requested then .conflict .nonceReused entry.binding
    else if entry.binding.sameAttempt requested then .conflict .attemptRebound entry.binding
    else
      match locateBinding requested entries with
      | .exact index => .exact (index + 1)
      | lookup => lookup

def requireCurrentIncarnation (current : NonZero) (binding : AttemptBinding) : Result Unit :=
  ensure (binding.executionCellIncarnation = current)
    ("Fabric attempt targets execution-cell incarnation " ++
      toString binding.executionCellIncarnation.val ++
      ", but the durable provider is incarnation " ++ toString current.val)

/-! ## Mutations -/

/-- What a call returns: the entry, and whether it was applied or may be executed. -/
inductive Reply where
  | applied (entry : Entry)
  | duplicate (entry : Entry)
  | acceptance (entry : Entry) (mayExecute : Bool)
  deriving DecidableEq

inductive Mutation where
  | changed (reply : Reply) (next : Body)
  | unchanged (reply : Reply)

/-- Look a binding up and treat the entry that has it, or a binding that is not known. -/
def atBinding (body : Body) (binding : AttemptBinding) (found : ℕ → Entry → Result Mutation)
    (unknown : Result Mutation) : Result Mutation :=
  match locateBinding binding body.entries with
  | .exact index =>
    match body.entries[index]? with
    | some entry => found index entry
    | none => .error "index out of bounds"
  | .conflict kind _ => .error kind.message
  | .unknown => unknown

def Body.replace (body : Body) (index : ℕ) (entry : Entry) : Body :=
  { body with entries := body.entries.set index entry }

def insertNew (body : Body) (entry : Entry) : Result Mutation := do
  requireCurrentIncarnation body.executionCellIncarnation entry.binding
  ensure (body.entries.length < maxEntries) "Fabric attempt ledger reached its V1 entry bound"
  let entries := sortBy (fun entry => entry.binding.key) (body.entries ++ [entry])
  return .changed (.applied entry) { body with entries }

variable (binding : ValidBinding)

def recordReceived (body : Body) : Result Mutation :=
  atBinding body binding.value (fun _ entry => .ok (.unchanged (.duplicate entry)))
    (insertNew body { binding := binding.value, state := .received })

/-- A transition of a known entry, if it has one from its state. -/
def transitionExact (transition : Entry → Result (Option Entry)) (body : Body) : Result Mutation :=
  atBinding body binding.value
    (fun index entry => do
      match ← transition entry with
      | some next => return .changed (.applied next) (body.replace index next)
      | none => return .unchanged (.duplicate entry))
    (.error "Fabric attempt is unknown to the durable ledger")

def recordValidated : Body → Result Mutation :=
  transitionExact binding fun entry =>
    match entry.state with
    | .received => some <$> entry.setState .validated
    | _ => .ok none

def consumeAndAccept (body : Body) : Result Mutation :=
  atBinding body binding.value
    (fun index entry =>
      match entry.state with
      | .validated => do
        requireCurrentIncarnation body.executionCellIncarnation binding.value
        let entry ← entry.setState .accepted
        return .changed (.acceptance entry true) (body.replace index entry)
      | _ => .ok (.unchanged (.acceptance entry false)))
    (.error "Fabric attempt must be durably Validated before acceptance")

def markRunning : Body → Result Mutation :=
  transitionExact binding fun entry =>
    match entry.state with
    | .accepted => some <$> entry.setState .running
    | .running | .terminalCandidate => .ok none
    | other => .error ("cannot mark Fabric attempt Running from " ++ other.name)

def recordTerminalCandidate (terminal : StoredTerminal) : Body → Result Mutation :=
  transitionExact binding fun entry =>
    match entry.state with
    | .running => some <$> entry.setTerminal terminal
    | .terminalCandidate => do
      ensure (entry.terminal = some terminal)
        "Fabric terminal candidate conflicts with durable terminal bytes"
      return none
    | other => .error ("cannot record Fabric terminal candidate from " ++ other.name)

inductive ReasonState where
  | rejected | abandoned
  deriving DecidableEq, Repr

def ReasonState.state : ReasonState → LedgerState
  | .rejected => .rejected
  | .abandoned => .abandoned

def newWithReason (binding : AttemptBinding) (state : ReasonState) (code message : String) :
    Entry :=
  { binding, state := state.state, reasonCode := some code, reasonMessage := some message }

def recordReasonTerminal (state : ReasonState) (code message : String) (body : Body) :
    Result Mutation :=
  atBinding body binding.value
    (fun index entry =>
      if entry.state = state.state then do
        ensure (entry.reasonCode = some code ∧ entry.reasonMessage = some message)
          "Fabric terminal reason conflicts with durable terminal state"
        return .unchanged (.duplicate entry)
      else do
        ensure (entry.state.isIncomplete = true) "cannot replace an existing Fabric terminal state"
        let entry ← entry.setReason state.state code message
        return .changed (.applied entry) (body.replace index entry))
    (insertNew body (newWithReason binding.value state code message))

def recordPreacceptRejected (code message : String) (body : Body) : Result Mutation :=
  atBinding body binding.value
    (fun index entry =>
      match entry.state with
      | .received | .validated => do
        let entry ← entry.setReason .rejected code message
        return .changed (.applied entry) (body.replace index entry)
      | _ => .ok (.unchanged (.duplicate entry)))
    (insertNew body (newWithReason binding.value .rejected code message))

inductive Call where
  | recordReceived (binding : ValidBinding)
  | recordValidated (binding : ValidBinding)
  | consumeAndAccept (binding : ValidBinding)
  | markRunning (binding : ValidBinding)
  | recordTerminalCandidate (binding : ValidBinding) (candidate : protocol.TerminalCandidate)
  | recordRejected (binding : ValidBinding) (code message : String)
  | recordPreacceptRejected (binding : ValidBinding) (code message : String)
  | recordAbandoned (binding : ValidBinding) (code message : String)

/-- The mutation of a call, after the checks it makes before it takes the lock. -/
def Call.mutation : Call protocol → Result (Body → Result Mutation)
  | .recordReceived binding => .ok (Ledger.recordReceived binding)
  | .recordValidated binding => .ok (Ledger.recordValidated binding)
  | .consumeAndAccept binding => .ok (Ledger.consumeAndAccept binding)
  | .markRunning binding => .ok (Ledger.markRunning binding)
  | .recordTerminalCandidate binding candidate => do
    let terminal ← StoredTerminal.fromCandidate protocol candidate
    validateTerminalBinding protocol binding.value candidate
    return Ledger.recordTerminalCandidate binding terminal
  | .recordRejected binding code message => do
    validateReason code message
    return recordReasonTerminal binding .rejected code message
  | .recordPreacceptRejected binding code message => do
    validateReason code message
    return Ledger.recordPreacceptRejected binding code message
  | .recordAbandoned binding code message => do
    validateReason code message
    return recordReasonTerminal binding .abandoned code message

/-! ## Opening -/

def abandonIncomplete (entry : Entry) : Result Entry :=
  if entry.state.isIncomplete then
    entry.setReason .abandoned "provider-restarted"
      "incomplete attempt belongs to an older execution-cell incarnation"
  else
    .ok entry

def reopen : Option Body → Result Body
  | none => .ok ⟨⟨1, by decide⟩, []⟩
  | some body => do
    let next := body.executionCellIncarnation.val + 1
    if h : body.executionCellIncarnation.val.toNat + 1 < 2 ^ 64 ∧ next ≠ 0 then
      return ⟨⟨next, h.2⟩, ← body.entries.mapM abandonIncomplete⟩
    else
      .error "Fabric execution-cell incarnation overflow"

end Ostadix.Ledger
