import Ostadix.Identity

/-! Identity-only binary records (`OWIDENT`): framed payloads of delimited texts and counters. -/

namespace Ostadix

open Wire Checked List

def identityWireMagic : Bytes := [79, 87, 73, 68, 69, 78, 84, 0]

def identityWireVersion : UInt16 := 1

def identityWireHeaderBytes : ℕ := 16

def maxIdentityWireRecordBytes : ℕ := 1024

inductive IdentityWireError where
  | recordTooLarge (actual max : ℕ)
  | truncated (needed remaining : ℕ)
  | badMagic
  | unsupportedVersion (found : UInt16)
  | unknownKind (found : UInt16)
  | lengthMismatch (declared actual : ℕ)
  | invalidUtf8
  | textTooLong
  | unknownResourceOwner (found : UInt16)
  | trailingBytes (remaining : ℕ)
  | invalidIdentity (error : WorldIdentityError)
  deriving DecidableEq, Repr

def IdentityWireError.message : IdentityWireError → String
  | .recordTooLarge actual max => s!"identity record is {actual} bytes; maximum is {max}"
  | .truncated needed remaining =>
    s!"identity record is truncated: need {needed} bytes, have {remaining}"
  | .badMagic => "identity record has invalid magic"
  | .unsupportedVersion found => s!"unsupported identity wire version {found}"
  | .unknownKind found => s!"unknown identity wire kind {found}"
  | .lengthMismatch declared actual =>
    s!"identity record length says {declared} bytes but input has {actual}"
  | .invalidUtf8 => "identity text is not valid UTF-8"
  | .textTooLong => "identity text exceeds the u16 wire length"
  | .unknownResourceOwner found => s!"unknown resource-owner tag {found}"
  | .trailingBytes remaining => s!"identity payload has {remaining} trailing bytes"
  | .invalidIdentity error => error.message

inductive IdentityWireKind where
  | world | governor | node | domain | process | resource | object | capability | lease | task
  | attempt | checkpoint | receipt
  deriving DecidableEq, Repr

def IdentityWireKind.toU16 : IdentityWireKind → UInt16
  | .world => 1
  | .governor => 2
  | .node => 3
  | .domain => 4
  | .process => 5
  | .resource => 6
  | .object => 7
  | .capability => 8
  | .lease => 9
  | .task => 10
  | .attempt => 11
  | .checkpoint => 12
  | .receipt => 13

def IdentityWireKind.fromU16 : UInt16 → Except IdentityWireError IdentityWireKind
  | 1 => .ok .world
  | 2 => .ok .governor
  | 3 => .ok .node
  | 4 => .ok .domain
  | 5 => .ok .process
  | 6 => .ok .resource
  | 7 => .ok .object
  | 8 => .ok .capability
  | 9 => .ok .lease
  | 10 => .ok .task
  | 11 => .ok .attempt
  | 12 => .ok .checkpoint
  | 13 => .ok .receipt
  | found => .error (.unknownKind found)

inductive IdentityWireRecord where
  | world (identity : WorldIdentity)
  | governor (identity : GovernorIdentity)
  | node (identity : NodeIdentity)
  | domain (identity : DomainIdentity)
  | process (identity : ProcessIdentity)
  | resource (identity : ResourceIdentity)
  | object (identity : ObjectIdentity)
  | capability (identity : CapabilityIdentity)
  | lease (identity : LeaseIdentity)
  | task (identity : TaskIdentity)
  | attempt (identity : AttemptIdentity)
  | checkpoint (identity : CheckpointIdentity)
  | receipt (identity : ReceiptIdentity)
  deriving DecidableEq

/-! ## Encoding -/

abbrev EncodeResult := Except IdentityWireError Bytes

def putText (value : String) : EncodeResult := do
  ensure ((utf8 value).length < 2 ^ 16) .textTooLong
  return putU16 (UInt16.ofNat (utf8 value).length) ++ utf8 value

def putId {kind : String} (id : Component kind) : EncodeResult := putText id.value

def putCounter {kind : String} (generation : Generation kind) : EncodeResult :=
  return putU64 generation.value

def encodeWorld (identity : WorldIdentity) : EncodeResult := do
  return (← putId identity.world) ++ (← putCounter identity.epoch)

def encodeGovernor (identity : GovernorIdentity) : EncodeResult := do
  return (← encodeWorld identity.world) ++
    ((← putCounter identity.term) ++ (← putCounter identity.logIndex))

def encodeNode (identity : NodeIdentity) : EncodeResult := do
  return (← putId identity.world) ++
    ((← putId identity.node) ++ (← putCounter identity.generation))

def encodeDomain (identity : DomainIdentity) : EncodeResult := do
  return (← encodeNode identity.node) ++
    ((← putId identity.domain) ++ (← putCounter identity.generation))

def encodeProcess (identity : ProcessIdentity) : EncodeResult := do
  return (← encodeDomain identity.domain) ++
    ((← putId identity.process) ++ (← putCounter identity.generation))

def encodeAttempt (identity : AttemptIdentity) : EncodeResult := do
  return (← putId identity.world) ++
    ((← putId identity.task) ++ (← putCounter identity.attempt))

def ResourceOwner.tag : ResourceOwner → UInt16
  | .world _ => 1
  | .node _ => 2
  | .domain _ => 3
  | .process _ => 4

def encodeOwnerBody : ResourceOwner → EncodeResult
  | .world world => encodeWorld world
  | .node node => encodeNode node
  | .domain domain => encodeDomain domain
  | .process process => encodeProcess process

def encodeOwner (owner : ResourceOwner) : EncodeResult := do
  return putU16 owner.tag ++ (← encodeOwnerBody owner)

def encodeResource (identity : ResourceIdentity) : EncodeResult := do
  return (← encodeOwner identity.owner) ++
    ((← putText identity.resource.value) ++ (← putCounter identity.generation))

def encodeObject (identity : ObjectIdentity) : EncodeResult := do
  return (← putId identity.world) ++
    ((← putId identity.object) ++ (← putCounter identity.version))

def encodeCheckpoint (identity : CheckpointIdentity) : EncodeResult := do
  return (← encodeAttempt identity.attempt) ++ (← putId identity.checkpoint)

/-- Two texts, the payload of the records that carry no counter. -/
def encodeNames {k k' : String} (world : Component k) (name : Component k') : EncodeResult := do
  return (← putId world) ++ (← putId name)

namespace IdentityWireRecord

def kind : IdentityWireRecord → IdentityWireKind
  | .world _ => .world
  | .governor _ => .governor
  | .node _ => .node
  | .domain _ => .domain
  | .process _ => .process
  | .resource _ => .resource
  | .object _ => .object
  | .capability _ => .capability
  | .lease _ => .lease
  | .task _ => .task
  | .attempt _ => .attempt
  | .checkpoint _ => .checkpoint
  | .receipt _ => .receipt

def encodePayload : IdentityWireRecord → EncodeResult
  | .world identity => encodeWorld identity
  | .governor identity => encodeGovernor identity
  | .node identity => encodeNode identity
  | .domain identity => encodeDomain identity
  | .process identity => encodeProcess identity
  | .resource identity => encodeResource identity
  | .object identity => encodeObject identity
  | .capability identity => encodeNames identity.world identity.capability
  | .lease identity => encodeNames identity.world identity.lease
  | .task identity => encodeNames identity.world identity.task
  | .attempt identity => encodeAttempt identity
  | .checkpoint identity => encodeCheckpoint identity
  | .receipt identity => encodeNames identity.world identity.receipt

def encode (record : IdentityWireRecord) : EncodeResult := do
  let payload ← record.encodePayload
  let total := identityWireHeaderBytes + payload.length
  ensure (total ≤ maxIdentityWireRecordBytes) (.recordTooLarge total maxIdentityWireRecordBytes)
  return frame identityWireMagic identityWireVersion record.kind.toU16 (UInt32.ofNat total) payload

end IdentityWireRecord

/-! ## Decoding -/

abbrev IdentityReader (α : Type) := Reader IdentityWireError α

def takeText : IdentityReader String := do
  let len ← takeU16 .truncated
  let bytes ← take .truncated len.toNat
  lift (decodeUtf8 .invalidUtf8 bytes)

def readSimple {α : Type} (constructor : String → Except WorldIdentityError α) :
    IdentityReader α := do
  let text ← takeText
  lift ((constructor text).mapError .invalidIdentity)

def readId (kind : String) : IdentityReader (Component kind) :=
  readSimple (Checked.new (validateComponent kind))

def readResource : IdentityReader ResourceId := readSimple (Checked.new validateResourcePath)

def readCounter (kind : String) : IdentityReader (Generation kind) := do
  let value ← takeU64 .truncated
  lift ((Checked.new (validateGeneration kind) value).mapError .invalidIdentity)

def decodeWorld : IdentityReader WorldIdentity := do
  let world ← readId _
  let epoch ← readCounter _
  return ⟨world, epoch⟩

def decodeGovernor : IdentityReader GovernorIdentity := do
  let world ← decodeWorld
  let term ← readCounter _
  let logIndex ← readCounter _
  return ⟨world, term, logIndex⟩

def decodeNode : IdentityReader NodeIdentity := do
  let world ← readId _
  let node ← readId _
  let generation ← readCounter _
  return ⟨world, node, generation⟩

def decodeDomain : IdentityReader DomainIdentity := do
  let node ← decodeNode
  let domain ← readId _
  let generation ← readCounter _
  return ⟨node, domain, generation⟩

def decodeProcess : IdentityReader ProcessIdentity := do
  let domain ← decodeDomain
  let process ← readId _
  let generation ← readCounter _
  return ⟨domain, process, generation⟩

def decodeAttempt : IdentityReader AttemptIdentity := do
  let world ← readId _
  let task ← readId _
  let attempt ← readCounter _
  return ⟨world, task, attempt⟩

def decodeOwnerBody : UInt16 → IdentityReader ResourceOwner
  | 1 => .world <$> decodeWorld
  | 2 => .node <$> decodeNode
  | 3 => .domain <$> decodeDomain
  | 4 => .process <$> decodeProcess
  | found => lift (.error (.unknownResourceOwner found))

def decodeOwner : IdentityReader ResourceOwner := do
  let tag ← takeU16 .truncated
  decodeOwnerBody tag

def decodeResource : IdentityReader ResourceIdentity := do
  let owner ← decodeOwner
  let resource ← readResource
  let generation ← readCounter _
  return ⟨owner, resource, generation⟩

def decodeObject : IdentityReader ObjectIdentity := do
  let world ← readId _
  let object ← readId _
  let version ← readCounter _
  return ⟨world, object, version⟩

def decodeCheckpoint : IdentityReader CheckpointIdentity := do
  let attempt ← decodeAttempt
  let checkpoint ← readId _
  return ⟨attempt, checkpoint⟩

def decodeNames (k k' : String) : IdentityReader (Component k × Component k') := do
  let world ← readId _
  let name ← readId _
  return (world, name)

namespace IdentityWireRecord

def decodePayload : IdentityWireKind → IdentityReader IdentityWireRecord
  | .world => .world <$> decodeWorld
  | .governor => .governor <$> decodeGovernor
  | .node => .node <$> decodeNode
  | .domain => .domain <$> decodeDomain
  | .process => .process <$> decodeProcess
  | .resource => .resource <$> decodeResource
  | .object => .object <$> decodeObject
  | .capability => (fun p => .capability ⟨p.1, p.2⟩) <$> decodeNames _ _
  | .lease => (fun p => .lease ⟨p.1, p.2⟩) <$> decodeNames _ _
  | .task => (fun p => .task ⟨p.1, p.2⟩) <$> decodeNames _ _
  | .attempt => .attempt <$> decodeAttempt
  | .checkpoint => .checkpoint <$> decodeCheckpoint
  | .receipt => (fun p => .receipt ⟨p.1, p.2⟩) <$> decodeNames _ _

def decode (record : Bytes) : Except IdentityWireError IdentityWireRecord := do
  ensure (record.length ≤ maxIdentityWireRecordBytes)
    (.recordTooLarge record.length maxIdentityWireRecordBytes)
  ensure (identityWireHeaderBytes ≤ record.length)
    (.truncated identityWireHeaderBytes record.length)
  ensure (record.take 8 = identityWireMagic) .badMagic
  ensure (u16At record 8 = identityWireVersion) (.unsupportedVersion (u16At record 8))
  let kind ← IdentityWireKind.fromU16 (u16At record 10)
  let declared := (u32At record 12).toNat
  ensure (declared ≤ maxIdentityWireRecordBytes)
    (.recordTooLarge declared maxIdentityWireRecordBytes)
  ensure (declared = record.length) (.lengthMismatch declared record.length)
  let (decoded, rest) ← decodePayload kind (record.drop identityWireHeaderBytes)
  ensure (rest = []) (.trailingBytes rest.length)
  return decoded

end IdentityWireRecord

/-! ## Every decoder accepts exactly what its encoder writes -/

lemma putText_eq_ok {value : String} {bs : Bytes} : putText value = .ok bs ↔
    (utf8 value).length < 2 ^ 16 ∧
      bs = putU16 (UInt16.ofNat (utf8 value).length) ++ utf8 value := by
  simp only [putText, bind_eq_ok, ensure_eq_ok]
  constructor
  · rintro ⟨-, hlen, h⟩
    exact ⟨hlen, (Except.ok.inj h).symm⟩
  · rintro ⟨hlen, rfl⟩
    exact ⟨(), hlen, rfl⟩

lemma decodes_text : Decodes takeText putText := by
  refine ((Reads.takeU16 _).bind fun len => (Reads.take _ len.toNat).bind fun bytes =>
    Reads.lift (decodeUtf8 IdentityWireError.invalidUtf8 bytes)).congr fun s bs => ?_
  rw [putText_eq_ok]
  constructor
  · rintro ⟨len, _, _, rfl, ⟨bytes, _, _, ⟨rfl, hlen⟩, ⟨htext, rfl⟩, rfl⟩, rfl⟩
    rw [decodeUtf8_eq_ok] at htext
    subst htext
    rw [hlen, UInt16.ofNat_toNat, append_nil]
    exact ⟨len.toNat_lt, rfl⟩
  · rintro ⟨hlen, rfl⟩
    refine ⟨_, _, _, rfl, ⟨utf8 s, utf8 s, [], ⟨rfl, ?_⟩, ⟨decodeUtf8_eq_ok.2 rfl, rfl⟩, ?_⟩, rfl⟩
    · rw [UInt16.toNat_ofNat_of_lt' hlen]
    · rw [append_nil]

lemma decodes_checked {check : String → Except WorldIdentityError Unit} :
    Decodes (readSimple (Checked.new check)) (fun c : Checked check => putText c.value) := by
  refine (decodes_text.bind fun text => Reads.lift _).congr fun c bs => ?_
  simp only [mapError_eq_ok, new_eq_ok]
  constructor
  · rintro ⟨_, x, _, hx, ⟨rfl, rfl⟩, rfl⟩
    rwa [append_nil]
  · intro h
    exact ⟨_, bs, [], h, ⟨rfl, rfl⟩, by simp⟩

lemma decodes_id (kind : String) : Decodes (readId kind) putId := decodes_checked

lemma decodes_counter (kind : String) : Decodes (readCounter kind) putCounter := by
  refine ((Reads.takeU64 _).bind fun value => Reads.lift _).congr fun g bs => ?_
  simp only [mapError_eq_ok, new_eq_ok]
  constructor
  · rintro ⟨_, _, _, rfl, ⟨rfl, rfl⟩, rfl⟩
    rw [append_nil]
    rfl
  · intro h
    exact ⟨_, bs, [], (Except.ok.inj h).symm, ⟨rfl, rfl⟩, by simp⟩

lemma decodes_world : Decodes decodeWorld encodeWorld :=
  (decodes_id _).record2 (decodes_counter _) WorldIdentity.mk (·.world) (·.epoch) (fun _ => rfl)
    (fun _ _ => ⟨rfl, rfl⟩)

lemma decodes_governor : Decodes decodeGovernor encodeGovernor :=
  decodes_world.record3 (decodes_counter _) (decodes_counter _) GovernorIdentity.mk (·.world)
    (·.term) (·.logIndex) (fun _ => rfl) (fun _ _ _ => ⟨rfl, rfl, rfl⟩)

lemma decodes_node : Decodes decodeNode encodeNode :=
  (decodes_id _).record3 (decodes_id _) (decodes_counter _) NodeIdentity.mk (·.world) (·.node)
    (·.generation) (fun _ => rfl) (fun _ _ _ => ⟨rfl, rfl, rfl⟩)

lemma decodes_domain : Decodes decodeDomain encodeDomain :=
  decodes_node.record3 (decodes_id _) (decodes_counter _) DomainIdentity.mk (·.node) (·.domain)
    (·.generation) (fun _ => rfl) (fun _ _ _ => ⟨rfl, rfl, rfl⟩)

lemma decodes_process : Decodes decodeProcess encodeProcess :=
  decodes_domain.record3 (decodes_id _) (decodes_counter _) ProcessIdentity.mk (·.domain)
    (·.process) (·.generation) (fun _ => rfl) (fun _ _ _ => ⟨rfl, rfl, rfl⟩)

lemma decodes_attempt : Decodes decodeAttempt encodeAttempt :=
  (decodes_id _).record3 (decodes_id _) (decodes_counter _) AttemptIdentity.mk (·.world) (·.task)
    (·.attempt) (fun _ => rfl) (fun _ _ _ => ⟨rfl, rfl, rfl⟩)

lemma decodes_object : Decodes decodeObject encodeObject :=
  (decodes_id _).record3 (decodes_id _) (decodes_counter _) ObjectIdentity.mk (·.world) (·.object)
    (·.version) (fun _ => rfl) (fun _ _ _ => ⟨rfl, rfl, rfl⟩)

lemma decodes_checkpoint : Decodes decodeCheckpoint encodeCheckpoint :=
  decodes_attempt.record2 (decodes_id _) CheckpointIdentity.mk (·.attempt) (·.checkpoint)
    (fun _ => rfl) (fun _ _ => ⟨rfl, rfl⟩)

lemma decodes_names (k k' : String) : Decodes (decodeNames k k') (fun p => encodeNames p.1 p.2) :=
  (decodes_id k).record2 (decodes_id k') Prod.mk Prod.fst Prod.snd (fun _ => rfl)
    (fun _ _ => ⟨rfl, rfl⟩)

lemma reads_ownerBody (tag : UInt16) : Reads (decodeOwnerBody tag)
    (fun owner bs => owner.tag = tag ∧ encodeOwnerBody owner = .ok bs) := by
  unfold decodeOwnerBody
  split
  · refine (decodes_world.map _).congr fun owner bs => ?_
    cases owner <;> simp [ResourceOwner.tag, encodeOwnerBody]
  · refine (decodes_node.map _).congr fun owner bs => ?_
    cases owner <;> simp [ResourceOwner.tag, encodeOwnerBody]
  · refine (decodes_domain.map _).congr fun owner bs => ?_
    cases owner <;> simp [ResourceOwner.tag, encodeOwnerBody]
  · refine (decodes_process.map _).congr fun owner bs => ?_
    cases owner <;> simp [ResourceOwner.tag, encodeOwnerBody]
  · next h1 h2 h3 h4 =>
    refine (Reads.lift _).congr fun owner bs => ?_
    cases owner <;> simp_all [ResourceOwner.tag, eq_comm]

lemma decodes_owner : Decodes decodeOwner encodeOwner := by
  refine ((Reads.takeU16 _).bind reads_ownerBody).congr fun owner bs => ?_
  simp only [encodeOwner, bind_eq_ok]
  constructor
  · rintro ⟨tag, _, y, rfl, ⟨rfl, hy⟩, rfl⟩
    exact ⟨y, hy, rfl⟩
  · rintro ⟨y, hy, h⟩
    exact ⟨_, _, y, rfl, ⟨rfl, hy⟩, (Except.ok.inj h).symm⟩

lemma decodes_resource : Decodes decodeResource encodeResource :=
  decodes_owner.record3 decodes_checked (decodes_counter _) ResourceIdentity.mk (·.owner)
    (·.resource) (·.generation) (fun _ => rfl) (fun _ _ _ => ⟨rfl, rfl, rfl⟩)

lemma IdentityWireKind.fromU16_eq_ok {found : UInt16} {kind : IdentityWireKind} :
    IdentityWireKind.fromU16 found = .ok kind ↔ found = kind.toU16 := by
  constructor
  · intro h
    unfold IdentityWireKind.fromU16 at h
    split at h <;> first | (obtain rfl := Except.ok.inj h; rfl) | simp at h
  · rintro rfl
    cases kind <;> rfl

variable {record : IdentityWireRecord}

namespace IdentityWireRecord

lemma reads_names {k k' : String} {kind : IdentityWireKind}
    {mk : Component k × Component k' → IdentityWireRecord}
    (hmk : ∀ p, (mk p).kind = kind ∧ (mk p).encodePayload = encodeNames p.1 p.2)
    (hkind : ∀ record, record.kind = kind → ∃ p, record = mk p) :
    Reads (mk <$> decodeNames k k')
      (fun record bs => record.kind = kind ∧ record.encodePayload = .ok bs) := by
  refine ((decodes_names k k').map mk).congr fun record bs => ⟨?_, ?_⟩
  · rintro ⟨p, h, rfl⟩
    exact ⟨(hmk p).1, (hmk p).2.trans h⟩
  · rintro ⟨h, hencode⟩
    obtain ⟨p, rfl⟩ := hkind record h
    exact ⟨p, (hmk p).2.symm.trans hencode, rfl⟩

lemma reads_payload (kind : IdentityWireKind) : Reads (decodePayload kind)
    (fun record bs => record.kind = kind ∧ record.encodePayload = .ok bs) := by
  cases kind with
  | world =>
    refine (decodes_world.map _).congr fun record bs => ?_
    cases record <;> simp [IdentityWireRecord.kind, encodePayload]
  | governor =>
    refine (decodes_governor.map _).congr fun record bs => ?_
    cases record <;> simp [IdentityWireRecord.kind, encodePayload]
  | node =>
    refine (decodes_node.map _).congr fun record bs => ?_
    cases record <;> simp [IdentityWireRecord.kind, encodePayload]
  | domain =>
    refine (decodes_domain.map _).congr fun record bs => ?_
    cases record <;> simp [IdentityWireRecord.kind, encodePayload]
  | process =>
    refine (decodes_process.map _).congr fun record bs => ?_
    cases record <;> simp [IdentityWireRecord.kind, encodePayload]
  | resource =>
    refine (decodes_resource.map _).congr fun record bs => ?_
    cases record <;> simp [IdentityWireRecord.kind, encodePayload]
  | object =>
    refine (decodes_object.map _).congr fun record bs => ?_
    cases record <;> simp [IdentityWireRecord.kind, encodePayload]
  | attempt =>
    refine (decodes_attempt.map _).congr fun record bs => ?_
    cases record <;> simp [IdentityWireRecord.kind, encodePayload]
  | checkpoint =>
    refine (decodes_checkpoint.map _).congr fun record bs => ?_
    cases record <;> simp [IdentityWireRecord.kind, encodePayload]
  | capability | lease | task | receipt =>
    refine reads_names (fun _ => ⟨rfl, rfl⟩) fun record h => ?_
    cases record <;> first | exact ⟨(_, _), rfl⟩ | cases h

lemma encode_eq_ok {bs : Bytes} : record.encode = .ok bs ↔
    ∃ payload, record.encodePayload = .ok payload ∧ 16 + payload.length ≤ 1024 ∧
      bs = frame identityWireMagic identityWireVersion record.kind.toU16
        (UInt32.ofNat (16 + payload.length)) payload := by
  simp only [encode, bind_eq_ok, ensure_eq_ok]
  constructor
  · rintro ⟨payload, hpayload, -, hlen, h⟩
    exact ⟨payload, hpayload, hlen, (Except.ok.inj h).symm⟩
  · rintro ⟨payload, hpayload, hlen, rfl⟩
    exact ⟨payload, hpayload, (), hlen, rfl⟩

/-- Decoding inverts encoding in both directions. -/
lemma decode_eq_ok_iff {bs : Bytes} : decode bs = .ok record ↔ record.encode = .ok bs := by
  have hmagic : identityWireMagic.length = 8 := rfl
  rw [encode_eq_ok]
  simp only [decode, bind_eq_ok, ensure_eq_ok, IdentityWireKind.fromU16_eq_ok]
  constructor
  · rintro ⟨-, hmax, -, hheader, -, htake, -, hversion, kind, hkind, -, -, -, hdeclared,
      ⟨record', rest⟩, hread, -, hrest, hret⟩
    obtain rfl : record' = record := Except.ok.inj hret
    obtain rfl : rest = [] := hrest
    obtain ⟨payload, ⟨rfl, hpayload⟩, hbs⟩ := (reads_payload kind).sound hread
    rw [append_nil] at hbs
    have hlen : 16 + payload.length = bs.length := by
      have := congrArg List.length hbs
      rw [length_drop] at this
      have h16 : identityWireHeaderBytes = 16 := rfl
      omega
    refine ⟨payload, hpayload, hlen ▸ hmax, ?_⟩
    rw [hlen, ← hdeclared, UInt32.ofNat_toNat, ← hbs, ← htake, ← hversion, ← hkind]
    exact (frame_of_record hheader).symm
  · rintro ⟨payload, hpayload, hlen, rfl⟩
    have htotal : (UInt32.ofNat (16 + payload.length)).toNat = 16 + payload.length :=
      UInt32.toNat_ofNat_of_lt' (hlen.trans_lt (by decide))
    have hlength := length_frame hmagic identityWireVersion record.kind.toU16
      (UInt32.ofNat (16 + payload.length)) payload
    have hread := (reads_payload record.kind).complete ⟨rfl, hpayload⟩ []
    rw [append_nil] at hread
    refine ⟨(), hlength.trans_le hlen, (), (Nat.le_add_right 16 _).trans_eq hlength.symm, (),
      take_frame hmagic .., (), u16At_frame_first hmagic .., record.kind,
      u16At_frame_second hmagic .., (), ?_, (), ?_, (record, []), ?_, (), rfl, rfl⟩
    · rw [u32At_frame hmagic, htotal]
      exact hlen
    · rw [u32At_frame hmagic, htotal, hlength]
    · rw [identityWireHeaderBytes, drop_frame hmagic]
      exact hread

/-! ## Every identity fits -/

lemma fits_text {value : String} {n : ℕ} (h : (utf8 value).length ≤ n) (hn : n < 2 ^ 16) :
    Fits (putText value) (2 + n) :=
  ⟨_, putText_eq_ok.2 ⟨h.trans_lt hn, rfl⟩, by
    rw [length_append, length_putU16]
    omega⟩

lemma fits_id {kind : String} (id : Component kind) : Fits (putId id) 130 :=
  fits_text (Component.length_le id) (by decide)

lemma fits_counter {kind : String} (g : Generation kind) : Fits (putCounter g) 8 :=
  Fits.ok (length_putU64 g.value).le

lemma fits_world (w : WorldIdentity) : Fits (encodeWorld w) 138 :=
  (fits_id w.world).append (fits_counter w.epoch)

lemma fits_node (n : NodeIdentity) : Fits (encodeNode n) 268 :=
  (fits_id n.world).append3 (fits_id n.node) (fits_counter n.generation)

lemma fits_domain (d : DomainIdentity) : Fits (encodeDomain d) 406 :=
  (fits_node d.node).append3 (fits_id d.domain) (fits_counter d.generation)

lemma fits_process (p : ProcessIdentity) : Fits (encodeProcess p) 544 :=
  (fits_domain p.domain).append3 (fits_id p.process) (fits_counter p.generation)

lemma fits_attempt (a : AttemptIdentity) : Fits (encodeAttempt a) 268 :=
  (fits_id a.world).append3 (fits_id a.task) (fits_counter a.attempt)

lemma fits_ownerBody (owner : ResourceOwner) : Fits (encodeOwnerBody owner) 544 := by
  cases owner with
  | world w => exact (fits_world w).mono (by decide)
  | node n => exact (fits_node n).mono (by decide)
  | domain d => exact (fits_domain d).mono (by decide)
  | process p => exact fits_process p

lemma fits_owner (owner : ResourceOwner) : Fits (encodeOwner owner) 546 := by
  obtain ⟨body, hbody, hlen⟩ := fits_ownerBody owner
  refine ⟨putU16 owner.tag ++ body, by rw [encodeOwner, hbody]; rfl, ?_⟩
  rw [length_append, length_putU16]
  omega

lemma fits_resource (r : ResourceIdentity) : Fits (encodeResource r) 812 :=
  (fits_owner r.owner).append3 (fits_text (ResourceId.length_le r.resource) (by decide))
    (fits_counter r.generation)

/-- The largest payload is that of a resource owned by a process. -/
lemma fits_payload (record : IdentityWireRecord) : Fits record.encodePayload 812 := by
  cases record with
  | world identity => exact (fits_world identity).mono (by decide)
  | governor identity =>
    exact ((fits_world identity.world).append3 (fits_counter identity.term)
      (fits_counter identity.logIndex)).mono (by decide)
  | node identity => exact (fits_node identity).mono (by decide)
  | domain identity => exact (fits_domain identity).mono (by decide)
  | process identity => exact (fits_process identity).mono (by decide)
  | resource identity => exact fits_resource identity
  | object identity =>
    exact ((fits_id identity.world).append3 (fits_id identity.object)
      (fits_counter identity.version)).mono (by decide)
  | capability identity =>
    exact ((fits_id identity.world).append (fits_id identity.capability)).mono (by decide)
  | lease identity =>
    exact ((fits_id identity.world).append (fits_id identity.lease)).mono (by decide)
  | task identity =>
    exact ((fits_id identity.world).append (fits_id identity.task)).mono (by decide)
  | attempt identity => exact (fits_attempt identity).mono (by decide)
  | checkpoint identity =>
    exact ((fits_attempt identity.attempt).append (fits_id identity.checkpoint)).mono (by decide)
  | receipt identity =>
    exact ((fits_id identity.world).append (fits_id identity.receipt)).mono (by decide)

lemma fits_encode (record : IdentityWireRecord) : Fits record.encode 828 := by
  obtain ⟨payload, hpayload, hlen⟩ := record.fits_payload
  refine ⟨_, encode_eq_ok.2 ⟨payload, hpayload, by omega, rfl⟩, ?_⟩
  rw [length_frame rfl]
  omega

end IdentityWireRecord

end Ostadix
