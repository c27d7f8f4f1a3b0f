import Ostadix.IdentityWire

/-! Portable, authority-free values of the World boundary. -/

namespace Ostadix

open Wire

/-! ## Numbers and texts -/

inductive FloatFormat where
  | f32 | f64
  deriving DecidableEq, Repr

inductive DecimalSpecial where
  | nan | posInf | negInf | posZero | negZero
  deriving DecidableEq, Repr

inductive FloatSpecial where
  | nan | posInf | negInf | posZero | negZero
  deriving DecidableEq, Repr

inductive ONumber where
  | int (v : ℤ)
  | rational (num den : ℤ)
  | decimal (coeff : ℤ) (exp10 : Int64) (special : Option DecimalSpecial)
  | binaryFloat (format : FloatFormat) (bits : Bytes)
  | bigFloat (mantissa : ℤ) (exp2 : Int64) (precision : Option UInt64)
      (special : Option FloatSpecial)
  | complex (re im : ONumber)
  deriving DecidableEq, Repr

structure OText where
  utf8 : String
  encoding : Option String
  deriving DecidableEq, Repr

structure OBytes where
  bytes : Bytes
  mediaType : Option String
  deriving DecidableEq, Repr

@[ext]
structure Digest where
  bytes : Bytes
  size : bytes.length = 32

instance : DecidableEq Digest := fun _ _ => decidable_of_iff _ Digest.ext_iff.symm

/-! ## Values -/

structure PortableCodeRef where
  digest : Digest
  (evaluator entrypoint : String)
  deriving DecidableEq

structure PortableError where
  (code message : String)
  deriving DecidableEq

inductive PortableOValue where
  | null
  | bool (value : Bool)
  | number (number : ONumber)
  | text (text : OText)
  | char (value : Char)
  | bytes (bytes : OBytes)
  | list (items : List PortableOValue)
  | record (fields : List (String × PortableOValue))
  | map (entries : List (PortableOValue × PortableOValue))
  | tagged (tag : String) (value : PortableOValue)
  | codeRef (reference : PortableCodeRef)
  | objectRef (identity : ObjectIdentity)
  | error (error : PortableError)

structure ExtensionEnvelope where
  (namespace_ name : String)
  version : UInt16
  schemaDigest : Digest
  value : PortableOValue

inductive PortableValueRecord where
  | core (value : PortableOValue)
  | extension (envelope : ExtensionEnvelope)

def numberInteger : ONumber → Option ℤ
  | .int v => some v
  | _ => none

def numberBinaryFloat : ONumber → Option (FloatFormat × Bytes)
  | .binaryFloat format bits => some (format, bits)
  | _ => none

/-! ## Errors -/

inductive EntryKind where
  | list | record | map
  deriving DecidableEq, Repr

def EntryKind.name : EntryKind → String
  | .list => "list"
  | .record => "record"
  | .map => "map"

inductive IdentifierField where
  | tag | codeEvaluator | codeEntrypoint | errorCode | extensionNamespace | extensionName
  deriving DecidableEq, Repr

def IdentifierField.name : IdentifierField → String
  | .tag => "tag"
  | .codeEvaluator => "code evaluator"
  | .codeEntrypoint => "code entrypoint"
  | .errorCode => "error code"
  | .extensionNamespace => "extension namespace"
  | .extensionName => "extension name"

inductive PortableValueError where
  | recordTooLarge (actual maximum : ℕ)
  | recordTooSmall (actual minimum : ℕ)
  | recordExceedsLimit (actual : ℕ) (limit : UInt32)
  | truncated (needed remaining : ℕ)
  | badMagic
  | unsupportedSchema (found : UInt16)
  | unsupportedNegotiatedSchema (found : UInt16)
  | nonzeroReserved (found : UInt16)
  | lengthMismatch (declared actual : ℕ)
  | unknownTag (found : UInt16)
  | nonzeroNodeReserved (tag found : UInt16)
  | invalidNodeLength (tag : UInt16) (declared remaining : ℕ)
  | invalidPayloadLength (tag : UInt16) (expected actual : ℕ)
  | depthLimit (actual maximum : ℕ)
  | nodeLimit (actual maximum : ℕ)
  | entryLimit (kind : EntryKind) (actual maximum : ℕ)
  | invalidInteger
  | integerTooLarge (actual maximum : ℕ)
  | invalidBinaryFloat (format : UInt8) (actual : ℕ)
  | invalidTextEncoding
  | textTooLong (actual maximum : ℕ)
  | invalidUtf8
  | invalidUnicodeScalar (found : UInt32)
  | invalidMediaType
  | bytesTooLong (actual maximum : ℕ)
  | invalidIdentifier (field : IdentifierField)
  | invalidRecordKey (maximum : ℕ)
  | nonCanonicalRecordOrder
  | duplicateRecordKey
  | nonScalarMapKey
  | nonCanonicalMapOrder
  | duplicateMapKey
  | invalidExtensionNamespace
  | zeroExtensionVersion
  | zeroExtensionSchemaDigest
  | extensionSchemaMismatch
  | expectedExtension
  | nestedExtension
  | trailingBytes (remaining : ℕ)
  | expectedObjectIdentity
  | nonCanonicalObjectIdentity
  | identity (error : IdentityWireError)
  deriving DecidableEq, Repr

open Text in
def PortableValueError.message : PortableValueError → String
  | .recordTooLarge actual maximum =>
    s!"OWVALUE record is {actual} bytes; hard maximum is {maximum}"
  | .recordTooSmall actual minimum => s!"OWVALUE record is {actual} bytes; minimum is {minimum}"
  | .recordExceedsLimit actual limit =>
    s!"OWVALUE record is {actual} bytes; negotiated/caller limit is {limit}"
  | .truncated needed remaining =>
    s!"OWVALUE input is truncated: need {needed} bytes, have {remaining}"
  | .badMagic => "OWVALUE record has invalid magic"
  | .unsupportedSchema found => s!"unsupported OWVALUE schema {found}"
  | .unsupportedNegotiatedSchema found =>
    s!"negotiated World schema {found} cannot carry OWVALUE v1"
  | .nonzeroReserved found => s!"OWVALUE reserved field is nonzero: {found}"
  | .lengthMismatch declared actual =>
    s!"OWVALUE record length says {declared} bytes but input has {actual}"
  | .unknownTag found => s!"unknown OWVALUE node tag {hex 4 found.toNat}"
  | .nonzeroNodeReserved tag found =>
    s!"OWVALUE node {hex 4 tag.toNat} reserved field is nonzero: {found}"
  | .invalidNodeLength tag declared remaining =>
    s!"OWVALUE node {hex 4 tag.toNat} length {declared} is invalid for " ++
      s!"{remaining} remaining bytes"
  | .invalidPayloadLength tag expected actual =>
    s!"OWVALUE node {hex 4 tag.toNat} payload is {actual} bytes; expected {expected}"
  | .depthLimit actual maximum => s!"OWVALUE node nesting depth {actual} exceeds {maximum}"
  | .nodeLimit actual maximum => s!"OWVALUE node count {actual} exceeds {maximum}"
  | .entryLimit kind actual maximum =>
    s!"OWVALUE {kind.name} has {actual} entries; maximum is {maximum}"
  | .invalidInteger => "integer sign/magnitude is noncanonical"
  | .integerTooLarge actual maximum =>
    s!"integer magnitude is {actual} bytes; maximum is {maximum}"
  | .invalidBinaryFloat format actual => s!"binary float format {format} has {actual} raw bytes"
  | .invalidTextEncoding => "text encoding must be absent or exactly utf-8"
  | .textTooLong actual maximum => s!"text is {actual} UTF-8 bytes; maximum is {maximum}"
  | .invalidUtf8 => "OWVALUE text is not valid UTF-8"
  | .invalidUnicodeScalar found => s!"{hex 1 found.toNat} is not a Unicode scalar value"
  | .invalidMediaType => "byte media type is not canonical printable ASCII type/subtype"
  | .bytesTooLong actual maximum => s!"byte payload is {actual} bytes; maximum is {maximum}"
  | .invalidIdentifier field => s!"{field.name} identifier is invalid"
  | .invalidRecordKey maximum =>
    s!"record key is empty, invalid UTF-8, or exceeds {maximum} bytes"
  | .nonCanonicalRecordOrder => "record keys are not in strict canonical byte order"
  | .duplicateRecordKey => "record contains a duplicate key"
  | .nonScalarMapKey => "map key is not one of the scalar PR4 key kinds"
  | .nonCanonicalMapOrder => "map keys are not in strict canonical node-byte order"
  | .duplicateMapKey => "map contains a duplicate canonical key"
  | .invalidExtensionNamespace => "extension namespace must be canonical and contain a dot"
  | .zeroExtensionVersion => "extension version zero is reserved"
  | .zeroExtensionSchemaDigest => "extension schema digest cannot be all zero"
  | .extensionSchemaMismatch => "decoded extension does not match the expected exact schema"
  | .expectedExtension => "expected a root extension envelope, found a portable core value"
  | .nestedExtension => "extension envelopes are permitted only as the OWVALUE root"
  | .trailingBytes remaining => s!"OWVALUE record has {remaining} trailing bytes"
  | .expectedObjectIdentity => "nested OWIDENT record is not an Object identity"
  | .nonCanonicalObjectIdentity => "nested OWIDENT Object record is noncanonical"
  | .identity error => error.message

end Ostadix
