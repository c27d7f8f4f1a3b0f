import Ostadix.Protocol
import Ostadix.Value

/-! The canonical, bounded wire encoding (`OWVALUE`) of portable values. -/

namespace Ostadix.ValueCodec

open Wire

def ovalueWireMagic : Bytes := [79, 87, 86, 65, 76, 85, 69, 0]

def ovalueWireSchemaV1 : UInt16 := 1

def ovalueWireHeaderBytes : ℕ := 16

def ovalueNodeHeaderBytes : ℕ := 8

def minOvalueRecordBytes : UInt32 := 24

def maxOvalueRecordBytes : UInt32 := 4096

def maxOvalueDepth : ℕ := 16

def maxOvalueNodes : ℕ := 128

def maxOvalueListItems : ℕ := 64

def maxOvalueMapEntries : ℕ := 32

def maxOvalueIntegerBytes : ℕ := 256

def maxOvalueTextBytes : ℕ := 1024

def maxOvalueBytesBytes : ℕ := 2048

def maxOvalueIdentifierBytes : ℕ := 96

@[match_pattern] def tagNull : UInt16 := 0x0000
@[match_pattern] def tagBool : UInt16 := 0x0001
@[match_pattern] def tagInteger : UInt16 := 0x0010
@[match_pattern] def tagBinaryFloat : UInt16 := 0x0011
@[match_pattern] def tagText : UInt16 := 0x0020
@[match_pattern] def tagChar : UInt16 := 0x0021
@[match_pattern] def tagBytes : UInt16 := 0x0022
@[match_pattern] def tagList : UInt16 := 0x0030
@[match_pattern] def tagRecord : UInt16 := 0x0031
@[match_pattern] def tagMap : UInt16 := 0x0032
@[match_pattern] def tagTagged : UInt16 := 0x0040
@[match_pattern] def tagCodeRef : UInt16 := 0x0041
@[match_pattern] def tagObjectRef : UInt16 := 0x0042
@[match_pattern] def tagError : UInt16 := 0x0043
@[match_pattern] def tagExtension : UInt16 := 0x7f00

def floatF32 : UInt8 := 1

def floatF64 : UInt8 := 2

def codeDigestSha256 : UInt16 := 1

/-! ## Validators -/

abbrev Check := Except PortableValueError

def validateEntryCount (kind : EntryKind) (actual maximum : ℕ) : Check Unit :=
  ensure (actual ≤ maximum) (.entryLimit kind actual maximum)

def validateRecordKey (bytes : Bytes) : Check Unit :=
  ensure (bytes ≠ [] ∧ bytes.length ≤ maxOvalueIdentifierBytes ∧ (fromUtf8 bytes).isSome)
    (.invalidRecordKey maxOvalueIdentifierBytes)

def isIdentifierByte (byte : UInt8) : Bool :=
  isAsciiLowercase byte || isAsciiDigit byte || byte = 46 || byte = 95 || byte = 45

def validateIdentifier (value : String) (field : IdentifierField) : Check Unit :=
  let bytes := utf8 value
  ensure (bytes.length ≤ maxOvalueIdentifierBytes ∧ (bytes.head?.any isAsciiLowercase) ∧
    bytes.tail.all isIdentifierByte) (.invalidIdentifier field)

/-- Printable ASCII `type/subtype`; the absent media type passes. -/
def validateMediaType : Option String → Check Unit
  | none => .ok ()
  | some value =>
    let parts := Text.split '/' value
    -- the byte range already excludes ASCII whitespace
    ensure (value ≠ "" ∧ (utf8 value).length ≤ maxOvalueIdentifierBytes ∧
      parts.getD 0 "" ≠ "" ∧ parts.getD 1 "" ≠ "" ∧ parts.length ≤ 2 ∧
      (utf8 value).all (fun byte => 0x21 ≤ byte && byte ≤ 0x7e)) .invalidMediaType

def validateExtension (envelope : ExtensionEnvelope) : Check Unit := do
  validateIdentifier envelope.namespace_ .extensionNamespace
  ensure ('.' ∈ envelope.namespace_.toList) .invalidExtensionNamespace
  validateIdentifier envelope.name .extensionName
  ensure (envelope.version ≠ 0) .zeroExtensionVersion
  ensure (¬envelope.schemaDigest.bytes.all (· = 0)) .zeroExtensionSchemaDigest

def isScalarMapKey : PortableOValue → Bool
  | .null | .bool _ | .number _ | .text _ | .char _ | .bytes _ | .codeRef _ | .objectRef _ => true
  | _ => false

def enforceRecordSize (actual : ℕ) (limit : UInt32) : Check Unit := do
  ensure (actual ≤ maxOvalueRecordBytes.toNat) (.recordTooLarge actual maxOvalueRecordBytes.toNat)
  ensure (minOvalueRecordBytes.toNat ≤ actual) (.recordTooSmall actual minOvalueRecordBytes.toNat)
  ensure (actual ≤ limit.toNat) (.recordExceedsLimit actual limit)

/-- Keys stand in strictly increasing byte order; `prior` is the key before this one. -/
def checkKeyOrder (prior : Option Bytes) (key : Bytes) (duplicate unordered : PortableValueError) :
    Check Unit :=
  match prior with
  | none => .ok ()
  | some previous =>
    match compare previous key with
    | .lt => .ok ()
    | .eq => .error duplicate
    | .gt => .error unordered

/-! ## Encoding

An encoder returns its bytes with the number of nodes entered so far. -/

def enterNode (depth nodes : ℕ) : Check ℕ := do
  ensure (depth ≤ maxOvalueDepth) (.depthLimit depth maxOvalueDepth)
  ensure (nodes + 1 ≤ maxOvalueNodes) (.nodeLimit (nodes + 1) maxOvalueNodes)
  return nodes + 1

variable (tag : UInt16)

def finishNode (payload : Bytes) : Check Bytes := do
  let total := ovalueNodeHeaderBytes + payload.length
  ensure (total < 2 ^ 32) (.recordTooLarge total maxOvalueRecordBytes.toNat)
  return putU16 tag ++ (putU16 0 ++ (putU32 (UInt32.ofNat total) ++ payload))

def encodeNode (tag : Check UInt16) (encodePayload : ℕ → Check (Bytes × ℕ)) (depth nodes : ℕ) :
    Check (Bytes × ℕ) := do
  let nodes ← enterNode depth nodes
  let tag ← tag
  let (payload, nodes) ← encodePayload nodes
  return (← finishNode tag payload, nodes)

def coreTag : PortableOValue → Check UInt16
  | .null => .ok tagNull
  | .bool _ => .ok tagBool
  | .number number =>
    if (numberInteger number).isSome then .ok tagInteger
    else if (numberBinaryFloat number).isSome then .ok tagBinaryFloat
    else .error .invalidInteger
  | .text _ => .ok tagText
  | .char _ => .ok tagChar
  | .bytes _ => .ok tagBytes
  | .list _ => .ok tagList
  | .record _ => .ok tagRecord
  | .map _ => .ok tagMap
  | .tagged _ _ => .ok tagTagged
  | .codeRef _ => .ok tagCodeRef
  | .objectRef _ => .ok tagObjectRef
  | .error _ => .ok tagError

/-- The magnitude that `BigInt::to_bytes_be` gives: zero is a single zero byte. -/
def magnitudeBytes (n : ℕ) : Bytes := if n = 0 then [0] else minimalBytes n

def encodeInteger (integer : ℤ) : Check Bytes := do
  let magnitude := magnitudeBytes integer.natAbs
  ensure (magnitude.length ≤ maxOvalueIntegerBytes)
    (.integerTooLarge magnitude.length maxOvalueIntegerBytes)
  if integer = 0 then return [0]
  else if 0 < integer then return 0 :: magnitude
  else return 1 :: magnitude

def floatFormatTag : FloatFormat → UInt8
  | .f32 => floatF32
  | .f64 => floatF64

def floatFormatSize : FloatFormat → ℕ
  | .f32 => 4
  | .f64 => 8

def encodeBinaryFloat (format : FloatFormat) (bits : Bytes) : Check Bytes := do
  ensure (bits.length = floatFormatSize format)
    (.invalidBinaryFloat (floatFormatTag format) bits.length)
  return floatFormatTag format :: 0 :: 0 :: 0 :: bits

def encodeNumber (number : ONumber) : Check Bytes :=
  match numberInteger number with
  | some integer => encodeInteger integer
  | none =>
    match numberBinaryFloat number with
    | some (format, bits) => encodeBinaryFloat format bits
    | none => .error .invalidInteger

def encodingByte : Option String → Check UInt8
  | none => .ok 0
  | some encoding => if encoding = "utf-8" then .ok 1 else .error .invalidTextEncoding

def encodeText (text : OText) : Check Bytes := do
  let encoding ← encodingByte text.encoding
  ensure ((utf8 text.utf8).length ≤ maxOvalueTextBytes)
    (.textTooLong (utf8 text.utf8).length maxOvalueTextBytes)
  return encoding :: 0 :: 0 :: 0 :: utf8 text.utf8

def encodeBytes (bytes : OBytes) : Check Bytes := do
  let media := bytes.mediaType.getD ""
  validateMediaType bytes.mediaType
  ensure (bytes.bytes.length ≤ maxOvalueBytesBytes)
    (.bytesTooLong bytes.bytes.length maxOvalueBytesBytes)
  ensure ((utf8 media).length < 2 ^ 16) .invalidMediaType
  return putU16 (UInt16.ofNat (utf8 media).length) ++ (putU16 0 ++ (utf8 media ++ bytes.bytes))

def encodeCodeRef (reference : PortableCodeRef) : Check Bytes := do
  validateIdentifier reference.evaluator .codeEvaluator
  validateIdentifier reference.entrypoint .codeEntrypoint
  return putU16 codeDigestSha256 ++ (putU16 0 ++
    (putU16 (UInt16.ofNat (utf8 reference.evaluator).length) ++
    (putU16 (UInt16.ofNat (utf8 reference.entrypoint).length) ++ (reference.digest.bytes ++
    (utf8 reference.evaluator ++ utf8 reference.entrypoint)))))

def encodeError (error : PortableError) : Check Bytes := do
  validateIdentifier error.code .errorCode
  ensure ((utf8 error.message).length ≤ maxOvalueTextBytes)
    (.textTooLong (utf8 error.message).length maxOvalueTextBytes)
  return putU16 (UInt16.ofNat (utf8 error.code).length) ++ (putU16 0 ++
    (utf8 error.code ++ utf8 error.message))

/-- The head of a collection, and of a tagged value: a length and a reserved field. -/
def lengthPrefixed (length : ℕ) (body : Bytes) : Bytes :=
  putU16 (UInt16.ofNat length) ++ (putU16 0 ++ body)

mutual

def encodeCorePayload : PortableOValue → ℕ → ℕ → Check (Bytes × ℕ)
  | .null, _, nodes => return ([], nodes)
  | .bool value, _, nodes => return ([if value then 1 else 0], nodes)
  | .number number, _, nodes => return (← encodeNumber number, nodes)
  | .text text, _, nodes => return (← encodeText text, nodes)
  | .char value, _, nodes => return (putU32 value.val, nodes)
  | .bytes bytes, _, nodes => return (← encodeBytes bytes, nodes)
  | .list items, depth, nodes => do
    validateEntryCount .list items.length maxOvalueListItems
    let (body, nodes) ← encodeItems items (depth + 1) nodes
    return (lengthPrefixed items.length body, nodes)
  | .record fields, depth, nodes => do
    validateEntryCount .record fields.length maxOvalueMapEntries
    let (body, nodes) ← encodeFields fields none (depth + 1) nodes
    return (lengthPrefixed fields.length body, nodes)
  | .map entries, depth, nodes => do
    validateEntryCount .map entries.length maxOvalueMapEntries
    let (body, nodes) ← encodeEntries entries none (depth + 1) nodes
    return (lengthPrefixed entries.length body, nodes)
  | .tagged tag value, depth, nodes => do
    validateIdentifier tag .tag
    let (body, nodes) ←
      encodeNode (coreTag value) (encodeCorePayload value (depth + 1)) (depth + 1) nodes
    return (lengthPrefixed (utf8 tag).length (utf8 tag ++ body), nodes)
  | .codeRef reference, _, nodes => return (← encodeCodeRef reference, nodes)
  | .objectRef identity, _, nodes => do
    let bytes ← (IdentityWireRecord.object identity).encode.mapError .identity
    return (bytes, nodes)
  | .error error, _, nodes => return (← encodeError error, nodes)

def encodeItems : List PortableOValue → ℕ → ℕ → Check (Bytes × ℕ)
  | [], _, nodes => return ([], nodes)
  | child :: items, depth, nodes => do
    let (head, nodes) ← encodeNode (coreTag child) (encodeCorePayload child depth) depth nodes
    let (tail, nodes) ← encodeItems items depth nodes
    return (head ++ tail, nodes)

def encodeFields : List (String × PortableOValue) → Option Bytes → ℕ → ℕ → Check (Bytes × ℕ)
  | [], _, _, nodes => return ([], nodes)
  | (key, child) :: fields, prior, depth, nodes => do
    validateRecordKey (utf8 key)
    checkKeyOrder prior (utf8 key) .duplicateRecordKey .nonCanonicalRecordOrder
    let (head, nodes) ← encodeNode (coreTag child) (encodeCorePayload child depth) depth nodes
    let (tail, nodes) ← encodeFields fields (some (utf8 key)) depth nodes
    return (putU16 (UInt16.ofNat (utf8 key).length) ++ (utf8 key ++ (head ++ tail)), nodes)

def encodeEntries : List (PortableOValue × PortableOValue) → Option Bytes → ℕ → ℕ →
    Check (Bytes × ℕ)
  | [], _, _, nodes => return ([], nodes)
  | (key, value) :: entries, prior, depth, nodes => do
    ensure (isScalarMapKey key) .nonScalarMapKey
    let (keyBytes, nodes) ← encodeNode (coreTag key) (encodeCorePayload key depth) depth nodes
    checkKeyOrder prior keyBytes .duplicateMapKey .nonCanonicalMapOrder
    let (head, nodes) ← encodeNode (coreTag value) (encodeCorePayload value depth) depth nodes
    let (tail, nodes) ← encodeEntries entries (some keyBytes) depth nodes
    return (keyBytes ++ (head ++ tail), nodes)

end

def encodeCoreNode (value : PortableOValue) (depth nodes : ℕ) : Check (Bytes × ℕ) :=
  encodeNode (coreTag value) (encodeCorePayload value depth) depth nodes

def encodeExtensionPayload (envelope : ExtensionEnvelope) (depth nodes : ℕ) :
    Check (Bytes × ℕ) := do
  validateExtension envelope
  let (body, nodes) ← encodeCoreNode envelope.value (depth + 1) nodes
  return (putU16 (UInt16.ofNat (utf8 envelope.namespace_).length) ++
    (putU16 (UInt16.ofNat (utf8 envelope.name).length) ++ (putU16 envelope.version ++ (putU16 0 ++
    (envelope.schemaDigest.bytes ++ (utf8 envelope.namespace_ ++
    (utf8 envelope.name ++ body)))))), nodes)

def encodeExtensionNode (envelope : ExtensionEnvelope) (depth nodes : ℕ) : Check (Bytes × ℕ) :=
  encodeNode (.ok tagExtension) (encodeExtensionPayload envelope depth) depth nodes

/-! ## Decoding

Decoders read a payload from its front and pass on the number of nodes taken so far. -/

abbrev Decoder := Reader PortableValueError

def takePayload (declared : ℕ) : Decoder Bytes := do
  checkRemaining
    (fun remaining => ovalueNodeHeaderBytes ≤ declared ∧
      declared - ovalueNodeHeaderBytes ≤ remaining)
    (fun remaining => .invalidNodeLength tag declared (remaining + ovalueNodeHeaderBytes))
  take .truncated (declared - ovalueNodeHeaderBytes)

def takeNode (depth nodes : ℕ) : Decoder (UInt16 × Bytes × ℕ) := do
  let nodes ← lift (enterNode depth nodes)
  checkRemaining (ovalueNodeHeaderBytes ≤ ·) (.truncated ovalueNodeHeaderBytes)
  let tag ← takeU16 .truncated
  let reserved ← takeU16 .truncated
  lift (ensure (reserved = 0) (.nonzeroNodeReserved tag reserved))
  let declared ← takeU32 .truncated
  let payload ← takePayload tag declared.toNat
  return (tag, payload, nodes)

def requirePayload (expected : ℕ) : Decoder Unit :=
  checkRemaining (· = expected) (.invalidPayloadLength tag expected)

def requireHeader (needed : ℕ) : Decoder Unit := checkRemaining (needed ≤ ·) (.truncated needed)

def decodeNull : Decoder PortableOValue := do
  requirePayload tagNull 0
  return .null

def decodeBool : Decoder PortableOValue := do
  requirePayload tagBool 1
  let byte ← takeU8 .truncated
  lift (if byte = 0 then .ok (.bool false) else if byte = 1 then .ok (.bool true)
    else .error (.invalidPayloadLength tagBool 1 1))

def integerOfPayload (sign : UInt8) (magnitude : Bytes) : Check ℤ := do
  ensure (magnitude.length ≤ maxOvalueIntegerBytes)
    (.integerTooLarge magnitude.length maxOvalueIntegerBytes)
  ensure (sign ≤ 1 ∧ magnitude.head? ≠ some 0 ∧ (magnitude = [] → sign = 0)) .invalidInteger
  if magnitude = [] then return 0
  else if sign = 1 then return -(beNat magnitude : ℤ)
  else return (beNat magnitude : ℤ)

def decodeInteger : Decoder PortableOValue := do
  checkRemaining (1 ≤ ·) (fun _ => .invalidInteger)
  let sign ← takeU8 .truncated
  let magnitude ← takeRemaining
  lift (do return .number (.int (← integerOfPayload sign magnitude)))

def floatOfPayload (formatTag : UInt8) (bits : Bytes) : Check ONumber :=
  if formatTag = floatF32 ∧ bits.length = 4 then .ok (.binaryFloat .f32 bits)
  else if formatTag = floatF64 ∧ bits.length = 8 then .ok (.binaryFloat .f64 bits)
  else .error (.invalidBinaryFloat formatTag bits.length)

/-- One byte, which says how to read the rest, and three reserved zero bytes. -/
def takeSelector : Decoder UInt8 := do
  let selector ← takeU8 .truncated
  let first ← takeU8 .truncated
  lift (ensure (first = 0) (.nonzeroNodeReserved tag 1))
  let second ← takeU16 .truncated
  lift (ensure (second = 0) (.nonzeroNodeReserved tag 1))
  return selector

def decodeBinaryFloat : Decoder PortableOValue := do
  checkRemaining (4 ≤ ·) (.invalidBinaryFloat 0)
  let formatTag ← takeSelector tagBinaryFloat
  let bits ← takeRemaining
  lift (do return .number (← floatOfPayload formatTag bits))

def encodingOfByte (encoding : UInt8) : Check (Option String) :=
  if encoding = 0 then .ok none
  else if encoding = 1 then .ok (some "utf-8")
  else .error .invalidTextEncoding

def textOfPayload (encoding : UInt8) (bytes : Bytes) : Check OText := do
  let text ← decodeUtf8 .invalidUtf8 bytes
  ensure ((utf8 text).length ≤ maxOvalueTextBytes)
    (.textTooLong (utf8 text).length maxOvalueTextBytes)
  let encoding ← encodingOfByte encoding
  return ⟨text, encoding⟩

def decodeText : Decoder PortableOValue := do
  requireHeader 4
  let encoding ← takeSelector tagText
  let bytes ← takeRemaining
  lift (do return .text (← textOfPayload encoding bytes))

def charFromU32 (scalar : UInt32) : Check Char :=
  if h : scalar.isValidChar then .ok ⟨scalar, h⟩ else .error (.invalidUnicodeScalar scalar)

def decodeChar : Decoder PortableOValue := do
  requirePayload tagChar 4
  let scalar ← takeU32 .truncated
  lift (do return .char (← charFromU32 scalar))

def takeLength : Decoder ℕ := do
  let length ← takeU16 .truncated
  let reserved ← takeU16 .truncated
  lift (ensure (reserved = 0) (.nonzeroNodeReserved tag reserved))
  return length.toNat

def takeMedia (length : ℕ) : Decoder (Option String) := do
  if length = 0 then return none
  else
    let bytes ← take .truncated length
    let media ← lift (decodeUtf8 .invalidMediaType bytes)
    return some media

def bytesOfPayload (media : Option String) (bytes : Bytes) : Check OBytes := do
  ensure (bytes.length ≤ maxOvalueBytesBytes) (.bytesTooLong bytes.length maxOvalueBytesBytes)
  return ⟨bytes, media⟩

def decodeBytes : Decoder PortableOValue := do
  requireHeader 4
  let mediaLen ← takeLength tagBytes
  let media ← takeMedia mediaLen
  lift (validateMediaType media)
  let bytes ← takeRemaining
  lift (do return .bytes (← bytesOfPayload media bytes))

def takeIdentifierExact (length : ℕ) (field : IdentifierField) : Decoder String := do
  let bytes ← take .truncated length
  let value ← lift (decodeUtf8 (.invalidIdentifier field) bytes)
  lift (validateIdentifier value field)
  return value

def takeDigest : Decoder Digest := fun input =>
  if h : input.length < 32 then .error (.truncated 32 input.length)
  else .ok (⟨input.take 32, by rw [List.length_take]; omega⟩, input.drop 32)

def decodeCodeRef : Decoder PortableOValue := do
  requireHeader 40
  let algorithm ← takeU16 .truncated
  let reserved ← takeU16 .truncated
  let evaluatorLen ← takeU16 .truncated
  let entrypointLen ← takeU16 .truncated
  lift (ensure (algorithm = codeDigestSha256 ∧ reserved = 0) (.nonzeroNodeReserved tagCodeRef
    (max reserved (UInt16.ofNat (algorithm.toNat - codeDigestSha256.toNat)))))
  let digest ← takeDigest
  let evaluator ← takeIdentifierExact evaluatorLen.toNat .codeEvaluator
  let entrypoint ← takeIdentifierExact entrypointLen.toNat .codeEntrypoint
  return .codeRef ⟨digest, evaluator, entrypoint⟩

def objectOfPayload (nested : Bytes) : Check ObjectIdentity := do
  match ← (IdentityWireRecord.decode nested).mapError .identity with
  | .object identity =>
    let canonical ← (IdentityWireRecord.object identity).encode.mapError .identity
    ensure (canonical = nested) .nonCanonicalObjectIdentity
    return identity
  | _ => throw .expectedObjectIdentity

def decodeObjectRef : Decoder PortableOValue := do
  let nested ← takeRemaining
  lift (do return .objectRef (← objectOfPayload nested))

def errorOfPayload (code : String) (bytes : Bytes) : Check PortableError := do
  let message ← decodeUtf8 .invalidUtf8 bytes
  ensure ((utf8 message).length ≤ maxOvalueTextBytes)
    (.textTooLong (utf8 message).length maxOvalueTextBytes)
  return ⟨code, message⟩

def decodeError : Decoder PortableOValue := do
  requireHeader 4
  let codeLen ← takeLength tagError
  let code ← takeIdentifierExact codeLen .errorCode
  let bytes ← takeRemaining
  lift (do return .error (← errorOfPayload code bytes))

section Children

/-! `child` reads a node one level deeper. -/

variable (child : ℕ → Decoder (PortableOValue × ℕ))

def decodeItems : ℕ → ℕ → Decoder (List PortableOValue × ℕ)
  | 0, nodes => return ([], nodes)
  | count + 1, nodes => do
    let (item, nodes) ← child nodes
    let (items, nodes) ← decodeItems count nodes
    return (item :: items, nodes)

def decodeFields : ℕ → Option Bytes → ℕ → Decoder (List (String × PortableOValue) × ℕ)
  | 0, _, nodes => return ([], nodes)
  | count + 1, prior, nodes => do
    let keyLen ← takeU16 .truncated
    let keyBytes ← take .truncated keyLen.toNat
    lift (validateRecordKey keyBytes)
    lift (checkKeyOrder prior keyBytes .duplicateRecordKey .nonCanonicalRecordOrder)
    let key ← lift (decodeUtf8 (.invalidRecordKey maxOvalueIdentifierBytes) keyBytes)
    let (value, nodes) ← child nodes
    let (fields, nodes) ← decodeFields count (some keyBytes) nodes
    return ((key, value) :: fields, nodes)

def decodeEntries : ℕ → Option Bytes → ℕ → Decoder (List (PortableOValue × PortableOValue) × ℕ)
  | 0, _, nodes => return ([], nodes)
  | count + 1, prior, nodes => do
    let ((key, nodes), keyBytes) ← consumed (child nodes)
    lift (ensure (isScalarMapKey key) .nonScalarMapKey)
    lift (checkKeyOrder prior keyBytes .duplicateMapKey .nonCanonicalMapOrder)
    let (value, nodes) ← child nodes
    let (entries, nodes) ← decodeEntries count (some keyBytes) nodes
    return ((key, value) :: entries, nodes)

def takeCollectionPrefix (tag : UInt16) : Decoder ℕ := do
  requireHeader 4
  takeLength tag

def decodeList (nodes : ℕ) : Decoder (PortableOValue × ℕ) := do
  let count ← takeCollectionPrefix tagList
  lift (validateEntryCount .list count maxOvalueListItems)
  let (items, nodes) ← decodeItems child count nodes
  return (.list items, nodes)

def decodeRecord (nodes : ℕ) : Decoder (PortableOValue × ℕ) := do
  let count ← takeCollectionPrefix tagRecord
  lift (validateEntryCount .record count maxOvalueMapEntries)
  let (fields, nodes) ← decodeFields child count none nodes
  return (.record fields, nodes)

def decodeMap (nodes : ℕ) : Decoder (PortableOValue × ℕ) := do
  let count ← takeCollectionPrefix tagMap
  lift (validateEntryCount .map count maxOvalueMapEntries)
  let (entries, nodes) ← decodeEntries child count none nodes
  return (.map entries, nodes)

def takeIdentifier (field : IdentifierField) : Decoder String := do
  requireHeader 4
  let length ← takeLength tagTagged
  takeIdentifierExact length field

def decodeTagged (nodes : ℕ) : Decoder (PortableOValue × ℕ) := do
  let tag ← takeIdentifier .tag
  let (value, nodes) ← child nodes
  return (.tagged tag value, nodes)

def decodeCorePayload (tag : UInt16) (nodes : ℕ) : Decoder (PortableOValue × ℕ) :=
  match tag with
  | tagNull => (·, nodes) <$> decodeNull
  | tagBool => (·, nodes) <$> decodeBool
  | tagInteger => (·, nodes) <$> decodeInteger
  | tagBinaryFloat => (·, nodes) <$> decodeBinaryFloat
  | tagText => (·, nodes) <$> decodeText
  | tagChar => (·, nodes) <$> decodeChar
  | tagBytes => (·, nodes) <$> decodeBytes
  | tagList => decodeList child nodes
  | tagRecord => decodeRecord child nodes
  | tagMap => decodeMap child nodes
  | tagTagged => decodeTagged child nodes
  | tagCodeRef => (·, nodes) <$> decodeCodeRef
  | tagObjectRef => (·, nodes) <$> decodeObjectRef
  | tagError => (·, nodes) <$> decodeError
  | tagExtension => lift (.error .nestedExtension)
  | found => lift (.error (.unknownTag found))

end Children

/-- The levels left and the depth add up to one more than the maximal depth; the level that is
refused is left out. -/
def decodeCoreNode : ℕ → ℕ → ℕ → Decoder (PortableOValue × ℕ)
  | 0, depth, _ => lift (.error (.depthLimit depth maxOvalueDepth))
  | levels + 1, depth, nodes => do
    let (tag, payload, nodes) ← takeNode depth nodes
    lift (ensure (tag ≠ tagExtension) .nestedExtension)
    lift (whole .trailingBytes (decodeCorePayload (decodeCoreNode levels (depth + 1)) tag nodes)
      payload)

def decodeExtensionPayload (child : ℕ → Decoder (PortableOValue × ℕ)) (nodes : ℕ) :
    Decoder (ExtensionEnvelope × ℕ) := do
  requireHeader 40
  let namespaceLen ← takeU16 .truncated
  let nameLen ← takeU16 .truncated
  let version ← takeU16 .truncated
  let reserved ← takeU16 .truncated
  lift (ensure (version ≠ 0) .zeroExtensionVersion)
  lift (ensure (reserved = 0) (.nonzeroNodeReserved tagExtension reserved))
  let schemaDigest ← takeDigest
  lift (ensure (¬schemaDigest.bytes.all (· = 0)) .zeroExtensionSchemaDigest)
  let namespace_ ← takeIdentifierExact namespaceLen.toNat .extensionNamespace
  lift (ensure ('.' ∈ namespace_.toList) .invalidExtensionNamespace)
  let name ← takeIdentifierExact nameLen.toNat .extensionName
  let (value, nodes) ← child nodes
  return (⟨namespace_, name, version, schemaDigest, value⟩, nodes)

def rootOfPayload (payload : Bytes) (nodes : ℕ) : Check (PortableValueRecord × ℕ) :=
  let child := decodeCoreNode (maxOvalueDepth - 1) 2
  if tag = tagExtension then do
    let (envelope, nodes) ← whole .trailingBytes (decodeExtensionPayload child nodes) payload
    return (.extension envelope, nodes)
  else do
    let (value, nodes) ← whole .trailingBytes (decodeCorePayload child tag nodes) payload
    return (.core value, nodes)

def decodeRootNode : Decoder (PortableValueRecord × ℕ) := do
  let (tag, payload, nodes) ← takeNode 1 0
  lift (rootOfPayload tag payload nodes)

end Ostadix.ValueCodec

/-! ## Records -/

namespace Ostadix.PortableValueRecord

open Wire ValueCodec

def encodeBody : PortableValueRecord → Check (Bytes × ℕ)
  | .core value => encodeCoreNode value 1 0
  | .extension envelope => encodeExtensionNode envelope 1 0

def encodeWithLimit (record : PortableValueRecord) (limit : UInt32) : Check Bytes := do
  let (body, _) ← record.encodeBody
  let total := ovalueWireHeaderBytes + body.length
  enforceRecordSize total limit
  return frame ovalueWireMagic ovalueWireSchemaV1 0 (UInt32.ofNat total) body

def encode (record : PortableValueRecord) : Check Bytes :=
  record.encodeWithLimit maxOvalueRecordBytes

def validate (record : PortableValueRecord) : Check Unit := record.encode.map fun _ => ()

/-- Decoding up to the final comparison with the re-encoded record. -/
def parse (record : Bytes) (limit : UInt32) : Check PortableValueRecord := do
  enforceRecordSize record.length limit
  ensure (ovalueWireHeaderBytes ≤ record.length) (.truncated ovalueWireHeaderBytes record.length)
  ensure (record.take 8 = ovalueWireMagic) .badMagic
  ensure (u16At record 8 = ovalueWireSchemaV1) (.unsupportedSchema (u16At record 8))
  ensure (u16At record 10 = 0) (.nonzeroReserved (u16At record 10))
  let declared := (u32At record 12).toNat
  ensure (declared = record.length) (.lengthMismatch declared record.length)
  let (decoded, _) ← whole .trailingBytes decodeRootNode (record.drop ovalueWireHeaderBytes)
  return decoded

def decodeWithLimit (record : Bytes) (limit : UInt32) : Check PortableValueRecord := do
  let decoded ← parse record limit
  let canonical ← decoded.encode
  ensure (canonical = record) (.lengthMismatch canonical.length record.length)
  return decoded

def decode (record : Bytes) : Check PortableValueRecord :=
  decodeWithLimit record maxOvalueRecordBytes

end Ostadix.PortableValueRecord
