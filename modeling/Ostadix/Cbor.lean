import Ostadix.Json
import Ostadix.SortBy

/-! Deterministic CBOR over the JSON data model: one encoder and a decoder with optional limits. -/

namespace Ostadix.Cbor

open Wire

/-! ## Encoding -/

def encodeTypeLen (major : UInt8) (len : UInt64) : Bytes :=
  let major := major <<< 5
  if len ≤ 23 then [major ||| len.toUInt8]
  else if len ≤ 0xff then [major ||| 24, len.toUInt8]
  else if len ≤ 0xffff then (major ||| 25) :: putU16 len.toUInt16
  else if len ≤ 0xffffffff then (major ||| 26) :: putU32 len.toUInt32
  else (major ||| 27) :: putU64 len

def encodeText (text : String) : Bytes :=
  encodeTypeLen 3 (UInt64.ofNat (utf8 text).length) ++ utf8 text

def encodeNumber : JsonNumber → Bytes
  | .posInt value => encodeTypeLen 0 value
  | .negInt value => encodeTypeLen 1 (UInt64.ofNat (-1 - value.val).toNat)
  | .float bits => 0xfb :: putU64 bits.val

/-- Shorter keys come first; keys of one length are compared byte by byte. -/
def keyOrder (key : Bytes) : List ℕ := key.length :: key.map UInt8.toNat

mutual

def encodeValue : Json → Bytes
  | .null => [0xf6]
  | .bool false => [0xf4]
  | .bool true => [0xf5]
  | .number number => encodeNumber number
  | .string text => encodeText text
  | .array items => encodeTypeLen 4 (UInt64.ofNat items.length) ++ encodeItems items
  | .object entries =>
    let sorted := sortBy (fun entry => keyOrder entry.1) (encodeEntries entries)
    encodeTypeLen 5 (UInt64.ofNat sorted.length) ++ sorted.flatMap (fun entry => entry.1 ++ entry.2)

def encodeItems : List Json → Bytes
  | [] => []
  | item :: items => encodeValue item ++ encodeItems items

def encodeEntries : List (String × Json) → List (Bytes × Bytes)
  | [] => []
  | (key, value) :: entries => (encodeText key, encodeValue value) :: encodeEntries entries

end

def encode (message : Json) : Bytes := encodeValue message

/-! ## Errors -/

inductive SizedKind where
  | byteString | textString | array | map
  deriving DecidableEq, Repr

inductive CborError where
  | payloadTooLarge (actual maximum : ℕ)
  | trailingBytes (remaining : ℕ)
  | negativeOutOfRange
  | invalidUtf8
  | keyNotText
  | unsupportedMajor (major : UInt8)
  | depthLimit (depth maximum : ℕ)
  | counterOverflow
  | itemLimit (maximum : ℕ)
  | declaredLength (kind : SizedKind) (len maximum : ℕ)
  | itemBudget (kind : SizedKind) (len remaining : ℕ)
  | nonFiniteF32
  | nonFiniteF64
  | unsupportedSimple (additional : UInt8)
  | indefiniteLength
  | invalidLength (additional : UInt8)
  | unexpectedEnd
  deriving DecidableEq, Repr

/-! ## Decoding -/

structure DecodeLimits where
  (maxBytes maxItems maxDepth : UInt64)

/-- The part of the payload after the offset, and the items noted so far. -/
@[ext] structure CborDecoder where
  rest : Bytes
  decodedItems : ℕ

abbrev Decoder (α : Type) := StateT CborDecoder (Except CborError) α

def check (x : Except CborError Unit) : Decoder Unit := fun decoder => x.map (fun u => (u, decoder))

def fail {α : Type} (e : CborError) : Decoder α := fun _ => .error e

def readBytes (len : ℕ) : Decoder Bytes := fun decoder =>
  if decoder.rest.length < len then .error .unexpectedEnd
  else .ok (decoder.rest.take len, { decoder with rest := decoder.rest.drop len })

def readU8 : Decoder UInt8 := fun decoder =>
  match decoder.rest with
  | [] => .error .unexpectedEnd
  | byte :: rest => .ok (byte, { decoder with rest })

def readLen (additional : UInt8) : Decoder UInt64 :=
  if additional ≤ 23 then pure additional.toUInt64
  else if additional = 24 then UInt8.toUInt64 <$> readU8
  else if additional = 25 then (fun bytes => (getU16 bytes).toUInt64) <$> readBytes 2
  else if additional = 26 then (fun bytes => (getU32 bytes).toUInt64) <$> readBytes 4
  else if additional = 27 then getU64 <$> readBytes 8
  else if additional = 31 then fail .indefiniteLength
  else fail (.invalidLength additional)

section Bounded

variable (limits : Option DecodeLimits)

def countItems (count : ℕ) : Decoder Unit := fun decoder =>
  match limits with
  | none => .ok ((), decoder)
  | some limits => do
    let total : ℕ := decoder.decodedItems + count
    ensure (total < 2 ^ 64) .counterOverflow
    ensure (total ≤ limits.maxItems.toNat) (.itemLimit limits.maxItems.toNat)
    return ((), { decoder with decodedItems := total })

def reserveEmbeddedItems (count : ℕ) : Decoder Unit := countItems limits count

def noteItem (depth : ℕ) : Decoder Unit := do
  check (limits.toList.forM fun limits =>
    ensure (depth ≤ limits.maxDepth.toNat) (.depthLimit depth limits.maxDepth.toNat))
  countItems limits 1

variable (additional : UInt8)

def readSizedLen (kind : SizedKind) (minimumBytesPerItem : ℕ) : Decoder ℕ := do
  let raw ← readLen additional
  let len : ℕ := raw.toNat
  let decoder ← get
  let maximumFromInput : ℕ := decoder.rest.length / minimumBytesPerItem
  check (ensure (len ≤ maximumFromInput) (.declaredLength kind len maximumFromInput))
  check (limits.toList.forM fun limits =>
    let remainingItems : ℕ := limits.maxItems.toNat - decoder.decodedItems
    ensure (len ≤ remainingItems) (.itemBudget kind len remainingItems))
  return len

def decodeText : Decoder Json := do
  let len ← readSizedLen limits additional .textString 1
  let bytes ← readBytes len
  match fromUtf8 bytes with
  | some text => pure (.string text)
  | none => fail .invalidUtf8

def byteItem (byte : UInt8) : Json := .number (.posInt byte.toUInt64)

/-- A byte string is lifted to an array of numbers, which count as items. -/
def decodeByteString : Decoder Json := do
  let len ← readSizedLen limits additional .byteString 1
  reserveEmbeddedItems limits len
  let bytes ← readBytes len
  return .array (bytes.map byteItem)

def decodeNegative : Decoder Json := do
  let raw ← readLen additional
  match JsonNumber.fromI64 (-1 - raw.toNat) with
  | some number => pure (.number number)
  | none => fail .negativeOutOfRange

def decodeSimple : Decoder Json :=
  if additional = 20 then pure (.bool false)
  else if additional = 21 then pure (.bool true)
  else if additional = 22 then pure .null
  else if additional = 26 then do
    let bytes ← readBytes 4
    match JsonNumber.fromF64 (widenF32 (getU32 bytes)) with
    | some number => pure (.number number)
    | none => fail .nonFiniteF32
  else if additional = 27 then do
    let bytes ← readBytes 8
    match JsonNumber.fromF64 (getU64 bytes) with
    | some number => pure (.number number)
    | none => fail .nonFiniteF64
  else fail (.unsupportedSimple additional)

def decodeItems (item : Decoder Json) : ℕ → Decoder (List Json)
  | 0 => pure []
  | count + 1 => do
    let value ← item
    let items ← decodeItems item count
    return value :: items

/-- A repeated key keeps its place and takes the new value. -/
def insertEntry (key : String) (value : Json) : List (String × Json) → List (String × Json)
  | [] => [(key, value)]
  | (k, v) :: entries =>
    if k = key then (k, value) :: entries else (k, v) :: insertEntry key value entries

def keyText : Json → Decoder String
  | .string key => pure key
  | _ => fail .keyNotText

def decodeEntries (item : Decoder Json) : ℕ → List (String × Json) → Decoder (List (String × Json))
  | 0, map => pure map
  | count + 1, map => do
    let keyValue ← item
    let key ← keyText keyValue
    let value ← item
    decodeEntries item count (insertEntry key value map)

/-- What follows the initial byte; `item` decodes one nesting level further in. -/
def decodeBody (item : Decoder Json) (major additional : UInt8) : Decoder Json :=
  if major = 0 then (fun value => .number (.posInt value)) <$> readLen additional
  else if major = 1 then decodeNegative additional
  else if major = 2 then decodeByteString limits additional
  else if major = 3 then decodeText limits additional
  else if major = 4 then do
    let len ← readSizedLen limits additional .array 1
    Json.array <$> decodeItems item len
  else if major = 5 then do
    let len ← readSizedLen limits additional .map 2
    Json.object <$> decodeEntries item len []
  else if major = 7 then decodeSimple additional
  else fail (.unsupportedMajor major)

/-- Every nested item follows a byte, so when `fuel` has run out, nothing is left to read. -/
def decodeValueAtDepth : ℕ → ℕ → Decoder Json
  | 0, depth => do
    noteItem limits depth
    fail .unexpectedEnd
  | fuel + 1, depth => do
    noteItem limits depth
    let initial ← readU8
    decodeBody limits (decodeValueAtDepth fuel (depth + 1)) (initial >>> 5) (initial &&& 0x1f)

def decodePayload (payload : Bytes) : Except CborError Json := do
  let (value, decoder) ← decodeValueAtDepth limits payload.length 0 ⟨payload, 0⟩
  ensure (decoder.rest.length = 0) (.trailingBytes decoder.rest.length)
  return value

end Bounded

def decode (payload : Bytes) : Except CborError Json := decodePayload none payload

def decodeBounded (payload : Bytes) (limits : DecodeLimits) : Except CborError Json := do
  ensure (payload.length ≤ limits.maxBytes.toNat)
    (.payloadTooLarge payload.length limits.maxBytes.toNat)
  decodePayload (some limits) payload

end Ostadix.Cbor
