import Ostadix.OValue
import Ostadix.SortBy

/-! The canonical bytes of a value: every field behind a tag or a length. -/

namespace Ostadix

open Function Wire

/-! ## Names -/

def DecimalSpecial.name : DecimalSpecial → String
  | .nan => "nan"
  | .posInf => "pos_inf"
  | .negInf => "neg_inf"
  | .posZero => "pos_zero"
  | .negZero => "neg_zero"

lemma DecimalSpecial.name_injective : Injective DecimalSpecial.name := by
  intro a b h
  cases a <;> cases b <;> first | rfl | simp [name] at h

def FloatFormat.name : FloatFormat → String
  | .f32 => "f32"
  | .f64 => "f64"

lemma FloatFormat.name_injective : Injective FloatFormat.name := by
  intro a b h
  cases a <;> cases b <;> first | rfl | simp [name] at h

def FloatSpecial.name : FloatSpecial → String
  | .nan => "nan"
  | .posInf => "pos_inf"
  | .negInf => "neg_inf"
  | .posZero => "pos_zero"
  | .negZero => "neg_zero"

lemma FloatSpecial.name_injective : Injective FloatSpecial.name := by
  intro a b h
  cases a <;> cases b <;> first | rfl | simp [name] at h

def SeqKind.name : SeqKind → String
  | .list => "list"
  | .tuple => "tuple"
  | .vector => "vector"

lemma SeqKind.name_injective : Injective SeqKind.name := by
  intro a b h
  cases a <;> cases b <;> first | rfl | simp [name] at h

def SetKind.name : SetKind → String
  | .ordered => "ordered"
  | .unordered => "unordered"

lemma SetKind.name_injective : Injective SetKind.name := by
  intro a b h
  cases a <;> cases b <;> first | rfl | simp [name] at h

def GroupMode.name : GroupMode → String
  | .batch => "batch"
  | .all => "all"
  | .any => "any"
  | .race => "race"

lemma GroupMode.name_injective : Injective GroupMode.name := by
  intro a b h
  cases a <;> cases b <;> first | rfl | simp [name] at h

def CapabilityKind.name : CapabilityKind → String
  | .file => "file"
  | .memoryRegion => "memory_region"
  | .device => "device"
  | .clock => "clock"
  | .networkEndpoint => "network_endpoint"
  | .process => "process"
  | .service => "service"
  | .systemActivation => "system_activation"
  | .backendExecution => "backend_execution"

lemma CapabilityKind.name_injective : Injective CapabilityKind.name := by
  intro a b h
  cases a <;> cases b <;> first | rfl | simp [name] at h

def BackendAuthority.name : BackendAuthority → String
  | .fileRead => "fs_read"
  | .fileWrite => "fs_write"
  | .network => "network"
  | .process => "process"

lemma BackendAuthority.name_injective : Injective BackendAuthority.name := by
  intro a b h
  cases a <;> cases b <;> first | rfl | simp [name] at h

def SnapshotKind.name : SnapshotKind → String
  | .system => "system"
  | .service => "service"
  | .filesystem => "filesystem"
  | .device => "device"

lemma SnapshotKind.name_injective : Injective SnapshotKind.name := by
  intro a b h
  cases a <;> cases b <;> first | rfl | simp [name] at h

def NativeCodecSafety.name : NativeCodecSafety → String
  | .dataOnly => "data_only"
  | .sourceBacked => "source_backed"
  | .unsafeOpaque => "unsafe_opaque"
  | .liveHandle => "live_handle"

lemma NativeCodecSafety.name_injective : Injective NativeCodecSafety.name := by
  intro a b h
  cases a <;> cases b <;> first | rfl | simp [name] at h

def NativeBoundary.name : NativeBoundary → String
  | .pure => "pure"
  | .referential => "referential"
  | .effectful => "effectful"

lemma NativeBoundary.name_injective : Injective NativeBoundary.name := by
  intro a b h
  cases a <;> cases b <;> first | rfl | simp [name] at h

def RehydratePolicy.name : RehydratePolicy → String
  | .portable => "portable"
  | .sameBackend => "same_backend"
  | .sameProcess => "same_process"
  | .never => "never"

lemma RehydratePolicy.name_injective : Injective RehydratePolicy.name := by
  intro a b h
  cases a <;> cases b <;> first | rfl | simp [name] at h

/-! ## Base64 -/

namespace Base64

def symbol (c : Char) : Option ℕ :=
  if 'A' ≤ c ∧ c ≤ 'Z' then some (c.toNat - 65)
  else if 'a' ≤ c ∧ c ≤ 'z' then some (c.toNat - 71)
  else if '0' ≤ c ∧ c ≤ '9' then some (c.toNat + 4)
  else if c = '+' then some 62
  else if c = '/' then some 63
  else none

/-- The last four characters may be padded; the bits that are left over have to be zero. -/
def decodeLast (a b : ℕ) (c d : Char) : Option Bytes :=
  if c = '=' ∧ d = '=' then
    if b % 16 = 0 then some [UInt8.ofNat (a * 4 + b / 16)] else none
  else do
    let c ← symbol c
    if d = '=' then
      if c % 4 = 0 then some [UInt8.ofNat (a * 4 + b / 16), UInt8.ofNat (b % 16 * 16 + c / 4)]
      else none
    else do
      let d ← symbol d
      some [UInt8.ofNat (a * 4 + b / 16), UInt8.ofNat (b % 16 * 16 + c / 4),
        UInt8.ofNat (c % 4 * 64 + d)]

def decodeChars : List Char → Option Bytes
  | [] => some []
  | a :: b :: c :: d :: rest => do
    let a ← symbol a
    let b ← symbol b
    if rest = [] then decodeLast a b c d
    else do
      let c ← symbol c
      let d ← symbol d
      let bytes ← decodeChars rest
      some (UInt8.ofNat (a * 4 + b / 16) :: UInt8.ofNat (b % 16 * 16 + c / 4) ::
        UInt8.ofNat (c % 4 * 64 + d) :: bytes)
  | _ => none

/-- The standard engine of the crate `base64`: its alphabet, with canonical padding. -/
def decode (s : String) : Option Bytes := decodeChars s.toList

end Base64

/-! ## Fields -/

namespace Canonical

def u64 (value : UInt64) : Bytes := putU64 value

def i64 (value : Int64) : Bytes := putU64 value.toUInt64

def sized (bytes : Bytes) : Bytes := u64 (UInt64.ofNat bytes.length) ++ bytes

def str (s : String) : Bytes := sized (utf8 s)

def tag (name : String) : Bytes := str name

def bool (value : Bool) : Bytes := [if value then 1 else 0]

def bigint (value : ℤ) : Bytes := str value.repr

def option {α : Type} (field : α → Bytes) : Option α → Bytes
  | some value => tag "some" ++ field value
  | none => tag "none"

def counted {α : Type} (item : α → Bytes) (items : List α) : Bytes :=
  u64 (UInt64.ofNat items.length) ++ items.flatMap item

/-- Pairs are compared by the first component, then the second; an end comes before every byte. -/
def pairOrder (pair : Bytes × Bytes) : List ℕ :=
  (byteOrder pair.1).map (· + 1) ++ 0 :: byteOrder pair.2

end Canonical

open Canonical

/-! ## Values -/

def ONumber.tagName : ONumber → String
  | .int _ => "number:int"
  | .rational _ _ => "number:rational"
  | .decimal _ _ _ => "number:decimal"
  | .binaryFloat _ _ => "number:binary_float"
  | .bigFloat _ _ _ _ => "number:big_float"
  | .complex _ _ => "number:complex"

def ONumber.encodeFields : ONumber → Bytes
  | .int v => bigint v
  | .rational num den => bigint num ++ bigint den
  | .decimal coeff exp10 special =>
    bigint coeff ++ (i64 exp10 ++ option str (special.map DecimalSpecial.name))
  | .binaryFloat format bits => tag format.name ++ sized bits
  | .bigFloat mantissa exp2 precision special =>
    bigint mantissa ++ (i64 exp2 ++ (option u64 precision ++
      option str (special.map FloatSpecial.name)))
  | .complex re im =>
    (tag re.tagName ++ re.encodeFields) ++ (tag im.tagName ++ im.encodeFields)

def RequestKind.tagName : RequestKind → String
  | .instantiate => "request_kind:instantiate"
  | .realise => "request_kind:realise"
  | .eval _ _ _ _ _ => "request_kind:eval"
  | .activate _ _ _ => "request_kind:activate"

def RequestKind.encodeFields : RequestKind → Bytes
  | .instantiate => []
  | .realise => []
  | .eval lang envId cacheable authority permissions =>
    str lang ++ (u64 envId.toUInt64 ++ (bool cacheable ++ (option str authority ++
      counted (fun permission => tag permission.name) permissions)))
  | .activate profile dryRun authority => str profile ++ (bool dryRun ++ option str authority)

def RequestKind.encodeCanonical (kind : RequestKind) : Bytes :=
  tag kind.tagName ++ kind.encodeFields

def OBytes.encodeCanonical (payload : OBytes) : Bytes :=
  option str payload.mediaType ++ sized payload.bytes

def ONative.encodeFields (v : ONative) : Bytes :=
  str v.lang ++ (option str v.implementation ++ (option str v.version ++ (str v.typeName ++
    (option str v.identity.stable ++ (option str v.identity.live ++ (str v.codec ++
      (option OBytes.encodeCanonical v.payload ++ (tag v.boundary.name ++ (tag v.safety.name ++
        counted (fun kind => tag kind.name)
          (sortBy (fun kind => textOrder kind.name) v.capabilities))))))))))

def encodeBlob (v mime : String) : Bytes :=
  str mime ++ match Base64.decode v with
    | some bytes => tag "base64:decoded" ++ sized bytes
    | none => tag "base64:invalid" ++ str v

def encodeField (field : String × Bytes) : Bytes := str field.1 ++ field.2

/-- A hash map is written in the order of its keys. -/
def encodeHashMap (fields : List (String × Bytes)) : Bytes :=
  counted encodeField (sortBy (fun field => textOrder field.1) fields)

namespace OValue

def tagName : OValue → String
  | .null => "null"
  | .bool _ => "bool"
  | .number v => v.tagName
  | .text _ => "text"
  | .char _ => "char"
  | .html _ => "html"
  | .storePath _ => "store_path"
  | .expr _ => "expr"
  | .list _ => "list"
  | .map _ => "map"
  | .seq _ _ => "seq"
  | .object _ => "object"
  | .entriesMap _ => "entries_map"
  | .set _ _ => "set"
  | .symbol _ => "symbol"
  | .keyword _ => "keyword"
  | .scope _ => "scope"
  | .blob _ _ => "blob"
  | .bytes _ => "bytes"
  | .graph _ _ => "graph"
  | .native _ _ => "native"
  | .nixExpr _ _ _ => "nix_expr"
  | .derivation _ _ _ => "derivation"
  | .request _ _ _ => "request"
  | .system _ => "system"
  | .capability _ _ _ => "capability"
  | .snapshot _ _ _ => "snapshot"
  | .thunk _ _ _ => "thunk"
  | .group _ _ _ => "group"
  | .error _ => "error"

mutual

def encodePayload : OValue → Bytes
  | .null => []
  | .bool v => Canonical.bool v
  | .number v => v.encodeFields
  | .text v => str v.utf8 ++ option str v.encoding
  | .char scalar => u64 scalar.val.toUInt64
  | .html v => str v
  | .storePath path => str path
  | .expr src => str src
  | .list v => counted id (encodeItems v)
  | .map v => encodeHashMap (encodeFields v)
  | .seq kind items => tag kind.name ++ counted id (encodeItems items)
  | .object fields => counted encodeField (encodeFields fields)
  | .entriesMap entries =>
    counted (fun e => sized e.1 ++ sized e.2) (sortBy pairOrder (encodeEntries entries))
  | .set kind items =>
    tag kind.name ++ counted sized (match kind with
      | .ordered => encodeItems items
      | .unordered => sortBy byteOrder (encodeItems items))
  | .symbol v => option str v.ns ++ str v.name
  | .keyword v => option str v.ns ++ str v.name
  | .scope bindings => encodeHashMap (encodeFields bindings)
  | .blob v mime => encodeBlob v mime
  | .bytes v => v.encodeCanonical
  | .graph root nodes => u64 root ++ counted id (encodeNodes nodes)
  | .native v metadata =>
    v.encodeFields ++ (counted encodeField (encodeFields metadata) ++ tag v.rehydrate.name)
  | .nixExpr body deps fingerprint =>
    str body ++ (counted id (encodeItems deps) ++ str fingerprint)
  | .derivation drvPath outputs deps =>
    str drvPath ++ (counted str outputs ++ counted id (encodeItems deps))
  | .request kind source fingerprint =>
    kind.encodeCanonical ++
      ((tag "ovalue" ++ (tag source.tagName ++ encodePayload source)) ++ str fingerprint)
  | .system profilePath => str profilePath
  | .capability kind identity metadata =>
    tag kind.name ++ (str identity ++ encodeHashMap (encodeFields metadata))
  | .snapshot kind identity state =>
    tag kind.name ++ (str identity ++ encodeHashMap (encodeFields state))
  | .thunk body deps fingerprint =>
    str body ++ (counted id (encodeItems deps) ++ str fingerprint)
  | .group mode members fingerprint =>
    tag mode.name ++ (counted id (encodeItems members) ++ str fingerprint)
  | .error msg => str msg

def encodeItems : List OValue → List Bytes
  | [] => []
  | v :: items => (tag "ovalue" ++ (tag v.tagName ++ encodePayload v)) :: encodeItems items

def encodeFields : List (String × OValue) → List (String × Bytes)
  | [] => []
  | (key, v) :: fields =>
    (key, tag "ovalue" ++ (tag v.tagName ++ encodePayload v)) :: encodeFields fields

def encodeEntries : List (OValue × OValue) → List (Bytes × Bytes)
  | [] => []
  | (key, v) :: entries =>
    (tag "ovalue" ++ (tag key.tagName ++ encodePayload key),
      tag "ovalue" ++ (tag v.tagName ++ encodePayload v)) :: encodeEntries entries

def encodeNodes : List (GraphNode OValue) → List Bytes
  | [] => []
  | .value v :: nodes =>
    (tag "graph_node:value" ++ (tag "ovalue" ++ (tag v.tagName ++ encodePayload v))) ::
      encodeNodes nodes
  | .ref target :: nodes => (tag "graph_node:ref" ++ u64 target) :: encodeNodes nodes

end

def encodeCanonical (v : OValue) : Bytes := tag "ovalue" ++ (tag v.tagName ++ v.encodePayload)

def canonicalBytes (v : OValue) : Bytes := encodeCanonical v

def encodeNode : GraphNode OValue → Bytes
  | .value v => tag "graph_node:value" ++ v.encodeCanonical
  | .ref target => tag "graph_node:ref" ++ u64 target

lemma encodeItems_eq (items : List OValue) : encodeItems items = items.map encodeCanonical := by
  induction items with
  | nil => rfl
  | cons v items ih =>
    rw [encodeItems, ih, List.map_cons]
    rfl

lemma encodeFields_eq (fields : List (String × OValue)) :
    encodeFields fields = fields.map fun e => (e.1, e.2.encodeCanonical) := by
  induction fields with
  | nil => rfl
  | cons e fields ih =>
    rw [encodeFields, ih, List.map_cons]
    rfl

lemma encodeEntries_eq (entries : List (OValue × OValue)) :
    encodeEntries entries = entries.map fun e => (e.1.encodeCanonical, e.2.encodeCanonical) := by
  induction entries with
  | nil => rfl
  | cons e entries ih =>
    rw [encodeEntries, ih, List.map_cons]
    rfl

lemma encodeNodes_eq (nodes : List (GraphNode OValue)) :
    encodeNodes nodes = nodes.map encodeNode := by
  induction nodes with
  | nil => rfl
  | cons n nodes ih => cases n <;> rw [encodeNodes, ih, List.map_cons] <;> rfl

end OValue

end Ostadix
