import Ostadix.OValue
import Ostadix.SortBy
import Ostadix.ValueRoundTrip

/-! Hosted values as portable values, and back for a renderer. -/

namespace Ostadix

open Wire ValueCodec

inductive HostedValueError where
  | authorityBearing (kind : String)
  | capsuleBound (kind : String)
  | effectful (kind : String)
  | unsupported (kind : String)
  | invalidPortable (error : PortableValueError)
  deriving DecidableEq, Repr

def HostedValueError.message : HostedValueError → String
  | .authorityBearing kind => s!"hosted {kind} carries authority and is not a portable OValue"
  | .capsuleBound kind =>
    s!"hosted {kind} is affinity-bound or referential and is not a portable OValue"
  | .effectful kind =>
    s!"hosted {kind} carries execution/effect semantics and is not a portable OValue"
  | .unsupported kind => s!"hosted {kind} needs an explicit portable extension adapter"
  | .invalidPortable error => error.message

namespace PortableOValue

/-! ## Checked constructors -/

def encodeOneNode (value : PortableOValue) : Check Bytes := do
  let encoded ← encodeCoreNode value 1 0
  return encoded.1

def validate (value : PortableOValue) : Check Unit := do
  let encoded ← value.encodeOneNode
  let total := ovalueWireHeaderBytes + encoded.length
  ensure (total ≤ maxOvalueRecordBytes.toNat) (.recordTooLarge total maxOvalueRecordBytes.toNat)

def checked (value : PortableOValue) : Check PortableOValue := do
  value.validate
  return value

def sortFields (fields : List (String × PortableOValue)) : List (String × PortableOValue) :=
  sortBy (fun field => textOrder field.1) fields

def ofFields (fields : List (String × PortableOValue)) : Check PortableOValue := do
  validateEntryCount .record fields.length maxOvalueMapEntries
  fields.forM fun field => do
    validateRecordKey (utf8 field.1)
    field.2.validate
  let fields := sortFields fields
  ensure (anyAdjacent (fun left right => left.1 = right.1) fields = false) .duplicateRecordKey
  checked (.record fields)

def keyEntry (entry : PortableOValue × PortableOValue) :
    Check (Bytes × PortableOValue × PortableOValue) := do
  ensure (isScalarMapKey entry.1) .nonScalarMapKey
  entry.1.validate
  entry.2.validate
  return (← entry.1.encodeOneNode, entry.1, entry.2)

def ofEntries (entries : List (PortableOValue × PortableOValue)) : Check PortableOValue := do
  validateEntryCount .map entries.length maxOvalueMapEntries
  let keyed ← entries.mapM keyEntry
  let keyed := sortBy (fun entry => byteOrder entry.1) keyed
  ensure (anyAdjacent (fun left right => left.1 = right.1) keyed = false) .duplicateMapKey
  checked (.map (keyed.map (·.2)))

/-! ## From hosted values -/

def hosted {α : Type} (check : Check α) : Except HostedValueError α :=
  check.mapError .invalidPortable

mutual

def tryFrom : OValue → Except HostedValueError PortableOValue
  | .null => .ok .null
  | .bool v => .ok (.bool v)
  | .number (.int v) => hosted (checked (.number (.int v)))
  | .number (.binaryFloat format bits) => hosted (checked (.number (.binaryFloat format bits)))
  | .number (.rational ..) => .error (.unsupported "number:rational")
  | .number (.decimal ..) => .error (.unsupported "number:decimal")
  | .number (.bigFloat ..) => .error (.unsupported "number:big_float")
  | .number (.complex ..) => .error (.unsupported "number:complex")
  | .text v => hosted (checked (.text v))
  | .char scalar => .ok (.char scalar)
  | .bytes v => hosted (checked (.bytes v))
  | .list v => do hosted (checked (.list (← tryFromItems v)))
  | .object fields => do hosted (ofFields (← tryFromFields fields))
  | .map v => do hosted (ofFields (← tryFromFields v))
  | .entriesMap entries => do hosted (ofEntries (← tryFromEntries entries))
  | .capability .. => .error (.authorityBearing "capability")
  | .native .. => .error (.capsuleBound "native")
  | .system _ => .error (.capsuleBound "system")
  | .storePath _ => .error (.capsuleBound "store_path")
  | .derivation .. => .error (.capsuleBound "derivation")
  | .scope _ => .error (.effectful "scope")
  | .request .. => .error (.effectful "request")
  | .thunk .. => .error (.effectful "thunk")
  | .group .. => .error (.effectful "group")
  | .expr _ => .error (.effectful "expr")
  | .nixExpr .. => .error (.effectful "nix_expr")
  | .error _ => .error (.effectful "error")
  | .html _ => .error (.unsupported "html")
  | .blob .. => .error (.unsupported "blob")
  | .seq .. => .error (.unsupported "seq")
  | .set .. => .error (.unsupported "set")
  | .symbol _ => .error (.unsupported "symbol")
  | .keyword _ => .error (.unsupported "keyword")
  | .snapshot .. => .error (.unsupported "snapshot")
  | .graph .. => .error (.unsupported "graph")

def tryFromItems : List OValue → Except HostedValueError (List PortableOValue)
  | [] => .ok []
  | item :: items => return (← tryFrom item) :: (← tryFromItems items)

def tryFromFields : List (String × OValue) →
    Except HostedValueError (List (String × PortableOValue))
  | [] => .ok []
  | (key, value) :: fields => return (key, ← tryFrom value) :: (← tryFromFields fields)

def tryFromEntries : List (OValue × OValue) →
    Except HostedValueError (List (PortableOValue × PortableOValue))
  | [] => .ok []
  | (key, value) :: entries =>
    return (← tryFrom key, ← tryFrom value) :: (← tryFromEntries entries)

end

/-! ## Back to hosted values -/

/-- Why a renderer refuses an input. -/
inductive LowerError where
  | repeatedKey
  | kindOutsideAllowlist
  deriving DecidableEq, Repr

def LowerError.message : LowerError → String
  | .repeatedKey => "portable record repeated a key after canonical decode"
  | .kindOutsideAllowlist => "portable value kind is outside the trusted renderer allowlist"

mutual

def lowerRendererValue : PortableOValue → Except LowerError OValue
  | .null => .ok .null
  | .bool v => .ok (.bool v)
  | .number v => .ok (.number v)
  | .text v => .ok (.text v)
  | .char scalar => .ok (.char scalar)
  | .list values => return .list (← lowerItems values)
  | .record fields => do
    let output ← lowerFields fields
    ensure (output.map (·.1)).Nodup .repeatedKey
    return .object (sortBy (fun field => textOrder field.1) output)
  | .map entries => return .entriesMap (← lowerEntries entries)
  | .bytes _ | .tagged .. | .codeRef _ | .objectRef _ | .error _ => .error .kindOutsideAllowlist

def lowerItems : List PortableOValue → Except LowerError (List OValue)
  | [] => .ok []
  | value :: values => return (← lowerRendererValue value) :: (← lowerItems values)

def lowerFields : List (String × PortableOValue) → Except LowerError (List (String × OValue))
  | [] => .ok []
  | (key, value) :: fields => return (key, ← lowerRendererValue value) :: (← lowerFields fields)

def lowerEntries : List (PortableOValue × PortableOValue) →
    Except LowerError (List (OValue × OValue))
  | [] => .ok []
  | (key, value) :: entries =>
    return (← lowerRendererValue key, ← lowerRendererValue value) :: (← lowerEntries entries)

end

end PortableOValue

end Ostadix
