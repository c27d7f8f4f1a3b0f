import Ostadix.OcoreNames

/-! The values of constants and of the initializers of statics. -/

namespace Ostadix.Ocore

namespace HirProgram

/-- The value of a path: a constant of the expected type, or a variant of it without payload. -/
def constPath (program : HirProgram) (scope : ModuleScope) (path : Path) (expected : Ty) :
    Outcome HirConstValue :=
  let name := program.resolvePath scope path
  match program.symbol? name with
  | some (.const id) => do
    let const ← nth program.consts id
    require (const.ty = expected) "constant type mismatch"
    return const.value
  | _ =>
    match program.resolveEnumVariant name with
    | some (enumId, variant) => do
      let definition ← nth program.types.enums enumId
      let variantDef ← nth definition.variants variant
      require (expected = .enum enumId ∧ variantDef.payload = [])
        "enum constant does not match expected type"
      return .enum enumId variant []
    | none => error "initializer is not a compile-time constant"

def notConstant (program : HirProgram) (expected : Ty) : Outcome HirConstValue :=
  error s!"initializer is not a `{program.types.name expected}` compile-time constant"

mutual

/-- The value of an initializer. Constants without a value yet have the value zero. -/
def constValue (program : HirProgram) (scope : ModuleScope) : Expr → Ty → Outcome HirConstValue
  | .integer value, expected =>
    if expected.isInteger then .ok (.integer value) else program.notConstant expected
  | .byte value, expected =>
    if expected = .u8 then .ok (.integer value.toUInt64) else program.notConstant expected
  | .bool value, expected =>
    if expected = .bool then .ok (.bool value) else program.notConstant expected
  | .byteString bytes, expected =>
    if expected = .array .u8 (.ofNat bytes.length) then .ok (.bytes bytes)
    else program.notConstant expected
  | .array values, expected =>
    match expected with
    | .array element len => do
      if len = .ofNat values.length then
        return .array (← constValues program scope values element)
      else
        program.notConstant expected
    | _ => program.notConstant expected
  | .arrayRepeat value len, expected =>
    match expected with
    | .array element expectedLen => do
      if len = expectedLen then
        return .repeat (← constValue program scope value element) len
      else
        program.notConstant expected
    | _ => program.notConstant expected
  | .struct path fields, expected =>
    match expected with
    | .struct id => do
      let definition ← nth program.types.structs id
      let name := program.resolvePath scope path
      require (name = definition.name)
        s!"expected `{pathString definition.name}`, found `{pathString name}`"
      require (fields.length = definition.fields.length)
        s!"initializer for `{pathString definition.name}` must specify every field"
      -- The fields are evaluated in the order of the definition.
      let values ← definition.fields.mapM fun field => constField program scope field fields
      return .struct id values
    | _ => program.notConstant expected
  | .path path, expected => program.constPath scope path expected
  | _, expected => program.notConstant expected

def constValues (program : HirProgram) (scope : ModuleScope) :
    List Expr → Ty → Outcome (List HirConstValue)
  | [], _ => .ok []
  | value :: values, element => do
    let value ← constValue program scope value element
    return value :: (← constValues program scope values element)

def constField (program : HirProgram) (scope : ModuleScope) (field : StructField) :
    List (String × Expr) → Outcome HirConstValue
  | [] => error s!"missing field `{field.name}`"
  | (name, value) :: fields =>
    if name = field.name then constValue program scope value field.ty
    else constField program scope field fields

end

end HirProgram

end Ostadix.Ocore
