import Ostadix.Basic
import Ostadix.OcoreHir

/-! How names in O-core modules are resolved: paths, imports, types and enum variants. -/

namespace Ostadix.Ocore

structure ModuleScope where
  name : QualifiedName
  imports : List (String × QualifiedName) := []

def pathString (name : QualifiedName) : String := "::".intercalate name

def qualify (module : QualifiedName) (name : String) : QualifiedName := module ++ [name]

def rsplitOnce : QualifiedName → Option (QualifiedName × String)
  | [] | [_] => none
  | [parent, last] => some ([parent], last)
  | first :: rest => (rsplitOnce rest).map fun (parent, last) => (first :: parent, last)

def error {α : Type} (message : String) : Outcome α := .error (.diagnostic message)

@[simp] lemma error_ne_ok {α : Type} (message : String) (a : α) : error message ≠ .ok a := nofun

def require (c : Prop) [Decidable c] (message : String) : Outcome Unit :=
  ensure c (.diagnostic message)

@[simp] lemma require_eq_ok {c : Prop} [Decidable c] {message : String} {u : Unit} :
    require c message = .ok u ↔ c := ensure_eq_ok

/-! ## Names of types in diagnostics -/

namespace TypeContext

def abiName : Abi → String
  | .ocore => "OCore"
  | .sysV64 => "SysV64"
  | .interrupt => "Interrupt"

mutual

def name (types : TypeContext) : Ty → String
  | .bool => "bool"
  | .int signed width => (if signed then "i" else "u") ++ toString width.bits
  | .usize => "usize"
  | .isize => "isize"
  | .float .f32 => "f32"
  | .float .f64 => "f64"
  | .void => "void"
  | .never => "never"
  | .pointer isMut pointee => (if isMut then "*mut " else "*const ") ++ types.name pointee
  | .array element len => "[" ++ types.name element ++ "; " ++ toString len ++ "]"
  | .struct id => pathString ((types.structs[id]?.map (·.name)).getD [])
  | .enum id => pathString ((types.enums[id]?.map (·.name)).getD [])
  | .function params result abi =>
    "extern " ++ abiName abi ++ " fn(" ++ ", ".intercalate (types.names params) ++ ") -> " ++
      types.name result

def names (types : TypeContext) : List Ty → List String
  | [] => []
  | ty :: tys => types.name ty :: types.names tys

end

end TypeContext

/-! ## Paths -/

namespace HirProgram

def symbol? (program : HirProgram) (name : QualifiedName) : Option Symbol :=
  program.symbols.lookup name

def pathIsKnown (program : HirProgram) (path : QualifiedName) : Bool :=
  (program.symbol? path).isSome ||
    match rsplitOnce path with
    | none => false
    | some (parent, _) =>
      match program.symbol? parent with
      | some (.type _) => true
      | _ => false

def resolvePath (program : HirProgram) (scope : ModuleScope) (path : Path) : QualifiedName :=
  match path.rest, scope.imports.lookup path.first with
  | rest, some target => target ++ rest
  | [], none => qualify scope.name path.first
  | _, none =>
    if program.pathIsKnown path.segments then path.segments else scope.name ++ path.segments

def resolveEnumVariant (program : HirProgram) (name : QualifiedName) : Option (ℕ × ℕ) := do
  let (enumName, variantName) ← rsplitOnce name
  let .type (.enum enumId) ← program.symbol? enumName | none
  let definition ← program.types.enums[enumId]?
  let variant ← definition.variants.findIdx? (·.name = variantName)
  return (enumId, variant)

/-! ## Types -/

mutual

def resolveType (program : HirProgram) (scope : ModuleScope) : TypeExpr → Outcome Ty
  | .named path =>
    match path.rest, Ty.primitive path.first with
    | [], some ty => .ok ty
    | _, _ =>
      let name := program.resolvePath scope path
      match program.symbol? name with
      | some (.type ty) => .ok ty
      | _ => error s!"unknown type `{pathString name}`"
  | .pointer isMut pointee => do return .pointer isMut (← program.resolveType scope pointee)
  | .array element len => do return .array (← program.resolveType scope element) len
  | .fnPointer params result => do
    let params ← program.resolveTypes scope params
    return .function params (← program.resolveType scope result) .ocore

def resolveTypes (program : HirProgram) (scope : ModuleScope) : List TypeExpr → Outcome (List Ty)
  | [] => .ok []
  | ty :: tys => do
    let ty ← program.resolveType scope ty
    return ty :: (← program.resolveTypes scope tys)

end

end HirProgram

end Ostadix.Ocore
