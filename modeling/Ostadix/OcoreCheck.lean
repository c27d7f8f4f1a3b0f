import Ostadix.OcoreBody
import Ostadix.OcoreConst
import Ostadix.OcoreLayout

/-! The checker of whole programs. -/

namespace Ostadix.Ocore

/-! ## Attributes -/

def noArgs (attr : Attribute) (out : ItemAttrs) : Outcome ItemAttrs := do
  require attr.args.isEmpty s!"@{attr.name} takes no arguments"
  return out

def isPowerOfTwo (value : UInt64) : Bool := value ≠ 0 && value &&& (value - 1) = 0

def parseAttr (out : ItemAttrs) (attr : Attribute) : Outcome ItemAttrs :=
  match attr.name with
  | "export" => noArgs attr { out with exported := true }
  | "no_mangle" => noArgs attr { out with noMangle := true }
  | "used" => noArgs attr { out with used := true }
  | "packed" => noArgs attr { out with packed := true }
  | "interrupt" => noArgs attr { out with interrupt := true }
  | "naked" => noArgs attr { out with naked := true }
  | "unsafe_linkage" => noArgs attr { out with unsafeLinkage := true }
  | "link_section" =>
    match attr.args with
    | [.string section_] => do
      require (section_ ≠ "") "@link_section requires one nonempty string"
      return { out with linkSection := some section_ }
    | _ => error "@link_section requires one nonempty string"
  | "align" =>
    match attr.args with
    | [.integer value] => do
      require (isPowerOfTwo value ∧ value ≤ 4096) "@align requires a power of two <= 4096"
      return { out with align := some value }
    | _ => error "@align requires a power of two <= 4096"
  | other => error s!"unknown attribute `@{other}`"

/-- The attributes of an item, none given twice. -/
def parseAttrs (attrs : List Attribute) : Outcome ItemAttrs :=
  let rec go : List Attribute → List String → ItemAttrs → Outcome ItemAttrs
    | [], _, out => .ok out
    | attr :: attrs, seen, out => do
      require (attr.name ∉ seen) s!"duplicate attribute `@{attr.name}`"
      go attrs (attr.name :: seen) (← parseAttr out attr)
  go attrs [] {}

def validateFunctionAttrs (attrs : ItemAttrs) (abi : Abi) (params : List Ty) (result : Ty)
    (isUnsafe : Bool) : Outcome Unit := do
  require (¬(attrs.packed || attrs.used || attrs.unsafeLinkage))
    "struct/static-only attribute applied to function"
  if attrs.interrupt then
    require isUnsafe "@interrupt function must be declared unsafe"
    require (params = [] ∧ result = .void) "@interrupt function must be `fn() -> void`"
    require (abi = .interrupt) "internal interrupt ABI mismatch"
  if attrs.naked then
    require isUnsafe "@naked function must be declared unsafe"
    require attrs.noMangle "@naked requires @no_mangle for explicit entry linkage"
  require (¬(abi = .sysV64 ∧ (params.any Ty.isFloat || result.isFloat)))
    "floating-point values are forbidden across the v0.1 sysv64 ABI"
  require (abi = .interrupt ∨
      params.all Ty.isScalar ∧ (result = .void ∨ result = .never ∨ result.isScalar))
    "aggregate values are forbidden across the current call ABI; pass pointers"

def itemSymbol (module : QualifiedName) (name : String) (attrs : ItemAttrs) (isExtern : Bool) :
    String :=
  if attrs.noMangle || isExtern then name
  else "_O_" ++ "__".intercalate module ++ "__" ++ name

/-! ## Modules -/

def buildImports : List UseDecl → List (String × QualifiedName) →
    Outcome (List (String × QualifiedName))
  | [], imports => .ok imports
  | use :: uses, imports => do
    let name := use.rename.getD (use.path.segments.getLast (List.cons_ne_nil _ _))
    require (imports.lookup name = none) s!"duplicate import name `{name}`"
    buildImports uses ((name, use.path.segments) :: imports)

def buildModuleScopes : List SourceModule → List QualifiedName → Outcome (List (ModuleScope × Item))
  | [], _ => .ok []
  | module :: modules, seen => do
    let name := module.name.segments
    require (name ∉ seen) s!"duplicate module `{pathString name}`"
    let imports ← buildImports module.uses []
    let rest ← buildModuleScopes modules (name :: seen)
    return module.items.map (⟨name, imports⟩, ·) ++ rest

/-! ## Passes -/

/-- The program that is built, and the definitions that later passes return to. -/
structure Checker where
  program : HirProgram := {}
  structDefs : List (ℕ × ModuleScope × List Attribute × StructDef) := []
  enumDefs : List (ℕ × ModuleScope × EnumDef) := []
  functionDefs : List (ModuleScope × Function) := []
  staticDefs : List (ModuleScope × StaticDef) := []
  constDefs : List (ModuleScope × ConstDef) := []

structure MapOrder where
  visit : {α : Type} → List α → List α
  perm : ∀ {α : Type} (l : List α), (visit l).Perm l

def MapOrder.declared : MapOrder := ⟨id, fun _ => .refl _⟩

namespace Checker

variable (c : Checker)

def ensureNameFree (name : QualifiedName) : Outcome Unit :=
  require (c.program.symbol? name = none) s!"duplicate item `{pathString name}`"

variable (program : HirProgram)

def addSymbol (name : QualifiedName) (symbol : Symbol) : HirProgram :=
  { program with symbols := (name, symbol) :: program.symbols }

def collectTypeName (entry : ModuleScope × Item) : Outcome Checker :=
  let (scope, item) := entry
  let types := c.program.types
  match item.kind with
  | .struct definition => do
    let name := qualify scope.name definition.name
    c.ensureNameFree name
    let id := types.structs.length
    let program :=
      { c.program with types := { types with structs := types.structs ++ [{ name }] } }
    return { c with
      program := addSymbol program name (.type (.struct id))
      structDefs := c.structDefs ++ [(id, scope, item.attrs, definition)] }
  | .enum definition => do
    let name := qualify scope.name definition.name
    c.ensureNameFree name
    let id := types.enums.length
    let program :=
      { c.program with types := { types with enums := types.enums ++ [{ name }] } }
    return { c with
      program := addSymbol program name (.type (.enum id))
      enumDefs := c.enumDefs ++ [(id, scope, definition)] }
  | _ => .ok c

def resolveFields (program : HirProgram) (scope : ModuleScope) :
    List FieldDef → List String → Outcome (List StructField)
  | [], _ => .ok []
  | field :: fields, seen => do
    require (field.name ∉ seen) s!"duplicate field `{field.name}`"
    let ty ← program.resolveType scope field.ty
    return { name := field.name, ty } ::
      (← resolveFields program scope fields (field.name :: seen))

def defineStruct (entry : ℕ × ModuleScope × List Attribute × StructDef) : Outcome Checker := do
  let (id, scope, attrs, definition) := entry
  let attrs ← parseAttrs attrs
  let fields ← resolveFields c.program scope definition.fields []
  let types := c.program.types
  let struct ← nth types.structs id
  let struct :=
    { struct with fields, packed := attrs.packed, requestedAlign := attrs.align }
  return { c with
    program := { c.program with types := { types with structs := types.structs.set id struct } } }

def resolveVariants (program : HirProgram) (scope : ModuleScope) :
    List VariantDef → List String → Outcome (List EnumVariant)
  | [], _ => .ok []
  | variant :: variants, seen => do
    require (variant.name ∉ seen) s!"duplicate enum variant `{variant.name}`"
    let payload ← program.resolveTypes scope variant.payload
    return { name := variant.name, payload } ::
      (← resolveVariants program scope variants (variant.name :: seen))

def defineEnum (entry : ℕ × ModuleScope × EnumDef) : Outcome Checker := do
  let (id, scope, definition) := entry
  let variants ← resolveVariants c.program scope definition.variants []
  let types := c.program.types
  let enum ← nth types.enums id
  return { c with
    program :=
      { c.program with
        types := { types with enums := types.enums.set id { enum with variants } } } }

/-- The definitions are kept in hash maps and visited in the order of those. -/
def defineTypes (order : MapOrder) (c : Checker) : Outcome Checker := do
  let c ← (order.visit c.structDefs).foldlM defineStruct c
  (order.visit c.enumDefs).foldlM defineEnum c

/-- The parameters of a function are its first locals. -/
def paramLocals (scope : ModuleScope) (params : List Param) : Outcome (List HirLocal) :=
  params.mapM fun param => do
    return ⟨param.name, ← program.resolveType scope param.ty, false, true⟩

def collectFunction (scope : ModuleScope) (item : Item) (definition : Function) :
    Outcome Checker := do
  let name := qualify scope.name definition.name
  c.ensureNameFree name
  let attrs ← parseAttrs item.attrs
  let abi := if attrs.interrupt then .interrupt else definition.abi
  let locals ← paramLocals c.program scope definition.params
  let result ← c.program.resolveType scope definition.returnType
  validateFunctionAttrs attrs abi (locals.map (·.ty)) result definition.isUnsafe
  let function : HirFunction :=
    { qualifiedName := name
      symbol := itemSymbol scope.name definition.name attrs definition.body.isNone
      attrs
      isPublic := item.isPublic
      isUnsafe := definition.isUnsafe
      abi
      params := List.range locals.length
      result
      locals
      body := none }
  let program := { c.program with functions := c.program.functions ++ [function] }
  return { c with
    program := addSymbol program name (.function c.program.functions.length)
    functionDefs := c.functionDefs ++ [(scope, definition)] }

def collectStatic (scope : ModuleScope) (item : Item) (definition : StaticDef) :
    Outcome Checker := do
  let name := qualify scope.name definition.name
  c.ensureNameFree name
  let attrs ← parseAttrs item.attrs
  require (¬(definition.isMut ∧ (attrs.linkSection.any (·.startsWith ".text")) ∧
      ¬attrs.unsafeLinkage))
    "writable static in executable section requires @unsafe_linkage"
  let ty ← c.program.resolveType scope definition.ty
  let static : HirStatic :=
    { qualifiedName := name
      symbol := itemSymbol scope.name definition.name attrs false
      attrs
      isPublic := item.isPublic
      isMut := definition.isMut
      ty
      init := .zero }
  let program := { c.program with statics := c.program.statics ++ [static] }
  return { c with
    program := addSymbol program name (.static c.program.statics.length)
    staticDefs := c.staticDefs ++ [(scope, definition)] }

def collectConst (scope : ModuleScope) (definition : ConstDef) : Outcome Checker := do
  let name := qualify scope.name definition.name
  c.ensureNameFree name
  let ty ← c.program.resolveType scope definition.ty
  -- The value is not known yet; zero holds its place.
  let program := { c.program with consts := c.program.consts ++ [⟨name, ty, .zero⟩] }
  return { c with
    program := addSymbol program name (.const c.program.consts.length)
    constDefs := c.constDefs ++ [(scope, definition)] }

def collectValueSignature (entry : ModuleScope × Item) : Outcome Checker :=
  let (scope, item) := entry
  match item.kind with
  | .function definition => c.collectFunction scope item definition
  | .static definition => c.collectStatic scope item definition
  | .const definition => c.collectConst scope definition
  | .struct _ | .enum _ => .ok c

def checkConst (entry : (ModuleScope × ConstDef) × ℕ) : Outcome HirProgram := do
  let ((scope, definition), id) := entry
  let const ← nth program.consts id
  let value ← program.constValue scope definition.init const.ty
  return { program with consts := program.consts.set id { const with value } }

def checkStatic (entry : (ModuleScope × StaticDef) × ℕ) : Outcome HirProgram := do
  let ((scope, definition), id) := entry
  let static ← nth program.statics id
  let init ← program.constValue scope definition.init static.ty
  return { program with statics := program.statics.set id { static with init } }

/-- The constants in the order of their declarations, then the statics. -/
def checkConstantsAndStatics : Outcome HirProgram := do
  let program ← c.constDefs.zipIdx.foldlM checkConst c.program
  c.staticDefs.zipIdx.foldlM checkStatic program

def bodyChecker (scope : ModuleScope) (function : HirFunction) : BodyChecker where
  program
  scope
  locals := function.locals
  -- A later parameter of the same name hides an earlier one.
  scopes := [(function.locals.zipIdx.map fun (l, id) => (l.name, id)).reverse]
  returnType := function.result
  unsafeDepth := if function.isUnsafe then 1 else 0
  loopDepth := 0

def checkFunctionBody (entry : (ModuleScope × Function) × ℕ) : Outcome HirProgram :=
  let ((scope, definition), id) := entry
  match definition.body with
  | none => .ok program
  | some body => do
    let function ← nth program.functions id
    let (body, inner) ← (bodyChecker program scope function).enter.checkStmts body
    require (function.result = .void ∨ function.result = .never ∨ blockTerminates body)
      ("function `" ++ pathString function.qualifiedName ++ "` may fall through without returning `"
        ++ program.types.name function.result ++ "`")
    require (function.result ≠ .never ∨ blockTerminates body)
      "function returning `never` must not fall through"
    let function := { function with locals := inner.locals, body := some body }
    return { program with functions := program.functions.set id function }

end Checker

def check (order : MapOrder) (modules : List SourceModule) : Outcome HirProgram := do
  let items ← buildModuleScopes modules []
  let c ← items.foldlM Checker.collectTypeName {}
  let c ← c.defineTypes order
  let types ← computeLayouts c.program.types
  let c := { c with program := { c.program with types } }
  let c ← items.foldlM Checker.collectValueSignature c
  let program ← c.checkConstantsAndStatics
  c.functionDefs.zipIdx.foldlM Checker.checkFunctionBody program

end Ostadix.Ocore
