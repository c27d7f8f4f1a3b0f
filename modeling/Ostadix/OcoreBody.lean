import Ostadix.OcoreNames

/-! The checker of function bodies. -/

namespace Ostadix.Ocore

/-- What the checker knows inside a body. The innermost scope comes first. -/
structure BodyChecker where
  program : HirProgram
  scope : ModuleScope
  locals : List HirLocal
  scopes : List (List (String × ℕ))
  returnType : Ty
  (unsafeDepth loopDepth : ℕ)

namespace BodyChecker

/-- Whether a checked expression is a place that can be written. -/
def placeIsMutable (locals : List HirLocal) (statics : List HirStatic) : HirExpr → Bool
  | .localVar id _ => (locals[id]?.map (·.isMut)).getD false
  | .static id _ => (statics[id]?.map (·.isMut)).getD false
  | .unary .deref operand _ =>
    match operand.ty with
    | .pointer true _ => true
    | _ => false
  | .field base _ _ _ | .index base _ _ => placeIsMutable locals statics base
  | _ => false

variable (c : BodyChecker)

def lookupLocal (name : String) : Option ℕ :=
  c.scopes.findSome? (·.lookup name)

/-! ## Single checks -/

/-- A value of type `never` can stand for a value of any type. -/
def expectAssignable (actual expected : Ty) : Outcome Unit :=
  require (actual = expected ∨ actual = .never)
    s!"expected `{c.program.types.name expected}`, found `{c.program.types.name actual}`"

def requireUnsafe (operation : String) : Outcome Unit :=
  require (c.unsafeDepth ≠ 0) (operation ++ " requires an explicit unsafe block")

def literalMax : Ty → Option ℕ
  | .int _ .w64 | .usize | .isize => some (2 ^ 64 - 1)
  | .int false width => some (2 ^ width.bits - 1)
  | .int true width => some (2 ^ (width.bits - 1) - 1)
  | _ => none

def ensureIntegerFits (value : UInt64) (ty : Ty) : Outcome Unit :=
  match literalMax ty with
  | none => error "integer literal used with non-integer type"
  | some max =>
    require (value.toNat ≤ max) s!"literal `{value}` does not fit `{c.program.types.name ty}`"

/-- The last step of a check that was given an expected type. -/
def coerce (expected : Option Ty) (expr : HirExpr) : Outcome HirExpr := do
  if let some expected := expected then
    c.expectAssignable expr.ty expected
  return expr

def isAddressable : HirExpr → Bool
  | .localVar .. | .static .. | .unary .deref .. | .field .. | .index .. => true
  | _ => false

def ensurePlace (expr : HirExpr) (isMut : Bool) : Outcome Unit :=
  if isMut then
    require (placeIsMutable c.locals c.program.statics expr) "target is not a mutable place"
  else
    require (isAddressable expr) "expression is not addressable"

/-! ## Operators -/

def isComparison : BinaryOp → Bool
  | .eq | .notEq | .less | .lessEq | .greater | .greaterEq => true
  | _ => false

def isLogical : BinaryOp → Bool
  | .logicalAnd | .logicalOr => true
  | _ => false

def isShift : BinaryOp → Bool
  | .shiftLeft | .shiftRight => true
  | _ => false

def isAddSub : BinaryOp → Bool
  | .add | .sub => true
  | _ => false

def unaryType (op : UnaryOp) (operand : HirExpr) : Outcome Ty :=
  match op with
  | .neg => do
    require operand.ty.isInteger "unary `-` requires an integer"
    return operand.ty
  | .not => do
    c.expectAssignable operand.ty .bool
    return .bool
  | .bitNot => do
    require operand.ty.isInteger "unary `~` requires an integer"
    return operand.ty
  | .deref => do
    c.requireUnsafe "raw pointer dereference"
    match operand.ty with
    | .pointer _ pointee => return pointee
    | _ => error "cannot dereference non-pointer"
  | .addressOf isMut => do
    c.ensurePlace operand isMut
    return .pointer isMut operand.ty

/-- The type expected of a right operand, apart from shift counts and pointer offsets. -/
def rhsExpected (op : BinaryOp) (lhs : Ty) : Ty :=
  if lhs.isPointer && isAddSub op || isShift op then .usize else lhs

def binaryType (op : BinaryOp) (lhs rhs : Ty) : Outcome Ty :=
  if isLogical op then do
    c.expectAssignable lhs .bool
    c.expectAssignable rhs .bool
    return .bool
  else if isComparison op then do
    c.expectAssignable rhs lhs
    require (¬(lhs.isFloat || rhs.isFloat))
      "floating-point comparison code generation is not implemented"
    require lhs.isScalar "comparison requires scalar operands"
    return .bool
  else if isShift op then do
    require lhs.isInteger "shifted value must be an integer"
    require rhs.isInteger "shift count must be an integer"
    return lhs
  else if lhs.isPointer && isAddSub op && rhs.isInteger then do
    c.requireUnsafe "raw pointer arithmetic"
    return lhs
  else do
    c.expectAssignable rhs lhs
    require lhs.isInteger "operator requires integer operands"
    return lhs

def isShiftAssignment : Option BinaryOp → Bool
  | some op => isShift op
  | none => false

def opName : BinaryOp → String
  | .add => "Add" | .sub => "Sub" | .mul => "Mul" | .div => "Div" | .rem => "Rem"
  | .bitAnd => "BitAnd" | .bitOr => "BitOr" | .bitXor => "BitXor"
  | .shiftLeft => "ShiftLeft" | .shiftRight => "ShiftRight"
  | .eq => "Eq" | .notEq => "NotEq" | .less => "Less" | .lessEq => "LessEq"
  | .greater => "Greater" | .greaterEq => "GreaterEq"
  | .logicalAnd => "LogicalAnd" | .logicalOr => "LogicalOr"

def checkAssignment (op : Option BinaryOp) (target value : HirExpr) : Outcome Unit := do
  if isShiftAssignment op then
    require value.ty.isInteger "shift count must be an integer"
  else
    c.expectAssignable value.ty target.ty
  if let some op := op then
    require target.ty.isInteger s!"compound operator `{opName op}` requires integer target"

/-! ## Names -/

def memoryOrder : String → Option MemoryOrder
  | "relaxed" => some .relaxed
  | "acquire" => some .acquire
  | "release" => some .release
  | "acq_rel" => some .acqRel
  | "seq_cst" => some .seqCst
  | _ => none

def intrinsic : String → Option Intrinsic
  | "volatile_load" => some .volatileLoad
  | "volatile_store" => some .volatileStore
  | "atomic_load" => some .atomicLoad
  | "atomic_store" => some .atomicStore
  | "atomic_exchange" => some .atomicExchange
  | "atomic_compare_exchange" => some .atomicCompareExchange
  | "atomic_fetch_add" => some .atomicFetchAdd
  | "inb" => some .in8
  | "inw" => some .in16
  | "inl" => some .in32
  | "outb" => some .out8
  | "outw" => some .out16
  | "outl" => some .out32
  | "enable_interrupts" => some .enableInterrupts
  | "disable_interrupts" => some .disableInterrupts
  | "halt" => some .halt
  | "invalidate_page" => some .invalidatePage
  | "syscall0" => some (.syscall 0)
  | "syscall1" => some (.syscall 1)
  | "syscall2" => some (.syscall 2)
  | "syscall3" => some (.syscall 3)
  | "syscall4" => some (.syscall 4)
  | "syscall5" => some (.syscall 5)
  | "syscall6" => some (.syscall 6)
  | _ => none

def paramTypes (function : HirFunction) : Outcome (List Ty) :=
  function.params.mapM fun param => do return (← nth function.locals param).ty

/-- A path that names no local: an item of the program, or a variant without payload. -/
def checkItemPath (path : Path) : Outcome HirExpr :=
  let name := c.program.resolvePath c.scope path
  match c.program.symbol? name with
  | some (.function id) => do
    let function ← nth c.program.functions id
    return .function id (.function (← paramTypes function) function.result function.abi)
  | some (.static id) => do
    let static ← nth c.program.statics id
    if static.isMut then
      c.requireUnsafe "access to mutable static"
    return .static id static.ty
  | some (.const id) => do
    let const ← nth c.program.consts id
    return .constant const.value const.ty
  | some (.type _) => error s!"type `{pathString name}` is not a value"
  | none =>
    match c.program.resolveEnumVariant name with
    | some (enumId, variant) => do
      let definition ← nth c.program.types.enums enumId
      let variantDef ← nth definition.variants variant
      require (variantDef.payload = []) "payload enum variant must be called"
      return .enumVariant enumId variant [] (.enum enumId)
    | none => error s!"unknown value `{pathString name}`"

/-- A single name is a local before it is a memory order, and either before it is an item. -/
def checkPath (path : Path) : Outcome HirExpr :=
  match path.rest, c.lookupLocal path.first, memoryOrder path.first with
  | [], some id, _ => do return .localVar id (← nth c.locals id).ty
  | [], none, some order => .ok (.constant (.integer order.code) .u8)
  | _, _, _ => c.checkItemPath path

/-! ## Calls -/

/-- The argument and result types of the intrinsics that are not typed by their pointer. -/
def intrinsicSignature : Intrinsic → Option (List Ty × Ty)
  | .in8 => some ([.u16], .u8)
  | .in16 => some ([.u16], .u16)
  | .in32 => some ([.u16], .u32)
  | .out8 => some ([.u16, .u8], .void)
  | .out16 => some ([.u16, .u16], .void)
  | .out32 => some ([.u16, .u32], .void)
  | .enableInterrupts | .disableInterrupts | .halt => some ([], .void)
  | .invalidatePage => some ([.usize], .void)
  | .syscall count => some (List.replicate (count + 1) .u64, .u64)
  | .volatileLoad | .volatileStore | .atomicLoad | .atomicStore | .atomicExchange
  | .atomicCompareExchange | .atomicFetchAdd => none

/-- How many values and how many memory orders an atomic intrinsic takes after its pointer. -/
def atomicArity : Intrinsic → ℕ × ℕ
  | .atomicLoad => (0, 1)
  | .atomicCompareExchange => (2, 2)
  | _ => (1, 1)

/-- The number of arguments of an intrinsic that is typed by its pointer. -/
def pointerArity : Intrinsic → ℕ
  | .volatileLoad => 1
  | .volatileStore => 2
  | intrinsic => 1 + (atomicArity intrinsic).1 + (atomicArity intrinsic).2

def arityMessage : Intrinsic → String
  | .volatileLoad => "volatile_load takes one pointer"
  | .volatileStore => "volatile_store takes a pointer and value"
  | intrinsic => "atomic intrinsic takes " ++ toString (pointerArity intrinsic) ++ " arguments"

def validateMemoryOrder (intrinsic : Intrinsic) (order : UInt8) : Outcome Unit := do
  require (order ≤ 4) "invalid memory ordering"
  require (¬(intrinsic = .atomicLoad ∧ (order = 2 ∨ order = 3)))
    "atomic load cannot use release or acq_rel ordering"
  require (¬(intrinsic = .atomicStore ∧ (order = 1 ∨ order = 3)))
    "atomic store cannot use acquire or acq_rel ordering"

def atomicPointee (intrinsic : Intrinsic) : Ty → Outcome Ty
  | .pointer isMut pointee => do
    -- Every integer type has one, two, four or eight bytes.
    require pointee.isInteger "atomic pointee must be a 1/2/4/8-byte integer"
    require (isMut ∨ intrinsic = .atomicLoad) "mutating atomic operation requires `*mut`"
    return pointee
  | _ => error "atomic operation requires a pointer"

def atomicResult (intrinsic : Intrinsic) (pointee : Ty) : Ty :=
  if intrinsic = .atomicStore then .void else pointee

def checkMemoryOrder (intrinsic : Intrinsic) (order : HirExpr) : Outcome Unit :=
  match order with
  | .constant (.integer value) _ => validateMemoryOrder intrinsic value.toUInt8
  | _ => error "memory ordering must be a named ordering constant"

/-- The scalar that a volatile access reads or writes. -/
def volatilePointee (name kind : String) (needMut : Bool) : Ty → Outcome Ty
  | .pointer isMut pointee => do
    require (isMut ∨ ¬needMut) (name ++ " requires " ++ kind)
    require pointee.isScalar (name ++ " currently requires a scalar pointee")
    return pointee
  | _ => error (name ++ " requires " ++ kind)

def calledVariant : Expr → Option (ℕ × ℕ)
  | .path path => c.program.resolveEnumVariant (c.program.resolvePath c.scope path)
  | _ => none

def calledIntrinsic : Expr → Option Intrinsic
  | .path ⟨name, []⟩ => intrinsic name
  | _ => none

/-- The function that a checked callee names, after the checks on its kind. -/
def calledFunction (callee : HirExpr) : Outcome (ℕ × HirFunction) :=
  match callee with
  | .function id _ => do
    let function ← nth c.program.functions id
    require (function.abi ≠ .interrupt) "interrupt handlers cannot be called directly"
    if function.isUnsafe then
      c.requireUnsafe s!"call to unsafe function `{pathString function.qualifiedName}`"
    return (id, function)
  | _ => error "v0.1 supports direct function calls only"

/-! ## Places and casts -/

def fieldOf (base : HirExpr) (name : String) : Outcome HirExpr :=
  match base.ty with
  | .struct id => do
    let definition ← nth c.program.types.structs id
    match definition.fields.findIdx? (·.name = name) with
    | some index => do
      let field ← nth definition.fields index
      return .field base index field.offset field.ty
    | none => error s!"unknown field `{name}`"
  | _ => error "field access requires a struct value"

def elementType (base : Ty) : Outcome Ty :=
  match base with
  | .array element _ => .ok element
  | .pointer _ pointee => do
    c.requireUnsafe "raw pointer indexing"
    return pointee
  | _ => error "indexing requires an array or pointer"

def checkCast (source target : Ty) : Outcome Unit := do
  require (¬(source.isFloat || target.isFloat))
    "floating-point cast code generation is not implemented"
  require (source.isScalar ∧ target.isScalar) "casts are limited to scalar types"
  if source.isPointer ≠ target.isPointer then
    c.requireUnsafe "pointer/integer cast"

def requireAsmOperandType (ty : Ty) : Outcome Unit :=
  require (ty.isScalar ∧ ¬ty.isFloat) "inline assembly operands require non-floating scalar types"

def validateAsmOptions (options : List String) : Outcome Unit := do
  let rec go : List String → List String → Outcome Unit
    | [], _ => .ok ()
    | option :: rest, seen => do
      require (option ∈ ["nomem", "readonly", "nostack", "preserves_flags"])
        s!"unknown assembly option `{option}`"
      require (option ∉ seen) s!"duplicate assembly option `{option}`"
      go rest (option :: seen)
  go options []
  require (¬("nomem" ∈ options ∧ "readonly" ∈ options))
    "asm options `nomem` and `readonly` are redundant"

/-! ## Expressions -/

/-- The element type that an expected array type of the given length asks for. -/
def expectedElement (expected : Option Ty) (len : UInt64) : Option Ty :=
  match expected with
  | some (.array element expectedLen) => if expectedLen = len then some element else none
  | _ => none

mutual

def checkExpr (c : BodyChecker) : Expr → Option Ty → Outcome HirExpr
  | .integer value, expected => do
    let ty := (expected.filter Ty.isInteger).getD .u64
    c.ensureIntegerFits value ty
    c.coerce expected (.constant (.integer value) ty)
  | .byte value, expected => c.coerce expected (.constant (.integer value.toUInt64) .u8)
  | .bool value, expected => c.coerce expected (.constant (.bool value) .bool)
  | .string _, _ =>
    error "runtime strings are not implicit in freestanding O-core; use a byte string"
  | .byteString bytes, expected =>
    c.coerce expected (.constant (.bytes bytes) (.array .u8 (.ofNat bytes.length)))
  | .path path, _ => c.checkPath path
  | .array values, expected => do
    let (checked, element) ←
      checkElements c values (expectedElement expected (.ofNat values.length))
    match element with
    | none => error "cannot infer type of empty array"
    | some element =>
      c.coerce expected (.array checked (.array element (.ofNat checked.length)))
  | .arrayRepeat value len, expected => do
    let value ← checkExpr c value (expectedElement expected len)
    c.coerce expected (.arrayRepeat value len (.array value.ty len))
  | .struct path fields, expected => do
    let name := c.program.resolvePath c.scope path
    match c.program.symbol? name with
    | some (.type (.struct id)) => do
      let definition ← nth c.program.types.structs id
      require (fields.length = definition.fields.length)
        "struct initializer must specify every field"
      let ordered ← definition.fields.mapM fun field => checkField c field fields
      c.coerce expected (.struct id ordered (.struct id))
    | some (.type _) => error s!"`{pathString name}` is not a struct"
    | _ => error s!"unknown struct `{pathString name}`"
  | .unary op operand, expected => do
    let operand ← checkExpr c operand none
    let ty ← c.unaryType op operand
    c.coerce expected (.unary op operand ty)
  | .binary op lhs rhs, expected => do
    let lhs ← checkExpr c lhs (if isComparison op || isLogical op then none else expected)
    let rhs ← checkExpr c rhs (some (rhsExpected op lhs.ty))
    let ty ← c.binaryType op lhs.ty rhs.ty
    c.coerce expected (.binary op lhs rhs ty)
  | .assign op target value, expected => do
    let target ← checkExpr c target none
    c.ensurePlace target true
    let value ← checkExpr c value (some (if isShiftAssignment op then .usize else target.ty))
    c.checkAssignment op target value
    c.coerce expected (.assign op target value .void)
  | .call callee args, _ =>
    match calledIntrinsic callee, c.calledVariant callee with
    | some intrinsic, _ => do
      c.requireUnsafe "hardware/runtime intrinsic"
      match intrinsicSignature intrinsic with
      | some (argTypes, result) => do
        require (argTypes.length = args.length)
          ("intrinsic takes " ++ toString argTypes.length ++ " arguments, got " ++
            toString args.length)
        let checked ← checkArgs c args argTypes
        return .intrinsic intrinsic checked result
      | none => do
        require (args.length = pointerArity intrinsic) (arityMessage intrinsic)
        checkPointerIntrinsic c intrinsic args
    | none, some (enumId, variant) => do
      let definition ← nth c.program.types.enums enumId
      let variantDef ← nth definition.variants variant
      require (variantDef.payload.length = args.length) "wrong number of enum payload arguments"
      let checked ← checkArgs c args variantDef.payload
      return .enumVariant enumId variant checked (.enum enumId)
    | none, none => do
      let callee ← checkExpr c callee none
      let (id, function) ← c.calledFunction callee
      require (function.params.length = args.length)
        ("function `" ++ pathString function.qualifiedName ++ "` takes " ++
          toString function.params.length ++ " arguments, got " ++ toString args.length)
      let checked ← checkArgs c args (← paramTypes function)
      return .call id checked function.result
  | .field base name, expected => do
    let base ← checkExpr c base none
    c.coerce expected (← c.fieldOf base name)
  | .index base index, expected => do
    let base ← checkExpr c base none
    let index ← checkExpr c index (some .usize)
    require index.ty.isInteger "array index must be an integer"
    let ty ← c.elementType base.ty
    c.coerce expected (.index base index ty)
  | .cast value ty, expected => do
    let value ← checkExpr c value none
    let target ← c.program.resolveType c.scope ty
    c.checkCast value.ty target
    c.coerce expected (.cast value target)
  | .asm template operands options, expected => do
    c.requireUnsafe "inline assembly"
    let operands ← checkOperands c operands
    validateAsmOptions options
    c.coerce expected (.asm template operands options .void)

/-- The first element fixes the type of an array when none was expected. -/
def checkElements (c : BodyChecker) : List Expr → Option Ty → Outcome (List HirExpr × Option Ty)
  | [], element => .ok ([], element)
  | value :: values, element => do
    let value ← checkExpr c value element
    if let some ty := element then
      c.expectAssignable value.ty ty
    let (values, element) ← checkElements c values (some (element.getD value.ty))
    return (value :: values, element)

def checkField (c : BodyChecker) (field : StructField) : List (String × Expr) → Outcome HirExpr
  | [] => error s!"missing field `{field.name}`"
  | (name, value) :: fields =>
    if name = field.name then do
      let value ← checkExpr c value (some field.ty)
      c.expectAssignable value.ty field.ty
      return value
    else
      checkField c field fields

def checkArgs (c : BodyChecker) : List Expr → List Ty → Outcome (List HirExpr)
  | arg :: args, ty :: tys => do
    let arg ← checkExpr c arg (some ty)
    c.expectAssignable arg.ty ty
    return arg :: (← checkArgs c args tys)
  | _, _ => .ok []

/-- The intrinsics that are typed by the pointer they are given. -/
def checkPointerIntrinsic (c : BodyChecker) (intrinsic : Intrinsic) : List Expr → Outcome HirExpr
  | [] => error (arityMessage intrinsic)
  | pointer :: rest => do
    let pointer ← checkExpr c pointer none
    match intrinsic with
    | .volatileLoad => do
      let pointee ← volatilePointee "volatile_load" "a pointer" false pointer.ty
      return .intrinsic intrinsic [pointer] pointee
    | .volatileStore => do
      let pointee ← volatilePointee "volatile_store" "a mutable pointer" true pointer.ty
      let rest ← checkArgs c rest [pointee]
      return .intrinsic intrinsic (pointer :: rest) .void
    | _ => do
      let pointee ← atomicPointee intrinsic pointer.ty
      let rest ← checkAtomicArgs c intrinsic pointee (atomicArity intrinsic).1 rest
      return .intrinsic intrinsic (pointer :: rest) (atomicResult intrinsic pointee)

def checkAtomicArgs (c : BodyChecker) (intrinsic : Intrinsic) (pointee : Ty) :
    ℕ → List Expr → Outcome (List HirExpr)
  | _, [] => .ok []
  | values + 1, arg :: args => do
    let arg ← checkExpr c arg (some pointee)
    return arg :: (← checkAtomicArgs c intrinsic pointee values args)
  | 0, arg :: args => do
    let order ← checkExpr c arg (some .u8)
    checkMemoryOrder intrinsic order
    return order :: (← checkAtomicArgs c intrinsic pointee 0 args)

def checkOperands (c : BodyChecker) :
    List (AsmOperand Expr Expr) → Outcome (List (AsmOperand HirExpr HirExpr))
  | [] => .ok []
  | operand :: operands => do
    let operand ← checkOperand c operand
    return operand :: (← checkOperands c operands)

def checkOperand (c : BodyChecker) : AsmOperand Expr Expr → Outcome (AsmOperand HirExpr HirExpr)
  | .input register value => do
    let value ← checkExpr c value none
    requireAsmOperandType value.ty
    return .input register value
  | .output register target => do
    let target ← checkExpr c target none
    c.ensurePlace target true
    requireAsmOperandType target.ty
    return .output register target
  | .inOut register input output => do
    let input ← checkExpr c input none
    let output ← checkExpr c output (some input.ty)
    c.ensurePlace output true
    c.expectAssignable output.ty input.ty
    requireAsmOperandType input.ty
    requireAsmOperandType output.ty
    return .inOut register input output

end

/-! ## Statements -/

/-- Enter a block. Its locals stay in the frame, its names do not outlive it. -/
def enter : BodyChecker := { c with scopes := [] :: c.scopes }

def checkCondition (condition : Expr) : Outcome HirExpr := do
  let condition ← c.checkExpr condition (some .bool)
  c.expectAssignable condition.ty .bool
  return condition

def checkLet (isMut : Bool) (name : String) (ty : Option TypeExpr) (init : Expr) :
    Outcome (HirStmt × BodyChecker) :=
  match c.scopes with
  | [] => .error (.panic "no scope")
  | scope :: outer => do
    require (scope.lookup name = none) s!"duplicate local `{name}`"
    let declared ← ty.mapM (c.program.resolveType c.scope)
    let init ← c.checkExpr init declared
    let localTy := declared.getD init.ty
    c.expectAssignable init.ty localTy
    let id := c.locals.length
    return (.letStmt id init,
      { c with
        locals := c.locals ++ [⟨name, localTy, isMut, false⟩]
        scopes := ((name, id) :: scope) :: outer })

def checkReturn (value : Option Expr) : Outcome HirStmt :=
  match value with
  | some value => do
    let value ← c.checkExpr value (some c.returnType)
    c.expectAssignable value.ty c.returnType
    return .returnStmt (some value)
  | none => do
    require (c.returnType = .void)
      s!"return value of type `{c.program.types.name c.returnType}` required"
    return .returnStmt none

mutual

def checkStmt (c : BodyChecker) : Stmt → Outcome (HirStmt × BodyChecker)
  | .letStmt isMut name ty init => c.checkLet isMut name ty init
  | .exprStmt expr => do return (.exprStmt (← c.checkExpr expr none), c)
  | .ifStmt condition thenBlock elseBlock => do
    let condition ← c.checkCondition condition
    let (thenBlock, inner) ← checkStmts c.enter thenBlock
    let c := { c with locals := inner.locals }
    let (elseBlock, inner) ← checkElse c.enter elseBlock
    return (.ifStmt condition thenBlock elseBlock, { c with locals := inner.locals })
  | .whileStmt condition body => do
    let condition ← c.checkCondition condition
    let (body, inner) ← checkStmts { c.enter with loopDepth := c.loopDepth + 1 } body
    return (.whileStmt condition body, { c with locals := inner.locals })
  | .loopStmt body => do
    let (body, inner) ← checkStmts { c.enter with loopDepth := c.loopDepth + 1 } body
    return (.loopStmt body, { c with locals := inner.locals })
  | .unsafeStmt body => do
    let (body, inner) ← checkStmts { c.enter with unsafeDepth := c.unsafeDepth + 1 } body
    return (.unsafeStmt body, { c with locals := inner.locals })
  | .returnStmt value => do return (← c.checkReturn value, c)
  | .breakStmt => do
    require (c.loopDepth ≠ 0) "`break` outside a loop"
    return (.breakStmt, c)
  | .continueStmt => do
    require (c.loopDepth ≠ 0) "`continue` outside a loop"
    return (.continueStmt, c)

def checkStmts (c : BodyChecker) : List Stmt → Outcome (HirBlock × BodyChecker)
  | [] => .ok ([], c)
  | stmt :: stmts => do
    let (stmt, c) ← checkStmt c stmt
    let (stmts, c) ← checkStmts c stmts
    return (stmt :: stmts, c)

def checkElse (c : BodyChecker) : Option (List Stmt) → Outcome (Option HirBlock × BodyChecker)
  | none => .ok (none, c)
  | some block => do
    let (block, c) ← checkStmts c block
    return (some block, c)

end

end BodyChecker

/-! ## Termination of bodies -/

mutual

/-- Whether the last statement of a block is taken never to be passed. -/
def blockTerminates : HirBlock → Bool
  | [] => false
  | [last] => stmtTerminates last
  | _ :: rest => blockTerminates rest

def stmtTerminates : HirStmt → Bool
  | .returnStmt _ | .loopStmt _ => true
  | .exprStmt expr => expr.ty = .never
  | .ifStmt _ thenBlock (some elseBlock) => blockTerminates thenBlock && blockTerminates elseBlock
  | .unsafeStmt body => blockTerminates body
  | _ => false

end

end Ostadix.Ocore
