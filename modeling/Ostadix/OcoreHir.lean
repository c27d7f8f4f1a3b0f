import Mathlib
import Ostadix.OcoreAst

/-! The types of O-core and the typed program that the checker produces. -/

namespace Ostadix.Ocore

/-- How a stage of the compiler fails: with a diagnostic, or by a panic of the compiler itself. -/
inductive Failure where
  | diagnostic (message : String)
  | panic (message : String)
  deriving DecidableEq, Repr

abbrev Outcome (α : Type) := Except Failure α

/-- The element at an index; the source panics outside the bounds. -/
def nth {α : Type} (l : List α) (i : ℕ) : Outcome α :=
  match l[i]? with
  | some a => .ok a
  | none => .error (.panic "index out of bounds")

@[simp] lemma nth_eq_ok {α : Type} {l : List α} {i : ℕ} {a : α} :
    nth l i = .ok a ↔ l[i]? = some a := by
  unfold nth
  split <;> simp_all

/-! ## Types -/

inductive Width where
  | w8 | w16 | w32 | w64
  deriving DecidableEq, Repr

def Width.bits : Width → ℕ
  | .w8 => 8
  | .w16 => 16
  | .w32 => 32
  | .w64 => 64

def Width.bytes : Width → UInt64
  | .w8 => 1
  | .w16 => 2
  | .w32 => 4
  | .w64 => 8

inductive FloatWidth where
  | f32 | f64
  deriving DecidableEq, Repr

/-- The source compares the numbers of interned types, one for each type, so types are compared
directly; structs and enums are known by number. -/
inductive Ty where
  | bool
  | int (signed : Bool) (width : Width)
  | usize
  | isize
  | float (width : FloatWidth)
  | void
  | never
  | pointer (isMut : Bool) (pointee : Ty)
  | array (element : Ty) (len : UInt64)
  | struct (id : ℕ)
  | enum (id : ℕ)
  | function (params : List Ty) (result : Ty) (abi : Abi)
  deriving Repr

namespace Ty

mutual

def beq : Ty → Ty → Bool
  | .bool, .bool => true
  | .int s w, .int s' w' => s == s' && w == w'
  | .usize, .usize => true
  | .isize, .isize => true
  | .float w, .float w' => w == w'
  | .void, .void => true
  | .never, .never => true
  | .pointer m t, .pointer m' t' => m == m' && beq t t'
  | .array t n, .array t' n' => beq t t' && n == n'
  | .struct i, .struct i' => i == i'
  | .enum i, .enum i' => i == i'
  | .function ps r a, .function ps' r' a' => beqAll ps ps' && beq r r' && a == a'
  | _, _ => false

def beqAll : List Ty → List Ty → Bool
  | [], [] => true
  | t :: ts, t' :: ts' => beq t t' && beqAll ts ts'
  | _, _ => false

end

mutual

lemma beq_iff : ∀ t t' : Ty, beq t t' = true ↔ t = t'
  | .bool, t' | .usize, t' | .isize, t' | .void, t' | .never, t' => by cases t' <;> simp [beq]
  | .int s w, t' => by cases t' <;> simp [beq]
  | .float w, t' => by cases t' <;> simp [beq]
  | .struct i, t' | .enum i, t' => by cases t' <;> simp [beq]
  | .pointer m t, t' => by cases t' <;> simp [beq, beq_iff t]
  | .array t n, t' => by cases t' <;> simp [beq, beq_iff t]
  | .function ps r a, t' => by
    cases t' <;> simp [beq, beqAll_iff ps, beq_iff r, and_assoc]

lemma beqAll_iff : ∀ ts ts' : List Ty, beqAll ts ts' = true ↔ ts = ts'
  | [], ts' => by cases ts' <;> simp [beqAll]
  | t :: ts, ts' => by cases ts' <;> simp [beqAll, beq_iff t, beqAll_iff ts]

end

instance : DecidableEq Ty := fun t t' => decidable_of_iff _ (beq_iff t t')

abbrev u8 : Ty := .int false .w8
abbrev u16 : Ty := .int false .w16
abbrev u32 : Ty := .int false .w32
abbrev u64 : Ty := .int false .w64

def primitive : String → Option Ty
  | "bool" => some .bool
  | "u8" => some .u8
  | "i8" => some (.int true .w8)
  | "u16" => some .u16
  | "i16" => some (.int true .w16)
  | "u32" => some .u32
  | "i32" => some (.int true .w32)
  | "u64" => some .u64
  | "i64" => some (.int true .w64)
  | "usize" => some .usize
  | "isize" => some .isize
  | "f32" => some (.float .f32)
  | "f64" => some (.float .f64)
  | "void" => some .void
  | "never" => some .never
  | _ => none

def isInteger : Ty → Bool
  | .int .. | .usize | .isize => true
  | _ => false

def isFloat : Ty → Bool
  | .float _ => true
  | _ => false

def isScalar : Ty → Bool
  | .bool | .int .. | .usize | .isize | .float _ | .pointer .. | .function .. => true
  | _ => false

def isPointer : Ty → Bool
  | .pointer .. => true
  | _ => false

end Ty

/-! ## Layouts -/

structure Layout where
  (size align : UInt64)
  deriving DecidableEq, Repr

structure StructField where
  name : String
  ty : Ty
  offset : UInt64 := 0
  deriving DecidableEq

structure StructType where
  name : QualifiedName
  fields : List StructField := []
  packed : Bool := false
  requestedAlign : Option UInt64 := none
  layout : Layout := ⟨0, 1⟩
  deriving DecidableEq

structure EnumVariant where
  name : String
  payload : List Ty
  payloadLayout : Layout := ⟨0, 1⟩
  deriving DecidableEq

structure EnumType where
  name : QualifiedName
  variants : List EnumVariant := []
  tagSize : UInt64 := 1
  payloadOffset : UInt64 := 1
  layout : Layout := ⟨1, 1⟩
  deriving DecidableEq

structure TypeContext where
  structs : List StructType := []
  enums : List EnumType := []
  deriving DecidableEq

def checkedMul (a b : UInt64) : Option UInt64 :=
  if a.toNat * b.toNat < 2 ^ 64 then some (a * b) else none

def checkedAdd (a b : UInt64) : Option UInt64 :=
  if a.toNat + b.toNat < 2 ^ 64 then some (a + b) else none

def alignUp (value align : UInt64) : UInt64 := (value + align - 1) &&& ~~~(align - 1)

namespace TypeContext

def layout (types : TypeContext) : Ty → Outcome Layout
  | .bool => .ok ⟨1, 1⟩
  | .int _ width => .ok ⟨width.bytes, width.bytes⟩
  | .float .f32 => .ok ⟨4, 4⟩
  | .float .f64 | .usize | .isize | .pointer .. | .function .. => .ok ⟨8, 8⟩
  | .void | .never => .ok ⟨0, 1⟩
  | .array element len => do
    let element ← types.layout element
    match checkedMul element.size len with
    | some size => .ok ⟨size, element.align⟩
    | none => .error (.panic "array layout overflow")
  | .struct id => do return (← nth types.structs id).layout
  | .enum id => do return (← nth types.enums id).layout

end TypeContext

/-! ## Expressions and statements -/

inductive HirConstValue where
  | integer (value : UInt64)
  | bool (value : Bool)
  | bytes (bytes : List UInt8)
  | array (values : List HirConstValue)
  | repeat (value : HirConstValue) (len : UInt64)
  | struct (id : ℕ) (values : List HirConstValue)
  | enum (id variant : ℕ) (payload : List HirConstValue)
  | zero

inductive Intrinsic where
  | volatileLoad | volatileStore
  | atomicLoad | atomicStore | atomicExchange | atomicCompareExchange | atomicFetchAdd
  | in8 | in16 | in32 | out8 | out16 | out32
  | enableInterrupts | disableInterrupts | halt | invalidatePage
  | syscall (count : Fin 7)
  deriving DecidableEq, Repr

inductive MemoryOrder where
  | relaxed | acquire | release | acqRel | seqCst
  deriving DecidableEq, Repr

def MemoryOrder.code : MemoryOrder → UInt64
  | .relaxed => 0
  | .acquire => 1
  | .release => 2
  | .acqRel => 3
  | .seqCst => 4

/-- Every expression carries its type. -/
inductive HirExpr where
  | constant (value : HirConstValue) (ty : Ty)
  | localVar (id : ℕ) (ty : Ty)
  | static (id : ℕ) (ty : Ty)
  | function (id : ℕ) (ty : Ty)
  | enumVariant (enumId variant : ℕ) (args : List HirExpr) (ty : Ty)
  | array (values : List HirExpr) (ty : Ty)
  | arrayRepeat (value : HirExpr) (len : UInt64) (ty : Ty)
  | struct (structId : ℕ) (fields : List HirExpr) (ty : Ty)
  | unary (op : UnaryOp) (operand : HirExpr) (ty : Ty)
  | binary (op : BinaryOp) (lhs rhs : HirExpr) (ty : Ty)
  | assign (op : Option BinaryOp) (target value : HirExpr) (ty : Ty)
  | call (function : ℕ) (args : List HirExpr) (ty : Ty)
  | intrinsic (intrinsic : Intrinsic) (args : List HirExpr) (ty : Ty)
  | field (base : HirExpr) (field : ℕ) (offset : UInt64) (ty : Ty)
  | index (base index : HirExpr) (ty : Ty)
  | cast (value : HirExpr) (ty : Ty)
  | asm (template : String) (operands : List (AsmOperand HirExpr HirExpr)) (options : List String)
      (ty : Ty)

namespace HirExpr

def ty : HirExpr → Ty
  | constant _ ty | localVar _ ty | static _ ty | function _ ty | enumVariant _ _ _ ty
  | array _ ty | arrayRepeat _ _ ty | struct _ _ ty | unary _ _ ty | binary _ _ _ ty
  | assign _ _ _ ty | call _ _ ty | intrinsic _ _ ty | field _ _ _ ty | index _ _ ty
  | cast _ ty | asm _ _ _ ty => ty

end HirExpr

def HirExpr.parts : HirExpr → List HirExpr
  | .constant .. | .localVar .. | .static .. | .function .. => []
  | .enumVariant _ _ args _ | .call _ args _ | .intrinsic _ args _ => args
  | .array values _ => values
  | .struct _ fields _ => fields
  | .arrayRepeat value _ _ | .cast value _ => [value]
  | .unary _ operand _ => [operand]
  | .binary _ lhs rhs _ => [lhs, rhs]
  | .assign _ target value _ => [target, value]
  | .field base _ _ _ => [base]
  | .index base offset _ => [base, offset]
  | .asm _ operands _ _ => operands.flatMap AsmOperand.parts

/-- What holds of an expression whenever it holds of its parts holds of every expression. -/
lemma HirExpr.induction {P : HirExpr → Prop} (step : ∀ e : HirExpr, (∀ e' ∈ e.parts, P e') → P e)
    (e : HirExpr) : P e := by
  have leaf : ∀ e : HirExpr, e.parts = [] → P e := by
    intro e he
    apply step e
    simp [he]
  refine @HirExpr.rec P (fun es => ∀ e ∈ es, P e)
    (fun operands => ∀ e ∈ operands.flatMap AsmOperand.parts, P e)
    (fun operand => ∀ e ∈ operand.parts, P e)
    (fun _ _ => leaf _ rfl) (fun _ _ => leaf _ rfl) (fun _ _ => leaf _ rfl) (fun _ _ => leaf _ rfl)
    (fun _ _ _ _ h => step _ h) (fun _ _ h => step _ h) (fun _ _ _ h => step _ ?_)
    (fun _ _ _ h => step _ h) (fun _ _ _ h => step _ ?_) (fun _ _ _ _ hl hr => step _ ?_)
    (fun _ _ _ _ ht hv => step _ ?_) (fun _ _ _ h => step _ h) (fun _ _ _ h => step _ h)
    (fun _ _ _ _ h => step _ ?_) (fun _ _ _ hb hi => step _ ?_) (fun _ _ h => step _ ?_)
    (fun _ _ _ _ h => step _ h) ?_ ?_ ?_ ?_ ?_ ?_ ?_ e
  · simpa [HirExpr.parts] using h
  · simpa [HirExpr.parts] using h
  · simpa [HirExpr.parts] using ⟨hl, hr⟩
  · simpa [HirExpr.parts] using ⟨ht, hv⟩
  · simpa [HirExpr.parts] using h
  · simpa [HirExpr.parts] using ⟨hb, hi⟩
  · simpa [HirExpr.parts] using h
  -- The lists of expressions and of operands.
  · simp
  · intro e es he hes
    simpa using ⟨he, hes⟩
  · simp
  · intro operand operands ho hoperands e he
    rcases List.mem_append.1 he with he | he
    · exact ho e he
    · exact hoperands e he
  · intro _ _ h
    simpa [AsmOperand.parts] using h
  · intro _ _ h
    simpa [AsmOperand.parts] using h
  · intro _ _ _ hs ht
    simpa [AsmOperand.parts] using ⟨hs, ht⟩

inductive HirStmt where
  | letStmt (local_ : ℕ) (init : HirExpr)
  | exprStmt (expr : HirExpr)
  | ifStmt (condition : HirExpr) (thenBlock : List HirStmt) (elseBlock : Option (List HirStmt))
  | whileStmt (condition : HirExpr) (body : List HirStmt)
  | loopStmt (body : List HirStmt)
  | unsafeStmt (body : List HirStmt)
  | returnStmt (value : Option HirExpr)
  | breakStmt
  | continueStmt

abbrev HirBlock := List HirStmt

/-! ## Programs -/

structure ItemAttrs where
  exported : Bool := false
  noMangle : Bool := false
  linkSection : Option String := none
  align : Option UInt64 := none
  used : Bool := false
  packed : Bool := false
  interrupt : Bool := false
  naked : Bool := false
  unsafeLinkage : Bool := false
  deriving DecidableEq

structure HirLocal where
  name : String
  ty : Ty
  (isMut parameter : Bool)
  deriving DecidableEq

structure HirFunction where
  qualifiedName : QualifiedName
  symbol : String
  attrs : ItemAttrs
  (isPublic isUnsafe : Bool)
  abi : Abi
  params : List ℕ
  result : Ty
  locals : List HirLocal
  body : Option HirBlock

structure HirStatic where
  qualifiedName : QualifiedName
  symbol : String
  attrs : ItemAttrs
  (isPublic isMut : Bool)
  ty : Ty
  init : HirConstValue

structure HirConst where
  qualifiedName : QualifiedName
  ty : Ty
  value : HirConstValue

inductive Symbol where
  | function (id : ℕ)
  | static (id : ℕ)
  | const (id : ℕ)
  | type (ty : Ty)
  deriving DecidableEq

structure HirProgram where
  types : TypeContext := {}
  functions : List HirFunction := []
  statics : List HirStatic := []
  consts : List HirConst := []
  symbols : List (QualifiedName × Symbol) := []

end Ostadix.Ocore
