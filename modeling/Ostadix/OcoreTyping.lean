import Ostadix.OcoreBody

/-! The typing rules of the typed program: what the checker of bodies establishes. -/

namespace Ostadix.Ocore

/-! ## What a body can see of the program -/

structure Signature where
  params : List Ty
  result : Ty
  abi : Abi
  isUnsafe : Bool
  deriving DecidableEq

def HirFunction.signature (function : HirFunction) : Signature where
  params := function.params.map fun param => ((function.locals[param]?).map (·.ty)).getD .void
  result := function.result
  abi := function.abi
  isUnsafe := function.isUnsafe

/-- The program as a body sees it; the bodies of functions are not part of it. -/
structure Env where
  types : TypeContext
  statics : List HirStatic
  consts : List HirConst
  signatures : List Signature

def HirProgram.env (program : HirProgram) : Env where
  types := program.types
  statics := program.statics
  consts := program.consts
  signatures := program.functions.map (·.signature)

/-! ## Rules -/

open BodyChecker

/-- A value of one type can stand for a value of another. -/
def Assignable (actual expected : Ty) : Prop := actual = expected ∨ actual = .never

inductive ConstantRule (env : Env) : HirConstValue → Ty → Prop where
  | literal {n : UInt64} {ty : Ty} {max : ℕ} (hmax : literalMax ty = some max)
    (hfits : n.toNat ≤ max) : ConstantRule env (.integer n) ty
  | bool {b : Bool} : ConstantRule env (.bool b) .bool
  | bytes {bytes : List UInt8} :
    ConstantRule env (.bytes bytes) (.array .u8 (.ofNat bytes.length))
  | const {id : ℕ} {const : HirConst} (h : env.consts[id]? = some const) :
    ConstantRule env const.value const.ty

/-- The rules of unary operators; `u` says whether the place is unsafe. -/
inductive UnaryRule (env : Env) (locals : List HirLocal) (u : Bool) :
    UnaryOp → HirExpr → Ty → Prop where
  | neg {e : HirExpr} (h : e.ty.isInteger) : UnaryRule env locals u .neg e e.ty
  | bitNot {e : HirExpr} (h : e.ty.isInteger) : UnaryRule env locals u .bitNot e e.ty
  | not {e : HirExpr} (h : Assignable e.ty .bool) : UnaryRule env locals u .not e .bool
  | deref {e : HirExpr} {isMut : Bool} {ty : Ty} (hu : u) (h : e.ty = .pointer isMut ty) :
    UnaryRule env locals u .deref e ty
  | addressOf {e : HirExpr} (h : isAddressable e) :
    UnaryRule env locals u (.addressOf false) e (.pointer false e.ty)
  | addressOfMut {e : HirExpr} (h : placeIsMutable locals env.statics e) :
    UnaryRule env locals u (.addressOf true) e (.pointer true e.ty)

inductive BinaryRule (u : Bool) : BinaryOp → Ty → Ty → Ty → Prop where
  | logical {op : BinaryOp} {lhs rhs : Ty} (hop : isLogical op) (hl : Assignable lhs .bool)
    (hr : Assignable rhs .bool) : BinaryRule u op lhs rhs .bool
  | comparison {op : BinaryOp} {lhs rhs : Ty} (hop : isComparison op) (hr : Assignable rhs lhs)
    (hfloat : lhs.isFloat = false) (hl : lhs.isScalar) : BinaryRule u op lhs rhs .bool
  | shift {op : BinaryOp} {lhs rhs : Ty} (hop : isShift op) (hl : lhs.isInteger)
    (hr : rhs.isInteger) : BinaryRule u op lhs rhs lhs
  | offset {op : BinaryOp} {lhs rhs : Ty} (hop : isAddSub op) (hl : lhs.isPointer)
    (hr : rhs.isInteger) (hu : u) : BinaryRule u op lhs rhs lhs
  | arithmetic {op : BinaryOp} {lhs rhs : Ty} (hlogical : isLogical op = false)
    (hcomparison : isComparison op = false) (hshift : isShift op = false)
    (hl : lhs.isInteger) (hr : Assignable rhs lhs) : BinaryRule u op lhs rhs lhs

/-- A plain assignment takes any type, a compound one needs an integer target. -/
inductive AssignRule : Option BinaryOp → Ty → Ty → Prop where
  | plain {target value : Ty} (h : Assignable value target) : AssignRule none target value
  | shift {op : BinaryOp} {target value : Ty} (hop : isShift op) (ht : target.isInteger)
    (hv : value.isInteger) : AssignRule (some op) target value
  | compound {op : BinaryOp} {target value : Ty} (hop : isShift op = false)
    (ht : target.isInteger) (hv : Assignable value target) : AssignRule (some op) target value

inductive IntrinsicRule : Intrinsic → List HirExpr → Ty → Prop where
  | fixed {intrinsic : Intrinsic} {args : List HirExpr} {tys : List Ty} {result : Ty}
    (hsignature : intrinsicSignature intrinsic = some (tys, result))
    (hargs : List.Forall₂ (fun arg ty => Assignable arg.ty ty) args tys) :
    IntrinsicRule intrinsic args result
  | volatileLoad {pointer : HirExpr} {isMut : Bool} {pointee : Ty}
    (hpointer : pointer.ty = .pointer isMut pointee) (hscalar : pointee.isScalar) :
    IntrinsicRule .volatileLoad [pointer] pointee
  | volatileStore {pointer value : HirExpr} {pointee : Ty}
    (hpointer : pointer.ty = .pointer true pointee) (hscalar : pointee.isScalar)
    (hvalue : Assignable value.ty pointee) :
    IntrinsicRule .volatileStore [pointer, value] .void
  | atomic {intrinsic : Intrinsic} {pointer : HirExpr} {values orders : List HirExpr}
    {isMut : Bool} {pointee : Ty} (hkind : intrinsicSignature intrinsic = none)
    (hload : intrinsic ≠ .volatileLoad) (hstore : intrinsic ≠ .volatileStore)
    (hpointer : pointer.ty = .pointer isMut pointee) (hinteger : pointee.isInteger)
    (hmut : isMut ∨ intrinsic = .atomicLoad) (hvalues : values.length = (atomicArity intrinsic).1)
    (horders : orders.length = (atomicArity intrinsic).2)
    (horder : ∀ order ∈ orders, checkMemoryOrder intrinsic order = .ok ()) :
    IntrinsicRule intrinsic (pointer :: values ++ orders) (atomicResult intrinsic pointee)

def ElementRule (u : Bool) (base element : Ty) : Prop :=
  (∃ len, base = .array element len) ∨ (∃ isMut, base = .pointer isMut element) ∧ u

structure CastRule (u : Bool) (source target : Ty) : Prop where
  sourceFloat : source.isFloat = false
  targetFloat : target.isFloat = false
  sourceScalar : source.isScalar
  targetScalar : target.isScalar
  crossing : source.isPointer ≠ target.isPointer → u

def AsmType (ty : Ty) : Prop := ty.isScalar ∧ ty.isFloat = false

inductive OperandRule (env : Env) (locals : List HirLocal) :
    AsmOperand HirExpr HirExpr → Prop where
  | input {register : String} {value : HirExpr} (h : AsmType value.ty) :
    OperandRule env locals (.input register value)
  | output {register : String} {target : HirExpr} (h : AsmType target.ty)
    (hplace : placeIsMutable locals env.statics target) :
    OperandRule env locals (.output register target)
  | inOut {register : String} {source target : HirExpr} (hs : AsmType source.ty)
    (ht : AsmType target.ty) (hplace : placeIsMutable locals env.statics target)
    (hty : Assignable target.ty source.ty) :
    OperandRule env locals (.inOut register source target)

/-- The expressions of a body, at a place that is unsafe or not. -/
inductive Typed (env : Env) (locals : List HirLocal) (u : Bool) : HirExpr → Prop where
  | constant {value : HirConstValue} {ty : Ty} (h : ConstantRule env value ty) :
    Typed env locals u (.constant value ty)
  | localVar {id : ℕ} {l : HirLocal} (h : locals[id]? = some l) :
    Typed env locals u (.localVar id l.ty)
  | static {id : ℕ} {static : HirStatic} (h : env.statics[id]? = some static)
    (hu : static.isMut → u) : Typed env locals u (.static id static.ty)
  | function {id : ℕ} {signature : Signature} (h : env.signatures[id]? = some signature) :
    Typed env locals u
      (.function id (.function signature.params signature.result signature.abi))
  | enumVariant {enumId variant : ℕ} {args : List HirExpr} {definition : EnumType}
    {variantDef : EnumVariant} (hdef : env.types.enums[enumId]? = some definition)
    (hvariant : definition.variants[variant]? = some variantDef)
    (hargs : List.Forall₂ (fun arg ty => Assignable arg.ty ty) args variantDef.payload)
    (hparts : ∀ arg ∈ args, Typed env locals u arg) :
    Typed env locals u (.enumVariant enumId variant args (.enum enumId))
  | array {values : List HirExpr} {element : Ty}
    (helement : ∀ value ∈ values, Assignable value.ty element)
    (hparts : ∀ value ∈ values, Typed env locals u value) :
    Typed env locals u (.array values (.array element (.ofNat values.length)))
  | arrayRepeat {value : HirExpr} {len : UInt64} (hvalue : Typed env locals u value) :
    Typed env locals u (.arrayRepeat value len (.array value.ty len))
  | struct {id : ℕ} {fields : List HirExpr} {definition : StructType}
    (hdef : env.types.structs[id]? = some definition)
    (hfields : List.Forall₂ (fun value (field : StructField) => Assignable value.ty field.ty)
      fields definition.fields)
    (hparts : ∀ value ∈ fields, Typed env locals u value) :
    Typed env locals u (.struct id fields (.struct id))
  | unary {op : UnaryOp} {operand : HirExpr} {ty : Ty}
    (h : UnaryRule env locals u op operand ty) (hoperand : Typed env locals u operand) :
    Typed env locals u (.unary op operand ty)
  | binary {op : BinaryOp} {lhs rhs : HirExpr} {ty : Ty}
    (h : BinaryRule u op lhs.ty rhs.ty ty) (hlhs : Typed env locals u lhs)
    (hrhs : Typed env locals u rhs) : Typed env locals u (.binary op lhs rhs ty)
  | assign {op : Option BinaryOp} {target value : HirExpr}
    (hplace : placeIsMutable locals env.statics target) (h : AssignRule op target.ty value.ty)
    (htarget : Typed env locals u target) (hvalue : Typed env locals u value) :
    Typed env locals u (.assign op target value .void)
  | call {id : ℕ} {args : List HirExpr} {signature : Signature}
    (h : env.signatures[id]? = some signature) (habi : signature.abi ≠ .interrupt)
    (hu : signature.isUnsafe → u)
    (hargs : List.Forall₂ (fun arg ty => Assignable arg.ty ty) args signature.params)
    (hparts : ∀ arg ∈ args, Typed env locals u arg) :
    Typed env locals u (.call id args signature.result)
  | intrinsic {intrinsic : Intrinsic} {args : List HirExpr} {ty : Ty} (hu : u)
    (h : IntrinsicRule intrinsic args ty) (hparts : ∀ arg ∈ args, Typed env locals u arg) :
    Typed env locals u (.intrinsic intrinsic args ty)
  | field {base : HirExpr} {id index : ℕ} {definition : StructType} {field : StructField}
    (hbase : base.ty = .struct id) (hdef : env.types.structs[id]? = some definition)
    (hfield : definition.fields[index]? = some field) (hpart : Typed env locals u base) :
    Typed env locals u (.field base index field.offset field.ty)
  | index {base offset : HirExpr} {ty : Ty} (h : ElementRule u base.ty ty)
    (hoffset : offset.ty.isInteger) (hbase : Typed env locals u base)
    (hpart : Typed env locals u offset) : Typed env locals u (.index base offset ty)
  | cast {value : HirExpr} {ty : Ty} (h : CastRule u value.ty ty)
    (hvalue : Typed env locals u value) : Typed env locals u (.cast value ty)
  | asm {template : String} {operands : List (AsmOperand HirExpr HirExpr)} {options : List String}
    (hu : u) (h : ∀ operand ∈ operands, OperandRule env locals operand)
    (hparts : ∀ operand ∈ operands, ∀ e ∈ operand.parts, Typed env locals u e) :
    Typed env locals u (.asm template operands options .void)

variable {env : Env} {locals locals' : List HirLocal} {u : Bool} {e : HirExpr}

lemma Typed.parts (h : Typed env locals u e) : ∀ e' ∈ e.parts, Typed env locals u e' := by
  cases h with
  | constant | localVar | static | function => simp [HirExpr.parts]
  | enumVariant _ _ _ hparts | array _ hparts | struct _ _ hparts | call _ _ _ _ hparts
  | intrinsic _ _ hparts => exact hparts
  | arrayRepeat h | unary _ h | field _ _ _ h | cast _ h => simpa [HirExpr.parts] using h
  | binary _ hl hr => simpa [HirExpr.parts] using ⟨hl, hr⟩
  | assign _ _ ht hv => simpa [HirExpr.parts] using ⟨ht, hv⟩
  | index _ _ hb hi => simpa [HirExpr.parts] using ⟨hb, hi⟩
  | asm _ _ hparts =>
    intro e' he'
    obtain ⟨operand, hmem, he'⟩ := List.mem_flatMap.1 he'
    exact hparts operand hmem e' he'

/-! ## More locals -/

lemma placeIsMutable_mono {statics : List HirStatic} (hl : locals <+: locals')
    (h : placeIsMutable locals statics e) :
    placeIsMutable locals' statics e := by
  induction e using HirExpr.induction with
  | step e ih =>
  cases e with
  | localVar id ty =>
    simp only [placeIsMutable] at h ⊢
    cases hid : locals[id]? with
    | none => simp [hid] at h
    | some l => rw [getElem?_of_isPrefix hl hid]; simpa [hid] using h
  | field base _ _ _ => exact ih base (by simp [HirExpr.parts]) h
  | index base offset _ => exact ih base (by simp [HirExpr.parts]) h
  | unary op operand ty => cases op <;> exact h
  | _ => exact h

lemma UnaryRule.mono (hl : locals <+: locals') {op : UnaryOp} {ty : Ty}
    (h : UnaryRule env locals u op e ty) :
    UnaryRule env locals' u op e ty := by
  cases h with
  | neg h => exact .neg h
  | bitNot h => exact .bitNot h
  | not h => exact .not h
  | deref hu h => exact .deref hu h
  | addressOf h => exact .addressOf h
  | addressOfMut h => exact .addressOfMut (placeIsMutable_mono hl h)

lemma OperandRule.mono (hl : locals <+: locals') {operand : AsmOperand HirExpr HirExpr}
    (h : OperandRule env locals operand) :
    OperandRule env locals' operand := by
  cases h with
  | input h => exact .input h
  | output h hplace => exact .output h (placeIsMutable_mono hl hplace)
  | inOut hs ht hplace hty => exact .inOut hs ht (placeIsMutable_mono hl hplace) hty

/-- An expression stays typed when more locals are declared. -/
lemma Typed.mono (hl : locals <+: locals') (h : Typed env locals u e) : Typed env locals' u e := by
  induction h with
  | constant h => exact .constant h
  | localVar h => exact .localVar (getElem?_of_isPrefix hl h)
  | static h hu => exact .static h hu
  | function h => exact .function h
  | enumVariant hdef hvariant hargs _ ih => exact .enumVariant hdef hvariant hargs ih
  | array helement _ ih => exact .array helement ih
  | arrayRepeat _ ih => exact .arrayRepeat ih
  | struct hdef hfields _ ih => exact .struct hdef hfields ih
  | unary h _ ih => exact .unary (h.mono hl) ih
  | binary h _ _ ihl ihr => exact .binary h ihl ihr
  | assign hplace h _ _ iht ihv => exact .assign (placeIsMutable_mono hl hplace) h iht ihv
  | call h habi hu hargs _ ih => exact .call h habi hu hargs ih
  | intrinsic hu h _ ih => exact .intrinsic hu h ih
  | field hbase hdef hfield _ ih => exact .field hbase hdef hfield ih
  | index h hoffset _ _ ihb iho => exact .index h hoffset ihb iho
  | cast h _ ih => exact .cast h ih
  | asm hu h _ ih => exact .asm hu (fun operand ho => (h operand ho).mono hl) ih

/-! ## Statements and functions -/

/-- The statements of a body with a result type, at a place that is unsafe or not, in a loop or
not. -/
inductive TypedStmt (env : Env) (locals : List HirLocal) (result : Ty) :
    Bool → Bool → HirStmt → Prop where
  | letStmt {u inLoop : Bool} {id : ℕ} {l : HirLocal} {init : HirExpr}
    (hl : locals[id]? = some l) (hinit : Typed env locals u init)
    (hty : Assignable init.ty l.ty) : TypedStmt env locals result u inLoop (.letStmt id init)
  | exprStmt {u inLoop : Bool} {e : HirExpr} (h : Typed env locals u e) :
    TypedStmt env locals result u inLoop (.exprStmt e)
  | ifStmt {u inLoop : Bool} {condition : HirExpr} {thenBlock : HirBlock}
    {elseBlock : Option HirBlock} (hcondition : Typed env locals u condition)
    (hty : Assignable condition.ty .bool)
    (hthen : ∀ s ∈ thenBlock, TypedStmt env locals result u inLoop s)
    (helse : ∀ block, elseBlock = some block →
      ∀ s ∈ block, TypedStmt env locals result u inLoop s) :
    TypedStmt env locals result u inLoop (.ifStmt condition thenBlock elseBlock)
  | whileStmt {u inLoop : Bool} {condition : HirExpr} {body : HirBlock}
    (hcondition : Typed env locals u condition) (hty : Assignable condition.ty .bool)
    (hbody : ∀ s ∈ body, TypedStmt env locals result u true s) :
    TypedStmt env locals result u inLoop (.whileStmt condition body)
  | loopStmt {u inLoop : Bool} {body : HirBlock}
    (hbody : ∀ s ∈ body, TypedStmt env locals result u true s) :
    TypedStmt env locals result u inLoop (.loopStmt body)
  | unsafeStmt {u inLoop : Bool} {body : HirBlock}
    (hbody : ∀ s ∈ body, TypedStmt env locals result true inLoop s) :
    TypedStmt env locals result u inLoop (.unsafeStmt body)
  | returnValue {u inLoop : Bool} {value : HirExpr} (h : Typed env locals u value)
    (hty : Assignable value.ty result) :
    TypedStmt env locals result u inLoop (.returnStmt (some value))
  | returnVoid {u inLoop : Bool} (h : result = .void) :
    TypedStmt env locals result u inLoop (.returnStmt none)
  | breakStmt {u : Bool} : TypedStmt env locals result u true .breakStmt
  | continueStmt {u : Bool} : TypedStmt env locals result u true .continueStmt

end Ostadix.Ocore
