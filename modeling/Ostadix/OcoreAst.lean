import Mathlib.Data.List.Basic

/-! The syntax of O-core modules, without source positions. -/

namespace Ostadix.Ocore

/-! ## Names and operators -/

/-- A path `first::rest`; a path is never empty. -/
structure Path where
  first : String
  rest : List String
  deriving DecidableEq, Repr

/-- A qualified name is the list of the segments that the source joins with `::`. -/
abbrev QualifiedName := List String

def Path.segments (path : Path) : QualifiedName := path.first :: path.rest

inductive Abi where
  | ocore | sysV64 | interrupt
  deriving DecidableEq, Repr

inductive UnaryOp where
  | neg | not | bitNot | deref
  | addressOf (isMut : Bool)
  deriving DecidableEq, Repr

inductive BinaryOp where
  | add | sub | mul | div | rem
  | bitAnd | bitOr | bitXor | shiftLeft | shiftRight
  | eq | notEq | less | lessEq | greater | greaterEq
  | logicalAnd | logicalOr
  deriving DecidableEq, Repr

/-! ## Types and expressions -/

inductive TypeExpr where
  | named (path : Path)
  | pointer (isMut : Bool) (pointee : TypeExpr)
  | array (element : TypeExpr) (len : UInt64)
  | fnPointer (params : List TypeExpr) (result : TypeExpr)

/-- An operand of inline assembly. The inputs are values, the outputs are places. -/
inductive AsmOperand (value place : Type) where
  | input (register : String) (value : value)
  | output (register : String) (target : place)
  | inOut (register : String) (input : value) (output : place)

inductive Expr where
  | integer (value : UInt64)
  | bool (value : Bool)
  | byte (value : UInt8)
  | string (value : String)
  | byteString (bytes : List UInt8)
  | path (path : Path)
  | array (values : List Expr)
  | arrayRepeat (value : Expr) (len : UInt64)
  | struct (path : Path) (fields : List (String × Expr))
  | unary (op : UnaryOp) (operand : Expr)
  | binary (op : BinaryOp) (lhs rhs : Expr)
  | assign (op : Option BinaryOp) (target value : Expr)
  | call (callee : Expr) (args : List Expr)
  | field (base : Expr) (name : String)
  | index (base index : Expr)
  | cast (value : Expr) (ty : TypeExpr)
  | asm (template : String) (operands : List (AsmOperand Expr Expr)) (options : List String)

namespace AsmOperand

def parts {α : Type} : AsmOperand α α → List α
  | .input _ value => [value]
  | .output _ target => [target]
  | .inOut _ source target => [source, target]

end AsmOperand

def Expr.parts : Expr → List Expr
  | .integer _ | .bool _ | .byte _ | .string _ | .byteString _ | .path _ => []
  | .array values => values
  | .arrayRepeat value _ | .cast value _ => [value]
  | .struct _ fields => fields.map Prod.snd
  | .unary _ operand => [operand]
  | .binary _ lhs rhs => [lhs, rhs]
  | .assign _ target value => [target, value]
  | .call callee args => callee :: args
  | .field base _ => [base]
  | .index base offset => [base, offset]
  | .asm _ operands _ => operands.flatMap AsmOperand.parts

/-- What holds of an expression whenever it holds of its parts holds of every expression. -/
lemma Expr.induction {P : Expr → Prop} (step : ∀ e : Expr, (∀ e' ∈ e.parts, P e') → P e)
    (e : Expr) : P e := by
  have leaf : ∀ e : Expr, e.parts = [] → P e := by
    intro e he
    apply step e
    simp [he]
  refine @Expr.rec P (fun es => ∀ e ∈ es, P e) (fun fields => ∀ e ∈ fields.map Prod.snd, P e)
    (fun operands => ∀ e ∈ operands.flatMap AsmOperand.parts, P e) (fun field => P field.2)
    (fun operand => ∀ e ∈ operand.parts, P e)
    (fun _ => leaf _ rfl) (fun _ => leaf _ rfl) (fun _ => leaf _ rfl) (fun _ => leaf _ rfl)
    (fun _ => leaf _ rfl) (fun _ => leaf _ rfl) (fun _ h => step _ h) (fun _ _ h => step _ ?_)
    (fun _ _ h => step _ h) (fun _ _ h => step _ ?_) (fun _ _ _ hl hr => step _ ?_)
    (fun _ _ _ ht hv => step _ ?_) (fun _ _ hc ha => step _ ?_) (fun _ _ h => step _ ?_)
    (fun _ _ hb hi => step _ ?_) (fun _ _ h => step _ ?_) (fun _ _ _ h => step _ h)
    ?_ ?_ ?_ ?_ ?_ ?_ ?_ ?_ ?_ ?_ e
  · simpa [Expr.parts] using h
  · simpa [Expr.parts] using h
  · simpa [Expr.parts] using ⟨hl, hr⟩
  · simpa [Expr.parts] using ⟨ht, hv⟩
  · simpa [Expr.parts] using ⟨hc, ha⟩
  · simpa [Expr.parts] using h
  · simpa [Expr.parts] using ⟨hb, hi⟩
  · simpa [Expr.parts] using h
  -- The lists of expressions, of fields and of operands.
  · simp
  · intro e es he hes
    simpa using ⟨he, hes⟩
  · simp
  · intro field fields hf hfields
    simpa using ⟨hf, by simpa using hfields⟩
  · simp
  · intro operand operands ho hoperands e he
    rcases List.mem_append.1 he with he | he
    · exact ho e he
    · exact hoperands e he
  · exact fun _ _ h => h
  · intro _ _ h
    simpa [AsmOperand.parts] using h
  · intro _ _ h
    simpa [AsmOperand.parts] using h
  · intro _ _ _ hs ht
    simpa [AsmOperand.parts] using ⟨hs, ht⟩

/-! ## Statements -/

inductive Stmt where
  | letStmt (isMut : Bool) (name : String) (ty : Option TypeExpr) (init : Expr)
  | exprStmt (expr : Expr)
  | ifStmt (condition : Expr) (thenBlock : List Stmt) (elseBlock : Option (List Stmt))
  | whileStmt (condition : Expr) (body : List Stmt)
  | loopStmt (body : List Stmt)
  | unsafeStmt (body : List Stmt)
  | returnStmt (value : Option Expr)
  | breakStmt
  | continueStmt

abbrev Block := List Stmt

/-! ## Items -/

inductive AttrArg where
  | string (value : String)
  | integer (value : UInt64)
  | ident (name : String)

structure Attribute where
  name : String
  args : List AttrArg := []

structure Param where
  name : String
  ty : TypeExpr

structure Function where
  name : String
  isUnsafe : Bool := false
  abi : Abi := .ocore
  params : List Param := []
  returnType : TypeExpr
  body : Option Block

structure FieldDef where
  name : String
  ty : TypeExpr

structure StructDef where
  name : String
  fields : List FieldDef

structure VariantDef where
  name : String
  payload : List TypeExpr

structure EnumDef where
  name : String
  variants : List VariantDef

structure StaticDef where
  name : String
  isMut : Bool
  ty : TypeExpr
  init : Expr

structure ConstDef where
  name : String
  ty : TypeExpr
  init : Expr

inductive ItemKind where
  | function (def_ : Function)
  | struct (def_ : StructDef)
  | enum (def_ : EnumDef)
  | static (def_ : StaticDef)
  | const (def_ : ConstDef)

structure Item where
  attrs : List Attribute := []
  isPublic : Bool := false
  kind : ItemKind

structure UseDecl where
  path : Path
  rename : Option String

structure SourceModule where
  name : Path
  uses : List UseDecl := []
  items : List Item

end Ostadix.Ocore
