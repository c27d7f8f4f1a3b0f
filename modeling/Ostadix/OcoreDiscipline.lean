import Ostadix.OcorePasses
import Ostadix.OcoreTypingSound

/-! The discipline of writes and of unsafe operations in accepted programs. -/

namespace Ostadix.Ocore

open BodyChecker HirExpr List

/-! ## Places -/

/-- The mutability of the last pointer that the path of a place passes through. -/
def lastPointer : HirExpr → Option Bool
  | .unary .deref operand _ =>
    match operand.ty with
    | .pointer isMut _ => some isMut
    | _ => none
  | .index base _ _ =>
    match base.ty with
    | .pointer isMut _ => some isMut
    | _ => lastPointer base
  | .field base _ _ _ => lastPointer base
  | _ => none

def rootIsMutable (locals : List HirLocal) (statics : List HirStatic) : HirExpr → Bool
  | .localVar id _ => (locals[id]?.map (·.isMut)).getD false
  | .static id _ => (statics[id]?.map (·.isMut)).getD false
  | .field base _ _ _ | .index base _ _ => rootIsMutable locals statics base
  | _ => false

def Writable (locals : List HirLocal) (statics : List HirStatic) (place : HirExpr) : Prop :=
  (lastPointer place).getD (rootIsMutable locals statics place) = true

/-- The last pointer of a place is indexed, and is a pointer to constant data. -/
def indexesConst : HirExpr → Bool
  | .index base _ _ =>
    match base.ty with
    | .pointer isMut _ => !isMut
    | _ => indexesConst base
  | .field base _ _ _ => indexesConst base
  | _ => false

variable {locals : List HirLocal} {env : Env} {u : Bool} {e : HirExpr} {modules : List SourceModule}

/-- The checker asks for a mutable pointer at a dereference, not at an index. -/
lemma writable_iff_of_placeIsMutable {statics : List HirStatic} {place : HirExpr}
    (h : placeIsMutable locals statics place) :
    Writable locals statics place ↔ indexesConst place = false := by
  induction place using HirExpr.induction with
  | step place ih =>
  cases place with
  | localVar id ty | static id ty =>
    simp only [Writable, lastPointer, indexesConst, Option.getD_none, iff_true]
    exact h
  | field base _ _ _ => exact ih base (by simp [parts]) h
  | index base offset _ =>
    have hbase := ih base (by simp [parts]) h
    unfold Writable at hbase ⊢
    unfold lastPointer rootIsMutable indexesConst
    split
    · simp
    · exact hbase
  | unary op operand ty =>
    cases op with
    | deref =>
      unfold placeIsMutable at h
      split at h
      · rename_i hty
        simp [Writable, lastPointer, indexesConst, hty]
      · simp at h
    | _ => simp [placeIsMutable] at h
  | _ => simp [placeIsMutable] at h

/-! ## Occurrences -/

inductive Under (e : HirExpr) : HirExpr → Prop where
  | here : Under e e
  | part {e' outer : HirExpr} (hpart : e' ∈ outer.parts) (h : Under e e') : Under e outer

/-- An expression in a statement. The flags say whether it and the statement are inside unsafe. -/
inductive Occurs (e : HirExpr) : Bool → Bool → HirStmt → Prop where
  | letStmt {u : Bool} {id : ℕ} {init : HirExpr} (h : Under e init) :
    Occurs e u u (.letStmt id init)
  | exprStmt {u : Bool} {expr : HirExpr} (h : Under e expr) : Occurs e u u (.exprStmt expr)
  | ifCondition {u : Bool} {condition : HirExpr} {thenBlock : HirBlock}
    {elseBlock : Option HirBlock} (h : Under e condition) :
    Occurs e u u (.ifStmt condition thenBlock elseBlock)
  | ifThen {v u : Bool} {condition : HirExpr} {thenBlock : HirBlock} {elseBlock : Option HirBlock}
    {s : HirStmt} (hs : s ∈ thenBlock) (h : Occurs e v u s) :
    Occurs e v u (.ifStmt condition thenBlock elseBlock)
  | ifElse {v u : Bool} {condition : HirExpr} {thenBlock elseBlock : HirBlock} {s : HirStmt}
    (hs : s ∈ elseBlock) (h : Occurs e v u s) :
    Occurs e v u (.ifStmt condition thenBlock (some elseBlock))
  | whileCondition {u : Bool} {condition : HirExpr} {body : HirBlock} (h : Under e condition) :
    Occurs e u u (.whileStmt condition body)
  | whileBody {v u : Bool} {condition : HirExpr} {body : HirBlock} {s : HirStmt} (hs : s ∈ body)
    (h : Occurs e v u s) : Occurs e v u (.whileStmt condition body)
  | loopBody {v u : Bool} {body : HirBlock} {s : HirStmt} (hs : s ∈ body) (h : Occurs e v u s) :
    Occurs e v u (.loopStmt body)
  | unsafeBody {v u : Bool} {body : HirBlock} {s : HirStmt} (hs : s ∈ body)
    (h : Occurs e v true s) : Occurs e v u (.unsafeStmt body)
  | returnStmt {u : Bool} {value : HirExpr} (h : Under e value) :
    Occurs e u u (.returnStmt (some value))

/-- An expression stands in the body of a function, inside an unsafe block or function or not. -/
def HirFunction.Contains (function : HirFunction) (e : HirExpr) (u : Bool) : Prop :=
  ∃ body, function.body = some body ∧ ∃ s ∈ body, Occurs e u function.isUnsafe s

lemma Typed.under {outer : HirExpr} (hunder : Under e outer) (h : Typed env locals u outer) :
    Typed env locals u e := by
  induction hunder with
  | here => exact h
  | part hpart _ ih => exact ih (h.parts _ hpart)

lemma TypedStmt.typed_of_occurs {result : Ty} {v inLoop : Bool} {s : HirStmt}
    (ho : Occurs e v u s) (h : TypedStmt env locals result u inLoop s) : Typed env locals v e := by
  induction ho generalizing inLoop with
  | letStmt hunder =>
    cases h with
    | letStmt _ hinit _ => exact hinit.under hunder
  | exprStmt hunder =>
    cases h with
    | exprStmt h => exact h.under hunder
  | ifCondition hunder =>
    cases h with
    | ifStmt hcondition => exact hcondition.under hunder
  | ifThen hs _ ih =>
    cases h with
    | ifStmt _ _ hthen _ => exact ih (hthen _ hs)
  | ifElse hs _ ih =>
    cases h with
    | ifStmt _ _ _ helse => exact ih (helse _ rfl _ hs)
  | whileCondition hunder =>
    cases h with
    | whileStmt hcondition => exact hcondition.under hunder
  | whileBody hs _ ih =>
    cases h with
    | whileStmt _ _ hbody => exact ih (hbody _ hs)
  | loopBody hs _ ih =>
    cases h with
    | loopStmt hbody => exact ih (hbody _ hs)
  | unsafeBody hs _ ih =>
    cases h with
    | unsafeStmt hbody => exact ih (hbody _ hs)
  | returnStmt hunder =>
    cases h with
    | returnValue h => exact h.under hunder

/-! ## The two disciplines -/

/-- The places that an expression assigns to or borrows mutably. -/
def HirExpr.written : HirExpr → List HirExpr
  | .assign _ target _ _ => [target]
  | .unary (.addressOf true) operand _ => [operand]
  | _ => []

/-- The unsafe operations, given the mutable statics and the unsafe functions. -/
def NeedsUnsafe (mutableStatics unsafeFunctions : List Bool) : HirExpr → Prop
  | .unary .deref _ _ => True
  | .index base _ _ => base.ty.isPointer
  | .binary op lhs rhs _ =>
    ¬isComparison op ∧ ¬isLogical op ∧ (lhs.ty.isPointer ∨ rhs.ty.isPointer)
  | .assign (some _) target _ _ => target.ty.isPointer
  | .static id _ => mutableStatics[id]? = some true
  | .call id _ _ => unsafeFunctions[id]? = some true
  | .asm .. | .intrinsic .. => True
  | _ => False

def WritesMutable (program : HirProgram) : Prop :=
  ∀ function ∈ program.functions, ∀ e u, function.Contains e u →
    ∀ place ∈ e.written, Writable function.locals program.statics place

def UnsafeIsMarked (program : HirProgram) : Prop :=
  ∀ function ∈ program.functions, ∀ e u, function.Contains e u →
    NeedsUnsafe (program.statics.map (·.isMut)) (program.functions.map (·.isUnsafe)) e → u = true

/-- No place that is written has for its last pointer a constant pointer that it indexes. -/
def NoConstIndexWritten (program : HirProgram) : Prop :=
  ∀ function ∈ program.functions, ∀ e u, function.Contains e u →
    ∀ place ∈ e.written, indexesConst place = false

lemma Typed.placeIsMutable_of_written {place : HirExpr} (h : Typed env locals u e)
    (hplace : place ∈ e.written) :
    placeIsMutable locals env.statics place := by
  cases h with
  | assign hmut =>
    obtain rfl := mem_singleton.1 hplace
    exact hmut
  | unary hrule _ =>
    cases hrule with
    | addressOfMut hmut =>
      obtain rfl := mem_singleton.1 hplace
      exact hmut
    | _ => simp [written] at hplace
  | _ => simp [written] at hplace

lemma Ty.not_isPointer_of_isInteger {ty : Ty} (h : ty.isInteger) : ¬ty.isPointer := by
  cases ty <;> simp_all [Ty.isInteger, Ty.isPointer]

lemma BinaryRule.unsafe_of_isPointer {op : BinaryOp} {lhs rhs ty : Ty}
    (h : BinaryRule u op lhs rhs ty) (hcomparison : ¬isComparison op) (hlogical : ¬isLogical op)
    (hpointer : lhs.isPointer ∨ rhs.isPointer) : u = true := by
  cases h with
  | logical hop => exact absurd hop hlogical
  | comparison hop => exact absurd hop hcomparison
  | offset _ _ _ hu => exact hu
  | shift _ hl hr =>
    rcases hpointer with hp | hp
    · exact absurd hp (Ty.not_isPointer_of_isInteger hl)
    · exact absurd hp (Ty.not_isPointer_of_isInteger hr)
  | arithmetic _ _ _ hl hr =>
    have hlhs := Ty.not_isPointer_of_isInteger hl
    rcases hpointer with hp | hp
    · exact absurd hp hlhs
    · rcases hr with rfl | rfl
      · exact absurd hp hlhs
      · simp [Ty.isPointer] at hp

lemma Typed.unsafe_of_needsUnsafe (h : Typed env locals u e)
    (hneeds : NeedsUnsafe (env.statics.map (·.isMut)) (env.signatures.map (·.isUnsafe)) e) :
    u = true := by
  cases h with
  | unary hrule _ =>
    cases hrule with
    | deref hu => exact hu
    | _ => exact hneeds.elim
  | index hrule =>
    rcases hrule with ⟨len, hty⟩ | ⟨_, hu⟩
    · simp [NeedsUnsafe, hty, Ty.isPointer] at hneeds
    · exact hu
  | binary hrule _ _ => exact hrule.unsafe_of_isPointer hneeds.1 hneeds.2.1 hneeds.2.2
  | assign _ hrule _ _ =>
    cases hrule with
    | plain => exact hneeds.elim
    | shift _ ht _ | compound _ ht _ => exact absurd hneeds (Ty.not_isPointer_of_isInteger ht)
  | static hid hu =>
    apply hu
    simpa [NeedsUnsafe, hid] using hneeds
  | call hid _ hu _ _ =>
    apply hu
    simpa [NeedsUnsafe, hid] using hneeds
  | intrinsic hu => exact hu
  | asm hu => exact hu
  | _ => exact hneeds.elim

/-! ## Accepted programs -/

/-- What a body sees of the program agrees with the program on the marks. -/
structure SeenFrom (env : Env) (program : HirProgram) : Prop where
  statics : env.statics = program.statics
  unsafes : env.signatures.map (·.isUnsafe) = program.functions.map (·.isUnsafe)

/-- The bodies that have been checked follow the typing rules. -/
def BodiesTyped (program : HirProgram) : Prop :=
  ∀ function ∈ program.functions, ∀ body, function.body = some body →
    ∃ env, SeenFrom env program ∧
      ∀ s ∈ body, TypedStmt env function.locals function.result function.isUnsafe false s

lemma bodiesTyped_checkFunctionBody {p p' : HirProgram}
    {entry : (ModuleScope × Function) × ℕ} (h : Checker.checkFunctionBody p entry = .ok p')
    (hp : BodiesTyped p) : BodiesTyped p' := by
  obtain ⟨⟨scope, definition⟩, id⟩ := entry
  unfold Checker.checkFunctionBody at h
  dsimp only at h
  split at h
  · exact Except.ok.inj h ▸ hp
  simp only [bind_eq_ok, nth_eq_ok] at h
  obtain ⟨function, hid, ⟨body, inner⟩, hbody, _, -, _, -, h⟩ := h
  cases h
  have hunsafes : (p.functions.set id { function with
      locals := inner.locals, body := some body }).map (·.isUnsafe) =
      p.functions.map (·.isUnsafe) := map_set_of_eq hid rfl
  obtain ⟨-, htyped⟩ := typedAt_checkStmts hbody
  intro f hf body' hbody'
  rcases mem_or_eq_of_mem_set hf with hf | rfl
  · -- The other bodies were checked before and see the same marks.
    obtain ⟨env, hseen, hstmts⟩ := hp f hf body' hbody'
    exact ⟨env, ⟨hseen.statics, hseen.unsafes.trans hunsafes.symm⟩, hstmts⟩
  cases hbody'
  refine ⟨p.env, ⟨rfl, ?_⟩, ?_⟩
  · rw [hunsafes]
    simp [HirProgram.env, HirFunction.signature]
  intro s hs
  have hstmt := htyped s hs inner.locals prefix_rfl
  have hu : (Checker.bodyChecker p scope function).enter.inUnsafe = function.isUnsafe := by
    cases hfu : function.isUnsafe <;> simp [inUnsafe, Checker.bodyChecker, enter, hfu]
  rw [hu] at hstmt
  exact hstmt

lemma bodiesTyped_of_check {order : MapOrder} {program : HirProgram}
    (h : check order modules = .ok program) : BodiesTyped program := by
  obtain ⟨c, evaluated, hbodyless, hbodies⟩ := check_passes h
  have hnone : BodiesTyped evaluated := by
    intro function hmem body hbody
    rw [hbodyless function hmem] at hbody
    cases hbody
  apply foldlM_invariant hbodies hnone
  intro entry _ b b' hb' hb
  exact bodiesTyped_checkFunctionBody hb' hb

/-- Every expression of an accepted program is typed where it stands. -/
lemma typed_of_contains {order : MapOrder} {program : HirProgram}
    (h : check order modules = .ok program) {function : HirFunction}
    (hf : function ∈ program.functions) (he : function.Contains e u) :
    ∃ env, SeenFrom env program ∧ Typed env function.locals u e := by
  obtain ⟨body, hbody, s, hs, ho⟩ := he
  obtain ⟨env, hseen, hstmts⟩ := bodiesTyped_of_check h function hf body hbody
  exact ⟨env, hseen, TypedStmt.typed_of_occurs ho (hstmts s hs)⟩

/-- In an accepted program unsafe operations stand in unsafe blocks or functions, and places written
are mutable unless one indexes a constant pointer. -/
theorem disciplined_iff_noConstIndexWritten {order : MapOrder} {modules : List SourceModule}
    {program : HirProgram} (h : check order modules = .ok program) :
    WritesMutable program ∧ UnsafeIsMarked program ↔ NoConstIndexWritten program := by
  have hwrite : ∀ function ∈ program.functions, ∀ e u, function.Contains e u →
      ∀ place ∈ e.written,
        (Writable function.locals program.statics place ↔ indexesConst place = false) := by
    intro function hf e u he place hplace
    obtain ⟨env, hseen, htyped⟩ := typed_of_contains h hf he
    have hmut := htyped.placeIsMutable_of_written hplace
    rw [hseen.statics] at hmut
    exact writable_iff_of_placeIsMutable hmut
  constructor
  · intro ⟨hw, _⟩ function hf e u he place hplace
    exact (hwrite function hf e u he place hplace).1 (hw function hf e u he place hplace)
  · intro hn
    constructor
    · intro function hf e u he place hplace
      exact (hwrite function hf e u he place hplace).2 (hn function hf e u he place hplace)
    · intro function hf e u he hneeds
      obtain ⟨env, hseen, htyped⟩ := typed_of_contains h hf he
      apply htyped.unsafe_of_needsUnsafe
      rw [hseen.statics, hseen.unsafes]
      exact hneeds

def storeThrough (isMut : Bool) : List SourceModule :=
  [{ name := ⟨"m", []⟩
     items :=
      [{ kind := .function
          { name := "f"
            params := [⟨"data", .pointer isMut (.named ⟨"u8", []⟩)⟩]
            returnType := .named ⟨"void", []⟩
            body := some
              [.letStmt true "p" none (.path ⟨"data", []⟩),
               .unsafeStmt [.exprStmt
                (.assign none (.index (.path ⟨"p", []⟩) (.integer 0)) (.integer 1))]] } }] }]

def storeThroughBody (isMut : Bool) : HirBlock :=
  [.letStmt 1 (.localVar 0 (.pointer isMut .u8)),
   .unsafeStmt [.exprStmt (.assign none
    (.index (.localVar 1 (.pointer isMut .u8)) (.constant (.integer 0) .usize) .u8)
    (.constant (.integer 1) .u8) .void)]]

def storeThroughProgram (isMut : Bool) : HirProgram :=
  { functions :=
      [{ qualifiedName := ["m", "f"], symbol := "_O_m__f", attrs := {}, isPublic := false
         isUnsafe := false, abi := .ocore, params := [0], result := .void
         locals :=
          [⟨"data", .pointer isMut .u8, false, true⟩, ⟨"p", .pointer isMut .u8, true, false⟩]
         body := some (storeThroughBody isMut) }]
    symbols := [(["m", "f"], .function 0)] }

lemma noConstIndexWritten_storeThrough : NoConstIndexWritten (storeThroughProgram true) := by
  -- The store is the only expression of the body that writes.
  have hleaf : ∀ {e leaf : HirExpr}, leaf.parts = [] → leaf.written = [] → Under e leaf →
      e.written = [] := by
    intro e leaf hparts hwritten hunder
    cases hunder with
    | here => exact hwritten
    | part hpart _ => simp [hparts] at hpart
  intro function hf e u he place hplace
  obtain rfl := mem_singleton.1 hf
  obtain ⟨body, hbody, s, hs, ho⟩ := he
  cases hbody
  simp only [storeThroughBody, mem_cons, not_mem_nil, or_false] at hs
  rcases hs with rfl | rfl
  · cases ho with
    | letStmt hunder => simp [hleaf rfl rfl hunder] at hplace
  cases ho with
  | unsafeBody hs ho =>
  obtain rfl := mem_singleton.1 hs
  cases ho with
  | exprStmt hunder =>
  cases hunder with
  | here =>
    obtain rfl := mem_singleton.1 hplace
    rfl
  | part hpart hunder =>
  simp only [parts, mem_cons, not_mem_nil, or_false] at hpart
  rcases hpart with rfl | rfl
  · cases hunder with
    | here => cases hplace
    | part hpart hunder =>
    simp only [parts, mem_cons, not_mem_nil, or_false] at hpart
    rcases hpart with rfl | rfl <;> simp [hleaf rfl rfl hunder] at hplace
  · simp [hleaf rfl rfl hunder] at hplace

theorem disciplined_storeThrough :
    check .declared (storeThrough true) = .ok (storeThroughProgram true) ∧
      WritesMutable (storeThroughProgram true) ∧ UnsafeIsMarked (storeThroughProgram true) := by
  have hcheck : check .declared (storeThrough true) = .ok (storeThroughProgram true) := rfl
  exact ⟨hcheck,
    (disciplined_iff_noConstIndexWritten hcheck).2 noConstIndexWritten_storeThrough⟩

/-- An indexed constant pointer is written when the variable that holds it is mutable. -/
theorem storeThrough_const_not_writesMutable :
    check .declared (storeThrough false) = .ok (storeThroughProgram false) ∧
      ¬WritesMutable (storeThroughProgram false) := by
  refine ⟨rfl, ?_⟩
  intro h
  have hcontains : (storeThroughProgram false).functions[0].Contains (.assign none
      (.index (.localVar 1 (.pointer false .u8)) (.constant (.integer 0) .usize) .u8)
      (.constant (.integer 1) .u8) .void) true :=
    ⟨_, rfl, _, mem_cons_of_mem _ mem_cons_self,
      .unsafeBody mem_cons_self (.exprStmt .here)⟩
  have hwritable := h _ (getElem_mem _) _ _ hcontains _ mem_cons_self
  cases hwritable

end Ostadix.Ocore
