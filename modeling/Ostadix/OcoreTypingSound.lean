import Ostadix.OcoreTyping

/-! The checker of bodies follows the typing rules. -/

namespace Ostadix.Ocore

open List

namespace BodyChecker

variable {c : BodyChecker}

def inUnsafe (c : BodyChecker) : Bool := c.unsafeDepth ≠ 0

/-! ## Single checks -/

variable {u : Unit} {e h : HirExpr} {pointee ty : Ty} {function : HirFunction} {path : Path}
  {name : String} {args : List Expr} {hs : List HirExpr} {fields : List (String × Expr)}
  {intrinsic : Intrinsic}

@[simp] lemma expectAssignable_eq_ok {actual expected : Ty} :
    c.expectAssignable actual expected = .ok u ↔ Assignable actual expected := require_eq_ok

@[simp] lemma requireUnsafe_eq_ok {operation : String} :
    c.requireUnsafe operation = .ok u ↔ c.inUnsafe := by
  simp [requireUnsafe, inUnsafe]

variable {expected : Option Ty} {id : ℕ} {c' : BodyChecker} {s : HirStmt}

lemma coerce_eq_ok (hc : c.coerce expected e = .ok h) : h = e := by
  unfold coerce at hc
  cases expected with
  | none => exact (Except.ok.inj hc).symm
  | some expected =>
    obtain ⟨_, -, hc⟩ := bind_eq_ok.1 hc
    exact (Except.ok.inj hc).symm

lemma unaryRule_of_unaryType {op : UnaryOp} {operand : HirExpr}
    (h : c.unaryType op operand = .ok ty) :
    UnaryRule c.program.env c.locals c.inUnsafe op operand ty := by
  cases op with
  | neg =>
    obtain ⟨_, hint, h⟩ := bind_eq_ok.1 h
    cases h
    exact .neg (require_eq_ok.1 hint)
  | bitNot =>
    obtain ⟨_, hint, h⟩ := bind_eq_ok.1 h
    cases h
    exact .bitNot (require_eq_ok.1 hint)
  | not =>
    obtain ⟨_, hbool, h⟩ := bind_eq_ok.1 h
    cases h
    exact .not (expectAssignable_eq_ok.1 hbool)
  | deref =>
    obtain ⟨_, hunsafe, h⟩ := bind_eq_ok.1 h
    split at h
    · next heq =>
      cases h
      exact .deref (requireUnsafe_eq_ok.1 hunsafe) heq
    · exact absurd h (error_ne_ok _ _)
  | addressOf isMut =>
    obtain ⟨_, hplace, h⟩ := bind_eq_ok.1 h
    cases h
    cases isMut with
    | false => exact .addressOf (require_eq_ok.1 hplace)
    | true => exact .addressOfMut (require_eq_ok.1 hplace)

lemma binaryRule_of_binaryType {op : BinaryOp} {lhs rhs : Ty}
    (h : c.binaryType op lhs rhs = .ok ty) : BinaryRule c.inUnsafe op lhs rhs ty := by
  unfold binaryType at h
  split at h
  · next hop =>
    simp only [bind_eq_ok, expectAssignable_eq_ok] at h
    obtain ⟨_, hl, _, hr, h⟩ := h
    cases h
    exact .logical hop hl hr
  split at h
  · next hop =>
    simp only [bind_eq_ok, expectAssignable_eq_ok, require_eq_ok] at h
    obtain ⟨_, hr, _, hfloat, _, hscalar, h⟩ := h
    cases h
    simp only [Bool.or_eq_true, not_or, Bool.not_eq_true] at hfloat
    exact .comparison hop hr hfloat.1 hscalar
  split at h
  · next hop =>
    simp only [bind_eq_ok, require_eq_ok] at h
    obtain ⟨_, hl, _, hr, h⟩ := h
    cases h
    exact .shift hop hl hr
  split at h
  · next hop =>
    simp only [bind_eq_ok, requireUnsafe_eq_ok] at h
    obtain ⟨_, hu, h⟩ := h
    cases h
    simp only [Bool.and_eq_true] at hop
    exact .offset hop.1.2 hop.1.1 hop.2 hu
  · next hlogical hcomparison hshift _ =>
    simp only [bind_eq_ok, expectAssignable_eq_ok, require_eq_ok] at h
    obtain ⟨_, hr, _, hl, h⟩ := h
    cases h
    exact .arithmetic (by simpa using hlogical) (by simpa using hcomparison)
      (by simpa using hshift) hl hr

lemma assignRule_of_checkAssignment {op : Option BinaryOp} {target value : HirExpr}
    (h : c.checkAssignment op target value = .ok u) : AssignRule op target.ty value.ty := by
  unfold checkAssignment at h
  cases op with
  | none =>
    obtain ⟨_, hassign, -⟩ := bind_eq_ok.1 h
    exact .plain (expectAssignable_eq_ok.1 hassign)
  | some op =>
    dsimp only at h
    split at h
    · next hop =>
      obtain ⟨_, hv, ht⟩ := bind_eq_ok.1 h
      exact .shift hop (require_eq_ok.1 ht) (require_eq_ok.1 hv)
    · next hop =>
      obtain ⟨_, hv, ht⟩ := bind_eq_ok.1 h
      exact .compound (by simpa [isShiftAssignment] using hop) (require_eq_ok.1 ht)
        (expectAssignable_eq_ok.1 hv)

lemma elementRule_of_elementType {base : Ty} (h : c.elementType base = .ok ty) :
    ElementRule c.inUnsafe base ty := by
  unfold elementType at h
  split at h
  · cases h
    exact .inl ⟨_, rfl⟩
  · obtain ⟨_, hu, h⟩ := bind_eq_ok.1 h
    cases h
    exact .inr ⟨⟨_, rfl⟩, requireUnsafe_eq_ok.1 hu⟩
  · exact absurd h (error_ne_ok _ _)

lemma castRule_of_checkCast {source target : Ty} (h : c.checkCast source target = .ok u) :
    CastRule c.inUnsafe source target := by
  unfold checkCast at h
  simp only [bind_eq_ok, require_eq_ok] at h
  obtain ⟨_, hfloat, _, hscalar, h⟩ := h
  simp only [Bool.or_eq_true, not_or, Bool.not_eq_true] at hfloat
  refine ⟨hfloat.1, hfloat.2, hscalar.1, hscalar.2, fun hne => ?_⟩
  rw [if_pos hne] at h
  exact requireUnsafe_eq_ok.1 h

lemma asmType_of_require (h : requireAsmOperandType ty = .ok u) : AsmType ty := by
  obtain ⟨hscalar, hfloat⟩ := require_eq_ok.1 h
  exact ⟨hscalar, by simpa using hfloat⟩

/-! ## Paths and callees -/

lemma params_of_paramTypes {tys : List Ty} (h : paramTypes function = .ok tys) :
    function.signature.params = tys := by
  rw [← map_id tys]
  apply map_eq_of_forall₂
  refine (mapM_eq_ok.1 h).imp fun param ty hty => ?_
  obtain ⟨l, hl, hty⟩ := bind_eq_ok.1 hty
  cases hty
  simp [nth_eq_ok.1 hl]

lemma signature_of_function (h : c.program.functions[id]? = some function) :
    c.program.env.signatures[id]? = some function.signature := by
  simp [HirProgram.env, h]

lemma typed_of_checkItemPath (h : c.checkItemPath path = .ok e) :
    Typed c.program.env c.locals c.inUnsafe e := by
  unfold checkItemPath at h
  dsimp only at h
  split at h
  · simp only [bind_eq_ok, nth_eq_ok] at h
    obtain ⟨function, hfunction, tys, htys, h⟩ := h
    cases h
    obtain rfl := params_of_paramTypes htys
    exact Typed.function (signature_of_function hfunction)
  · obtain ⟨static, hstatic, h⟩ := bind_eq_ok.1 h
    have hstatic := nth_eq_ok.1 hstatic
    split at h
    · obtain ⟨_, hu, h⟩ := bind_eq_ok.1 h
      cases h
      exact .static hstatic fun _ => requireUnsafe_eq_ok.1 hu
    · next hmut =>
      cases h
      exact .static hstatic fun hm => absurd hm hmut
  · simp only [bind_eq_ok, nth_eq_ok] at h
    obtain ⟨const, hconst, h⟩ := h
    cases h
    exact .constant (.const hconst)
  · exact absurd h (error_ne_ok _ _)
  · split at h
    · simp only [bind_eq_ok, nth_eq_ok, require_eq_ok] at h
      obtain ⟨definition, hdef, variantDef, hvariant, _, hpayload, h⟩ := h
      cases h
      refine .enumVariant hdef hvariant ?_ (by simp)
      rw [hpayload]
      exact .nil
    · exact absurd h (error_ne_ok _ _)

lemma typed_of_checkPath (h : c.checkPath path = .ok e) :
    Typed c.program.env c.locals c.inUnsafe e := by
  unfold checkPath at h
  split at h
  · simp only [bind_eq_ok, nth_eq_ok] at h
    obtain ⟨l, hl, h⟩ := h
    cases h
    exact .localVar hl
  · next order _ _ _ =>
    cases h
    refine .constant (.literal rfl ?_)
    cases order <;> decide
  · exact typed_of_checkItemPath h

/-- A call goes to no interrupt handler, and from an unsafe place if the function is unsafe. -/
lemma calledFunction_eq_ok {callee : HirExpr} (h : c.calledFunction callee = .ok (id, function)) :
    c.program.functions[id]? = some function ∧ function.abi ≠ .interrupt ∧
      (function.isUnsafe → c.inUnsafe) := by
  unfold calledFunction at h
  split at h
  · obtain ⟨function', hfunction, h⟩ := bind_eq_ok.1 h
    obtain ⟨_, habi, h⟩ := bind_eq_ok.1 h
    have hfunction := nth_eq_ok.1 hfunction
    have habi := require_eq_ok.1 habi
    split at h
    · obtain ⟨_, hu, h⟩ := bind_eq_ok.1 h
      cases h
      exact ⟨hfunction, habi, fun _ => requireUnsafe_eq_ok.1 hu⟩
    · next hsafe =>
      cases h
      exact ⟨hfunction, habi, fun hunsafe => absurd hunsafe hsafe⟩
  · exact absurd h (error_ne_ok _ _)

lemma typed_of_fieldOf {base : HirExpr} (h : c.fieldOf base name = .ok e)
    (hbase : Typed c.program.env c.locals c.inUnsafe base) :
    Typed c.program.env c.locals c.inUnsafe e := by
  unfold fieldOf at h
  split at h
  · next id hty =>
    obtain ⟨definition, hdef, h⟩ := bind_eq_ok.1 h
    split at h
    · simp only [bind_eq_ok, nth_eq_ok] at h
      obtain ⟨field, hfield, h⟩ := h
      cases h
      exact .field hty (nth_eq_ok.1 hdef) hfield hbase
    · exact absurd h (error_ne_ok _ _)
  · exact absurd h (error_ne_ok _ _)

/-! ## Lists of expressions -/

def Sound (c : BodyChecker) (e : Expr) : Prop :=
  ∀ expected h, c.checkExpr e expected = .ok h → Typed c.program.env c.locals c.inUnsafe h

lemma sound_checkArgs {tys : List Ty} (ih : ∀ e ∈ args, c.Sound e)
    (h : c.checkArgs args tys = .ok hs) (hlen : args.length = tys.length) :
    List.Forall₂ (fun h ty => Assignable h.ty ty) hs tys ∧
      ∀ h ∈ hs, Typed c.program.env c.locals c.inUnsafe h := by
  induction args generalizing tys hs with
  | nil =>
    obtain rfl := length_eq_zero_iff.1 hlen.symm
    cases h
    exact ⟨.nil, nofun⟩
  | cons arg args ihargs =>
    cases tys with
    | nil => cases hlen
    | cons ty tys =>
      simp only [checkArgs, bind_eq_ok, expectAssignable_eq_ok] at h
      obtain ⟨head, hhead, _, hty, rest, hrest, h⟩ := h
      cases h
      obtain ⟨htys, htyped⟩ := ihargs (fun e he => ih e (mem_cons_of_mem _ he)) hrest
        (Nat.succ.inj hlen)
      refine ⟨.cons hty htys, ?_⟩
      simpa using ⟨ih arg mem_cons_self _ _ hhead, htyped⟩

lemma sound_checkElements_some {values : List Expr} {element : Option Ty}
    (ih : ∀ e ∈ values, c.Sound e) (h : c.checkElements values (some ty) = .ok (hs, element)) :
    element = some ty ∧ (∀ h ∈ hs, Assignable h.ty ty) ∧
      ∀ h ∈ hs, Typed c.program.env c.locals c.inUnsafe h := by
  induction values generalizing hs with
  | nil =>
    cases h
    exact ⟨rfl, nofun, nofun⟩
  | cons value values ihvalues =>
    simp only [checkElements, bind_eq_ok, expectAssignable_eq_ok, Option.getD_some] at h
    obtain ⟨head, hhead, _, hty, ⟨rest, element'⟩, hrest, h⟩ := h
    cases h
    obtain ⟨helement, htys, htyped⟩ :=
      ihvalues (fun e he => ih e (mem_cons_of_mem _ he)) hrest
    refine ⟨helement, ?_, ?_⟩
    · simpa using ⟨hty, htys⟩
    · simpa using ⟨ih value mem_cons_self _ _ hhead, htyped⟩

lemma sound_checkElements {values : List Expr} {element : Ty} (ih : ∀ e ∈ values, c.Sound e)
    (h : c.checkElements values expected = .ok (hs, some element)) :
    (∀ h ∈ hs, Assignable h.ty element) ∧ ∀ h ∈ hs, Typed c.program.env c.locals c.inUnsafe h := by
  cases expected with
  | some ty =>
    obtain ⟨helement, hsound⟩ := sound_checkElements_some ih h
    cases helement
    exact hsound
  | none =>
    cases values with
    | nil => cases (Prod.mk.inj (Except.ok.inj h)).2
    | cons value values =>
      simp only [checkElements, bind_eq_ok, Option.getD_none] at h
      obtain ⟨head, hhead, ⟨rest, element'⟩, hrest, h⟩ := h
      cases h
      obtain ⟨helement, htys, htyped⟩ :=
        sound_checkElements_some (fun e he => ih e (mem_cons_of_mem _ he)) hrest
      -- The first element has fixed the type.
      cases helement
      refine ⟨?_, ?_⟩
      · simpa using ⟨.inl rfl, htys⟩
      · simpa using ⟨ih value mem_cons_self _ _ hhead, htyped⟩

lemma sound_checkField {field : StructField} (ih : ∀ e ∈ fields.map Prod.snd, c.Sound e)
    (hcheck : c.checkField field fields = .ok h) :
    Assignable h.ty field.ty ∧ Typed c.program.env c.locals c.inUnsafe h := by
  induction fields with
  | nil => exact absurd hcheck (error_ne_ok _ _)
  | cons entry fields ihfields =>
    obtain ⟨name, value⟩ := entry
    rw [checkField] at hcheck
    split at hcheck
    · simp only [bind_eq_ok, expectAssignable_eq_ok] at hcheck
      obtain ⟨value', hvalue, _, hty, hcheck⟩ := hcheck
      cases hcheck
      exact ⟨hty, ih value (by simp) _ _ hvalue⟩
    · exact ihfields (fun e he => ih e (by simpa using .inr (by simpa using he))) hcheck

lemma sound_checkAtomicArgs {n : ℕ} (ih : ∀ e ∈ args, c.Sound e) (hn : n ≤ args.length)
    (h : c.checkAtomicArgs intrinsic pointee n args = .ok hs) :
    ∃ values orders, hs = values ++ orders ∧ values.length = n ∧
      orders.length = args.length - n ∧
      (∀ order ∈ orders, checkMemoryOrder intrinsic order = .ok ()) ∧
      ∀ h ∈ hs, Typed c.program.env c.locals c.inUnsafe h := by
  induction args generalizing n hs with
  | nil =>
    obtain rfl := Nat.le_zero.1 hn
    cases h
    exact ⟨[], [], rfl, rfl, rfl, nofun, nofun⟩
  | cons arg args ihargs =>
    have ih' : ∀ e ∈ args, c.Sound e := fun e he => ih e (mem_cons_of_mem _ he)
    cases n with
    | zero =>
      simp only [checkAtomicArgs, bind_eq_ok] at h
      obtain ⟨order, hhead, _, horder, rest, hrest, h⟩ := h
      cases h
      obtain ⟨values, orders, rfl, hvalues, horders, hall, htyped⟩ :=
        ihargs ih' (Nat.zero_le _) hrest
      obtain rfl := length_eq_zero_iff.1 hvalues
      refine ⟨[], order :: orders, rfl, rfl, ?_, ?_, ?_⟩
      · simpa using horders
      · simpa using ⟨horder, hall⟩
      · simpa using ⟨ih arg mem_cons_self _ _ hhead, htyped⟩
    | succ n =>
      simp only [checkAtomicArgs, bind_eq_ok] at h
      obtain ⟨value, hhead, rest, hrest, h⟩ := h
      cases h
      obtain ⟨values, orders, rfl, rfl, horders, hall, htyped⟩ :=
        ihargs ih' (Nat.le_of_succ_le_succ hn) hrest
      refine ⟨value :: values, orders, rfl, rfl, ?_, hall, ?_⟩
      · simpa using horders
      · simpa using ⟨ih arg mem_cons_self _ _ hhead, by simpa using htyped⟩

lemma sound_checkOperand {operand : AsmOperand Expr Expr} {h : AsmOperand HirExpr HirExpr}
    (ih : ∀ e ∈ operand.parts, c.Sound e) (hcheck : c.checkOperand operand = .ok h) :
    OperandRule c.program.env c.locals h ∧
      ∀ e ∈ h.parts, Typed c.program.env c.locals c.inUnsafe e := by
  cases operand with
  | input register value =>
    simp only [checkOperand, bind_eq_ok] at hcheck
    obtain ⟨value', hvalue, _, hty, hcheck⟩ := hcheck
    cases hcheck
    refine ⟨.input (asmType_of_require hty), ?_⟩
    simpa [AsmOperand.parts] using ih value (by simp [AsmOperand.parts]) _ _ hvalue
  | output register target =>
    simp only [checkOperand, bind_eq_ok] at hcheck
    obtain ⟨target', htarget, _, hplace, _, hty, hcheck⟩ := hcheck
    cases hcheck
    refine ⟨.output (asmType_of_require hty) (require_eq_ok.1 hplace), ?_⟩
    simpa [AsmOperand.parts] using ih target (by simp [AsmOperand.parts]) _ _ htarget
  | inOut register source target =>
    simp only [checkOperand, bind_eq_ok, expectAssignable_eq_ok] at hcheck
    obtain ⟨source', hsource, target', htarget, _, hplace, _, hassign, _, hs, _, ht, hcheck⟩ :=
      hcheck
    cases hcheck
    refine ⟨.inOut (asmType_of_require hs) (asmType_of_require ht) (require_eq_ok.1 hplace)
      hassign, ?_⟩
    simpa [AsmOperand.parts] using ⟨ih source (by simp [AsmOperand.parts]) _ _ hsource,
      ih target (by simp [AsmOperand.parts]) _ _ htarget⟩

lemma sound_checkOperands {operands : List (AsmOperand Expr Expr)}
    {hs : List (AsmOperand HirExpr HirExpr)}
    (ih : ∀ e ∈ operands.flatMap AsmOperand.parts, c.Sound e)
    (h : c.checkOperands operands = .ok hs) :
    ∀ operand ∈ hs, OperandRule c.program.env c.locals operand ∧
      ∀ e ∈ operand.parts, Typed c.program.env c.locals c.inUnsafe e := by
  induction operands generalizing hs with
  | nil =>
    cases h
    nofun
  | cons operand operands ihoperands =>
    simp only [checkOperands, bind_eq_ok] at h
    obtain ⟨head, hhead, rest, hrest, h⟩ := h
    cases h
    have hsound := sound_checkOperand (fun e he => ih e (by simp [he])) hhead
    have hsounds := ihoperands (fun e he => ih e (mem_append_right _ he)) hrest
    simpa using ⟨hsound, hsounds⟩

lemma volatilePointee_eq_ok {kind : String} {needMut : Bool}
    (h : volatilePointee name kind needMut ty = .ok pointee) :
    ∃ isMut, ty = .pointer isMut pointee ∧ (isMut ∨ ¬needMut) ∧ pointee.isScalar := by
  unfold volatilePointee at h
  split at h
  · simp only [bind_eq_ok, require_eq_ok] at h
    obtain ⟨_, hmut, _, hscalar, h⟩ := h
    cases h
    exact ⟨_, rfl, hmut, hscalar⟩
  · exact absurd h (error_ne_ok _ _)

lemma atomicPointee_eq_ok (h : atomicPointee intrinsic ty = .ok pointee) :
    ∃ isMut, ty = .pointer isMut pointee ∧ pointee.isInteger ∧
      (isMut ∨ intrinsic = .atomicLoad) := by
  unfold atomicPointee at h
  split at h
  · simp only [bind_eq_ok, require_eq_ok] at h
    obtain ⟨_, hinteger, _, hmut, h⟩ := h
    cases h
    exact ⟨_, rfl, hinteger, hmut⟩
  · exact absurd h (error_ne_ok _ _)

lemma sound_checkPointerIntrinsic (ih : ∀ e ∈ args, c.Sound e)
    (hkind : intrinsicSignature intrinsic = none) (hlen : args.length = pointerArity intrinsic)
    (hu : c.inUnsafe) (hcheck : c.checkPointerIntrinsic intrinsic args = .ok h) :
    Typed c.program.env c.locals c.inUnsafe h := by
  cases args with
  | nil => exact absurd hcheck (error_ne_ok _ _)
  | cons pointer rest =>
    have ihrest : ∀ e ∈ rest, c.Sound e := fun e he => ih e (mem_cons_of_mem _ he)
    rw [checkPointerIntrinsic] at hcheck
    obtain ⟨pointer', hpointer, hcheck⟩ := bind_eq_ok.1 hcheck
    have htyped := ih pointer mem_cons_self _ _ hpointer
    split at hcheck
    · simp only [bind_eq_ok] at hcheck
      obtain ⟨pointee, hpointee, hcheck⟩ := hcheck
      cases hcheck
      obtain ⟨isMut, hty, -, hscalar⟩ := volatilePointee_eq_ok hpointee
      exact .intrinsic hu (.volatileLoad hty hscalar) (by simpa using htyped)
    · simp only [bind_eq_ok] at hcheck
      obtain ⟨pointee, hpointee, rest', hrest, hcheck⟩ := hcheck
      cases hcheck
      obtain ⟨isMut, hty, hmut, hscalar⟩ := volatilePointee_eq_ok hpointee
      obtain rfl : isMut = true := by simpa using hmut
      obtain ⟨hargs, hparts⟩ := sound_checkArgs ihrest hrest (Nat.succ.inj hlen)
      obtain ⟨value, _, hvalue, hnil, rfl⟩ := forall₂_cons_right_iff.1 hargs
      obtain rfl := forall₂_nil_right_iff.1 hnil
      exact .intrinsic hu (.volatileStore hty hscalar hvalue)
        (by simpa using ⟨htyped, by simpa using hparts⟩)
    · next hload hstore =>
      simp only [bind_eq_ok] at hcheck
      obtain ⟨pointee, hpointee, rest', hrest, hcheck⟩ := hcheck
      cases hcheck
      obtain ⟨isMut, hty, hinteger, hmut⟩ := atomicPointee_eq_ok hpointee
      have hcount : rest.length = (atomicArity intrinsic).1 + (atomicArity intrinsic).2 := by
        rw [pointerArity, length_cons] at hlen
        · omega
        · exact hload
        · exact hstore
      obtain ⟨values, orders, rfl, hvalues, horders, hall, hparts⟩ :=
        sound_checkAtomicArgs ihrest (by omega) hrest
      refine .intrinsic hu
        (.atomic hkind hload hstore hty hinteger hmut hvalues (by omega) hall) ?_
      simpa using ⟨htyped, by simpa using hparts⟩

/-! ## Expressions -/

lemma sound_struct (ih : ∀ e ∈ fields.map Prod.snd, c.Sound e) : c.Sound (.struct path fields) := by
  intro expected h hcheck
  rw [checkExpr] at hcheck
  split at hcheck
  · simp only [bind_eq_ok, nth_eq_ok] at hcheck
    obtain ⟨definition, hdef, _, -, ordered, hordered, hcheck⟩ := hcheck
    obtain rfl := coerce_eq_ok hcheck
    have hsound : List.Forall₂ (fun h (field : StructField) =>
        Typed c.program.env c.locals c.inUnsafe h ∧ Assignable h.ty field.ty)
        ordered definition.fields :=
      ((mapM_eq_ok.1 hordered).imp fun _ _ hfield => (sound_checkField ih hfield).symm).flip
    obtain ⟨hparts, hfields⟩ := (forall₂_and_left _ _).1 hsound
    exact .struct hdef hfields hparts
  · exact absurd hcheck (error_ne_ok _ _)
  · exact absurd hcheck (error_ne_ok _ _)

lemma sound_call {callee : Expr} (ih : ∀ e ∈ args, c.Sound e) : c.Sound (.call callee args) := by
  intro expected h hcheck
  rw [checkExpr] at hcheck
  split at hcheck
  · obtain ⟨_, hu, hcheck⟩ := bind_eq_ok.1 hcheck
    have hu := requireUnsafe_eq_ok.1 hu
    split at hcheck
    · next hsignature =>
      simp only [bind_eq_ok, require_eq_ok] at hcheck
      obtain ⟨_, hlen, checked, hchecked, hcheck⟩ := hcheck
      cases hcheck
      obtain ⟨hargs, hparts⟩ := sound_checkArgs ih hchecked hlen.symm
      exact .intrinsic hu (.fixed hsignature hargs) hparts
    · next hsignature =>
      obtain ⟨_, hlen, hcheck⟩ := bind_eq_ok.1 hcheck
      exact sound_checkPointerIntrinsic ih hsignature (require_eq_ok.1 hlen) hu hcheck
  · simp only [bind_eq_ok, nth_eq_ok, require_eq_ok] at hcheck
    obtain ⟨definition, hdef, variantDef, hvariant, _, hlen, checked, hchecked, hcheck⟩ := hcheck
    cases hcheck
    obtain ⟨hargs, hparts⟩ := sound_checkArgs ih hchecked hlen.symm
    exact .enumVariant hdef hvariant hargs hparts
  · simp only [bind_eq_ok, require_eq_ok] at hcheck
    obtain ⟨callee', -, ⟨id, function⟩, hfunction, _, hlen, tys, htys, checked, hchecked, hcheck⟩ :=
      hcheck
    cases hcheck
    obtain ⟨hid, habi, hu⟩ := calledFunction_eq_ok hfunction
    obtain rfl := params_of_paramTypes htys
    obtain ⟨hargs, hparts⟩ := sound_checkArgs ih hchecked (by simp [HirFunction.signature, hlen])
    exact .call (signature_of_function hid) habi hu hargs hparts

lemma typed_of_checkExpr (e : Expr) : c.Sound e := by
  induction e using Expr.induction with
  | step e ih =>
  cases e with
  | struct path fields => exact sound_struct ih
  | call callee args => exact sound_call fun e he => ih e (mem_cons_of_mem _ he)
  | path path => exact fun _ _ h => typed_of_checkPath h
  | string value => exact fun _ _ h => absurd h (error_ne_ok _ _)
  | integer value =>
    intro expected h hcheck
    obtain ⟨_, hfits, hcheck⟩ := bind_eq_ok.1 hcheck
    obtain rfl := coerce_eq_ok hcheck
    unfold ensureIntegerFits at hfits
    split at hfits
    · exact absurd hfits (error_ne_ok _ _)
    · next max hmax => exact .constant (.literal hmax (require_eq_ok.1 hfits))
  | byte value =>
    intro expected h hcheck
    obtain rfl := coerce_eq_ok hcheck
    refine .constant (.literal rfl ?_)
    have := value.toNat_lt
    simp [Width.bits]
    omega
  | bool value =>
    intro expected h hcheck
    obtain rfl := coerce_eq_ok hcheck
    exact .constant .bool
  | byteString bytes =>
    intro expected h hcheck
    obtain rfl := coerce_eq_ok hcheck
    exact .constant .bytes
  | array values =>
    intro expected h hcheck
    obtain ⟨⟨checked, element⟩, hchecked, hcheck⟩ := bind_eq_ok.1 hcheck
    cases element with
    | none => exact absurd hcheck (error_ne_ok _ _)
    | some element =>
      obtain rfl := coerce_eq_ok hcheck
      obtain ⟨helement, hparts⟩ := sound_checkElements ih hchecked
      exact .array helement hparts
  | arrayRepeat value len =>
    intro expected h hcheck
    obtain ⟨value', hvalue, hcheck⟩ := bind_eq_ok.1 hcheck
    obtain rfl := coerce_eq_ok hcheck
    exact .arrayRepeat (ih value (by simp [Expr.parts]) _ _ hvalue)
  | unary op operand =>
    intro expected h hcheck
    simp only [checkExpr, bind_eq_ok] at hcheck
    obtain ⟨operand', hoperand, ty, hty, hcheck⟩ := hcheck
    obtain rfl := coerce_eq_ok hcheck
    exact .unary (unaryRule_of_unaryType hty) (ih operand (by simp [Expr.parts]) _ _ hoperand)
  | binary op lhs rhs =>
    intro expected h hcheck
    simp only [checkExpr, bind_eq_ok] at hcheck
    obtain ⟨lhs', hlhs, rhs', hrhs, ty, hty, hcheck⟩ := hcheck
    obtain rfl := coerce_eq_ok hcheck
    exact .binary (binaryRule_of_binaryType hty) (ih lhs (by simp [Expr.parts]) _ _ hlhs)
      (ih rhs (by simp [Expr.parts]) _ _ hrhs)
  | assign op target value =>
    intro expected h hcheck
    simp only [checkExpr, bind_eq_ok] at hcheck
    obtain ⟨target', htarget, _, hplace, value', hvalue, _, hassign, hcheck⟩ := hcheck
    obtain rfl := coerce_eq_ok hcheck
    exact .assign (require_eq_ok.1 hplace) (assignRule_of_checkAssignment hassign)
      (ih target (by simp [Expr.parts]) _ _ htarget) (ih value (by simp [Expr.parts]) _ _ hvalue)
  | field base name =>
    intro expected h hcheck
    simp only [checkExpr, bind_eq_ok] at hcheck
    obtain ⟨base', hbase, field, hfield, hcheck⟩ := hcheck
    obtain rfl := coerce_eq_ok hcheck
    exact typed_of_fieldOf hfield (ih base (by simp [Expr.parts]) _ _ hbase)
  | index base offset =>
    intro expected h hcheck
    simp only [checkExpr, bind_eq_ok, require_eq_ok] at hcheck
    obtain ⟨base', hbase, offset', hoffset, _, hinteger, ty, hty, hcheck⟩ := hcheck
    obtain rfl := coerce_eq_ok hcheck
    exact .index (elementRule_of_elementType hty) hinteger
      (ih base (by simp [Expr.parts]) _ _ hbase)
      (ih offset (by simp [Expr.parts]) _ _ hoffset)
  | cast value ty =>
    intro expected h hcheck
    simp only [checkExpr, bind_eq_ok] at hcheck
    obtain ⟨value', hvalue, target, -, _, hcast, hcheck⟩ := hcheck
    obtain rfl := coerce_eq_ok hcheck
    exact .cast (castRule_of_checkCast hcast) (ih value (by simp [Expr.parts]) _ _ hvalue)
  | asm template operands options =>
    intro expected h hcheck
    simp only [checkExpr, bind_eq_ok, requireUnsafe_eq_ok] at hcheck
    obtain ⟨_, hu, operands', hoperands, _, -, hcheck⟩ := hcheck
    obtain rfl := coerce_eq_ok hcheck
    have hsound := sound_checkOperands ih hoperands
    exact .asm hu (fun operand h => (hsound operand h).1) fun operand h => (hsound operand h).2

/-! ## Statements -/

/-- Statements add locals and names, and leave the rest of the checker as it was. -/
structure Extends (c c' : BodyChecker) : Prop where
  program : c'.program = c.program
  returnType : c'.returnType = c.returnType
  unsafeDepth : c'.unsafeDepth = c.unsafeDepth
  loopDepth : c'.loopDepth = c.loopDepth
  locals : c.locals <+: c'.locals

lemma Extends.refl (c : BodyChecker) : c.Extends c := ⟨rfl, rfl, rfl, rfl, prefix_rfl⟩

lemma Extends.trans {c₁ c₂ c₃ : BodyChecker} (h₁ : c₁.Extends c₂) (h₂ : c₂.Extends c₃) :
    c₁.Extends c₃ where
  program := h₂.program.trans h₁.program
  returnType := h₂.returnType.trans h₁.returnType
  unsafeDepth := h₂.unsafeDepth.trans h₁.unsafeDepth
  loopDepth := h₂.loopDepth.trans h₁.loopDepth
  locals := h₁.locals.trans h₂.locals

/-- After a block its locals are kept in the frame. -/
lemma Extends.leave {c : BodyChecker} (h : c.locals <+: c'.locals) :
    c.Extends { c with locals := c'.locals } := ⟨rfl, rfl, rfl, rfl, h⟩

def inLoop (c : BodyChecker) : Bool := c.loopDepth ≠ 0

/-- A statement is typed where the checker stands, over its locals and any further ones. -/
def TypedAt (c : BodyChecker) (locals : List HirLocal) (s : HirStmt) : Prop :=
  ∀ locals', locals <+: locals' →
    TypedStmt c.program.env locals' c.returnType c.inUnsafe c.inLoop s

lemma typedAt_checkLet {isMut : Bool} {ty : Option TypeExpr} {init : Expr}
    (h : c.checkLet isMut name ty init = .ok (s, c')) :
    c.Extends c' ∧ c.TypedAt c'.locals s := by
  unfold checkLet at h
  split at h
  · cases h
  simp only [bind_eq_ok, expectAssignable_eq_ok] at h
  obtain ⟨_, -, declared, -, init', hinit, _, hty, h⟩ := h
  cases h
  refine ⟨⟨rfl, rfl, rfl, rfl, prefix_append _ _⟩, fun locals' hl => ?_⟩
  have htyped := typed_of_checkExpr init _ _ hinit
  refine .letStmt (getElem?_of_isPrefix hl getElem?_concat_length)
    (htyped.mono ((prefix_append _ _).trans hl)) hty

lemma typed_checkCondition {condition : Expr} (hcheck : c.checkCondition condition = .ok h) :
    Typed c.program.env c.locals c.inUnsafe h ∧ Assignable h.ty .bool := by
  simp only [checkCondition, bind_eq_ok, expectAssignable_eq_ok] at hcheck
  obtain ⟨condition', hcondition, _, hty, hcheck⟩ := hcheck
  cases hcheck
  exact ⟨typed_of_checkExpr condition _ _ hcondition, hty⟩

lemma typedAt_checkReturn {value : Option Expr} (h : c.checkReturn value = .ok s) :
    c.TypedAt c.locals s := by
  intro locals' hl
  cases value with
  | some value =>
    simp only [checkReturn, bind_eq_ok, expectAssignable_eq_ok] at h
    obtain ⟨value', hvalue, _, hty, h⟩ := h
    cases h
    exact .returnValue ((typed_of_checkExpr value _ _ hvalue).mono hl) hty
  | none =>
    simp only [checkReturn, bind_eq_ok, require_eq_ok] at h
    obtain ⟨_, hvoid, h⟩ := h
    cases h
    exact .returnVoid hvoid

mutual

lemma typedAt_checkStmt {c c' : BodyChecker} {stmt : Stmt} {s : HirStmt}
    (h : c.checkStmt stmt = .ok (s, c')) : c.Extends c' ∧ c.TypedAt c'.locals s := by
  cases stmt with
  | letStmt isMut name ty init => exact typedAt_checkLet h
  | exprStmt e =>
    simp only [checkStmt, bind_eq_ok] at h
    obtain ⟨e', he, h⟩ := h
    cases h
    exact ⟨.refl _, fun _ hl => .exprStmt ((typed_of_checkExpr e _ _ he).mono hl)⟩
  | ifStmt condition thenBlock elseBlock =>
    simp only [checkStmt, bind_eq_ok] at h
    obtain ⟨condition', hcondition, ⟨thenBlock', c₁⟩, hthen, ⟨elseBlock', c₂⟩, helse, h⟩ := h
    cases h
    obtain ⟨htyped, hty⟩ := typed_checkCondition hcondition
    obtain ⟨hext₁, hsound₁⟩ := typedAt_checkStmts hthen
    obtain ⟨hext₂, hsound₂⟩ := typedAt_checkElse helse
    refine ⟨.leave (hext₁.locals.trans hext₂.locals), fun locals' hl => ?_⟩
    have hl₁ : c₁.locals <+: locals' := hext₂.locals.trans hl
    exact .ifStmt (htyped.mono (hext₁.locals.trans hl₁)) hty
      (fun s hs => hsound₁ s hs locals' hl₁) fun block hb s hs => hsound₂ block hb s hs locals' hl
  | whileStmt condition body =>
    simp only [checkStmt, bind_eq_ok] at h
    obtain ⟨condition', hcondition, ⟨body', c₁⟩, hbody, h⟩ := h
    cases h
    obtain ⟨htyped, hty⟩ := typed_checkCondition hcondition
    obtain ⟨hext, hsound⟩ := typedAt_checkStmts hbody
    refine ⟨.leave hext.locals, fun locals' hl => ?_⟩
    exact .whileStmt (htyped.mono (hext.locals.trans hl)) hty fun s hs => hsound s hs locals' hl
  | loopStmt body =>
    simp only [checkStmt, bind_eq_ok] at h
    obtain ⟨⟨body', c₁⟩, hbody, h⟩ := h
    cases h
    obtain ⟨hext, hsound⟩ := typedAt_checkStmts hbody
    exact ⟨.leave hext.locals, fun locals' hl => .loopStmt fun s hs => hsound s hs locals' hl⟩
  | unsafeStmt body =>
    simp only [checkStmt, bind_eq_ok] at h
    obtain ⟨⟨body', c₁⟩, hbody, h⟩ := h
    cases h
    obtain ⟨hext, hsound⟩ := typedAt_checkStmts hbody
    exact ⟨.leave hext.locals, fun locals' hl => .unsafeStmt fun s hs => hsound s hs locals' hl⟩
  | returnStmt value =>
    simp only [checkStmt, bind_eq_ok] at h
    obtain ⟨s', hs, h⟩ := h
    cases h
    exact ⟨.refl _, typedAt_checkReturn hs⟩
  | breakStmt =>
    simp only [checkStmt, bind_eq_ok, require_eq_ok] at h
    obtain ⟨_, hloop, h⟩ := h
    cases h
    refine ⟨.refl _, fun _ _ => ?_⟩
    rw [show c.inLoop = true by simp [inLoop, hloop]]
    exact .breakStmt
  | continueStmt =>
    simp only [checkStmt, bind_eq_ok, require_eq_ok] at h
    obtain ⟨_, hloop, h⟩ := h
    cases h
    refine ⟨.refl _, fun _ _ => ?_⟩
    rw [show c.inLoop = true by simp [inLoop, hloop]]
    exact .continueStmt

lemma typedAt_checkStmts {c c' : BodyChecker} {stmts : List Stmt} {block : HirBlock}
    (h : c.checkStmts stmts = .ok (block, c')) :
    c.Extends c' ∧ ∀ s ∈ block, c.TypedAt c'.locals s := by
  cases stmts with
  | nil =>
    cases h
    exact ⟨.refl _, nofun⟩
  | cons stmt stmts =>
    simp only [checkStmts, bind_eq_ok] at h
    obtain ⟨⟨s, c₁⟩, hstmt, ⟨rest, c₂⟩, hstmts, h⟩ := h
    cases h
    obtain ⟨hext₁, hsound₁⟩ := typedAt_checkStmt hstmt
    obtain ⟨hext₂, hsound₂⟩ := typedAt_checkStmts hstmts
    refine ⟨hext₁.trans hext₂, ?_⟩
    intro s' hs' locals' hl
    rcases mem_cons.1 hs' with rfl | hs'
    · exact hsound₁ locals' (hext₂.locals.trans hl)
    · have htyped := hsound₂ s' hs' locals' hl
      simpa only [inUnsafe, inLoop, hext₁.program, hext₁.returnType, hext₁.unsafeDepth,
        hext₁.loopDepth] using htyped

lemma typedAt_checkElse {c c' : BodyChecker} {stmts : Option (List Stmt)}
    {block : Option HirBlock} (h : c.checkElse stmts = .ok (block, c')) :
    c.Extends c' ∧ ∀ b, block = some b → ∀ s ∈ b, c.TypedAt c'.locals s := by
  cases stmts with
  | none =>
    cases h
    exact ⟨.refl _, nofun⟩
  | some stmts =>
    simp only [checkElse, bind_eq_ok] at h
    obtain ⟨⟨b, c₁⟩, hstmts, h⟩ := h
    cases h
    obtain ⟨hext, hsound⟩ := typedAt_checkStmts hstmts
    refine ⟨hext, ?_⟩
    intro b' hb'
    cases hb'
    exact hsound

end

end BodyChecker

end Ostadix.Ocore
