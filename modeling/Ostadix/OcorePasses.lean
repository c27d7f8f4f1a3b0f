import Ostadix.OcoreCheck

/-! What the passes of the checker leave behind. -/

namespace Ostadix.Ocore

/-- The bodies of functions come last: no function has one before that pass. -/
def Bodyless (program : HirProgram) : Prop := ∀ function ∈ program.functions, function.body = none

namespace Checker

variable {c c' : Checker} {p p' : HirProgram} {entry : ModuleScope × Item}

lemma bodyless_collectTypeName (h : c.collectTypeName entry = .ok c') (hc : Bodyless c.program) :
    Bodyless c'.program := by
  unfold collectTypeName at h
  dsimp only at h
  split at h
  · obtain ⟨_, -, h⟩ := bind_eq_ok.1 h
    cases h
    exact hc
  · obtain ⟨_, -, h⟩ := bind_eq_ok.1 h
    cases h
    exact hc
  · exact Except.ok.inj h ▸ hc

lemma bodyless_defineTypes {order : MapOrder} (h : c.defineTypes order = .ok c')
    (hc : Bodyless c.program) : Bodyless c'.program := by
  obtain ⟨c₁, hstructs, henums⟩ := bind_eq_ok.1 h
  have hc₁ : Bodyless c₁.program := by
    apply foldlM_invariant (P := fun c : Checker => Bodyless c.program) hstructs hc
    rintro ⟨id, scope, attrs, definition⟩ - b b' hb' hb
    simp only [defineStruct, bind_eq_ok] at hb'
    obtain ⟨_, -, _, -, _, -, hb'⟩ := hb'
    cases hb'
    exact hb
  apply foldlM_invariant (P := fun c : Checker => Bodyless c.program) henums hc₁
  rintro ⟨id, scope, definition⟩ - b b' hb' hb
  simp only [defineEnum, bind_eq_ok] at hb'
  obtain ⟨_, -, _, -, hb'⟩ := hb'
  cases hb'
  exact hb

lemma bodyless_collectValueSignature (h : c.collectValueSignature entry = .ok c')
    (hc : Bodyless c.program) : Bodyless c'.program := by
  obtain ⟨scope, attrs, isPublic, kind⟩ := entry
  cases kind with
  | function definition =>
    simp only [collectValueSignature, collectFunction, bind_eq_ok] at h
    obtain ⟨_, -, attrs', -, locals, -, result, -, _, -, h⟩ := h
    cases h
    exact List.forall_mem_append.2 ⟨hc, by simp⟩
  | static definition =>
    simp only [collectValueSignature, collectStatic, bind_eq_ok] at h
    obtain ⟨_, -, attrs', -, _, -, ty, -, h⟩ := h
    cases h
    exact hc
  | const definition =>
    simp only [collectValueSignature, collectConst, bind_eq_ok] at h
    obtain ⟨_, -, ty, -, h⟩ := h
    cases h
    exact hc
  | struct definition | enum definition =>
    cases h
    exact hc

lemma bodyless_checkConstantsAndStatics (h : c.checkConstantsAndStatics = .ok p)
    (hc : Bodyless c.program) : Bodyless p := by
  obtain ⟨p₁, hconsts, hstatics⟩ := bind_eq_ok.1 h
  have hp₁ : Bodyless p₁ := by
    apply foldlM_invariant hconsts hc
    intro entry _ b b' hb' hb
    simp only [checkConst, bind_eq_ok] at hb'
    obtain ⟨_, -, _, -, hb'⟩ := hb'
    cases hb'
    exact hb
  apply foldlM_invariant hstatics hp₁
  intro entry _ b b' hb' hb
  simp only [checkStatic, bind_eq_ok] at hb'
  obtain ⟨_, -, _, -, hb'⟩ := hb'
  cases hb'
  exact hb

end Checker

/-- An accepted program comes from one without bodies by the pass over the bodies. -/
lemma check_passes {order : MapOrder} {modules : List SourceModule} {program : HirProgram}
    (h : check order modules = .ok program) :
    ∃ (c : Checker) (evaluated : HirProgram), Bodyless evaluated ∧
      c.functionDefs.zipIdx.foldlM Checker.checkFunctionBody evaluated = .ok program := by
  simp only [check, bind_eq_ok] at h
  obtain ⟨items, -, c₁, hnames, c₂, htypes, types, -, c, hvalues, evaluated, heval, hbodies⟩ := h
  have hc₁ : Bodyless c₁.program := by
    apply foldlM_invariant (P := fun c : Checker => Bodyless c.program) hnames (by simp [Bodyless])
    intro entry _ b b' hb' hb
    exact Checker.bodyless_collectTypeName hb' hb
  have hc₂ : Bodyless c₂.program := Checker.bodyless_defineTypes htypes hc₁
  have hc : Bodyless c.program := by
    apply foldlM_invariant (P := fun c : Checker => Bodyless c.program) hvalues hc₂
    intro entry _ b b' hb' hb
    exact Checker.bodyless_collectValueSignature hb' hb
  exact ⟨c, evaluated, Checker.bodyless_checkConstantsAndStatics heval hc, hbodies⟩

end Ostadix.Ocore
