import Ostadix.SolverPropagate

/-! The solver stays within its budget and ends at a fixed point, whatever the order of its visits.
-/

namespace Ostadix

open FidelityAssessmentV2 Chaotic TypedNode List TypedGraph

variable {V : Type}

/-! ## The start of a run -/

variable {id : NodeId} {u : Unit} {phase : SolvePhase} {base : TypedGraph V}

lemma checkFidelityAssessment_eq_ok {node : TypedNode V} :
    checkFidelityAssessment id node = .ok u ↔
      ∀ a, node.fidelityAssessment = some a → a.Valid ∧ node.fidelity = some a.projection := by
  unfold checkFidelityAssessment
  cases node.fidelityAssessment with
  | none => simp
  | some a =>
    simp only [bind_eq_ok, mapError_eq_ok, ensure_eq_ok, validate_eq_ok, Option.some.injEq,
      forall_eq']
    constructor
    · rintro ⟨⟨⟩, hvalid, projected, hproject, hfidelity⟩
      cases (tryPossibleFidelity_valid hvalid).symm.trans hproject
      exact ⟨hvalid, hfidelity⟩
    · rintro ⟨hvalid, hfidelity⟩
      exact ⟨(), hvalid, _, tryPossibleFidelity_valid hvalid, hfidelity⟩

variable {g : TypedGraph V} {kinds : Finset AnnotationKind}

lemma validateFidelityAssessments_eq_ok :
    validateFidelityAssessments g = .ok u ↔ ∀ id node, g.nodes.lookup id = some node →
      ∀ a, node.fidelityAssessment = some a → a.Valid ∧ node.fidelity = some a.projection := by
  simp only [validateFidelityAssessments, Table.forM_entries_eq_ok, checkFidelityAssessment_eq_ok]

lemma validateFidelityAssessments_eq_error {failure : SolveFailure V}
    (h : validateFidelityAssessments g = .error failure) : ∃ e, failure = .error e := by
  obtain ⟨entry, -, hcheck⟩ := forM_eq_error h
  unfold checkFidelityAssessment at hcheck
  cases hassessment : entry.2.fidelityAssessment with
  | none => simp [hassessment] at hcheck
  | some a =>
    simp only [hassessment, bind_eq_error, mapError_eq_error, ensure_eq_error] at hcheck
    rcases hcheck with ⟨_, _, rfl⟩ | ⟨_, _, ⟨_, _, rfl⟩ | ⟨_, _, _, rfl⟩⟩ <;> exact ⟨_, rfl⟩

@[simp] lemma TypedNode.kind_hydrate (node : TypedNode V) : node.hydrate.kind = node.kind := by
  unfold TypedNode.hydrate
  split <;> rfl

lemma lookup_hydrate (g : TypedGraph V) (id : NodeId) :
    (hydrateFidelityAssessments g).nodes.lookup id = (g.nodes.lookup id).map TypedNode.hydrate :=
  Table.lookup_mapValues _ _ _

lemma keys_hydrate (g : TypedGraph V) :
    (hydrateFidelityAssessments g).nodes.keys = g.nodes.keys := Table.keys_mapValues _ _

def runKinds (g : TypedGraph V) : Finset AnnotationKind :=
  (g.fidelityKinds.toList ++ generatedLosses).toFinset

lemma card_runKinds_le (g : TypedGraph V) :
    (runKinds g).card ≤ g.fidelityKinds.toList.length + 5 := by
  refine (toFinset_card_le _).trans ?_
  simp [generatedLosses]

lemma generated_mem_runKinds (g : TypedGraph V) : ∀ kind ∈ generatedLosses, kind ∈ runKinds g := by
  intro kind hkind
  simp [runKinds, hkind]

lemma mem_runKinds {node : TypedNode V} (hnode : g.nodes.lookup id = some node)
    {kind : AnnotationKind} (hkind : kind ∈ node.fidelityKinds) : kind ∈ runKinds g := by
  have hmem : kind ∈ g.fidelityKinds := by
    apply OrdSet.mem_ofList.2
    exact mem_flatMap.2 ⟨⟨id, node⟩, Table.mem_entries.2 hnode, hkind⟩
  simp [runKinds, hmem]

lemma settled_hydrate {node : TypedNode V} (hvalue : node.isValue)
    (hkinds : ∀ kind ∈ node.fidelityKinds, kind ∈ kinds)
    (hcheck : ∀ a, node.fidelityAssessment = some a → a.Valid ∧ node.fidelity = some a.projection) :
    Settled kinds node.hydrate := by
  unfold TypedNode.hydrate
  cases hassessment : node.fidelityAssessment with
  | some a =>
    rw [if_neg (by simp)]
    obtain ⟨hvalid, hfidelity⟩ := hcheck a hassessment
    refine ⟨?_, ?_, ?_⟩
    · intro b hb
      cases hassessment.symm.trans hb
      exact hvalid
    · rw [hfidelity, hassessment]
      rfl
    intro hnative kind hkind
    rw [hassessment] at hnative hkind
    cases a with
    | structural definites possibles =>
      apply hkinds
      simp only [TypedNode.fidelityKinds, hassessment, List.mem_append]
      exact .inr (.inl hkind)
    | _ => simp at hnative hkind
  | none =>
    rw [if_pos ⟨hvalue, rfl⟩]
    refine ⟨?_, ?_, ?_⟩
    · intro b hb
      obtain ⟨f, -, rfl⟩ := Option.map_eq_some_iff.1 hb
      exact valid_fromConcrete f
    · cases hfidelity : node.fidelity with
      | none => rfl
      | some f => exact congrArg some (projection_fromConcrete f).symm
    intro hnative kind hkind
    cases hfidelity : node.fidelity with
    | none => simp [hfidelity] at hkind
    | some f =>
      simp only [hfidelity, Option.map_some] at hnative hkind
      cases f with
      | structural lost =>
        apply hkinds
        simp only [TypedNode.fidelityKinds, hfidelity, List.mem_append]
        exact .inl hkind
      | _ => simp [fromConcrete] at hnative hkind

def AllSettled (kinds : Finset AnnotationKind) (g : TypedGraph V) : Prop :=
  ∀ id node, g.valueNode id = some node → Settled kinds node

lemma AllSettled.refined (h : AllSettled kinds g) (phase : SolvePhase) :
    Refined kinds phase g g := by
  refine ⟨rfl, rfl, fun id node hnode => ⟨node, hnode, rfl, fun _ => rfl, fun hvalue => ⟨?_, ?_⟩⟩⟩
  · exact h id node (valueNode_eq_some.2 ⟨hnode, hvalue⟩)
  · cases phase with
    | typeAndValue => trivial
    | fidelity => exact ⟨rfl, rfl, rfl⟩

lemma Refined.allSettled (h : Refined kinds phase base g) : AllSettled kinds g :=
  fun _ _ hnode => (h.valueNode hnode).1

lemma allSettled_hydrate (hvalid : validateFidelityAssessments g = .ok ()) :
    AllSettled (runKinds g) (hydrateFidelityAssessments g) := by
  intro id node hnode
  obtain ⟨hlookup, hvalue⟩ := valueNode_eq_some.1 hnode
  rw [lookup_hydrate] at hlookup
  obtain ⟨node₀, hnode₀, rfl⟩ := Option.map_eq_some_iff.1 hlookup
  have hvalue₀ : node₀.isValue := (isValue_congr node₀.kind_hydrate).symm.trans hvalue
  exact settled_hydrate hvalue₀ (fun kind hkind => mem_runKinds hnode₀ hkind)
    (validateFidelityAssessments_eq_ok.1 hvalid id node₀ hnode₀)

/-! ## The budget -/

lemma length_keys (t : Table NodeId (TypedNode V)) : t.keys.length = t.entries.length :=
  length_map _

lemma card_learnable_le [DecidableEq V] (g : TypedGraph V) :
    (learnable (runKinds g) (hydrateFidelityAssessments g)).card ≤
      g.nodes.entries.length * (46 + 2 * g.fidelityKinds.toList.length) := by
  have hkeys : (hydrateFidelityAssessments g).nodes.keys.toFinset.card ≤
      g.nodes.entries.length := by
    refine (toFinset_card_le _).trans_eq ?_
    rw [keys_hydrate, length_keys]
  have hfacts := card_factUniverse_le (V := V) (runKinds g)
  have hkinds := card_runKinds_le g
  rw [learnable, Finset.card_product]
  exact Nat.mul_le_mul hkeys (by omega)

lemma perNodeHeight_eq {kinds : ℕ} (h : perNodeHeight kinds < usizeMax) :
    perNodeHeight kinds = 49 + 2 * kinds := by
  simp only [perNodeHeight, saturatingAdd, saturatingMul, usizeMax, generatedLosses,
    length_cons, length_nil] at h ⊢
  omega

/-- A budget below the cap was computed without saturation. -/
lemma learnable_lt_budget [DecidableEq V] (g : TypedGraph V)
    (hbudget : derivedIterationBudget g ≤ maxSolvePasses) :
    (learnable (runKinds g) (hydrateFidelityAssessments g)).card + 2 ≤
      derivedIterationBudget g := by
  have hcard := card_learnable_le g
  have hproduct : g.nodes.entries.length * perNodeHeight g.fidelityKinds.toList.length + 2 =
      derivedIterationBudget g := by
    simp only [derivedIterationBudget, saturatingAdd, saturatingMul, maxSolvePasses, usizeMax]
      at hbudget ⊢
    omega
  have hheight : g.nodes.entries.length * (46 + 2 * g.fidelityKinds.toList.length) ≤
      g.nodes.entries.length * perNodeHeight g.fidelityKinds.toList.length := by
    rcases Nat.eq_zero_or_pos g.nodes.entries.length with hzero | hpos
    · simp [hzero]
    have hle : perNodeHeight g.fidelityKinds.toList.length ≤
        g.nodes.entries.length * perNodeHeight g.fidelityKinds.toList.length :=
      Nat.le_mul_of_pos_left _ hpos
    have hsmall : perNodeHeight g.fidelityKinds.toList.length < usizeMax := by
      simp only [maxSolvePasses, usizeMax] at hbudget ⊢
      omega
    rw [perNodeHeight_eq hsmall]
    exact Nat.mul_le_mul_left _ (by omega)
  omega

lemma two_le_limit (g : TypedGraph V) : 2 ≤ min (derivedIterationBudget g) maxSolvePasses := by
  simp only [derivedIterationBudget, saturatingAdd, saturatingMul, usizeMax, maxSolvePasses]
  omega

/-! ## The two phases -/

lemma typeFacts_of_kept {write : Write V} {node node' : TypedNode V}
    (hwrite : PhaseWrite kinds .typeAndValue write) (hkept : Kept .fidelity node node')
    (h : write.facts ⊆ node.facts) : write.facts ⊆ node'.facts := by
  obtain ⟨hdomain, hrep, hvalue⟩ := hkept
  cases write with
  | fidelity incoming => exact hwrite.elim
  | _ =>
    obtain ⟨hd, hr, hv, -⟩ := factsOf_subset.1 h
    refine factsOf_subset.2 ⟨?_, ?_, ?_, Set.empty_subset _⟩
    · rw [hdomain]
      exact hd
    · rw [hrep]
      exact hr
    · rw [hvalue]
      exact hv

section Phases

variable [DecidableEq V] [SolverValue V] {registry : BackendRegistry}
  {kinds : Finset AnnotationKind} {base typed solved : TypedGraph V} {limit left left' : ℕ}
  {exhausted : SolveFailure V} {I : Set EdgeId} {order order' : ℕ → List EdgeId}

section

variable (hkinds : ∀ kind ∈ generatedLosses, kind ∈ kinds)

include hkinds

/-- After the first phase enough passes are left for the second. -/
lemma first_phase
    (hbase : AllSettled kinds base) (hlimit : (learnable kinds base).card + 2 ≤ limit)
    (hvisits : Visits order I)
    (hrun : converge exhausted (propagate registry .typeAndValue) order limit base =
      .ok (typed, left)) :
    Refined kinds .typeAndValue base typed ∧ Closed (propagate registry .typeAndValue) I typed ∧
      missing known (learnable kinds typed) typed < left := by
  have hlearning := propagate_learning hkinds registry .typeAndValue base I
  obtain ⟨htyped, -, hclosed, hcount⟩ :=
    converge_ok hlearning hvisits (hbase.refined .typeAndValue) hrun
  refine ⟨htyped, hclosed, ?_⟩
  have hle := missing_le known (learnable kinds base) base
  rw [learnable, htyped.keys, ← learnable]
  omega

variable {phase : SolvePhase}

/-- Neither phase runs out of passes or panics. -/
lemma phase_error (hbase : AllSettled kinds base)
    (hleft : missing known (learnable kinds base) base < left) (hvisits : Visits order I)
    {failure : SolveFailure V}
    (hrun : converge exhausted (propagate registry phase) order left base = .error failure) :
    ∃ e, failure = .error e := by
  have hlearning := propagate_learning hkinds registry phase base I
  obtain ⟨eid, -, t, ht, hstep⟩ :=
    converge_error hlearning hvisits (hbase.refined phase) hleft hrun
  exact propagate_eq_error hkinds ht hstep

lemma phase_unique (hbase : AllSettled kinds base)
    (hleft : missing known (learnable kinds base) base < left)
    (hleft' : missing known (learnable kinds base) base < left')
    (hvisits : Visits order I) (hvisits' : Visits order' I) {n : ℕ}
    (hrun : converge exhausted (propagate registry phase) order left base = .ok (solved, n)) :
    ∃ m, converge exhausted (propagate registry phase) order' left' base = .ok (solved, m) :=
  converge_unique (propagate_learning hkinds registry phase base I) hvisits hvisits'
    (hbase.refined phase) hleft hleft' hrun

end

/-- The second phase does not disturb the fixed point of the first. -/
lemma closed_types_of_fidelity (htyped : AllSettled kinds typed)
    (hsolved : Refined kinds .fidelity typed solved)
    (hclosed : Closed (propagate registry .typeAndValue) I typed) :
    Closed (propagate registry .typeAndValue) I solved := by
  have htyped' := htyped.refined .typeAndValue
  have hsolved' := hsolved.allSettled.refined .typeAndValue
  have hrel : ∀ id, Option.Rel BaseBelow (solved.valueNode id) (typed.valueNode id) := by
    intro id
    cases hnode : solved.valueNode id with
    | none =>
      cases hnode' : typed.valueNode id with
      | none => exact .none
      | some node =>
        obtain ⟨other, hother⟩ := hsolved.exists_valueNode hnode'
        cases hnode.symm.trans hother
    | some node =>
      obtain ⟨-, node₀, hnode₀, -, hdomain, hrep, hvalue⟩ := hsolved.valueNode hnode
      rw [hnode₀]
      exact .some ⟨by rw [hdomain], by rw [hrep], fun v hv => hvalue ▸ hv⟩
  intro eid heid
  obtain ⟨l, hl, hpass⟩ := bind_eq_ok.1 (hclosed eid heid)
  cases hedge : typed.edges.lookup eid with
  | none =>
    refine bind_eq_ok.2 ⟨[], ?_, rfl⟩
    simp only [edgeWrites, hsolved.edges, hedge]
  | some edge =>
    simp only [edgeWrites, hedge] at hl
    cases hl
    obtain ⟨-, hstill⟩ := pass_still (applyWrite_learning kinds .typeAndValue typed)
      (typeWrites_phase kinds typed edge) htyped' hpass
    refine bind_eq_ok.2 ⟨typeWrites solved edge, ?_, pass_of_still fun write hwrite => ?_⟩
    · simp only [edgeWrites, hsolved.edges, hedge]
    have hphase := typeWrites_phase kinds solved edge write hwrite
    refine (applyWrite_still_iff hsolved' hphase).2 fun node hnode => ?_
    -- The same write, or a stronger one, changed nothing before the second phase.
    obtain ⟨stronger, hstronger, hsame, hfacts⟩ := typeWrites_below hrel edge write hwrite
    obtain ⟨-, node₀, hnode₀, -, hkept⟩ := hsolved.valueNode hnode
    rw [← hsame] at hnode₀
    have hphase' := typeWrites_phase kinds typed edge stronger hstronger
    exact hfacts.trans (typeFacts_of_kept hphase' hkept
      ((applyWrite_still_iff htyped' hphase').1 (hstill stronger hstronger) node₀ hnode₀))

end Phases

/-! ## The solver -/

/-- Every pass visits every edge once, in an order of its own. -/
def VisitsEdges (g : TypedGraph V) (order : ℕ → List EdgeId) : Prop :=
  ∀ n, (order n).Perm g.edgeIds

lemma VisitsEdges.visits {order : ℕ → List EdgeId} (h : VisitsEdges g order) :
    Visits order {eid | eid ∈ g.edgeIds} :=
  fun n _ => (h n).mem_iff

/-- The preflight reads the edges and which nodes are ordinary values. -/
lemma validateDataflowConstraints_congr {g' : TypedGraph V} (hedges : g'.edges = g.edges)
    (hvalues : ∀ id, g'.isValueNode id = g.isValueNode id) :
    validateDataflowConstraints g' = validateDataflowConstraints g := by
  have hisValue : g'.isValueNode = g.isValueNode := funext hvalues
  simp only [validateDataflowConstraints, edgeIds, hedges, hisValue]

lemma Refined.isValueNode (h : Refined kinds phase base g) (id : NodeId) :
    g.isValueNode id = base.isValueNode id := by
  apply Bool.eq_iff_iff.2
  simp only [TypedGraph.isValueNode, Option.isSome_iff_exists]
  constructor
  · rintro ⟨node, hnode⟩
    obtain ⟨-, node₀, hnode₀, -, -⟩ := h.valueNode hnode
    exact ⟨node₀, hnode₀⟩
  · rintro ⟨node₀, hnode₀⟩
    exact h.exists_valueNode hnode₀

section Solve

variable [DecidableEq V] [SolverValue V] {registry : BackendRegistry} {g g' : TypedGraph V}

variable {order : ℕ → List EdgeId} {typed : TypedGraph V}

lemma solveTypesWithLimits_eq_ok {derived limit : ℕ} :
    solveTypesWithLimits registry order derived limit g = .ok g' ↔
      validateFidelityAssessments g = .ok () ∧ validateDataflowConstraints g = .ok () ∧
      ∃ typed left left', converge (.budgetExhausted ⟨limit, derived, limit, limit < derived⟩)
          (propagate registry .typeAndValue) order limit (hydrateFidelityAssessments g) =
            .ok (typed, left) ∧
        converge (.budgetExhausted ⟨limit, derived, limit, limit < derived⟩)
          (propagate registry .fidelity) order left typed = .ok (g', left') := by
  simp only [solveTypesWithLimits, bind_eq_ok, Prod.exists]
  constructor
  · rintro ⟨⟨⟩, hfidelity, ⟨⟩, hdataflow, typed, left, hfirst, solved, left', hsecond, hresult⟩
    cases hresult
    exact ⟨hfidelity, hdataflow, typed, left, left', hfirst, hsecond⟩
  · rintro ⟨hfidelity, hdataflow, typed, left, left', hfirst, hsecond⟩
    exact ⟨(), hfidelity, (), hdataflow, typed, left, hfirst, g', left', hsecond, rfl⟩

structure Solved (registry : BackendRegistry) (g typed g' : TypedGraph V) : Prop where
  fidelity : validateFidelityAssessments g = .ok ()
  dataflow : validateDataflowConstraints g = .ok ()
  refinedTypes : Refined (runKinds g) .typeAndValue (hydrateFidelityAssessments g) typed
  refinedFidelity : Refined (runKinds g) .fidelity typed g'
  closedTypes : Closed (propagate registry .typeAndValue) {eid | eid ∈ g.edgeIds} g'
  closedFidelity : Closed (propagate registry .fidelity) {eid | eid ∈ g.edgeIds} g'

lemma solved_of_ok (horder : VisitsEdges g order)
    (hbudget : derivedIterationBudget g ≤ maxSolvePasses)
    (h : solveTypesInOrder registry order g = .ok g') : ∃ typed, Solved registry g typed g' := by
  rw [solveTypesInOrder, min_eq_left hbudget] at h
  obtain ⟨hfidelity, hdataflow, typed, left, left', hfirst, hsecond⟩ :=
    solveTypesWithLimits_eq_ok.1 h
  have hkinds := generated_mem_runKinds g
  obtain ⟨htyped, hclosed, -⟩ := first_phase hkinds (allSettled_hydrate hfidelity)
    (learnable_lt_budget g hbudget) horder.visits hfirst
  obtain ⟨hsolved, -, hclosed', -⟩ :=
    converge_ok (propagate_learning hkinds registry .fidelity typed _) horder.visits
      (htyped.allSettled.refined .fidelity) hsecond
  exact ⟨typed, hfidelity, hdataflow, htyped, hsolved,
    closed_types_of_fidelity htyped.allSettled hsolved hclosed, hclosed'⟩

/-- An ordinary value of the result is settled, any other node is the one of the start. -/
lemma Solved.node {typed : TypedGraph V} (h : Solved registry g typed g') {id : NodeId}
    {node : TypedNode V} (hnode : g'.nodes.lookup id = some node) :
    Settled (runKinds g) node ∨ (node.isValue = false ∧ g.nodes.lookup id = some node) := by
  obtain ⟨node₁, hnode₁, hkind, hsame, hsettled⟩ := h.refinedFidelity.nodes id node hnode
  cases hvalue : node₁.isValue with
  | true => exact .inl (hsettled hvalue).1
  | false =>
    obtain rfl := hsame hvalue
    obtain ⟨node₂, hnode₂, hkind₂, hsame₂, -⟩ := h.refinedTypes.nodes id node hnode₁
    obtain rfl := hsame₂ ((isValue_congr hkind₂).symm.trans hvalue)
    rw [lookup_hydrate] at hnode₂
    obtain ⟨node₀, hnode₀, rfl⟩ := Option.map_eq_some_iff.1 hnode₂
    have hvalue₀ : node₀.isValue = false :=
      (isValue_congr node₀.kind_hydrate).symm.trans hvalue
    have heq : node₀.hydrate = node₀ := by simp [TypedNode.hydrate, hvalue₀]
    rw [heq]
    exact .inr ⟨hvalue₀, hnode₀⟩

lemma Solved.validate (h : Solved registry g typed g') :
    validateFidelityAssessments g' = .ok () ∧ validateDataflowConstraints g' = .ok () := by
  constructor
  · apply validateFidelityAssessments_eq_ok.2
    intro id node hnode a ha
    rcases h.node hnode with hsettled | ⟨-, hstart⟩
    · refine ⟨hsettled.valid a ha, ?_⟩
      rw [hsettled.projects, ha]
      rfl
    · exact validateFidelityAssessments_eq_ok.1 h.fidelity id node hstart a ha
  · rw [← h.dataflow]
    apply validateDataflowConstraints_congr
    · exact h.refinedFidelity.edges.trans h.refinedTypes.edges
    intro id
    rw [h.refinedFidelity.isValueNode, h.refinedTypes.isValueNode]
    simp only [TypedGraph.isValueNode, valueNode, lookup_hydrate]
    cases g.nodes.lookup id with
    | none => rfl
    | some node =>
      simp only [Option.map_some, Option.filter_some, isValue_congr node.kind_hydrate]
      split <;> rfl

lemma Solved.hydrate (h : Solved registry g typed g') : hydrateFidelityAssessments g' = g' := by
  have hnodes : (hydrateFidelityAssessments g').nodes = g'.nodes := by
    apply Table.ext_lookup (keys_hydrate g')
    intro id
    rw [lookup_hydrate]
    cases hnode : g'.nodes.lookup id with
    | none => rfl
    | some node =>
      have heq : node.hydrate = node := by
        unfold TypedNode.hydrate
        split
        · next hnone =>
          rcases h.node hnode with hsettled | ⟨hvalue, -⟩
          · have hfidelity := hsettled.projects
            cases node
            simp_all
          · simp [hvalue] at hnone
        · rfl
      rw [Option.map_some, heq]
  cases g'
  simpa [hydrateFidelityAssessments] using hnodes

/-- Solving again takes one pass for each phase and changes nothing. -/
lemma Solved.again (h : Solved registry g typed g') : solveTypes registry g' = .ok g' := by
  have hedges : g'.edgeIds = g.edgeIds := by
    rw [edgeIds, h.refinedFidelity.edges, h.refinedTypes.edges]
    rfl
  have hvisits : Visits (fun _ => g'.edgeIds) {eid | eid ∈ g.edgeIds} := by
    intro n eid
    rw [hedges]
    rfl
  obtain ⟨n, hn⟩ := Nat.exists_eq_add_of_le (two_le_limit g')
  refine solveTypesWithLimits_eq_ok.2
    ⟨h.validate.1, h.validate.2, g', n + 1, n, ?_, converge_closed hvisits h.closedFidelity⟩
  rw [h.hydrate, hn, show 2 + n = n + 1 + 1 by omega]
  exact converge_closed hvisits h.closedTypes

lemma solve_error (horder : VisitsEdges g order)
    (hdataflow : validateDataflowConstraints g = .ok ())
    (hbudget : derivedIterationBudget g ≤ maxSolvePasses) {failure : SolveFailure V}
    (h : solveTypesInOrder registry order g = .error failure) : ∃ e, failure = .error e := by
  rw [solveTypesInOrder, min_eq_left hbudget] at h
  have hkinds := generated_mem_runKinds g
  have hlimit := learnable_lt_budget g hbudget
  rcases bind_eq_error.1 h with hfidelity | ⟨⟨⟩, hfidelity, h⟩
  · exact validateFidelityAssessments_eq_error hfidelity
  rcases bind_eq_error.1 h with hfails | ⟨⟨⟩, -, h⟩
  · cases hdataflow.symm.trans hfails
  have hbase := allSettled_hydrate hfidelity
  have hmissing := missing_le known
    (learnable (runKinds g) (hydrateFidelityAssessments g)) (hydrateFidelityAssessments g)
  rcases bind_eq_error.1 h with hfirst | ⟨⟨typed, left⟩, hfirst, h⟩
  · exact phase_error hkinds hbase (by omega) horder.visits hfirst
  obtain ⟨htyped, -, hleft⟩ := first_phase hkinds hbase hlimit horder.visits hfirst
  rcases bind_eq_error.1 h with hsecond | ⟨_, _, hpure⟩
  · exact phase_error hkinds htyped.allSettled hleft horder.visits hsecond
  · cases hpure

lemma solve_unique {order' : ℕ → List EdgeId} (horder : VisitsEdges g order)
    (horder' : VisitsEdges g order') (hbudget : derivedIterationBudget g ≤ maxSolvePasses)
    (h : solveTypesInOrder registry order g = .ok g') :
    solveTypesInOrder registry order' g = .ok g' := by
  rw [solveTypesInOrder, min_eq_left hbudget] at h ⊢
  have hkinds := generated_mem_runKinds g
  have hlimit := learnable_lt_budget g hbudget
  obtain ⟨hfidelity, hdataflow, typed, left, left₂, hfirst, hsecond⟩ :=
    solveTypesWithLimits_eq_ok.1 h
  have hbase := allSettled_hydrate hfidelity
  have hmissing : missing known (learnable (runKinds g) (hydrateFidelityAssessments g))
      (hydrateFidelityAssessments g) < derivedIterationBudget g :=
    (missing_le _ _ _).trans_lt (by omega)
  obtain ⟨left', hfirst'⟩ := phase_unique hkinds hbase hmissing hmissing horder.visits
    horder'.visits hfirst
  obtain ⟨htyped, -, hleft⟩ := first_phase hkinds hbase hlimit horder.visits hfirst
  obtain ⟨-, -, hleft'⟩ := first_phase hkinds hbase hlimit horder'.visits hfirst'
  obtain ⟨left₃, hsecond'⟩ := phase_unique hkinds htyped.allSettled hleft hleft' horder.visits
    horder'.visits hsecond
  exact solveTypesWithLimits_eq_ok.2 ⟨hfidelity, hdataflow, typed, left', left₃, hfirst', hsecond'⟩

/-- Within the hard cap the solver keeps its budget, solving again changes nothing, and the order in
which edges are visited does not matter. -/
theorem solveTypes_converges (registry : BackendRegistry) (g : TypedGraph V)
    (hdataflow : validateDataflowConstraints g = .ok ())
    (hbudget : derivedIterationBudget g ≤ maxSolvePasses) :
    (∀ order, VisitsEdges g order → ∀ failure,
      solveTypesInOrder registry order g = .error failure → ∃ e, failure = .error e) ∧
    (∀ g', solveTypes registry g = .ok g' → solveTypes registry g' = .ok g') ∧
    ∀ order, VisitsEdges g order → ∀ g',
      solveTypesInOrder registry order g = .ok g' ↔ solveTypes registry g = .ok g' := by
  have hsorted : VisitsEdges g fun _ => g.edgeIds := fun _ => .refl _
  refine ⟨?_, ?_, ?_⟩
  · intro order horder failure h
    exact solve_error horder hdataflow hbudget h
  · intro g' h
    obtain ⟨typed, hsolved⟩ := solved_of_ok hsorted hbudget h
    exact hsolved.again
  · intro order horder g'
    exact ⟨solve_unique horder hsorted hbudget, solve_unique hsorted horder hbudget⟩

end Solve

instance : SolverValue ONumber where
  view := .number
  bigInt := .int
  view_bigInt _ := rfl

def boundedFlow : TypedGraph ONumber where
  nodes := ((∅ : Table NodeId (TypedNode ONumber)).insert 0
    ⟨.value, domainAny, repAny, none, none, none⟩).insert 1
    ⟨.value, domainAny, repAny, none, none, some .lossless⟩
  edges := ((∅ : Table EdgeId ConstraintEdge).insert 0 ⟨0, .bounded 7, [⟨0, .output⟩]⟩).insert 1
    ⟨1, .dataFlow, [⟨0, .input⟩, ⟨1, .output⟩]⟩

theorem solveTypes_converges_boundedFlow :
    (∃ g', solveTypes [] boundedFlow = .ok g' ∧ solveTypes [] g' = .ok g') ∧
    ∀ order, VisitsEdges boundedFlow order → ∀ g',
      solveTypesInOrder [] order boundedFlow = .ok g' ↔ solveTypes [] boundedFlow = .ok g' := by
  obtain ⟨-, hfixed, horder⟩ := solveTypes_converges [] boundedFlow (by rfl) (by decide +kernel)
  refine ⟨?_, horder⟩
  obtain ⟨g', hg'⟩ : ∃ g', solveTypes [] boundedFlow = .ok g' := ⟨_, rfl⟩
  exact ⟨g', hg', hfixed g' hg'⟩

end Ostadix
