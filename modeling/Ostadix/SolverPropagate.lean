import Ostadix.SolverLearning

/-! Where more is known, an edge asks for no less. -/

namespace Ostadix

open FidelityAssessmentV2 Chaotic List

variable {V : Type}

/-! ## Types and values -/

/-- At least as much is known of the type and the value of the second node. -/
structure BaseBelow (node node' : TypedNode V) : Prop where
  domain : clearBits node.domain ⊆ clearBits node'.domain
  rep : clearBits node.rep ⊆ clearBits node'.rep
  value : ∀ v, node.value = some v → node'.value = some v

variable {node node' : TypedNode V} {base g s t : TypedGraph V} {edge : EdgeId} {write : Write V}
  {l m : List (EdgeId × NodeId × Write V)} {ports : List Port} {phase : SolvePhase}
  {kinds : Finset AnnotationKind}

lemma baseBelow_of_facts (h : node.facts ⊆ node'.facts) : BaseBelow node node' := by
  obtain ⟨hdomain, hrep, hvalue, -⟩ := factsOf_subset.1 h
  exact ⟨hdomain, hrep, hvalue⟩

section Related

variable {R : TypedNode V → TypedNode V → Prop} {s t : TypedGraph V}

lemma rel_inputValueNode (h : ∀ id, Option.Rel R (s.valueNode id) (t.valueNode id))
    (edge : ConstraintEdge) : Option.Rel R (s.inputValueNode edge) (t.inputValueNode edge) := by
  unfold TypedGraph.inputValueNode
  induction edge.ports.filter Port.isInput with
  | nil => exact .none
  | cons port ports ih =>
    rw [findSome?_cons, findSome?_cons]
    cases hs : s.valueNode port.node with
    | none =>
      have hrel := h port.node
      rw [hs] at hrel
      cases ht : t.valueNode port.node with
      | none => exact ih
      | some node' => rw [ht] at hrel; cases hrel
    | some node =>
      have hrel := h port.node
      rw [hs] at hrel
      cases ht : t.valueNode port.node with
      | none => rw [ht] at hrel; cases hrel
      | some node' => rw [ht] at hrel; exact hrel

lemma forall₂_valueNodes (h : ∀ id, Option.Rel R (s.valueNode id) (t.valueNode id))
    (ports : List Port) :
    List.Forall₂ R (ports.filterMap fun port => s.valueNode port.node)
      (ports.filterMap fun port => t.valueNode port.node) := by
  induction ports with
  | nil => exact .nil
  | cons port ports ih =>
    have hrel := h port.node
    cases hs : s.valueNode port.node <;> cases ht : t.valueNode port.node <;>
      rw [hs, ht] at hrel <;> cases hrel
    · simpa [hs, ht] using ih
    · next hnodes =>
      simp only [filterMap_cons, hs, ht]
      exact .cons hnodes ih

end Related

lemma clearBits_numericMeet (h : ∀ id, Option.Rel BaseBelow (s.valueNode id) (t.valueNode id))
    (edge : ConstraintEdge) :
    clearBits (numericMeet s edge) ⊆ clearBits (numericMeet t edge) := by
  have hfold : ∀ (l m : List (TypedNode V)) (a b : UInt16), List.Forall₂ BaseBelow l m →
      clearBits a ⊆ clearBits b →
      clearBits (l.foldl (fun mask node => mask &&& node.domain &&& domainNumeric) a) ⊆
        clearBits (m.foldl (fun mask node => mask &&& node.domain &&& domainNumeric) b) := by
    intro l m a b hlm hab
    induction hlm generalizing a b with
    | nil => exact hab
    | cons hnode _ ih =>
      apply ih
      simp only [clearBits_and]
      exact Set.union_subset_union_left _ (Set.union_subset_union hab hnode.domain)
  exact hfold _ _ _ _ (forall₂_valueNodes h edge.ports) subset_rfl

/-- Every write of the first list has one of the second at the same node that says no less. -/
def WritesBelow (l m : List (EdgeId × NodeId × Write V)) : Prop :=
  ∀ write ∈ l, ∃ stronger ∈ m, stronger.2.1 = write.2.1 ∧ write.2.2.facts ⊆ stronger.2.2.facts

lemma writesBelow_refl (l : List (EdgeId × NodeId × Write V)) : WritesBelow l l :=
  fun write hwrite => ⟨write, hwrite, rfl, subset_rfl⟩

lemma writesBelow_cons {node : NodeId} {stronger : Write V} (h : write.facts ⊆ stronger.facts)
    (hrest : WritesBelow l m) :
    WritesBelow ((edge, node, write) :: l) ((edge, node, stronger) :: m) := by
  intro entry hentry
  rcases mem_cons.1 hentry with rfl | hmem
  · exact ⟨_, mem_cons_self, rfl, h⟩
  · obtain ⟨found, hfound, hsame⟩ := hrest entry hmem
    exact ⟨found, mem_cons_of_mem _ hfound, hsame⟩

lemma writesBelow_flatMap {f f' : Port → List (EdgeId × NodeId × Write V)}
    (h : ∀ port, WritesBelow (f port) (f' port)) :
    WritesBelow (ports.flatMap f) (ports.flatMap f') := by
  intro entry hentry
  obtain ⟨port, hport, hmem⟩ := mem_flatMap.1 hentry
  obtain ⟨found, hfound, hsame⟩ := h port entry hmem
  exact ⟨found, mem_flatMap.2 ⟨port, hport, hfound⟩, hsame⟩

lemma writesBelow_map {stronger : Write V} (h : write.facts ⊆ stronger.facts) :
    WritesBelow (ports.map fun port => (edge, port.node, write))
      (ports.map fun port => (edge, port.node, stronger)) := by
  intro entry hentry
  obtain ⟨port, hport, rfl⟩ := mem_map.1 hentry
  exact ⟨_, mem_map.2 ⟨port, hport, rfl⟩, rfl, h⟩

lemma typeWrites_below [SolverValue V]
    (h : ∀ id, Option.Rel BaseBelow (s.valueNode id) (t.valueNode id)) (edge : ConstraintEdge) :
    WritesBelow (typeWrites s edge) (typeWrites t edge) := by
  have hmeet := clearBits_numericMeet h edge
  have hinput := rel_inputValueNode h edge
  unfold typeWrites
  cases edge.kind with
  | additive => exact writesBelow_map (factsOf_subset.2 ⟨hmeet, by simp, by simp, by simp⟩)
  | multiplicative => exact writesBelow_map (factsOf_subset.2 ⟨hmeet, by simp, by simp, by simp⟩)
  | dataFlow =>
    cases hs : s.inputValueNode edge <;> cases ht : t.inputValueNode edge <;>
      rw [hs, ht] at hinput <;> cases hinput
    · exact writesBelow_refl _
    · next node node' hnodes =>
      refine writesBelow_flatMap fun port => writesBelow_cons ?_ (writesBelow_cons ?_
        (writesBelow_cons ?_ (writesBelow_refl [])))
      · exact factsOf_subset.2 ⟨hnodes.domain, by simp, by simp, by simp⟩
      · exact factsOf_subset.2 ⟨by simp, hnodes.rep, by simp, by simp⟩
      · exact factsOf_subset.2 ⟨by simp, by simp, hnodes.value, by simp⟩
  | _ => exact writesBelow_refl _

/-! ## Fidelity -/

def Generated (fidelity : Fidelity) : Prop :=
  ∀ lost, fidelity = .structural lost → ∀ kind, kind ∈ lost.lost → kind ∈ generatedLosses

lemma generated_ofLosses {lost : OrdSet AnnotationKind}
    (h : ∀ kind, kind ∈ lost → kind ∈ generatedLosses) : Generated (.ofLosses lost) := by
  intro losses hlosses
  unfold Fidelity.ofLosses FidelityLossSet.new at hlosses
  split at hlosses
  · next heq =>
    split at heq
    · cases heq
      cases hlosses
      exact h
    · cases heq
  · cases hlosses

lemma generated_numericFidelity (exceeds : Option Bool) (richNumbers : RichNumberPreservation) :
    Generated (numericFidelity exceeds richNumbers) := by
  cases exceeds with
  | none => rintro lost ⟨⟩
  | some exceeds =>
    cases richNumbers with
    | unknown => rintro lost ⟨⟩
    | preserved =>
      simp only [numericFidelity]
      apply generated_ofLosses
      cases exceeds <;> simp [generatedLosses]
    | collapsed =>
      simp only [numericFidelity]
      apply generated_ofLosses
      cases exceeds <;> simp [generatedLosses]

lemma generated_fidelityForValue [SolverValue V] (value : V)
    (capabilities : BackendValueCapabilities) :
    Generated (fidelityForValueWithCapabilities value capabilities) := by
  unfold fidelityForValueWithCapabilities
  cases SolverValue.view value with
  | native => rintro lost ⟨⟩
  | number v => exact generated_numericFidelity _ _
  | graph =>
    apply generated_ofLosses
    simp [generatedLosses]
  | capability =>
    apply generated_ofLosses
    simp [generatedLosses]
  | other => rintro lost ⟨⟩

lemma generated_fidelityForAbstract (node : TypedNode V)
    (capabilities : BackendValueCapabilities) :
    Generated (fidelityForAbstract node capabilities) := by
  unfold fidelityForAbstract
  dsimp only
  split_ifs
  case neg => exact generated_numericFidelity _ _
  all_goals rintro lost ⟨⟩

section Crossing

variable {kinds : Finset AnnotationKind} (hkinds : ∀ kind ∈ generatedLosses, kind ∈ kinds)
include hkinds

lemma within_fromConcrete {fidelity : Fidelity} (h : Generated fidelity) :
    Within kinds (some (fromConcrete fidelity)) := by
  intro hnative kind hkind
  cases fidelity with
  | structural lost => exact hkinds kind (h lost rfl kind hkind)
  | _ => simp [fromConcrete] at hnative hkind

lemma fidelityAssessmentForAbstract_ok (node : TypedNode V)
    (capabilities : BackendValueCapabilities) :
    ∃ a, fidelityAssessmentForAbstract node capabilities = .ok a ∧ a.Valid ∧
      Within kinds (some a) := by
  have hgenerated := generated_fidelityForAbstract node capabilities
  unfold fidelityAssessmentForAbstract
  cases hfidelity : fidelityForAbstract node capabilities with
  | structural lost =>
    have hbounds : ∀ kind, kind ∈ lost.lost.filter (· ≠ .numericPrecision) → kind ∈ lost.lost :=
      fun kind hkind => (OrdSet.mem_filter.1 hkind).1
    refine ⟨.structural (FidelityLossSet.new (lost.lost.filter (· ≠ .numericPrecision))) lost,
      ?_, ?_, ?_⟩
    · dsimp only
      rw [ofLosses_eq_ok hbounds]
      rfl
    · intro kind hkind
      rw [definite_mem_structural, definiteSet_new] at hkind
      exact hbounds kind hkind
    · intro _ kind hkind
      exact hkinds kind (hgenerated lost hfidelity kind hkind)
  | _ =>
    exact ⟨_, rfl, valid_fromConcrete _, within_fromConcrete hkinds (hfidelity ▸ hgenerated)⟩

lemma fidelityAssessmentFor_ok [SolverValue V] (registry : BackendRegistry) (node : TypedNode V)
    (fromLang toLang : String) :
    ∃ a, fidelityAssessmentFor registry node fromLang toLang = .ok a ∧ a.Valid ∧
      Within kinds (some a) := by
  have hpoint : ∀ fidelity : Fidelity, Generated fidelity →
      (fromConcrete fidelity).Valid ∧ Within kinds (some (fromConcrete fidelity)) :=
    fun fidelity h => ⟨valid_fromConcrete fidelity, within_fromConcrete hkinds h⟩
  have hunsupported := hpoint .unsupported (by rintro lost ⟨⟩)
  have hnative := hpoint .nativeCapsule (by rintro lost ⟨⟩)
  have hlossless := hpoint .lossless (by rintro lost ⟨⟩)
  unfold fidelityAssessmentFor
  split
  · exact ⟨_, rfl, hunsupported⟩
  split
  · exact ⟨_, rfl, hnative⟩
  split
  · exact ⟨_, rfl, hunsupported⟩
  split
  · exact ⟨_, rfl, hlossless⟩
  · split
    · exact ⟨_, rfl, hpoint _ (generated_fidelityForValue _ _)⟩
    · exact fidelityAssessmentForAbstract_ok hkinds node _

end Crossing

/-- The assessment of a crossing reads the type and the value of a node only. -/
lemma fidelityAssessmentFor_congr [SolverValue V] (hkind : node'.kind = node.kind)
    (hkept : Kept .fidelity node node') (registry : BackendRegistry) (fromLang toLang : String) :
    fidelityAssessmentFor registry node' fromLang toLang =
      fidelityAssessmentFor registry node fromLang toLang := by
  obtain ⟨hdomain, hrep, hvalue⟩ := hkept
  simp only [fidelityAssessmentFor, fidelityAssessmentForAbstract, fidelityForAbstract,
    TypedNode.isValue_congr hkind, hdomain, hrep, hvalue]

/-! ## One visit of an edge -/

/-- How a node at one point of a phase compares with the same node where more is known. -/
structure NodeBelow (kinds : Finset AnnotationKind) (phase : SolvePhase)
    (node node' : TypedNode V) : Prop where
  facts : node.facts ⊆ node'.facts
  kind : node'.kind = node.kind
  kept : Kept phase node node'
  settled : Settled kinds node
  settled' : Settled kinds node'

lemma kept_of_base {node₀ : TypedNode V} (h : Kept phase node₀ node) (h' : Kept phase node₀ node') :
    Kept phase node node' := by
  cases phase with
  | typeAndValue => trivial
  | fidelity => exact ⟨h'.1.trans h.1.symm, h'.2.1.trans h.2.1.symm, h'.2.2.trans h.2.2.symm⟩

lemma rel_valueNode (hs : Refined kinds phase base s) (ht : Refined kinds phase base t)
    (hle : s.known ⊆ t.known) (id : NodeId) :
    Option.Rel (NodeBelow kinds phase) (s.valueNode id) (t.valueNode id) := by
  cases hnode : s.valueNode id with
  | none =>
    cases hnode' : t.valueNode id with
    | none => exact .none
    | some node' =>
      obtain ⟨-, node₀, hbase, -, -⟩ := ht.valueNode hnode'
      obtain ⟨node, hsome⟩ := hs.exists_valueNode hbase
      cases hnode.symm.trans hsome
  | some node =>
    obtain ⟨node', hnode', hfacts⟩ := facts_subset_of_known hs ht hle hnode
    rw [hnode']
    obtain ⟨hsettled, node₀, hbase, hkind, hkept⟩ := hs.valueNode hnode
    obtain ⟨hsettled', node₁, hbase', hkind', hkept'⟩ := ht.valueNode hnode'
    cases hbase.symm.trans hbase'
    exact .some ⟨hfacts, hkind'.trans hkind.symm, kept_of_base hkept hkept', hsettled, hsettled'⟩

lemma forall_mem_ports {P : Write V → Prop} (h : P write) :
    ∀ entry ∈ ports.map (fun port => (edge, port.node, write)), P entry.2.2 := by
  intro entry hentry
  obtain ⟨port, -, rfl⟩ := mem_map.1 hentry
  exact h

lemma typeWrites_phase [SolverValue V] (kinds : Finset AnnotationKind) (g : TypedGraph V)
    (edge : ConstraintEdge) :
    ∀ write ∈ typeWrites g edge, PhaseWrite kinds .typeAndValue write.2.2 := by
  have hpairs : ∀ {ports : List Port} {f : Port → List (EdgeId × NodeId × Write V)},
      (∀ port, ∀ entry ∈ f port, PhaseWrite kinds .typeAndValue entry.2.2) →
      ∀ entry ∈ ports.flatMap f, PhaseWrite kinds .typeAndValue entry.2.2 := by
    intro ports f h entry hentry
    obtain ⟨port, -, hmem⟩ := mem_flatMap.1 hentry
    exact h port entry hmem
  unfold typeWrites
  cases edge.kind with
  | additive => exact forall_mem_ports trivial
  | multiplicative => exact forall_mem_ports trivial
  | bitwise => exact forall_mem_ports trivial
  | dereferenceable => exact forall_mem_ports trivial
  | fieldAccess field => exact forall_mem_ports trivial
  | ordered =>
    exact forall_mem_append.2 ⟨forall_mem_append.2
      ⟨forall_mem_ports trivial, forall_mem_ports trivial⟩, forall_mem_ports trivial⟩
  | bounded value =>
    exact forall_mem_append.2 ⟨forall_mem_append.2
      ⟨forall_mem_ports trivial, forall_mem_ports trivial⟩, forall_mem_ports trivial⟩
  | abiFixed dom rep => exact hpairs fun port => by simp [PhaseWrite]
  | dataFlow =>
    dsimp only
    split
    · simp
    · exact hpairs fun port => by simp [PhaseWrite]
  | _ => simp

lemma incoming_eq (h : Settled kinds node) :
    (node.fidelityAssessment <|> node.fidelity.map fromConcrete) = node.fidelityAssessment := by
  rw [h.projects]
  cases node.fidelityAssessment <;> rfl

lemma exists_valueNode_of_input {edge : ConstraintEdge} (h : g.inputValueNode edge = some node) :
    ∃ id, g.valueNode id = some node := by
  obtain ⟨port, -, hport⟩ := exists_of_findSome?_eq_some h
  exact ⟨port.node, hport⟩

/-- The assessment that an edge hands on, if any. -/
def incomingAssessment [SolverValue V] (registry : BackendRegistry) (kind : OpKind)
    (input : Option (TypedNode V)) : Except Panic (Option FidelityAssessmentV2) :=
  match kind with
  | .backendCrossing fromLang toLang =>
    match input with
    | none => .ok (some .unsupported)
    | some node => some <$> fidelityAssessmentFor registry node fromLang toLang
  | .dataFlow => .ok (input.bind TypedNode.fidelityAssessment)
  | _ => .ok none

lemma fidelityWrites_eq [SolverValue V] (hg : Refined kinds phase base g)
    (registry : BackendRegistry) (edge : ConstraintEdge) :
    fidelityWrites registry g edge = do
      match ← incomingAssessment registry edge.kind (g.inputValueNode edge) with
      | none => return []
      | some incoming => return edge.toOutputs (.fidelity incoming) := by
  unfold fidelityWrites incomingAssessment
  cases edge.kind with
  | backendCrossing fromLang toLang =>
    cases g.inputValueNode edge with
    | none => rfl
    | some node =>
      dsimp only
      cases fidelityAssessmentFor registry node fromLang toLang <;> rfl
  | dataFlow =>
    cases hinput : g.inputValueNode edge with
    | none => rfl
    | some node =>
      obtain ⟨id, hnode⟩ := exists_valueNode_of_input hinput
      simp only [Option.bind_some, incoming_eq (hg.valueNode hnode).1]
      cases node.fidelityAssessment <;> rfl
  | _ => rfl

lemma fidelityWrites_ok [SolverValue V] (hkinds : ∀ kind ∈ generatedLosses, kind ∈ kinds)
    (hg : Refined kinds phase base g) (registry : BackendRegistry) (edge : ConstraintEdge) :
    ∃ l, fidelityWrites registry g edge = .ok l ∧
      ∀ write ∈ l, PhaseWrite kinds .fidelity write.2.2 := by
  have hincoming : ∃ incoming,
      incomingAssessment registry edge.kind (g.inputValueNode edge) = .ok incoming ∧
      ∀ a, incoming = some a → a.Valid ∧ Within kinds (some a) := by
    unfold incomingAssessment
    cases edge.kind with
    | backendCrossing fromLang toLang =>
      cases g.inputValueNode edge with
      | none =>
        refine ⟨_, rfl, ?_⟩
        rintro a ⟨⟩
        exact ⟨by simp [Valid], by simp [Within]⟩
      | some node =>
        obtain ⟨a, ha, hvalid⟩ := fidelityAssessmentFor_ok hkinds registry node fromLang toLang
        refine ⟨some a, by simp only [ha]; rfl, ?_⟩
        rintro a ⟨⟩
        exact hvalid
    | dataFlow =>
      refine ⟨_, rfl, ?_⟩
      intro a ha
      obtain ⟨node, hinput, hassessment⟩ := Option.bind_eq_some_iff.1 ha
      obtain ⟨id, hnode⟩ := exists_valueNode_of_input hinput
      have hsettled := (hg.valueNode hnode).1
      exact ⟨hsettled.valid a hassessment, hassessment ▸ hsettled.within⟩
    | _ => exact ⟨none, rfl, by simp⟩
  obtain ⟨incoming, hok, hvalid⟩ := hincoming
  rw [fidelityWrites_eq hg, hok]
  cases incoming with
  | none => exact ⟨[], rfl, by simp⟩
  | some a => exact ⟨edge.toOutputs (.fidelity a), rfl, forall_mem_ports (hvalid a rfl)⟩

lemma fidelityWrites_below [SolverValue V] (hs : Refined kinds .fidelity base s)
    (ht : Refined kinds .fidelity base t) (hle : s.known ⊆ t.known) {registry : BackendRegistry}
    {edge : ConstraintEdge} (hl : fidelityWrites registry s edge = .ok l)
    (hm : fidelityWrites registry t edge = .ok m) :
    WritesBelow l m := by
  have hinput := rel_inputValueNode (rel_valueNode hs ht hle) edge
  rw [fidelityWrites_eq hs] at hl
  rw [fidelityWrites_eq ht] at hm
  unfold incomingAssessment at hl hm
  cases hs' : s.inputValueNode edge <;> cases ht' : t.inputValueNode edge <;>
    rw [hs', ht'] at hinput <;> cases hinput <;> rw [hs'] at hl <;> rw [ht'] at hm
  · cases hl.symm.trans hm
    exact writesBelow_refl l
  · next node node' hnodes =>
    cases hkind : edge.kind <;> rw [hkind] at hl hm <;> dsimp only at hl hm
    case backendCrossing fromLang toLang =>
      -- The crossing reads what this phase does not change.
      rw [fidelityAssessmentFor_congr hnodes.kind hnodes.kept] at hm
      cases hl.symm.trans hm
      exact writesBelow_refl l
    case dataFlow =>
      have hlosses := (factsOf_subset.1 hnodes.facts).2.2.2
      rw [Option.bind_some] at hl hm
      cases hassessment : node.fidelityAssessment with
      | none =>
        rw [hassessment] at hl
        cases hl
        exact fun entry hentry => absurd hentry not_mem_nil
      | some a =>
        obtain ⟨b, hb⟩ := exists_assessment_of_known (hassessment ▸ hlosses)
        rw [hassessment] at hl hlosses
        rw [hb] at hm hlosses
        cases hl
        cases hm
        exact writesBelow_map (factsOf_subset.2 ⟨by simp, by simp, by simp, hlosses⟩)
    all_goals
      cases hl
      cases hm
      exact writesBelow_refl []

section Visit

variable [DecidableEq V] [SolverValue V] {kinds : Finset AnnotationKind}

variable {phase : SolvePhase} {base : TypedGraph V} {l m : List (EdgeId × NodeId × Write V)}
  {registry : BackendRegistry}

omit [DecidableEq V] in
lemma edgeWrites_ok (hkinds : ∀ kind ∈ generatedLosses, kind ∈ kinds) {g : TypedGraph V}
    (hg : Refined kinds phase base g) (registry : BackendRegistry) (eid : EdgeId) :
    ∃ l, edgeWrites registry phase eid g = .ok l ∧
      ∀ write ∈ l, PhaseWrite kinds phase write.2.2 := by
  unfold edgeWrites
  cases g.edges.lookup eid with
  | none => exact ⟨[], rfl, by simp⟩
  | some edge =>
    cases phase with
    | typeAndValue => exact ⟨_, rfl, typeWrites_phase kinds g edge⟩
    | fidelity =>
      obtain ⟨l, hl, hphase⟩ := fidelityWrites_ok hkinds hg registry edge
      exact ⟨l, mapError_eq_ok.2 hl, hphase⟩

omit [DecidableEq V] in
lemma edgeWrites_below {s t : TypedGraph V} {eid : EdgeId} (hs : Refined kinds phase base s)
    (ht : Refined kinds phase base t) (hle : s.known ⊆ t.known)
    (hl : edgeWrites registry phase eid s = .ok l) (hm : edgeWrites registry phase eid t = .ok m) :
    WritesBelow l m := by
  unfold edgeWrites at hl hm
  rw [ht.edges, ← hs.edges] at hm
  cases hedge : s.edges.lookup eid with
  | none =>
    simp only [hedge] at hl hm
    cases hl
    cases hm
    exact writesBelow_refl []
  | some edge =>
    simp only [hedge] at hl hm
    cases phase with
    | typeAndValue =>
      cases hl
      cases hm
      refine typeWrites_below (fun id => ?_) edge
      have hrel := rel_valueNode hs ht hle id
      cases hnode : s.valueNode id <;> cases hnode' : t.valueNode id <;>
        rw [hnode, hnode'] at hrel <;> cases hrel
      · exact .none
      · next hnodes => exact .some (baseBelow_of_facts hnodes.facts)
    | fidelity => exact fidelityWrites_below hs ht hle (mapError_eq_ok.1 hl) (mapError_eq_ok.1 hm)

/-- A visit of an edge only adds to what is known. -/
lemma propagate_learning (hkinds : ∀ kind ∈ generatedLosses, kind ∈ kinds)
    (registry : BackendRegistry) (phase : SolvePhase) (base : TypedGraph V) (I : Set EdgeId) :
    Learning (propagate registry phase) I TypedGraph.known (Refined kinds phase base)
      (learnable kinds base) := by
  apply (applyWrite_learning kinds phase base).batch
  refine ⟨fun eid s hs => edgeWrites_ok hkinds hs registry eid, ?_⟩
  intro eid s t l m hs ht hle hl hm hstill
  obtain ⟨l', hl', hphase⟩ := edgeWrites_ok hkinds hs registry eid
  cases hl.symm.trans hl'
  obtain ⟨m', hm', hphase'⟩ := edgeWrites_ok hkinds ht registry eid
  cases hm.symm.trans hm'
  -- A write that says less than writes that change nothing changes nothing.
  intro write hwrite
  obtain ⟨stronger, hstronger, hnode, hfacts⟩ := edgeWrites_below hs ht hle hl hm write hwrite
  refine (applyWrite_still_iff ht (hphase write hwrite)).2 fun node hn => ?_
  rw [← hnode] at hn
  exact hfacts.trans ((applyWrite_still_iff ht (hphase' stronger hstronger)).1
    (hstill stronger hstronger) node hn)

/-- A visit fails only at a value that conflicts with another one. -/
lemma propagate_eq_error (hkinds : ∀ kind ∈ generatedLosses, kind ∈ kinds) {g : TypedGraph V}
    {eid : EdgeId} (hg : Refined kinds phase base g) {failure : SolveFailure V}
    (herror : propagate registry phase eid g = .error failure) : ∃ e, failure = .error e := by
  obtain ⟨l, hl, hphase⟩ := edgeWrites_ok hkinds hg registry eid
  rcases bind_eq_error.1 herror with hwrites | ⟨l', hl', hpass⟩
  · cases hl.symm.trans hwrites
  cases hl.symm.trans hl'
  obtain ⟨write, hwrite, t, ht, hstep⟩ :=
    pass_error (applyWrite_learning kinds phase base) hphase hg hpass
  unfold applyWrite at hstep
  cases hnode : t.valueNode write.2.1 with
  | none => simp [hnode] at hstep
  | some node =>
    simp only [hnode] at hstep
    rcases bind_eq_error.1 hstep with happly | ⟨_, _, hpure⟩
    · obtain ⟨u, v, -, -, -, rfl⟩ := apply_eq_error (ht.valueNode hnode).1 hwrite happly
      exact ⟨_, rfl⟩
    · cases hpure

end Visit

end Ostadix
