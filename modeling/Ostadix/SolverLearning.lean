import Ostadix.SolverFacts

/-! Every visit of an edge only adds to what is known of a graph. -/

namespace Ostadix

open FidelityAssessmentV2 Chaotic TypedNode Table

variable {V : Type}

/-! ## Graphs along a run -/

lemma TypedNode.isValue_congr {node node' : TypedNode V} (hkind : node.kind = node'.kind) :
    node.isValue = node'.isValue := by
  rw [isValue, isValue, hkind]

namespace TypedGraph

variable {g : TypedGraph V} {id : NodeId} {node : TypedNode V}

lemma valueNode_eq_some :
    g.valueNode id = some node ↔ g.nodes.lookup id = some node ∧ node.isValue := by
  simp [valueNode, Option.filter_eq_some_iff]

def known (g : TypedGraph V) : Set (NodeId × Fact V) :=
  {entry | ∃ node, g.valueNode entry.1 = some node ∧ entry.2 ∈ node.facts}

lemma valueNode_setNode {node' : TypedNode V} (hnode : g.valueNode id = some node)
    (hkind : node'.kind = node.kind) (id' : NodeId) :
    (g.setNode id node').valueNode id' = if id' = id then some node' else g.valueNode id' := by
  obtain ⟨hlookup, hvalue⟩ := valueNode_eq_some.1 hnode
  rw [valueNode, setNode, lookup_replace hlookup]
  split
  · simp [isValue_congr hkind, hvalue]
  · rfl

lemma setNode_self (hnode : g.valueNode id = some node) : g.setNode id node = g := by
  have hlookup := (valueNode_eq_some.1 hnode).1
  have hnodes : g.nodes.replace id node = g.nodes := by
    apply ext_lookup (keys_replace _ _ _)
    intro id'
    rw [lookup_replace hlookup]
    split
    · next heq => rw [heq, hlookup]
    · rfl
  rw [setNode, hnodes]

end TypedGraph

/-- A graph that a phase of the solver reached from `base`. -/
structure Refined (kinds : Finset AnnotationKind) (phase : SolvePhase) (base g : TypedGraph V) :
    Prop where
  edges : g.edges = base.edges
  keys : g.nodes.keys = base.nodes.keys
  nodes : ∀ id node, g.nodes.lookup id = some node → ∃ node₀, base.nodes.lookup id = some node₀ ∧
    node.kind = node₀.kind ∧ (node₀.isValue = false → node = node₀) ∧
    (node₀.isValue → Settled kinds node ∧ Kept phase node₀ node)

section Refined

variable {kinds : Finset AnnotationKind} {phase : SolvePhase} {base g s t : TypedGraph V}

lemma Refined.isSome_lookup (h : Refined kinds phase base g) (id : NodeId) :
    (g.nodes.lookup id).isSome ↔ (base.nodes.lookup id).isSome := by
  rw [AList.lookup_isSome, AList.lookup_isSome, AList.mem_keys, AList.mem_keys, h.keys]

variable {id : NodeId}

variable {node : TypedNode V}

lemma Refined.valueNode (h : Refined kinds phase base g) (hnode : g.valueNode id = some node) :
    Settled kinds node ∧
      ∃ node₀, base.valueNode id = some node₀ ∧ node.kind = node₀.kind ∧ Kept phase node₀ node := by
  obtain ⟨hlookup, hvalue⟩ := TypedGraph.valueNode_eq_some.1 hnode
  obtain ⟨node₀, hbase, hkind, -, hsettled⟩ := h.nodes id node hlookup
  have hvalue₀ : node₀.isValue := (isValue_congr hkind).symm.trans hvalue
  obtain ⟨hsettled, hkept⟩ := hsettled hvalue₀
  exact ⟨hsettled, node₀, TypedGraph.valueNode_eq_some.2 ⟨hbase, hvalue₀⟩, hkind, hkept⟩

lemma Refined.exists_valueNode (h : Refined kinds phase base g) {node₀ : TypedNode V}
    (hbase : base.valueNode id = some node₀) :
    ∃ node, g.valueNode id = some node := by
  obtain ⟨hlookup, hvalue⟩ := TypedGraph.valueNode_eq_some.1 hbase
  obtain ⟨node, hnode⟩ := Option.isSome_iff_exists.1 ((h.isSome_lookup id).2 (by simp [hlookup]))
  obtain ⟨node₁, hbase₁, hkind, -, -⟩ := h.nodes id node hnode
  obtain rfl := some_unique hlookup hbase₁
  exact ⟨node, TypedGraph.valueNode_eq_some.2 ⟨hnode, (isValue_congr hkind).trans hvalue⟩⟩

/-- More is known of a graph when more is known of every node. -/
lemma facts_subset_of_known (hs : Refined kinds phase base s) (ht : Refined kinds phase base t)
    (hle : s.known ⊆ t.known) (hnode : s.valueNode id = some node) :
    ∃ node', t.valueNode id = some node' ∧ node.facts ⊆ node'.facts := by
  obtain ⟨-, node₀, hbase, -, -⟩ := hs.valueNode hnode
  obtain ⟨node', hnode'⟩ := ht.exists_valueNode hbase
  refine ⟨node', hnode', fun fact hfact => ?_⟩
  obtain ⟨node'', hnode'', hfact'⟩ := hle (show (id, fact) ∈ s.known from ⟨node, hnode, hfact⟩)
  cases hnode'.symm.trans hnode''
  exact hfact'

lemma Refined.ext (hs : Refined kinds phase base s) (ht : Refined kinds phase base t)
    (hknown : s.known = t.known) : s = t := by
  have hnodes : s.nodes = t.nodes := by
    apply ext_lookup (hs.keys.trans ht.keys.symm)
    intro id
    cases hnode : s.nodes.lookup id with
    | none =>
      have hnone : ¬(t.nodes.lookup id).isSome := by
        rw [ht.isSome_lookup, ← hs.isSome_lookup, hnode]
        simp
      exact (Option.not_isSome_iff_eq_none.1 hnone).symm
    | some node =>
      obtain ⟨node', hnode'⟩ := Option.isSome_iff_exists.1
        ((ht.isSome_lookup id).2 ((hs.isSome_lookup id).1 (by simp [hnode])))
      rw [hnode']
      obtain ⟨node₀, hbase, hkind, hsame, hsettled⟩ := hs.nodes id node hnode
      obtain ⟨node₁, hbase', hkind', hsame', hsettled'⟩ := ht.nodes id node' hnode'
      obtain rfl := some_unique hbase hbase'
      cases hvalue : node₀.isValue with
      | false => rw [hsame hvalue, hsame' hvalue]
      | true =>
        have hs' := TypedGraph.valueNode_eq_some.2
          ⟨hnode, (isValue_congr hkind).trans hvalue⟩
        have ht' := TypedGraph.valueNode_eq_some.2
          ⟨hnode', (isValue_congr hkind').trans hvalue⟩
        obtain ⟨_, hn, hsub⟩ := facts_subset_of_known hs ht hknown.subset hs'
        cases ht'.symm.trans hn
        obtain ⟨_, hn, hsub'⟩ := facts_subset_of_known ht hs hknown.superset ht'
        cases hs'.symm.trans hn
        exact congrArg some (eq_of_facts (hsettled hvalue).1 (hsettled' hvalue).1
          (hkind.trans hkind'.symm) (hsub.antisymm hsub'))
  obtain ⟨sn, se⟩ := s
  obtain ⟨tn, te⟩ := t
  obtain rfl : sn = tn := hnodes
  obtain rfl : se = te := hs.edges.trans ht.edges.symm
  rfl

end Refined

/-! ## One update -/

section Update

variable [DecidableEq V] {kinds : Finset AnnotationKind} {phase : SolvePhase}
  {base g g' s t : TypedGraph V} {write : EdgeId × NodeId × Write V} {changed : Bool}

lemma applyWrite_eq_ok : applyWrite write g = .ok (g', changed) ↔
    (g.valueNode write.2.1 = none ∧ g' = g ∧ changed = false) ∨
      ∃ node node', g.valueNode write.2.1 = some node ∧
        write.2.2.apply write.1 write.2.1 node = .ok (node', changed) ∧
        g' = g.setNode write.2.1 node' := by
  unfold applyWrite
  cases hnode : g.valueNode write.2.1 with
  | none => simp [eq_comm]
  | some node =>
    simp only [bind_eq_ok, Prod.exists, reduceCtorEq, false_and, Option.some.injEq,
      exists_and_left, false_or, exists_eq_left']
    constructor
    · rintro ⟨node', flag, happly, hresult⟩
      cases hresult
      exact ⟨node', happly, rfl⟩
    · rintro ⟨node', happly, rfl⟩
      exact ⟨node', changed, happly, rfl⟩

variable {id : NodeId} {node node' : TypedNode V}

lemma Refined.setNode (h : Refined kinds phase base g) (hnode : g.valueNode id = some node)
    (hupdated : Updated kinds phase write.2.2 node node' changed) :
    Refined kinds phase base (g.setNode id node') := by
  obtain ⟨hlookup, hvalue⟩ := TypedGraph.valueNode_eq_some.1 hnode
  refine ⟨h.edges, (keys_replace _ _ _).trans h.keys, fun id' other hother => ?_⟩
  rw [TypedGraph.setNode, lookup_replace hlookup] at hother
  split at hother
  · next heq =>
    subst heq
    cases hother
    obtain ⟨node₀, hbase, hkind, -, hsettled⟩ := h.nodes id' node hlookup
    have hvalue₀ : node₀.isValue := (isValue_congr hkind).symm.trans hvalue
    refine ⟨node₀, hbase, hupdated.kind.trans hkind, ?_, fun _ => ⟨hupdated.settled, ?_⟩⟩
    · simp [hvalue₀]
    · exact kept_trans (hsettled hvalue₀).2 hupdated.kept
  · exact h.nodes id' other hother

lemma known_setNode (hnode : g.valueNode id = some node)
    (hupdated : Updated kinds phase write.2.2 node node' changed) :
    (g.setNode id node').known = g.known ∪ {entry | entry.1 = id ∧ entry.2 ∈ write.2.2.facts} := by
  ext ⟨id', fact⟩
  simp only [TypedGraph.known, TypedGraph.valueNode_setNode hnode hupdated.kind, Set.mem_ofPred_eq,
    Set.mem_union]
  by_cases heq : id' = id
  · subst heq
    simp [hnode, hupdated.facts]
  · simp [heq]

/-- An update leaves a graph alone when the node has the facts already. -/
lemma applyWrite_still_iff (h : Refined kinds phase base g)
    (hwrite : PhaseWrite kinds phase write.2.2) : applyWrite write g = .ok (g, false) ↔
      ∀ node, g.valueNode write.2.1 = some node → write.2.2.facts ⊆ node.facts := by
  constructor
  · intro hstill node hnode
    rcases applyWrite_eq_ok.1 hstill with ⟨hnone, -⟩ | ⟨node₁, node', hnode₁, happly, -⟩
    · simp [hnone] at hnode
    cases hnode.symm.trans hnode₁
    have hupdated := apply_updated (h.valueNode hnode).1 hwrite happly
    obtain rfl : node' = node := by simpa using hupdated.flag
    rw [hupdated.facts]
    exact Set.subset_union_right
  · intro hfacts
    cases hnode : g.valueNode write.2.1 with
    | none => exact applyWrite_eq_ok.2 (.inl ⟨hnode, rfl, rfl⟩)
    | some node =>
      have hsettled := (h.valueNode hnode).1
      obtain ⟨⟨node', changed⟩, happly⟩ := apply_of_below write.1 write.2.1 hsettled
        hwrite subset_rfl (hfacts node hnode)
      have hupdated := apply_updated hsettled hwrite happly
      obtain rfl : node' = node := by
        apply eq_of_facts hupdated.settled hsettled hupdated.kind
        rw [hupdated.facts]
        exact Set.union_eq_left.2 (hfacts node hnode)
      obtain rfl : changed = false := by simpa using hupdated.flag
      exact applyWrite_eq_ok.2
        (.inr ⟨node', node', hnode, happly, (TypedGraph.setNode_self hnode).symm⟩)

def learnable (kinds : Finset AnnotationKind) (base : TypedGraph V) : Finset (NodeId × Fact V) :=
  base.nodes.keys.toFinset ×ˢ factUniverse kinds

lemma applyWrite_learning (kinds : Finset AnnotationKind) (phase : SolvePhase)
    (base : TypedGraph V) : Learning applyWrite {write | PhaseWrite kinds phase write.2.2}
      TypedGraph.known (Refined kinds phase base) (learnable kinds base) where
  inj _ _ hs ht hknown := hs.ext ht hknown
  keeps write hwrite s t changed hs hstep := by
    rcases applyWrite_eq_ok.1 hstep with ⟨-, rfl, -⟩ | ⟨node, node', hnode, happly, rfl⟩
    · exact ⟨hs, subset_rfl⟩
    have hupdated := apply_updated (hs.valueNode hnode).1 hwrite happly
    refine ⟨hs.setNode hnode hupdated, ?_⟩
    rw [known_setNode hnode hupdated]
    exact Set.subset_union_left
  still write hwrite s t hs hstep := by
    rcases applyWrite_eq_ok.1 hstep with ⟨-, rfl, -⟩ | ⟨node, node', hnode, happly, rfl⟩
    · rfl
    · have hupdated := apply_updated (hs.valueNode hnode).1 hwrite happly
      obtain rfl : node' = node := by simpa using hupdated.flag
      exact TypedGraph.setNode_self hnode
  learns write hwrite s t hs hstep := by
    rcases applyWrite_eq_ok.1 hstep with ⟨-, -, hflag⟩ | ⟨node, node', hnode, happly, rfl⟩
    · cases hflag
    have hsettled := (hs.valueNode hnode).1
    have hupdated := apply_updated hsettled hwrite happly
    have hle : node.facts ⊆ node'.facts := by
      rw [hupdated.facts]
      exact Set.subset_union_left
    have hnew : ¬node'.facts ⊆ node.facts := by
      intro hsub
      have hsame := eq_of_facts hupdated.settled hsettled hupdated.kind
        (hsub.antisymm hle)
      simpa [hsame] using hupdated.flag
    obtain ⟨fact, hU, hfact, hmissing⟩ := exists_new_fact hupdated.settled hle hnew
    refine ⟨(write.2.1, fact), ?_, ⟨node', ?_, hfact⟩, ?_⟩
    · have hkey : write.2.1 ∈ s.nodes.keys :=
        AList.mem_keys.1 (mem_iff.2 ⟨node, (TypedGraph.valueNode_eq_some.1 hnode).1⟩)
      rw [hs.keys] at hkey
      simp [learnable, hkey, hU]
    · rw [TypedGraph.valueNode_setNode hnode hupdated.kind, if_pos rfl]
    · rintro ⟨node₁, hnode₁, hfact₁⟩
      cases hnode.symm.trans hnode₁
      exact hmissing hfact₁
  below write hwrite s t hs ht hle hstill := by
    cases hnode : s.valueNode write.2.1 with
    | none => exact ⟨s, false, applyWrite_eq_ok.2 (.inl ⟨hnode, rfl, rfl⟩), hle⟩
    | some node =>
      obtain ⟨node_t, hnode_t, hfacts⟩ := facts_subset_of_known hs ht hle hnode
      have hknown := (applyWrite_still_iff ht hwrite).1 hstill node_t hnode_t
      have hsettled := (hs.valueNode hnode).1
      obtain ⟨⟨node', changed⟩, happly⟩ :=
        apply_of_below write.1 write.2.1 hsettled hwrite hfacts hknown
      refine ⟨s.setNode write.2.1 node', changed,
        applyWrite_eq_ok.2 (.inr ⟨node, node', hnode, happly, rfl⟩), ?_⟩
      rw [known_setNode hnode (apply_updated hsettled hwrite happly)]
      apply Set.union_subset hle
      rintro ⟨id, fact⟩ ⟨rfl, hfact⟩
      exact ⟨node_t, hnode_t, hknown hfact⟩

end Update

end Ostadix
