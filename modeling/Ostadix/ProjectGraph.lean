import Ostadix.ProjectBranches
import Ostadix.Soundness

/-! Projection of a plan to a hypergraph whose reachability is that of dependencies and conflicts.
-/

namespace Ostadix.Project

open Lowering List

/-! ## Projection -/

/-- The lowering under construction and the ordinary results of the operations so far. -/
structure Projecting where
  lowering : Lowering
  values : Table PlanNodeId NodeId

def projectDependencyNode (g : HGraph) (values : Table PlanNodeId NodeId) :
    ProjectDependency → Except ProjectError NodeId
  | .value p =>
    orError (.refused s!"project value dependency {p} has no preceding ordinary output")
      (values.lookup p)
  | .success p =>
    orError (.refused s!"project success dependency {p} has no preceding completion output")
      (g.completionNode p)

/-- Resources advance as they do when a program is lowered. -/
def addResourceTransitions (summary : EffectSummary) (producer : PlanNodeId)
    (completion : NodeId) (state : Lowering × OperationPorts) : Lowering × OperationPorts :=
  addResourceStateTransitions summary producer completion state

/-- Add the result and the completion of an operation, and record its effects. -/
def declareProjectOperation (g : HGraph) (operation : ProjectPlanOperation) :
    Except ProjectError (HGraph × NodeId × NodeId) := do
  let (g, value) := g.addNode .fresh
  let g := g.setPlanNode value operation.id
  let completion := g.nextNode
  let g ← (g.addCompletionNode operation.id).mapError .graph
  return (g.setEffectSummary operation.id operation.effects, value, completion)

def projectOperation (bundleValue : NodeId) (s : Projecting) (operation : ProjectPlanOperation) :
    Except ProjectError Projecting := do
  let (g, value, completion) ← declareProjectOperation s.lowering.graph operation
  let dependencies ← operation.dependencies.mapM (projectDependencyNode g s.values)
  let inputs := dependencies ++
    if operation.op = .materializeProject then [bundleValue] else []
  let (lowering, ports) := addResourceTransitions operation.effects operation.id completion
    (⟨g, s.lowering.frontiers⟩, ⟨inputs, [value, completion]⟩)
  let graph ← (lowering.graph.addExecEdge operation.id operation.op
    (deduplicateNodes ports.inputs) (deduplicateNodes ports.outputs) value
    operation.id).mapError .graph
  return ⟨{ lowering with graph }, s.values.insert operation.id value⟩

-- A root without a value would be an index out of range.
def pushRoots (values : Table PlanNodeId NodeId) (g : HGraph) (roots : List PlanNodeId) :
    Except ProjectError HGraph :=
  roots.foldlM (fun g root => do
    let node ← orError (.refused s!"project root {root} has no value") (values.lookup root)
    return g.pushRoot node) g

def projectUnvalidated (plan : ProjectExecutionPlan) : Except ProjectError HGraph := do
  let (g, bundleValue) := HGraph.empty.addNode
    (.withValue s!"project-bundle-sha256:{plan.bundleDigest}")
  let s ← plan.operations.foldlM (projectOperation bundleValue) ⟨⟨g, ∅⟩, ∅⟩
  pushRoots s.values s.lowering.graph plan.roots

def toHgraph (checks : Checks) (plan : ProjectExecutionPlan) : Except ProjectError HGraph := do
  (checks.validate plan).mapError .refused
  let graph ← projectUnvalidated plan
  graph.validateExecutionGraph.mapError .graph
  (checks.validateProjection plan graph).mapError .refused
  return graph

/-! ## Transitions -/

/-- The frontier that an operation meets: the one on record, or a new one without readers. -/
def Prior (s s' : Lowering) (r : ResourceKey) (f : ResourceFrontier) : Prop :=
  s.frontiers.lookup r = some f ∨ s.frontiers.lookup r = none ∧ f.openReads = ∅ ∧
    s.graph.nextNode ≤ f.lastWrite.node ∧ f.lastWrite.node < s'.graph.nextNode

/-- What becomes of the frontier `f` when the operation uses the resource. -/
structure Passes (s s' : Lowering) (ports : OperationPorts) (writes : OrdSet ResourceKey)
    (completion : NodeId) (r : ResourceKey) (f f' : ResourceFrontier) : Prop where
  state : f.lastWrite.node ∈ ports.inputs
  write : r ∈ writes → (∀ id ∈ f.openReads, id ∈ ports.inputs) ∧ f'.openReads = ∅ ∧
    f'.lastWrite.node ∈ ports.outputs ∧ s.graph.nextNode ≤ f'.lastWrite.node ∧
    f'.lastWrite.node < s'.graph.nextNode
  read : r ∉ writes → f'.lastWrite = f.lastWrite ∧ f'.openReads = f.openReads.insert completion

/-- An input that was there before, belongs to a new state or is met in a frontier. -/
def Met (s s' : Lowering) (writes : OrdSet ResourceKey) (l : List ResourceKey) (id : NodeId) :
    Prop :=
  (s.graph.nextNode ≤ id ∧ id < s'.graph.nextNode) ∨ ∃ r ∈ l, ∃ f,
    s.frontiers.lookup r = some f ∧ (id = f.lastWrite.node ∨ r ∈ writes ∧ id ∈ f.openReads)

/-- The transitions of the resources in `l`, which are independent of each other. -/
structure Transitions (writes : OrdSet ResourceKey) (completion : NodeId) (l : List ResourceKey)
    (s s' : Lowering) (ports ports' : OperationPorts) : Prop where
  next : s.graph.nextNode ≤ s'.graph.nextNode
  opMap : s'.graph.opMap = s.graph.opMap
  completions : s'.graph.completionNodes = s.graph.completionNodes
  inputs : ∀ id ∈ ports.inputs, id ∈ ports'.inputs
  outputs : ∀ id ∈ ports.outputs, id ∈ ports'.outputs
  inputs_new : ∀ id ∈ ports'.inputs, id ∈ ports.inputs ∨ Met s s' writes l id
  outputs_new : ∀ id ∈ ports'.outputs, id ∈ ports.outputs ∨
    s.graph.nextNode ≤ id ∧ id < s'.graph.nextNode
  idle : ∀ r, r ∉ l → s'.frontiers.lookup r = s.frontiers.lookup r
  used : ∀ r ∈ l, ∃ f f', Prior s s' r f ∧ s'.frontiers.lookup r = some f' ∧
    Passes s s' ports' writes completion r f f'

section Transitions

variable {writes : OrdSet ResourceKey} {completion : NodeId}

lemma transitions_nil (s : Lowering) (ports : OperationPorts) :
    Transitions writes completion [] s s ports ports :=
  ⟨le_rfl, rfl, rfl, fun _ => id, fun _ => id, fun _ => .inl, fun _ => .inl, fun _ _ => rfl, nofun⟩

lemma modifyNode_fields (g : HGraph) (id : NodeId) (f : HNode → HNode) :
    (g.modifyNode id f).nextNode = g.nextNode ∧ (g.modifyNode id f).opMap = g.opMap ∧
      (g.modifyNode id f).completionNodes = g.completionNodes := by
  unfold HGraph.modifyNode
  split <;> exact ⟨rfl, rfl, rfl⟩

/-- Looking up a frontier creates it on first use. -/
lemma frontier_spec (s : Lowering) (r : ResourceKey) :
    Prior s (s.frontier r).1 r (s.frontier r).2 ∧
      s.graph.nextNode ≤ (s.frontier r).1.graph.nextNode ∧
      (s.frontier r).1.graph.opMap = s.graph.opMap ∧
      (s.frontier r).1.graph.completionNodes = s.graph.completionNodes ∧
      ∀ x, x ≠ r → (s.frontier r).1.frontiers.lookup x = s.frontiers.lookup x := by
  unfold Lowering.frontier Prior
  split
  · next f hf => exact ⟨.inl hf, le_rfl, rfl, rfl, fun _ _ => rfl⟩
  rename_i hnone
  refine ⟨.inr ⟨hnone, rfl, le_rfl, Nat.lt_succ_self _⟩, Nat.le_succ _, rfl, rfl, ?_⟩
  intro x hx
  exact AList.lookup_insert_ne hx

lemma addTransition_spec (writes : OrdSet ResourceKey) (producer : PlanNodeId)
    (completion : NodeId) (s : Lowering) (ports : OperationPorts) (r : ResourceKey) :
    Transitions writes completion [r] s
      (addTransition writes producer completion (s, ports) r).1 ports
      (addTransition writes producer completion (s, ports) r).2 := by
  obtain ⟨hprior, hnext, hops, hcompletions, hothers⟩ := frontier_spec s r
  have hmet : ∀ s' : Lowering, (s.frontier r).1.graph.nextNode ≤ s'.graph.nextNode →
      ∀ id, (id = (s.frontier r).2.lastWrite.node ∨
        r ∈ writes ∧ id ∈ (s.frontier r).2.openReads) → Met s s' writes [r] id := by
    intro s' hle id hid
    rcases hprior with hf | ⟨-, hempty, hge, hlt⟩
    · exact .inr ⟨r, mem_singleton_self r, _, hf, hid⟩
    rcases hid with rfl | ⟨-, hid⟩
    · exact .inl ⟨hge, hlt.trans_le hle⟩
    · rw [hempty] at hid
      exact absurd hid (OrdSet.notMem_empty id)
  have hlater : ∀ s' : Lowering, (s.frontier r).1.graph.nextNode ≤ s'.graph.nextNode →
      Prior s s' r (s.frontier r).2 := by
    intro s' hle
    exact hprior.imp_right fun ⟨h, h', hge, hlt⟩ => ⟨h, h', hge, hlt.trans_le hle⟩
  unfold addTransition
  split
  · next hw =>
    obtain ⟨hnode, hopMap, hcompl⟩ := modifyNode_fields
      ((s.frontier r).1.graph.addNode (.resourceState r ((s.frontier r).2.lastWrite.version + 1))).1
      (s.frontier r).1.graph.nextNode fun node => { node with planNode := some producer }
    have hle : (s.frontier r).1.graph.nextNode ≤ (s.write r producer).1.graph.nextNode :=
      (Nat.le_succ _).trans hnode.ge
    refine ⟨?_, hopMap.trans hops, hcompl.trans hcompletions, ?_, ?_, ?_, ?_, ?_, ?_⟩
    · exact hnext.trans hle
    · exact fun id hid => mem_append_left _ hid
    · exact fun id hid => mem_append_left _ hid
    · intro id hid
      rcases mem_append.1 hid with hid | hid
      · exact .inl hid
      refine .inr (hmet (s.write r producer).1 hle id ?_)
      rcases mem_cons.1 hid with rfl | hid
      · exact .inl rfl
      · exact .inr ⟨hw, hid⟩
    · intro id hid
      rcases mem_append.1 hid with hid | hid
      · exact .inl hid
      · rw [mem_singleton.1 hid]
        exact .inr ⟨hnext, (Nat.lt_succ_self _).trans_le hnode.ge⟩
    · intro x hx
      have hne : x ≠ r := fun h => hx (mem_singleton.2 h)
      exact (AList.lookup_insert_ne hne).trans (hothers x hne)
    · intro x hx
      rw [mem_singleton.1 hx]
      refine ⟨_, _, hlater (s.write r producer).1 hle, AList.lookup_insert _, ?_, fun _ => ?_,
        fun h => absurd hw h⟩
      · exact mem_append_right _ mem_cons_self
      · refine ⟨fun id hid => ?_, rfl, ?_, hnext, (Nat.lt_succ_self _).trans_le hnode.ge⟩
        · exact mem_append_right _ (mem_cons_of_mem _ hid)
        · exact mem_append_right _ (mem_singleton_self _)
  · next hw =>
    refine ⟨hnext, hops, hcompletions, ?_, fun _ => id, ?_, fun _ => .inl, ?_, ?_⟩
    · exact fun id hid => mem_append_left _ hid
    · intro id hid
      rcases mem_append.1 hid with hid | hid
      · exact .inl hid
      · exact .inr (hmet _ le_rfl id (.inl (mem_singleton.1 hid)))
    · intro x hx
      have hne : x ≠ r := fun h => hx (mem_singleton.2 h)
      exact (AList.lookup_insert_ne hne).trans (hothers x hne)
    · intro x hx
      obtain rfl := mem_singleton.1 hx
      refine ⟨_, _, hlater _ le_rfl, AList.lookup_insert _, ?_, fun h => absurd h hw,
        fun _ => ⟨rfl, rfl⟩⟩
      exact mem_append_right _ (mem_singleton_self _)

lemma Transitions.cons {r : ResourceKey} {l : List ResourceKey} (hr : r ∉ l)
    {s s₁ s' : Lowering} {ports ports₁ ports' : OperationPorts}
    (h : Transitions writes completion [r] s s₁ ports ports₁)
    (h' : Transitions writes completion l s₁ s' ports₁ ports') :
    Transitions writes completion (r :: l) s s' ports ports' := by
  have hidle : ∀ x ∈ l, s₁.frontiers.lookup x = s.frontiers.lookup x := by
    intro x hx
    refine h.idle x fun heq => ?_
    rw [mem_singleton.1 heq] at hx
    exact hr hx
  refine ⟨h.next.trans h'.next, h'.opMap.trans h.opMap, h'.completions.trans h.completions,
    fun id hid => h'.inputs id (h.inputs id hid), fun id hid => h'.outputs id (h.outputs id hid),
    fun id hid => ?_, fun id hid => ?_, fun x hx => ?_, fun x hx => ?_⟩
  · rcases h'.inputs_new id hid with hid | ⟨hge, hlt⟩ | ⟨x, hx, f, hf, hid⟩
    · rcases h.inputs_new id hid with hid | ⟨hge, hlt⟩ | ⟨x, hx, f, hf, hid⟩
      · exact .inl hid
      · exact .inr (.inl ⟨hge, hlt.trans_le h'.next⟩)
      · exact .inr (.inr ⟨x, mem_cons.2 (.inl (mem_singleton.1 hx)), f, hf, hid⟩)
    · exact .inr (.inl ⟨h.next.trans hge, hlt⟩)
    · exact .inr (.inr ⟨x, mem_cons_of_mem r hx, f, (hidle x hx).symm.trans hf, hid⟩)
  · rcases h'.outputs_new id hid with hid | ⟨hge, hlt⟩
    · exact (h.outputs_new id hid).imp_right fun ⟨hge, hlt⟩ => ⟨hge, hlt.trans_le h'.next⟩
    · exact .inr ⟨h.next.trans hge, hlt⟩
  · rw [mem_cons, not_or] at hx
    exact (h'.idle x hx.2).trans (h.idle x fun heq => hx.1 (mem_singleton.1 heq))
  · rcases mem_cons.1 hx with rfl | hx
    · obtain ⟨f, f', hprior, hlookup, hpasses⟩ := h.used x (mem_singleton_self x)
      refine ⟨f, f', ?_, (h'.idle x hr).trans hlookup, ?_, fun hw => ?_, hpasses.read⟩
      · exact hprior.imp_right fun ⟨hn, he, hge, hlt⟩ => ⟨hn, he, hge, hlt.trans_le h'.next⟩
      · exact h'.inputs _ hpasses.state
      · obtain ⟨hreads, hempty, hout, hge, hlt⟩ := hpasses.write hw
        exact ⟨fun id hid => h'.inputs id (hreads id hid), hempty, h'.outputs _ hout, hge,
          hlt.trans_le h'.next⟩
    · obtain ⟨f, f', hprior, hlookup, hpasses⟩ := h'.used x hx
      refine ⟨f, f', ?_, hlookup, hpasses.state, fun hw => ?_, hpasses.read⟩
      · rw [Prior, hidle x hx] at hprior
        exact hprior.imp_right fun ⟨hn, he, hge, hlt⟩ => ⟨hn, he, h.next.trans hge, hlt⟩
      · obtain ⟨hreads, hempty, hout, hge, hlt⟩ := hpasses.write hw
        exact ⟨hreads, hempty, hout, h.next.trans hge, hlt⟩

lemma foldl_addTransition_spec (writes : OrdSet ResourceKey) (completion : NodeId)
    (producer : PlanNodeId) {l : List ResourceKey} (hl : l.Nodup)
    (s : Lowering) (ports : OperationPorts) :
    Transitions writes completion l s
      (l.foldl (addTransition writes producer completion) (s, ports)).1 ports
      (l.foldl (addTransition writes producer completion) (s, ports)).2 := by
  induction l generalizing s ports with
  | nil => exact transitions_nil s ports
  | cons r l ih =>
    obtain ⟨hr, hl⟩ := nodup_cons.1 hl
    rw [foldl_cons]
    exact (addTransition_spec writes producer completion s ports r).cons hr (ih hl _ _)

end Transitions

/-- An accessed resource is met, and the others are left alone. -/
lemma addResourceTransitions_spec {summary : EffectSummary} {producer : PlanNodeId}
    {completion : NodeId} {s s' : Lowering} {ports ports' : OperationPorts}
    (h : addResourceTransitions summary producer completion (s, ports) = (s', ports')) :
    Transitions summary.schedulingAccesses.2 completion
      (summary.schedulingAccesses.1 ∪ summary.schedulingAccesses.2).toList s s' ports ports' := by
  have hspec := foldl_addTransition_spec summary.schedulingAccesses.2 completion producer
    (OrdSet.nodup (summary.schedulingAccesses.1 ∪ summary.schedulingAccesses.2)) s ports
  rw [addResourceTransitions, addResourceStateTransitions] at h
  rw [h] at hspec
  exact hspec

end Ostadix.Project
