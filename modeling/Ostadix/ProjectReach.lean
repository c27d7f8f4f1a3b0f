import Ostadix.ProjectGraph

/-! Reachability in the graph of a plan. An operation is fed by those it depends on or meets at the
frontiers. -/

namespace Ostadix.HGraph

/-- Changing nodes leaves the rest of the graph alone. -/
lemma foldl_modifyNode_eq (l : List NodeId) (f : HNode → HNode) (g : HGraph) :
    ∃ nodes, l.foldl (fun g id => g.modifyNode id f) g = { g with nodes } := by
  induction l generalizing g with
  | nil => exact ⟨g.nodes, rfl⟩
  | cons id l ih =>
    obtain ⟨nodes, hnodes⟩ := ih (g.modifyNode id f)
    refine ⟨nodes, ?_⟩
    rw [List.foldl_cons, hnodes, modifyNode]
    split <;> rfl

/-- The parts of a graph other than its nodes after an operation was registered. -/
lemma wireExecEdge_eq (g : HGraph) (p : PlanNodeId) (inputs outputs : List NodeId)
    (op : ExecutableOp) (valueOutput : NodeId) (ordinal : ℕ) :
    ∃ nodes, g.wireExecEdge p op inputs outputs valueOutput ordinal =
      { g with
        nodes
        nextEdge := g.nextEdge + 1
        execEdges := g.execEdges.insert g.nextEdge ⟨.execute op, portsOf inputs outputs⟩
        opMap := g.opMap.insert p ⟨g.nextEdge, valueOutput, inputs, outputs, ordinal, p⟩ } := by
  unfold wireExecEdge
  obtain ⟨nodes, hnodes⟩ := foldl_modifyNode_eq inputs (consumedBy g.nextEdge) g
  obtain ⟨nodes', hnodes'⟩ := foldl_modifyNode_eq outputs (producedBy g.nextEdge p) { g with nodes }
  refine ⟨nodes', ?_⟩
  dsimp only
  rw [hnodes, hnodes']

end Ostadix.HGraph

namespace Ostadix.Project

open HGraph (IsOutputOf)

def Feeds (g : HGraph) (a b : PlanNodeId) : Prop :=
  ∃ id, g.IsOutputOf id a ∧ ∃ info, g.opFor b = some info ∧ id ∈ info.inputs

/-- `b` consumes, at least indirectly, what `a` produces. -/
def Reaches (g : HGraph) : PlanNodeId → PlanNodeId → Prop := Relation.TransGen (Feeds g)

def accessAt (ops : List ProjectPlanOperation) (r : ResourceKey) (p : ℕ) : Option Access :=
  (ops[p]?).bind fun o => o.effects.access r

def frontierAt (ops : List ProjectPlanOperation) (r : ResourceKey) (n : ℕ) : Frontier ℕ :=
  .after (accessAt ops r) (List.range n)

/-- The `b`-th operation depends on the `a`-th one or meets it at the frontier of a resource. -/
def Waits (ops : List ProjectPlanOperation) (a b : ℕ) : Prop :=
  ∃ o, ops[b]? = some o ∧ ((∃ d ∈ o.dependencies, d.planNode = a) ∨
    ∃ r, a ∈ (frontierAt ops r b).needs (o.effects.access r))

variable {ops : List ProjectPlanOperation} {o : ProjectPlanOperation} {g : HGraph}
  {plan : ProjectExecutionPlan}

variable {a n : ℕ} {g' : HGraph} {value : NodeId} {r : ResourceKey}

lemma frontierAt_succ (ho : ops[n]? = some o) (r : ResourceKey) :
    frontierAt ops r (n + 1) = (frontierAt ops r n).next n (o.effects.access r) := by
  rw [frontierAt, List.range_succ, Frontier.after_append_singleton, accessAt, ho]
  rfl

/-! ## One operation -/

/-- The recorded frontier holds outputs of the last writer and of the open readers only. -/
structure Meets (g : HGraph) (f : Frontier ℕ) (h : ResourceFrontier) : Prop where
  writer : ∀ p, g.IsOutputOf h.lastWrite.node p ↔ f.writer = some p
  readers : ∀ p, (∃ id ∈ h.openReads, g.IsOutputOf id p) ↔ p ∈ f.readers
  state_lt : h.lastWrite.node < g.nextNode
  reads_lt : ∀ id ∈ h.openReads, id < g.nextNode

/-- What holds after the first `n` operations have been projected. -/
structure Projected (ops : List ProjectPlanOperation) (bundleValue : NodeId) (n : ℕ)
    (s : Projecting) : Prop where
  bundle : bundleValue < s.lowering.graph.nextNode ∧
    ∀ p, ¬s.lowering.graph.IsOutputOf bundleValue p
  outputs_lt : ∀ id p, s.lowering.graph.IsOutputOf id p → id < s.lowering.graph.nextNode
  inputs_lt : ∀ p info, s.lowering.graph.opFor p = some info →
    ∀ id ∈ info.inputs, id < s.lowering.graph.nextNode
  owner : ∀ id p q, s.lowering.graph.IsOutputOf id p → s.lowering.graph.IsOutputOf id q → p = q
  present : ∀ p info, s.lowering.graph.opFor p = some info → p < n
  values : ∀ p id, s.values.lookup p = some id → s.lowering.graph.IsOutputOf id p
  completions : ∀ p id, s.lowering.graph.completionNode p = some id →
    s.lowering.graph.IsOutputOf id p
  met : ∀ r f, s.lowering.frontiers.lookup r = some f →
    Meets s.lowering.graph (frontierAt ops r n) f
  unmet : ∀ r, s.lowering.frontiers.lookup r = none → frontierAt ops r n = .init
  feeds : ∀ a b, Feeds s.lowering.graph a b ↔ b < n ∧ Waits ops a b
  increasing : ∀ a b, Feeds s.lowering.graph a b → a < b

/-- The graph gains the operation `n` with these inputs and new outputs. -/
structure Gains (g g' : HGraph) (n : ℕ) (inputs outputs : List NodeId) : Prop where
  next : g.nextNode ≤ g'.nextNode
  absent : g.opFor n = none
  op : ∃ info, info.inputs = inputs ∧ info.outputs = outputs ∧
    ∀ p, g'.opFor p = if p = n then some info else g.opFor p
  inputs_lt : ∀ id ∈ inputs, id < g'.nextNode
  outputs_ge : ∀ id ∈ outputs, g.nextNode ≤ id ∧ id < g'.nextNode
  disjoint : ∀ id ∈ outputs, id ∉ inputs

section Gains

variable {g g' : HGraph} {n : ℕ} {inputs outputs : List NodeId}

variable {id : NodeId} {a p : PlanNodeId}

section

variable (h : Gains g g' n inputs outputs)

include h

lemma Gains.isOutputOf : g'.IsOutputOf id p ↔ g.IsOutputOf id p ∨ p = n ∧ id ∈ outputs := by
  obtain ⟨info, -, houtputs, hop⟩ := h.op
  unfold IsOutputOf
  rw [hop p]
  by_cases hp : p = n
  · subst hp
    simp [h.absent, houtputs]
  · simp [hp]

lemma Gains.isOutputOf_old (hid : id < g.nextNode) : g'.IsOutputOf id p ↔ g.IsOutputOf id p := by
  rw [h.isOutputOf]
  constructor
  · rintro (hout | ⟨-, hout⟩)
    · exact hout
    · exact absurd (h.outputs_ge id hout).1 (not_le.2 hid)
  · exact .inl

lemma Gains.meets {f : Frontier ℕ} {head : ResourceFrontier}
    (hmeets : Meets g f head) : Meets g' f head := by
  refine ⟨fun p => ?_, fun p => ?_, hmeets.state_lt.trans_le h.next,
    fun id hid => (hmeets.reads_lt id hid).trans_le h.next⟩
  · rw [h.isOutputOf_old hmeets.state_lt, hmeets.writer]
  · rw [← hmeets.readers]
    refine exists_congr fun id => and_congr_right fun hid => ?_
    exact h.isOutputOf_old (hmeets.reads_lt id hid)

/-- Who feeds the operations that were there before stays the same. -/
lemma Gains.feeds_of_ne
    (hlt : ∀ p info, g.opFor p = some info → ∀ id ∈ info.inputs, id < g.nextNode) {b : PlanNodeId}
    (hb : b ≠ n) : Feeds g' a b ↔ Feeds g a b := by
  obtain ⟨info, -, -, hop⟩ := h.op
  unfold Feeds
  rw [hop b, if_neg hb]
  constructor
  · rintro ⟨id, hout, info', hinfo', hid⟩
    exact ⟨id, (h.isOutputOf_old (hlt b info' hinfo' id hid)).1 hout, info', hinfo', hid⟩
  · rintro ⟨id, hout, info', hinfo', hid⟩
    exact ⟨id, h.isOutputOf.2 (.inl hout), info', hinfo', hid⟩

/-- The new operation is fed through its inputs by operations that were there before. -/
lemma Gains.feeds_self : Feeds g' a n ↔ ∃ id ∈ inputs, g.IsOutputOf id a := by
  obtain ⟨info, hinputs, -, hop⟩ := h.op
  unfold Feeds
  rw [hop n, if_pos rfl]
  constructor
  · rintro ⟨id, hout, info', hinfo', hid⟩
    cases hinfo'
    rw [hinputs] at hid
    rcases h.isOutputOf.1 hout with hout | ⟨-, hout⟩
    · exact ⟨id, hid, hout⟩
    · exact absurd hid (h.disjoint id hout)
  · rintro ⟨id, hid, hout⟩
    exact ⟨id, h.isOutputOf.2 (.inl hout), info, rfl, hinputs ▸ hid⟩

end

end Gains

/-! ## Reading an operation -/

lemma declareProjectOperation_spec {completion : NodeId}
    (h : declareProjectOperation g o = .ok (g', value, completion)) :
    value = g.nextNode ∧ completion = g.nextNode + 1 ∧ g'.nextNode = g.nextNode + 2 ∧
      g'.opMap = g.opMap ∧ g'.completionNodes = g.completionNodes.insert o.id completion := by
  simp only [declareProjectOperation, bind_eq_ok, mapError_eq_ok] at h
  obtain ⟨added, hadded, heq⟩ := h
  cases heq
  obtain ⟨hnode, hops, hcompletions⟩ := modifyNode_fields (g.addNode .fresh).1 g.nextNode
    fun node => { node with planNode := some o.id }
  have hnext : ((g.addNode .fresh).1.setPlanNode g.nextNode o.id).nextNode = g.nextNode + 1 :=
    hnode
  unfold HGraph.addCompletionNode at hadded
  split at hadded
  · cases hadded
  cases hadded
  refine ⟨rfl, hnext, ?_, hops, ?_⟩
  · exact congrArg (· + 1) hnext
  · exact congrArg (fun t => AList.insert o.id _ t) hcompletions

lemma addExecEdge_spec {p : PlanNodeId} {op : ExecutableOp} {inputs outputs : List NodeId}
    {ordinal : ℕ} (h : g.addExecEdge p op inputs outputs value ordinal = .ok g') :
    g.opFor p = none ∧ (∀ id ∈ outputs, id ∉ inputs) ∧ g'.nextNode = g.nextNode ∧
      g'.completionNodes = g.completionNodes ∧
      g'.opMap = g.opMap.insert p ⟨g.nextEdge, value, inputs, outputs, ordinal, p⟩ := by
  simp only [HGraph.addExecEdge, bind_eq_ok, ensure_eq_ok, forDistinct_eq_ok] at h
  obtain ⟨⟨⟩, hnew, ⟨⟩, -, ⟨⟩, ⟨houtputs, -⟩, ⟨⟩, -, heq⟩ := h
  obtain ⟨nodes, hwired⟩ := HGraph.wireExecEdge_eq g p inputs outputs op value ordinal
  cases heq
  rw [hwired]
  refine ⟨Option.isNone_iff_eq_none.1 hnew, fun id hid => ?_, rfl, rfl, rfl⟩
  have hcheck := (houtputs id hid).2
  unfold HGraph.checkNewOutput at hcheck
  split at hcheck
  · cases hcheck
  · simp only [bind_eq_ok, ensure_eq_ok] at hcheck
    obtain ⟨⟨⟩, -, ⟨⟩, -, hnot⟩ := hcheck
    exact hnot

/-- The nodes that an operation consumes besides the states of resources. -/
def ownInputs (bundleValue : NodeId) (o : ProjectPlanOperation) (dependencies : List NodeId) :
    List NodeId :=
  dependencies ++ if o.op = .materializeProject then [bundleValue] else []

/-- How the projection of an operation came about. -/
structure Performed (bundleValue : NodeId) (s s' : Projecting) (o : ProjectPlanOperation)
    (g : HGraph) (dependencies : List NodeId) (ports : OperationPorts) : Prop where
  declared : declareProjectOperation s.lowering.graph o =
    .ok (g, s.lowering.graph.nextNode, s.lowering.graph.nextNode + 1)
  nextNode : g.nextNode = s.lowering.graph.nextNode + 2
  completions : s'.lowering.graph.completionNodes =
    s.lowering.graph.completionNodes.insert o.id (s.lowering.graph.nextNode + 1)
  resolved : List.Forall₂ (fun d id => projectDependencyNode g s.values d = .ok id)
    o.dependencies dependencies
  values : s'.values = s.values.insert o.id s.lowering.graph.nextNode
  transitions : ∃ lowering, Transitions o.effects.schedulingAccesses.2
      (s.lowering.graph.nextNode + 1)
      (o.effects.schedulingAccesses.1 ∪ o.effects.schedulingAccesses.2).toList
      ⟨g, s.lowering.frontiers⟩ lowering
      ⟨ownInputs bundleValue o dependencies,
        [s.lowering.graph.nextNode, s.lowering.graph.nextNode + 1]⟩ ports ∧
    s'.lowering.frontiers = lowering.frontiers ∧
    s'.lowering.graph.nextNode = lowering.graph.nextNode
  opFor : s.lowering.graph.opFor o.id = none
  disjoint : ∀ id ∈ ports.outputs, id ∉ ports.inputs
  op : ∃ info, info.inputs = deduplicateNodes ports.inputs ∧
    info.outputs = deduplicateNodes ports.outputs ∧
    info.valueOutput = s.lowering.graph.nextNode ∧
    s'.lowering.graph.opMap = s.lowering.graph.opMap.insert o.id info
  ports_eq : (addResourceTransitions o.effects o.id (s.lowering.graph.nextNode + 1)
    (⟨g, s.lowering.frontiers⟩, ⟨ownInputs bundleValue o dependencies,
      [s.lowering.graph.nextNode, s.lowering.graph.nextNode + 1]⟩)).2 = ports

lemma mem_deduplicateNodes {id : NodeId} {l : List NodeId} : id ∈ deduplicateNodes l ↔ id ∈ l := by
  simp [deduplicateNodes, mem_retainNew]

lemma exists_performed {bundleValue : NodeId} {s s' : Projecting}
    (h : projectOperation bundleValue s o = .ok s') :
    ∃ g dependencies ports, Performed bundleValue s s' o g dependencies ports := by
  simp only [projectOperation, bind_eq_ok, mapError_eq_ok, mapM_eq_ok] at h
  obtain ⟨⟨g, value, completion⟩, hdeclared, dependencies, hdependencies, h⟩ := h
  obtain ⟨rfl, rfl, hnext, hops, hcompletions⟩ := declareProjectOperation_spec hdeclared
  rcases htransitions : addResourceTransitions o.effects o.id (s.lowering.graph.nextNode + 1)
    (⟨g, s.lowering.frontiers⟩, ⟨ownInputs bundleValue o dependencies,
      [s.lowering.graph.nextNode, s.lowering.graph.nextNode + 1]⟩) with ⟨lowering, ports⟩
  have hspec := addResourceTransitions_spec htransitions
  have hports := htransitions
  rw [ownInputs] at htransitions
  rw [htransitions] at h
  obtain ⟨graph, hgraph, heq⟩ := h
  obtain ⟨habsent, hdisjoint, hnode, hcompl, hopMap⟩ := addExecEdge_spec hgraph
  cases heq
  refine ⟨g, dependencies, ports, hdeclared, hnext, ?_, hdependencies, rfl,
    ⟨lowering, hspec, rfl, hnode⟩, ?_, fun id hid => ?_, ?_, congrArg Prod.snd hports⟩
  · exact hcompl.trans (hspec.completions.trans hcompletions)
  · have hopMap' : lowering.graph.opMap = s.lowering.graph.opMap := hspec.opMap.trans hops
    rw [HGraph.opFor, ← hopMap']
    exact habsent
  · have hnot := hdisjoint id (mem_deduplicateNodes.2 hid)
    exact fun hin => hnot (mem_deduplicateNodes.2 hin)
  · refine ⟨⟨lowering.graph.nextEdge, s.lowering.graph.nextNode, deduplicateNodes ports.inputs,
      deduplicateNodes ports.outputs, o.id, o.id⟩, rfl, rfl, rfl, ?_⟩
    rw [hopMap, hspec.opMap, hops]

/-! ## What an operation is fed by -/

lemma Meets.mem_needs {f : Frontier ℕ} {head : ResourceFrontier} (h : Meets g f head)
    {kind : Access} :
    a ∈ f.needs (some kind) ↔ g.IsOutputOf head.lastWrite.node a ∨
      kind = .write ∧ ∃ id ∈ head.openReads, g.IsOutputOf id a := by
  rw [h.writer, h.readers]
  cases kind with
  | read => simp [Frontier.needs]
  | write => simp [Frontier.needs]

section Performed

variable {ops : List ProjectPlanOperation} {bundleValue : NodeId} {n : ℕ} {s s' : Projecting}
  {o : ProjectPlanOperation} {g : HGraph} {dependencies : List NodeId} {ports : OperationPorts}

variable (hp : Performed bundleValue s s' o g dependencies ports)
  (hs : Projected ops bundleValue n s)

include hp

lemma Performed.completion_mem : s.lowering.graph.nextNode + 1 ∈ ports.outputs := by
  obtain ⟨lowering, htransitions, -, -⟩ := hp.transitions
  exact htransitions.outputs _ (by simp)

include hs

variable {id : NodeId}

/-- A dependency is resolved to an output of what it names, present unless it is its own completion.
-/
lemma Performed.dependency {d : ProjectDependency}
    (h : projectDependencyNode g s.values d = .ok id) :
    s.lowering.graph.IsOutputOf id d.planNode ∨ id = s.lowering.graph.nextNode + 1 := by
  cases d with
  | value p =>
    rw [projectDependencyNode, orError_eq_ok] at h
    exact .inl (hs.values p id h)
  | success p =>
    rw [projectDependencyNode, orError_eq_ok, HGraph.completionNode,
      (declareProjectOperation_spec hp.declared).2.2.2.2, Table.lookup_insert_eq_ite] at h
    split at h
    · exact .inr (Option.some.inj h).symm
    · exact .inl (hs.completions p id h)

/-- An input is an output of a dependency, the bundle, a state that is new, or met. -/
lemma Performed.input_cases (hid : id ∈ ports.inputs) :
    (∃ d ∈ o.dependencies, s.lowering.graph.IsOutputOf id d.planNode) ∨ id = bundleValue ∨
      (s.lowering.graph.nextNode ≤ id ∧ id < s'.lowering.graph.nextNode) ∨
      ∃ r f kind, o.effects.access r = some kind ∧ s.lowering.frontiers.lookup r = some f ∧
        (id = f.lastWrite.node ∨ kind = .write ∧ id ∈ f.openReads) := by
  obtain ⟨lowering, htransitions, -, hnext⟩ := hp.transitions
  rcases htransitions.inputs_new id hid with hown | ⟨hge, hlt⟩ | ⟨r, hr, f, hf, hmet⟩
  · rcases List.mem_append.1 hown with hdep | hbundle
    · obtain ⟨i, hi⟩ := List.mem_iff_getElem?.1 hdep
      obtain ⟨d, hd, hresolved⟩ := forall₂_getElem? hp.resolved.flip hi
      rcases hp.dependency hs hresolved with hout | rfl
      · exact .inl ⟨d, List.mem_of_getElem? hd, hout⟩
      · exact absurd hid (hp.disjoint _ hp.completion_mem)
    · split at hbundle
      · exact .inr (.inl (List.mem_singleton.1 hbundle))
      · cases hbundle
  · rw [hnext]
    have hbase : s.lowering.graph.nextNode ≤ g.nextNode := by
      rw [hp.nextNode]
      exact Nat.le_add_right _ 2
    exact .inr (.inr (.inl ⟨hbase.trans hge, hlt⟩))
  · refine .inr (.inr (.inr ⟨r, f, EffectSummary.accessKind o.effects.schedulingAccesses.2 r,
      ?_, hf, hmet.imp_right fun ⟨hw, hread⟩ => ⟨if_pos hw, hread⟩⟩))
    rw [EffectSummary.access_eq_ite, if_pos hr]

lemma Performed.gains (hid : o.id = n) :
    Gains s.lowering.graph s'.lowering.graph n (deduplicateNodes ports.inputs)
      (deduplicateNodes ports.outputs) := by
  obtain ⟨lowering, htransitions, -, hnext⟩ := hp.transitions
  obtain ⟨info, hinputs, houtputs, -, hopMap⟩ := hp.op
  have hgrow : s.lowering.graph.nextNode + 2 ≤ s'.lowering.graph.nextNode := by
    rw [hnext, ← hp.nextNode]
    exact htransitions.next
  have hbase : s.lowering.graph.nextNode ≤ s'.lowering.graph.nextNode := by omega
  refine ⟨hbase, hid ▸ hp.opFor, ⟨info, hinputs, houtputs, fun p => ?_⟩, fun id hmem => ?_,
    fun id hmem => ?_, fun id hout hin => ?_⟩
  · rw [HGraph.opFor, hopMap, Table.lookup_insert_eq_ite, hid]
  · rcases hp.input_cases hs (mem_deduplicateNodes.1 hmem) with
      ⟨d, -, hout⟩ | rfl | ⟨-, hlt⟩ | ⟨r, f, kind, -, hf, rfl | ⟨-, hread⟩⟩
    · exact (hs.outputs_lt id _ hout).trans_le hbase
    · exact hs.bundle.1.trans_le hbase
    · exact hlt
    · exact (hs.met r f hf).state_lt.trans_le hbase
    · exact ((hs.met r f hf).reads_lt id hread).trans_le hbase
  · rcases htransitions.outputs_new id (mem_deduplicateNodes.1 hmem) with hown | ⟨hge, hlt⟩
    · simp only [List.mem_cons, List.not_mem_nil, or_false] at hown
      rcases hown with rfl | rfl
      · exact ⟨le_rfl, (Nat.lt_add_of_pos_right two_pos).trans_le hgrow⟩
      · exact ⟨Nat.le_succ _, (Nat.lt_succ_self _).trans_le hgrow⟩
    · have hge' : g.nextNode ≤ id := hge
      rw [hp.nextNode] at hge'
      exact ⟨by omega, hnext ▸ hlt⟩
  · exact hp.disjoint id (mem_deduplicateNodes.1 hout) (mem_deduplicateNodes.1 hin)

/-- The inputs of an operation come from its dependencies and from the frontiers it meets. -/
lemma Performed.fed_iff {a : ℕ} :
    (∃ id ∈ deduplicateNodes ports.inputs, s.lowering.graph.IsOutputOf id a) ↔
      (∃ d ∈ o.dependencies, d.planNode = a) ∨
        ∃ r, a ∈ (frontierAt ops r n).needs (o.effects.access r) := by
  obtain ⟨lowering, htransitions, -, -⟩ := hp.transitions
  constructor
  · rintro ⟨id, hmem, hout⟩
    rcases hp.input_cases hs (mem_deduplicateNodes.1 hmem) with
      ⟨d, hd, hdep⟩ | rfl | ⟨hge, -⟩ | ⟨r, f, kind, haccess, hf, hmet⟩
    · exact .inl ⟨d, hd, hs.owner id _ _ hdep hout⟩
    · exact absurd hout (hs.bundle.2 a)
    · exact absurd (hs.outputs_lt id a hout) (not_lt.2 hge)
    refine .inr ⟨r, ?_⟩
    rw [haccess, (hs.met r f hf).mem_needs]
    rcases hmet with rfl | ⟨hkind, hread⟩
    · exact .inl hout
    · exact .inr ⟨hkind, id, hread, hout⟩
  · rintro (⟨d, hd, rfl⟩ | ⟨r, hneeds⟩)
    · obtain ⟨i, hi⟩ := List.mem_iff_getElem?.1 hd
      obtain ⟨id, hid, hresolved⟩ := forall₂_getElem? hp.resolved hi
      have hin : id ∈ ports.inputs :=
        htransitions.inputs id (List.mem_append_left _ (List.mem_of_getElem? hid))
      rcases hp.dependency hs hresolved with hout | rfl
      · exact ⟨id, mem_deduplicateNodes.2 hin, hout⟩
      · exact absurd hin (hp.disjoint _ hp.completion_mem)
    · rw [EffectSummary.access_eq_ite] at hneeds
      split at hneeds
      · next hr =>
        obtain ⟨f, f', hprior, -, hpasses⟩ := htransitions.used r hr
        rcases hprior with hf | ⟨hnone, -⟩
        · rw [(hs.met r f hf).mem_needs] at hneeds
          rcases hneeds with hout | ⟨hkind, id, hread, hout⟩
          · exact ⟨_, mem_deduplicateNodes.2 hpasses.state, hout⟩
          have hw : r ∈ o.effects.schedulingAccesses.2 := by
            by_contra hw
            rw [EffectSummary.accessKind, if_neg hw] at hkind
            cases hkind
          exact ⟨id, mem_deduplicateNodes.2 ((hpasses.write hw).1 id hread), hout⟩
        · rw [hs.unmet r hnone] at hneeds
          unfold EffectSummary.accessKind at hneeds
          split at hneeds <;> exact absurd hneeds List.not_mem_nil
      · exact absurd hneeds List.not_mem_nil

/-- The frontiers after an operation hold what it produced. -/
lemma Performed.met (hid : o.id = n) {r : ResourceKey} {f' : ResourceFrontier}
    (hf' : s'.lowering.frontiers.lookup r = some f') :
    Meets s'.lowering.graph ((frontierAt ops r n).next n (o.effects.access r)) f' := by
  have hgains := hp.gains hs hid
  obtain ⟨lowering, htransitions, hfrontiers, hnext⟩ := hp.transitions
  rw [hfrontiers] at hf'
  rw [EffectSummary.access_eq_ite]
  split
  · next hr =>
    obtain ⟨f, f'', hprior, hlookup, hpasses⟩ := htransitions.used r hr
    obtain rfl := some_unique hlookup hf'
    -- A new output belongs to this operation alone.
    have hown : ∀ id ∈ ports.outputs, ∀ p, s'.lowering.graph.IsOutputOf id p ↔ n = p := by
      intro id hmem p
      have hmem' := mem_deduplicateNodes.2 hmem
      rw [hgains.isOutputOf]
      constructor
      · rintro (hout | ⟨rfl, -⟩)
        · exact absurd (hs.outputs_lt id p hout) (not_lt.2 (hgains.outputs_ge id hmem').1)
        · rfl
      · rintro rfl
        exact .inr ⟨rfl, hmem'⟩
    unfold EffectSummary.accessKind
    split
    · next hw =>
      obtain ⟨-, hempty, hout, -, hlt⟩ := hpasses.write hw
      refine ⟨fun p => ?_, fun p => ?_, hnext ▸ hlt, fun id hread => ?_⟩
      · rw [hown _ hout]
        simp [Frontier.next]
      · simp [hempty, Frontier.next]
      · rw [hempty] at hread
        exact absurd hread (OrdSet.notMem_empty id)
    rename_i hw
    obtain ⟨hlast, hreads⟩ := hpasses.read hw
    have hcompletion := hp.completion_mem
    have hstate := mem_deduplicateNodes.2 hpasses.state
    -- The frontier that was met is on record, or new and without readers.
    have hmeets : Meets s'.lowering.graph (frontierAt ops r n) f := by
      rcases hprior with hf | ⟨hnone, hempty, hge, -⟩
      · exact hgains.meets (hs.met r f hf)
      rw [hs.unmet r hnone]
      refine ⟨fun p => ?_, fun p => ?_, hgains.inputs_lt _ hstate, fun id hread => ?_⟩
      · rw [hgains.isOutputOf]
        constructor
        · rintro (hout | ⟨-, hout⟩)
          · have hlt := hs.outputs_lt _ p hout
            have hge' : g.nextNode ≤ f.lastWrite.node := hge
            rw [hp.nextNode] at hge'
            exact absurd ((Nat.le_add_right _ 2).trans hge') (not_le.2 hlt)
          · exact absurd hstate (hgains.disjoint _ hout)
        · exact nofun
      · simp [hempty, Frontier.init]
      · rw [hempty] at hread
        exact absurd hread (OrdSet.notMem_empty id)
    refine ⟨fun p => ?_, fun p => ?_, hlast ▸ hmeets.state_lt, fun id hread => ?_⟩
    · rw [hlast, hmeets.writer]
      rfl
    · rw [hreads]
      simp only [OrdSet.mem_insert, or_and_right, exists_or, exists_eq_left, hown _ hcompletion,
        hmeets.readers, Frontier.next, List.mem_cons, eq_comm]
    rw [hreads, OrdSet.mem_insert] at hread
    rcases hread with rfl | hread
    · exact (hgains.outputs_ge _ (mem_deduplicateNodes.2 hcompletion)).2
    · exact hmeets.reads_lt id hread
  · next hr =>
    rw [htransitions.idle r hr] at hf'
    exact hgains.meets (hs.met r f' hf')

lemma Performed.unmet {r : ResourceKey}
    (hnone : s'.lowering.frontiers.lookup r = none) :
    (frontierAt ops r n).next n (o.effects.access r) = .init := by
  obtain ⟨lowering, htransitions, hfrontiers, -⟩ := hp.transitions
  rw [hfrontiers] at hnone
  rw [EffectSummary.access_eq_ite]
  split
  · next hr =>
    obtain ⟨f, f', -, hlookup, -⟩ := htransitions.used r hr
    cases hlookup.symm.trans hnone
  · next hr =>
    rw [htransitions.idle r hr] at hnone
    exact hs.unmet r hnone

end Performed

/-! ## Whole plans -/

section Plans

variable {ops : List ProjectPlanOperation} {bundleValue : NodeId} {n : ℕ} {s s' : Projecting}
  {o : ProjectPlanOperation}

lemma Projected.step (hs : Projected ops bundleValue n s) (ho : ops[n]? = some o)
    (hid : o.id = n) (h : projectOperation bundleValue s o = .ok s') :
    Projected ops bundleValue (n + 1) s' := by
  obtain ⟨g, dependencies, ports, hp⟩ := exists_performed h
  have hgains := hp.gains hs hid
  obtain ⟨info, hinputs, -, hop⟩ := hgains.op
  have hcompletion := mem_deduplicateNodes.2 hp.completion_mem
  have hvalue : s.lowering.graph.nextNode ∈ deduplicateNodes ports.outputs := by
    obtain ⟨lowering, htransitions, -, -⟩ := hp.transitions
    exact mem_deduplicateNodes.2 (htransitions.outputs _ (by simp))
  have hold : ∀ id p, s.lowering.graph.IsOutputOf id p → s'.lowering.graph.IsOutputOf id p :=
    fun id p hout => hgains.isOutputOf.2 (.inl hout)
  refine ⟨⟨hs.bundle.1.trans_le hgains.next, fun p hout => ?_⟩, fun id p hout => ?_,
    fun p info' hinfo' id hmem => ?_, fun id p q hout hout' => ?_, fun p info' hinfo' => ?_,
    fun p id hlookup => ?_, fun p id hlookup => ?_, fun r f hf => ?_, fun r hnone => ?_,
    fun a b => ?_, fun a b hfeeds => ?_⟩
  · rw [hgains.isOutputOf_old hs.bundle.1] at hout
    exact hs.bundle.2 p hout
  · rcases hgains.isOutputOf.1 hout with hout | ⟨-, hout⟩
    · exact (hs.outputs_lt id p hout).trans_le hgains.next
    · exact (hgains.outputs_ge id hout).2
  · rw [hop p] at hinfo'
    split at hinfo'
    · cases hinfo'
      exact hgains.inputs_lt id (hinputs ▸ hmem)
    · exact (hs.inputs_lt p info' hinfo' id hmem).trans_le hgains.next
  · rcases hgains.isOutputOf.1 hout with hout | ⟨rfl, hout⟩ <;>
      rcases hgains.isOutputOf.1 hout' with hout' | ⟨rfl, hout'⟩
    · exact hs.owner id p q hout hout'
    · exact absurd (hs.outputs_lt id p hout) (not_lt.2 (hgains.outputs_ge id hout').1)
    · exact absurd (hs.outputs_lt id q hout') (not_lt.2 (hgains.outputs_ge id hout).1)
    · rfl
  · rw [hop p] at hinfo'
    split at hinfo'
    · next heq => exact heq ▸ Nat.lt_succ_self n
    · exact (hs.present p info' hinfo').trans (Nat.lt_succ_self n)
  · rw [hp.values, Table.lookup_insert_eq_ite, hid] at hlookup
    split at hlookup
    · next heq =>
      cases hlookup
      exact hgains.isOutputOf.2 (.inr ⟨heq, hvalue⟩)
    · exact hold id p (hs.values p id hlookup)
  · rw [HGraph.completionNode, hp.completions, Table.lookup_insert_eq_ite, hid] at hlookup
    split at hlookup
    · next heq =>
      cases hlookup
      exact hgains.isOutputOf.2 (.inr ⟨heq, hcompletion⟩)
    · exact hold id p (hs.completions p id hlookup)
  · rw [frontierAt_succ ho]
    exact hp.met hs hid hf
  · rw [frontierAt_succ ho]
    exact hp.unmet hs hnone
  · by_cases hb : b = n
    · subst hb
      rw [hgains.feeds_self, hp.fed_iff hs]
      simp [Waits, ho]
    · rw [hgains.feeds_of_ne hs.inputs_lt hb, hs.feeds]
      refine and_congr_left fun _ => ⟨fun h => h.trans (Nat.lt_succ_self n), fun h => ?_⟩
      exact lt_of_le_of_ne (Nat.le_of_lt_succ h) hb
  · by_cases hb : b = n
    · subst hb
      obtain ⟨id, -, info', hinfo', -⟩ := hgains.feeds_self.1 hfeeds
      exact hs.present a info' hinfo'
    · exact hs.increasing a b ((hgains.feeds_of_ne hs.inputs_lt hb).1 hfeeds)

lemma projected_of_foldlM (hindexed : Indexed ops) (hs : Projected ops bundleValue 0 s)
    (h : ops.foldlM (projectOperation bundleValue) s = .ok s') :
    Projected ops bundleValue ops.length s' := by
  have hrun := @foldlM_history _ _ _ _ ops [] s s' (fun done s =>
    done <+: ops → Projected ops bundleValue done.length s) h (fun _ => hs) ?_
  · exact hrun List.prefix_rfl
  · intro done o s s' hstep hdone hprefix
    obtain ⟨rest, rfl⟩ := hprefix
    have ho : (done ++ [o] ++ rest)[done.length]? = some o := by simp
    rw [List.length_append, List.length_singleton]
    exact (hdone ⟨[o] ++ rest, by simp⟩).step ho (hindexed _ o ho) hstep

lemma projected_init (ops : List ProjectPlanOperation) (node : HNode) :
    Projected ops 0 0 ⟨⟨(HGraph.empty.addNode node).1, ∅⟩, ∅⟩ := by
  have hno : ∀ p, (HGraph.empty.addNode node).1.opFor p = none := fun p => AList.lookup_empty p
  have hout : ∀ id p, ¬(HGraph.empty.addNode node).1.IsOutputOf id p := by
    rintro id p ⟨info, hinfo, -⟩
    cases (hno p).symm.trans hinfo
  refine ⟨⟨Nat.one_pos, hout 0⟩, fun id p h => absurd h (hout id p), fun p info h => ?_,
    fun id p q h => absurd h (hout id p), fun p info h => ?_, fun p id h => ?_, fun p id h => ?_,
    fun r f h => ?_, fun r _ => rfl, fun a b => ?_, fun a b h => ?_⟩
  · cases (hno p).symm.trans h
  · cases (hno p).symm.trans h
  · cases h
  · cases h
  · cases h
  · constructor
    · rintro ⟨id, h, -⟩
      exact absurd h (hout id a)
    · rintro ⟨h, -⟩
      exact absurd h (Nat.not_lt_zero b)
  · obtain ⟨id, h, -⟩ := h
    exact absurd h (hout id a)

variable {g : HGraph}

variable {g' : HGraph}

lemma opMap_of_pushRoots {values : Table PlanNodeId NodeId} {roots : List PlanNodeId}
    (h : pushRoots values g roots = .ok g') : g'.opMap = g.opMap := by
  refine foldlM_invariant (P := fun g' : HGraph => g'.opMap = g.opMap) h rfl ?_
  intro root _ b b' hstep hb
  obtain ⟨node, -, heq⟩ := bind_eq_ok.1 hstep
  cases heq
  exact hb

lemma feeds_congr (h : g'.opMap = g.opMap) (a b : PlanNodeId) : Feeds g' a b ↔ Feeds g a b := by
  unfold Feeds IsOutputOf HGraph.opFor
  rw [h]

lemma feeds_of_projectUnvalidated {plan : ProjectExecutionPlan}
    (hindexed : Indexed plan.operations) (h : projectUnvalidated plan = .ok g) (a b : ℕ) :
    (Feeds g a b ↔ b < plan.operations.length ∧ Waits plan.operations a b) ∧
      (Feeds g a b → a < b) := by
  simp only [projectUnvalidated, bind_eq_ok] at h
  obtain ⟨s, hrun, hroots⟩ := h
  have hprojected := projected_of_foldlM hindexed (projected_init _ _) hrun
  rw [feeds_congr (opMap_of_pushRoots hroots)]
  exact ⟨hprojected.feeds a b, hprojected.increasing a b⟩

end Plans

/-! ## Dependencies and conflicts -/

def DependsOn (ops : List ProjectPlanOperation) (a b : ℕ) : Prop :=
  ∃ o, ops[b]? = some o ∧ ∃ d ∈ o.dependencies, d.planNode = a

/-- Both lease the resource, and at least one of them leases it for writing. -/
def ConflictAt (s t : EffectSummary) (r : ResourceKey) : Prop :=
  r ∈ s.schedulingAccesses.2 ∧ (r ∈ t.schedulingAccesses.1 ∨ r ∈ t.schedulingAccesses.2) ∨
    (r ∈ s.schedulingAccesses.1 ∨ r ∈ s.schedulingAccesses.2) ∧ r ∈ t.schedulingAccesses.2

/-- The `a`-th operation comes before the `b`-th one, and they conflict at a resource. -/
def ConflictsBefore (ops : List ProjectPlanOperation) (a b : ℕ) : Prop :=
  a < b ∧ ∃ o o', ops[a]? = some o ∧ ops[b]? = some o' ∧ ∃ r, ConflictAt o.effects o'.effects r

lemma conflictAt_iff {s t : EffectSummary} :
    ConflictAt s t r ↔ Access.Conflict (s.access r) (t.access r) := by
  unfold ConflictAt EffectSummary.access
  by_cases hsw : r ∈ s.schedulingAccesses.2 <;> by_cases hsr : r ∈ s.schedulingAccesses.1 <;>
    by_cases htw : r ∈ t.schedulingAccesses.2 <;> by_cases htr : r ∈ t.schedulingAccesses.1 <;>
      simp [hsw, hsr, htw, htr, Access.Conflict]

lemma conflict_accessAt_iff {b : ℕ} :
    Access.Conflict (accessAt ops r a) (accessAt ops r b) ↔
      ∃ o o', ops[a]? = some o ∧ ops[b]? = some o' ∧ ConflictAt o.effects o'.effects r := by
  simp only [conflictAt_iff, accessAt]
  rcases ops[a]? with _ | o <;> rcases ops[b]? with _ | o'
  · simp [Access.Conflict]
  · simp [Access.Conflict]
  · cases h : o.effects.access r <;> simp [Access.Conflict, h]
  · simp

lemma range_eq_append {x : ℕ} {pre suf : List ℕ} (h : List.range n = pre ++ x :: suf) :
    pre = List.range x ∧ x < n := by
  have hlength : n = pre.length + (suf.length + 1) := by
    simpa using congrArg List.length h
  have hx : x = pre.length := by
    have hget := congrArg (fun l => l[pre.length]?) h
    simpa [hlength] using hget.symm
  refine ⟨?_, by omega⟩
  have htake := congrArg (List.take pre.length) h
  rw [List.take_left, List.take_range, min_eq_left (by omega)] at htake
  rw [hx]
  exact htake.symm

lemma reaches_iff (hindexed : Indexed plan.operations) (h : projectUnvalidated plan = .ok g)
    (a b : ℕ) :
    Reaches g a b ↔ Relation.TransGen (fun a b => DependsOn plan.operations a b ∨
      ConflictsBefore plan.operations a b) a b := by
  have hfeeds : ∀ a b, Feeds g a b ↔ b < plan.operations.length ∧ Waits plan.operations a b :=
    fun a b => (feeds_of_projectUnvalidated hindexed h a b).1
  have hwaits : ∀ a b, Waits plan.operations a b →
      DependsOn plan.operations a b ∨ ConflictsBefore plan.operations a b := by
    rintro a b ⟨o, ho, hdep | ⟨r, hneeds⟩⟩
    · exact .inl ⟨o, ho, hdep⟩
    · obtain ⟨hmem, hconflict⟩ := Frontier.conflict_of_mem_needs hneeds
      have haccess : o.effects.access r = accessAt plan.operations r b := by
        rw [accessAt, ho]
        rfl
      rw [haccess, conflict_accessAt_iff] at hconflict
      obtain ⟨o₁, o₂, ho₁, ho₂, hat⟩ := hconflict
      exact .inr ⟨List.mem_range.1 hmem, o₁, o₂, ho₁, ho₂, r, hat⟩
  have hincreasing : ∀ a b, Feeds g a b → a < b :=
    fun a b => (feeds_of_projectUnvalidated hindexed h a b).2
  have hlt : ∀ a b, Relation.TransGen (fun b a => Feeds g a b) b a → a < b := by
    intro a b hab
    induction hab with
    | single hab => exact hincreasing _ _ hab
    | tail _ hbc ih => exact (hincreasing _ _ hbc).trans ih
  constructor
  · intro hab
    exact Relation.TransGen.mono (fun a b hab => hwaits a b ((hfeeds a b).1 hab).2) a b hab
  · intro hab
    refine Relation.TransGen.closed (fun a b hab => ?_) a b hab
    rcases hab with ⟨o, ho, hdep⟩ | ⟨hab, o, o', ho, ho', r, hat⟩
    · refine .single ((hfeeds a b).2 ⟨?_, o, ho, .inl hdep⟩)
      exact (List.getElem?_eq_some_iff.1 ho).1
    have hb : b < plan.operations.length := (List.getElem?_eq_some_iff.1 ho').1
    -- Every operation waits for the frontier, so conflicting operations are ordered.
    have hobeys : Frontier.Obeys (accessAt plan.operations r) (fun b a => Feeds g a b)
        (List.range plan.operations.length) := by
      intro pre x suf hsplit y hy
      obtain ⟨rfl, hx⟩ := range_eq_append hsplit
      obtain ⟨o, ho⟩ : ∃ o, plan.operations[x]? = some o :=
        ⟨_, List.getElem?_eq_getElem hx⟩
      refine (hfeeds y x).2 ⟨hx, o, ho, .inr ⟨r, ?_⟩⟩
      rw [accessAt, ho] at hy
      exact hy
    have hconflict := conflict_accessAt_iff.2 ⟨o, o', ho, ho', hat⟩
    rcases hobeys.comparable (List.mem_range.2 (hab.trans hb)) (List.mem_range.2 hb) hab.ne
      hconflict with hba | hba
    · exact absurd (hlt b a hba) (not_lt.2 hab.le)
    · exact Relation.transGen_swap.1 hba

lemma projectUnvalidated_of_toHgraph {checks : Checks} (h : toHgraph checks plan = .ok g) :
    projectUnvalidated plan = .ok g := by
  simp only [toHgraph, bind_eq_ok] at h
  obtain ⟨⟨⟩, -, graph, hgraph, ⟨⟩, -, ⟨⟩, -, heq⟩ := h
  cases heq
  exact hgraph

/-- Every branch holds what its alternative requires, each route prepared and run once and after its
prerequisites, and operations reach each other in the graph exactly along dependencies and
conflicts. -/
theorem planned_and_ordered (checks : Checks) (bundle : ProjectBundle) (target : Option String)
    (policyOverride : Option RoutePolicy) (contract : ProjectSchedulingContract)
    (plan : ProjectExecutionPlan)
    (h : fromBundleWithScheduling checks bundle target policyOverride contract = .ok plan) :
    (∀ k alternative, plan.alternatives[k]? = some alternative →
      ClosedBranch bundle plan.operations k alternative) ∧
    ∀ g, toHgraph checks plan = .ok g → ∀ a b, Reaches g a b ↔
      Relation.TransGen (fun a b => DependsOn plan.operations a b ∨
        ConflictsBefore plan.operations a b) a b := by
  obtain ⟨hindexed, hclosed⟩ := closedBranch_of_fromBundle h
  refine ⟨hclosed, fun g hg a b => ?_⟩
  exact reaches_iff hindexed (projectUnvalidated_of_toHgraph hg) a b

def sampleRoute (id : String) (prerequisites : List String) : RouteSpec :=
  ⟨id, ".", .shellTask, ["make", id], [], [], .cliOverride, prerequisites, [], [], [], [],
    .unproven, [], 0, false⟩

def sampleBundle : ProjectBundle :=
  ⟨"sample", [sampleRoute "lib" [], sampleRoute "app" ["lib"], sampleRoute "tool" ["lib"]],
    [⟨"either", ["app", "tool"], .fallback⟩], none⟩

def sampleChecks : Checks := ⟨fun _ => true, fun _ => .ok "", fun _ => .ok (), fun _ _ => .ok ()⟩

def samplePlan : ProjectExecutionPlan :=
  match fromBundleWithScheduling sampleChecks sampleBundle (some "either") none
    .serialHostWorldV1 with
  | .ok plan => plan
  | .error _ => ⟨.serialHostWorldV1, "", "", "", [], .default, [], []⟩

theorem planned_and_ordered_sample :
    (∃! i, Holds samplePlan.operations i 1 (.runRoute "lib")) ∧
    ∃ g, toHgraph sampleChecks samplePlan = .ok g ∧ Reaches g 4 5 := by
  have hplan : fromBundleWithScheduling sampleChecks sampleBundle (some "either") none
      .serialHostWorldV1 = .ok samplePlan := by
    rfl
  obtain ⟨hbranches, hreach⟩ := planned_and_ordered sampleChecks sampleBundle (some "either")
    none .serialHostWorldV1 samplePlan hplan
  have hrequires : Requires sampleBundle "tool" "lib" :=
    .single ⟨sampleRoute "tool" ["lib"], by rfl, by simp [sampleRoute]⟩
  refine ⟨(hbranches 1 "tool" (by rfl)).run "lib" hrequires, ?_⟩
  rcases hgraph : toHgraph sampleChecks samplePlan with error | g
  · have hok : (toHgraph sampleChecks samplePlan).toOption.isSome = true := by
      decide +kernel
    rw [hgraph] at hok
    cases hok
  refine ⟨g, rfl, (hreach g hgraph 4 5).2 (.single (.inr ⟨by decide, ?_⟩))⟩
  -- The first alternative and the second workspace both write the host world.
  refine ⟨_, _, rfl, rfl, .hostWorld, ?_⟩
  unfold ConflictAt
  decide +kernel

end Ostadix.Project
