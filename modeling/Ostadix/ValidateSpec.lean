import Ostadix.Validate

/-! What each stage of validation accepts, in declarative form. -/

namespace Ostadix

open Table List

namespace HGraph

variable {g : HGraph}

/-! ## Outputs -/

def ProducedBy (g : HGraph) (edge : EdgeId) (id : NodeId) : Prop :=
  ∃ node, g.node id = some node ∧ node.producer = some edge ∧ node.state = .unresolved

variable {edge : EdgeId} {u : Unit} {op : PlanNodeId} {produced produced' : Table NodeId EdgeId}
  {id : NodeId} {info : ExecInfo} {state : ShapeState}

lemma checkSingleProducer_eq_ok {output : NodeId} {previous : Option EdgeId} :
    checkSingleProducer output edge previous = .ok u ↔
      ∀ e, previous = some e → e = edge := by
  cases previous <;> simp [checkSingleProducer]

lemma checkOutput_eq_ok : g.checkOutput op edge produced id = .ok produced' ↔
      g.ProducedBy edge id ∧ (∀ e, produced.lookup id = some e → e = edge) ∧
        produced' = produced.insert id edge := by
  unfold checkOutput ProducedBy
  split
  · next hnone => simp [hnone]
  rename_i node hnode
  simp only [bind_eq_ok, ensure_eq_ok, checkSingleProducer_eq_ok, hnode, Option.some.injEq,
    exists_eq_left']
  constructor
  · rintro ⟨⟨⟩, hproducer, ⟨⟩, hstate, ⟨⟩, hsingle, hinsert⟩
    cases hinsert
    exact ⟨⟨hproducer, hstate⟩, hsingle, rfl⟩
  · rintro ⟨⟨hproducer, hstate⟩, hsingle, rfl⟩
    exact ⟨(), hproducer, (), hstate, (), hsingle, rfl⟩

def Recorded (g : HGraph) (produced : Table NodeId EdgeId) : Prop :=
  ∀ id edge, produced.lookup id = some edge → g.ProducedBy edge id

lemma Recorded.insert {produced : Table NodeId EdgeId} (h : g.Recorded produced) {id : NodeId}
    {edge : EdgeId} (hid : g.ProducedBy edge id) : g.Recorded (produced.insert id edge) := by
  intro id' edge' hlookup
  rw [lookup_insert_eq_ite] at hlookup
  split at hlookup
  · next heq =>
    cases hlookup
    exact heq ▸ hid
  · exact h id' edge' hlookup

lemma Recorded.single (h : g.Recorded produced) (hid : g.ProducedBy edge id) :
    ∀ e, produced.lookup id = some e → e = edge := by
  intro e he
  obtain ⟨node, hnode, hproducer, -⟩ := h id e he
  obtain ⟨node', hnode', hproducer', -⟩ := hid
  cases hnode.symm.trans hnode'
  exact some_unique hproducer hproducer'

lemma foldlM_checkOutput_sound {outputs : List NodeId} (hrec : g.Recorded produced)
    (h : outputs.foldlM (g.checkOutput op edge) produced = .ok produced') :
    (∀ id ∈ outputs, g.ProducedBy edge id) ∧ g.Recorded produced' := by
  induction outputs generalizing produced with
  | nil =>
    cases h
    exact ⟨by simp, hrec⟩
  | cons id outputs ih =>
    rw [foldlM_cons, bind_eq_ok] at h
    obtain ⟨next, hstep, hrest⟩ := h
    obtain ⟨hid, -, rfl⟩ := checkOutput_eq_ok.1 hstep
    obtain ⟨houtputs, hrec'⟩ := ih (hrec.insert hid) hrest
    exact ⟨forall_mem_cons.2 ⟨hid, houtputs⟩, hrec'⟩

lemma foldlM_checkOutput_complete (op : PlanNodeId) {outputs : List NodeId}
    (hrec : g.Recorded produced) (h : ∀ id ∈ outputs, g.ProducedBy edge id) :
    ∃ produced', outputs.foldlM (g.checkOutput op edge) produced = .ok produced' := by
  induction outputs generalizing produced with
  | nil => exact ⟨produced, rfl⟩
  | cons id outputs ih =>
    obtain ⟨hid, houtputs⟩ := forall_mem_cons.1 h
    obtain ⟨produced', hrest⟩ := ih (hrec.insert hid) houtputs
    refine ⟨produced', ?_⟩
    rw [foldlM_cons, bind_eq_ok]
    exact ⟨_, checkOutput_eq_ok.2 ⟨hid, hrec.single hid, rfl⟩, hrest⟩

/-! ## Operations -/

/-- What the shape check requires of one operation. -/
structure Shaped (g : HGraph) (op : PlanNodeId) (info : ExecInfo) (edge : HEdge) : Prop where
  planNode : info.planNode = op
  isExecute : edge.isExecute
  inputs_nodup : info.inputs.Nodup
  outputs_nodup : info.outputs.Nodup
  disjoint : ∀ id ∈ info.inputs, id ∉ info.outputs
  input_ports : edge.portsWith .input = info.inputs
  output_ports : edge.portsWith .output = info.outputs
  inputs : ∀ id ∈ info.inputs, ∃ node, g.node id = some node ∧
    (node.state = .materialized ∨ node.producer.isSome) ∧ info.edge ∈ node.consumers
  value_mem : info.valueOutput ∈ info.outputs
  value_only : info.outputs.filter g.isValueNode = [info.valueOutput]
  completion : ∃ c, g.completionsAmong op info.outputs = [c] ∧ g.completionNode op = some c
  outputs : ∀ id ∈ info.outputs, g.ProducedBy info.edge id
  summary : g.checkSummary op info edge.op = .ok ()

lemma checkDisjoint_eq_ok :
    checkDisjoint op info = .ok u ↔ ∀ id ∈ info.inputs, id ∉ info.outputs := by
  unfold checkDisjoint
  split
  · next overlap hfind =>
    have hmem := mem_of_find?_eq_some hfind
    have hout := find?_some hfind
    simp only [decide_eq_true_eq] at hout
    simp only [reduceCtorEq, false_iff, not_forall, not_not]
    exact ⟨overlap, hmem, hout⟩
  · next hfind => simpa using hfind

lemma checkInput_eq_ok :
    g.checkInput op edge id = .ok u ↔ ∃ node, g.node id = some node ∧
      (node.state = .materialized ∨ node.producer.isSome) ∧ edge ∈ node.consumers := by
  unfold checkInput
  split
  · next hnone => simp [hnone]
  · next node hnode => simp [hnode, bind_eq_ok]

lemma checkCompletionOutput_eq_ok :
    g.checkCompletionOutput op info = .ok u ↔
      ∃ c, g.completionsAmong op info.outputs = [c] ∧ g.completionNode op = some c := by
  unfold checkCompletionOutput
  split
  · next c hc => simp [hc]
  rename_i hne
  simp only [reduceCtorEq, false_iff, not_exists, not_and]
  intro c hc
  exact absurd hc (hne c)

lemma checkOperation_sound {state' : ShapeState} (hrec : g.Recorded state.produced)
    (h : g.checkOperation state op info = .ok state') :
    (∃ edge, g.execEdges.lookup info.edge = some edge ∧ g.Shaped op info edge) ∧
      info.edge ∉ state.mapped ∧ g.Recorded state'.produced ∧
        state'.mapped = info.edge :: state.mapped := by
  simp only [checkOperation, bind_eq_ok, ensure_eq_ok] at h
  obtain ⟨⟨⟩, hkey, h⟩ := h
  split at h
  · cases h
  rename_i edge hedge
  simp only [checkShape, checkPorts, checkValueOutput, bind_eq_ok, ensure_eq_ok, forM_eq_ok,
    checkDisjoint_eq_ok, checkInput_eq_ok, checkCompletionOutput_eq_ok] at h
  obtain ⟨⟨⟩, hnew, ⟨⟩, hexec, ⟨⟩, ⟨⟨⟩, ⟨hin, hout⟩, ⟨⟩, hdisjoint, hports⟩, ⟨⟩, hinputs, ⟨⟩,
    ⟨⟨⟩, hmem, honly⟩, ⟨⟩, hcompletion, produced, hfold, ⟨⟩, hsummary, hstate⟩ := h
  cases hstate
  obtain ⟨houtputs, hrec'⟩ := foldlM_checkOutput_sound hrec hfold
  refine ⟨⟨edge, hedge, ?_⟩, hnew, hrec', rfl⟩
  exact ⟨hkey, hexec, hin, hout, hdisjoint, hports.1, hports.2, hinputs, hmem, honly,
    hcompletion, houtputs, hsummary⟩

lemma checkOperation_complete {edge : HEdge} (hrec : g.Recorded state.produced)
    (hedge : g.execEdges.lookup info.edge = some edge) (h : g.Shaped op info edge)
    (hnew : info.edge ∉ state.mapped) : ∃ state', g.checkOperation state op info = .ok state' := by
  obtain ⟨produced, hfold⟩ := foldlM_checkOutput_complete op hrec h.outputs
  refine ⟨⟨produced, info.edge :: state.mapped⟩, ?_⟩
  simp only [checkOperation, bind_eq_ok, ensure_eq_ok, hedge, checkShape, checkPorts,
    checkValueOutput, forM_eq_ok, checkDisjoint_eq_ok, checkInput_eq_ok,
    checkCompletionOutput_eq_ok]
  exact ⟨(), h.planNode, (), hnew, (), h.isExecute, (),
    ⟨(), ⟨h.inputs_nodup, h.outputs_nodup⟩, (), h.disjoint, h.input_ports, h.output_ports⟩, (),
    h.inputs, (), ⟨(), h.value_mem, h.value_only⟩, (), h.completion, produced, hfold, (), h.summary,
    rfl⟩

abbrev OpEntry := Sigma fun _ : PlanNodeId => ExecInfo

lemma foldlM_checkOperation_sound {l : List OpEntry} {state' : ShapeState}
    (hrec : g.Recorded state.produced)
    (h : l.foldlM (fun state e => g.checkOperation state e.1 e.2) state = .ok state') :
    (∀ e ∈ l, ∃ edge, g.execEdges.lookup e.2.edge = some edge ∧ g.Shaped e.1 e.2 edge) ∧
      (l.map (fun e => e.2.edge)).Nodup ∧ (∀ e ∈ l, e.2.edge ∉ state.mapped) ∧
        ∀ x, x ∈ state'.mapped ↔ x ∈ state.mapped ∨ ∃ e ∈ l, e.2.edge = x := by
  induction l generalizing state with
  | nil =>
    cases h
    simp
  | cons e l ih =>
    rw [foldlM_cons, bind_eq_ok] at h
    obtain ⟨next, hstep, hrest⟩ := h
    obtain ⟨hshaped, hnew, hrec', hmapped⟩ := checkOperation_sound hrec hstep
    obtain ⟨hl, hnodup, hfresh, hmem⟩ := ih hrec' hrest
    rw [hmapped] at hfresh hmem
    refine ⟨forall_mem_cons.2 ⟨hshaped, hl⟩, ?_, ?_, fun x => ?_⟩
    · refine nodup_cons.2 ⟨?_, hnodup⟩
      intro hrepeat
      obtain ⟨e', he', heq⟩ := mem_map.1 hrepeat
      exact hfresh e' he' (heq ▸ mem_cons_self)
    · exact forall_mem_cons.2 ⟨hnew, fun e' he' hold =>
        hfresh e' he' (mem_cons_of_mem _ hold)⟩
    rw [hmem, mem_cons]
    simp only [mem_cons, exists_eq_or_imp]
    constructor
    · rintro ((rfl | hold) | hlater)
      · exact .inr (.inl rfl)
      · exact .inl hold
      · exact .inr (.inr hlater)
    · rintro (hold | rfl | hlater)
      · exact .inl (.inr hold)
      · exact .inl (.inl rfl)
      · exact .inr hlater

lemma foldlM_checkOperation_complete {l : List OpEntry} (hrec : g.Recorded state.produced)
    (hl : ∀ e ∈ l, ∃ edge, g.execEdges.lookup e.2.edge = some edge ∧ g.Shaped e.1 e.2 edge)
    (hnodup : (l.map (fun e => e.2.edge)).Nodup) (hfresh : ∀ e ∈ l, e.2.edge ∉ state.mapped) :
    ∃ state', l.foldlM (fun state e => g.checkOperation state e.1 e.2) state = .ok state' := by
  induction l generalizing state with
  | nil => exact ⟨state, rfl⟩
  | cons e l ih =>
    obtain ⟨⟨edge, hedge, hshaped⟩, hl⟩ := forall_mem_cons.1 hl
    obtain ⟨hnew, hfresh⟩ := forall_mem_cons.1 hfresh
    obtain ⟨hrepeat, hnodup⟩ := nodup_cons.1 hnodup
    obtain ⟨next, hstep⟩ := checkOperation_complete hrec hedge hshaped hnew
    obtain ⟨-, -, hrec', hmapped⟩ := checkOperation_sound hrec hstep
    obtain ⟨state', hrest⟩ := ih hrec' hl hnodup fun e' he' hold => by
      rw [hmapped] at hold
      rcases mem_cons.1 hold with heq | hold
      · exact hrepeat (mem_map.2 ⟨e', he', heq⟩)
      · exact hfresh e' he' hold
    refine ⟨state', ?_⟩
    rw [foldlM_cons, bind_eq_ok]
    exact ⟨next, hstep, hrest⟩

/-- The operations have the right shape, and edges, completions and summaries belong to them. -/
structure OperationsShaped (g : HGraph) : Prop where
  shaped : ∀ op info, g.opFor op = some info →
    ∃ edge, g.execEdges.lookup info.edge = some edge ∧ g.Shaped op info edge
  edge_inj : ∀ op op' info info', g.opFor op = some info → g.opFor op' = some info' →
    info.edge = info'.edge → op = op'
  mapped : ∀ e edge, g.execEdges.lookup e = some edge → ∃ op info, g.opFor op = some info ∧
    info.edge = e
  completions : ∀ op c, g.completionNode op = some c → op ∈ g.opMap
  summaries : ∀ op s, g.effectSummaries.lookup op = some s → op ∈ g.opMap

lemma recorded_empty : g.Recorded ∅ := fun id edge h => by simp at h

lemma nodup_map_edge_iff : (g.opMap.entries.map (fun e => e.2.edge)).Nodup ↔
    ∀ op op' info info', g.opFor op = some info → g.opFor op' = some info' →
      info.edge = info'.edge → op = op' := by
  have hnodup : g.opMap.entries.Nodup := g.opMap.nodupKeys.nodup
  constructor
  · intro h op op' info info' hop hop' hedge
    have hinj := inj_on_of_nodup_map h
    exact congrArg Sigma.fst (hinj (mem_entries.2 hop) (mem_entries.2 hop') hedge)
  · intro h
    refine hnodup.map_on ?_
    rintro ⟨op, info⟩ he ⟨op', info'⟩ he' hedge
    have hop := mem_entries.1 he
    have hop' := mem_entries.1 he'
    obtain rfl := h op op' info info' hop hop' hedge
    cases hop.symm.trans hop'
    rfl

lemma validateOperationShapes_eq_ok : g.validateOperationShapes = .ok u ↔ g.OperationsShaped := by
  simp only [validateOperationShapes, bind_eq_ok, forM_keys_eq_ok, forM_entries_eq_ok]
  simp only [checkCompletionKey, ensure_eq_ok]
  constructor
  · rintro ⟨state, hfold, ⟨⟩, hmapped, ⟨⟩, hcompletions, hsummaries⟩
    obtain ⟨hl, hnodup, -, hmem⟩ := foldlM_checkOperation_sound recorded_empty hfold
    refine ⟨fun op info hop => hl ⟨op, info⟩ (mem_entries.2 hop), nodup_map_edge_iff.1 hnodup,
      fun e edge hedge => ?_, hcompletions, hsummaries⟩
    obtain ⟨⟨op, info⟩, hop, heq⟩ := ((hmem e).1 (hmapped e edge hedge)).resolve_left (by simp)
    exact ⟨op, info, mem_entries.1 hop, heq⟩
  · intro h
    have hl : ∀ e ∈ g.opMap.entries, ∃ edge, g.execEdges.lookup e.2.edge = some edge ∧
        g.Shaped e.1 e.2 edge := fun e he => h.shaped e.1 e.2 (mem_entries.1 he)
    have hnodup := nodup_map_edge_iff.2 h.edge_inj
    have hnone : ∀ e ∈ g.opMap.entries, e.2.edge ∉ (⟨∅, []⟩ : ShapeState).mapped := by simp
    obtain ⟨state, hfold⟩ := foldlM_checkOperation_complete recorded_empty hl hnodup hnone
    obtain ⟨-, -, -, hmem⟩ := foldlM_checkOperation_sound recorded_empty hfold
    refine ⟨state, hfold, (), fun e edge hedge => ?_, (), h.completions, h.summaries⟩
    obtain ⟨op, info, hop, heq⟩ := h.mapped e edge hedge
    exact (hmem e).2 (.inr ⟨⟨op, info⟩, mem_entries.2 hop, heq⟩)

/-! ## Producers -/

lemma OperationsShaped.infoOfEdge (h : g.OperationsShaped) (hop : g.opFor op = some info) :
    g.infoOfEdge info.edge = some info := by
  have hsome : (g.opMap.entries.find? (fun e => e.2.edge = info.edge)).isSome :=
    find?_isSome.2 ⟨⟨op, info⟩, mem_entries.2 hop, by simp⟩
  obtain ⟨⟨op', info'⟩, hfind⟩ := Option.isSome_iff_exists.1 hsome
  have hop' := mem_entries.1 (mem_of_find?_eq_some hfind)
  have hedge : info'.edge = info.edge := by simpa using find?_some hfind
  obtain rfl := h.edge_inj op' op info' info hop' hop hedge
  cases hop.symm.trans hop'
  simp [HGraph.infoOfEdge, hfind]

lemma OperationsShaped.planNode (h : g.OperationsShaped) (hop : g.opFor op = some info) :
    info.planNode = op := by
  obtain ⟨edge, -, hshaped⟩ := h.shaped op info hop
  exact hshaped.planNode

lemma OperationsShaped.producerOf (h : g.OperationsShaped) (hop : g.opFor op = some info)
    (hid : id ∈ info.outputs) :
    g.producerOf id = some op := by
  obtain ⟨edge, -, hshaped⟩ := h.shaped op info hop
  obtain ⟨node, hnode, hproducer, -⟩ := hshaped.outputs id hid
  simp [HGraph.producerOf, hnode, hproducer, h.infoOfEdge hop, hshaped.planNode]

/-- `Depends a b`: operation `a` consumes something that operation `b` produces. -/
def Depends (g : HGraph) (a b : PlanNodeId) : Prop :=
  ∃ info, g.opFor a = some info ∧ b ∈ g.dependencies info

lemma OperationsShaped.depends (h : g.OperationsShaped) {a b : PlanNodeId} {info' : ExecInfo}
    (ha : g.opFor a = some info) (hb : g.opFor b = some info') (hin : id ∈ info.inputs)
    (hout : id ∈ info'.outputs) : g.Depends a b := by
  refine ⟨info, ha, ?_⟩
  rw [dependencies, OrdSet.mem_ofList, mem_filterMap]
  exact ⟨id, hin, h.producerOf hb hout⟩

/-! ## Acyclicity -/

lemma mem_dependencyEdges {a b : PlanNodeId} (hshaped : g.OperationsShaped) :
    (b, a) ∈ g.dependencyEdges ↔ g.Depends a b := by
  simp only [dependencyEdges, mem_flatMap, mem_map, Prod.mk.injEq]
  constructor
  · rintro ⟨⟨op, info⟩, he, b', hb, rfl, ha⟩
    have hop := mem_entries.1 he
    rw [hshaped.planNode hop] at ha
    exact ⟨info, ha ▸ hop, hb⟩
  · rintro ⟨info, hop, hb⟩
    exact ⟨⟨a, info⟩, mem_entries.2 hop, b, hb, rfl, hshaped.planNode hop⟩

lemma validateExecutableAcyclicity_sound (hshaped : g.OperationsShaped)
    (h : g.validateExecutableAcyclicity = .ok u) :
    ∃ rank : PlanNodeId → ℕ, ∀ a b, g.Depends a b → rank b < rank a := by
  simp only [validateExecutableAcyclicity, bind_eq_ok, ensure_eq_ok] at h
  obtain ⟨⟨⟩, -, hlen⟩ := h
  have htarget : ∀ e ∈ g.dependencyEdges, e.2 ∈ g.opMap.keys := by
    rintro ⟨b, a⟩ he
    obtain ⟨info, hop, -⟩ := (mem_dependencyEdges hshaped).1 he
    exact mem_iff.2 ⟨info, hop⟩
  obtain ⟨rank, hrank⟩ := Kahn.exists_rank htarget hlen
  exact ⟨rank, fun a b hab => hrank (b, a) ((mem_dependencyEdges hshaped).2 hab)⟩

end HGraph

end Ostadix
