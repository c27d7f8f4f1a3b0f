import Ostadix.Lowering
import Ostadix.ValidateSpec

/-! Soundness of validation: an accepted graph is acyclic, implements its plan, orders conflicts. -/

namespace Ostadix

open List Table OrdSet

variable {node : PlanNode}

namespace ExecutionPlan

variable {plan : ExecutionPlan}

variable {count : ℕ} {u : Unit}

lemma mem_topologicalOrder {order : List PlanNodeId} (hvalid : plan.validate count = .ok u)
    (h : plan.topologicalOrder = .ok order) {id : PlanNodeId} (hid : id < plan.nodes.length) :
    id ∈ order := by
  obtain ⟨-, -, -, -, hedges, -, -⟩ := validate_eq_ok.1 hvalid
  rw [topologicalOrder] at h
  split at h
  · next hlen =>
    cases h
    refine Kahn.mem_order_of_length ?_ (by simpa using hlen) id (mem_range.2 hid)
    intro e he
    obtain ⟨edge, hedge, rfl⟩ := mem_map.1 he
    exact mem_range.2 (hedges edge hedge).2
  · cases h

lemma kindAt_of_mem (hvalid : plan.validate count = .ok u) (hnode : node ∈ plan.nodes) :
    node.id < plan.nodes.length ∧ plan.kindAt node.id = some node.kind := by
  obtain ⟨-, hids, -⟩ := validate_eq_ok.1 hvalid
  obtain ⟨i, hi⟩ := mem_iff_getElem?.1 hnode
  have hid : node.id = i := hids (node, i) (mem_zipIdx_iff_getElem?.2 hi)
  rw [hid, kindAt, hi]
  exact ⟨(List.getElem?_eq_some_iff.1 hi).1, rfl⟩

lemma exists_node (hvalid : plan.validate count = .ok u) {id : PlanNodeId}
    (hid : id < plan.nodes.length) : ∃ node ∈ plan.nodes, node.id = id := by
  obtain ⟨-, hids, -⟩ := validate_eq_ok.1 hvalid
  have hget := getElem?_eq_getElem hid
  exact ⟨_, getElem_mem hid, hids (_, id) (mem_zipIdx_iff_getElem?.2 hget)⟩

end ExecutionPlan

namespace EffectSummary

/-- The use that is made of a resource that is accessed at all. -/
def accessKind (writes : OrdSet ResourceKey) (resource : ResourceKey) : Access :=
  if resource ∈ writes then .write else .read

lemma access_eq_ite (summary : EffectSummary) (resource : ResourceKey) :
    summary.access resource =
      if resource ∈ (summary.schedulingAccesses.1 ∪ summary.schedulingAccesses.2).toList then
        some (accessKind summary.schedulingAccesses.2 resource) else none := by
  unfold access accessKind
  by_cases hw : resource ∈ summary.schedulingAccesses.2 <;>
    by_cases hr : resource ∈ summary.schedulingAccesses.1 <;> simp [hw, hr]

end EffectSummary

open EffectSummary (accessKind)

namespace HGraph

variable {g : HGraph} {plan : ExecutionPlan}

/-! ## Values -/

lemma valueEntry_eq_ok {e : Sigma fun _ : NodeId => HNode} {r : Option (PlanNodeId × NodeId)} :
    valueEntry plan e = .ok r ↔
      (e.2.isValue = false ∧ r = none) ∨ (e.2.isValue = true ∧
        ∃ p, e.2.planNode = some p ∧ p < plan.nodes.length ∧ r = some (p, e.1)) := by
  unfold valueEntry
  split
  · next hvalue =>
    rw [hvalue]
    split
    · next hnone => simp [hnone]
    rename_i p hp
    simp only [bind_eq_ok, ensure_eq_ok, hp, Option.some.injEq, exists_eq_left', reduceCtorEq,
      false_and, true_and, false_or]
    constructor
    · rintro ⟨⟨⟩, hlt, hr⟩
      cases hr
      exact ⟨hlt, rfl⟩
    · rintro ⟨hlt, rfl⟩
      exact ⟨(), hlt, rfl⟩
  · next hvalue =>
    rw [Bool.not_eq_true] at hvalue
    simp [hvalue, eq_comm]

def IsValueOf (g : HGraph) (id : NodeId) (p : PlanNodeId) : Prop :=
  ∃ node, g.node id = some node ∧ node.isValue = true ∧ node.planNode = some p

/-- The table holds exactly the value nodes of plan nodes, and there are no others. -/
structure ValuesOf (g : HGraph) (plan : ExecutionPlan) (values : Table PlanNodeId NodeId) :
    Prop where
  lookup : ∀ p id, values.lookup p = some id ↔ g.IsValueOf id p
  bound : ∀ p id, g.IsValueOf id p → p < plan.nodes.length
  total : ∀ id, g.isValueNode id → ∃ p, g.IsValueOf id p

variable {id : NodeId} {values : Table PlanNodeId NodeId} {info : ExecInfo} {u : Unit}
  {p : PlanNodeId} {initial : Table ResourceKey NodeId} {resource : ResourceKey}
  {frontier : ExpectedFrontier} {f : Frontier PlanNodeId} {writes : OrdSet ResourceKey}
  {frontiers frontiers' : Table ResourceKey ExpectedFrontier}

lemma isValueNode_iff :
    g.isValueNode id = true ↔ ∃ node, g.node id = some node ∧ node.isValue = true := by
  simp only [isValueNode, kindOf, decide_eq_true_eq, Option.map_eq_some_iff, HNode.isValue]

lemma valuesOf_of_valueForPlan (h : g.valueForPlan plan = .ok values) : g.ValuesOf plan values := by
  simp only [valueForPlan, bind_eq_ok, ensure_eq_ok] at h
  obtain ⟨values', hcollect, -, -, heq⟩ := h
  cases heq
  obtain ⟨hreads, -⟩ := (exists_collect_iff.1 ⟨_, hcollect⟩)
  have hentry : ∀ id node, g.node id = some node → node.isValue = true →
      ∃ p, node.planNode = some p ∧ p < plan.nodes.length := by
    intro id node hnode hvalue
    obtain ⟨r, hr⟩ := hreads.reads ⟨id, node⟩ (mem_entries.2 hnode)
    rcases valueEntry_eq_ok.1 hr with ⟨hno, -⟩ | ⟨-, p, hp, hlt, -⟩
    · exact absurd (hno.symm.trans hvalue) (by simp)
    · exact ⟨p, hp, hlt⟩
  refine ⟨fun p id => ?_, ?_, fun id hid => ?_⟩
  · rw [lookup_of_collect hcollect]
    constructor
    · rintro (hempty | ⟨⟨id', node⟩, hmem, hr⟩)
      · simp at hempty
      · rcases valueEntry_eq_ok.1 hr with ⟨-, hnone⟩ | ⟨hvalue, p', hp', -, hsome⟩
        · cases hnone
        · cases hsome
          exact ⟨node, mem_entries.1 hmem, hvalue, hp'⟩
    · rintro ⟨node, hnode, hvalue, hp⟩
      obtain ⟨p', hp', hlt⟩ := hentry id node hnode hvalue
      refine .inr ⟨⟨id, node⟩, mem_entries.2 hnode, valueEntry_eq_ok.2
        (.inr ⟨hvalue, p, hp, ?_, rfl⟩)⟩
      cases hp.symm.trans hp'
      exact hlt
  · rintro p id ⟨node, hnode, hvalue, hp⟩
    obtain ⟨p', hp', hlt⟩ := hentry id node hnode hvalue
    cases hp.symm.trans hp'
    exact hlt
  · obtain ⟨node, hnode, hvalue⟩ := isValueNode_iff.1 hid
    obtain ⟨p, hp, -⟩ := hentry id node hnode hvalue
    exact ⟨p, node, hnode, hvalue, hp⟩

/-! ## Operations of the source plan -/

lemma checkSemantics_eq_ok {op : ExecutableOp} : g.checkSemantics node info op = .ok u ↔
      ∃ edge, g.execEdges.lookup info.edge = some edge ∧ edge.op = .execute op := by
  unfold checkSemantics
  split
  · next hnone => simp [hnone]
  · next edge hedge => simp [hedge]

lemma checkLiteral_eq_ok {value : NodeId} :
    g.checkLiteral p value = .ok u ↔ (∃ node, g.node value = some node ∧
      node.state = .materialized ∧ node.producer = none) ∧ p ∉ g.opMap := by
  rw [checkLiteral, ensure_eq_ok]
  cases g.node value <;> simp

/-- What agreement with the source requires of an executable operation. -/
structure SourceOperation (g : HGraph) (plan : ExecutionPlan) (values : Table PlanNodeId NodeId)
    (node : PlanNode) (op : ExecutableOp) (info : ExecInfo) : Prop where
  value : values.lookup node.id = some info.valueOutput
  semantics : ∃ edge, g.execEdges.lookup info.edge = some edge ∧ edge.op = .execute op
  summary : ∃ s, effectSummaryForPlanNode node.id node.kind = .ok s ∧
    g.effectSummaries.lookup node.id = some s
  inputs : ofList (info.inputs.filter g.isValueNode) = expectedValueInputs plan values node.id

/-- What agreement with the source requires of a literal. -/
structure SourceLiteral (g : HGraph) (values : Table PlanNodeId NodeId) (p : PlanNodeId) :
    Prop where
  value : ∃ id node, values.lookup p = some id ∧ g.node id = some node ∧
    node.state = .materialized ∧ node.producer = none
  not_op : p ∉ g.opMap

lemma checkSourceNode_eq_ok : g.checkSourceNode plan values node = .ok u ↔
      (executableOp node.kind = none ∧ g.SourceLiteral values node.id) ∨
        ∃ op info, executableOp node.kind = some op ∧ g.opFor node.id = some info ∧
          g.SourceOperation plan values node op info := by
  unfold checkSourceNode
  split
  · next value hvalue hop =>
    simp only [checkLiteral_eq_ok, hop, reduceCtorEq, false_and, exists_false, or_false, true_and]
    constructor
    · rintro ⟨⟨n, hn, hstate, hproducer⟩, hno⟩
      exact ⟨⟨value, n, hvalue, hn, hstate, hproducer⟩, hno⟩
    · rintro ⟨⟨id, n, hid, hn, hstate, hproducer⟩, hno⟩
      cases hvalue.symm.trans hid
      exact ⟨⟨n, hn, hstate, hproducer⟩, hno⟩
  · next value op hvalue hop =>
    split
    · next hnone => simp [hop, hnone]
    rename_i info hinfo
    simp only [checkSourceOperation, bind_eq_ok, ensure_eq_ok, checkSemantics_eq_ok,
      mapError_eq_ok, hop, reduceCtorEq, false_and, false_or]
    constructor
    · rintro ⟨⟨⟩, heq, ⟨⟩, hsemantics, s, hs, ⟨⟩, hlookup, hinputs⟩
      exact ⟨op, info, rfl, hinfo, heq ▸ hvalue, hsemantics, ⟨s, hs, hlookup⟩, hinputs⟩
    · rintro ⟨op', info', hop', hinfo', h⟩
      cases hop'
      cases hinfo.symm.trans hinfo'
      obtain ⟨s, hs, hlookup⟩ := h.summary
      exact ⟨(), some_unique h.value hvalue, (), h.semantics, s, hs, (), hlookup, h.inputs⟩
  · next hnone =>
    simp only [reduceCtorEq, false_iff, not_or, not_and, not_exists]
    refine ⟨?_, ?_⟩
    · rintro - ⟨⟨id, n, hid, -⟩, -⟩
      cases hnone.symm.trans hid
    · intro op info _ _ h
      cases hnone.symm.trans h.value

/-- The parts of the agreement with a source plan that soundness rests on. -/
structure Agrees (g : HGraph) (plan : ExecutionPlan) (values : Table PlanNodeId NodeId) :
    Prop where
  valid : plan.validate plan.roots.length = .ok ()
  valuesOf : g.ValuesOf plan values
  nodes : ∀ node ∈ plan.nodes, g.checkSourceNode plan values node = .ok ()
  frontiers : g.validateSourceResourceFrontiers plan = .ok ()

lemma exists_agrees (h : g.validateAgainstPlan plan = .ok u) : ∃ values, g.Agrees plan values := by
  simp only [validateAgainstPlan, bind_eq_ok, ensure_eq_ok, mapError_eq_ok, forM_eq_ok] at h
  obtain ⟨⟨⟩, hvalid, values, hvalues, ⟨⟩, -, ⟨⟩, hnodes, ⟨⟩, -, hfrontiers⟩ := h
  exact ⟨values, hvalid, valuesOf_of_valueForPlan hvalues, hnodes, hfrontiers⟩

variable {values : Table PlanNodeId NodeId}

lemma Agrees.sourceOperation (h : g.Agrees plan values) (hshaped : g.OperationsShaped)
    (hop : g.opFor p = some info) :
    ∃ node ∈ plan.nodes, ∃ op, node.id = p ∧ executableOp node.kind = some op ∧
      g.SourceOperation plan values node op info := by
  obtain ⟨edge, -, hshape⟩ := hshaped.shaped p info hop
  have hvalue : info.valueOutput ∈ info.outputs.filter g.isValueNode := by
    rw [hshape.value_only]
    exact mem_singleton_self _
  obtain ⟨n, hn, hproducer, -⟩ := hshape.outputs _ hshape.value_mem
  -- The value output stands for some plan node, which turns out to be the operation itself.
  obtain ⟨q, hq⟩ := h.valuesOf.total _ (mem_filter.1 hvalue).2
  have hlookup := (h.valuesOf.lookup q _).2 hq
  obtain ⟨node, hnode, rfl⟩ := ExecutionPlan.exists_node h.valid (h.valuesOf.bound q _ hq)
  rcases checkSourceNode_eq_ok.1 (h.nodes node hnode) with ⟨-, hliteral⟩ |
    ⟨op, info', hkind, hop', hsource⟩
  · obtain ⟨id, n', hid, hn', -, hnone⟩ := hliteral.value
    cases hlookup.symm.trans hid
    cases hn.symm.trans hn'
    cases hproducer.symm.trans hnone
  have heq : info'.valueOutput = info.valueOutput :=
    some_unique hsource.value hlookup
  obtain ⟨edge', -, hshape'⟩ := hshaped.shaped _ info' hop'
  obtain ⟨n', hn', hproducer', -⟩ := hshape'.outputs _ hshape'.value_mem
  rw [heq] at hn'
  cases hn.symm.trans hn'
  have hedge : info'.edge = info.edge := some_unique hproducer' hproducer
  have hid : node.id = p := hshaped.edge_inj _ _ _ _ hop' hop hedge
  cases (hid ▸ hop').symm.trans hop
  exact ⟨node, hnode, op, hid, hkind, hsource⟩

/-! ## Replay of the frontiers -/

def accessOf (g : HGraph) (resource : ResourceKey) (p : PlanNodeId) : Option Access :=
  (g.opFor p).bind fun info =>
    if g.isAutonomous info then none
    else (g.effectSummaries.lookup p).bind fun summary => summary.access resource

def IsOutputOf (g : HGraph) (id : NodeId) (p : PlanNodeId) : Prop :=
  ∃ info, g.opFor p = some info ∧ id ∈ info.outputs

/-- The replayed frontier holds an output of the last writer and of every open reader. -/
structure Tracks (g : HGraph) (f : Frontier PlanNodeId) (e : ExpectedFrontier) : Prop where
  writer : ∀ w, f.writer = some w → ∃ id, e.lastWrite = some id ∧ g.IsOutputOf id w
  readers : ∀ r ∈ f.readers, ∃ id ∈ e.openReads, g.IsOutputOf id r

lemma tracks_init : g.Tracks .init .init := ⟨nofun, nofun⟩

lemma mem_statesAmong {nodes : List NodeId} {version : ℕ} :
    (id, version) ∈ g.statesAmong nodes resource ↔
      id ∈ nodes ∧ g.kindOf id = some (.resourceState resource version) := by
  simp only [statesAmong, mem_filterMap, Option.map_eq_some_iff, Option.bind_eq_some_iff,
    Prod.mk.injEq]
  constructor
  · rintro ⟨id', hid, version', ⟨kind, hkind, hversion⟩, rfl, rfl⟩
    refine ⟨hid, ?_⟩
    rw [hkind]
    unfold versionOf at hversion
    split at hversion
    · split at hversion
      · next heq =>
        cases hversion
        rw [heq]
      · cases hversion
    · cases hversion
  · rintro ⟨hid, hkind⟩
    exact ⟨id, hid, version, ⟨_, hkind, by simp [versionOf]⟩, rfl, rfl⟩

lemma replayWrite_eq_ok {frontier' : ExpectedFrontier} :
    g.replayWrite p info resource frontier = .ok frontier' ↔
      (∀ reader ∈ frontier.openReads, reader ∈ info.inputs) ∧ ∃ node,
        g.statesAmong info.outputs resource = [(node, frontier.version + 1)] ∧
          frontier' = ⟨some node, ∅, frontier.version + 1⟩ := by
  simp only [replayWrite, bind_eq_ok, forM_eq_ok, ensure_eq_ok, mem_toList]
  constructor
  · rintro ⟨⟨⟩, hreads, h⟩
    refine ⟨hreads, ?_⟩
    split at h
    · next node version hstates =>
      simp only [bind_eq_ok, ensure_eq_ok] at h
      obtain ⟨⟨⟩, rfl, hnext⟩ := h
      cases hnext
      exact ⟨node, hstates, rfl⟩
    · cases h
  · rintro ⟨hreads, node, hstates, rfl⟩
    refine ⟨(), hreads, ?_⟩
    rw [hstates]
    simp [bind_eq_ok, pure, Except.pure]

/-- A replayed access waits for what it meets, and its frontier is tracked afterwards. -/
lemma Tracks.replayAccess (hshaped : g.OperationsShaped) {e e' : ExpectedFrontier}
    (htracks : g.Tracks f e) (hop : g.opFor p = some info) {completion : NodeId}
    (hcompletion : completion ∈ info.outputs)
    (h : g.replayAccess initial p info completion writes resource e = .ok e') :
    (∀ x ∈ f.needs (accessKind writes resource), g.Depends p x) ∧
      g.Tracks (f.next p (accessKind writes resource)) e' := by
  simp only [HGraph.replayAccess, bind_eq_ok, ensure_eq_ok] at h
  obtain ⟨expected, hexpected, ⟨⟩, hmem, h⟩ := h
  have hwriter : ∀ w, f.writer = some w → g.Depends p w := by
    intro w hw
    obtain ⟨id, hlast, info', hop', hout⟩ := htracks.writer w hw
    rw [expectedState, hlast] at hexpected
    cases hexpected
    exact hshaped.depends hop hop' hmem hout
  unfold accessKind
  split at h
  · next hwrites =>
    rw [if_pos hwrites]
    obtain ⟨hreads, node, hstates, rfl⟩ := replayWrite_eq_ok.1 h
    have hnode : node ∈ info.outputs := by
      have hsingle : (node, e.version + 1) ∈ g.statesAmong info.outputs resource := by
        simp [hstates]
      exact (mem_statesAmong.1 hsingle).1
    refine ⟨fun x hx => ?_, fun w hw => ?_, fun r hr => by cases hr⟩
    · rcases mem_append.1 hx with hx | hx
      · exact hwriter x (Option.mem_toList.1 hx)
      · obtain ⟨id, hid, info', hop', hout⟩ := htracks.readers x hx
        exact hshaped.depends hop hop' (hreads id hid) hout
    · cases hw
      exact ⟨node, rfl, info, hop, hnode⟩
  · next hwrites =>
    rw [if_neg hwrites]
    cases h
    refine ⟨fun x hx => hwriter x (Option.mem_toList.1 hx), htracks.writer, fun r hr => ?_⟩
    rcases mem_cons.1 hr with rfl | hr
    · exact ⟨completion, mem_insert.2 (.inl rfl), info, hop, hcompletion⟩
    · obtain ⟨id, hid, hout⟩ := htracks.readers r hr
      exact ⟨id, mem_insert.2 (.inr hid), hout⟩

/-- The frontier of a resource, which is created on first use. -/
def frontierAt (frontiers : Table ResourceKey ExpectedFrontier) (resource : ResourceKey) :
    ExpectedFrontier :=
  (frontiers.lookup resource).getD .init

lemma frontierAt_insert (frontiers : Table ResourceKey ExpectedFrontier)
    (resource resource' : ResourceKey) (frontier : ExpectedFrontier) :
    frontierAt (frontiers.insert resource frontier) resource' =
      if resource' = resource then frontier else frontierAt frontiers resource' := by
  unfold frontierAt
  rw [lookup_insert_eq_ite]
  split <;> rfl

/-- A loop over resources replays each of them once, independently of the others. -/
lemma foldlM_replayResource_sound {completion : NodeId} {l : List ResourceKey} (hl : l.Nodup)
    (h : l.foldlM (g.replayResource initial p info completion writes) frontiers = .ok frontiers')
    (resource : ResourceKey) :
    (resource ∈ l → g.replayAccess initial p info completion writes resource
      (frontierAt frontiers resource) = .ok (frontierAt frontiers' resource)) ∧
    (resource ∉ l → frontierAt frontiers' resource = frontierAt frontiers resource) := by
  induction l generalizing frontiers with
  | nil =>
    cases h
    simp
  | cons first l ih =>
    obtain ⟨hfirst, hl⟩ := nodup_cons.1 hl
    simp only [foldlM_cons, replayResource, bind_eq_ok] at h
    obtain ⟨middle, ⟨next, hnext, hmiddle⟩, hrest⟩ := h
    cases hmiddle
    obtain ⟨hin, hout⟩ := ih hl hrest
    simp only [frontierAt_insert] at hin hout
    refine ⟨fun hmem => ?_, fun hmem => ?_⟩
    · rcases mem_cons.1 hmem with rfl | hmem
      · rw [hout hfirst, if_pos rfl]
        exact hnext
      · have hne : resource ≠ first := fun heq => hfirst (heq ▸ hmem)
        simpa [hne] using hin hmem
    · rw [mem_cons, not_or] at hmem
      obtain ⟨hne, hmem⟩ := hmem
      simpa [hne] using hout hmem

lemma Shaped.completion_mem {edge : HEdge} (h : g.Shaped p info edge) {c : NodeId}
    (hc : g.completionNode p = some c) :
    c ∈ info.outputs := by
  obtain ⟨c', hamong, hc'⟩ := h.completion
  cases hc.symm.trans hc'
  have hmem : c ∈ g.completionsAmong p info.outputs := by simp [hamong]
  exact (mem_filter.1 hmem).1

/-- The effects that the replay derives are those on record. -/
lemma Agrees.sourceSummary (h : g.Agrees plan values) (hshaped : g.OperationsShaped)
    (hop : g.opFor p = some info) {s : EffectSummary} (hs : HGraph.sourceSummary plan p = .ok s) :
    g.effectSummaries.lookup p = some s := by
  obtain ⟨node, hnode, op, rfl, -, hsource⟩ := h.sourceOperation hshaped hop
  obtain ⟨s', hs', hlookup⟩ := hsource.summary
  rw [HGraph.sourceSummary, (ExecutionPlan.kindAt_of_mem h.valid hnode).2] at hs
  cases (mapError_eq_ok.1 hs).symm.trans hs'
  exact hlookup

lemma Tracks.replayOperation (hplan : g.sourcePlan = some plan) (hshaped : g.OperationsShaped)
    (hagrees : g.Agrees plan values)
    (h : g.replayOperation plan initial frontiers p = .ok frontiers')
    (htracks : g.Tracks f (frontierAt frontiers resource)) :
    (∀ x ∈ f.needs (g.accessOf resource p), g.Depends p x) ∧
      g.Tracks (f.next p (g.accessOf resource p)) (frontierAt frontiers' resource) := by
  have hidle : g.accessOf resource p = none → frontierAt frontiers' resource =
      frontierAt frontiers resource → (∀ x ∈ f.needs (g.accessOf resource p), g.Depends p x) ∧
        g.Tracks (f.next p (g.accessOf resource p)) (frontierAt frontiers' resource) := by
    intro hnone heq
    rw [hnone, heq]
    exact ⟨nofun, htracks⟩
  unfold HGraph.replayOperation at h
  split at h
  · next hnone =>
    cases h
    exact hidle (by simp [accessOf, hnone]) rfl
  rename_i info hop
  obtain ⟨edge, -, hshape⟩ := hshaped.shaped p info hop
  simp only [replayRecorded, bind_eq_ok] at h
  obtain ⟨summary, hsummary, h⟩ := h
  have hrecorded := hagrees.sourceSummary hshaped hop hsummary
  split at h
  · cases h
  rename_i oir hoir
  have hauto : g.isAutonomous info = (autonomousEphemeralGroup plan info.planNode oir).isSome := by
    simp [isAutonomous, hplan, hoir]
  rw [hshape.planNode] at hauto
  split at h
  · next hsome =>
    cases h
    exact hidle (by simp [accessOf, hop, hauto, hsome]) rfl
  rename_i hnot
  have haccess : g.accessOf resource p = summary.access resource := by
    simp [accessOf, hop, hauto, hnot, hrecorded]
  unfold replayAccesses at h
  split at h
  · cases h
  rename_i c hc
  obtain ⟨hin, hout⟩ := foldlM_replayResource_sound (nodup _) h resource
  rw [EffectSummary.access_eq_ite] at haccess
  split at haccess
  · next hmem =>
    rw [haccess]
    exact htracks.replayAccess hshaped hop (hshape.completion_mem hc) (hin hmem)
  · next hmem => exact hidle haccess (hout hmem)

/-- The replay makes every operation wait for the frontier of each resource it uses. -/
lemma obeys_of_replay (hplan : g.sourcePlan = some plan) (hshaped : g.OperationsShaped)
    (hagrees : g.Agrees plan values) (resource : ResourceKey) {ops : List PlanNodeId}
    (h : ops.foldlM (g.replayOperation plan initial) ∅ = .ok frontiers) :
    Frontier.Obeys (g.accessOf resource) g.Depends ops ∧
      g.Tracks (.after (g.accessOf resource) ops) (frontierAt frontiers resource) := by
  induction ops using List.reverseRecOn generalizing frontiers with
  | nil =>
    cases h
    exact ⟨fun pre op suf hsplit => by simp at hsplit, tracks_init⟩
  | append_singleton ops p ih =>
    rw [foldlM_append, bind_eq_ok] at h
    obtain ⟨middle, hpre, hlast⟩ := h
    obtain ⟨hobeys, htracks⟩ := ih hpre
    simp only [foldlM_cons, foldlM_nil, bind_pure] at hlast
    obtain ⟨hwaits, htracks'⟩ := htracks.replayOperation hplan hshaped hagrees hlast
    rw [Frontier.after_append_singleton]
    exact ⟨hobeys.append_singleton hwaits, htracks'⟩

/-! ## Soundness -/

section

variable (h : g.Agrees plan values)

include h

lemma Agrees.comparable (hplan : g.sourcePlan = some plan)
    (hshaped : g.OperationsShaped) {q : PlanNodeId} {info' : ExecInfo} (hne : p ≠ q)
    (hp : g.opFor p = some info) (hq : g.opFor q = some info')
    (hconflict : Access.Conflict (g.accessOf resource p) (g.accessOf resource q)) :
    Relation.TransGen g.Depends p q ∨ Relation.TransGen g.Depends q p := by
  have hfrontiers := h.frontiers
  simp only [validateSourceResourceFrontiers, bind_eq_ok, mapError_eq_ok] at hfrontiers
  obtain ⟨initial, -, order, horder, frontiers, hreplay, -⟩ := hfrontiers
  have hobeys := (obeys_of_replay hplan hshaped h resource hreplay).1
  have hmem : ∀ x infoX, g.opFor x = some infoX → x ∈ order := by
    intro x infoX hx
    obtain ⟨node, hnode, op, rfl, -⟩ := h.sourceOperation hshaped hx
    exact ExecutionPlan.mem_topologicalOrder h.valid horder
      (ExecutionPlan.kindAt_of_mem h.valid hnode).1
  exact hobeys.comparable (hmem p info hp) (hmem q info' hq) hne hconflict

lemma Agrees.depends (hshaped : g.OperationsShaped) {e : PlanEdge}
    (he : e ∈ plan.edges) (hkind : e.kind = .structural ∨ e.kind = .data)
    (hsource : plan.isExecutable e.source) (htarget : plan.isExecutable e.target) :
    g.Depends e.target e.source := by
  have hexec : ∀ p, plan.isExecutable p → p < plan.nodes.length → ∃ node ∈ plan.nodes, ∃ op info,
      node.id = p ∧ g.opFor p = some info ∧ g.SourceOperation plan values node op info := by
    intro p hp hlt
    obtain ⟨node, hnode, rfl⟩ := ExecutionPlan.exists_node h.valid hlt
    rcases checkSourceNode_eq_ok.1 (h.nodes node hnode) with ⟨hnone, -⟩ | ⟨op, info, -, hop, hsrc⟩
    · simp [ExecutionPlan.isExecutable, (ExecutionPlan.kindAt_of_mem h.valid hnode).2, hnone] at hp
    · exact ⟨node, hnode, op, info, rfl, hop, hsrc⟩
  obtain ⟨-, -, -, -, hbound, -, -⟩ := ExecutionPlan.validate_eq_ok.1 h.valid
  obtain ⟨node, -, op, info, hid, hop, hsrc⟩ := hexec e.source hsource (hbound e he).1
  obtain ⟨node', -, op', info', hid', hop', htgt⟩ := hexec e.target htarget (hbound e he).2
  have hvalue := hsrc.value
  rw [hid] at hvalue
  have hinput : info.valueOutput ∈ expectedValueInputs plan values e.target := by
    rw [expectedValueInputs, mem_ofList, mem_filterMap]
    exact ⟨e, he, by simp [hkind, hvalue]⟩
  rw [← hid', ← htgt.inputs, mem_ofList, mem_filter] at hinput
  obtain ⟨edge, -, hshape⟩ := hshaped.shaped _ info hop
  exact hshaped.depends hop' hop hinput.1 hshape.value_mem

lemma Agrees.tracksActor (hshaped : g.OperationsShaped)
    (hop : g.opFor p = some info) {s : EffectSummary} (hs : g.effectSummaries.lookup p = some s) :
    s.TracksActor := by
  obtain ⟨node, -, op, rfl, -, hsource⟩ := h.sourceOperation hshaped hop
  obtain ⟨s', hs', hlookup⟩ := hsource.summary
  cases hs.symm.trans hlookup
  exact tracksActor_of_effectSummaryForPlanNode hs'

end

/-- The dependencies of an accepted graph are acyclic, contain those of its plan, and order
conflicting operations outside autonomous groups. -/
theorem validateExecutionGraph_sound (hplan : g.sourcePlan = some plan)
    (h : g.validateExecutionGraph = .ok ()) :
    (∀ p, ¬Relation.TransGen g.Depends p p) ∧
    (∀ e ∈ plan.edges, e.kind = .structural ∨ e.kind = .data → plan.isExecutable e.source →
      plan.isExecutable e.target → g.Depends e.target e.source) ∧
    ∀ p q info info' s s', p ≠ q → g.opFor p = some info → g.opFor q = some info' →
      g.isAutonomous info = false → g.isAutonomous info' = false →
      g.effectSummaries.lookup p = some s → g.effectSummaries.lookup q = some s' →
      s.conflictsWith s' → Relation.TransGen g.Depends p q ∨ Relation.TransGen g.Depends q p := by
  simp only [validateExecutionGraph, bind_eq_ok, validateSourcePlanDependencies, hplan] at h
  obtain ⟨⟨⟩, -, ⟨⟩, hshapes, ⟨⟩, -, ⟨⟩, -, ⟨⟩, hagainst, hacyclic⟩ := h
  have hshaped := validateOperationShapes_eq_ok.1 hshapes
  obtain ⟨values, hagrees⟩ := exists_agrees hagainst
  refine ⟨fun p hcycle => ?_, fun e he hkind hsource htarget => ?_, ?_⟩
  · obtain ⟨rank, hrank⟩ := validateExecutableAcyclicity_sound hshaped hacyclic
    -- The rank falls along dependencies, so it would be below itself on a cycle.
    have hfalls : ∀ a b, Relation.TransGen g.Depends a b → rank b < rank a := by
      intro a b hab
      induction hab with
      | single hab => exact hrank _ _ hab
      | tail _ hbc ih => exact (hrank _ _ hbc).trans ih
    exact absurd (hfalls p p hcycle) (lt_irrefl _)
  · exact hagrees.depends hshaped he hkind hsource htarget
  · intro p q info info' s s' hne hp hq hauto hauto' hs hs' hconflict
    obtain ⟨resource, hmeet⟩ := EffectSummary.exists_conflict_of_conflictsWith
      (hagrees.tracksActor hshaped hp hs) (hagrees.tracksActor hshaped hq hs') hconflict
    refine hagrees.comparable hplan hshaped hne hp hq
      (?_ : Access.Conflict (g.accessOf resource p) (g.accessOf resource q))
    simpa [accessOf, hp, hq, hauto, hauto', hs, hs'] using hmeet

/-- The graph of a program that stores what it loads and then loads it again. -/
def sampleGraph : HGraph :=
  let program : OIrProgram := ⟨[.store "x" (.load "y"), .load "x"]⟩
  (buildProgramWithPlan program program.plan).toOption.getD .empty

theorem validateExecutionGraph_sound_sample :
    sampleGraph.validateExecutionGraph = .ok () ∧
    (∀ p, ¬Relation.TransGen sampleGraph.Depends p p) ∧ sampleGraph.Depends 0 1 ∧
    (Relation.TransGen sampleGraph.Depends 0 2 ∨ Relation.TransGen sampleGraph.Depends 2 0) := by
  have hvalid : sampleGraph.validateExecutionGraph = .ok () := by rfl
  obtain ⟨hacyclic, hdepends, hordered⟩ :=
    validateExecutionGraph_sound (g := sampleGraph) rfl hvalid
  refine ⟨hvalid, hacyclic, hdepends ⟨1, 0, .structural⟩ (by decide +kernel) (.inl rfl) rfl rfl, ?_⟩
  exact hordered 0 2 _ _ _ _ (by decide) rfl rfl rfl rfl rfl rfl (by decide +kernel)

end HGraph

end Ostadix
