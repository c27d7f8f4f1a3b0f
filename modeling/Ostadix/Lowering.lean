import Ostadix.Validate
import Ostadix.Plan

/-! Lowering of a program and its plan: instructions become value nodes, and executable ones also
operations. -/

namespace Ostadix

/-! ## Resource frontiers -/

structure ResourceHead where
  node : NodeId
  version : ℕ
  deriving DecidableEq, Repr

/-- The current state of a resource and the completions of its readers since it was written. -/
structure ResourceFrontier where
  lastWrite : ResourceHead
  openReads : OrdSet NodeId
  deriving DecidableEq

structure Lowering where
  graph : HGraph
  frontiers : Table ResourceKey ResourceFrontier

structure OperationPorts where
  (inputs outputs : List NodeId)
  deriving DecidableEq, Repr

namespace Lowering

/-- The frontier of a resource; its initial state is created on first use. -/
def frontier (s : Lowering) (resource : ResourceKey) : Lowering × ResourceFrontier :=
  match s.frontiers.lookup resource with
  | some f => (s, f)
  | none =>
    let (graph, node) := s.graph.addNode (.resourceState resource 0)
    let f : ResourceFrontier := ⟨⟨node, 0⟩, ∅⟩
    (⟨graph, s.frontiers.insert resource f⟩, f)

def read (s : Lowering) (resource : ResourceKey) (completion : NodeId) : Lowering × NodeId :=
  let (s, f) := s.frontier resource
  let next := { f with openReads := f.openReads.insert completion }
  ({ s with frontiers := s.frontiers.insert resource next }, f.lastWrite.node)

/-- The prior state, the readers to wait for and the successor state. -/
def write (s : Lowering) (resource : ResourceKey) (producer : PlanNodeId) :
    Lowering × NodeId × List NodeId × NodeId :=
  let (s, f) := s.frontier resource
  let version := f.lastWrite.version + 1
  let (graph, successor) := s.graph.addNode (.resourceState resource version)
  (⟨graph.setPlanNode successor producer,
    s.frontiers.insert resource ⟨⟨successor, version⟩, ∅⟩⟩,
    f.lastWrite.node, f.openReads.toList, successor)

def addTransition (writes : OrdSet ResourceKey) (producer : PlanNodeId) (completion : NodeId)
    (state : Lowering × OperationPorts) (resource : ResourceKey) : Lowering × OperationPorts :=
  if resource ∈ writes then
    let (s, prior, openReads, successor) := state.1.write resource producer
    (s, ⟨state.2.inputs ++ prior :: openReads, state.2.outputs ++ [successor]⟩)
  else
    let (s, node) := state.1.read resource completion
    (s, ⟨state.2.inputs ++ [node], state.2.outputs⟩)

def addResourceStateTransitions (summary : EffectSummary) (producer : PlanNodeId)
    (completion : NodeId) (state : Lowering × OperationPorts) : Lowering × OperationPorts :=
  (summary.schedulingAccesses.1 ∪ summary.schedulingAccesses.2).toList.foldl
    (addTransition summary.schedulingAccesses.2 producer completion) state

end Lowering

/-! ## Operations -/

/-- The plan nodes whose values an operation consumes, in the order of their identifiers. -/
def ExecutionPlan.valueSources (plan : ExecutionPlan) (target : PlanNodeId) : OrdSet PlanNodeId :=
  OrdSet.ofList (plan.edges.filterMap fun e =>
    if (e.kind = .structural ∨ e.kind = .data) ∧ e.target = target then some e.source else none)

def operationValueInputs (plan : ExecutionPlan) (nodeMap : Table PlanNodeId NodeId)
    (parent : PlanNodeId) : Except GraphError (List NodeId) :=
  (plan.valueSources parent).toList.mapM fun source =>
    orError (.unmapped source) (nodeMap.lookup source)

def deduplicateNodes (nodes : List NodeId) : List NodeId := retainNew [] nodes

def declareOperation (g : HGraph) (node : PlanNode) : Except GraphError HGraph :=
  match executableOp node.kind with
  | none => .ok g
  | some _ => do
    let summary ← (effectSummaryForPlanNode node.id node.kind).mapError .effect
    (g.setEffectSummary node.id summary).addCompletionNode node.id

def recordSequence (successor : PlanNodeId) (g : HGraph) (predecessor : PlanNodeId) :
    Except GraphError HGraph := do
  let completion ← orError (.predecessorWithoutCompletion predecessor)
    (g.completionNode predecessor)
  g.recordSequenceDependency predecessor successor completion

/-- Fresh hosted blocks of an explicit autonomous group stay out of the state chains. -/
def addStateTransitions (plan : ExecutionPlan) (oir : OIr) (summary : EffectSummary)
    (id : PlanNodeId) (completion : NodeId) (state : Lowering × OperationPorts) :
    Lowering × OperationPorts :=
  if (autonomousEphemeralGroup plan id oir).isNone then
    Lowering.addResourceStateTransitions summary id completion state
  else state

def lowerExecutable (plan : ExecutionPlan) (nodeMap : Table PlanNodeId NodeId)
    (oirNodes : List OIr) (s : Lowering) (id : PlanNodeId) (ordinal : ℕ) (op : ExecutableOp) :
    Except GraphError Lowering := do
  let summary ← orError (.loweringWithoutSummary id) (s.graph.effectSummaries.lookup id)
  let valueOutput ← orError (.unmapped id) (nodeMap.lookup id)
  let completion ← orError (.loweringWithoutCompletion id) (s.graph.completionNode id)
  let values ← operationValueInputs plan nodeMap id
  let preserved := plan.preservedSequences s.graph.effectSummaries id
  let waits ← preserved.mapM fun predecessor =>
    orError (.predecessorWithoutCompletion predecessor) (s.graph.completionNode predecessor)
  let oir ← orError (.unmapped id) oirNodes[id]?
  let (s, ports) := addStateTransitions plan oir summary id completion
    (s, ⟨values ++ waits, [valueOutput, completion]⟩)
  let graph ← s.graph.addExecEdge id op (deduplicateNodes ports.inputs)
    (deduplicateNodes ports.outputs) valueOutput ordinal
  let graph ← preserved.foldlM (recordSequence id) graph
  return { s with graph }

def lowerOperation (plan : ExecutionPlan) (nodeMap : Table PlanNodeId NodeId)
    (oirNodes : List OIr) (s : Lowering) (x : PlanNodeId × ℕ) : Except GraphError Lowering := do
  let kind ← orError (.unmapped x.1) (plan.kindAt x.1)
  match executableOp kind with
  | none => .ok s
  | some op => lowerExecutable plan nodeMap oirNodes s x.1 x.2 op

/-- Resource versions advance in topological order, whose positions are the stable ordinals. -/
def addExecuteEdges (g : HGraph) (plan : ExecutionPlan) (nodeMap : Table PlanNodeId NodeId)
    (oirNodes : List OIr) : Except GraphError HGraph := do
  let declared ← plan.nodes.foldlM declareOperation g
  let order ← plan.topologicalOrder.mapError .plan
  let s ← order.zipIdx.foldlM (lowerOperation plan nodeMap oirNodes) ⟨declared, ∅⟩
  return s.graph

/-! ## Programs -/

def hnodeForOir : OIr → HNode
  | .text text =>
    if text = "" then .withValue text
    else { HNode.withValue text with domain := domainString, rep := repStr }
  | _ => .fresh

def addValueNode (oirNodes : List OIr) (state : HGraph × Table PlanNodeId NodeId)
    (node : PlanNode) : Except GraphError (HGraph × Table PlanNodeId NodeId) := do
  let oir ← orError (.unmapped node.id) oirNodes[node.id]?
  let (g, id) := state.1.addNode (hnodeForOir oir)
  return ((g.setPlanNode id node.id).recordIr id oir, state.2.insert node.id id)

def addRoot (nodeMap : Table PlanNodeId NodeId) (g : HGraph) (root : PlanNodeId) :
    Except GraphError HGraph := do
  let node ← orError (.unmapped root) (nodeMap.lookup root)
  return g.pushRoot node

def projectProgram (program : OIrProgram) (plan : ExecutionPlan) : Except GraphError HGraph := do
  let oirNodes := program.flattenForPlan
  let (g, nodeMap) ← plan.nodes.foldlM (addValueNode oirNodes)
    ({ HGraph.empty with sourcePlan := some plan }, ∅)
  let g ← plan.roots.foldlM (addRoot nodeMap) g
  addExecuteEdges g plan nodeMap oirNodes

/-- Other dependency edges are allowed, but the nodes and roots must be those of the program. -/
def buildProgramWithPlan (program : OIrProgram) (plan : ExecutionPlan) :
    Except GraphError HGraph := do
  (plan.validate program.nodes.length).mapError .plan
  ensure (plan.nodes = program.plan.nodes) .nodeSemantics
  ensure (plan.roots = program.plan.roots) .programRoots
  ensure (program.flattenForPlan.length = plan.nodes.length)
    (.flattenCount program.flattenForPlan.length plan.nodes.length)
  let g ← projectProgram program plan
  g.validateExecutionGraph
  return g

end Ostadix
