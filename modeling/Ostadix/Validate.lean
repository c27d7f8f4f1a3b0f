import Ostadix.Sequencing
import Mathlib.Data.Prod.Lex

/-! Validation of graphs: local shapes, version chains, the source plan, acyclicity. -/

namespace Ostadix

namespace HGraph

/-! ## Nodes -/

def checkFidelity (id : NodeId) (node : HNode) : Except GraphError Unit :=
  match node.fidelityAssessment with
  | none => .ok ()
  | some assessment => do
    assessment.validate.mapError (.invalidFidelity id)
    let projected ← assessment.tryPossibleFidelity.mapError (.invalidFidelity id)
    ensure (node.fidelity = some projected) (.inconsistentFidelity id)

variable (g : HGraph)

def checkRegistered (id : NodeId) (node : HNode) : Except GraphError Unit :=
  match node.kind with
  | .completion op => ensure (g.completionNode op = some id) (.unregisteredCompletion id op)
  | _ => .ok ()

def checkToken (id : NodeId) (node : HNode) : Except GraphError Unit :=
  if node.isValue then .ok ()
  else do
    ensure (node.value = none ∧ node.domain = 0 ∧ node.rep = 0 ∧ node.actor = none ∧
      node.fidelityAssessment = none ∧ node.fidelity = none) (.syntheticMetadata id node.kind)
    g.checkRegistered id node

def checkInitialState (id : NodeId) (node : HNode) : Except GraphError Unit :=
  match node.kind with
  | .resourceState _ 0 =>
    ensure (node.producer = none ∧ node.state = .materialized) (.initialStateProduced id)
  | _ => .ok ()

def checkProducer (id : NodeId) (node : HNode) : Except GraphError Unit :=
  match node.producer with
  | none => .ok ()
  | some edge => match g.execEdges.lookup edge with
    | none => .error (.missingProducerEdge id edge)
    | some e => ensure (⟨id, .output⟩ ∈ e.ports) (.notAnOutputOfProducer id edge)

def checkConsumer (id : NodeId) (edge : EdgeId) : Except GraphError Unit :=
  match g.execEdges.lookup edge with
  | none => .error (.missingConsumerEdge id edge)
  | some e => ensure (⟨id, .input⟩ ∈ e.ports) (.notAnInputOfConsumer id edge)

def validateNode (id : NodeId) (node : HNode) : Except GraphError Unit := do
  checkFidelity id node
  g.checkToken id node
  checkInitialState id node
  g.checkProducer id node
  forDistinct (.repeatedConsumer id) (g.checkConsumer id) node.consumers []

def checkProvenance (id : NodeId) : Except GraphError Unit :=
  match g.node id with
  | none => .error (.provenanceMissingNode id)
  | some node => ensure node.isValue (.provenanceOnToken id node.kind)

def checkRoot (id : NodeId) : Except GraphError Unit :=
  match g.node id with
  | none => .error (.missingRoot id)
  | some node => ensure node.isValue (.rootNotValue id node.kind)

def validateNodeKinds : Except GraphError Unit := do
  g.nodes.entries.forM fun e => g.validateNode e.1 e.2
  g.irMap.keys.forM g.checkProvenance
  g.rootNodes.forM g.checkRoot

/-! ## Shapes of operations -/

variable (planNode : PlanNodeId)

variable (info : ExecInfo)

def checkDisjoint : Except GraphError Unit :=
  match info.inputs.find? (fun node => node ∈ info.outputs) with
  | some overlap => .error (.overlappingPorts planNode overlap)
  | none => .ok ()

def checkPorts (edge : HEdge) : Except GraphError Unit := do
  ensure (info.inputs.Nodup ∧ info.outputs.Nodup) (.repeatedPort planNode)
  checkDisjoint planNode info
  ensure (edge.portsWith .input = info.inputs ∧ edge.portsWith .output = info.outputs)
    (.portsDisagree planNode info.edge)

def checkInput (edge : EdgeId) (input : NodeId) : Except GraphError Unit :=
  match g.node input with
  | none => .error (.consumesMissing planNode input)
  | some node => do
    ensure (node.state = .materialized ∨ node.producer.isSome)
      (.inputNeverAvailable planNode input)
    ensure (edge ∈ node.consumers) (.inputLacksConsumer planNode input)

def checkValueOutput : Except GraphError Unit := do
  ensure (info.valueOutput ∈ info.outputs) (.valueOutputAbsent planNode info.valueOutput)
  ensure (info.outputs.filter g.isValueNode = [info.valueOutput])
    (.wrongValueOutputs planNode info.valueOutput (info.outputs.filter g.isValueNode))

def completionsAmong (nodes : List NodeId) : List NodeId :=
  nodes.filter fun id => g.kindOf id = some (.completion planNode)

def checkCompletionOutput : Except GraphError Unit :=
  match g.completionsAmong planNode info.outputs with
  | [completion] =>
    ensure (g.completionNode planNode = some completion) (.completionMap planNode completion)
  | completions => .error (.completionCount planNode completions.length)

/-- The edge recorded for a node before must be this one. -/
def checkSingleProducer (output : NodeId) (edge : EdgeId) : Option EdgeId → Except GraphError Unit
  | none => .ok ()
  | some previous => ensure (previous = edge) (.multipleProducers output previous edge)

def checkOutput (edge : EdgeId) (produced : Table NodeId EdgeId) (output : NodeId) :
    Except GraphError (Table NodeId EdgeId) :=
  match g.node output with
  | none => .error (.producesMissing planNode output)
  | some node => do
    ensure (node.producer = some edge) (.inconsistentProducer planNode output node.producer)
    ensure (node.state = .unresolved) (.outputResolved planNode output)
    checkSingleProducer output edge (produced.lookup output)
    return produced.insert output edge

/-! ## Resources of operations -/

def versionOf (resource : ResourceKey) : HNodeKind → Option ℕ
  | .resourceState candidate version => if candidate = resource then some version else none
  | _ => none

def keyOf : HNodeKind → Option ResourceKey
  | .resourceState resource _ => some resource
  | _ => none

def resourceVersions (nodes : List NodeId) (resource : ResourceKey) : List ℕ :=
  nodes.filterMap fun id => (g.kindOf id).bind (versionOf resource)

def resourceKeys (nodes : List NodeId) : OrdSet ResourceKey :=
  OrdSet.ofList (nodes.filterMap fun id => (g.kindOf id).bind keyOf)

def validateOperationResourceRead (resource : ResourceKey) : Except GraphError Unit :=
  let inputVersions := g.resourceVersions info.inputs resource
  let outputVersions := g.resourceVersions info.outputs resource
  ensure (inputVersions.length = 1 ∧ outputVersions = [])
    (.readShape info.planNode resource inputVersions.length outputVersions.length)

/-- The written state follows the one that was read. -/
def validateOperationResourceWrite (resource : ResourceKey) : Except GraphError Unit :=
  match g.resourceVersions info.inputs resource, g.resourceVersions info.outputs resource with
  | [before], [after] =>
    ensure (after = before + 1) (.writeVersion info.planNode resource before after)
  | inputs, outputs =>
    .error (.writeShape info.planNode resource inputs.length outputs.length)

def requireReadWrite (summary : EffectSummary) (planNode : PlanNodeId) (resource : ResourceKey) :
    Except GraphError Unit :=
  ensure (resource ∈ summary.reads ∧ resource ∈ summary.writes) (.notReadWrite planNode resource)

def isConcurrentBranch : ResourceKey → Bool
  | .concurrentProjectBranch _ => true
  | _ => false

def requireHostedProjectOperation (summary : EffectSummary) (planNode : PlanNodeId)
    (mustSpawn : Bool) : Except GraphError Unit := do
  ensure (summary.unknown ∧ !summary.deterministic ∧ summary.fallibility = .mayFail ∧
    summary.spawn = mustSpawn) (.hostedProjectEffects planNode mustSpawn)
  requireReadWrite summary planNode
    ((summary.reads.toList.find? isConcurrentBranch).getD .hostWorld)

/-- Whether the operation is a fresh hosted block of an autonomous group of the source plan. -/
def isAutonomous : Bool :=
  match g.sourcePlan, g.irMap.lookup info.valueOutput with
  | some plan, some oir => (autonomousEphemeralGroup plan info.planNode oir).isSome
  | _, _ => false

def requireStateWrite (summary : EffectSummary) (resource : ResourceKey) :
    Except GraphError Unit := do
  requireReadWrite summary info.planNode resource
  g.validateOperationResourceWrite info resource

def requireBackendState (summary : EffectSummary) (resource : ResourceKey) :
    Except GraphError Unit := do
  requireReadWrite summary info.planNode resource
  if g.isAutonomous info then .ok () else g.validateOperationResourceWrite info resource

def requireActor (summary : EffectSummary) (lang : String) (env : UInt32) :
    Except GraphError Unit :=
  if (EnvironmentRefV2.fromEncoded env).isPersistent then do
    ensure (summary.actorState = some ⟨lang, env⟩) (.evalBackendActor info.planNode ⟨lang, env⟩)
    g.validateOperationResourceWrite info (.actorState ⟨lang, env⟩)
  else .ok ()

def isLogicalStep (summary : EffectSummary) : Bool :=
  !summary.unknown && summary.fallibility = .mayFail && summary.actorState.isNone &&
    summary.reads.isEmpty && summary.writes.isEmpty && !summary.spawn

def validateExecutable (summary : EffectSummary) : ExecutableOp → Except GraphError Unit
  | .evalBackend lang env => do
    ensure (summary.unknown ∧ !summary.deterministic ∧ summary.fallibility = .mayFail)
      (.evalBackendEffects info.planNode)
    g.requireBackendState info summary .hostWorld
    g.requireBackendState info summary .evaluatorState
    g.requireActor info summary lang env
  | .invoke _ _ | .request _ | .forceRequest _ | .schedule _ => do
    g.requireStateWrite info summary .hostWorld
    g.requireStateWrite info summary .evaluatorState
  | .materializeProject => requireHostedProjectOperation summary info.planNode false
  | .runRoute _ => requireHostedProjectOperation summary info.planNode true
  | .buildRoute _ =>
    ensure summary.isVerifiedPureInfallible (.buildRouteEffects info.planNode)
  | .selectRoute policy =>
    ensure (policy ≠ "" ∧ isLogicalStep summary) (.selectRouteEffects info.planNode)
  | .compareRouteResults =>
    ensure (summary.deterministic ∧ isLogicalStep summary) (.compareRouteEffects info.planNode)
  | .store | .loadBinding | .inlineBackend _ | .group _ => .ok ()

/-- Explicit project concurrency replaces the host world by a branch of the project. -/
def hasProjectConcurrency (op : HEdgeKind) (summary : EffectSummary) : Bool :=
  (match op with
    | .execute .materializeProject | .execute (.runRoute _) => true
    | _ => false) &&
  summary.reads.toList.any fun resource =>
    isConcurrentBranch resource && resource ∈ summary.writes

def requireHostWorld (op : HEdgeKind) (summary : EffectSummary) : Except GraphError Unit :=
  if summary.unknown && !hasProjectConcurrency op summary then
    requireReadWrite summary planNode .hostWorld
  else .ok ()

def validateOperationSemantics (op : HEdgeKind) (summary : EffectSummary) :
    Except GraphError Unit := do
  requireHostWorld info.planNode op summary
  match op with
  | .constraint => .error (.noExecutableSemantics info.planNode)
  | .execute op => g.validateExecutable info summary op

/-- The accesses the operation is admitted to; an autonomous block has none. -/
def admittedAccesses (summary : EffectSummary) : OrdSet ResourceKey × OrdSet ResourceKey :=
  if g.isAutonomous info then (∅, ∅)
  else (summary.schedulingAccesses.1 ∪ summary.schedulingAccesses.2, summary.schedulingAccesses.2)

def checkAccess (writes : OrdSet ResourceKey) (resource : ResourceKey) : Except GraphError Unit :=
  if resource ∈ writes then g.validateOperationResourceWrite info resource
  else g.validateOperationResourceRead info resource

def checkAccesses (summary : EffectSummary) : Except GraphError Unit := do
  let required := (g.admittedAccesses info summary).1
  let writes := (g.admittedAccesses info summary).2
  ensure (g.resourceKeys info.inputs = required ∧ g.resourceKeys info.outputs = writes)
    (.accessMismatch planNode (g.resourceKeys info.inputs).toList
      (g.resourceKeys info.outputs).toList required.toList writes.toList)
  required.toList.forM (g.checkAccess info writes)

def checkSummary (op : HEdgeKind) : Except GraphError Unit :=
  match g.effectSummaries.lookup planNode with
  | none => .error (.missingSummary planNode)
  | some summary => do
    g.validateOperationSemantics info op summary
    g.checkAccesses planNode info summary

structure ShapeState where
  produced : Table NodeId EdgeId
  mapped : List EdgeId

def checkShape (edge : HEdge) (state : ShapeState) : Except GraphError ShapeState := do
  ensure (info.edge ∉ state.mapped) (.edgeMappedTwice info.edge)
  ensure edge.isExecute (.edgeNotExecutable planNode info.edge)
  checkPorts planNode info edge
  info.inputs.forM (g.checkInput planNode info.edge)
  g.checkValueOutput planNode info
  g.checkCompletionOutput planNode info
  let produced ← info.outputs.foldlM (g.checkOutput planNode info.edge) state.produced
  g.checkSummary planNode info edge.op
  return ⟨produced, info.edge :: state.mapped⟩

def checkOperation (state : ShapeState) (planNode : PlanNodeId) (info : ExecInfo) :
    Except GraphError ShapeState := do
  ensure (info.planNode = planNode) (.operationKey planNode info.planNode)
  match g.execEdges.lookup info.edge with
  | none => .error (.missingEdge planNode info.edge)
  | some edge => g.checkShape planNode info edge state

def checkCompletionKey (op : PlanNodeId) (node : NodeId) : Except GraphError Unit :=
  ensure (op ∈ g.opMap) (.strayCompletion node op)

def validateOperationShapes : Except GraphError Unit := do
  let state ← g.opMap.entries.foldlM (fun state e => g.checkOperation state e.1 e.2) ⟨∅, []⟩
  g.execEdges.keys.forM fun edge => ensure (edge ∈ state.mapped) (.unmappedEdge edge)
  g.completionNodes.entries.forM fun e => g.checkCompletionKey e.1 e.2
  g.effectSummaries.keys.forM fun op => ensure (op ∈ g.opMap) (.straySummary op)

/-! ## Version chains -/

def infoOfEdge (edge : EdgeId) : Option ExecInfo :=
  (g.opMap.entries.find? (fun e => e.2.edge = edge)).map Sigma.snd

def checkVersionProducer (resource : ResourceKey) (version : ℕ) (id : NodeId) (node : HNode) :
    Except GraphError Unit :=
  if version = 0 then .ok ()
  else match node.producer with
    | none => .error (.versionUnproduced resource version id)
    | some edge => match g.infoOfEdge edge with
      | none => .error (.versionProducerUnknown resource version edge)
      | some info =>
        ensure ((g.resourceVersions info.inputs resource).map (· + 1) = [version])
          (.versionPredecessor resource version info.planNode)

def versionEntry (e : Sigma fun _ : NodeId => HNode) :
    Except GraphError (Option ((ResourceKey × ℕ) × NodeId)) :=
  match e.2.kind with
  | .resourceState resource version => .ok (some ((resource, version), e.1))
  | _ => .ok none

def checkVersion (e : Sigma fun _ : NodeId => HNode) : Except GraphError Unit :=
  match e.2.kind with
  | .resourceState resource version => g.checkVersionProducer resource version e.1 e.2
  | _ => .ok ()

def validateResourceChains : Except GraphError Unit := do
  let versions ← Table.collect versionEntry
    (fun key previous id => .duplicateVersion key.1 key.2 previous id) g.checkVersion ∅
    g.nodes.entries
  versions.keys.forM fun key => (List.range key.2).forM fun version =>
    ensure ((key.1, version) ∈ versions) (.versionSkipped key.1 version)

/-! ## Sequences -/

def checkSequence (d : SequenceDependency) (predecessor successor : ExecInfo) :
    Except GraphError Unit :=
  match g.node d.completion with
  | none => .error (.sequenceTokenMissing d.predecessor d.successor d.completion)
  | some node =>
    ensure (node.kind = .completion d.predecessor ∧ node.producer = some predecessor.edge ∧
      d.completion ∈ predecessor.outputs ∧ d.completion ∈ successor.inputs)
      (.sequenceNotImplemented d.predecessor d.successor d.completion)

def validateSequence (d : SequenceDependency) : Except GraphError Unit :=
  match g.opFor d.predecessor with
  | none => .error (.sequencePredecessorMissing d.predecessor)
  | some predecessor => match g.opFor d.successor with
    | none => .error (.sequenceSuccessorMissing d.successor)
    | some successor => g.checkSequence d predecessor successor

def validateSequenceDependencies : Except GraphError Unit :=
  g.sequenceDependencies.forM g.validateSequence

/-! ## Agreement with the source plan -/

variable (plan : ExecutionPlan)

def valueEntry (e : Sigma fun _ : NodeId => HNode) :
    Except GraphError (Option (PlanNodeId × NodeId)) :=
  if e.2.isValue then
    match e.2.planNode with
    | none => .error (.valueWithoutPlanNode e.1)
    | some planNode => do
      ensure (planNode < plan.nodes.length) (.valuePlanNodeOutOfBounds e.1 planNode)
      return some (planNode, e.1)
  else .ok none

def checkValueProvenance (e : Sigma fun _ : NodeId => HNode) : Except GraphError Unit :=
  match e.2.planNode with
  | none => .ok ()
  | some planNode => ensure (e.1 ∈ g.irMap) (.valueWithoutProvenance e.1 planNode)

def valueForPlan : Except GraphError (Table PlanNodeId NodeId) := do
  let values ← Table.collect (valueEntry plan) .multipleValues g.checkValueProvenance ∅
    g.nodes.entries
  ensure (values.keys.length = plan.nodes.length ∧ g.irMap.keys.length = plan.nodes.length)
    (.projectionCounts plan.nodes.length values.keys.length g.irMap.keys.length)
  return values

def checkLiteral (value : NodeId) : Except GraphError Unit :=
  ensure ((g.node value).any (fun node => node.state = .materialized && node.producer.isNone) ∧
    planNode ∉ g.opMap) (.literalNotMaterialized planNode)

def expectedValueInputs (values : Table PlanNodeId NodeId) (target : PlanNodeId) : OrdSet NodeId :=
  OrdSet.ofList (plan.edges.filterMap fun e =>
    if e.target = target ∧ (e.kind = .structural ∨ e.kind = .data) then values.lookup e.source
    else none)

def checkSemantics (planNode : PlanNode) (info : ExecInfo) (op : ExecutableOp) :
    Except GraphError Unit :=
  match g.execEdges.lookup info.edge with
  | none => .error (.missingEdge planNode.id info.edge)
  | some edge =>
    ensure (edge.op = .execute op) (.wrongSemantics planNode.id edge.op planNode.kind)

def checkSourceOperation (values : Table PlanNodeId NodeId) (planNode : PlanNode) (value : NodeId)
    (op : ExecutableOp) (info : ExecInfo) : Except GraphError Unit := do
  ensure (info.valueOutput = value) (.wrongValueNode planNode.id info.valueOutput value)
  g.checkSemantics planNode info op
  let derived ← (effectSummaryForPlanNode planNode.id planNode.kind).mapError .effect
  ensure (g.effectSummaries.lookup planNode.id = some derived) (.wrongSummary planNode.id)
  let expected := expectedValueInputs plan values planNode.id
  let actual := OrdSet.ofList (info.inputs.filter g.isValueNode)
  ensure (actual = expected) (.wrongValueInputs planNode.id actual.toList expected.toList)

def checkSourceNode (values : Table PlanNodeId NodeId) (planNode : PlanNode) :
    Except GraphError Unit :=
  match values.lookup planNode.id, executableOp planNode.kind with
  | some value, none => g.checkLiteral planNode.id value
  | some value, some op => match g.opFor planNode.id with
    | none => .error (.operationMissing planNode.id)
    | some info => g.checkSourceOperation plan values planNode value op info
  | none, _ => .error (.operationMissing planNode.id)

/-- The sequences of the source plan that must be kept, with the operation that waits second. -/
def expectedSequences : List (PlanNodeId × PlanNodeId) :=
  ((plan.nodes.map PlanNode.id).filter plan.isExecutable).flatMap fun target =>
    (plan.preservedSequences g.effectSummaries target).map fun predecessor => (predecessor, target)

def checkPreserved (predecessor target : PlanNodeId) : Except GraphError Unit :=
  match g.completionNode predecessor, g.opFor target with
  | none, _ => .error (.sequenceWithoutCompletion predecessor target)
  | _, none => .error (.operationMissing target)
  | some completion, some info =>
    ensure (completion ∈ info.inputs) (.sequenceInputMissing predecessor target completion)

def checkSequences : Except GraphError Unit := do
  let expected := g.expectedSequences plan
  expected.forM fun pair => g.checkPreserved pair.1 pair.2
  let recorded : List (PlanNodeId × PlanNodeId) :=
    g.sequenceDependencies.map fun d => (d.predecessor, d.successor)
  ensure recorded.Nodup .sequencesRepeated
  ensure (OrdSet.ofList (recorded.map toLex) = OrdSet.ofList (expected.map toLex))
    (.sequencesDiffer recorded expected)

/-! ## Replay of the resource frontiers -/

structure ExpectedFrontier where
  lastWrite : Option NodeId
  openReads : OrdSet NodeId
  version : ℕ

def ExpectedFrontier.init : ExpectedFrontier := ⟨none, ∅, 0⟩

def initialEntry (e : Sigma fun _ : NodeId => HNode) :
    Except GraphError (Option (ResourceKey × NodeId)) :=
  match e.2.kind with
  | .resourceState resource 0 => .ok (some (resource, e.1))
  | _ => .ok none

def expectedState (initial : Table ResourceKey NodeId) (resource : ResourceKey)
    (frontier : ExpectedFrontier) : Except GraphError NodeId :=
  match frontier.lastWrite, initial.lookup resource with
  | some node, _ => .ok node
  | none, some node => .ok node
  | none, none => .error (.noInitialState resource)

def statesAmong (nodes : List NodeId) (resource : ResourceKey) : List (NodeId × ℕ) :=
  nodes.filterMap fun id =>
    ((g.kindOf id).bind (versionOf resource)).map fun version => (id, version)

def replayWrite (resource : ResourceKey) (frontier : ExpectedFrontier) :
    Except GraphError ExpectedFrontier := do
  frontier.openReads.toList.forM fun reader =>
    ensure (reader ∈ info.inputs) (.openReaderOmitted planNode resource reader)
  match g.statesAmong info.outputs resource with
  | [(node, version)] => do
    ensure (version = frontier.version + 1)
      (.versionNotProduced planNode resource (frontier.version + 1))
    return ⟨some node, ∅, frontier.version + 1⟩
  | _ => .error (.versionNotProduced planNode resource (frontier.version + 1))

def replayAccess (initial : Table ResourceKey NodeId) (planNode : PlanNodeId) (info : ExecInfo)
    (completion : NodeId) (writes : OrdSet ResourceKey) (resource : ResourceKey)
    (frontier : ExpectedFrontier) : Except GraphError ExpectedFrontier := do
  let expected ← expectedState initial resource frontier
  ensure (expected ∈ info.inputs) (.staleState planNode resource expected)
  if resource ∈ writes then g.replayWrite planNode info resource frontier
  else .ok { frontier with openReads := frontier.openReads.insert completion }

def replayResource (initial : Table ResourceKey NodeId) (planNode : PlanNodeId) (info : ExecInfo)
    (completion : NodeId) (writes : OrdSet ResourceKey)
    (frontiers : Table ResourceKey ExpectedFrontier) (resource : ResourceKey) :
    Except GraphError (Table ResourceKey ExpectedFrontier) := do
  let frontier := (frontiers.lookup resource).getD .init
  let next ← g.replayAccess initial planNode info completion writes resource frontier
  return frontiers.insert resource next

def replayAccesses (initial : Table ResourceKey NodeId) (planNode : PlanNodeId) (info : ExecInfo)
    (summary : EffectSummary) (frontiers : Table ResourceKey ExpectedFrontier) :
    Except GraphError (Table ResourceKey ExpectedFrontier) :=
  match g.completionNode planNode with
  | none => .error (.noCompletion planNode)
  | some completion =>
    (summary.schedulingAccesses.1 ∪ summary.schedulingAccesses.2).toList.foldlM
      (g.replayResource initial planNode info completion summary.schedulingAccesses.2) frontiers

def sourceSummary (planNode : PlanNodeId) : Except GraphError EffectSummary :=
  match plan.kindAt planNode with
  | none => .error (.operationMissing planNode)
  | some kind => (effectSummaryForPlanNode planNode kind).mapError .effect

def replayRecorded (initial : Table ResourceKey NodeId) (planNode : PlanNodeId) (info : ExecInfo)
    (frontiers : Table ResourceKey ExpectedFrontier) :
    Except GraphError (Table ResourceKey ExpectedFrontier) := do
  let summary ← sourceSummary plan planNode
  match g.irMap.lookup info.valueOutput with
  | none => .error (.noRecordedOir planNode)
  | some oir =>
    if (autonomousEphemeralGroup plan planNode oir).isSome then .ok frontiers
    else g.replayAccesses initial planNode info summary frontiers

def replayOperation (initial : Table ResourceKey NodeId)
    (frontiers : Table ResourceKey ExpectedFrontier) (planNode : PlanNodeId) :
    Except GraphError (Table ResourceKey ExpectedFrontier) :=
  match g.opFor planNode with
  | none => .ok frontiers
  | some info => g.replayRecorded plan initial planNode info frontiers

/-- Replay the canonical reader and writer lowering from independently derived effects. -/
def validateSourceResourceFrontiers : Except GraphError Unit := do
  let initial ← Table.collect initialEntry (fun resource _ _ => .manyInitialStates resource)
    (fun _ => .ok ()) ∅ g.nodes.entries
  let order ← plan.topologicalOrder.mapError .plan
  let _ ← order.foldlM (g.replayOperation plan initial) ∅
  return ()

def validateAgainstPlan : Except GraphError Unit := do
  (plan.validate plan.roots.length).mapError .plan
  let values ← g.valueForPlan plan
  ensure (g.rootNodes.map some = plan.roots.map values.lookup)
    (.rootsDiffer g.rootNodes (plan.roots.filterMap values.lookup))
  plan.nodes.forM (g.checkSourceNode plan values)
  g.checkSequences plan
  g.validateSourceResourceFrontiers plan

def validateSourcePlanDependencies : Except GraphError Unit :=
  match g.sourcePlan with
  | none => .ok ()
  | some plan => g.validateAgainstPlan plan

/-! ## Acyclicity -/

def producerOf (id : NodeId) : Option PlanNodeId :=
  (((g.node id).bind HNode.producer).bind g.infoOfEdge).map ExecInfo.planNode

def checkDependency (input : NodeId) : Except GraphError Unit :=
  match (g.node input).bind HNode.producer with
  | none => .ok ()
  | some edge =>
    ensure (g.infoOfEdge edge).isSome (.producerWithoutOperation planNode input edge)

def dependencies : OrdSet PlanNodeId :=
  OrdSet.ofList (info.inputs.filterMap g.producerOf)

def dependencyEdges : List (PlanNodeId × PlanNodeId) :=
  g.opMap.entries.flatMap fun e =>
    (g.dependencies e.2).toList.map fun predecessor => (predecessor, e.2.planNode)

def validateExecutableAcyclicity : Except GraphError Unit := do
  g.opMap.entries.forM fun e => e.2.inputs.forM (g.checkDependency e.2.planNode)
  let scheduled := Kahn.order g.opMap.keys g.dependencyEdges
  ensure (scheduled.length = g.opMap.keys.length) (.cyclic scheduled.length g.opMap.keys.length)

/-! ## The whole graph -/

def validateExecutionGraph : Except GraphError Unit := do
  g.validateNodeKinds
  g.validateOperationShapes
  g.validateResourceChains
  g.validateSequenceDependencies
  g.validateSourcePlanDependencies
  g.validateExecutableAcyclicity

end HGraph

end Ostadix
