import Ostadix.GraphError
import Ostadix.Table

/-! The hypergraph of a program and its assembly, without constraint edges and solver data. -/

namespace Ostadix

structure HNode where
  kind : HNodeKind
  (domain rep : UInt16)
  /-- A literal carries its text. -/
  value : Option String
  actor : Option ActorId
  fidelityAssessment : Option FidelityAssessmentV2
  fidelity : Option Fidelity
  state : ValueState
  producer : Option EdgeId
  consumers : List EdgeId
  planNode : Option PlanNodeId
  deriving DecidableEq

namespace HNode

def fresh : HNode where
  kind := .value
  domain := domainAny
  rep := repAny
  value := none
  actor := none
  fidelityAssessment := none
  fidelity := none
  state := .unresolved
  producer := none
  consumers := []
  planNode := none

def withValue (value : String) : HNode :=
  { fresh with value := some value, state := .materialized }

/-- Scheduling tokens have empty type domains and no payload. -/
def synthetic (kind : HNodeKind) (state : ValueState) : HNode :=
  { fresh with kind, domain := 0, rep := 0, state }

def resourceState (resource : ResourceKey) (version : ℕ) : HNode :=
  synthetic (.resourceState resource version)
    (if version = 0 then .materialized else .unresolved)

def completion (planNode : PlanNodeId) : HNode := synthetic (.completion planNode) .unresolved

def isValue (node : HNode) : Bool := node.kind = .value

end HNode

structure HEdge where
  op : HEdgeKind
  ports : List Port
  deriving DecidableEq, Repr

def HEdge.isExecute (edge : HEdge) : Bool :=
  match edge.op with
  | .execute _ => true
  | .constraint => false

def HEdge.portsWith (edge : HEdge) (role : PortRole) : List NodeId :=
  (edge.ports.filter (fun port => port.role = role)).map Port.node

/-- The operation of a plan node: its result, its completion and the states after its writes. -/
structure ExecInfo where
  edge : EdgeId
  valueOutput : NodeId
  (inputs outputs : List NodeId)
  ordinal : ℕ
  planNode : PlanNodeId
  deriving DecidableEq, Repr

structure SequenceDependency where
  (predecessor successor : PlanNodeId)
  completion : NodeId
  deriving DecidableEq, Repr

structure HGraph where
  nodes : Table NodeId HNode
  execEdges : Table EdgeId HEdge
  opMap : Table PlanNodeId ExecInfo
  effectSummaries : Table PlanNodeId EffectSummary
  completionNodes : Table PlanNodeId NodeId
  sequenceDependencies : List SequenceDependency
  admissionEvidenceNodes : Table (PlanNodeId × AdmissionFactKind) NodeId
  irMap : Table NodeId OIr
  rootNodes : List NodeId
  sourcePlan : Option ExecutionPlan
  (nextNode nextEdge : ℕ)

namespace HGraph

def empty : HGraph where
  nodes := ∅
  execEdges := ∅
  opMap := ∅
  effectSummaries := ∅
  completionNodes := ∅
  sequenceDependencies := []
  admissionEvidenceNodes := ∅
  irMap := ∅
  rootNodes := []
  sourcePlan := none
  nextNode := 0
  nextEdge := 0

abbrev node (g : HGraph) (id : NodeId) : Option HNode := g.nodes.lookup id

abbrev opFor (g : HGraph) (planNode : PlanNodeId) : Option ExecInfo := g.opMap.lookup planNode

abbrev completionNode (g : HGraph) (planNode : PlanNodeId) : Option NodeId :=
  g.completionNodes.lookup planNode

variable (g : HGraph)

def kindOf (id : NodeId) : Option HNodeKind := (g.node id).map HNode.kind

/-! ## Assembly -/

def addNode (node : HNode) : HGraph × NodeId :=
  ({ g with nodes := g.nodes.insert g.nextNode node, nextNode := g.nextNode + 1 }, g.nextNode)

def modifyNode (id : NodeId) (f : HNode → HNode) : HGraph :=
  match g.node id with
  | none => g
  | some node => { g with nodes := g.nodes.insert id (f node) }

def setPlanNode (id : NodeId) (planNode : PlanNodeId) : HGraph :=
  g.modifyNode id fun node => { node with planNode := some planNode }

variable (planNode : PlanNodeId)

def checkNewInput (input : NodeId) : Except GraphError Unit :=
  ensure (g.node input).isSome (.missingInput planNode input)

def checkNewOutput (inputs : List NodeId) (output : NodeId) : Except GraphError Unit :=
  match g.node output with
  | none => .error (.missingOutput planNode output)
  | some node => do
    ensure (node.producer = none) (.alreadyProduced output node.producer)
    ensure (node.state = .unresolved) (.resolvedOutput output planNode)
    ensure (output ∉ inputs) (.inputAndOutput output planNode)

def isValueNode (id : NodeId) : Bool := g.kindOf id = some .value

def checkNewValueOutput (outputs : List NodeId) (valueOutput : NodeId) :
    Except GraphError Unit := do
  ensure (valueOutput ∈ outputs) (.valueNotAmongOutputs valueOutput planNode)
  ensure (g.node valueOutput).isSome (.missingValueOutput planNode valueOutput)
  ensure (g.isValueNode valueOutput) (.valueOutputNotOrdinary valueOutput planNode)
  ensure ((outputs.filter g.isValueNode).length = 1)
    (.ordinaryOutputCount planNode (outputs.filter g.isValueNode).length)

def portsOf (inputs outputs : List NodeId) : List Port :=
  inputs.map (fun node => ⟨node, .input⟩) ++ outputs.map (fun node => ⟨node, .output⟩)

def consumedBy (edge : EdgeId) (node : HNode) : HNode :=
  { node with consumers := node.consumers ++ [edge] }

def producedBy (edge : EdgeId) (planNode : PlanNodeId) (node : HNode) : HNode :=
  { node with producer := some edge, planNode := node.planNode <|> some planNode }

def wireExecEdge (op : ExecutableOp) (inputs outputs : List NodeId) (valueOutput : NodeId)
    (ordinal : ℕ) : HGraph :=
  let edge := g.nextEdge
  let consumed := inputs.foldl (fun g id => g.modifyNode id (consumedBy edge)) g
  let wired := outputs.foldl (fun g id => g.modifyNode id (producedBy edge planNode)) consumed
  { wired with
    nextEdge := edge + 1
    execEdges := wired.execEdges.insert edge ⟨.execute op, portsOf inputs outputs⟩
    opMap := wired.opMap.insert planNode ⟨edge, valueOutput, inputs, outputs, ordinal, planNode⟩ }

def addExecEdge (op : ExecutableOp) (inputs outputs : List NodeId) (valueOutput : NodeId)
    (ordinal : ℕ) : Except GraphError HGraph := do
  ensure (g.opFor planNode).isNone (.alreadyExecutable planNode)
  forDistinct (.repeatedInput planNode) (g.checkNewInput planNode) inputs []
  forDistinct (.repeatedOutput planNode) (g.checkNewOutput planNode inputs) outputs []
  g.checkNewValueOutput planNode outputs valueOutput
  return g.wireExecEdge planNode op inputs outputs valueOutput ordinal

def setEffectSummary (summary : EffectSummary) : HGraph :=
  { g with effectSummaries := g.effectSummaries.insert planNode summary }

def addCompletionNode : Except GraphError HGraph :=
  match g.completionNode planNode with
  | some existing => .error (.completionExists planNode existing)
  | none =>
    let (added, node) := g.addNode (.completion planNode)
    .ok { added with completionNodes := added.completionNodes.insert planNode node }

def recordSequenceDependency (predecessor successor : PlanNodeId) (completion : NodeId) :
    Except GraphError HGraph := do
  ensure (g.node completion).isSome (.missingSequenceToken completion)
  ensure (g.kindOf completion = some (.completion predecessor))
    (.wrongSequenceToken predecessor successor completion)
  let dependency : SequenceDependency := ⟨predecessor, successor, completion⟩
  return if dependency ∈ g.sequenceDependencies then g
    else { g with sequenceDependencies := g.sequenceDependencies ++ [dependency] }

def recordIr (id : NodeId) (ir : OIr) : HGraph :=
  { g with irMap := g.irMap.insert id ir }

def pushRoot (id : NodeId) : HGraph := { g with rootNodes := g.rootNodes ++ [id] }

end HGraph

end Ostadix
