import Ostadix.Dispatch
import Ostadix.HGraph

/-! The executable operations one follows in the source, and which sequences need not be kept. -/

namespace Ostadix

namespace ExecutionPlan

variable (plan : ExecutionPlan)

def isExecutable (node : PlanNodeId) : Bool :=
  ((plan.kindAt node).bind executableOp).isSome

def sequenceSources (target : PlanNodeId) : List PlanNodeId :=
  plan.edges.filterMap fun e =>
    if e.kind = .sequence ∧ e.target = target then some e.source else none

def structuralSources (target : PlanNodeId) : List PlanNodeId :=
  plan.edges.filterMap fun e =>
    if e.kind = .structural ∧ e.target = target then some e.source else none

/-- Follow sequences backwards across literals; the stack holds the nodes still to look at. -/
def collectPredecessors (plan : ExecutionPlan) : ℕ → List PlanNodeId → List PlanNodeId →
    OrdSet PlanNodeId → OrdSet PlanNodeId
  | 0, _, _, found => found
  | _ + 1, [], _, found => found
  | fuel + 1, source :: pending, visited, found =>
    if source ∈ visited then collectPredecessors plan fuel pending visited found
    else if plan.isExecutable source then
      collectPredecessors plan fuel pending (source :: visited) (found.insert source)
    else
      collectPredecessors plan fuel ((plan.sequenceSources source).reverse ++ pending)
        (source :: visited) found

-- A node is expanded once, so every edge is pushed at most twice.
def executableSequencePredecessors (target : PlanNodeId) : OrdSet PlanNodeId :=
  plan.collectPredecessors (2 * plan.edges.length + 1) (plan.sequenceSources target).reverse [] ∅

/-! ## Relaxation -/

def isGroupAt (node : PlanNodeId) : Bool :=
  match plan.kindAt node with
  | some (.group _ _) => true
  | _ => false

def isLoadAt (node : PlanNodeId) : Bool :=
  match plan.kindAt node with
  | some (.load _) => true
  | _ => false

/-- Structural `O` regions evaluate their children from left to right. -/
def isLeftToRightAt (node : PlanNodeId) : Bool :=
  match plan.kindAt node with
  | some (.exec _ _ _ backend) => backend.execution = .inlineAst && backend.canonical = "O"
  | _ => false

def isTrustedRendererAt (node : PlanNodeId) : Bool :=
  match plan.kindAt node with
  | some (.exec _ _ _ backend) => backend.isTrustedRenderer
  | _ => false

def insideLeftToRightRegion (node : PlanNodeId) : Bool :=
  (plan.structuralParents node).any plan.isLeftToRightAt

def directMembersOfConcurrentGroup (left right : PlanNodeId) : Bool :=
  (plan.structuralParents left).any fun parent =>
    plan.isGroupAt parent && parent ∈ plan.structuralParents right

def verifiedReadOnly (summary : EffectSummary) : Bool :=
  summary.confidence = .verified && !summary.unknown && summary.actorState.isNone &&
    summary.writes.isEmpty && !summary.network && !summary.spawn && !summary.clock

variable (summaries : Table PlanNodeId EffectSummary)

def isPureChild (check : List PlanNodeId → PlanNodeId → Bool × List PlanNodeId)
    (visited : List PlanNodeId) (child : PlanNodeId) : Bool × List PlanNodeId :=
  match plan.kindAt child with
  | some .text => (true, visited)
  | some (.exec _ _ _ _) =>
    if (summaries.lookup child).any EffectSummary.isVerifiedPureInfallible then check visited child
    else (false, visited)
  | _ => (false, visited)

/-- A renderer whose whole structural subtree consists of literals and such renderers. -/
def verifiedReorderableInline (plan : ExecutionPlan) (summaries : Table PlanNodeId EffectSummary) :
    ℕ → List PlanNodeId → PlanNodeId → Bool × List PlanNodeId
  | 0, visited, _ => (false, visited)
  | fuel + 1, visited, node =>
    if node ∈ visited then (false, visited)
    else if plan.isTrustedRendererAt node then
      (plan.structuralSources node).foldl
        (fun acc child =>
          if acc.1 then
            isPureChild plan summaries (verifiedReorderableInline plan summaries fuel) acc.2 child
          else acc)
        (true, node :: visited)
    else (false, node :: visited)

def isReorderable (node : PlanNodeId) : Bool :=
  (plan.verifiedReorderableInline summaries (plan.nodes.length + 1) [] node).1

def separateAutonomousMembers (predecessor successor : PlanNodeId) : Bool :=
  match autonomousMember plan predecessor, autonomousMember plan successor with
  | some (leftGroup, leftMember), some (rightGroup, rightMember) =>
    leftGroup = rightGroup && leftMember ≠ rightMember
  | _, _ => false

def sequenceCanRelax (predecessor successor : PlanNodeId) : Bool :=
  plan.directMembersOfConcurrentGroup predecessor successor ||
  plan.separateAutonomousMembers predecessor successor ||
  match summaries.lookup predecessor, summaries.lookup successor with
  | some left, some right =>
    !plan.insideLeftToRightRegion predecessor && !plan.insideLeftToRightRegion successor &&
      (plan.isLoadAt predecessor && plan.isLoadAt successor && verifiedReadOnly left &&
          verifiedReadOnly right ||
        left.isVerifiedPureInfallible && right.isVerifiedPureInfallible &&
          plan.isReorderable summaries predecessor && plan.isReorderable summaries successor)
  | _, _ => false

/-- The predecessors whose completion the target waits for. -/
def preservedSequences (target : PlanNodeId) : List PlanNodeId :=
  (plan.executableSequencePredecessors target).toList.filter fun predecessor =>
    !plan.sequenceCanRelax summaries predecessor target

end ExecutionPlan

end Ostadix
