import Ostadix.Effects

/-! The operations a Send-only worker may run, and the hosted blocks that may overlap in a group. -/

namespace Ostadix

/-! ## Climbing the structural parents -/

namespace ExecutionPlan

def structuralParents (plan : ExecutionPlan) (node : PlanNodeId) : List PlanNodeId :=
  plan.edges.filterMap fun e =>
    if e.kind = .structural ∧ e.source = node then some e.target else none

def kindAt (plan : ExecutionPlan) (node : PlanNodeId) : Option PlanNodeKind :=
  plan.nodes[node]?.map PlanNode.kind

/-- What a walk towards the root does at a parent. -/
inductive Climb where
  | found | up | blocked
  deriving DecidableEq, Repr

/-- Walk up while the parent is unique and lets the walk pass, to the last parent and the child
below it. A repeated node ends the walk without an answer. -/
def climb (plan : ExecutionPlan) (at_ : PlanNodeKind → Climb) :
    ℕ → List PlanNodeId → PlanNodeId → Option (PlanNodeId × PlanNodeId)
  | 0, _, _ => none
  | fuel + 1, visited, current =>
    if current ∈ visited then none
    else match plan.structuralParents current with
      | [parent] => match (plan.kindAt parent).map at_ with
        | some .found => some (parent, current)
        | some .up => climb plan at_ fuel (current :: visited) parent
        | _ => none
      | _ => none

/-- Every node of a walk after the first is the target of an edge, and none repeats. -/
def climbFuel (plan : ExecutionPlan) : ℕ := plan.edges.length + 2

end ExecutionPlan

open ExecutionPlan (Climb)

/-- Fresh blocks without attributes that are hosted or purely inline. -/
def isFreshExpansion (envId : UInt32) (attr : Option String) (backend : BackendInterface) : Bool :=
  (EnvironmentRefV2.fromEncoded envId).isFresh && attr.isNone &&
    (backend.execution = .shim || backend.pure && backend.execution = .inlineValue)

def memberClimb : PlanNodeKind → Climb
  | .group _ _ => .found
  | .store _ => .up
  | .exec _ envId attr backend => if isFreshExpansion envId attr backend then .up else .blocked
  | _ => .blocked

/-- The nearest schedule decides; other calls hand on the policy they inherit. -/
def policyClimb : PlanNodeKind → Climb
  | .schedule _ .autonomous _ => .found
  | .schedule _ .lazy _ => .blocked
  | .exec _ envId attr backend => if isFreshExpansion envId attr backend then .up else .blocked
  | _ => .up

def nearestPolicyScheduleIsAutonomous (plan : ExecutionPlan) (node : PlanNodeId) : Bool :=
  (plan.climb policyClimb plan.climbFuel [] node).isSome

/-- The explicit autonomous group around an operation and its direct member that contains it. -/
def autonomousMember (plan : ExecutionPlan) (node : PlanNodeId) :
    Option (PlanNodeId × PlanNodeId) :=
  (plan.climb memberClimb plan.climbFuel [] node).filter fun (group, _) =>
    nearestPolicyScheduleIsAutonomous plan group

/-- The group that authorizes unordered execution of one fresh hosted block. -/
def autonomousEphemeralGroup (plan : ExecutionPlan) (node : PlanNodeId) : OIr → Option PlanNodeId
  | .exec _ envId attr backend _ =>
    if (EnvironmentRefV2.fromEncoded envId).isFresh && attr.isNone && backend.execution = .shim then
      (autonomousMember plan node).map Prod.fst
    else none
  | _ => none

end Ostadix
