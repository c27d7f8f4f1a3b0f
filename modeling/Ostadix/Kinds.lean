import Ostadix.Effects
import Ostadix.Fidelity

/-! The hypergraph: nodes are values, states and tokens, executable edges are operations. -/

namespace Ostadix

abbrev NodeId := ℕ

abbrev EdgeId := ℕ

structure ActorId where
  (lang env : UInt32)
  deriving DecidableEq, Repr

/-- A pre-execution fact whose admission is an input of an operation. -/
inductive AdmissionFactKind where
  | type | effectFootprint | dispatch | capabilityPolicy | placement | failurePolicy
  | resourceBudget
  deriving DecidableEq, Repr

/-- The role of a node. Only values are typed, the others are tokens. Versions are unbounded. -/
inductive HNodeKind where
  | value
  | resourceState (resource : ResourceKey) (version : ℕ)
  | completion (planNode : PlanNodeId)
  | branchControl (label : String) (version : ℕ)
  | admissionEvidence (planNode : PlanNodeId) (fact : AdmissionFactKind)
  deriving DecidableEq

inductive ValueState where
  | unresolved
  | materialized
  | failed (message : String)
  | disabledByBranch
  deriving DecidableEq, Repr

inductive ExecutableOp where
  | store
  | loadBinding
  | invoke (fnName : String) (mode : InvokeMode)
  | evalBackend (lang : String) (env : UInt32)
  | inlineBackend (lang : String)
  | forceRequest (kind : String)
  | request (kind : String)
  | group (mode : GroupMode)
  | schedule (kind : String)
  | materializeProject
  | buildRoute (routeId : String)
  | runRoute (routeId : String)
  | selectRoute (policy : String)
  | compareRouteResults
  deriving DecidableEq, Repr

/-- What an edge is; the relation of a constraint edge is not read by execution. -/
inductive HEdgeKind where
  | execute (op : ExecutableOp)
  | constraint
  deriving DecidableEq, Repr

inductive ReadyInputPolicy where
  | all
  | orderedFirstSuccess
  deriving DecidableEq, Repr

inductive PortRole where
  | input | output | inOut
  deriving DecidableEq, Repr

structure Port where
  node : NodeId
  role : PortRole
  deriving DecidableEq, Repr

def domainAny : UInt16 := 0x00ff

def domainString : UInt16 := 0x0020

def repAny : UInt16 := 0x07ff

def repStr : UInt16 := 0x0400

def PlanRequestKind.label : PlanRequestKind → String
  | .instantiate => "instantiate"
  | .realise => "realise"
  | .dryActivate => "dry_activate"
  | .activate => "activate"

def PlanScheduleKind.label : PlanScheduleKind → String
  | .force => "force"
  | .lazy => "lazy"
  | .autonomous => "autonomous"

/-- The operation that runs a plan node; a literal has none. -/
def executableOp : PlanNodeKind → Option ExecutableOp
  | .text => none
  | .load _ => some .loadBinding
  | .store _ => some .store
  | .call fnName mode _ => some (.invoke fnName mode)
  | .request _ kind _ => some (.request kind.label)
  | .group mode _ => some (.group mode)
  | .schedule _ .force _ => some (.forceRequest "force")
  | .schedule _ kind _ => some (.schedule kind.label)
  | .exec _ envId _ backend => match backend.execution with
    | .inlineAst | .inlineValue => some (.inlineBackend backend.canonical)
    | .shim => some (.evalBackend backend.canonical envId)

end Ostadix
