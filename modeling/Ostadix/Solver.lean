import Ostadix.Chaotic
import Ostadix.Kinds
import Ostadix.OValue
import Ostadix.SortBy
import Ostadix.Table

/-! The solver refines facts of ordinary values along edges, in passes, until one changes nothing.
-/

namespace Ostadix

open Port FidelityAssessmentV2

/-! ## Flags -/

def domainInteger : UInt16 := 0x0001

def domainFloat : UInt16 := 0x0002

def domainNumeric : UInt16 := domainInteger ||| domainFloat

def domainPointer : UInt16 := 0x0004

def domainBool : UInt16 := 0x0008

def domainBitfield : UInt16 := 0x0010

def domainStruct : UInt16 := 0x0040

def repI8 : UInt16 := 0x0001

def repI16 : UInt16 := 0x0002

def repI32 : UInt16 := 0x0004

def repI64 : UInt16 := 0x0008

def repI128 : UInt16 := 0x0010

def repBig : UInt16 := 0x0020

def repF32 : UInt16 := 0x0040

def repF64 : UInt16 := 0x0080

def repBool : UInt16 := 0x0200

def integerReps : UInt16 := repI8 ||| repI16 ||| repI32 ||| repI64 ||| repI128 ||| repBig

def numericReps : UInt16 := integerReps ||| repF32 ||| repF64

def flagsContain (flags other : UInt16) : Bool := flags &&& other = other

def flagsDifference (flags other : UInt16) : UInt16 := flags &&& ~~~other

/-! ## Values and backends -/

/-- What the solver looks at in a value. -/
inductive ValueView where
  | native
  | number (v : ONumber)
  | graph
  | capability
  | other
  deriving DecidableEq, Repr

/-- The values of nodes. Maps inside a value are compared without the order of their entries. -/
class SolverValue (V : Type) where
  view : V → ValueView
  bigInt : ℤ → V
  view_bigInt : ∀ n, view (bigInt n) = .number (.int n)

instance : SolverValue OValue where
  view
    | .native _ _ => .native
    | .number v => .number v
    | .graph _ _ => .graph
    | .capability _ _ _ => .capability
    | _ => .other
  bigInt n := .number (.int n)
  view_bigInt _ := rfl

inductive IntegerExactness where
  | unknown
  | exactMagnitudeBits (bits : UInt16)
  | twosComplementBits (bits : UInt16)
  | exactRange (min max : ℤ)
  | arbitrary
  deriving DecidableEq, Repr

inductive RichNumberPreservation where
  | unknown | preserved | collapsed
  deriving DecidableEq, Repr

structure BackendValueCapabilities where
  integerExactness : IntegerExactness
  richNumbers : RichNumberPreservation
  deriving DecidableEq, Repr

/-- What the solver reads of a backend of the catalog. -/
structure BackendSpec where
  name : String
  aliases : List String
  valueCapabilities : BackendValueCapabilities
  deriving DecidableEq, Repr

abbrev BackendRegistry := List BackendSpec

def BackendSpec.matches (spec : BackendSpec) (lang : String) : Bool :=
  spec.name = lang || lang ∈ spec.aliases

def BackendRegistry.get (registry : BackendRegistry) (lang : String) : Option BackendSpec :=
  registry.find? fun spec => spec.matches lang

/-! ## Graphs -/

inductive OpKind where
  | additive
  | multiplicative
  | bitwise
  | ordered
  | bounded (value : ℤ)
  | abiFixed (dom rep : UInt16)
  | dereferenceable
  | fieldAccess (field : String)
  | dataFlow
  | structuralBarrier
  | sequence
  | actorSerial (actor : ActorId)
  | batch
  | all
  | any
  | race
  | request (kind : String)
  | schedule (kind : String)
  | cacheMemo (cacheable : Bool)
  | backendCrossing (fromLang toLang : String)
  | x86 (mnemonic : String)
  | ocoreOp
  deriving DecidableEq, Repr

structure ConstraintEdge where
  id : EdgeId
  kind : OpKind
  ports : List Port
  deriving DecidableEq, Repr

/-- The facts of a node that constraints refine. -/
structure TypedNode (V : Type) where
  kind : HNodeKind
  (domain rep : UInt16)
  value : Option V
  fidelityAssessment : Option FidelityAssessmentV2
  fidelity : Option Fidelity
  deriving DecidableEq

def TypedNode.isValue {V : Type} (node : TypedNode V) : Bool := node.kind = .value

structure TypedGraph (V : Type) where
  nodes : Table NodeId (TypedNode V)
  edges : Table EdgeId ConstraintEdge

def Port.isInput (port : Port) : Bool := port.role = .input || port.role = .inOut

def Port.isOutput (port : Port) : Bool := port.role = .output || port.role = .inOut

namespace TypedGraph

variable {V : Type}

variable (g : TypedGraph V)

def edgeIds : List EdgeId := sortBy id g.edges.keys

def valueNode (id : NodeId) : Option (TypedNode V) :=
  (g.nodes.lookup id).filter TypedNode.isValue

def isValueNode (id : NodeId) : Bool := (g.valueNode id).isSome

def setNode (id : NodeId) (node : TypedNode V) : TypedGraph V :=
  { g with nodes := g.nodes.replace id node }

def inputValueNode (edge : ConstraintEdge) : Option (TypedNode V) :=
  (edge.ports.filter isInput).findSome? fun port => g.valueNode port.node

end TypedGraph

/-! ## Failures -/

inductive SolveError (V : Type) where
  | invalidFidelityAssessment (node : NodeId) (reason : String)
  | inconsistentFidelityProjection (node : NodeId)
  | invalidDataFlowShape (edge : EdgeId) (valueInputs valueOutputs nonValuePorts : ℕ)
  | duplicateDataFlowDestination (edge : EdgeId) (node : NodeId)
  | multipleDataFlowProducers (node : NodeId) (first second : EdgeId)
  | conflictingMaterializedValue (edge : EdgeId) (node : NodeId) (existing incoming : V)
  deriving DecidableEq

structure BudgetDiagnostics where
  (completedPasses derivedPassBound appliedPassLimit : ℕ)
  limitIsBelowDerivedBound : Bool
  deriving DecidableEq, Repr

/-- How the solver can fail: by an error about the graph, by exhausting its budget or by a panic. -/
inductive SolveFailure (V : Type) where
  | error (error : SolveError V)
  | budgetExhausted (diagnostics : BudgetDiagnostics)
  | panicked (panic : FidelityAssessmentV2.Panic)
  deriving DecidableEq

def orPanic {V α : Type} (result : Except FidelityAssessmentV2.Panic α) :
    Except (SolveFailure V) α := result.mapError .panicked

/-! ## Fidelity of a crossing -/

def integerRangeExceedsCapability (minimum maximum : ℤ) : IntegerExactness → Option Bool
  | .unknown => none
  | .arbitrary => some false
  | .exactMagnitudeBits bits =>
    some (minimum < -2 ^ bits.toNat || maximum > 2 ^ bits.toNat)
  | .twosComplementBits bits =>
    some (minimum < -2 ^ bits.toNat || maximum > 2 ^ bits.toNat - 1)
  | .exactRange min max => if min > max then none else some (minimum < min || maximum > max)

def integerExceedsCapability (value : ℤ) (exactness : IntegerExactness) : Option Bool :=
  integerRangeExceedsCapability value value exactness

def abstractIntegerExceedsCapability (reps : UInt16) (exactness : IntegerExactness) : Option Bool :=
  let integerReps := reps &&& integerReps
  if integerReps = 0 then some false
  else if flagsContain integerReps repBig then
    match exactness with
    | .unknown => none
    | .arbitrary => some false
    | .exactMagnitudeBits _ | .twosComplementBits _ | .exactRange _ _ => some true
  else
    let magnitudeBits :=
      if flagsContain integerReps repI128 then 127
      else if flagsContain integerReps repI64 then 63
      else if flagsContain integerReps repI32 then 31
      else if flagsContain integerReps repI16 then 15
      else 7
    integerRangeExceedsCapability (-2 ^ magnitudeBits) (2 ^ magnitudeBits - 1) exactness

/-- The losses of a number, given whether an integer can be lost. -/
def numericFidelity (exceeds : Option Bool) (richNumbers : RichNumberPreservation) : Fidelity :=
  match exceeds with
  | none => .unsupported
  | some exceeds =>
    let precision := if exceeds then [AnnotationKind.numericPrecision] else []
    match richNumbers with
    | .preserved => .ofLosses (.ofList precision)
    | .collapsed => .ofLosses (.ofList (precision ++ [.numericExactness, .typeTag]))
    | .unknown => .unsupported

def fidelityForNumber (number : ONumber) (capabilities : BackendValueCapabilities) : Fidelity :=
  let exceeds := match number with
    | .int v => integerExceedsCapability v capabilities.integerExactness
    | _ => some false
  numericFidelity exceeds capabilities.richNumbers

def fidelityForValueWithCapabilities {V : Type} [SolverValue V] (value : V)
    (capabilities : BackendValueCapabilities) : Fidelity :=
  match SolverValue.view value with
  | .native => .nativeCapsule
  | .number v => fidelityForNumber v capabilities
  | .graph => .ofLosses {.identity}
  | .capability => .ofLosses {.capability}
  | .other => .lossless

section Crossing

variable {V : Type}

def fidelityForAbstract (node : TypedNode V) (capabilities : BackendValueCapabilities) : Fidelity :=
  let numericDomain := node.domain &&& domainNumeric
  let numericRep := node.rep &&& numericReps
  if node.domain = 0 ∨ node.rep = 0 then .unsupported
  else if numericDomain ≠ 0 ∨ numericRep ≠ 0 then
    if numericDomain = 0 ∨ numericRep = 0 ∨ flagsDifference node.domain domainNumeric ≠ 0 ∨
        flagsDifference node.rep numericReps ≠ 0 then .unsupported
    else
      numericFidelity (abstractIntegerExceedsCapability numericRep capabilities.integerExactness)
        capabilities.richNumbers
  else if flagsDifference node.domain (domainString ||| domainBool) = 0 ∧
      flagsDifference node.rep (repStr ||| repBool) = 0 then .lossless
  else .unsupported

/-- The precision of an abstract number may be lost; every other loss is definite. -/
def fidelityAssessmentForAbstract (node : TypedNode V) (capabilities : BackendValueCapabilities) :
    Except FidelityAssessmentV2.Panic FidelityAssessmentV2 :=
  match fidelityForAbstract node capabilities with
  | .structural lost =>
    expectBounds "abstract fidelity transfer preserves subset bounds"
      (ofLosses (lost.lost.filter (· ≠ .numericPrecision)) lost.lost)
  | other => .ok (.fromConcrete other)

def fidelityAssessmentFor [SolverValue V] (registry : BackendRegistry) (node : TypedNode V)
    (fromLang toLang : String) : Except FidelityAssessmentV2.Panic FidelityAssessmentV2 :=
  if !node.isValue then .ok .unsupported
  -- Native values are bound to their process, also between equal languages.
  else if node.value.map SolverValue.view = some .native then .ok .nativeCapsule
  else match registry.get toLang with
    | none => .ok .unsupported
    | some toSpec =>
      if (registry.get fromLang).any fun fromSpec => fromSpec.name = toSpec.name then .ok .lossless
      else match node.value with
        | some value =>
          .ok (.fromConcrete (fidelityForValueWithCapabilities value toSpec.valueCapabilities))
        | none => fidelityAssessmentForAbstract node toSpec.valueCapabilities

end Crossing

/-! ## Slots -/

section Slots

variable {T V : Type}

/-- Absence is the least state of an optional slot. -/
def mergeOption (merge : T → T → Except FidelityAssessmentV2.Panic T) :
    Option T → Option T → Except FidelityAssessmentV2.Panic (Option T)
  | some existing, some incoming => some <$> merge existing incoming
  | none, incoming => .ok incoming
  | existing, none => .ok existing

def mergeFlags (flags incoming : UInt16) : Except FidelityAssessmentV2.Panic UInt16 :=
  .ok (flags &&& incoming)

def mergeFidelity : Option Fidelity → Option Fidelity →
    Except FidelityAssessmentV2.Panic (Option Fidelity) :=
  mergeOption fun existing incoming => .ok (existing.compose incoming)

def mergeAssessment : Option FidelityAssessmentV2 → Option FidelityAssessmentV2 →
    Except FidelityAssessmentV2.Panic (Option FidelityAssessmentV2) :=
  mergeOption andThen

def mergeValue (value incoming : Option V) : Except FidelityAssessmentV2.Panic (Option V) :=
  .ok (value <|> incoming)

/-- Merge into a slot; the flag says whether it changed. -/
def updateSlot [DecidableEq T] (merge : T → T → Except FidelityAssessmentV2.Panic T)
    (slot incoming : T) : Except (SolveFailure V) (T × Bool) := do
  let next ← orPanic (merge slot incoming)
  return if slot = next then (slot, false) else (next, true)

/-- One update of a node by a constraint edge. -/
inductive Write (V : Type) where
  | domain (mask : UInt16)
  | rep (mask : UInt16)
  | value (incoming : Option V)
  | fidelity (incoming : FidelityAssessmentV2)
  deriving DecidableEq

/-- The legacy judgment follows the assessment. -/
def applyFidelityToNode (node : TypedNode V) (incoming : FidelityAssessmentV2) :
    Except (SolveFailure V) (TypedNode V × Bool) := do
  let (assessment, changed) ← updateSlot mergeAssessment node.fidelityAssessment (some incoming)
  let projected ← orPanic (assessment.mapM possibleFidelity)
  let (fidelity, changed') ← updateSlot mergeFidelity node.fidelity projected
  return ({ node with fidelityAssessment := assessment, fidelity }, changed || changed')

variable [DecidableEq V]

def writeValueOnce (edge : EdgeId) (id : NodeId) (node : TypedNode V) :
    Option V → Except (SolveFailure V) (TypedNode V × Bool)
  | none => .ok (node, false)
  | some incoming =>
    match node.value with
    | some existing =>
      if existing ≠ incoming then
        .error (.error (.conflictingMaterializedValue edge id existing incoming))
      else .ok (node, false)
    | none => do
      let (value, changed) ← updateSlot mergeValue node.value (some incoming)
      return ({ node with value }, changed)

def Write.apply (edge : EdgeId) (id : NodeId) (node : TypedNode V) :
    Write V → Except (SolveFailure V) (TypedNode V × Bool)
  | .domain mask => do
    let (next, changed) ← updateSlot mergeFlags node.domain mask
    return ({ node with domain := next }, changed)
  | .rep mask => do
    let (next, changed) ← updateSlot mergeFlags node.rep mask
    return ({ node with rep := next }, changed)
  | .value incoming => writeValueOnce edge id node incoming
  | .fidelity incoming => applyFidelityToNode node incoming

/-- Nodes that are missing or not ordinary values are passed over. -/
def applyWrite (write : EdgeId × NodeId × Write V) (g : TypedGraph V) :
    Except (SolveFailure V) (TypedGraph V × Bool) :=
  match g.valueNode write.2.1 with
  | none => .ok (g, false)
  | some node => do
    let (updated, changed) ← write.2.2.apply write.1 write.2.1 node
    return (g.setNode write.2.1 updated, changed)

end Slots

/-! ## Propagation -/

section Propagation

variable {V : Type}

def ConstraintEdge.toAll (edge : ConstraintEdge) (write : Write V) :
    List (EdgeId × NodeId × Write V) :=
  edge.ports.map fun port => (edge.id, port.node, write)

def ConstraintEdge.toInputs (edge : ConstraintEdge) (write : Write V) :
    List (EdgeId × NodeId × Write V) :=
  (edge.ports.filter isInput).map fun port => (edge.id, port.node, write)

def ConstraintEdge.toOutputs (edge : ConstraintEdge) (write : Write V) :
    List (EdgeId × NodeId × Write V) :=
  (edge.ports.filter isOutput).map fun port => (edge.id, port.node, write)

def minRepForBigint (value : ℤ) : UInt16 :=
  if -2 ^ 7 ≤ value ∧ value < 2 ^ 7 then repI8
  else if -2 ^ 15 ≤ value ∧ value < 2 ^ 15 then repI16
  else if -2 ^ 31 ≤ value ∧ value < 2 ^ 31 then repI32
  else if -2 ^ 63 ≤ value ∧ value < 2 ^ 63 then repI64
  else repBig

/-- What all ordinary values at the ports of an arithmetic edge have in common. -/
def numericMeet (g : TypedGraph V) (edge : ConstraintEdge) : UInt16 :=
  (edge.ports.filterMap fun port => g.valueNode port.node).foldl
    (fun mask node => mask &&& node.domain &&& domainNumeric) domainNumeric

variable [SolverValue V]

def typeWrites (g : TypedGraph V) (edge : ConstraintEdge) : List (EdgeId × NodeId × Write V) :=
  match edge.kind with
  | .additive | .multiplicative => edge.toAll (.domain (numericMeet g edge))
  | .bitwise => edge.toAll (.domain (domainInteger ||| domainBitfield))
  | .ordered =>
    edge.toInputs (.domain (domainNumeric ||| domainBool)) ++
      edge.toOutputs (.domain domainBool) ++ edge.toOutputs (.rep repBool)
  | .bounded value =>
    edge.toOutputs (.domain domainInteger) ++ edge.toOutputs (.rep (minRepForBigint value)) ++
      edge.toOutputs (.value (some (SolverValue.bigInt value)))
  | .abiFixed dom rep =>
    edge.ports.flatMap fun port =>
      [(edge.id, port.node, .domain dom), (edge.id, port.node, .rep rep)]
  | .fieldAccess _ => edge.toInputs (.domain domainStruct)
  | .dereferenceable => edge.toAll (.domain domainPointer)
  | .dataFlow =>
    match g.inputValueNode edge with
    | none => []
    | some input =>
      (edge.ports.filter isOutput).flatMap fun port =>
        [(edge.id, port.node, .domain input.domain), (edge.id, port.node, .rep input.rep),
          (edge.id, port.node, .value input.value)]
  | .backendCrossing _ _ | .structuralBarrier | .sequence | .actorSerial _ | .batch | .all | .any
  | .race | .request _ | .schedule _ | .cacheMemo _ | .x86 _ | .ocoreOp => []

def fidelityWrites (registry : BackendRegistry) (g : TypedGraph V) (edge : ConstraintEdge) :
    Except FidelityAssessmentV2.Panic (List (EdgeId × NodeId × Write V)) :=
  match edge.kind with
  | .backendCrossing fromLang toLang =>
    match g.inputValueNode edge with
    | none => .ok (edge.toOutputs (.fidelity .unsupported))
    | some node => do
      let assessment ← fidelityAssessmentFor registry node fromLang toLang
      return edge.toOutputs (.fidelity assessment)
  | .dataFlow =>
    let incoming := (g.inputValueNode edge).bind fun input =>
      input.fidelityAssessment <|> input.fidelity.map fromConcrete
    match incoming with
    | none => .ok []
    | some incoming => .ok (edge.toOutputs (.fidelity incoming))
  | _ => .ok []

inductive SolvePhase where
  | typeAndValue | fidelity
  deriving DecidableEq, Repr

def edgeWrites (registry : BackendRegistry) (phase : SolvePhase) (eid : EdgeId)
    (g : TypedGraph V) : Except (SolveFailure V) (List (EdgeId × NodeId × Write V)) :=
  match g.edges.lookup eid with
  | none => .ok []
  | some edge => match phase with
    | .typeAndValue => .ok (typeWrites g edge)
    | .fidelity => orPanic (fidelityWrites registry g edge)

/-- Every update of an edge is computed before the first one is made. -/
def propagate [DecidableEq V] (registry : BackendRegistry) (phase : SolvePhase) (eid : EdgeId)
    (g : TypedGraph V) : Except (SolveFailure V) (TypedGraph V × Bool) :=
  Chaotic.batch (edgeWrites registry phase) applyWrite eid g

end Propagation

/-! ## Checks before solving -/

section Preflight

variable {V : Type}

def checkFidelityAssessment (id : NodeId) (node : TypedNode V) : Except (SolveFailure V) Unit :=
  let invalid (error : FidelityBoundsError) : SolveFailure V :=
    .error (.invalidFidelityAssessment id error.message)
  match node.fidelityAssessment with
  | none => .ok ()
  | some assessment => do
    assessment.validate.mapError invalid
    let projected ← assessment.tryPossibleFidelity.mapError invalid
    ensure (node.fidelity = some projected) (.error (.inconsistentFidelityProjection id))

def validateFidelityAssessments (g : TypedGraph V) : Except (SolveFailure V) Unit :=
  g.nodes.entries.forM fun entry => checkFidelityAssessment entry.1 entry.2

/-- An ordinary value without an assessment gets the one of its legacy judgment. -/
def TypedNode.hydrate (node : TypedNode V) : TypedNode V :=
  if node.isValue ∧ node.fidelityAssessment = none then
    { node with fidelityAssessment := node.fidelity.map fromConcrete }
  else node

def hydrateFidelityAssessments (g : TypedGraph V) : TypedGraph V :=
  { g with nodes := g.nodes.mapValues fun _ node => node.hydrate }

/-- The nodes among the ports that an edge with these ports writes. -/
def dataFlowOutputs (isValue : NodeId → Bool) (ports : List Port) : List NodeId :=
  ((ports.filter fun port => isValue port.node).filter isOutput).map Port.node

def checkDataFlowShape (isValue : NodeId → Bool) (eid : EdgeId) (ports : List Port) :
    Except (SolveFailure V) Unit :=
  let valueInputs := ((ports.filter fun port => isValue port.node).filter isInput).length
  let valueOutputs := (dataFlowOutputs isValue ports).length
  let nonValuePorts := (ports.filter fun port => !isValue port.node).length
  ensure (valueInputs = 1 ∧ valueOutputs ≠ 0 ∧ nonValuePorts = 0)
    (.error (.invalidDataFlowShape eid valueInputs valueOutputs nonValuePorts))

def claimDestination (eid : EdgeId) (producers : Table NodeId EdgeId) (destination : NodeId) :
    Except (SolveFailure V) (Table NodeId EdgeId) := do
  match producers.lookup destination with
  | some first => ensure (first = eid) (.error (.multipleDataFlowProducers destination first eid))
  | none => .ok ()
  return producers.insert destination eid

def checkDataFlowEdge (isValue : NodeId → Bool) (producers : Table NodeId EdgeId)
    (eid : EdgeId) (edge : ConstraintEdge) : Except (SolveFailure V) (Table NodeId EdgeId) := do
  checkDataFlowShape isValue eid edge.ports
  let outputs := dataFlowOutputs isValue edge.ports
  forDistinct (fun node => .error (.duplicateDataFlowDestination eid node)) (fun _ => .ok ())
    outputs []
  (sortBy id outputs).foldlM (claimDestination eid) producers

def checkDataFlow (isValue : NodeId → Bool) (edges : Table EdgeId ConstraintEdge)
    (producers : Table NodeId EdgeId) (eid : EdgeId) :
    Except (SolveFailure V) (Table NodeId EdgeId) :=
  match edges.lookup eid with
  | none => .ok producers
  | some edge =>
    if edge.kind = .dataFlow then checkDataFlowEdge isValue producers eid edge else .ok producers

/-- A data-flow edge has one input and distinct outputs, and a destination has one such edge. -/
def validateDataflowConstraints (g : TypedGraph V) : Except (SolveFailure V) Unit := do
  let _ ← g.edgeIds.foldlM (checkDataFlow g.isValueNode g.edges) ∅

end Preflight

/-! ## The budget and the solver -/

def usizeMax : ℕ := 2 ^ 64 - 1

def saturatingAdd (m n : ℕ) : ℕ := min (m + n) usizeMax

def saturatingMul (m n : ℕ) : ℕ := min (m * n) usizeMax

def generatedLosses : List AnnotationKind :=
  [.identity, .capability, .numericPrecision, .numericExactness, .typeTag]

def maxSolvePasses : ℕ := 1000000

section Solve

variable {V : Type}

def TypedNode.fidelityKinds (node : TypedNode V) : List AnnotationKind :=
  (match node.fidelity with
    | some (.structural lost) => lost.lost.toList
    | _ => []) ++
  match node.fidelityAssessment with
  | some (.structural definite possible) =>
    possible.lost.toList ++ (definiteSet definite).toList
  | _ => []

def TypedGraph.fidelityKinds (g : TypedGraph V) : OrdSet AnnotationKind :=
  .ofList (g.nodes.entries.flatMap fun entry => entry.2.fidelityKinds)

def perNodeHeight (existingFidelityKinds : ℕ) : ℕ :=
  let domainHeight := 16
  let repHeight := 16
  let fidelityHeight :=
    saturatingAdd (saturatingAdd existingFidelityKinds generatedLosses.length) 3
  saturatingAdd (saturatingAdd (saturatingAdd domainHeight repHeight)
    (saturatingMul fidelityHeight 2)) 1

def derivedIterationBudget (g : TypedGraph V) : ℕ :=
  max (saturatingAdd (saturatingMul g.nodes.entries.length
    (perNodeHeight g.fidelityKinds.toList.length)) 2) 1

variable [DecidableEq V] [SolverValue V]

/-- At most `appliedPassLimit` passes. The pass before which `n` are left visits `order n`. -/
def solveTypesWithLimits (registry : BackendRegistry) (order : ℕ → List EdgeId)
    (derivedPassBound appliedPassLimit : ℕ) (g : TypedGraph V) :
    Except (SolveFailure V) (TypedGraph V) := do
  validateFidelityAssessments g
  validateDataflowConstraints g
  let exhausted : SolveFailure V := .budgetExhausted {
    completedPasses := appliedPassLimit
    derivedPassBound
    appliedPassLimit
    limitIsBelowDerivedBound := appliedPassLimit < derivedPassBound }
  let (typed, left) ← Chaotic.converge exhausted (propagate registry .typeAndValue) order
    appliedPassLimit (hydrateFidelityAssessments g)
  let (solved, _) ← Chaotic.converge exhausted (propagate registry .fidelity) order left typed
  return solved

def solveTypesInOrder (registry : BackendRegistry) (order : ℕ → List EdgeId) (g : TypedGraph V) :
    Except (SolveFailure V) (TypedGraph V) :=
  solveTypesWithLimits registry order (derivedIterationBudget g)
    (min (derivedIterationBudget g) maxSolvePasses) g

def solveTypes (registry : BackendRegistry) (g : TypedGraph V) :
    Except (SolveFailure V) (TypedGraph V) :=
  solveTypesInOrder registry (fun _ => g.edgeIds) g

end Solve

end Ostadix
