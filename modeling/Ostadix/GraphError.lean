import Ostadix.Kinds

/-! The errors of graph construction and validation, one constructor for each check. -/

namespace Ostadix

inductive GraphError where
  -- registering an operation
  | alreadyExecutable (op : PlanNodeId)
  | repeatedInput (op : PlanNodeId) (node : NodeId)
  | missingInput (op : PlanNodeId) (node : NodeId)
  | repeatedOutput (op : PlanNodeId) (node : NodeId)
  | missingOutput (op : PlanNodeId) (node : NodeId)
  | alreadyProduced (node : NodeId) (producer : Option EdgeId)
  | resolvedOutput (node : NodeId) (op : PlanNodeId)
  | inputAndOutput (node : NodeId) (op : PlanNodeId)
  | valueNotAmongOutputs (node : NodeId) (op : PlanNodeId)
  | missingValueOutput (op : PlanNodeId) (node : NodeId)
  | valueOutputNotOrdinary (node : NodeId) (op : PlanNodeId)
  | ordinaryOutputCount (op : PlanNodeId) (count : ℕ)
  | completionExists (op : PlanNodeId) (node : NodeId)
  | missingSequenceToken (node : NodeId)
  | wrongSequenceToken (predecessor successor : PlanNodeId) (node : NodeId)
  | evidenceExists (op : PlanNodeId) (fact : AdmissionFactKind)
  | noSuchOperation (op : PlanNodeId)
  -- nodes
  | invalidFidelity (node : NodeId) (error : FidelityBoundsError)
  | inconsistentFidelity (node : NodeId)
  | syntheticMetadata (node : NodeId) (kind : HNodeKind)
  | unregisteredCompletion (node : NodeId) (op : PlanNodeId)
  | initialStateProduced (node : NodeId)
  | missingProducerEdge (node : NodeId) (edge : EdgeId)
  | notAnOutputOfProducer (node : NodeId) (edge : EdgeId)
  | repeatedConsumer (node : NodeId) (edge : EdgeId)
  | missingConsumerEdge (node : NodeId) (edge : EdgeId)
  | notAnInputOfConsumer (node : NodeId) (edge : EdgeId)
  | provenanceMissingNode (node : NodeId)
  | provenanceOnToken (node : NodeId) (kind : HNodeKind)
  | missingRoot (node : NodeId)
  | rootNotValue (node : NodeId) (kind : HNodeKind)
  -- shapes of operations
  | operationKey (key got : PlanNodeId)
  | missingEdge (op : PlanNodeId) (edge : EdgeId)
  | edgeMappedTwice (edge : EdgeId)
  | edgeNotExecutable (op : PlanNodeId) (edge : EdgeId)
  | repeatedPort (op : PlanNodeId)
  | overlappingPorts (op : PlanNodeId) (node : NodeId)
  | portsDisagree (op : PlanNodeId) (edge : EdgeId)
  | consumesMissing (op : PlanNodeId) (node : NodeId)
  | inputNeverAvailable (op : PlanNodeId) (node : NodeId)
  | inputLacksConsumer (op : PlanNodeId) (node : NodeId)
  | valueOutputAbsent (op : PlanNodeId) (node : NodeId)
  | wrongValueOutputs (op : PlanNodeId) (node : NodeId) (got : List NodeId)
  | completionCount (op : PlanNodeId) (count : ℕ)
  | completionMap (op : PlanNodeId) (node : NodeId)
  | producesMissing (op : PlanNodeId) (node : NodeId)
  | inconsistentProducer (op : PlanNodeId) (node : NodeId) (producer : Option EdgeId)
  | outputResolved (op : PlanNodeId) (node : NodeId)
  | multipleProducers (node : NodeId) (previous edge : EdgeId)
  | missingSummary (op : PlanNodeId)
  | accessMismatch (op : PlanNodeId) (inputs outputs required writes : List ResourceKey)
  | unmappedEdge (edge : EdgeId)
  | strayCompletion (node : NodeId) (op : PlanNodeId)
  | straySummary (op : PlanNodeId)
  -- semantics of operations
  | notReadWrite (op : PlanNodeId) (resource : ResourceKey)
  | noExecutableSemantics (op : PlanNodeId)
  | evalBackendEffects (op : PlanNodeId)
  | evalBackendActor (op : PlanNodeId) (actor : ActorResourceId)
  | hostedProjectEffects (op : PlanNodeId) (mustSpawn : Bool)
  | buildRouteEffects (op : PlanNodeId)
  | selectRouteEffects (op : PlanNodeId)
  | compareRouteEffects (op : PlanNodeId)
  | readShape (op : PlanNodeId) (resource : ResourceKey) (inputs outputs : ℕ)
  | writeShape (op : PlanNodeId) (resource : ResourceKey) (inputs outputs : ℕ)
  | writeVersion (op : PlanNodeId) (resource : ResourceKey) (before after : ℕ)
  -- resource chains
  | duplicateVersion (resource : ResourceKey) (version : ℕ) (first second : NodeId)
  | versionUnproduced (resource : ResourceKey) (version : ℕ) (node : NodeId)
  | versionProducerUnknown (resource : ResourceKey) (version : ℕ) (edge : EdgeId)
  | versionPredecessor (resource : ResourceKey) (version : ℕ) (op : PlanNodeId)
  | versionSkipped (resource : ResourceKey) (version : ℕ)
  -- recorded sequences
  | sequencePredecessorMissing (op : PlanNodeId)
  | sequenceSuccessorMissing (op : PlanNodeId)
  | sequenceTokenMissing (predecessor successor : PlanNodeId) (node : NodeId)
  | sequenceNotImplemented (predecessor successor : PlanNodeId) (node : NodeId)
  -- agreement with the source plan
  | plan (error : PlanError)
  | effect (error : EffectError)
  | valueWithoutPlanNode (node : NodeId)
  | valuePlanNodeOutOfBounds (node : NodeId) (op : PlanNodeId)
  | multipleValues (op : PlanNodeId) (previous node : NodeId)
  | valueWithoutProvenance (node : NodeId) (op : PlanNodeId)
  | projectionCounts (planNodes values provenance : ℕ)
  | rootsDiffer (got expected : List NodeId)
  | literalNotMaterialized (op : PlanNodeId)
  | operationMissing (op : PlanNodeId)
  | wrongValueNode (op : PlanNodeId) (got expected : NodeId)
  | wrongSemantics (op : PlanNodeId) (got : HEdgeKind) (source : PlanNodeKind)
  | wrongSummary (op : PlanNodeId)
  | wrongValueInputs (op : PlanNodeId) (got expected : List NodeId)
  | sequenceWithoutCompletion (predecessor target : PlanNodeId)
  | sequenceInputMissing (predecessor target : PlanNodeId) (node : NodeId)
  | sequencesRepeated
  | sequencesDiffer (got expected : List (PlanNodeId × PlanNodeId))
  | manyInitialStates (resource : ResourceKey)
  | noRecordedOir (op : PlanNodeId)
  | noCompletion (op : PlanNodeId)
  | noInitialState (resource : ResourceKey)
  | staleState (op : PlanNodeId) (resource : ResourceKey) (node : NodeId)
  | openReaderOmitted (op : PlanNodeId) (resource : ResourceKey) (node : NodeId)
  | versionNotProduced (op : PlanNodeId) (resource : ResourceKey) (version : ℕ)
  -- lowering
  | nodeSemantics
  | programRoots
  | flattenCount (flattened planNodes : ℕ)
  | loweringWithoutSummary (op : PlanNodeId)
  | loweringWithoutCompletion (op : PlanNodeId)
  | predecessorWithoutCompletion (op : PlanNodeId)
  -- an index that is absent from a table of the lowering, where the source would panic
  | unmapped (op : PlanNodeId)
  -- acyclicity
  | producerWithoutOperation (op : PlanNodeId) (node : NodeId) (edge : EdgeId)
  | cyclic (scheduled total : ℕ)
  -- admission
  | evidenceCount (got expected : ℕ)
  | evidenceMissing (op : PlanNodeId) (fact : AdmissionFactKind)
  | evidenceNodeMissing (node : NodeId)
  | evidenceInvalid (op : PlanNodeId) (fact : AdmissionFactKind) (node : NodeId)
  | evidenceUnregistered (node : NodeId) (op : PlanNodeId)

end Ostadix
