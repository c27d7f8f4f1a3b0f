import Ostadix.ProjectReach

/-! The coordinator for the policies that run serially: it starts one ready operation at a time,
until the selected result is there or nothing is ready. -/

namespace Ostadix.Project

open List

/-! ## Runtime values -/

inductive ProjectExecutionContract where
  | strict
  | legacyCompatibility
  deriving DecidableEq, Repr

structure ProjectHGraph where
  plan : ProjectExecutionPlan
  graph : HGraph
  executionContract : ProjectExecutionContract

structure ExecutionResult where
  exitCode : Option ℤ
  artifactsComplete : Bool
  /-- A guard stopped the route before anything was launched. -/
  guardSkipped : Bool
  deriving DecidableEq, Repr

def ExecutionResult.succeeded (result : ExecutionResult) : Bool :=
  result.exitCode = some 0 && result.artifactsComplete

inductive ProjectRuntimeValue where
  | workspace (branch : ℕ)
  | preparedRoute (branch : ℕ) (routeId : String)
  | routeResult (result : ExecutionResult)
  | selectedResult (result : ExecutionResult)
  deriving DecidableEq, Repr

inductive ProjectAttemptState where
  | ready | started | finished | settledSuccess | settledFailure | skipped | aborted
  deriving DecidableEq, Repr

structure ProjectAttemptEvent where
  planNode : PlanNodeId
  state : ProjectAttemptState
  deriving DecidableEq, Repr

structure BranchRouteAssessment where
  routeId : String
  executed : Bool
  failureContinuation : RouteFailureContinuation
  deriving DecidableEq, Repr

inductive SettledRouteStatus where
  | succeeded | nonZero | skipped
  deriving DecidableEq, Repr

inductive OperationResult where
  | finished (value : ProjectRuntimeValue) (workspace : Option ℕ)
  | route (status : SettledRouteStatus) (result : ExecutionResult)
  | aborted

/-- What the host does: make workspaces, prepare routes, and what a route gives. -/
structure Behaviour where
  materialize : ℕ → Bool
  prepare : PlanNodeId → Bool
  runRoute : PlanNodeId → Option ExecutionResult

/-- The operations that have not been started, what has been published, and the trace so far. -/
structure Coordinator where
  pending : List PlanNodeId
  materialized : List NodeId
  values : Table NodeId ProjectRuntimeValue
  workspaces : List ℕ
  branchAssessments : Table ℕ (List BranchRouteAssessment)
  continuationDenied : Bool
  trace : List ProjectAttemptEvent

/-! ## Launch order -/

/-- Whether an output of the first operation is an input of the second. -/
def feedsInto (g : HGraph) (a b : PlanNodeId) : Bool :=
  (g.opFor a).any fun source => (g.opFor b).any fun target =>
    source.outputs.any fun id => id ∈ target.inputs

/-- Each wave holds what only waits for earlier waves. -/
def waves (blocks : PlanNodeId → PlanNodeId → Bool) : ℕ → List PlanNodeId → List PlanNodeId
  | 0, _ => []
  | fuel + 1, rest =>
    let wave := rest.filter fun i => rest.all fun j => j = i || !blocks j i
    wave ++ waves blocks fuel (rest.filter fun i => i ∉ wave)

def launchOrder (project : ProjectHGraph) : List PlanNodeId :=
  let ops := List.range project.plan.operations.length
  waves (feedsInto project.graph) ops.length ops

/-! ## Readiness -/

def inputPolicy : ExecutableOp → ReadyInputPolicy
  | .selectRoute policy =>
    if policy = "fallback" ∨ policy = "any_success" then .orderedFirstSuccess else .all
  | _ => .all

def usesOrderedFirstSuccess (project : ProjectHGraph) : Bool :=
  project.plan.policy = .fallback || project.plan.policy = .anySuccess

def isSelectRoute : ExecutableOp → Bool
  | .selectRoute _ => true
  | _ => false

def inputsOf (g : HGraph) (p : PlanNodeId) : List NodeId :=
  ((g.opFor p).map ExecInfo.inputs).getD []

namespace Coordinator

variable (project : ProjectHGraph)

def new : Coordinator where
  pending := List.range project.plan.operations.length
  materialized := project.graph.nodes.entries.filterMap fun entry =>
    if entry.2.state = .materialized then some entry.1 else none
  values := ∅
  workspaces := []
  branchAssessments := ∅
  continuationDenied := false
  trace := []

variable (c : Coordinator)

def routeResultForNode (node : NodeId) : Option ExecutionResult :=
  match c.values.lookup node with
  | some (.routeResult result) => some result
  | _ => none

/-- Results are there up to the first success, or for every alternative. -/
def orderedSelectionIsReady (c : Coordinator) : List NodeId → Bool → Bool
  | [], sawResult => sawResult
  | input :: rest, _ =>
    match c.routeResultForNode input with
    | none => false
    | some result => result.succeeded || c.orderedSelectionIsReady rest true

def selectionHasSuccess (inputs : List NodeId) : Bool :=
  inputs.any fun input => (c.routeResultForNode input).any ExecutionResult.succeeded

def operationIsReady (p : PlanNodeId) : Bool :=
  match project.plan.operations[p]? with
  | none => false
  | some operation =>
    match inputPolicy operation.op with
    | .orderedFirstSuccess =>
      usesOrderedFirstSuccess project && isSelectRoute operation.op &&
        (c.continuationDenied || c.orderedSelectionIsReady (inputsOf project.graph p) false)
    | .all => (inputsOf project.graph p).all fun input => input ∈ c.materialized

/-- A selection that must settle goes before everything else. -/
def operationPriority (p : PlanNodeId) : ℕ :=
  match project.plan.operations[p]? with
  | none => 1
  | some operation =>
    if inputPolicy operation.op = .orderedFirstSuccess ∧ usesOrderedFirstSuccess project ∧
        isSelectRoute operation.op ∧
        (c.continuationDenied ∨ c.selectionHasSuccess (inputsOf project.graph p)) then 0
    else 1

def launchKey (p : PlanNodeId) : List ℕ :=
  [c.operationPriority project p, (launchOrder project).idxOf p, p]

def minByKey (key : PlanNodeId → List ℕ) : List PlanNodeId → Option PlanNodeId
  | [] => none
  | p :: rest =>
    match minByKey key rest with
    | none => some p
    | some q => if key q < key p then some q else some p

def next : Option PlanNodeId :=
  minByKey (c.launchKey project) (c.pending.filter (c.operationIsReady project))

def rootIsMaterialized : Bool :=
  project.graph.rootNodes.head?.any fun root => root ∈ c.materialized

/-! ## Execution -/

def valueForOperation (p : PlanNodeId) : Option ProjectRuntimeValue :=
  (project.graph.opFor p).bind fun info => c.values.lookup info.valueOutput

/-- The results up to the first success, or to a missing one whose continuation was denied. -/
def attemptedResults (c : Coordinator) (ordered : Bool) :
    List NodeId → List ExecutionResult → Option (List ExecutionResult)
  | [], attempted => some attempted
  | input :: rest, attempted =>
    match c.routeResultForNode input with
    | none =>
      if ordered && (c.continuationDenied || attempted.any ExecutionResult.succeeded) then
        some attempted
      else none
    | some result =>
      if ordered && result.succeeded then some (attempted ++ [result])
      else c.attemptedResults ordered rest (attempted ++ [result])

def selectResults (inputs : List NodeId) : Option ExecutionResult :=
  match project.plan.policy with
  | .fallback | .anySuccess => (c.attemptedResults true inputs []).bind List.getLast?
  | .explicit _ | .default =>
    if inputs.length = 1 then (c.attemptedResults false inputs []).bind List.getLast? else none
  | .all => (inputs.filterMap c.routeResultForNode).getLast?
  -- These policies run routes in parallel, which is not modelled.
  | .raceSuccess | .raceSettle | .verifyEquivalent | .benchmarkAndSelect
  | .benchmarkValidateAndSelect => none

def prepareRoute (behaviour : Behaviour) (c : Coordinator) (operation : ProjectPlanOperation)
    (routeId : String) : OperationResult :=
  match operation.branch, operation.dependencies with
  | some branch, .value materialize :: _ =>
    if c.valueForOperation project materialize = some (.workspace branch) ∧
        branch ∈ c.workspaces ∧ behaviour.prepare operation.id then
      .finished (.preparedRoute branch routeId) none
    else .aborted
  | _, _ => .aborted

/-- A route that was skipped is not counted as successful, whatever its result says. -/
def routeSettlement (result : ExecutionResult) : OperationResult :=
  if result.guardSkipped then .route .skipped result
  else if result.succeeded then .route .succeeded result
  else .route .nonZero result

def executePreparedRoute (behaviour : Behaviour) (c : Coordinator)
    (operation : ProjectPlanOperation) (routeId : String) : OperationResult :=
  match operation.branch, operation.dependencies with
  | some branch, .value build :: _ =>
    if c.valueForOperation project build = some (.preparedRoute branch routeId) ∧
        branch ∈ c.workspaces then
      match behaviour.runRoute operation.id with
      | some result => routeSettlement result
      | none => .aborted
    else .aborted
  | _, _ => .aborted

def materializeProject (behaviour : Behaviour) (c : Coordinator)
    (operation : ProjectPlanOperation) : OperationResult :=
  match operation.branch with
  | some branch =>
    if branch ∉ c.workspaces ∧ behaviour.materialize branch then
      .finished (.workspace branch) (some branch)
    else .aborted
  | none => .aborted

def executeOperation (behaviour : Behaviour) (c : Coordinator) (operation : ProjectPlanOperation)
    (inputs : List NodeId) : OperationResult :=
  match operation.op with
  | .materializeProject => c.materializeProject behaviour operation
  | .buildRoute routeId => c.prepareRoute project behaviour operation routeId
  | .runRoute routeId => c.executePreparedRoute project behaviour operation routeId
  | .selectRoute _ =>
    match c.selectResults project inputs with
    | some result => .finished (.selectedResult result) none
    | none => .aborted
  | _ => .aborted

/-! ## Commits -/

def record (p : PlanNodeId) (state : ProjectAttemptState) : Coordinator :=
  { c with trace := c.trace ++ [⟨p, state⟩] }

def commitFinished (p : PlanNodeId) (info : ExecInfo) (value : ProjectRuntimeValue)
    (workspace : Option ℕ) : Coordinator :=
  { c.record p .finished with
    values := c.values.insert info.valueOutput value
    workspaces := workspace.toList ++ c.workspaces
    materialized := c.materialized ++ info.outputs }

/-- An abort publishes nothing. -/
def commitAbort (p : PlanNodeId) : Coordinator := c.record p .aborted

/-- A route that failed still advances the resources it may have changed. -/
def publishes (status : SettledRouteStatus) : HNodeKind → Bool
  | .value | .resourceState _ _ => true
  | .completion _ | .branchControl _ _ => status ≠ .nonZero
  | .admissionEvidence _ _ => false

inductive ProjectContinuationEvidence where
  | noExecution | declaredIdempotent | legacyUnchecked | unprovenEffects
  deriving DecidableEq, Repr

def continuationEvidence (contract : ProjectExecutionContract)
    (assessments : List BranchRouteAssessment) : ProjectContinuationEvidence :=
  if assessments.all fun entry => !entry.executed then .noExecution
  else if (assessments.filter BranchRouteAssessment.executed).all fun entry =>
      entry.failureContinuation = .declaredIdempotent then .declaredIdempotent
  else if contract = .legacyCompatibility then .legacyUnchecked
  else .unprovenEffects

/-- Whether the next alternative may not be tried after this one settled unsuccessfully. -/
def deniesContinuation (branch : ℕ) (routeId : String) (status : SettledRouteStatus)
    (assessments : List BranchRouteAssessment) : Bool :=
  status ≠ .succeeded && usesOrderedFirstSuccess project &&
    project.plan.alternatives[branch]? = some routeId &&
    (project.plan.alternatives[branch + 1]?).isSome &&
    continuationEvidence project.executionContract assessments = .unprovenEffects

def settledState : SettledRouteStatus → ProjectAttemptState
  | .succeeded => .settledSuccess
  | .nonZero => .settledFailure
  | .skipped => .skipped

def commitRouteSettlement (operation : ProjectPlanOperation) (info : ExecInfo)
    (status : SettledRouteStatus) (result : ExecutionResult) : Coordinator :=
  match operation.branch, operation.op, operation.routeFacts with
  | some branch, .runRoute routeId, some facts =>
    let assessments := (c.branchAssessments.lookup branch).getD [] ++
      [⟨routeId, status ≠ .skipped, facts.failureContinuation⟩]
    { c.record operation.id (settledState status) with
      values := c.values.insert info.valueOutput (.routeResult result)
      branchAssessments := c.branchAssessments.insert branch assessments
      materialized := c.materialized ++ info.outputs.filter fun id =>
        (project.graph.kindOf id).any (publishes status)
      continuationDenied := c.continuationDenied ||
        deniesContinuation project branch routeId status assessments }
  -- Only routes settle.
  | _, _, _ => c

def perform (behaviour : Behaviour) (c : Coordinator) (p : PlanNodeId) : Coordinator :=
  match project.plan.operations[p]?, project.graph.opFor p with
  | some operation, some info =>
    let started := ({ c with pending := c.pending.erase p }.record p .ready).record p .started
    match started.executeOperation project behaviour operation info.inputs with
    | .finished value workspace => started.commitFinished p info value workspace
    | .route status result => started.commitRouteSettlement project operation info status result
    | .aborted => started.commitAbort p
  | _, _ => c

/-- The coordinator is about to start the operation. -/
def Starts (p : PlanNodeId) : Prop :=
  c.rootIsMaterialized project = false ∧ c.next project = some p

instance (project : ProjectHGraph) (c : Coordinator) (p : PlanNodeId) :
    Decidable (c.Starts project p) :=
  inferInstanceAs (Decidable (_ ∧ _))

/-- Start the next operation, if there is one to start. -/
def advance (behaviour : Behaviour) (c : Coordinator) : Coordinator :=
  if c.rootIsMaterialized project then c
  else match c.next project with
    | none => c
    | some p => c.perform project behaviour p

def run (behaviour : Behaviour) (n : ℕ) : Coordinator :=
  (advance project behaviour)^[n] (new project)

/-! ## Starts along a run -/

def started (c : Coordinator) : List PlanNodeId :=
  (c.trace.filter fun event => event.state = .started).map (·.planNode)

/-- The chosen element is one of the list, and no other has a smaller key. -/
lemma minByKey_spec {key : PlanNodeId → List ℕ} {l : List PlanNodeId} :
    ∀ p ∈ minByKey key l, p ∈ l ∧ ∀ q ∈ l, key p ≤ key q := by
  induction l with
  | nil => simp [minByKey]
  | cons r rest ih =>
    have hnone : minByKey key rest = none → rest = [] := by
      cases rest <;> grind [minByKey]
    rw [minByKey]
    split
    · next h => simp [hnone h]
    · next s h =>
      obtain ⟨hmem, hleast⟩ := ih s h
      split
      · next hlt => simp_all [hlt.le]
      · next hge =>
        have hall : ∀ q ∈ rest, key r ≤ key q := fun q hq => (not_lt.1 hge).trans (hleast q hq)
        simpa using hall

variable {project : ProjectHGraph} {c : Coordinator} {p : PlanNodeId}

lemma next_spec (h : c.next project = some p) :
    p ∈ c.pending ∧ c.operationIsReady project p = true :=
  mem_filter.1 (minByKey_spec p h).1

/-- What is kept by every operation that is started is kept along a run. -/
lemma iterate_advance {P : Coordinator → Prop} {behaviour : Behaviour}
    (hstep : ∀ c p, P c → c.next project = some p → P (c.perform project behaviour p))
    (h : P c) (n : ℕ) : P ((advance project behaviour)^[n] c) := by
  induction n with
  | zero => exact h
  | succ n ih =>
    rw [Function.iterate_succ_apply', advance]
    split
    · exact ih
    · split
      · exact ih
      · next p hnext => exact hstep _ p ih hnext

/-! ## What a run has published -/

/-- Whether an operation with this outcome publishes an output of the kind. -/
def outcomePublishes (kind : Option HNodeKind) : ProjectAttemptState → Bool
  | .finished => true
  | .settledSuccess => kind.any (publishes .succeeded)
  | .settledFailure => kind.any (publishes .nonZero)
  | .skipped => kind.any (publishes .skipped)
  | .ready | .started | .aborted => false

/-- The trace has an outcome of the operation after which the node is published. -/
def Yields (project : ProjectHGraph) (c : Coordinator) (p : PlanNodeId) (id : NodeId) : Prop :=
  ∃ event ∈ c.trace, event.planNode = p ∧
    outcomePublishes (project.graph.kindOf id) event.state = true

def WaitsForAll (project : ProjectHGraph) (p : PlanNodeId) : Prop :=
  ∃ operation, project.plan.operations[p]? = some operation ∧ inputPolicy operation.op = .all

def HasInputs (project : ProjectHGraph) (c : Coordinator) (p : PlanNodeId) : Prop :=
  WaitsForAll project p → ∀ id ∈ inputsOf project.graph p, id ∈ c.materialized

lemma hasInputs_of_ready (h : c.operationIsReady project p = true) : HasInputs project c p := by
  rintro ⟨operation, hop, hall⟩
  simpa [operationIsReady, hop, hall] using h

/-- What starting an operation does. -/
structure Performs (project : ProjectHGraph) (p : PlanNodeId) (info : ExecInfo)
    (c c' : Coordinator) : Prop where
  pending : c'.pending = c.pending.erase p
  started : c'.started = c.started ++ [p]
  trace : c.trace <+: c'.trace
  grows : c.materialized <+: c'.materialized
  materialized : ∀ id ∈ c'.materialized, id ∉ c.materialized →
    id ∈ info.outputs ∧ Yields project c' p id

lemma performs_perform (behaviour : Behaviour) (c : Coordinator) {operation : ProjectPlanOperation}
    {info : ExecInfo} (hop : project.plan.operations[p]? = some operation)
    (hid : operation.id = p) (hinfo : project.graph.opFor p = some info) :
    Performs project p info c (c.perform project behaviour p) := by
  unfold perform
  rw [hop, hinfo]
  dsimp only
  split
  · refine ⟨rfl, by simp [commitFinished, record, started], by simp [commitFinished, record],
      by simp [commitFinished, record], fun id hmem hnew => ?_⟩
    refine ⟨by simpa [commitFinished, record, hnew] using hmem, ⟨p, .finished⟩, ?_, rfl, rfl⟩
    simp [commitFinished, record]
  · next status result _ =>
    unfold commitRouteSettlement
    split
    · refine ⟨rfl, by cases status <;> simp [record, started, settledState], by simp [record],
        by simp [record], fun id hmem hnew => ?_⟩
      have hout : id ∈ info.outputs ∧ (project.graph.kindOf id).any (publishes status) = true := by
        simpa [record, hnew] using hmem
      refine ⟨hout.1, ⟨p, settledState status⟩, by simp [record, hid], rfl, ?_⟩
      cases status <;> exact hout.2
    · exact ⟨rfl, by simp [record, started], by simp [record], prefix_rfl,
        fun id hmem hnew => absurd hmem hnew⟩
  · exact ⟨rfl, by simp [commitAbort, record, started], by simp [commitAbort, record], prefix_rfl,
      fun id hmem hnew => absurd hmem hnew⟩

/-- Nothing was started twice, what was started had its inputs, and what is there of an operation's
outputs was published by that operation. -/
structure Accounted (project : ProjectHGraph) (c : Coordinator) : Prop where
  pending : c.pending.Nodup
  started : c.started.Nodup
  apart : ∀ p ∈ c.started, p ∉ c.pending
  awaited : ∀ p ∈ c.started, HasInputs project c p
  published : ∀ id ∈ c.materialized, ∀ p, project.graph.IsOutputOf id p →
    p ∈ c.started ∧ Yields project c p id

lemma Accounted.perform {behaviour : Behaviour} (hindexed : Indexed project.plan.operations)
    (hshaped : project.graph.OperationsShaped) (h : Accounted project c)
    (hnext : c.next project = some p) :
    Accounted project (c.perform project behaviour p) := by
  rcases hop : project.plan.operations[p]? with _ | operation
  · rwa [Coordinator.perform, hop]
  rcases hinfo : project.graph.opFor p with _ | info
  · rwa [Coordinator.perform, hop, hinfo]
  have hstep := performs_perform behaviour c hop (hindexed p operation hop) hinfo
  have hstarted : ∀ q, q ∈ (c.perform project behaviour p).started ↔ q ∈ c.started ∨ q = p := by
    simp [hstep.started]
  obtain ⟨hpending, hready⟩ := next_spec hnext
  refine ⟨?_, ?_, fun q hq => ?_, fun q hq hall id hid => ?_, fun id hid q hout => ?_⟩
  · rw [hstep.pending]
    exact h.pending.erase p
  · rw [hstep.started, nodup_append_comm, singleton_append, nodup_cons]
    exact ⟨fun hp => h.apart p hp hpending, h.started⟩
  · rw [hstep.pending, h.pending.mem_erase_iff]
    rcases (hstarted q).1 hq with hq | rfl
    · exact fun hmem => h.apart q hq hmem.2
    · exact fun hmem => hmem.1 rfl
  · apply hstep.grows.subset
    rcases (hstarted q).1 hq with hq | rfl
    · exact h.awaited q hq hall id hid
    · exact hasInputs_of_ready hready hall id hid
  · by_cases hold : id ∈ c.materialized
    · obtain ⟨hq, event, hevent, hyields⟩ := h.published id hold q hout
      exact ⟨(hstarted q).2 (.inl hq), event, hstep.trace.subset hevent, hyields⟩
    · obtain ⟨hmem, hyields⟩ := hstep.materialized id hid hold
      obtain ⟨info', hinfo', hmem'⟩ := hout
      cases (hshaped.producerOf hinfo hmem).symm.trans (hshaped.producerOf hinfo' hmem')
      exact ⟨(hstarted p).2 (.inr rfl), hyields⟩

lemma not_initial_of_isOutputOf (h : project.graph.OperationsShaped) {id : NodeId}
    (hout : project.graph.IsOutputOf id p) : id ∉ (new project).materialized := by
  obtain ⟨info, hinfo, hid⟩ := hout
  obtain ⟨edge, -, hshaped⟩ := h.shaped p info hinfo
  obtain ⟨node, hnode, -, hstate⟩ := hshaped.outputs id hid
  intro hmem
  obtain ⟨entry, hentry, hsome⟩ := mem_filterMap.1 hmem
  split at hsome
  · next hmaterialized =>
    cases hsome
    cases hnode.symm.trans (Table.mem_entries.1 hentry)
    cases hstate.symm.trans hmaterialized
  · cases hsome

/-- `b` starts only with all its inputs, and one of them is an output of `a`. -/
def Awaits (project : ProjectHGraph) (a b : PlanNodeId) : Prop :=
  WaitsForAll project b ∧ Feeds project.graph a b

/-- The operations that led to one with its inputs were all started, and they settled. -/
lemma Accounted.yields_of_awaits (h : Accounted project c) {a b : PlanNodeId}
    (hab : Relation.TransGen (Awaits project) a b) (hinputs : HasInputs project c b) :
    ∃ id, Yields project c a id := by
  have hfed : ∀ {a b}, HasInputs project c b → Awaits project a b →
      a ∈ c.started ∧ ∃ id, Yields project c a id := by
    rintro a b hinputs ⟨hall, id, hout, info, hinfo, hid⟩
    have hmem : id ∈ inputsOf project.graph b := by
      rw [inputsOf, hinfo]
      exact hid
    obtain ⟨hstarted, hyields⟩ := h.published id (hinputs hall id hmem) a hout
    exact ⟨hstarted, id, hyields⟩
  induction hab with
  | single hab => exact (hfed hinputs hab).2
  | tail _ hbc ih => exact ih (h.awaited _ (hfed hinputs hbc).1)

section Planned

variable {checks : Checks} {bundle : ProjectBundle} {target : Option String}
  {policyOverride : Option RoutePolicy} {scheduling : ProjectSchedulingContract}
  {plan : ProjectExecutionPlan} {g : HGraph}

lemma shaped_of_toHgraph (h : toHgraph checks plan = .ok g) : g.OperationsShaped := by
  simp only [toHgraph, HGraph.validateExecutionGraph, bind_eq_ok, mapError_eq_ok] at h
  obtain ⟨⟨⟩, -, graph, -, ⟨⟩, ⟨⟨⟩, -, ⟨⟩, hshapes, -⟩, ⟨⟩, -, heq⟩ := h
  cases heq
  exact HGraph.validateOperationShapes_eq_ok.1 hshapes

variable
  (hplan : fromBundleWithScheduling checks bundle target policyOverride scheduling = .ok plan)
  (hgraph : toHgraph checks plan = .ok g)

include hplan hgraph

lemma accounted_run (contract : ProjectExecutionContract) (behaviour : Behaviour) (n : ℕ) :
    Accounted ⟨plan, g, contract⟩ (run ⟨plan, g, contract⟩ behaviour n) := by
  have hshaped := shaped_of_toHgraph hgraph
  refine iterate_advance (fun c p h => h.perform (closedBranch_of_fromBundle hplan).1 hshaped)
    ⟨nodup_range, nodup_nil, fun p hp => ?_, fun p hp => ?_,
      fun id hid p hout => absurd hid (not_initial_of_isOutputOf hshaped hout)⟩ n
  · cases hp
  · cases hp

/-- No operation is started twice, and nothing is published twice: what an operation that is about
to start may publish is not there yet, whatever was done before. -/
theorem outputs_unpublished (contract : ProjectExecutionContract) (behaviour : Behaviour) (n : ℕ) :
    let c := run ⟨plan, g, contract⟩ behaviour n
    c.started.Nodup ∧ ∀ p, c.Starts ⟨plan, g, contract⟩ p →
      p ∉ c.started ∧ ∀ id, g.IsOutputOf id p → id ∉ c.materialized := by
  intro c
  have hc : Accounted ⟨plan, g, contract⟩ c := accounted_run hplan hgraph contract behaviour n
  refine ⟨hc.started, fun p hstarts => ?_⟩
  have hnew : p ∉ c.started := fun hp => hc.apart p hp (next_spec hstarts.2).1
  exact ⟨hnew, fun id hout hid => hnew (hc.published id hid p hout).1⟩

/-- An operation starts only after everything that it awaits has settled, and after each input was
published: a route that failed lets nothing start that takes its completion. -/
theorem settled_before_start (contract : ProjectExecutionContract) (behaviour : Behaviour) (n : ℕ)
    (a b : PlanNodeId) :
    let project : ProjectHGraph := ⟨plan, g, contract⟩
    let c := run project behaviour n
    c.Starts project b → Relation.TransGen (Awaits project) a b →
      (∃ event ∈ c.trace, event.planNode = a ∧
        event.state ∈ [.finished, .settledSuccess, .settledFailure, .skipped]) ∧
      ∀ id ∈ inputsOf g b, g.IsOutputOf id a → g.kindOf id = some (.completion a) →
        ∃ event ∈ c.trace, event.planNode = a ∧
          event.state ∈ [.finished, .settledSuccess, .skipped] := by
  intro project c hstarts hab
  have hc : Accounted project c := accounted_run hplan hgraph contract behaviour n
  have hinputs := hasInputs_of_ready (next_spec hstarts.2).2
  constructor
  · obtain ⟨id, event, hevent, hnode, hpublishes⟩ := hc.yields_of_awaits hab hinputs
    refine ⟨event, hevent, hnode, ?_⟩
    cases hstate : event.state <;> simp [outcomePublishes, hstate] at hpublishes ⊢
  intro id hid hout hkind
  obtain ⟨_, -, hall, -⟩ := Relation.TransGen.tail'_iff.1 hab
  obtain ⟨-, event, hevent, hnode, hpublishes⟩ := hc.published id (hinputs hall id hid) a hout
  refine ⟨event, hevent, hnode, ?_⟩
  change outcomePublishes (g.kindOf id) event.state = true at hpublishes
  cases hstate : event.state <;>
    simp [outcomePublishes, hstate, hkind, publishes] at hpublishes ⊢

end Planned

/-- A denial is never taken back. -/
lemma perform_continuationDenied {behaviour : Behaviour} (h : c.continuationDenied = true) :
    (c.perform project behaviour p).continuationDenied = true := by
  unfold perform
  split
  · dsimp only
    split
    · exact h
    · unfold commitRouteSettlement
      split
      · simp [record, h]
      · exact h
    · exact h
  · exact h

/-- Once the next alternative may not be tried, from then on only a selection starts while one is
pending. -/
theorem denied_starts_selection (behaviour : Behaviour) (n : ℕ)
    (huses : usesOrderedFirstSuccess project = true) {s : PlanNodeId}
    (hs : s ∈ ((advance project behaviour)^[n] c).pending) {operation : ProjectPlanOperation}
    (hop : project.plan.operations[s]? = some operation)
    (hordered : inputPolicy operation.op = .orderedFirstSuccess)
    (hdenied : c.continuationDenied = true)
    (hstarts : ((advance project behaviour)^[n] c).Starts project p) :
    ∃ operation', project.plan.operations[p]? = some operation' ∧
      inputPolicy operation'.op = .orderedFirstSuccess := by
  have hdenied : ((advance project behaviour)^[n] c).continuationDenied = true :=
    iterate_advance (P := (·.continuationDenied = true))
      (fun _ _ h _ => perform_continuationDenied h) hdenied n
  generalize (advance project behaviour)^[n] c = c at hs hdenied hstarts
  have hselect : isSelectRoute operation.op = true := by
    cases h : operation.op <;> simp [h, inputPolicy, isSelectRoute] at hordered ⊢
  have hready : c.operationIsReady project s = true := by
    simp [operationIsReady, hop, hordered, huses, hselect, hdenied]
  have hfirst : c.operationPriority project s = 0 := by
    simp [operationPriority, hop, hordered, huses, hselect, hdenied]
  have hle := (minByKey_spec p hstarts.2).2 s (mem_filter.2 ⟨hs, hready⟩)
  have hzero : c.operationPriority project p = 0 := by
    by_contra hne
    refine hle.not_gt ?_
    rw [launchKey, launchKey, hfirst, cons_lt_cons_iff]
    exact .inl (Nat.pos_of_ne_zero hne)
  unfold operationPriority at hzero
  split at hzero
  · cases hzero
  · next operation' hop' =>
    split at hzero
    · next h => exact ⟨operation', hop', h.1⟩
    · cases hzero

/-! ## A run of the sample plan -/

def sampleGraph : HGraph := (toHgraph sampleChecks samplePlan).toOption.getD .empty

abbrev sampleProject : ProjectHGraph := ⟨samplePlan, sampleGraph, .strict⟩

/-- The host does what it is asked; the first alternative exits with the code. -/
def sampleBehaviour (code : ℤ) : Behaviour :=
  ⟨fun _ => true, fun _ => true, fun p => some ⟨some (if p = 4 then code else 0), true, false⟩⟩

lemma fromBundle_sample : fromBundleWithScheduling sampleChecks sampleBundle (some "either") none
    .serialHostWorldV1 = .ok samplePlan := rfl

lemma toHgraph_sample : toHgraph sampleChecks samplePlan = .ok sampleGraph := by
  have hok : (toHgraph sampleChecks samplePlan).toOption.isSome = true := by decide +kernel
  unfold sampleGraph
  cases hgraph : toHgraph sampleChecks samplePlan with
  | error error =>
    rw [hgraph] at hok
    cases hok
  | ok g => rfl

lemma starts_sample : (run sampleProject (sampleBehaviour 0) 4).Starts sampleProject 4 := by
  decide +kernel

theorem outputs_unpublished_sample : 4 ∉ (run sampleProject (sampleBehaviour 0) 4).started :=
  ((outputs_unpublished fromBundle_sample toHgraph_sample .strict (sampleBehaviour 0) 4).2 4
    starts_sample).1

theorem settled_before_start_sample :
    ∃ event ∈ (run sampleProject (sampleBehaviour 0) 4).trace, event.planNode = 2 ∧
      event.state ∈ [.finished, .settledSuccess, .settledFailure, .skipped] := by
  have hfed : feedsInto sampleGraph 2 4 = true := by decide +kernel
  have hfeeds : Feeds sampleProject.graph 2 4 := by
    simp only [feedsInto, Option.any_eq_true, any_eq_true, decide_eq_true_eq] at hfed
    obtain ⟨info, hinfo, info', hinfo', id, hout, hid⟩ := hfed
    exact ⟨id, ⟨info, hinfo, hout⟩, info', hinfo', hid⟩
  have hawaits : Awaits sampleProject 2 4 := ⟨⟨_, rfl, rfl⟩, hfeeds⟩
  exact (settled_before_start fromBundle_sample toHgraph_sample .strict (sampleBehaviour 0) 4 2 4
    starts_sample (.single hawaits)).1

theorem denied_starts_selection_sample :
    ∃ operation, samplePlan.operations[10]? = some operation ∧
      inputPolicy operation.op = .orderedFirstSuccess :=
  @denied_starts_selection sampleProject (run sampleProject (sampleBehaviour 1) 5) 10
    (sampleBehaviour 1) 0 rfl 10 (by decide +kernel) _ rfl rfl (by decide +kernel)
    (by decide +kernel)

end Coordinator

end Ostadix.Project
