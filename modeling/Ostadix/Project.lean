import Ostadix.Lowering
import Mathlib.Data.List.Sort

/-! Planning of a project: which alternatives are selected, and which routes are built and run for
each. -/

namespace Ostadix.Project

open Text EffectSummary

inductive ProjectError where
  | refused (text : String)
  | graph (error : GraphError)
  /-- The recursion of the planner would not end. -/
  | diverges

/-! ## Bundles -/

inductive RoutePolicy where
  | explicit (id : String)
  | default
  | fallback
  | anySuccess
  | raceSuccess
  | raceSettle
  | all
  | verifyEquivalent
  | benchmarkAndSelect
  | benchmarkValidateAndSelect
  deriving DecidableEq, Repr

namespace RoutePolicy

def requiresDeclaredOutputValidation : RoutePolicy → Bool
  | .verifyEquivalent | .benchmarkValidateAndSelect => true
  | _ => false

def token : RoutePolicy → String
  | .explicit id => if id = "" then "explicit" else s!"explicit:{id}"
  | .default => "default"
  | .fallback => "fallback"
  | .anySuccess => "any_success"
  | .raceSuccess => "race_success"
  | .raceSettle => "race_settle"
  | .all => "all"
  | .verifyEquivalent => "verify_equivalent"
  | .benchmarkAndSelect => "benchmark_and_select"
  | .benchmarkValidateAndSelect => "benchmark_validate_and_select"

end RoutePolicy

inductive RouteGuard where
  | platformOs (os : String)
  | commandAvailable (command : String)
  | envVarSet (name : String)
  deriving DecidableEq, Repr

inductive RouteFailureContinuation where
  | unproven
  | declaredIdempotent
  deriving DecidableEq, Repr

inductive RouteKind where
  | interpreterCommand
  | compiledBinary
  | buildTarget
  | packageEntrypoint
  | shellTask
  | oEvaluator
  | composite
  deriving DecidableEq, Repr

def RouteKind.name : RouteKind → String
  | .interpreterCommand => "InterpreterCommand"
  | .compiledBinary => "CompiledBinary"
  | .buildTarget => "BuildTarget"
  | .packageEntrypoint => "PackageEntrypoint"
  | .shellTask => "ShellTask"
  | .oEvaluator => "OEvaluator"
  | .composite => "Composite"

inductive RouteProvenance where
  | manifest (path : String)
  | discovered (ecosystem evidence : String)
  | cliOverride
  deriving DecidableEq, Repr

def RouteProvenance.describe : RouteProvenance → String
  | .manifest path => "manifest:" ++ path
  | .discovered ecosystem _ => "discovered:" ++ ecosystem
  | .cliOverride => "cli"

structure RouteSpec where
  (id workingDirectory : String)
  kind : RouteKind
  (command arguments provides : List String)
  provenance : RouteProvenance
  (prerequisites inputs outputs declaredReads declaredWrites : List String)
  failureContinuation : RouteFailureContinuation
  guards : List RouteGuard
  priority : ℤ
  isDefault : Bool
  deriving DecidableEq, Repr

structure RouteSet where
  provides : String
  alternatives : List String
  policy : RoutePolicy
  deriving DecidableEq, Repr

structure ProjectBundle where
  name : String
  routes : List RouteSpec
  routeSets : List RouteSet
  defaultRoute : Option String
  deriving DecidableEq, Repr

namespace ProjectBundle

variable (bundle : ProjectBundle)

def route (id : String) : Option RouteSpec :=
  bundle.routes.find? fun r => r.id = id

def routeSet (provides : String) : Option RouteSet :=
  bundle.routeSets.find? fun s => s.provides = provides

def soleDefault : Option String :=
  match bundle.routes.filter RouteSpec.isDefault with
  | [route] => some route.id
  | _ => none

def resolvedDefault : Option String :=
  match bundle.defaultRoute with
  | some id => if (bundle.route id).isSome then some id else bundle.soleDefault
  | none => bundle.soleDefault

def routeLine (chosen : Option String) (route : RouteSpec) : String :=
  let marker := if chosen = some route.id then "*" else " "
  let provides := if route.provides = [] then "-" else ",".intercalate route.provides
  let command := " ".intercalate (route.command ++ route.arguments)
  s!"{marker} {route.id}  [{route.kind.name}]  provides={provides}  " ++
    s!"{route.provenance.describe}\n      $ {command}\n"

def routeSetLine (set : RouteSet) : String :=
  let alternatives := ", ".intercalate set.alternatives
  s!"  set provides={set.provides} policy={set.policy.token} alternatives=[{alternatives}]\n"

/-- The routes and route sets as text, for errors about a selection. -/
def routeTable : String :=
  let plural (n : ℕ) := if n = 1 then "" else "s"
  let routes := bundle.routes.length
  let sets := bundle.routeSets.length
  s!"Project: {bundle.name}  ({routes} route{plural routes}, {sets} route set{plural sets})\n" ++
    (if routes = 0 then "  (no routes)\n" else "") ++
    String.join (bundle.routes.map (routeLine bundle.resolvedDefault)) ++
    String.join (bundle.routeSets.map routeSetLine) ++
    if bundle.resolvedDefault = none ∧ routes ≠ 0 then
      "  (no unambiguous default route — select one with --route)\n"
    else ""

end ProjectBundle

/-! ## Effects of routes -/

/-- A prefix component exists on no platform whose paths are separated by slashes alone. -/
def validateProjectPath (path label : String) : Except String Unit := do
  ensure (path ≠ "") (s!"{label} must not be empty")
  ensure (path.toList.head? ≠ some '/' ∧ ".." ∉ split '/' path)
    (s!"{label} `{path}` must remain project-relative")

def parseDeclaredResource (item : String) : Except String ResourceKey :=
  (parseResource item).mapError EffectError.message

def addDeclaredResources (destination : OrdSet ResourceKey) (declaration : String) :
    Except String (OrdSet ResourceKey) := do
  ensure (trim declaration ≠ "")
    "project route contains an empty resource declaration"
  ((splitAny ['+', ';'] declaration).map trim).foldlM (fun destination resource => do
    ensure (resource ≠ "") (s!"empty resource in `{declaration}`")
    let key ← parseDeclaredResource resource
    return destination.insert key) destination

def addProjectPaths (label : String) (destination : OrdSet ResourceKey) (paths : List String) :
    Except String (OrdSet ResourceKey) :=
  paths.foldlM (fun destination path => do
    validateProjectPath path label
    return destination.insert (.projectPath path)) destination

def addGuard (destination : OrdSet ResourceKey) :
    RouteGuard → Except String (OrdSet ResourceKey)
  | .envVarSet name => do
    let key ← parseDeclaredResource s!"env:{name}"
    return destination.insert key
  | _ => .ok destination

structure RoutePlanFacts where
  prerequisites : List String
  guards : List RouteGuard
  (inputs outputs declaredReads declaredWrites : List String)
  failureContinuation : RouteFailureContinuation
  deriving DecidableEq, Repr

def RoutePlanFacts.fromRoute (route : RouteSpec) : RoutePlanFacts where
  prerequisites := route.prerequisites
  guards := route.guards
  inputs := route.inputs
  outputs := route.outputs
  declaredReads := route.declaredReads
  declaredWrites := route.declaredWrites
  failureContinuation := route.failureContinuation

def isNetworkKey : ResourceKey → Bool
  | .network _ | .networkUnknown => true
  | _ => false

/-- A hosted command is never known to be confined to what it declares. -/
def routeEffectsFromFacts (facts : RoutePlanFacts) : Except String EffectSummary := do
  let reads ← addProjectPaths "route input" unknownWork.reads facts.inputs
  let writes ← addProjectPaths "route output" unknownWork.writes facts.outputs
  let reads ← facts.guards.foldlM addGuard reads
  let reads ← facts.declaredReads.foldlM addDeclaredResources reads
  let writes ← facts.declaredWrites.foldlM addDeclaredResources writes
  return { unknownWork with
    spawn := true
    reads, writes
    network := (reads.toList ++ writes.toList).any isNetworkKey }

def routeEffects (route : RouteSpec) : Except String EffectSummary :=
  routeEffectsFromFacts (.fromRoute route)

/-! ## Structure of a bundle -/

def validateRoute (seen : List String) (route : RouteSpec) :
    Except String (List String) := do
  ensure (route.id ≠ "") "project bundle contains an empty route id"
  ensure (route.id ∉ seen) (s!"project bundle repeats route id `{route.id}`")
  validateProjectPath route.workingDirectory "working directory"
  route.inputs.forM fun path => validateProjectPath path "route input"
  route.outputs.forM fun path => validateProjectPath path "route output"
  let _ ← routeEffects route
  return route.id :: seen

def validateAlternative (routeIds : List String) (set : RouteSet) (seen : List String)
    (route : String) : Except String (List String) := do
  ensure (route ∉ seen)
    (s!"route set `{set.provides}` repeats alternative `{route}`")
  ensure (route ∈ routeIds)
    (s!"route set `{set.provides}` references missing route `{route}`")
  return route :: seen

def validateRouteSet (routeIds : List String) (seen : List String) (set : RouteSet) :
    Except String (List String) := do
  ensure (set.provides ≠ "") "project bundle contains an unnamed route set"
  ensure (set.provides ∉ routeIds)
    (s!"route set `{set.provides}` conflicts with a route id")
  ensure (set.provides ∉ seen) (s!"project bundle repeats route set `{set.provides}`")
  ensure (set.alternatives ≠ []) (s!"route set `{set.provides}` has no alternatives")
  let _ ← set.alternatives.foldlM (validateAlternative routeIds set) []
  return set.provides :: seen

def validateDefault (routeIds : List String) : Option String → Except String Unit
  | none => .ok ()
  | some default =>
    ensure (default ∈ routeIds)
      (s!"project default route `{default}` does not name a route")

/-- Depth-first search for a cycle, with the routes on the way and those visited. -/
def visit (bundle : ProjectBundle) : ℕ → List String → List String → String →
    Except ProjectError (List String)
  | 0, _, _, _ => .error .diverges
  | fuel + 1, visiting, visited, routeId =>
    if routeId ∈ visited then .ok visited
    else do
      ensure (routeId ∉ visiting)
        (.refused s!"project route prerequisite cycle reaches `{routeId}`")
      let route ← orError (.refused s!"project route `{routeId}` does not exist")
        (bundle.route routeId)
      let visited ← route.prerequisites.foldlM (visit bundle fuel (routeId :: visiting)) visited
      return routeId :: visited

-- The routes on the way are distinct, so their number bounds the depth of the search.
variable (bundle : ProjectBundle)

def validatePrerequisiteAcyclicity : Except ProjectError (List String) :=
  (bundle.routes.map RouteSpec.id).foldlM (visit bundle (bundle.routes.length + 1) []) []

def validateBundleStructure : Except ProjectError Unit := do
  let routeIds ← (bundle.routes.foldlM validateRoute []).mapError .refused
  (validateDefault routeIds bundle.defaultRoute).mapError .refused
  let _ ← (bundle.routeSets.foldlM (validateRouteSet routeIds) []).mapError .refused
  bundle.routes.forM fun route => route.prerequisites.forM fun prerequisite =>
    ensure (prerequisite ∈ routeIds)
      (.refused s!"route `{route.id}` references missing prerequisite `{prerequisite}`")
  let _ ← validatePrerequisiteAcyclicity bundle
  return ()

/-! ## Selection -/

structure ResolvedSelection where
  target : String
  alternatives : List String
  policy : RoutePolicy
  deriving DecidableEq, Repr

def selectionTarget (target : Option String) (policyOverride : Option RoutePolicy) :
    Except String ResolvedSelection :=
  match target with
  | some name =>
    match bundle.routeSet name with
    | some set => .ok ⟨name, set.alternatives, policyOverride.getD set.policy⟩
    | none => do
      ensure (bundle.route name).isSome
        (s!"no route or route set named `{name}`\n{bundle.routeTable}")
      let policy := match policyOverride with
        | some (.explicit id) => if id = "" then .explicit name else .explicit id
        | some .default | none => .explicit name
        | some other => other
      return ⟨name, [name], policy⟩
  | none =>
    match policyOverride with
    | some policy =>
      .error s!"--routes-policy `{policy.token}` requires --route to name a route or route set"
    | none => do
      let id ← orError
        s!"no unambiguous default route — select one with --route <ID>\n{bundle.routeTable}"
        bundle.resolvedDefault
      return ⟨id, [id], .explicit id⟩

def checkAlternative (target : String) (seen : List String) (id : String) :
    Except String (List String) := do
  ensure (id ∉ seen) (s!"route selection `{target}` repeats alternative `{id}`")
  ensure (bundle.route id).isSome
    (s!"route selection `{target}` references missing route `{id}`")
  return id :: seen

def isDefaultRoute (id : String) : Bool :=
  (bundle.route id).any RouteSpec.isDefault

def defaultAmong (alternatives : List String) : Option String :=
  match bundle.resolvedDefault.filter (fun id => id ∈ alternatives) with
  | some id => some id
  | none =>
    match alternatives.filter (isDefaultRoute bundle) with
    | [id] => some id
    | _ => none

def priorityOf (id : String) : ℤ :=
  ((bundle.route id).map RouteSpec.priority).getD 0

/-- Narrow or order the alternatives as the policy asks. -/
def applyPolicy (selection : ResolvedSelection) : Except String ResolvedSelection :=
  match selection.policy with
  | .explicit id =>
    if id = "" then
      match selection.alternatives with
      | [only] => .ok { selection with policy := .explicit only }
      | _ => .error "explicit policy needs a specific route id"
    else do
      ensure (id ∈ selection.alternatives)
        (s!"explicit route `{id}` is not among the alternatives")
      return { selection with alternatives := [id] }
  | .default => do
    let id ← orError "no unambiguous default route among alternatives"
      (defaultAmong bundle selection.alternatives)
    return { selection with alternatives := [id] }
  | .fallback =>
    .ok { selection with
      alternatives := selection.alternatives.insertionSort fun a b =>
        priorityOf bundle b ≤ priorityOf bundle a }
  | _ => .ok selection

/-- Optimization compares a reference with candidates, all of whose outputs must be portable. -/
def checkOptimization (portable : List String → Bool) (bundle : ProjectBundle)
    (selection : ResolvedSelection) : Except String Unit :=
  if selection.policy = .benchmarkValidateAndSelect then do
    ensure (2 ≤ selection.alternatives.length)
      ("benchmark_validate_and_select requires at least two declared alternatives " ++
        "(reference plus candidate)")
    selection.alternatives.forM fun id =>
      ensure ((bundle.route id).all fun route => portable route.outputs)
        (s!"benchmark_validate_and_select route `{id}` has nonportable artifact " ++
          "requirements")
  else .ok ()

def resolveSelection (portable : List String → Bool) (bundle : ProjectBundle)
    (target : Option String) (policyOverride : Option RoutePolicy) :
    Except String ResolvedSelection := do
  let selection ← selectionTarget bundle target policyOverride
  ensure (selection.alternatives ≠ [])
    (s!"route set `{selection.target}` has no alternatives to run")
  let _ ← selection.alternatives.foldlM (checkAlternative bundle selection.target) []
  let selection ← applyPolicy bundle selection
  checkOptimization portable bundle selection
  return selection

/-! ## Plans -/

inductive ProjectSchedulingContract where
  | serialHostWorldV1
  | concurrentBranchesV1
  deriving DecidableEq, Repr

/-- A dependency on the ordinary result of an operation, or on its successful completion. -/
inductive ProjectDependency where
  | value (planNode : PlanNodeId)
  | success (planNode : PlanNodeId)
  deriving DecidableEq, Repr

def ProjectDependency.planNode : ProjectDependency → PlanNodeId
  | .value p | .success p => p

structure ProjectPlanOperation where
  id : PlanNodeId
  op : ExecutableOp
  dependencies : List ProjectDependency
  effects : EffectSummary
  /-- The selected alternative in whose workspace the operation runs. -/
  branch : Option ℕ
  routeFacts : Option RoutePlanFacts
  deriving DecidableEq

structure ProjectExecutionPlan where
  schedulingContract : ProjectSchedulingContract
  (projectName bundleDigest target : String)
  alternatives : List String
  policy : RoutePolicy
  operations : List ProjectPlanOperation
  roots : List PlanNodeId
  deriving DecidableEq

/-! ## Building -/

/-- An operation is identified by its place in the plan. -/
def push (operations : List ProjectPlanOperation) (op : ExecutableOp)
    (dependencies : List ProjectDependency) (effects : EffectSummary) (branch : Option ℕ)
    (routeFacts : Option RoutePlanFacts) : List ProjectPlanOperation × PlanNodeId :=
  (operations ++ [⟨operations.length, op, dependencies, effects, branch, routeFacts⟩],
    operations.length)

/-- The operations so far and the run of every route that the branch has planned. -/
structure Planning where
  operations : List ProjectPlanOperation
  memo : Table String PlanNodeId

/-- Push the preparation and the run of a route whose prerequisites have been planned. -/
def pushRoute (branch : ℕ) (materialize : PlanNodeId) (route : RouteSpec) (routeId : String)
    (effects : EffectSummary) (prerequisiteResults : List PlanNodeId) (s : Planning) :
    Planning × PlanNodeId :=
  let facts := RoutePlanFacts.fromRoute route
  let (operations, build) := push s.operations (.buildRoute routeId) [.value materialize] .pure
    (some branch) (some facts)
  let (operations, run) := push operations (.runRoute routeId)
    (.value build :: prerequisiteResults.map .success) effects (some branch) (some facts)
  (⟨operations, s.memo.insert routeId run⟩, run)

/-- Plan a route after its prerequisites, once per branch. -/
def planRoute (bundle : ProjectBundle) (branch : ℕ) (materialize : PlanNodeId) :
    ℕ → Planning → String → Except ProjectError (Planning × PlanNodeId)
  | 0, _, _ => .error .diverges
  | fuel + 1, s, routeId =>
    match s.memo.lookup routeId with
    | some existing => .ok (s, existing)
    | none => do
      let route ← orError (.refused s!"project route `{routeId}` does not exist")
        (bundle.route routeId)
      let (s, prerequisiteResults) ← route.prerequisites.foldlM (fun acc prerequisite => do
        let (s, result) ← planRoute bundle branch materialize fuel acc.1 prerequisite
        return (s, acc.2 ++ [result])) (s, [])
      let effects ← (routeEffects route).mapError .refused
      return pushRoute branch materialize route routeId effects prerequisiteResults s

/-- Every alternative has a workspace of its own, and plans again what it shares with others. -/
def planBranch (state : List ProjectPlanOperation × List PlanNodeId) (alternative : String × ℕ) :
    Except ProjectError (List ProjectPlanOperation × List PlanNodeId) := do
  let (operations, materialize) := push state.1 .materializeProject [] .unknownWork
    (some alternative.2) none
  let (s, terminal) ← planRoute bundle alternative.2 materialize (bundle.routes.length + 1)
    ⟨operations, ∅⟩ alternative.1
  return (s.operations, state.2 ++ [terminal])

def comparisonEffects : EffectSummary := { EffectSummary.pure with fallibility := .mayFail }

def selectionEffects : RoutePolicy → EffectSummary
  | .raceSuccess | .raceSettle | .benchmarkAndSelect | .benchmarkValidateAndSelect =>
    { EffectSummary.pure with
      fallibility := .mayFail, deterministic := false, confidence := .conservative }
  | _ => { EffectSummary.pure with fallibility := .mayFail }

def isAmbientDeclaration (declaration : String) : Bool :=
  (splitAny ['+', ';'] declaration).any fun resource =>
    trim resource = "host:*" || trim resource = "hostworld"

def explicitlyAmbient (facts : Option RoutePlanFacts) : Bool :=
  facts.any fun facts => (facts.declaredReads ++ facts.declaredWrites).any isAmbientDeclaration

def scopeToBranch (ambient : Bool) (branch : ℕ) : ResourceKey → ResourceKey
  | .hostWorld => if ambient then .hostWorld else .concurrentProjectBranch branch
  | .projectPath path => .projectBranchPath branch path
  | other => other

/-- Branches that run at the same time do not share what is not declared to be ambient. -/
def concurrentBranchEffects (summary : EffectSummary) (branch : ℕ)
    (facts : Option RoutePlanFacts) : EffectSummary :=
  let scope := scopeToBranch (explicitlyAmbient facts) branch
  { summary with
    reads := OrdSet.ofList (summary.reads.toList.map scope)
    writes := OrdSet.ofList (summary.writes.toList.map scope) }

def scopeOperation (operation : ProjectPlanOperation) : ProjectPlanOperation :=
  match operation.branch with
  | none => operation
  | some branch =>
    { operation with
      effects := concurrentBranchEffects operation.effects branch operation.routeFacts }

def scopeOperations (contract : ProjectSchedulingContract)
    (operations : List ProjectPlanOperation) : List ProjectPlanOperation :=
  match contract with
  | .serialHostWorldV1 => operations
  | .concurrentBranchesV1 => operations.map scopeOperation

/-- Compare the results where the policy asks for it, and say what the selection waits for. -/
def pushComparison (policy : RoutePolicy) (operations : List ProjectPlanOperation)
    (terminalResults : List PlanNodeId) : List ProjectPlanOperation × List ProjectDependency :=
  if policy.requiresDeclaredOutputValidation then
    let (operations, compare) := push operations .compareRouteResults
      (terminalResults.map .value) comparisonEffects none none
    (operations, [.value compare])
  else (operations, terminalResults.map .value)

def planSelection (selection : ResolvedSelection) (contract : ProjectSchedulingContract)
    (bundleDigest : String) : Except ProjectError ProjectExecutionPlan := do
  let (operations, terminalResults) ← selection.alternatives.zipIdx.foldlM (planBranch bundle)
    ([], [])
  let (operations, dependencies) := pushComparison selection.policy operations terminalResults
  let (operations, select) := push (scopeOperations contract operations)
    (.selectRoute selection.policy.token) dependencies (selectionEffects selection.policy)
    none none
  return {
    schedulingContract := contract
    projectName := bundle.name
    bundleDigest
    target := selection.target
    alternatives := selection.alternatives
    policy := selection.policy
    operations
    roots := [select] }

/-- What planning takes from elsewhere: portable outputs, a digest, and checks that change nothing.
-/
structure Checks where
  portable : List String → Bool
  bundleDigest : ProjectBundle → Except String String
  validate : ProjectExecutionPlan → Except String Unit
  validateProjection : ProjectExecutionPlan → HGraph → Except String Unit

def selectionError (text : String) : ProjectError :=
  .refused s!"failed to resolve project selection: {text}"

def fromBundleWithScheduling (checks : Checks) (bundle : ProjectBundle) (target : Option String)
    (policyOverride : Option RoutePolicy) (contract : ProjectSchedulingContract) :
    Except ProjectError ProjectExecutionPlan := do
  validateBundleStructure bundle
  let selection ← (resolveSelection checks.portable bundle target policyOverride).mapError
    selectionError
  let bundleDigest ← (checks.bundleDigest bundle).mapError .refused
  let plan ← planSelection bundle selection contract bundleDigest
  (checks.validate plan).mapError .refused
  return plan

end Ostadix.Project
