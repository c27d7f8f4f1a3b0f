import Ostadix.Supervisor

/-! The operations of the hosted supervisor. -/

namespace Ostadix.Supervisor

open Wire

variable (store : String → Option Manifest)

/-! ## Reconstruction -/

variable (env : Environment)

def verifyRecord (record : PersistedPackage) : Result Manifest := do
  parsePersistedDigest record.digest
  let manifest ← verifyPackage store env record.digest
  verifyRecordMatches record manifest
  admitPackage env record.digest
  return manifest

/-- Stage the recorded packages one after another, with the generations of their records. -/
def reconstructActive (env : Environment) :
    ℕ → Table String ActivePackage → Table String String → List PersistedPackage →
      ℕ × Result (Table String ActivePackage × Table String String)
  | process, staged, owners, [] => (process, .ok (staged, owners))
  | process, staged, owners, record :: records =>
    match verifyRecord store env record with
    | .error e => (process, .error e)
    | .ok manifest =>
      match stagePackage env record.digest manifest record.generations process with
      | (next, .error e) => (next, .error e)
      | (next, .ok package) =>
        match addOwners "declared" record.packageName owners (orderedKeys package.services) with
        | .error e => (next, .error e)
        | .ok owners =>
          reconstructActive env next (staged.insert record.packageName package) owners records

def reconstructRollback (records : List PersistedPackage) : Result (Table String RollbackRoot) :=
  records.foldlM (fun roots record => do
    let _ ← verifyRecord store env record
    return roots.insert record.packageName ⟨record, none⟩) ∅

def readActiveSet (file : Option PersistedActiveSet) : Result PersistedActiveSet := do
  ensure (env.readable = true) "failed to read active set"
  let set := file.getD {}
  validateActiveSetShape set
  return set

def services (state : SupervisorState) : List (String × ℕ) :=
  (ordered state.active).flatMap fun e => (ordered e.2.services).map fun s => (s.1, s.2.generation)

def reconstruct (w : World) : Done Unit :=
  match readActiveSet env w.file with
  | .error e => ⟨w, [], .error e⟩
  | .ok persisted =>
    -- The session is fresh; it is taken before anything can fail.
    match reconstructActive store env w.nextProcess ∅ ∅ persisted.active with
    | (nextProcess, .error e) =>
      ⟨{ w with nextProcess, nextIdentity := w.nextIdentity + 1 }, [], .error e⟩
    | (nextProcess, .ok (active, serviceOwners)) =>
      match reconstructRollback store env persisted.rollback with
      | .error e => ⟨{ w with nextProcess, nextIdentity := w.nextIdentity + 1 }, [], .error e⟩
      | .ok rollback =>
        let state : SupervisorState := { active, rollback, serviceOwners }
        ⟨{ w with
            nextProcess
            nextIdentity := w.nextIdentity + 1
            supervisor :=
              { session := w.nextIdentity, observedRevision := some persisted.revision, state } },
          .reconstructed :: (services state).map fun s => .republished s.1 s.2, .ok ()⟩

/-! ## Activation and rollback -/

def mutationRevision (supervisor : HostedSupervisor) : Result ℕ :=
  orError
    "supervisor must reconstruct the durable active set before attempting a mutation"
    supervisor.observedRevision

/-- The state with a package made active; the one it replaces becomes the rollback root. -/
def SupervisorState.install (state : SupervisorState) (packageName : String)
    (package : ActivePackage) : SupervisorState :=
  { state with
    active := state.active.insert packageName package
    rollback :=
      match state.active.lookup packageName with
      | some prior => state.rollback.insert packageName ⟨prior.record, some prior⟩
      | none => state.rollback }

/-- The services that run before or after a package is replaced. -/
def replacedServices (state : SupervisorState) (packageName : String) (package : ActivePackage) :
    List String :=
  (state.active.lookup packageName).toList.flatMap (·.services.keys) ++ package.services.keys

def assignedOutputs (generations : List (String × ℕ)) : List Output :=
  generations.map fun g => .assigned g.1 g.2

/-- Publish a staged package in the file, then in memory. If that fails the given state stays. -/
def commit (w : World) (observed : ℕ) (packageName : String) (package : ActivePackage)
    (failed : SupervisorState) : Done Unit :=
  let state := w.supervisor.state.install packageName package
  match compareExchangeActiveSet env w.file observed (persistedFromRecords state) with
  | (file, .error e) =>
    ⟨{ w with file, supervisor := { w.supervisor with state := failed } }, [], .error e⟩
  | (file, .ok revision) =>
    let supervisor := { w.supervisor with observedRevision := some revision, state }
    match ownersForActive state.active with
    | .error e => ⟨{ w with file, supervisor }, [], .error e⟩
    | .ok serviceOwners =>
      ⟨{ w with
          file
          supervisor :=
            { supervisor with
              state := { state with serviceOwners }
              bearers := revokeServices (packageServiceUnion state packageName)
                supervisor.bearers } },
        assignedOutputs package.record.generations ++
          (replacedServices w.supervisor.state packageName package).map .disturbed,
        .ok ()⟩

/-- What an activation checks first: the revision, the package and, unless active, the generations.
-/
def prepareActivation (w : World) (digest : String) :
    Result (ℕ × Manifest × Option (List (String × ℕ))) := do
  let observed ← mutationRevision w.supervisor
  let manifest ← verifyPackage store env digest
  admitPackage env digest
  let state := w.supervisor.state
  if (state.active.lookup manifest.name).any (·.record.digest = digest) then
    ensureActiveSetRevision env w.file observed
    return (observed, manifest, none)
  else
    ensure (manifest.name ∈ state.active ∨ state.active.entries.length < maxActivePackages)
      "active package limit of 64 has been reached"
    ensure (retainedServiceCount state manifest.name + manifest.services.length ≤ maxActiveServices)
      "activation would exceed active service limit of 256"
    match foreignOwner state manifest.name (manifest.services.map (·.name)) with
    | some (service, owner) =>
      throw ("service `" ++ service ++ "` is already published by package `" ++ owner ++ "`")
    | none =>
      let generations ← assignGenerations (maxGeneration state) manifest.services
      return (observed, manifest, some generations)

def activate (w : World) (digest : String) : Done Unit :=
  match prepareActivation store env w digest with
  | .error e => ⟨w, [], .error e⟩
  | .ok (_, _, none) => ⟨w, [], .ok ()⟩
  | .ok (observed, manifest, some generations) =>
    match stagePackage env digest manifest generations w.nextProcess with
    | (nextProcess, .error e) => ⟨{ w with nextProcess }, [], .error e⟩
    | (nextProcess, .ok package) =>
      commit env { w with nextProcess } observed manifest.name package w.supervisor.state

def healthExistingPackage (package : ActivePackage) : Option ActivePackage :=
  if package.services.entries.all fun e => !e.2.terminated && (env.retained e.1).isSome then
    some { package with
      services := package.services.mapValues fun name service =>
        { service with world := (env.retained name).getD service.world } }
  else none

def regenerate (generations : List (String × ℕ)) :
    List PersistedService → Table String ActiveService →
      Result (List PersistedService × Table String ActiveService)
  | [], services => .ok ([], services)
  | persisted :: rest, services => do
    let next ← orError "rollback generation is missing a service"
      (generations.lookup persisted.name)
    let service ← orError "rollback runtime is missing a service" (services.lookup persisted.name)
    let done ← regenerate generations rest
      (services.insert persisted.name { service with generation := next })
    return ({ persisted with generation := next } :: done.1, done.2)

def regeneratePackage (generations : List (String × ℕ)) (package : ActivePackage) :
    Result ActivePackage := do
  let done ← regenerate generations package.record.services package.services
  return { record := { package.record with services := done.1 }, services := done.2 }

/-- Get a rollback root ready: with its retained workers if healthy, else with new ones. On failure
the root comes back, with its workers if untouched. -/
def prepareRollback (state : SupervisorState) (root : RollbackRoot) (process : ℕ) :
    ℕ × Except (RollbackRoot × String) ActivePackage :=
  match verifyRecord store env root.record with
  | .error e => (process, .error (root, e))
  | .ok manifest =>
    let spent : RollbackRoot := { root with runtime := none }
    match assignGenerations (maxGeneration state) manifest.services with
    | .error e => (process, .error (spent, e))
    | .ok generations =>
      match root.runtime.bind (healthExistingPackage env) with
      | some package =>
        match regeneratePackage generations package with
        | .error e => (process, .error (spent, e))
        | .ok package => (process, .ok package)
      | none =>
        match stagePackage env root.record.digest manifest generations process with
        | (next, .error e) => (next, .error (spent, e))
        | (next, .ok package) => (next, .ok package)

/-- The checks of a rollback before anything starts: the observed revision and the root. -/
def rollbackRoot (w : World) (packageName : String) : Result (ℕ × RollbackRoot) := do
  let observed ← mutationRevision w.supervisor
  let state := w.supervisor.state
  let root ← orError ("package `" ++ packageName ++ "` has no rollback root")
    (state.rollback.lookup packageName)
  ensure (retainedServiceCount state packageName + root.record.services.length ≤ maxActiveServices)
    "rollback would exceed active service limit of 256"
  match foreignOwner state packageName (root.record.services.map (·.name)) with
  | some (service, owner) =>
    throw ("rollback service `" ++ service ++ "` is already published by package `" ++ owner ++ "`")
  | none => return (observed, root)

def World.setState (w : World) (state : SupervisorState) : World :=
  { w with supervisor := { w.supervisor with state } }

def SupervisorState.setRoot (state : SupervisorState) (packageName : String)
    (root : RollbackRoot) : SupervisorState :=
  { state with rollback := state.rollback.insert packageName root }

def rollback (env : Environment) (w : World) (packageName : String) : Done Unit :=
  match rollbackRoot w packageName with
  | .error e => ⟨w, [], .error e⟩
  | .ok (observed, root) =>
    -- The root is out of the state from here on, so its generations do not count.
    let state :=
      { w.supervisor.state with rollback := w.supervisor.state.rollback.erase packageName }
    match prepareRollback store env state root w.nextProcess with
    | (nextProcess, .error (root, e)) =>
      ⟨{ w with nextProcess }.setState (state.setRoot packageName root), [], .error e⟩
    | (nextProcess, .ok package) =>
      let w := { w with nextProcess }
      let restored := state.setRoot packageName ⟨package.record, some package⟩
      match foreignOwner state packageName (orderedKeys package.services) with
      | some (service, owner) =>
        ⟨w.setState restored, [],
          .error ("rollback service `" ++ service ++ "` is already published by package `" ++
            owner ++ "`")⟩
      | none =>
        if packageName ∈ state.active then
          commit env (w.setState state) observed packageName package restored
        else
          ⟨w.setState state, [], .error ("package `" ++ packageName ++ "` is not active")⟩

/-! ## Restarts -/

def setGeneration (service : String) (generation : ℕ) :
    List PersistedService → List PersistedService
  | [] => []
  | persisted :: rest =>
    if persisted.name = service then { persisted with generation } :: rest
    else persisted :: setGeneration service generation rest

/-- What a restart finds: revision, package, declaration and next generation. -/
structure RestartPlan where
  observed : ℕ
  packageName : String
  package : ActivePackage
  declaration : ServiceDeclaration
  generation : ℕ

def planRestart (w : World) (service : String) : Result RestartPlan := do
  let observed ← mutationRevision w.supervisor
  let state := w.supervisor.state
  let packageName ← orError ("service `" ++ service ++ "` is not active")
    (state.serviceOwners.lookup service)
  let package ← orError "service owner refers to active package" (state.active.lookup packageName)
  parsePersistedDigest package.record.digest
  let manifest ← verifyPackage store env package.record.digest
  admitPackage env package.record.digest
  let declaration ← orError ("verified package no longer declares service `" ++ service ++ "`")
    (manifest.services.find? (·.name = service))
  let generation ← checkedNextGeneration (maxGeneration state)
  return { observed, packageName, package, declaration, generation }

def RestartPlan.next (plan : RestartPlan) (state : SupervisorState) (service world : String)
    (process : ℕ) : SupervisorState :=
  { state with
    active := state.active.insert plan.packageName
      { record :=
          { plan.package.record with
            services := setGeneration service plan.generation plan.package.record.services }
        services := plan.package.services.insert service
          { protocol := plan.declaration.protocol, generation := plan.generation, world,
            process } } }

def restartService (w : World) (service : String) : Done Unit :=
  match planRestart store env w service with
  | .error e => ⟨w, [], .error e⟩
  | .ok plan =>
    match env.spawn service with
    | none =>
      ⟨{ w with nextProcess := w.nextProcess + 1 }, [],
        .error ("health check failed for service `" ++ service ++ "`")⟩
    | some world =>
      let state := plan.next w.supervisor.state service world w.nextProcess
      let w := { w with nextProcess := w.nextProcess + 1 }
      if service ∉ plan.package.record.services.map (·.name) then
        ⟨w, [], .error "verified record contains declared service"⟩
      else
        match compareExchangeActiveSet env w.file plan.observed (persistedFromRecords state) with
        | (file, .error e) => ⟨{ w with file }, [], .error e⟩
        | (file, .ok revision) =>
          ⟨{ w with
              file
              supervisor :=
                { w.supervisor with
                  observedRevision := some revision
                  state
                  bearers := revokeServices [service] w.supervisor.bearers } },
            assignedOutputs [(service, plan.generation)] ++ [.disturbed service], .ok ()⟩

def ActivePackage.terminate (package : ActivePackage) (exited : List String) : ActivePackage :=
  { package with
    services := package.services.mapValues fun name service =>
      if name ∈ exited then { service with terminated := true } else service }

def SupervisorState.terminate (state : SupervisorState) (exited : List String) :
    SupervisorState :=
  { state with active := state.active.mapValues fun _ package => package.terminate exited }

/-- The services whose workers have exited, up to the first one that cannot be inspected. -/
def crashedServices (exited : String → Option Bool) (state : SupervisorState) :
    List String × Result Unit :=
  ((ordered state.active).flatMap fun e => ordered e.2.services).foldl
    (fun seen s =>
      match seen.2 with
      | .error e => (seen.1, .error e)
      | .ok () =>
        if s.2.terminated then (seen.1 ++ [s.1], .ok ())
        else
          match exited s.1 with
          | none => (seen.1, .error "failed to inspect hosted worker")
          | some true => (seen.1 ++ [s.1], .ok ())
          | some false => seen)
    ([], .ok ())

/-- Restart services one after another, up to the first that fails. -/
def restartAll (envs : String → Environment) : World → List String → Done Unit
  | w, [] => ⟨w, [], .ok ()⟩
  | w, service :: rest =>
    let done := restartService store (envs service) w service
    match done.result with
    | .error _ => done
    | .ok () =>
      let last := restartAll envs done.world rest
      ⟨last.world, done.outputs ++ last.outputs, last.result⟩

def restartCrashed (envs : String → Environment) (exited : String → Option Bool) (w : World) :
    Done Unit :=
  match mutationRevision w.supervisor with
  | .error e => ⟨w, [], .error e⟩
  | .ok _ =>
    let seen := crashedServices exited w.supervisor.state
    let w := w.setState (w.supervisor.state.terminate seen.1)
    match seen.2 with
    | .error e => ⟨w, [], .error e⟩
    | .ok () => restartAll store envs w seen.1

/-! ## Capabilities -/

/-- A capability as its holder sees it. Only the kind and the identity carry authority. -/
structure Capability where
  kind : CapabilityKind
  identity : ℕ
  (service protocol : String)
  generation : ℕ
  (package digest : String)
  rights : List String

def serviceRightInvoke : String := "invoke"

def statusFor (state : SupervisorState) (service : String) :
    Result (String × ActivePackage × ActiveService) := do
  let packageName ← orError ("service `" ++ service ++ "` is not active")
    (state.serviceOwners.lookup service)
  let package ← orError "service owner refers to active package" (state.active.lookup packageName)
  let active ← orError "service owner refers to active service" (package.services.lookup service)
  return (packageName, package, active)

def checkCapability (w : World) (service protocol : String) (rights : List String) :
    Result (String × ActivePackage × ActiveService) := do
  let status ← statusFor w.supervisor.state service
  ensure (status.2.2.protocol = protocol)
    ("service `" ++ service ++ "` speaks `" ++ status.2.2.protocol ++ "`, not `" ++ protocol ++ "`")
  ensure (rights ≠ []) "service capability requires at least one right"
  ensure (∀ right ∈ rights, right = serviceRightInvoke)
    ("service `" ++ service ++ "` does not expose a requested right")
  ensure (w.supervisor.bearers.entries.length < maxLiveBearers)
    "live service bearer limit of 4096 has been reached"
  return status

def serviceCapability (w : World) (service protocol : String) (rights : List String) :
    Done Capability :=
  match checkCapability w service protocol rights with
  | .error e => ⟨w, [], .error e⟩
  | .ok (packageName, package, active) =>
    let identity := w.nextIdentity
    let binding : BearerBinding :=
      { session := w.supervisor.session, service, protocol, generation := active.generation,
        rights := rights.dedup }
    ⟨{ w with
        nextIdentity := w.nextIdentity + 1
        supervisor :=
          { w.supervisor with bearers := w.supervisor.bearers.insert identity binding } },
      [.minted identity service active.process],
      .ok { kind := .service, identity, service, protocol, generation := active.generation,
            package := packageName, digest := package.record.digest, rights := rights.dedup }⟩

variable {Value : Type} (structural : Value → Bool)

inductive Exchange (Value : Type) where
  /-- The worker cannot be inspected; nothing is sent. -/
  | uninspected
  /-- The worker has exited; nothing is sent. -/
  | exited
  /-- The channel to the worker is closed; nothing is sent. -/
  | closed
  /-- A protocol failure, a timeout or a disconnection after the request. -/
  | failed
  | rejected (message : String)
  | unexpected
  | result (value : Value)

def Exchange.sends : Exchange Value → Bool
  | .uninspected | .exited | .closed => false
  | .failed | .rejected _ | .unexpected | .result _ => true

def Exchange.terminates : Exchange Value → Bool
  | .uninspected | .rejected _ => false
  | .exited | .closed | .failed | .unexpected => true
  | .result value => !structural value

/-- The exchange fails, so that the bearers of the service are revoked. -/
def Exchange.fails : Exchange Value → Bool
  | .rejected _ => false
  | .uninspected | .exited | .closed | .failed | .unexpected => true
  | .result value => !structural value

def Exchange.reply : Exchange Value → Result Value
  | .uninspected => .error "failed to inspect hosted worker"
  | .exited => .error "hosted worker exited before request"
  | .closed => .error "hosted worker I/O channel is closed"
  | .failed => .error "hosted worker protocol failed"
  | .rejected message => .error ("service rejected request: " ++ message)
  | .unexpected => .error "service returned unexpected invocation response"
  | .result value =>
    if structural value then .ok value
    else .error "service output must be pure, persistable structural OValue data"

def maxOperationBytes : ℕ := 255

def isOperationByte (b : UInt8) : Bool :=
  isAsciiLowercase b || isAsciiUppercase b || isAsciiDigit b || b = 46 || b = 95 || b = 45

def validateOperation (operation : String) : Result Unit :=
  let bytes := utf8 operation
  ensure (bytes ≠ [] ∧ bytes.length ≤ maxOperationBytes ∧ bytes.all isOperationByte)
    "service operation must be a portable identifier of at most 255 bytes"

/-- What an invocation checks before it looks at the generation. -/
def findBearer (w : World) (capability : Capability) (operation : String) (input : Value) :
    Result (BearerBinding × ActiveService) := do
  ensure (structural input = true) "service input must be pure, persistable structural OValue data"
  validateOperation operation
  ensure (capability.kind = .service) "expected service capability"
  let binding ← orError "service capability is forged, revoked, stale, or from another supervisor"
    (w.supervisor.bearers.lookup capability.identity)
  ensure (binding.session = w.supervisor.session)
    "service capability belongs to another supervisor session"
  ensure (serviceRightInvoke ∈ binding.rights) "service capability lacks `invoke` right"
  let current ← statusFor w.supervisor.state binding.service
  return (binding, current.2.2)

def World.setBearers (w : World) (bearers : Table ℕ BearerBinding) : World :=
  { w with supervisor := { w.supervisor with bearers } }

def World.exchanged (w : World) (service : String) (exchange : Exchange Value) : World :=
  let w := if exchange.terminates structural then
      w.setState (w.supervisor.state.terminate [service]) else w
  if exchange.fails structural then w.setBearers (revokeServices [service] w.supervisor.bearers)
  else w

def invoke (w : World) (capability : Capability) (operation : String) (input : Value)
    (exchange : Exchange Value) : Done Value :=
  match findBearer structural w capability operation input with
  | .error e => ⟨w, [], .error e⟩
  | .ok (binding, current) =>
    if current.protocol ≠ binding.protocol ∨ current.generation ≠ binding.generation then
      ⟨w.setBearers (w.supervisor.bearers.erase capability.identity), [],
        .error "service capability generation or protocol is stale"⟩
    else if current.terminated then
      ⟨w.setBearers (revokeServices [binding.service] w.supervisor.bearers),
        [.disturbed binding.service], .error "hosted worker has already been terminated"⟩
    else
      ⟨w.exchanged structural binding.service exchange,
        (if exchange.sends then [.sent capability.identity binding.service current.process]
          else []) ++
          (if exchange.fails structural then [.disturbed binding.service] else []),
        exchange.reply structural⟩

structure CompositionStep where
  (service protocol operation : String)

def checkStep (step : CompositionStep) : Result Unit := do
  ensure (step.service ≠ "" ∧ step.protocol ≠ "" ∧ step.operation ≠ "")
    "composition steps require service, protocol, and operation"
  validateOperation step.operation

def composeStep (w : World) (step : CompositionStep) (value : Value) (exchange : Exchange Value) :
    Done Value :=
  match checkStep step with
  | .error e => ⟨w, [], .error e⟩
  | .ok () =>
    let minted := serviceCapability w step.service step.protocol [serviceRightInvoke]
    match minted.result with
    | .error e => ⟨minted.world, minted.outputs, .error e⟩
    | .ok capability =>
      let invoked := invoke structural minted.world capability step.operation value exchange
      ⟨invoked.world.setBearers (invoked.world.supervisor.bearers.erase capability.identity),
        minted.outputs ++ invoked.outputs, invoked.result⟩

def composeSteps (w : World) (value : Value) :
    List (CompositionStep × Exchange Value) → Done Value
  | [] => ⟨w, [], .ok value⟩
  | (step, exchange) :: steps =>
    let done := composeStep structural w step value exchange
    match done.result with
    | .error _ => done
    | .ok value =>
      let last := composeSteps done.world value steps
      ⟨last.world, done.outputs ++ last.outputs, last.result⟩

/-- Pass a value through services; each step comes with the answer of its worker. -/
def compose (w : World) (steps : List (CompositionStep × Exchange Value)) (value : Value) :
    Done Value :=
  if structural value = false then
    ⟨w, [], .error "composition input must be pure, persistable structural OValue data"⟩
  else if maxCompositionSteps < steps.length then
    ⟨w, [], .error "composition exceeds step limit of 256"⟩
  else composeSteps structural w value steps

end Ostadix.Supervisor
