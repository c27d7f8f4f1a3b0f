import Ostadix.Table
import Ostadix.SortBy
import Ostadix.Identity
import Ostadix.OValue
import Mathlib.Data.String.Basic

/-! The hosted supervisor: packages with services, their durable record and live bearers. -/

namespace Ostadix.Supervisor

open Wire

def maxActivePackages : ℕ := 64

def maxActiveServices : ℕ := 256

def maxRollbackPackages : ℕ := 64

def maxLiveBearers : ℕ := 4096

def maxCompositionSteps : ℕ := 256

abbrev Result (α : Type) := Except String α

/-! ## Packages and their durable record -/

structure ServiceDeclaration where
  (name protocol : String)
  deriving DecidableEq

/-- A verified package. Its services have distinct names. -/
structure Manifest where
  name : String
  services : List ServiceDeclaration
  distinct : (services.map (·.name)).Nodup

structure PersistedService where
  (name protocol : String)
  generation : ℕ
  deriving DecidableEq

structure PersistedPackage where
  (packageName digest : String)
  services : List PersistedService
  deriving DecidableEq

def PersistedPackage.generations (record : PersistedPackage) : List (String × ℕ) :=
  record.services.map fun s => (s.name, s.generation)

structure PersistedActiveSet where
  revision : ℕ := 0
  active : List PersistedPackage := []
  rollback : List PersistedPackage := []
  deriving DecidableEq

def parsePersistedDigest (value : String) : Result Unit := do
  ensure ("sha256:".toList.isPrefixOf value.toList)
    "active-set digest must use explicit sha256:<hex> form"
  let hex := utf8 (String.ofList (value.toList.drop 7))
  ensure (hex.length = 64 ∧ hex.all fun b => isAsciiDigit b || (97 ≤ b && b ≤ 102))
    "invalid active-set package digest"

def validatePersistedRecord (record : PersistedPackage) : Result Unit := do
  ensure (record.packageName ≠ "") "active-set package name must not be empty"
  parsePersistedDigest record.digest
  ensure (∀ service ∈ record.services,
      service.name ≠ "" ∧ service.protocol ≠ "" ∧ service.generation ≠ 0)
    "active-set contains invalid service metadata"
  ensure (record.services.map (·.name)).Nodup "duplicate active-set service"

def serviceCount (records : List PersistedPackage) : ℕ := (records.map (·.services.length)).sum

def validateActiveSetShape (set : PersistedActiveSet) : Result Unit := do
  ensure (set.active.length ≤ maxActivePackages) "active set exceeds package limit of 64"
  ensure (set.rollback.length ≤ maxRollbackPackages) "active set exceeds rollback-root limit of 64"
  ensure (serviceCount set.active ≤ maxActiveServices) "active set exceeds service limit of 256"
  set.active.forM validatePersistedRecord
  ensure (set.active.map (·.packageName)).Nodup "duplicate active package"
  set.rollback.forM validatePersistedRecord
  ensure (set.rollback.map (·.packageName)).Nodup "duplicate rollback package"
  ensure (∀ record ∈ set.rollback, record.packageName ∈ set.active.map (·.packageName))
    "rollback package has no active counterpart"

/-! ## Live state -/

structure ActiveService where
  protocol : String
  generation : ℕ
  world : String
  process : ℕ
  terminated : Bool := false

structure ActivePackage where
  record : PersistedPackage
  services : Table String ActiveService

structure RollbackRoot where
  record : PersistedPackage
  runtime : Option ActivePackage

structure SupervisorState where
  active : Table String ActivePackage := ∅
  rollback : Table String RollbackRoot := ∅
  serviceOwners : Table String String := ∅

structure BearerBinding where
  session : ℕ
  (service protocol : String)
  generation : ℕ
  rights : List String

structure HostedSupervisor where
  session : ℕ := 0
  observedRevision : Option ℕ := none
  state : SupervisorState := {}
  bearers : Table ℕ BearerBinding := ∅

/-- The supervisor, the file, and the first unused identities of processes, sessions and bearers. -/
structure World where
  file : Option PersistedActiveSet := none
  nextProcess : ℕ := 0
  nextIdentity : ℕ := 1
  supervisor : HostedSupervisor := {}

/-- How the replacement of the active-set file ends. -/
inductive FileWrite where
  | failed
  /-- The file is renamed, and the sync of its directory fails. -/
  | unsynced
  | done
  deriving DecidableEq, Repr

/-- What the host and the workers do during one operation. -/
structure Environment where
  /-- The package store verifies the package of a digest. -/
  verified : String → Bool := fun _ => true
  /-- The host architecture, the policy and the health limits admit the package. -/
  admitted : String → Bool := fun _ => true
  /-- A new worker of a service starts and reports this world as healthy. -/
  spawn : String → Option String := fun _ => some ""
  /-- A retained worker of a service reports this world as healthy. -/
  retained : String → Option String := fun _ => none
  /-- The active-set file can be locked and read. -/
  readable : Bool := true
  write : FileWrite := .done

inductive Output where
  /-- A service is published with a generation of its own. -/
  | assigned (service : String) (generation : ℕ)
  /-- A service comes back with the generation of its record. -/
  | republished (service : String) (generation : ℕ)
  | minted (identity : ℕ) (service : String) (process : ℕ)
  /-- An invocation reaches the worker process. -/
  | sent (identity : ℕ) (service : String) (process : ℕ)
  /-- A service is restarted, replaced or rolled back, or an exchange with it fails. -/
  | disturbed (service : String)
  | reconstructed
  deriving DecidableEq

/-- The state after an operation, what was seen of it, and its result. -/
structure Done (α : Type) where
  world : World
  outputs : List Output := []
  result : Result α

variable (store : String → Option Manifest)

/-! ## Helpers -/

def checkedNextGeneration (generation : ℕ) : Result ℕ := do
  ensure (generation + 1 < 2 ^ 64) "service generation space exhausted"
  return generation + 1

variable (env : Environment)

def verifyPackage (digest : String) : Result Manifest := do
  let manifest ← orError "failed to verify package" (store digest)
  ensure (env.verified digest = true) "failed to verify package"
  return manifest

/-- The checks of the host architecture, of the policy and of the health limits. -/
def admitPackage (digest : String) : Result Unit :=
  ensure (env.admitted digest = true) "package is not admitted"

def ordered {V : Type} (t : Table String V) : List ((_ : String) × V) := sortBy (·.1) t.entries

def orderedKeys {V : Type} (t : Table String V) : List String := (ordered t).map (·.1)

def orderedValues {V : Type} (t : Table String V) : List V := (ordered t).map (·.2)

variable (state : SupervisorState)

def persistedFromRecords : PersistedActiveSet where
  active := (orderedValues state.active).map (·.record)
  rollback := (orderedValues state.rollback).map (·.record)

def recordedServices : List PersistedService :=
  (orderedValues state.active).flatMap (·.record.services) ++
    (orderedValues state.rollback).flatMap (·.record.services)

def maxGeneration : ℕ :=
  ((recordedServices state).map (·.generation)).foldl max 0

/-- Generations for the services of a package, counted on from a given one. -/
def assignGenerations (generation : ℕ) : List ServiceDeclaration → Result (List (String × ℕ))
  | [] => .ok []
  | declaration :: declarations => do
    let next ← checkedNextGeneration generation
    let rest ← assignGenerations next declarations
    return (declaration.name, next) :: rest

/-- Start the services of a package. Every start takes a new process, also one that fails. -/
def stageServices (env : Environment) (generations : List (String × ℕ)) :
    ℕ → List ServiceDeclaration → ℕ × Result (List (PersistedService × ActiveService))
  | process, [] => (process, .ok [])
  | process, declaration :: declarations =>
    match generations.lookup declaration.name with
    | none => (process, .error "missing staged service generation")
    | some generation =>
      match env.spawn declaration.name with
      | none =>
        (process + 1, .error ("health check failed for service `" ++ declaration.name ++ "`"))
      | some world =>
        match stageServices env generations (process + 1) declarations with
        | (next, .error e) => (next, .error e)
        | (next, .ok staged) =>
          (next, .ok ((⟨declaration.name, declaration.protocol, generation⟩,
            { protocol := declaration.protocol, generation, world, process }) :: staged))

def packageOf (name digest : String) (staged : List (PersistedService × ActiveService)) :
    ActivePackage where
  record := ⟨name, digest, sortBy (·.name) (staged.map (·.1))⟩
  services := staged.foldl (fun t s => t.insert s.1.name s.2) ∅

def stagePackage (digest : String) (manifest : Manifest) (generations : List (String × ℕ))
    (process : ℕ) : ℕ × Result ActivePackage :=
  if generations.length ≠ manifest.services.length then
    (process, .error "internal generation set does not match package services")
  else
    match stageServices env generations process manifest.services with
    | (next, .error e) => (next, .error e)
    | (next, .ok staged) => (next, .ok (packageOf manifest.name digest staged))

def verifyRecordMatches (record : PersistedPackage) (manifest : Manifest) : Result Unit := do
  ensure (record.packageName = manifest.name)
    ("active-set package name `" ++ record.packageName ++ "` does not match verified manifest `" ++
      manifest.name ++ "`")
  ensure (sortBy Prod.fst (manifest.services.map fun s => (s.name, s.protocol)) =
      sortBy Prod.fst (record.services.map fun s => (s.name, s.protocol)))
    ("active-set service metadata for `" ++ record.packageName ++
      "` does not match its verified manifest")

def addOwners (verb package : String) (owners : Table String String) (services : List String) :
    Result (Table String String) :=
  Table.collect (fun service => .ok (some (service, package)))
    (fun service prior package => "service `" ++ service ++ "` is " ++ verb ++ " by both `" ++
      prior ++ "` and `" ++ package ++ "`")
    (fun _ => .ok ()) owners services

def ownersForActive (active : Table String ActivePackage) : Result (Table String String) :=
  (ordered active).foldlM
    (fun owners e => addOwners "published" e.1 owners (orderedKeys e.2.services)) ∅

def retainedServiceCount (packageName : String) : ℕ :=
  ((state.active.entries.filter (·.1 ≠ packageName)).map (·.2.services.keys.length)).sum

/-- The first of the services that another package publishes, with that package. -/
def foreignOwner (packageName : String) (services : List String) : Option (String × String) :=
  services.findSome? fun service =>
    match state.serviceOwners.lookup service with
    | some owner => if owner = packageName then none else some (service, owner)
    | none => none

def revokeServices (services : List String) (bearers : Table ℕ BearerBinding) :
    Table ℕ BearerBinding where
  entries := bearers.entries.filter fun e => e.2.service ∉ services
  nodupKeys := bearers.nodupKeys.sublist List.filter_sublist

def packageServiceUnion (packageName : String) : List String :=
  ((state.active.lookup packageName).toList.flatMap (·.record.services) ++
    (state.rollback.lookup packageName).toList.flatMap (·.record.services)).map (·.name)

/-! ## The active-set file -/

variable (file : Option PersistedActiveSet)

def durableActiveSetRevision : Result ℕ := do
  ensure (env.readable = true) "failed to read active set"
  let set := file.getD {}
  validateActiveSetShape set
  return set.revision

def ensureActiveSetRevision (expected : ℕ) : Result Unit := do
  let actual ← durableActiveSetRevision env file
  ensure (actual = expected)
    ("active-set revision conflict: supervisor observed revision " ++ toString expected ++
      ", durable revision is " ++ toString actual ++ "; reconstruct before retrying")

def nextActiveSet (expected : ℕ) (next : PersistedActiveSet) : Result PersistedActiveSet := do
  ensureActiveSetRevision env file expected
  ensure (expected + 1 < 2 ^ 64) "active-set revision space exhausted"
  let committed : PersistedActiveSet := { next with revision := expected + 1 }
  validateActiveSetShape committed
  return committed

def compareExchangeActiveSet (expected : ℕ) (next : PersistedActiveSet) :
    Option PersistedActiveSet × Result ℕ :=
  match nextActiveSet env file expected next with
  | .error e => (file, .error e)
  | .ok committed =>
    match env.write with
    | .failed => (file, .error "failed to atomically publish active set")
    | .unsynced => (some committed,
        .error "active set was renamed but its directory durability barrier failed")
    | .done => (some committed, .ok committed.revision)

end Ostadix.Supervisor
