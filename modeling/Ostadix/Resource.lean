import Ostadix.Identity
import Ostadix.LexKey
import Ostadix.OrdSet

/-! The resources whose state an operation may read or write, ordered by variant and fields. -/

namespace Ostadix

/-! ## Environments -/

def ephemeralEnvId : UInt32 := 0xFFFFFFFF

def linkerIsolatedEnvId : UInt32 := 0xFFFFFFFE

inductive EnvironmentRefV2 where
  | ephemeral
  | linkerIsolated
  | persistent (id : UInt32)
  deriving DecidableEq, Repr

namespace EnvironmentRefV2

def fromEncoded (id : UInt32) : EnvironmentRefV2 :=
  if id = ephemeralEnvId then .ephemeral
  else if id = linkerIsolatedEnvId then .linkerIsolated
  else .persistent id

def isPersistent : EnvironmentRefV2 → Bool
  | .persistent _ => true
  | _ => false

def isFresh (env : EnvironmentRefV2) : Bool := !env.isPersistent

end EnvironmentRefV2

/-! ## Resource keys -/

structure ActorResourceId where
  canonicalLanguage : String
  environment : UInt32
  deriving DecidableEq, Repr

inductive ResourceKey where
  | hostWorld
  | concurrentProjectBranch (branch : ℕ)
  | projectBranchPath (branch : ℕ) (path : String)
  | worldState (world : WorldIdentity)
  | governorState (governor : GovernorIdentity)
  | nodeState (node : NodeIdentity)
  | domainState (domain : DomainIdentity)
  | processState (process : ProcessIdentity)
  | governedResource (resource : ResourceIdentity)
  | objectState (object : ObjectIdentity)
  | capabilityState (capability : CapabilityIdentity)
  | namespaceState (world : WorldIdentity)
  | taskState (task : TaskAttemptIdentity)
  | artifactState (artifact : ArtifactPublicationIdentity)
  | deviceState (device : ResourceIdentity)
  | acceleratorState (accelerator : ResourceIdentity)
  | evaluatorState
  | scopeBinding (name : String)
  | projectPath (path : String)
  | hostPath (path : String)
  | envVar (name : String)
  | stdio
  | network (endpoint : String)
  | networkUnknown
  | service (name : String)
  | actorState (actor : ActorResourceId)

namespace ResourceKey

/-- Whether the key names host-observable state that `hostWorld` covers. -/
def isHostResource : ResourceKey → Bool
  | .hostWorld | .concurrentProjectBranch _ | .projectPath _ | .hostPath _ | .envVar _ | .stdio
  | .network _ | .networkUnknown | .service _ => true
  | _ => false

end ResourceKey

/-! ## The order of the keys -/

open LexKey

instance : LexKey WorldIdentity := ofInjective (fun x => (x.world, x.epoch)) fun x y h => by
  cases x; cases y; cases h; rfl

instance : LexKey GovernorIdentity :=
  ofInjective (fun x => (x.world, x.term, x.logIndex)) fun x y h => by
    cases x; cases y; cases h; rfl

instance : LexKey NodeIdentity :=
  ofInjective (fun x => (x.world, x.node, x.generation)) fun x y h => by
    cases x; cases y; cases h; rfl

instance : LexKey DomainIdentity :=
  ofInjective (fun x => (x.node, x.domain, x.generation)) fun x y h => by
    cases x; cases y; cases h; rfl

instance : LexKey ProcessIdentity :=
  ofInjective (fun x => (x.domain, x.process, x.generation)) fun x y h => by
    cases x; cases y; cases h; rfl

instance : LexKey ObjectIdentity :=
  ofInjective (fun x => (x.world, x.object, x.version)) fun x y h => by
    cases x; cases y; cases h; rfl

instance : LexKey CapabilityIdentity :=
  ofInjective (fun x => (x.world, x.capability)) fun x y h => by
    cases x; cases y; cases h; rfl

instance : LexKey AttemptIdentity :=
  ofInjective (fun x => (x.world, x.task, x.attempt)) fun x y h => by
    cases x; cases y; cases h; rfl

instance : LexKey ArtifactPublicationIdentity :=
  ofInjective (fun x => (x.world, x.artifact)) fun x y h => by
    cases x; cases y; cases h; rfl

instance : LexKey ActorResourceId :=
  ofInjective (fun x => (x.canonicalLanguage, x.environment)) fun x y h => by
    cases x; cases y; cases h; rfl

def ResourceOwner.payload : ResourceOwner → List ℕ
  | .world w => key w
  | .node n => key n
  | .domain d => key d
  | .process p => key p

lemma payload_inj {α β : Type} [LexKey α] (f : α → β) {x y : α} {s t : List ℕ}
    (h : key x ++ s = key y ++ t) : f x = f y ∧ s = t :=
  ⟨congrArg f (append_inj h).1, (append_inj h).2⟩

lemma ResourceOwner.payload_append_inj (a b : ResourceOwner) (htag : a.ctorIdx = b.ctorIdx)
    (s t : List ℕ) (h : a.payload ++ s = b.payload ++ t) : a = b ∧ s = t := by
  cases a with
  | world => exact world.elim b htag.symm (fun _ => payload_inj _) h
  | node => exact node.elim b htag.symm (fun _ => payload_inj _) h
  | domain => exact domain.elim b htag.symm (fun _ => payload_inj _) h
  | process => exact process.elim b htag.symm (fun _ => payload_inj _) h

instance : LexKey ResourceOwner :=
  tagged ResourceOwner.ctorIdx ResourceOwner.payload ResourceOwner.payload_append_inj

instance : LexKey ResourceIdentity :=
  ofInjective (fun x => (x.owner, x.resource, x.generation)) fun x y h => by
    cases x; cases y; cases h; rfl

namespace ResourceKey

def payload : ResourceKey → List ℕ
  | .hostWorld | .evaluatorState | .stdio | .networkUnknown => []
  | .concurrentProjectBranch branch => key branch
  | .projectBranchPath branch path => key (branch, path)
  | .worldState world => key world
  | .governorState governor => key governor
  | .nodeState node => key node
  | .domainState domain => key domain
  | .processState process => key process
  | .governedResource resource => key resource
  | .objectState object => key object
  | .capabilityState capability => key capability
  | .namespaceState world => key world
  | .taskState task => key task
  | .artifactState artifact => key artifact
  | .deviceState device => key device
  | .acceleratorState accelerator => key accelerator
  | .scopeBinding name => key name
  | .projectPath path => key path
  | .hostPath path => key path
  | .envVar name => key name
  | .network endpoint => key endpoint
  | .service name => key name
  | .actorState actor => key actor

lemma payload_append_inj (a b : ResourceKey) (htag : a.ctorIdx = b.ctorIdx) (s t : List ℕ)
    (h : a.payload ++ s = b.payload ++ t) : a = b ∧ s = t := by
  -- The tag of `b` leaves one constructor, so every case compares two payloads of one type.
  cases a with
  | hostWorld => exact hostWorld.elim b htag.symm (fun h => ⟨rfl, h⟩) h
  | evaluatorState => exact evaluatorState.elim b htag.symm (fun h => ⟨rfl, h⟩) h
  | stdio => exact stdio.elim b htag.symm (fun h => ⟨rfl, h⟩) h
  | networkUnknown => exact networkUnknown.elim b htag.symm (fun h => ⟨rfl, h⟩) h
  | projectBranchPath =>
    exact projectBranchPath.elim b htag.symm
      (fun _ _ => payload_inj fun x : ℕ × String => projectBranchPath x.1 x.2) h
  | concurrentProjectBranch =>
    exact concurrentProjectBranch.elim b htag.symm (fun _ => payload_inj _) h
  | worldState => exact worldState.elim b htag.symm (fun _ => payload_inj _) h
  | governorState => exact governorState.elim b htag.symm (fun _ => payload_inj _) h
  | nodeState => exact nodeState.elim b htag.symm (fun _ => payload_inj _) h
  | domainState => exact domainState.elim b htag.symm (fun _ => payload_inj _) h
  | processState => exact processState.elim b htag.symm (fun _ => payload_inj _) h
  | governedResource => exact governedResource.elim b htag.symm (fun _ => payload_inj _) h
  | objectState => exact objectState.elim b htag.symm (fun _ => payload_inj _) h
  | capabilityState => exact capabilityState.elim b htag.symm (fun _ => payload_inj _) h
  | namespaceState => exact namespaceState.elim b htag.symm (fun _ => payload_inj _) h
  | taskState => exact taskState.elim b htag.symm (fun _ => payload_inj _) h
  | artifactState => exact artifactState.elim b htag.symm (fun _ => payload_inj _) h
  | deviceState => exact deviceState.elim b htag.symm (fun _ => payload_inj _) h
  | acceleratorState => exact acceleratorState.elim b htag.symm (fun _ => payload_inj _) h
  | scopeBinding => exact scopeBinding.elim b htag.symm (fun _ => payload_inj _) h
  | projectPath => exact projectPath.elim b htag.symm (fun _ => payload_inj _) h
  | hostPath => exact hostPath.elim b htag.symm (fun _ => payload_inj _) h
  | envVar => exact envVar.elim b htag.symm (fun _ => payload_inj _) h
  | network => exact network.elim b htag.symm (fun _ => payload_inj _) h
  | service => exact service.elim b htag.symm (fun _ => payload_inj _) h
  | actorState => exact actorState.elim b htag.symm (fun _ => payload_inj _) h

instance : LexKey ResourceKey := tagged ResourceKey.ctorIdx payload payload_append_inj

end ResourceKey

instance : LinearOrder ResourceKey := LexKey.linearOrder ResourceKey

end Ostadix
