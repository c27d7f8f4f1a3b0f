import Ostadix.SupervisorConfine

/-! An operation on the active set is carried out in full, or it changes nothing that is active. -/

namespace Ostadix.Supervisor

variable {store : String → Option Manifest}

def activeServiceCount (state : SupervisorState) : ℕ :=
  ((orderedValues state.active).map (·.services.keys.length)).sum

/-- Memory and file agree at the next revision, and the limits are kept. -/
structure Committed (w w' : World) : Prop where
  durable : ∃ observed, w.supervisor.observedRevision = some observed ∧
    w'.supervisor.observedRevision = some (observed + 1) ∧
    w'.file = some { persistedFromRecords w'.supervisor.state with revision := observed + 1 }
  packages : w'.supervisor.state.active.entries.length ≤ maxActivePackages
  roots : w'.supervisor.state.rollback.entries.length ≤ maxRollbackPackages
  services : activeServiceCount w'.supervisor.state ≤ maxActiveServices

/-- Packages, owners and users are as before. So is the file, unless only its directory could not be
synced: then it holds what the operation was to publish. -/
structure Untouched (store : String → Option Manifest) (env : Environment) (origin : String → Prop)
    (w w' : World) : Prop where
  active : w'.supervisor.state.active = w.supervisor.state.active
  owners : w'.supervisor.state.serviceOwners = w.supervisor.state.serviceOwners
  bearers : w'.supervisor.bearers = w.supervisor.bearers
  session : w'.supervisor.session = w.supervisor.session
  file : w'.file = w.file ∨ env.write = .unsynced ∧ ∃ observed base next assigned touched,
    w.supervisor.observedRevision = some observed ∧ Roots w.supervisor.state base ∧
    Publication store origin { w.supervisor.state with rollback := base } next assigned touched ∧
    w'.file = some { persistedFromRecords next with revision := observed + 1 }

def Atomic (store : String → Option Manifest) (env : Environment) (origin : String → Prop)
    (repeated : Prop) (w : World) (done : Done Unit) : Prop :=
  match done.result with
  | .ok () => (repeated → done.world = w) ∧ (¬repeated → Committed w done.world)
  | .error _ => Untouched store env origin w done.world

lemma activeServiceCount_eq {state : SupervisorState} (hstate : Coherent state)
    (hnames : ∀ record ∈ (persistedFromRecords state).active,
      (record.services.map (·.name)).Nodup) :
    activeServiceCount state = serviceCount (persistedFromRecords state).active := by
  rw [activeServiceCount, serviceCount, persistedFromRecords, List.map_map]
  congr 1
  apply List.map_congr_left
  intro package hpackage
  obtain ⟨p, hp⟩ := mem_orderedValues.1 hpackage
  have hrecord := hnames package.record (List.mem_map_of_mem hpackage)
  have hperm : package.services.keys.Perm (package.record.services.map (·.name)) := by
    rw [List.perm_ext_iff_of_nodup package.services.keys_nodup hrecord]
    exact fun s => AList.mem_keys.symm.trans (hstate.described p package hp s)
  simpa using hperm.length_eq

lemma committed_of_published {w : World} {nextProcess observed : ℕ} {state : SupervisorState}
    {bearers : Table ℕ BearerBinding} (hstate : Coherent state)
    (hobserved : w.supervisor.observedRevision = some observed)
    (hreplaces : Replaces w.file observed (persistedFromRecords state)) :
    Committed w
      { w with
        nextProcess
        file := some { persistedFromRecords state with revision := observed + 1 }
        supervisor :=
          { w.supervisor with observedRevision := some (observed + 1), state, bearers } } := by
  have hshape := wellShaped_of_validate hreplaces.shape
  refine ⟨⟨observed, hobserved, rfl, rfl⟩, ?_, ?_, ?_⟩
  · simpa [persistedFromRecords] using hshape.packages
  · simpa [persistedFromRecords] using hshape.roots
  · dsimp only
    rw [activeServiceCount_eq hstate hshape.serviceNames]
    exact hshape.services

lemma Transaction.atomic {w : World} (hstate : Coherent w.supervisor.state) {env : Environment}
    {origin : String → Prop} {repeated : Prop} {done : Done Unit}
    (h : Transaction store env origin repeated w done) :
    Atomic store env origin repeated w done := by
  cases h with
  | failed nextProcess roots e sound => exact ⟨rfl, rfl, rfl, rfl, .inl rfl⟩
  | unsynced nextProcess observed roots base next assigned touched e sound rooted based observes
      publication replaces write =>
    exact ⟨rfl, rfl, rfl, rfl, .inr ⟨write, observed, base, next, assigned, touched, observes,
      rooted, publication, rfl⟩⟩
  | unchanged known => exact ⟨fun _ => rfl, absurd known⟩
  | published nextProcess observed base next assigned touched affected owners rooted based observes
      publication replaces owned revoked fresh =>
    refine ⟨fun known => absurd known fresh, fun _ => ?_⟩
    exact committed_of_published (publication.coherent (hstate.withRoots rooted) owned) observes
      replaces

/-- From every reachable state, a successful operation other than a repeated activation leaves
memory and file equal at the next revision, within the limits; a failing one leaves packages, owners
and bearers alone. -/
theorem mutations_atomic {Value : Type} (store : String → Option Manifest)
    (structural : Value → Bool) (events : List (Event Value)) (env : Environment)
    (mutation : Mutation) :
    let h := run store structural events
    let done := mutation.perform store env h.world
    Owners done.world.supervisor.state.active done.world.supervisor.state.serviceOwners ∧
      Atomic store env (mutation.Origin h.world.supervisor.state)
        (mutation.Repeated store h.world.supervisor.state) h.world done := by
  intro h done
  have hconfined := confined_run store structural events
  have htransaction : Transaction store env _ _ h.world done :=
    transaction_of_perform hconfined.coherent mutation
  exact ⟨(hconfined.transaction htransaction).coherent.owners,
    htransaction.atomic hconfined.coherent⟩

/-- A rollback that cannot write leaves the new generation in memory, and activation does not write
it. -/
def failedRollback : List (Event ℕ) :=
  [.reconstruct {}, .mutate {} (.activate (sampleDigest 'a')),
    .mutate {} (.activate (sampleDigest 'b')), .mutate { write := .failed } (.rollback "app")]

theorem repeated_activation_differs :
    let done := (Mutation.activate (sampleDigest 'b')).perform sampleStore {}
      (run sampleStore (fun _ => true) failedRollback).world
    done.result = .ok () ∧
      done.world.file.map (·.rollback) ≠
        some (persistedFromRecords done.world.supervisor.state).rollback := by
  decide +kernel

end Ostadix.Supervisor
