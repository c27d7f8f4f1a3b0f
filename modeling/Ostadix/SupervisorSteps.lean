import Ostadix.SupervisorPackages

/-! What one operation of the supervisor can do to its state and to the active-set file. -/

namespace Ostadix.Supervisor

open Table AList RestartPlan List

variable {store : String → Option Manifest}

/-! ## Coherent states -/

/-- The workers that a rollback root retains are the ones of its record. -/
def RollbackRoot.Sound (root : RollbackRoot) : Prop :=
  ∀ package, root.runtime = some package → package.record = root.record ∧ package.Described

structure Coherent (state : SupervisorState) : Prop where
  owners : Owners state.active state.serviceOwners
  described : ∀ p package, state.active.lookup p = some package → package.Described
  roots : ∀ p root, state.rollback.lookup p = some root → root.Sound
  anchored : ∀ p ∈ state.rollback, p ∈ state.active

lemma coherent_empty : Coherent {} := by
  refine ⟨?_, ?_, ?_, ?_⟩
  · intro s p
    simp
  all_goals simp

/-- A new owner table is right for the active packages, when no service has two of them. -/
lemma Coherent.one_owner {state : SupervisorState} (hstate : Coherent state)
    {s p q : String} {package package' : ActivePackage}
    (hp : state.active.lookup p = some package) (hs : s ∈ package.services)
    (hq : state.active.lookup q = some package') (hs' : s ∈ package'.services) : p = q := by
  have howner := (hstate.owners s p).2 ⟨package, hp, hs⟩
  rw [(hstate.owners s q).2 ⟨package', hq, hs'⟩] at howner
  exact (Option.some.inj howner).symm

/-! ## Publications -/

/-- A staged package of the given origin that may replace the active one, with new generations. -/
structure Ready (store : String → Option Manifest) (origin : String → Prop)
    (state : SupervisorState) (packageName : String) (package : ActivePackage) : Prop where
  described : package.Described
  owned : ∀ s ∈ package.services, ∀ p, state.serviceOwners.lookup s = some p → p = packageName
  fresh : ∀ s ∈ package.record.services, maxGeneration state < s.generation
  digest : origin package.record.digest
  source : ∃ manifest, store package.record.digest = some manifest ∧
    package.record.services.length = manifest.services.length

/-- The states that can be published, with the generations assigned and the services replaced. -/
inductive Publication (store : String → Option Manifest) (origin : String → Prop)
    (state : SupervisorState) :
    SupervisorState → List (String × ℕ) → List String → Prop
  | install (packageName : String) (package : ActivePackage)
      (ready : Ready store origin state packageName package) :
      Publication store origin state (state.install packageName package)
        package.record.generations (replacedServices state packageName package)
  | restart (plan : RestartPlan) (service world : String) (process : ℕ)
      (active : state.active.lookup plan.packageName = some plan.package)
      (owned : state.serviceOwners.lookup service = some plan.packageName)
      (named : service ∈ plan.package.record.services.map (·.name))
      (fresh : maxGeneration state < plan.generation) :
      Publication store origin state (plan.next state service world process)
        [(service, plan.generation)] [service]

section Publications

variable {origin : String → Prop} {state next : SupervisorState} {assigned : List (String × ℕ)}
  {touched : List String}

lemma lookup_install_active (packageName p : String) (package : ActivePackage) :
    (state.install packageName package).active.lookup p =
      if p = packageName then some package else state.active.lookup p :=
  lookup_insert_eq_ite _ _ _ _

variable {packageName s service : String} {plan : RestartPlan} {process : ℕ}

lemma lookup_install_rollback {p : String} (package : ActivePackage) {root : RollbackRoot}
    (h : (state.install packageName package).rollback.lookup p = some root) :
    state.rollback.lookup p = some root ∨
      ∃ prior, state.active.lookup p = some prior ∧ root = ⟨prior.record, some prior⟩ := by
  simp only [SupervisorState.install] at h
  split at h
  next prior hprior =>
    rw [lookup_insert_eq_ite] at h
    split at h
    next heq =>
      subst heq
      cases h
      exact .inr ⟨prior, hprior, rfl⟩
    next => exact .inl h
  next => exact .inl h

lemma RestartPlan.lookup_next (plan : RestartPlan) (service world p : String) (process : ℕ) :
    (plan.next state service world process).active.lookup p =
      if p = plan.packageName then some
        { record :=
            { plan.package.record with
              services := setGeneration service plan.generation plan.package.record.services }
          services := plan.package.services.insert service
            { protocol := plan.declaration.protocol, generation := plan.generation, world,
              process } }
      else state.active.lookup p :=
  lookup_insert_eq_ite _ _ _ _

@[simp] lemma map_name_setGeneration (service : String) (generation : ℕ)
    (l : List PersistedService) :
    (setGeneration service generation l).map (·.name) = l.map (·.name) := by
  induction l with
  | nil => rfl
  | cons s l ih =>
    rw [setGeneration]
    split
    · rfl
    · simp [ih]

/-- The package of the restarted service runs the same services as before. -/
lemma mem_restarted {active : ActiveService} (hservice : service ∈ plan.package.services) :
    s ∈ plan.package.services.insert service active ↔ s ∈ plan.package.services := by
  rw [mem_insert]
  constructor
  · rintro (rfl | hs)
    · exact hservice
    · exact hs
  · exact .inr

lemma Publication.coherent (h : Publication store origin state next assigned touched)
    (hstate : Coherent state) {owners : Table String String} (howners : Owners next.active owners) :
    Coherent { next with serviceOwners := owners } := by
  refine ⟨howners, ?_, ?_, ?_⟩
  · cases h with
    | install packageName package ready =>
      intro p package' hp
      rw [lookup_install_active] at hp
      split at hp
      · cases hp
        exact ready.described
      · exact hstate.described p package' hp
    | restart plan service world process active owned named =>
      intro p package' hp
      rw [lookup_next] at hp
      split at hp
      · cases hp
        have hdescribed := hstate.described plan.packageName plan.package active
        intro s
        rw [mem_restarted ((hdescribed service).2 named), map_name_setGeneration]
        exact hdescribed s
      · exact hstate.described p package' hp
  · cases h with
    | install packageName package ready =>
      intro p root hroot
      rcases lookup_install_rollback package hroot with hold | ⟨prior, hprior, rfl⟩
      · exact hstate.roots p root hold
      · intro package' hpackage'
        cases hpackage'
        exact ⟨rfl, hstate.described p prior hprior⟩
    | restart plan service world process active owned named =>
      exact hstate.roots
  · cases h with
    | install packageName package ready =>
      intro p hp
      obtain ⟨root, hroot⟩ := mem_iff.1 hp
      refine (mem_insert _).2 (.inr ?_)
      rcases lookup_install_rollback package hroot with hold | ⟨prior, hprior, -⟩
      · exact hstate.anchored p (mem_iff.2 ⟨root, hold⟩)
      · exact mem_iff.2 ⟨prior, hprior⟩
    | restart plan service world process active owned named =>
      exact fun p hp => (mem_insert _).2 (.inr (hstate.anchored p hp))

lemma Publication.exists_owners (h : Publication store origin state next assigned touched)
    (hstate : Coherent state) : ∃ owners, ownersForActive next.active = .ok owners := by
  apply exists_ownersForActive
  intro s p q package₁ package₂ hp hs hq hs'
  cases h with
  | install packageName package ready =>
    have hother : ∀ r package', r ≠ packageName → state.active.lookup r = some package' →
        s ∈ package'.services → s ∉ package.services := by
      intro r package' hne hr hs' hs
      exact hne (ready.owned s hs r ((hstate.owners s r).2 ⟨package', hr, hs'⟩))
    rw [lookup_install_active] at hp hq
    split at hp
    next heq =>
      cases hp
      split at hq
      next heq' => exact heq.trans heq'.symm
      next hne => exact absurd hs (hother q package₂ hne hq hs')
    rename_i hne
    split at hq
    next heq' =>
      cases hq
      exact absurd hs' (hother p package₁ hne hp hs)
    next => exact hstate.one_owner hp hs hq hs'
  | restart plan service world process active owned named =>
    have hservice := (hstate.described _ _ active service).2 named
    have hold : ∀ r package', (plan.next state service world process).active.lookup r =
        some package' → s ∈ package'.services →
        ∃ old, state.active.lookup r = some old ∧ s ∈ old.services := by
      intro r package' hr hs
      rw [lookup_next] at hr
      split at hr
      next heq =>
        subst heq
        cases hr
        exact ⟨plan.package, active, (mem_restarted hservice).1 hs⟩
      next => exact ⟨package', hr, hs⟩
    obtain ⟨old₁, hp₁, hs₁⟩ := hold p package₁ hp hs
    obtain ⟨old₂, hq₂, hs₂⟩ := hold q package₂ hq hs'
    exact hstate.one_owner hp₁ hs₁ hq₂ hs₂

lemma owners_restart {world : String} (hstate : Coherent state)
    (active : state.active.lookup plan.packageName = some plan.package)
    (named : service ∈ plan.package.record.services.map (·.name)) :
    Owners (plan.next state service world process).active state.serviceOwners := by
  have hservice := (hstate.described _ _ active service).2 named
  intro s p
  rw [hstate.owners s p]
  simp only [lookup_next]
  split
  next heq =>
    subst heq
    simp [active, mem_restarted hservice]
  next => rfl

def Runs (state : SupervisorState) (s : String) (process : ℕ) : Prop :=
  ∃ p package service, state.active.lookup p = some package ∧
    package.services.lookup s = some service ∧ service.process = process

/-- A publication leaves the workers of the other services alone. -/
lemma Publication.runs (h : Publication store origin state next assigned touched)
    (hs : s ∉ touched) (hruns : Runs state s process) :
    Runs next s process := by
  obtain ⟨p, old, service, hp, hservice, hprocess⟩ := hruns
  cases h with
  | install packageName package ready =>
    refine ⟨p, old, service, ?_, hservice, hprocess⟩
    rw [lookup_install_active, if_neg, hp]
    rintro rfl
    apply hs
    have hmem : s ∈ old.services := mem_iff.2 ⟨service, hservice⟩
    simp [replacedServices, hp, ← AList.mem_keys, hmem]
  | restart plan service' world process' active =>
    by_cases heq : p = plan.packageName
    · subst heq
      rw [active] at hp
      cases hp
      refine ⟨plan.packageName, _, service,
        (plan.lookup_next service' world plan.packageName process').trans (if_pos rfl), ?_,
        hprocess⟩
      rw [lookup_insert_eq_ite, if_neg, hservice]
      simpa using hs
    · refine ⟨p, old, service, ?_, hservice, hprocess⟩
      rw [lookup_next, if_neg heq, hp]

/-- The bearers of replaced services are revoked. -/
lemma replacedServices_subset (hstate : Coherent state) {package : ActivePackage}
    (described : package.Described) :
    replacedServices state packageName package ⊆
      packageServiceUnion (state.install packageName package) packageName := by
  intro s hs
  simp only [replacedServices, mem_append, mem_flatMap, Option.mem_toList] at hs
  simp only [packageServiceUnion, map_append, mem_append]
  rcases hs with ⟨prior, hprior, hs⟩ | hs
  · right
    have hnamed := (hstate.described packageName prior hprior s).1 (AList.mem_keys.2 hs)
    simpa [SupervisorState.install, hprior] using hnamed
  · left
    rw [lookup_install_active, if_pos rfl]
    simpa using (described s).1 (AList.mem_keys.2 hs)

end Publications

/-! ## Transactions -/

/-- The file is at the observed revision, and the next set has the shape of an active set. -/
structure Replaces (file : Option PersistedActiveSet) (observed : ℕ) (next : PersistedActiveSet) :
    Prop where
  revision : (file.getD {}).revision = observed
  shape : validateActiveSetShape { next with revision := observed + 1 } = .ok ()

lemma nextActiveSet_eq_ok {env : Environment} {file : Option PersistedActiveSet} {observed : ℕ}
    {next set : PersistedActiveSet} (h : nextActiveSet env file observed next = .ok set) :
    Replaces file observed next ∧ set = { next with revision := observed + 1 } := by
  simp only [nextActiveSet, ensureActiveSetRevision, durableActiveSetRevision, bind_eq_ok,
    ensure_eq_ok] at h
  obtain ⟨_, ⟨actual, ⟨_, -, _, -, hactual⟩, hrevision⟩, _, -, _, hshape, h⟩ := h
  cases hactual
  cases h
  exact ⟨⟨hrevision, hshape⟩, rfl⟩

lemma compareExchange_cases (env : Environment) (file : Option PersistedActiveSet) (observed : ℕ)
    (next : PersistedActiveSet) :
    (∃ e, compareExchangeActiveSet env file observed next = (file, .error e)) ∨
      Replaces file observed next ∧
        (env.write = .unsynced ∧ (∃ e, compareExchangeActiveSet env file observed next =
            (some { next with revision := observed + 1 }, .error e)) ∨
          compareExchangeActiveSet env file observed next =
            (some { next with revision := observed + 1 }, .ok (observed + 1))) := by
  rw [compareExchangeActiveSet]
  split
  next e _ => exact .inl ⟨e, rfl⟩
  rename_i set hset
  obtain ⟨hreplaces, rfl⟩ := nextActiveSet_eq_ok hset
  split
  · exact .inl ⟨_, rfl⟩
  next hwrite => exact .inr ⟨hreplaces, .inl ⟨hwrite, _, rfl⟩⟩
  · exact .inr ⟨hreplaces, .inr rfl⟩

def World.withRoots (w : World) (nextProcess : ℕ) (rollback : Table String RollbackRoot) : World :=
  { w with
    nextProcess
    supervisor := { w.supervisor with state := { w.supervisor.state with rollback } } }

/-- Records of one package and one digest, perhaps with other generations. -/
def SameOrigin (a b : PersistedPackage) : Prop :=
  a.packageName = b.packageName ∧ a.digest = b.digest

/-- Rollback roots that are those of the state, up to their generations and workers. -/
def Roots (state : SupervisorState) (roots : Table String RollbackRoot) : Prop :=
  ∀ p root, roots.lookup p = some root →
    root.Sound ∧ ∃ old, state.rollback.lookup p = some old ∧ SameOrigin root.record old.record

/-- The rollback roots that a failed operation leaves behind: none is lost. -/
structure Restored (state : SupervisorState) (roots : Table String RollbackRoot) : Prop where
  sound : Roots state roots
  kept : ∀ p ∈ state.rollback, p ∈ roots

/-- The roots that an operation starts from are all of them, or all but one that it replaces. -/
def Based (state : SupervisorState) (base : Table String RollbackRoot) (next : SupervisorState) :
    Prop :=
  base = state.rollback ∨ ∃ p ∈ next.rollback, base = state.rollback.erase p

/-- All that an activation, a rollback or a restart can do, with packages of the given origin. -/
inductive Transaction (store : String → Option Manifest) (env : Environment)
    (origin : String → Prop) (repeated : Prop) (w : World) : Done Unit → Prop
  | failed (nextProcess : ℕ) (roots : Table String RollbackRoot) (e : String)
      (sound : Restored w.supervisor.state roots) :
      Transaction store env origin repeated w ⟨w.withRoots nextProcess roots, [], .error e⟩
  | unsynced (nextProcess observed : ℕ) (roots base : Table String RollbackRoot)
      (next : SupervisorState) (assigned : List (String × ℕ)) (touched : List String) (e : String)
      (sound : Restored w.supervisor.state roots) (rooted : Roots w.supervisor.state base)
      (based : Based w.supervisor.state base next)
      (observes : w.supervisor.observedRevision = some observed)
      (publication : Publication store origin { w.supervisor.state with rollback := base } next
        assigned touched)
      (replaces : Replaces w.file observed (persistedFromRecords next))
      (write : env.write = .unsynced) :
      Transaction store env origin repeated w
        ⟨{ w.withRoots nextProcess roots with
            file := some { persistedFromRecords next with revision := observed + 1 } }, [],
          .error e⟩
  | unchanged (known : repeated) : Transaction store env origin repeated w ⟨w, [], .ok ()⟩
  | published (nextProcess observed : ℕ) (base : Table String RollbackRoot)
      (next : SupervisorState) (assigned : List (String × ℕ)) (touched affected : List String)
      (owners : Table String String) (rooted : Roots w.supervisor.state base)
      (based : Based w.supervisor.state base next)
      (observes : w.supervisor.observedRevision = some observed)
      (publication : Publication store origin { w.supervisor.state with rollback := base } next
        assigned touched)
      (replaces : Replaces w.file observed (persistedFromRecords next))
      (owned : Owners next.active owners) (revoked : touched ⊆ affected) (fresh : ¬repeated) :
      Transaction store env origin repeated w
        ⟨{ w with
            nextProcess
            file := some { persistedFromRecords next with revision := observed + 1 }
            supervisor :=
              { w.supervisor with
                observedRevision := some (observed + 1)
                state := { next with serviceOwners := owners }
                bearers := revokeServices affected w.supervisor.bearers } },
          assignedOutputs assigned ++ touched.map .disturbed, .ok ()⟩

section Transactions

variable {env : Environment} {origin : String → Prop} {repeated : Prop} {w : World}

variable {state : SupervisorState} {packageName : String} {base : Table String RollbackRoot}
  {observed : ℕ} {root : RollbackRoot}

lemma owned_of_foreignOwner {l : List String} (h : foreignOwner state packageName l = none) :
    ∀ s ∈ l, ∀ p, state.serviceOwners.lookup s = some p → p = packageName := by
  intro s hs p hp
  have hnone := findSome?_eq_none_iff.1 h s hs
  rw [hp] at hnone
  by_contra hne
  simp [hne] at hnone

lemma Coherent.roots_self (hstate : Coherent state) : Roots state state.rollback := by
  intro p root hroot
  exact ⟨hstate.roots p root hroot, root, hroot, rfl, rfl⟩

lemma Coherent.restored_self (hstate : Coherent state) : Restored state state.rollback :=
  ⟨hstate.roots_self, fun _ hp => hp⟩

lemma Coherent.withRoots (hstate : Coherent state) (hbase : Roots state base) :
    Coherent { state with rollback := base } where
  owners := hstate.owners
  described := hstate.described
  roots := fun p root hroot => (hbase p root hroot).1
  anchored := by
    intro p hp
    obtain ⟨root, hroot⟩ := mem_iff.1 hp
    obtain ⟨-, old, hold, -⟩ := hbase p root hroot
    exact hstate.anchored p (mem_iff.2 ⟨old, hold⟩)

variable {package : ActivePackage} {next process : ℕ}

lemma transaction_of_commit (hstate : Coherent w.supervisor.state) {nextProcess : ℕ}
    {roots : Table String RollbackRoot} (hbase : Roots w.supervisor.state base)
    (hroots : Restored w.supervisor.state roots)
    (hobserved : w.supervisor.observedRevision = some observed)
    (hready : Ready store origin { w.supervisor.state with rollback := base } packageName package)
    (hbased : Based w.supervisor.state base
      ({ w.supervisor.state with rollback := base }.install packageName package))
    (hfresh : ¬repeated) :
    Transaction store env origin repeated w
      (commit env (w.withRoots nextProcess base) observed packageName package
        { w.supervisor.state with rollback := roots }) := by
  have hbaseState := hstate.withRoots hbase
  have hpublication := Publication.install packageName package hready
  rw [commit]
  rcases compareExchange_cases env (w.withRoots nextProcess base).file observed
    (persistedFromRecords ((w.withRoots nextProcess base).supervisor.state.install packageName
      package)) with ⟨e, he⟩ | ⟨hreplaces, ⟨hwrite, e, he⟩ | hok⟩
  · rw [he]
    exact .failed nextProcess roots e hroots
  · rw [he]
    exact .unsynced nextProcess observed roots base _ _ _ e hroots hbase hbased hobserved
      hpublication hreplaces hwrite
  rw [hok]
  -- The packages share no service, so the owners are found.
  obtain ⟨owners, howners⟩ := hpublication.exists_owners hbaseState
  have howners' : ownersForActive
      ((w.withRoots nextProcess base).supervisor.state.install packageName package).active =
      .ok owners := howners
  rw [howners']
  exact .published nextProcess observed base _ _ _ _ owners hbase hbased hobserved hpublication
    hreplaces (owners_of_ownersForActive howners)
    (replacedServices_subset hbaseState hready.described) hfresh

def AlreadyActive (store : String → Option Manifest) (state : SupervisorState) (digest : String) :
    Prop :=
  ∃ manifest package, store digest = some manifest ∧
    state.active.lookup manifest.name = some package ∧ package.record.digest = digest

lemma alreadyActive_of_prepareActivation {digest : String} {manifest : Manifest}
    (h : prepareActivation store env w digest = .ok (observed, manifest, none)) :
    AlreadyActive store w.supervisor.state digest := by
  simp only [prepareActivation, mutationRevision, verifyPackage, admitPackage, bind_eq_ok,
    orError_eq_ok, ensure_eq_ok] at h
  obtain ⟨_, _, _, ⟨stored, hstore, _, _, hmanifest⟩, _, _, h⟩ := h
  cases hmanifest
  split at h
  next hany =>
    obtain ⟨package, hpackage, hdigest⟩ := Option.any_eq_true _ _ |>.1 hany
    exact ⟨_, package, hstore, hpackage, by simpa using hdigest⟩
  simp only [bind_eq_ok, ensure_eq_ok] at h
  obtain ⟨_, _, _, _, h⟩ := h
  split at h
  · cases h
  · simp only [bind_eq_ok] at h
    obtain ⟨_, _, h⟩ := h
    cases h

lemma transaction_of_activate (hstate : Coherent w.supervisor.state) (digest : String) :
    Transaction store env (· = digest) (AlreadyActive store w.supervisor.state digest) w
      (activate store env w digest) := by
  rw [activate]
  split
  · exact .failed w.nextProcess _ _ hstate.restored_self
  next hprepare => exact .unchanged (alreadyActive_of_prepareActivation hprepare)
  rename_i observed manifest generations hprepare
  simp only [prepareActivation, mutationRevision, verifyPackage, admitPackage, bind_eq_ok,
    orError_eq_ok, ensure_eq_ok] at hprepare
  obtain ⟨observed', hobserved, manifest', ⟨stored, hstore, _, _, hmanifest⟩, _, _, hprepare⟩ :=
    hprepare
  cases hmanifest
  split at hprepare
  · simp only [bind_eq_ok] at hprepare
    obtain ⟨_, _, hprepare⟩ := hprepare
    cases hprepare
  rename_i hother
  simp only [bind_eq_ok, ensure_eq_ok] at hprepare
  obtain ⟨_, _, _, _, hprepare⟩ := hprepare
  split at hprepare
  · cases hprepare
  rename_i hforeign
  simp only [bind_eq_ok] at hprepare
  obtain ⟨generations', hgenerations, hprepare⟩ := hprepare
  cases hprepare
  split
  next nextProcess e _ => exact .failed nextProcess _ e hstate.restored_self
  rename_i nextProcess package hpackage
  have hstaged := staged_of_stagePackage (congrArg Prod.snd hpackage)
  refine transaction_of_commit hstate hstate.roots_self hstate.restored_self hobserved
    ⟨hstaged.described, ?_, ?_, ?_, ?_⟩ (.inl rfl) ?_
  · intro s hs
    exact owned_of_foreignOwner hforeign s ((hstaged.names s).1 hs)
  · intro s hs
    exact lt_of_assignGenerations hgenerations (mem_of_lookup (hstaged.recorded s hs))
  · exact hstaged.digest
  · rw [hstaged.digest]
    exact ⟨_, hstore, hstaged.length⟩
  · rintro ⟨manifest, package, hmanifest, hpackage, hdigest⟩
    cases hstore.symm.trans hmanifest
    exact hother (by simp [hpackage, hdigest])

lemma prepareRollback_ok (hroot : root.Sound)
    (h : prepareRollback store env state root process = (next, .ok package)) :
    package.Described ∧ (∀ s ∈ package.record.services, maxGeneration state < s.generation) ∧
      SameOrigin package.record root.record ∧
      ∃ manifest, store package.record.digest = some manifest ∧
        package.record.services.length = manifest.services.length := by
  rw [prepareRollback] at h
  split at h
  · cases h
  rename_i manifest hverify
  obtain ⟨hstore, hmatches⟩ := verifyRecord_eq_ok hverify
  split at h
  · cases h
  rename_i generations hgenerations
  have hfresh : ∀ s g, generations.lookup s = some g → maxGeneration state < g := by
    intro s g hg
    exact lt_of_assignGenerations hgenerations (mem_of_lookup hg)
  split at h
  next retained hretained =>
    obtain ⟨runtime, hruntime, hhealth⟩ := Option.bind_eq_some_iff.1 hretained
    obtain ⟨hrecord, hdescribed⟩ := hroot runtime hruntime
    obtain ⟨hrecord', hdescribed'⟩ := healthExistingPackage_spec hhealth
    split at h
    · cases h
    rename_i package' hregenerate
    cases h
    obtain ⟨hdescribed'', hname, hdigest, hlength, hall⟩ :=
      regeneratePackage_spec (hdescribed' hdescribed) hregenerate
    rw [hrecord', hrecord] at hname hdigest hlength
    refine ⟨hdescribed'', fun s hs => hfresh s.name s.generation (hall s hs), ⟨hname, hdigest⟩,
      manifest, ?_, ?_⟩
    · rw [hdigest, hstore]
    · rw [hlength]
      simpa using (services_of_matches hmatches).length_eq.symm
  split at h
  · cases h
  rename_i hpackage
  cases h
  have hstaged := staged_of_stagePackage (congrArg Prod.snd hpackage)
  refine ⟨hstaged.described, fun s hs => hfresh s.name s.generation (hstaged.recorded s hs),
    ⟨hstaged.name.trans (name_of_matches hmatches).symm, hstaged.digest⟩, manifest, ?_,
    hstaged.length⟩
  rw [hstaged.digest, hstore]

lemma prepareRollback_error {root' : RollbackRoot} (hroot : root.Sound) {e : String}
    (h : prepareRollback store env state root process = (next, .error (root', e))) :
    root'.Sound ∧ root'.record = root.record := by
  have hspent : RollbackRoot.Sound { root with runtime := none } := by
    intro package hpackage
    cases hpackage
  rw [prepareRollback] at h
  split at h
  · cases h
    exact ⟨hroot, rfl⟩
  split at h
  · cases h
    exact ⟨hspent, rfl⟩
  split at h
  · split at h <;> cases h
    exact ⟨hspent, rfl⟩
  · split at h <;> cases h
    exact ⟨hspent, rfl⟩

lemma rollbackRoot_eq_ok (h : rollbackRoot w packageName = .ok (observed, root)) :
    w.supervisor.observedRevision = some observed ∧
      w.supervisor.state.rollback.lookup packageName = some root := by
  simp only [rollbackRoot, mutationRevision, bind_eq_ok, orError_eq_ok, ensure_eq_ok] at h
  obtain ⟨observed', hobserved, root', hroot, _, _, h⟩ := h
  split at h
  · cases h
  · cases h
    exact ⟨hobserved, hroot⟩

/-- Taking a root out, or putting another one of the same digest in its place. -/
lemma Coherent.roots_erase (hstate : Coherent state) (packageName : String) :
    Roots state (state.rollback.erase packageName) := by
  intro p root hp
  by_cases heq : p = packageName
  · subst heq
    rw [lookup_erase] at hp
    cases hp
  · rw [lookup_erase_ne heq] at hp
    exact hstate.roots_self p root hp

lemma Coherent.restored_setRoot (hstate : Coherent state) {old : RollbackRoot}
    (hold : state.rollback.lookup packageName = some old) (hroot : root.Sound)
    (horigin : SameOrigin root.record old.record) :
    Restored state ((state.rollback.erase packageName).insert packageName root) := by
  constructor
  · intro p root' hp
    rw [lookup_insert_eq_ite] at hp
    split at hp
    next heq =>
      subst heq
      cases hp
      exact ⟨hroot, old, hold, horigin⟩
    next => exact hstate.roots_erase packageName p root' hp
  · intro p hp
    rw [mem_insert, mem_erase]
    by_cases heq : p = packageName
    · exact .inl heq
    · exact .inr ⟨heq, hp⟩

def RootDigest (state : SupervisorState) (packageName digest : String) : Prop :=
  ∃ root, state.rollback.lookup packageName = some root ∧ digest = root.record.digest

lemma transaction_of_rollback (hstate : Coherent w.supervisor.state) (packageName : String) :
    Transaction store env (RootDigest w.supervisor.state packageName) False w
      (rollback store env w packageName) := by
  rw [rollback]
  split
  · exact .failed w.nextProcess _ _ hstate.restored_self
  rename_i observed root hroot
  obtain ⟨hobserved, hlookup⟩ := rollbackRoot_eq_ok hroot
  have hsound := hstate.roots packageName root hlookup
  dsimp only
  split
  next nextProcess root' e hprepare =>
    obtain ⟨hsound', hrecord⟩ := prepareRollback_error hsound hprepare
    exact .failed nextProcess _ e
      (hstate.restored_setRoot hlookup hsound' (by rw [hrecord]; exact ⟨rfl, rfl⟩))
  rename_i nextProcess package hprepare
  obtain ⟨hdescribed, hfresh, hsame, hsource⟩ := prepareRollback_ok hsound hprepare
  have hrestored : Restored w.supervisor.state
      ((w.supervisor.state.rollback.erase packageName).insert packageName
        ⟨package.record, some package⟩) := by
    apply hstate.restored_setRoot hlookup _ hsame
    intro package' hpackage'
    cases hpackage'
    exact ⟨rfl, hdescribed⟩
  split
  next service owner _ => exact .failed nextProcess _ _ hrestored
  rename_i hforeign
  have hactive := hstate.anchored packageName (mem_iff.2 ⟨root, hlookup⟩)
  rw [if_pos hactive]
  obtain ⟨prior, hprior⟩ := mem_iff.1 hactive
  refine transaction_of_commit hstate (hstate.roots_erase packageName) hrestored hobserved
    ⟨hdescribed, ?_, hfresh, ?_, hsource⟩ (.inr ⟨packageName, ?_, rfl⟩) not_false
  · intro s hs
    exact owned_of_foreignOwner hforeign s (mem_orderedKeys.2 hs)
  · exact ⟨root, hlookup, hsame.2⟩
  · simp [SupervisorState.install, hprior]

lemma planRestart_eq_ok {service : String} {plan : RestartPlan}
    (h : planRestart store env w service = .ok plan) :
    w.supervisor.observedRevision = some plan.observed ∧
      w.supervisor.state.serviceOwners.lookup service = some plan.packageName ∧
      w.supervisor.state.active.lookup plan.packageName = some plan.package ∧
      maxGeneration w.supervisor.state < plan.generation := by
  simp only [planRestart, mutationRevision, bind_eq_ok, orError_eq_ok] at h
  obtain ⟨observed, hobserved, packageName, hname, package, hpackage, _, _, manifest, _, _, _,
    declaration, _, generation, hgeneration, h⟩ := h
  simp only [checkedNextGeneration, bind_eq_ok, ensure_eq_ok] at hgeneration
  obtain ⟨_, _, hgeneration⟩ := hgeneration
  cases hgeneration
  cases h
  exact ⟨hobserved, hname, hpackage, Nat.lt_succ_self _⟩

lemma transaction_of_restartService (hstate : Coherent w.supervisor.state) (service : String) :
    Transaction store env (fun _ => False) False w (restartService store env w service) := by
  rw [restartService]
  split
  · exact .failed w.nextProcess _ _ hstate.restored_self
  rename_i plan hplan
  obtain ⟨hobserved, howner, hactive, hfresh⟩ := planRestart_eq_ok hplan
  split
  · exact .failed (w.nextProcess + 1) _ _ hstate.restored_self
  rename_i world _
  dsimp only
  split
  · exact .failed (w.nextProcess + 1) _ _ hstate.restored_self
  rename_i hnamed
  rw [not_not] at hnamed
  have hpublication : Publication store (fun _ => False) w.supervisor.state _ _ _ :=
    .restart plan service world w.nextProcess hactive howner hnamed hfresh
  rcases compareExchange_cases env w.file plan.observed (persistedFromRecords
    (plan.next w.supervisor.state service world w.nextProcess)) with
    ⟨e, he⟩ | ⟨hreplaces, ⟨hwrite, e, he⟩ | hok⟩
  · rw [he]
    exact .failed (w.nextProcess + 1) _ e hstate.restored_self
  · rw [he]
    exact .unsynced (w.nextProcess + 1) plan.observed w.supervisor.state.rollback
      w.supervisor.state.rollback _ _ _ e hstate.restored_self hstate.roots_self (.inl rfl)
      hobserved hpublication hreplaces hwrite
  rw [hok]
  exact .published (w.nextProcess + 1) plan.observed w.supervisor.state.rollback _ _ _
    [service] w.supervisor.state.serviceOwners hstate.roots_self (.inl rfl) hobserved hpublication
    hreplaces (owners_restart hstate hactive hnamed) (List.Subset.refl _) not_false

inductive Mutation where
  | activate (digest : String)
  | rollback (packageName : String)
  | restartService (service : String)

def Mutation.perform (store : String → Option Manifest) (env : Environment) (w : World) :
    Mutation → Done Unit
  | .activate digest => Supervisor.activate store env w digest
  | .rollback packageName => Supervisor.rollback store env w packageName
  | .restartService service => Supervisor.restartService store env w service

def Mutation.Origin (state : SupervisorState) : Mutation → String → Prop
  | .activate digest => (· = digest)
  | .rollback packageName => RootDigest state packageName
  | .restartService _ => fun _ => False

def Mutation.Repeated (store : String → Option Manifest) (state : SupervisorState) :
    Mutation → Prop
  | .activate digest => AlreadyActive store state digest
  | .rollback _ => False
  | .restartService _ => False

lemma transaction_of_perform (hstate : Coherent w.supervisor.state) (mutation : Mutation) :
    Transaction store env (mutation.Origin w.supervisor.state)
      (mutation.Repeated store w.supervisor.state) w (mutation.perform store env w) := by
  cases mutation with
  | activate digest => exact transaction_of_activate hstate digest
  | rollback packageName => exact transaction_of_rollback hstate packageName
  | restartService service => exact transaction_of_restartService hstate service

end Transactions

/-! ## Reconstruction -/

/-- Records of one package with the same services, in any order. -/
structure SameRecord (a b : PersistedPackage) : Prop where
  name : a.packageName = b.packageName
  digest : a.digest = b.digest
  services : a.services.Perm b.services

/-- A package that is rebuilt from its record keeps it. -/
structure Rebuilt (record : PersistedPackage) (package : ActivePackage) : Prop where
  described : package.Described
  same : SameRecord record package.record
  running : ∀ s service, package.services.lookup s = some service →
    (s, service.generation) ∈ record.generations

section Reconstruction

variable {env : Environment}

variable {package : ActivePackage}

lemma rebuilt_of_staged {record : PersistedPackage} {manifest : Manifest}
    (hnames : (record.services.map (·.name)).Nodup)
    (hmatches : verifyRecordMatches record manifest = .ok ())
    (h : Staged record.digest manifest record.generations package) : Rebuilt record package := by
  refine ⟨h.described, ⟨(name_of_matches hmatches).trans h.name.symm, h.digest.symm, ?_⟩,
    fun s service hs => mem_of_lookup (h.running s service hs)⟩
  have hfirst : (record.generations.map Prod.fst).Nodup := by
    simpa [PersistedPackage.generations, Function.comp_def] using hnames
  -- Name and protocol of a service, with the generation of the record, are the service itself.
  let restore (x : String × String) : PersistedService :=
    ⟨x.1, x.2, (record.generations.lookup x.1).getD 0⟩
  have hself : record.services.map (fun s => restore (s.name, s.protocol)) = record.services := by
    refine (map_congr_left fun s hs => ?_).trans (map_id _)
    have hlookup : record.generations.lookup s.name = some s.generation :=
      lookup_eq_some_of_mem hfirst (e := (s.name, s.generation)) (mem_map_of_mem hs)
    simp [restore, hlookup]
  have hperm := (services_of_matches hmatches).symm.map restore
  simp only [map_map, Function.comp_def, hself] at hperm
  exact hperm.trans h.services.symm

/-- The packages that are rebuilt from a list of records, over the ones staged before. -/
structure RebuiltAll (records : List PersistedPackage) (staged active : Table String ActivePackage)
    (owners : Table String String) : Prop where
  owners : Owners active owners
  forward : ∀ record ∈ records, ∃ package, active.lookup record.packageName = some package ∧
    Rebuilt record package
  kept : ∀ p package, staged.lookup p = some package → active.lookup p = some package
  backward : ∀ p package, active.lookup p = some package → staged.lookup p = some package ∨
    ∃ record ∈ records, record.packageName = p ∧ Rebuilt record package

variable {staged : Table String ActivePackage} {owners owners' : Table String String}
  {records : List PersistedPackage}

lemma RebuiltAll.exists_record {active : Table String ActivePackage} {p : String}
    (h : RebuiltAll records ∅ active owners) (hp : active.lookup p = some package) :
    ∃ record ∈ records, record.packageName = p ∧ Rebuilt record package := by
  rcases h.backward p package hp with hempty | hrecord
  · rw [AList.lookup_empty] at hempty
    cases hempty
  · exact hrecord

lemma owners_insert {verb name : String} (howners : Owners staged owners) (hnew : name ∉ staged)
    (h : addOwners verb name owners (orderedKeys package.services) = .ok owners') :
    Owners (staged.insert name package) owners' := by
  intro s p
  have hnone : staged.lookup name = none := lookup_eq_none.2 hnew
  rw [lookup_of_addOwners h, howners s p, mem_orderedKeys]
  simp only [lookup_insert_eq_ite]
  split
  next heq =>
    subst heq
    simp [hnone]
  next hne => simp [Ne.symm hne]

lemma reconstructActive_spec {process next : ℕ} {active : Table String ActivePackage}
    (h : reconstructActive store env process staged owners records = (next, .ok (active, owners')))
    (howners : Owners staged owners) (hnew : ∀ record ∈ records, record.packageName ∉ staged)
    (hnames : (records.map (·.packageName)).Nodup)
    (hservices : ∀ record ∈ records, (record.services.map (·.name)).Nodup) :
    RebuiltAll records staged active owners' := by
  induction records generalizing process staged owners with
  | nil =>
    cases h
    exact ⟨howners, by simp, fun p package hp => hp, fun p package hp => .inl hp⟩
  | cons record records ih =>
    obtain ⟨hnewHead, hnewTail⟩ := forall_mem_cons.1 hnew
    obtain ⟨hserviceHead, hserviceTail⟩ := forall_mem_cons.1 hservices
    rw [map_cons, nodup_cons] at hnames
    rw [reconstructActive] at h
    split at h
    · cases h
    rename_i manifest hverify
    obtain ⟨-, hmatches⟩ := verifyRecord_eq_ok hverify
    split at h
    · cases h
    rename_i next' package hpackage
    have hrebuilt := rebuilt_of_staged hserviceHead hmatches
      (staged_of_stagePackage (congrArg Prod.snd hpackage))
    split at h
    · cases h
    rename_i owners₁ howners₁
    have hnew' : ∀ r ∈ records, r.packageName ∉ staged.insert record.packageName package := by
      intro r hr hmem
      rcases (mem_insert _).1 hmem with heq | hold
      · exact hnames.1 (mem_map.2 ⟨r, hr, heq⟩)
      · exact hnewTail r hr hold
    have hall := ih h (owners_insert howners hnewHead howners₁) hnew' hnames.2 hserviceTail
    have hself : active.lookup record.packageName = some package := by
      apply hall.kept
      rw [lookup_insert_eq_ite, if_pos rfl]
    refine ⟨hall.owners, ?_, ?_, ?_⟩
    · intro r hr
      rcases mem_cons.1 hr with rfl | hr
      · exact ⟨package, hself, hrebuilt⟩
      · exact hall.forward r hr
    · intro p package' hp
      apply hall.kept
      rw [lookup_insert_eq_ite, if_neg, hp]
      rintro rfl
      exact hnewHead (mem_iff.2 ⟨package', hp⟩)
    intro p package' hp
    rcases hall.backward p package' hp with hold | ⟨r, hr, hname, hr'⟩
    · rw [lookup_insert_eq_ite] at hold
      split at hold
      next heq =>
        cases hold
        exact .inr ⟨record, mem_cons_self, heq.symm, hrebuilt⟩
      next => exact .inl hold
    · exact .inr ⟨r, mem_cons_of_mem _ hr, hname, hr'⟩

/-- The rollback roots that are rebuilt from a set, each of an active package. -/
structure RebuiltRoots (set : PersistedActiveSet) (rollback : Table String RollbackRoot) :
    Prop where
  forward : ∀ record ∈ set.rollback, ∃ root, rollback.lookup record.packageName = some root ∧
    root.record = record
  backward : ∀ p root, rollback.lookup p = some root →
    root.record ∈ set.rollback ∧ root.record.packageName = p ∧ root.runtime = none
  anchored : ∀ record ∈ set.rollback, record.packageName ∈ set.active.map (·.packageName)

inductive Reconstruction (w : World) : Done Unit → Prop
  | failed (nextProcess nextIdentity : ℕ) (e : String) (later : w.nextIdentity ≤ nextIdentity) :
      Reconstruction w ⟨{ w with nextProcess, nextIdentity }, [], .error e⟩
  | rebuilt (nextProcess : ℕ) (state : SupervisorState)
      (active : RebuiltAll (w.file.getD {}).active ∅ state.active state.serviceOwners)
      (roots : RebuiltRoots (w.file.getD {}) state.rollback) :
      Reconstruction w
        ⟨{ w with
            nextProcess
            nextIdentity := w.nextIdentity + 1
            supervisor :=
              { session := w.nextIdentity, observedRevision := some (w.file.getD {}).revision,
                state } },
          .reconstructed :: (services state).map fun s => .republished s.1 s.2, .ok ()⟩

lemma reconstructRollback_spec {rollback : Table String RollbackRoot}
    (h : reconstructRollback store env records = .ok rollback)
    (hnames : (records.map (·.packageName)).Nodup) :
    (∀ record ∈ records, ∃ root, rollback.lookup record.packageName = some root ∧
      root.record = record) ∧
    ∀ p root, rollback.lookup p = some root →
      root.record ∈ records ∧ root.record.packageName = p ∧ root.runtime = none := by
  refine @foldlM_history _ _ _ _ records [] _ _ (fun seen (roots : Table String RollbackRoot) =>
    (seen.map (·.packageName)).Nodup →
      (∀ record ∈ seen, ∃ root, roots.lookup record.packageName = some root ∧
        root.record = record) ∧
      ∀ p root, roots.lookup p = some root →
        root.record ∈ seen ∧ root.record.packageName = p ∧ root.runtime = none) h ?_ ?_ hnames
  · simp
  intro seen record roots roots' hstep hroots hseen
  simp only [bind_eq_ok] at hstep
  obtain ⟨_, _, hstep⟩ := hstep
  cases hstep
  rw [map_append, nodup_append] at hseen
  obtain ⟨hforward, hbackward⟩ := hroots hseen.1
  constructor
  · intro r hr
    rw [lookup_insert_eq_ite]
    rcases mem_append.1 hr with hr | hr
    · rw [if_neg]
      · exact hforward r hr
      · exact hseen.2.2 _ (mem_map_of_mem hr) _ (by simp)
    · obtain rfl := mem_singleton.1 hr
      exact ⟨_, if_pos rfl, rfl⟩
  · intro p root hp
    rw [lookup_insert_eq_ite] at hp
    split at hp
    next heq =>
      cases hp
      exact ⟨by simp, heq.symm, rfl⟩
    next =>
      obtain ⟨hmem, hrest⟩ := hbackward p root hp
      exact ⟨mem_append_left _ hmem, hrest⟩

lemma reconstruction_of_reconstruct (w : World) : Reconstruction w (reconstruct store env w) := by
  rw [reconstruct]
  split
  · exact .failed w.nextProcess w.nextIdentity _ le_rfl
  rename_i set hset
  simp only [readActiveSet, bind_eq_ok, ensure_eq_ok] at hset
  obtain ⟨_, _, _, hshape, hset⟩ := hset
  cases hset
  have hwell := wellShaped_of_validate hshape
  split
  next nextProcess e _ => exact .failed nextProcess (w.nextIdentity + 1) e (Nat.le_succ _)
  rename_i nextProcess active owners hactive
  split
  next e _ => exact .failed nextProcess (w.nextIdentity + 1) e (Nat.le_succ _)
  next rollback hrollback =>
    obtain ⟨hforward, hbackward⟩ := reconstructRollback_spec hrollback hwell.rollbackNames
    refine .rebuilt nextProcess ⟨active, rollback, owners⟩ ?_ ⟨hforward, hbackward, hwell.anchored⟩
    apply reconstructActive_spec hactive _ (by simp) hwell.activeNames hwell.serviceNames
    intro s p
    simp

end Reconstruction

end Ostadix.Supervisor
