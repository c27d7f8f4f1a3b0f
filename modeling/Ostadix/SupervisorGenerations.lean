import Ostadix.SupervisorCommit

/-! Several supervisors share one active-set file. The generations that they assign grow. -/

namespace Ostadix.Supervisor

open List

variable {store : String → Option Manifest}

/-! ## Supervisors that share a file -/

/-- The shared file with all its earlier contents, and the supervisors. -/
structure Fleet where
  file : Option PersistedActiveSet := none
  files : List PersistedActiveSet := []
  nextProcess : ℕ := 0
  nextIdentity : ℕ := 1
  supervisors : ℕ → HostedSupervisor := fun _ => {}

def Fleet.world (fleet : Fleet) (i : ℕ) : World where
  file := fleet.file
  nextProcess := fleet.nextProcess
  nextIdentity := fleet.nextIdentity
  supervisor := fleet.supervisors i

def Fleet.absorb (fleet : Fleet) (i : ℕ) (w : World) : Fleet where
  file := w.file
  files := fleet.files ++ w.file.toList
  nextProcess := w.nextProcess
  nextIdentity := w.nextIdentity
  supervisors := Function.update fleet.supervisors i w.supervisor

inductive FleetEvent where
  | reconstruct (env : Environment)
  | mutate (env : Environment) (mutation : Mutation)

def FleetEvent.perform (store : String → Option Manifest) (w : World) : FleetEvent → Done Unit
  | .reconstruct env => Supervisor.reconstruct store env w
  | .mutate env mutation => mutation.perform store env w

def Fleet.step (store : String → Option Manifest) (fleet : Fleet) (event : ℕ × FleetEvent) :
    Fleet :=
  fleet.absorb event.1 (event.2.perform store (fleet.world event.1)).world

def Fleet.run (store : String → Option Manifest) (events : List (ℕ × FleetEvent)) : Fleet :=
  events.foldl (Fleet.step store) {}

def Populated (store : String → Option Manifest) (digest : String) : Prop :=
  ∀ manifest, store digest = some manifest → manifest.services ≠ []

def FleetEvent.Populated (store : String → Option Manifest) : FleetEvent → Prop
  | .mutate _ (.activate digest) => Supervisor.Populated store digest
  | _ => True

/-! ## What a publication does to the generations -/

section Publications

variable {origin : String → Prop} {state next : SupervisorState} {assigned : List (String × ℕ)}
  {touched : List String}

def activeServices (state : SupervisorState) : List PersistedService :=
  (orderedValues state.active).flatMap (·.record.services)

variable {s : PersistedService}

lemma mem_activeServices :
    s ∈ activeServices state ↔
      ∃ p package, state.active.lookup p = some package ∧ s ∈ package.record.services := by
  simp only [activeServices, List.mem_flatMap, mem_orderedValues]
  constructor
  · rintro ⟨package, ⟨p, hp⟩, hs⟩
    exact ⟨p, package, hp, hs⟩
  · rintro ⟨p, package, hp, hs⟩
    exact ⟨package, ⟨p, hp⟩, hs⟩

lemma mem_recordedServices :
    s ∈ recordedServices state ↔ s ∈ activeServices state ∨
      ∃ p root, state.rollback.lookup p = some root ∧ s ∈ root.record.services := by
  rw [recordedServices, List.mem_append, activeServices]
  apply or_congr Iff.rfl
  simp only [List.mem_flatMap, mem_orderedValues]
  constructor
  · rintro ⟨root, ⟨p, hp⟩, hs⟩
    exact ⟨p, root, hp, hs⟩
  · rintro ⟨p, root, hp, hs⟩
    exact ⟨root, ⟨p, hp⟩, hs⟩

lemma le_maxGeneration (h : s ∈ recordedServices state) : s.generation ≤ maxGeneration state := by
  have hle : ∀ (l : List ℕ) (start n : ℕ), n ∈ l ∨ n ≤ start → n ≤ l.foldl max start := by
    intro l
    induction l with
    | nil =>
      intro start n hn
      simpa using hn
    | cons m l ih =>
      intro start n hn
      apply ih
      rcases hn with hn | hn
      · rcases List.mem_cons.1 hn with rfl | hn
        · exact .inr (le_max_right _ _)
        · exact .inl hn
      · exact .inr (hn.trans (le_max_left _ _))
  exact hle _ 0 _ (.inl (List.mem_map_of_mem h))

lemma exists_setGeneration {service : String} (generation : ℕ) {l : List PersistedService}
    (h : service ∈ l.map (·.name)) :
    ∃ s ∈ setGeneration service generation l, s.generation = generation := by
  induction l with
  | nil => cases h
  | cons t l ih =>
    rw [setGeneration]
    split
    · exact ⟨_, List.mem_cons_self, rfl⟩
    next hne =>
      rcases List.mem_cons.1 h with heq | h
      · exact absurd heq.symm hne
      · obtain ⟨s, hs, hgeneration⟩ := ih h
        exact ⟨s, mem_cons_of_mem _ hs, hgeneration⟩

structure Digests (P : String → Prop) (state : SupervisorState) : Prop where
  active : ∀ p package, state.active.lookup p = some package → P package.record.digest
  rollback : ∀ p root, state.rollback.lookup p = some root → P root.record.digest

lemma Digests.withRoots {P : String → Prop} (h : Digests P state)
    {roots : Table String RollbackRoot} (hroots : Roots state roots) :
    Digests P { state with rollback := roots } := by
  refine ⟨h.active, ?_⟩
  intro p root hroot
  obtain ⟨-, old, hold, -, hdigest⟩ := hroots p root hroot
  rw [hdigest]
  exact h.rollback p old hold

variable (h : Publication store origin state next assigned touched)

include h

lemma Publication.fresh {g : String × ℕ} (hg : g ∈ assigned) : maxGeneration state < g.2 := by
  cases h with
  | install packageName package ready =>
    obtain ⟨s, hs, rfl⟩ := mem_map.1 hg
    exact ready.fresh s hs
  | restart plan service world process active owned named fresh =>
    rw [mem_singleton.1 hg]
    exact fresh

lemma Publication.recorded {g : String × ℕ} (hg : g ∈ assigned) :
    ∃ s ∈ activeServices next, s.generation = g.2 := by
  cases h with
  | install packageName package ready =>
    obtain ⟨s, hs, rfl⟩ := mem_map.1 hg
    refine ⟨s, mem_activeServices.2 ⟨packageName, package, ?_, hs⟩, rfl⟩
    rw [lookup_install_active, if_pos rfl]
  | restart plan service world process active owned named =>
    rw [mem_singleton.1 hg]
    obtain ⟨s, hs, hgeneration⟩ := exists_setGeneration plan.generation named
    refine ⟨s, mem_activeServices.2 ⟨plan.packageName, _,
      (plan.lookup_next service world plan.packageName process).trans (if_pos rfl), hs⟩,
      hgeneration⟩

/-- What a publication records was recorded in memory before, or it is active now. -/
lemma Publication.old_or_active (hmem : s ∈ recordedServices next) :
    s ∈ recordedServices state ∨ s ∈ activeServices next := by
  rcases mem_recordedServices.1 hmem with hs | ⟨p, root, hroot, hs⟩
  · exact .inr hs
  left
  rw [mem_recordedServices]
  cases h with
  | install packageName package ready =>
    rcases lookup_install_rollback package hroot with hold | ⟨prior, hprior, rfl⟩
    · exact .inr ⟨p, root, hold, hs⟩
    · exact .inl (mem_activeServices.2 ⟨p, prior, hprior, hs⟩)
  | restart plan service world process =>
    exact .inr ⟨p, root, hroot, hs⟩

/-- Once something is assigned, the largest generations are active. -/
lemma Publication.peak (hassigned : assigned ≠ []) {n : ℕ}
    (hn : n ≤ maxGeneration state ∨ n ∈ (recordedServices next).map (·.generation)) :
    ∃ s ∈ activeServices next, n ≤ s.generation := by
  obtain ⟨g, hg⟩ := exists_mem_of_ne_nil assigned hassigned
  obtain ⟨s, hs, hgeneration⟩ := h.recorded hg
  have hold : ∀ m, m ≤ maxGeneration state → ∃ s ∈ activeServices next, m ≤ s.generation := by
    intro m hm
    exact ⟨s, hs, (hm.trans (h.fresh hg).le).trans hgeneration.ge⟩
  rcases hn with hn | hn
  · exact hold n hn
  obtain ⟨t, ht, rfl⟩ := mem_map.1 hn
  rcases h.old_or_active ht with ht | ht
  · exact hold _ (le_maxGeneration ht)
  · exact ⟨t, ht, le_rfl⟩

lemma Publication.digests {P : String → Prop} (horigin : ∀ d, origin d → P d)
    (hstate : Digests P state) : Digests P next := by
  cases h with
  | install packageName package ready =>
    constructor
    · intro p package' hp
      rw [lookup_install_active] at hp
      split at hp
      · cases hp
        exact horigin _ ready.digest
      · exact hstate.active p package' hp
    · intro p root hroot
      rcases lookup_install_rollback package hroot with hold | ⟨prior, hprior, rfl⟩
      · exact hstate.rollback p root hold
      · exact hstate.active p prior hprior
  | restart plan service world process active =>
    refine ⟨?_, hstate.rollback⟩
    intro p package' hp
    rw [RestartPlan.lookup_next] at hp
    split at hp
    · cases hp
      exact hstate.active _ plan.package active
    · exact hstate.active p package' hp

/-- A package that declares a service gets a generation. -/
lemma Publication.assigned_ne_nil (horigin : ∀ d, origin d → Populated store d) :
    assigned ≠ [] := by
  cases h with
  | install packageName package ready =>
    obtain ⟨manifest, hmanifest, hlength⟩ := ready.source
    have hservices := horigin _ ready.digest manifest hmanifest
    intro hnil
    have hzero := congrArg List.length hnil
    rw [PersistedPackage.generations, length_map, hlength] at hzero
    exact hservices (eq_nil_of_length_eq_zero hzero)
  | restart plan service world process => exact cons_ne_nil _ _

end Publications

/-! ## Runs -/

def PersistedActiveSet.activeServices (set : PersistedActiveSet) : List PersistedService :=
  set.active.flatMap (·.services)

def PersistedActiveSet.recordedServices (set : PersistedActiveSet) : List PersistedService :=
  set.activeServices ++ set.rollback.flatMap (·.services)

lemma activeServices_persisted (state : SupervisorState) :
    (persistedFromRecords state).activeServices = activeServices state := by
  rw [PersistedActiveSet.activeServices, persistedFromRecords, activeServices, flatMap_map]

lemma recordedServices_persisted (state : SupervisorState) :
    (persistedFromRecords state).recordedServices = recordedServices state := by
  rw [PersistedActiveSet.recordedServices, activeServices_persisted, recordedServices,
    activeServices, persistedFromRecords, flatMap_map]

def Fleet.current (fleet : Fleet) : PersistedActiveSet := fleet.file.getD {}

/-- The services that are active in one place have generations at least as large as in another. -/
def Covers (l l' : List PersistedService) : Prop :=
  ∀ s ∈ l', ∃ t ∈ l, s.generation ≤ t.generation

/-- Every supervisor that has seen the current file has its active services. -/
structure Member (store : String → Option Manifest) (current : PersistedActiveSet)
    (supervisor : HostedSupervisor) : Prop where
  coherent : Coherent supervisor.state
  digests : Digests (Populated store) supervisor.state
  revision : ∀ r, supervisor.observedRevision = some r → r ≤ current.revision
  synced : supervisor.observedRevision = some current.revision →
    Covers (activeServices supervisor.state) current.activeServices

/-- The largest generation that was ever recorded belongs to a service that is active now. -/
structure Grown (store : String → Option Manifest) (fleet : Fleet) : Prop where
  members : ∀ i, Member store fleet.current (fleet.supervisors i)
  filed : ∀ record, record ∈ fleet.current.active ∨ record ∈ fleet.current.rollback →
    Populated store record.digest
  kept : ∀ set, fleet.file = some set → set ∈ fleet.files
  peak : ∀ set ∈ fleet.files, Covers fleet.current.activeServices set.recordedServices

section Runs

variable {fleet : Fleet} {i : ℕ} {w : World}

lemma forall_absorb {P : HostedSupervisor → Prop} (hself : P w.supervisor)
    (hothers : ∀ j, P (fleet.supervisors j)) : ∀ j, P ((fleet.absorb i w).supervisors j) := by
  intro j
  rw [Fleet.absorb]
  by_cases hj : j = i
  · subst hj
    simpa using hself
  · simpa [hj] using hothers j

lemma Grown.keep (h : Grown store fleet) (hfile : w.file = fleet.file)
    (hmember : Member store fleet.current w.supervisor) : Grown store (fleet.absorb i w) := by
  have hcurrent : (fleet.absorb i w).current = fleet.current := by
    rw [Fleet.current, Fleet.current, ← hfile]
    rfl
  refine ⟨?_, ?_, ?_, ?_⟩
  · rw [hcurrent]
    exact forall_absorb hmember h.members
  · rw [hcurrent]
    exact h.filed
  · intro set hset
    exact mem_append_left _ (h.kept set (hfile ▸ hset))
  · intro set hset
    rw [hcurrent]
    rcases List.mem_append.1 hset with hset | hset
    · exact h.peak set hset
    · rw [hfile] at hset
      exact h.peak set (h.kept set (Option.mem_toList.1 hset))

variable {base : Table String RollbackRoot} {set : PersistedActiveSet} {origin : String → Prop}
  {env : Environment} {repeated : Prop} {done : Done Unit} {s : String} {g : ℕ}

/-- Everything that was recorded lies below what a supervisor that may write has in memory. -/
lemma Grown.below (h : Grown store fleet)
    (hobserved : (fleet.supervisors i).observedRevision = some fleet.current.revision)
    (hset : set ∈ fleet.files) {s : PersistedService} (hs : s ∈ set.recordedServices) :
    s.generation ≤ maxGeneration { (fleet.supervisors i).state with rollback := base } := by
  obtain ⟨t, ht, hle⟩ := h.peak set hset s hs
  obtain ⟨u, hu, hle'⟩ := (h.members i).synced hobserved t ht
  have hmax : u.generation ≤ maxGeneration { (fleet.supervisors i).state with rollback := base } :=
    le_maxGeneration (mem_recordedServices.2 (.inl hu))
  exact (hle.trans hle').trans hmax

lemma Grown.write (h : Grown store fleet) {observed : ℕ} {next : SupervisorState}
    {assigned : List (String × ℕ)} {touched : List String}
    (hrooted : Roots (fleet.supervisors i).state base)
    (hobserved : (fleet.supervisors i).observedRevision = some observed)
    (hpublication : Publication store origin { (fleet.supervisors i).state with rollback := base }
      next assigned touched) (horigin : ∀ d, origin d → Populated store d)
    (hreplaces : Replaces fleet.file observed (persistedFromRecords next))
    (hfile : w.file = some { persistedFromRecords next with revision := observed + 1 })
    (hmember : Member store { persistedFromRecords next with revision := observed + 1 }
      w.supervisor) :
    Grown store (fleet.absorb i w) := by
  have hrevision : fleet.current.revision = observed := hreplaces.revision
  have hcurrent : (fleet.absorb i w).current =
      { persistedFromRecords next with revision := observed + 1 } := by
    rw [Fleet.current, Fleet.absorb, hfile]
    rfl
  have hactive : PersistedActiveSet.activeServices
      { persistedFromRecords next with revision := observed + 1 } = activeServices next :=
    activeServices_persisted next
  have hdigests := hpublication.digests horigin ((h.members i).digests.withRoots hrooted)
  have hassigned := hpublication.assigned_ne_nil horigin
  refine ⟨?_, ?_, ?_, ?_⟩
  · rw [hcurrent]
    apply forall_absorb hmember
    -- The others have observed an older revision.
    intro j
    have hold := h.members j
    have hlt : ∀ r, (fleet.supervisors j).observedRevision = some r → r < observed + 1 := by
      intro r hr
      exact Nat.lt_succ_of_le (hrevision ▸ hold.revision r hr)
    exact ⟨hold.coherent, hold.digests, fun r hr => (hlt r hr).le,
      fun hsame => absurd (hlt _ hsame) (lt_irrefl _)⟩
  · rw [hcurrent]
    rintro record (hrecord | hrecord)
    · obtain ⟨package, hpackage, rfl⟩ := mem_map.1 hrecord
      obtain ⟨p, hp⟩ := mem_orderedValues.1 hpackage
      exact hdigests.active p package hp
    · obtain ⟨root, hroot, rfl⟩ := mem_map.1 hrecord
      obtain ⟨p, hp⟩ := mem_orderedValues.1 hroot
      exact hdigests.rollback p root hp
  · intro set hset
    exact mem_append_right _ (Option.mem_toList.2 hset)
  · intro set hset s hs
    rw [hcurrent, hactive]
    apply hpublication.peak hassigned
    rcases List.mem_append.1 hset with hset | hset
    · exact .inl (h.below (hrevision ▸ hobserved) hset hs)
    right
    rw [hfile] at hset
    obtain rfl := Option.some.inj (Option.mem_toList.1 hset)
    rw [← recordedServices_persisted]
    exact List.mem_map_of_mem hs

lemma Grown.transaction (h : Grown store fleet) (horigin : ∀ d, origin d → Populated store d)
    (ht : Transaction store env origin repeated (fleet.world i) done) :
    Grown store (fleet.absorb i done.world) := by
  have hself := h.members i
  cases ht with
  | failed nextProcess roots e sound =>
    exact h.keep rfl ⟨hself.coherent.withRoots sound.sound, hself.digests.withRoots sound.sound,
      hself.revision, hself.synced⟩
  | unchanged known => exact h.keep rfl hself
  | unsynced nextProcess observed roots base next assigned touched e sound rooted based observes
      publication replaces write =>
    have hle : ∀ r, (fleet.supervisors i).observedRevision = some r → r ≤ observed := by
      intro r hr
      have heq : some r = some observed := hr.symm.trans observes
      exact (Option.some.inj heq).le
    apply h.write rooted observes publication horigin replaces rfl
    exact ⟨hself.coherent.withRoots sound.sound, hself.digests.withRoots sound.sound,
      fun r hr => (hle r hr).trans (Nat.le_succ _),
      fun hsame => absurd (hle _ hsame) (Nat.not_succ_le_self _)⟩
  | published nextProcess observed base next assigned touched affected owners rooted based observes
      publication replaces owned revoked fresh =>
    apply h.write rooted observes publication horigin replaces rfl
    have hdigests := publication.digests horigin (hself.digests.withRoots rooted)
    refine ⟨publication.coherent (hself.coherent.withRoots rooted) owned,
      ⟨hdigests.active, hdigests.rollback⟩, ?_, ?_⟩
    · intro r hr
      exact (Option.some.inj hr).ge
    · intro _ s hs
      exact ⟨s, (activeServices_persisted next) ▸ hs, le_rfl⟩

lemma Grown.reconstruction (h : Grown store fleet) (ht : Reconstruction (fleet.world i) done) :
    Grown store (fleet.absorb i done.world) := by
  have hself := h.members i
  cases ht with
  | failed nextProcess nextIdentity e later => exact h.keep rfl hself
  | rebuilt nextProcess state active roots =>
    apply h.keep rfl
    refine ⟨active.coherent roots, ⟨?_, ?_⟩, ?_, ?_⟩
    · intro p package hp
      obtain ⟨record, hrecord, -, hrebuilt⟩ := active.exists_record hp
      rw [← hrebuilt.same.digest]
      exact h.filed record (.inl hrecord)
    · intro p root hp
      exact h.filed root.record (.inr (roots.backward p root hp).1)
    · intro r hr
      exact (Option.some.inj hr).ge
    · intro _ s hs
      obtain ⟨record, hrecord, hs⟩ := List.mem_flatMap.1 hs
      obtain ⟨package, hp, hrebuilt⟩ := active.forward record hrecord
      have ht := hrebuilt.same.services.mem_iff.1 hs
      exact ⟨s, mem_activeServices.2 ⟨_, package, hp, ht⟩, le_rfl⟩

lemma Grown.step (h : Grown store fleet) (event : ℕ × FleetEvent)
    (hevent : event.2.Populated store) : Grown store (fleet.step store event) := by
  obtain ⟨i, event⟩ := event
  cases event with
  | reconstruct env => exact h.reconstruction (reconstruction_of_reconstruct _)
  | mutate env mutation =>
    apply h.transaction _ (transaction_of_perform (h.members i).coherent mutation)
    intro d hd
    cases mutation with
    | activate digest =>
      cases hd
      exact hevent
    | rollback packageName =>
      obtain ⟨root, hroot, rfl⟩ := hd
      exact (h.members i).digests.rollback packageName root hroot
    | restartService service => cases hd

lemma grown_run {events : List (ℕ × FleetEvent)} (hevents : ∀ e ∈ events, e.2.Populated store) :
    Grown store (Fleet.run store events) := by
  refine List.foldlRecOn events (Fleet.step store) ?_ ?_
  · refine ⟨fun i => ⟨coherent_empty, ⟨?_, ?_⟩, ?_, ?_⟩, ?_, ?_, ?_⟩
    all_goals simp [Fleet.current, PersistedActiveSet.activeServices]
  · intro fleet h event hmem
    exact h.step event (hevents event hmem)

lemma Transaction.assigned_above (h : Grown store fleet)
    (ht : Transaction store env origin repeated (fleet.world i) done)
    (hg : .assigned s g ∈ done.outputs) (hset : set ∈ fleet.files) {t : PersistedService}
    (htmem : t ∈ set.recordedServices) : t.generation < g := by
  cases ht with
  | failed => cases hg
  | unsynced => cases hg
  | unchanged => cases hg
  | published nextProcess observed base next assigned touched affected owners rooted based observes
      publication replaces owned revoked fresh =>
    have hrevision : fleet.current.revision = observed := replaces.revision
    have hmem : (s, g) ∈ assigned := by
      simpa [assignedOutputs] using hg
    exact (h.below (hrevision ▸ observes) hset htmem).trans_lt (publication.fresh hmem)

lemma Transaction.not_republished {w : World} (ht : Transaction store env origin repeated w done) :
    .republished s g ∉ done.outputs := by
  cases ht <;> simp [assignedOutputs]

lemma Reconstruction.republished (ht : Reconstruction w done)
    (hg : .republished s g ∈ done.outputs) :
    ∃ record ∈ (w.file.getD {}).active, (s, g) ∈ record.generations := by
  cases ht with
  | failed => cases hg
  | rebuilt nextProcess state active roots =>
    have hmem : (s, g) ∈ services state := by
      simpa using hg
    obtain ⟨e, he, hpair⟩ := List.mem_flatMap.1 hmem
    obtain ⟨service, hservice, heq⟩ := mem_map.1 hpair
    cases heq
    obtain ⟨record, hrecord, -, hrebuilt⟩ := active.exists_record (mem_ordered.1 he)
    exact ⟨record, hrecord, hrebuilt.running _ _ (mem_ordered.1 hservice)⟩

lemma Reconstruction.not_assigned (ht : Reconstruction w done) : .assigned s g ∉ done.outputs := by
  cases ht <;> simp

end Runs

/-- Where activated packages all declare a service, an assigned generation is larger than all that
were recorded. A reconstruction brings back those of the file. -/
theorem generations_grow (store : String → Option Manifest) (events : List (ℕ × FleetEvent))
    (hevents : ∀ e ∈ events, e.2.Populated store) (i : ℕ) (event : FleetEvent) :
    let fleet := Fleet.run store events
    let done := event.perform store (fleet.world i)
    (∀ s g, .assigned s g ∈ done.outputs →
      ∀ set ∈ fleet.files, ∀ t ∈ set.recordedServices, t.generation < g) ∧
    ∀ s g, .republished s g ∈ done.outputs →
      ∃ record ∈ fleet.current.active, (s, g) ∈ record.generations := by
  intro fleet done
  have hgrown := grown_run hevents
  cases event with
  | reconstruct env =>
    have hreconstruction : Reconstruction (fleet.world i) done := reconstruction_of_reconstruct _
    exact ⟨fun s g hg => absurd hg hreconstruction.not_assigned,
      fun s g hg => hreconstruction.republished hg⟩
  | mutate env mutation =>
    have htransaction : Transaction store env _ _ (fleet.world i) done :=
      transaction_of_perform (hgrown.members i).coherent mutation
    exact ⟨fun s g hg set hset t ht => htransaction.assigned_above hgrown hg hset ht,
      fun s g hg => absurd hg htransaction.not_republished⟩

def sampleFleet : List (ℕ × FleetEvent) :=
  [(0, .reconstruct {}), (0, .mutate {} (.activate (sampleDigest 'a')))]

lemma populated_sampleFleet : ∀ e ∈ sampleFleet, e.2.Populated sampleStore := by
  intro e he
  simp only [sampleFleet, List.mem_cons, not_mem_nil, or_false] at he
  rcases he with rfl | rfl
  · trivial
  intro manifest hmanifest
  have hsample : manifest = samplePackage [⟨"clock", "tick"⟩] (by simp) := by
    simpa [sampleStore] using hmanifest.symm
  rw [hsample]
  exact cons_ne_nil _ _

theorem generations_grow_sample :
    let fleet := Fleet.run sampleStore sampleFleet
    let done := (FleetEvent.mutate {} (.activate (sampleDigest 'b'))).perform sampleStore
      (fleet.world 0)
    .assigned "clock" 2 ∈ done.outputs ∧
      ∀ set ∈ fleet.files, ∀ t ∈ set.recordedServices, t.generation < 2 := by
  have hassigned : .assigned "clock" 2 ∈
      ((FleetEvent.mutate {} (.activate (sampleDigest 'b'))).perform sampleStore
        ((Fleet.run sampleStore sampleFleet).world 0)).outputs := by decide +kernel
  exact ⟨hassigned, (generations_grow sampleStore sampleFleet populated_sampleFleet 0
    (.mutate {} (.activate (sampleDigest 'b')))).1 "clock" 2 hassigned⟩

/-- Two versions without services take the recorded ones out of the set, and the generations start
again. -/
theorem generation_reused :
    let fleet := Fleet.run sampleStore
      (sampleFleet ++ [(0, .mutate {} (.activate (sampleDigest 'c'))),
        (0, .mutate {} (.activate (sampleDigest 'd')))])
    let done := (FleetEvent.mutate {} (.activate (sampleDigest 'a'))).perform sampleStore
      (fleet.world 0)
    .assigned "clock" 1 ∈ done.outputs ∧
      ∃ set ∈ fleet.files, ⟨"clock", "tick", 1⟩ ∈ set.recordedServices := by
  decide +kernel

end Ostadix.Supervisor
