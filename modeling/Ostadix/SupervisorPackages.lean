import Ostadix.SupervisorOps

/-! Owners, staged packages and records of the supervisor. -/

namespace Ostadix.Supervisor

open List

variable {store : String → Option Manifest}

/-! ## Tables in the order of their keys -/

section Ordered

variable {V : Type} {t : Table String V}

lemma mem_ordered {e : (_ : String) × V} : e ∈ ordered t ↔ t.lookup e.1 = some e.2 := by
  rw [ordered, mem_sortBy]
  exact Table.mem_entries (v := e.2)

variable {k : String}

@[simp] lemma mem_orderedKeys : k ∈ orderedKeys t ↔ k ∈ t := by
  rw [orderedKeys, ordered, mem_map]
  simp only [mem_sortBy]
  exact mem_map.symm

@[simp] lemma mem_orderedValues {v : V} : v ∈ orderedValues t ↔ ∃ k, t.lookup k = some v := by
  simp only [orderedValues, mem_map, mem_ordered]
  constructor
  · rintro ⟨⟨k, v⟩, h, rfl⟩
    exact ⟨k, h⟩
  · rintro ⟨k, h⟩
    exact ⟨⟨k, v⟩, h, rfl⟩

lemma nodup_orderedKeys : (orderedKeys t).Nodup := by
  have hperm : (orderedKeys t).Perm t.keys := (perm_sortBy _ t.entries).map _
  exact hperm.nodup_iff.2 t.keys_nodup

@[simp] lemma length_orderedValues : (orderedValues t).length = t.entries.length := by
  simp [orderedValues, ordered]

@[simp] lemma mem_mapValues {f : String → V → V} : k ∈ t.mapValues f ↔ k ∈ t := by
  rw [AList.mem_keys, Table.keys_mapValues, ← AList.mem_keys]

end Ordered

/-! ## Owners -/

def Owners (active : Table String ActivePackage) (owners : Table String String) : Prop :=
  ∀ s p, owners.lookup s = some p ↔
    ∃ package, active.lookup p = some package ∧ s ∈ package.services

section Owners

variable {verb p q s : String} {owners owners' : Table String String} {l : List String}

lemma lookup_of_addOwners (h : addOwners verb p owners l = .ok owners') :
    owners'.lookup s = some q ↔ owners.lookup s = some q ∨ s ∈ l ∧ p = q := by
  rw [Table.lookup_of_collect h]
  simp

lemma exists_addOwners (hnodup : l.Nodup) (hnew : ∀ s ∈ l, owners.lookup s = none) :
    ∃ owners', addOwners verb p owners l = .ok owners' := by
  rw [addOwners, Table.exists_collect_iff]
  refine ⟨⟨by simp, by simp, ?_⟩, ?_⟩
  · refine List.Pairwise.imp ?_ hnodup
    intro a b hne k v w ha hb
    simp only [Except.ok.injEq, Option.some.injEq, Prod.mk.injEq] at ha hb
    exact hne (ha.1.trans hb.1.symm)
  · intro a ha k v hk
    cases hk
    exact hnew a ha

def enterOwners (owners : Table String String) (packages : List ((_ : String) × ActivePackage)) :
    Result (Table String String) :=
  packages.foldlM
    (fun owners e => addOwners "published" e.1 owners (orderedKeys e.2.services)) owners

variable {packages : List ((_ : String) × ActivePackage)} {active : Table String ActivePackage}

lemma lookup_of_enterOwners (h : enterOwners owners packages = .ok owners') :
    owners'.lookup s = some q ↔
      owners.lookup s = some q ∨ ∃ e ∈ packages, s ∈ e.2.services ∧ e.1 = q := by
  induction packages generalizing owners with
  | nil =>
    cases h
    simp
  | cons e packages ih =>
    rw [enterOwners, foldlM_cons] at h
    obtain ⟨mid, hmid, h⟩ := bind_eq_ok.1 h
    rw [ih h, lookup_of_addOwners hmid]
    simp [or_assoc]

lemma exists_enterOwners
    (hdisjoint : packages.Pairwise fun e e' => ∀ s ∈ e.2.services, s ∉ e'.2.services)
    (hnew : ∀ e ∈ packages, ∀ s ∈ e.2.services, owners.lookup s = none) :
    ∃ owners', enterOwners owners packages = .ok owners' := by
  induction packages generalizing owners with
  | nil => exact ⟨owners, rfl⟩
  | cons e packages ih =>
    obtain ⟨hhead, htail⟩ := pairwise_cons.1 hdisjoint
    obtain ⟨hnewHead, hnewTail⟩ := forall_mem_cons.1 hnew
    have hadd : ∃ mid, addOwners "published" e.1 owners (orderedKeys e.2.services) = .ok mid := by
      apply exists_addOwners nodup_orderedKeys
      intro s hs
      exact hnewHead s (mem_orderedKeys.1 hs)
    obtain ⟨mid, hmid⟩ := hadd
    have hnewMid : ∀ e' ∈ packages, ∀ s ∈ e'.2.services, mid.lookup s = none := by
      intro e' he' s hs
      by_contra hbound
      obtain ⟨q, hq⟩ := Option.ne_none_iff_exists'.1 hbound
      rcases (lookup_of_addOwners hmid).1 hq with hold | ⟨hmem, -⟩
      · rw [hnewTail e' he' s hs] at hold
        cases hold
      · exact hhead e' he' s (mem_orderedKeys.1 hmem) hs
    obtain ⟨owners', howners⟩ := ih htail hnewMid
    refine ⟨owners', ?_⟩
    rw [enterOwners, foldlM_cons, hmid]
    exact howners

lemma owners_of_ownersForActive (h : ownersForActive active = .ok owners) :
    Owners active owners := by
  intro s p
  rw [lookup_of_enterOwners h]
  simp only [AList.lookup_empty, reduceCtorEq, false_or, mem_ordered]
  constructor
  · rintro ⟨⟨q, package⟩, hlookup, hs, rfl⟩
    exact ⟨package, hlookup, hs⟩
  · rintro ⟨package, hlookup, hs⟩
    exact ⟨⟨p, package⟩, hlookup, hs, rfl⟩

lemma exists_ownersForActive
    (hone : ∀ s p q package package', active.lookup p = some package → s ∈ package.services →
      active.lookup q = some package' → s ∈ package'.services → p = q) :
    ∃ owners, ownersForActive active = .ok owners := by
  apply exists_enterOwners
  · have hkeys : (ordered active).Pairwise fun e e' => e.1 ≠ e'.1 :=
      pairwise_map.1 (nodup_orderedKeys (t := active))
    refine hkeys.imp_of_mem ?_
    intro e e' he he' hne s hs hs'
    exact hne (hone s e.1 e'.1 e.2 e'.2 (mem_ordered.1 he) hs (mem_ordered.1 he') hs')
  · intro e _ s _
    exact AList.lookup_empty s

end Owners

/-! ## Packages -/

def ActivePackage.Described (package : ActivePackage) : Prop :=
  ∀ s, s ∈ package.services ↔ s ∈ package.record.services.map (·.name)

/-- The record of a declared service, at the generation that is set for it. -/
def ServiceDeclaration.persisted (generations : List (String × ℕ)) (d : ServiceDeclaration) :
    PersistedService := ⟨d.name, d.protocol, (generations.lookup d.name).getD 0⟩

/-- A staged package has the services that the manifest declares, each at the generation set for it.
-/
structure Staged (digest : String) (manifest : Manifest) (generations : List (String × ℕ))
    (package : ActivePackage) : Prop where
  described : package.Described
  name : package.record.packageName = manifest.name
  digest : package.record.digest = digest
  services : package.record.services.Perm (manifest.services.map (·.persisted generations))
  length : package.record.services.length = manifest.services.length
  names : ∀ s, s ∈ package.services ↔ s ∈ manifest.services.map (·.name)
  recorded : ∀ s ∈ package.record.services, generations.lookup s.name = some s.generation
  running : ∀ s service, package.services.lookup s = some service →
    generations.lookup s = some service.generation

section Staging

variable {env : Environment} {generations : List (String × ℕ)} {process : ℕ} {digest : String}
  {manifest : Manifest} {package : ActivePackage}

variable {declarations : List ServiceDeclaration} {staged : List (PersistedService × ActiveService)}
  {t : Table String ActiveService}

lemma stageServices_spec (h : (stageServices env generations process declarations).2 = .ok staged) :
    staged.map (·.1) = declarations.map (·.persisted generations) ∧
      ∀ s ∈ staged, generations.lookup s.1.name = some s.1.generation ∧
        s.2.generation = s.1.generation := by
  induction declarations generalizing process staged with
  | nil =>
    cases h
    simp
  | cons declaration declarations ih =>
    rw [stageServices] at h
    split at h
    · cases h
    rename_i generation hgeneration
    split at h
    · cases h
    rename_i world _
    split at h
    · cases h
    rename_i next rest hrest
    cases h
    obtain ⟨hrecords, hall⟩ := ih (congrArg Prod.snd hrest)
    refine ⟨by simp [hrecords, ServiceDeclaration.persisted, hgeneration], ?_⟩
    intro s hs
    rcases mem_cons.1 hs with rfl | hs
    · exact ⟨hgeneration, rfl⟩
    · exact hall s hs

lemma lookup_foldl_insert {s : String} {service : ActiveService}
    (h : (staged.foldl (fun t s => t.insert s.1.name s.2) t).lookup s = some service) :
    t.lookup s = some service ∨ ∃ e ∈ staged, e.1.name = s ∧ e.2 = service := by
  induction staged generalizing t with
  | nil => exact .inl h
  | cons e staged ih =>
    rcases ih h with hlookup | ⟨e', he', hname⟩
    · rw [Table.lookup_insert_eq_ite] at hlookup
      split at hlookup
      next heq =>
        cases hlookup
        exact .inr ⟨e, mem_cons_self, heq.symm, rfl⟩
      next => exact .inl hlookup
    · exact .inr ⟨e', mem_cons_of_mem _ he', hname⟩

lemma mem_foldl_insert {s : String} :
    s ∈ staged.foldl (fun t s => t.insert s.1.name s.2) t ↔
      s ∈ t ∨ s ∈ staged.map (·.1.name) := by
  induction staged generalizing t with
  | nil => simp
  | cons e staged ih => simp [ih, or_assoc, or_left_comm]

lemma staged_of_stagePackage
    (h : (stagePackage env digest manifest generations process).2 = .ok package) :
    Staged digest manifest generations package := by
  rw [stagePackage] at h
  split at h
  · cases h
  split at h
  · cases h
  rename_i next staged hstaged
  cases h
  obtain ⟨hrecords, hall⟩ := stageServices_spec (congrArg Prod.snd hstaged)
  have hnames : staged.map (·.1.name) = manifest.services.map (·.name) := by
    simpa [Function.comp_def, ServiceDeclaration.persisted] using congrArg (map (·.name)) hrecords
  have hmem : ∀ s, s ∈ (packageOf manifest.name digest staged).services ↔
      s ∈ manifest.services.map (·.name) := by
    intro s
    rw [packageOf, mem_foldl_insert, hnames]
    simp
  refine ⟨?_, rfl, rfl, ?_, ?_, hmem, ?_, ?_⟩
  · intro s
    rw [hmem, ← hnames]
    simp [packageOf]
  · rw [← hrecords]
    exact perm_sortBy _ _
  · have hlength := congrArg List.length hnames
    simpa [packageOf] using hlength
  · intro s hs
    simp only [packageOf, mem_sortBy, mem_map] at hs
    obtain ⟨e, he, rfl⟩ := hs
    exact (hall e he).1
  · intro s service hlookup
    rcases lookup_foldl_insert hlookup with hempty | ⟨e, he, rfl, rfl⟩
    · rw [AList.lookup_empty] at hempty
      cases hempty
    · rw [(hall e he).1, (hall e he).2]

/-- Assigned generations lie above the one they are counted from. -/
lemma lt_of_assignGenerations {generation : ℕ}
    (h : assignGenerations generation declarations = .ok generations) {g : String × ℕ}
    (hg : g ∈ generations) : generation < g.2 := by
  induction declarations generalizing generation generations with
  | nil =>
    cases h
    cases hg
  | cons declaration declarations ih =>
    simp only [assignGenerations, checkedNextGeneration, bind_eq_ok, ensure_eq_ok] at h
    obtain ⟨next, ⟨_, _, hnext⟩, rest, hrest, h⟩ := h
    cases hnext
    cases h
    rcases mem_cons.1 hg with rfl | hg
    · exact Nat.lt_succ_self generation
    · exact (Nat.lt_succ_self generation).trans (ih hrest hg)

lemma regenerate_spec {records : List PersistedService} {services : Table String ActiveService}
    {done : List PersistedService × Table String ActiveService}
    (h : regenerate generations records services = .ok done) :
    done.1.map (·.name) = records.map (·.name) ∧ (∀ s, s ∈ done.2 ↔ s ∈ services) ∧
      ∀ s ∈ done.1, generations.lookup s.name = some s.generation := by
  induction records generalizing services done with
  | nil =>
    cases h
    simp
  | cons record records ih =>
    simp only [regenerate, bind_eq_ok, orError_eq_ok] at h
    obtain ⟨next, hnext, service, hservice, rest, hrest, h⟩ := h
    cases h
    obtain ⟨hnames, hmem, hall⟩ := ih hrest
    refine ⟨by simp [hnames], ?_, ?_⟩
    · intro s
      rw [hmem, AList.mem_insert]
      constructor
      · rintro (rfl | hs)
        · exact Table.mem_iff.2 ⟨service, hservice⟩
        · exact hs
      · exact .inr
    · intro s hs
      rcases mem_cons.1 hs with rfl | hs
      · exact hnext
      · exact hall s hs

variable {package' : ActivePackage}

lemma regeneratePackage_spec (hdescribed : package.Described)
    (h : regeneratePackage generations package = .ok package') :
    package'.Described ∧ package'.record.packageName = package.record.packageName ∧
      package'.record.digest = package.record.digest ∧
      package'.record.services.length = package.record.services.length ∧
      ∀ s ∈ package'.record.services, generations.lookup s.name = some s.generation := by
  simp only [regeneratePackage, bind_eq_ok] at h
  obtain ⟨done, hdone, h⟩ := h
  cases h
  obtain ⟨hnames, hmem, hall⟩ := regenerate_spec hdone
  refine ⟨?_, rfl, rfl, ?_, hall⟩
  · intro s
    rw [hnames, hmem]
    exact hdescribed s
  · simpa using congrArg List.length hnames

lemma healthExistingPackage_spec (h : healthExistingPackage env package = some package') :
    package'.record = package.record ∧ (package.Described → package'.Described) := by
  rw [healthExistingPackage] at h
  split at h
  · cases h
    refine ⟨rfl, fun hdescribed s => ?_⟩
    rw [← hdescribed s]
    exact mem_mapValues
  · cases h

end Staging

/-! ## Records -/

variable {record : PersistedPackage}

variable {manifest : Manifest} {u : Unit}

lemma verifyRecord_eq_ok {env : Environment} (h : verifyRecord store env record = .ok manifest) :
    store record.digest = some manifest ∧ verifyRecordMatches record manifest = .ok () := by
  simp only [verifyRecord, verifyPackage, bind_eq_ok, orError_eq_ok, ensure_eq_ok] at h
  obtain ⟨_, _, manifest', ⟨stored, hstore, _, _, hstored⟩, _, hmatches, _, _, h⟩ := h
  cases hstored
  cases h
  exact ⟨hstore, hmatches⟩

lemma name_of_matches (h : verifyRecordMatches record manifest = .ok u) :
    record.packageName = manifest.name := by
  simp only [verifyRecordMatches, bind_eq_ok, ensure_eq_ok] at h
  exact h.choose_spec.1

lemma services_of_matches (h : verifyRecordMatches record manifest = .ok u) :
    (manifest.services.map fun s => (s.name, s.protocol)).Perm
      (record.services.map fun s => (s.name, s.protocol)) := by
  simp only [verifyRecordMatches, bind_eq_ok, ensure_eq_ok] at h
  obtain ⟨_, _, hservices⟩ := h
  have hsorted := (perm_sortBy Prod.fst (record.services.map fun s => (s.name, s.protocol)))
  rw [← hservices] at hsorted
  exact (perm_sortBy _ _).symm.trans hsorted

structure WellShaped (set : PersistedActiveSet) : Prop where
  packages : set.active.length ≤ maxActivePackages
  roots : set.rollback.length ≤ maxRollbackPackages
  services : serviceCount set.active ≤ maxActiveServices
  activeNames : (set.active.map (·.packageName)).Nodup
  serviceNames : ∀ record ∈ set.active, (record.services.map (·.name)).Nodup
  rollbackNames : (set.rollback.map (·.packageName)).Nodup
  anchored : ∀ record ∈ set.rollback, record.packageName ∈ set.active.map (·.packageName)

lemma wellShaped_of_validate {set : PersistedActiveSet} (h : validateActiveSetShape set = .ok u) :
    WellShaped set := by
  simp only [validateActiveSetShape, bind_eq_ok, ensure_eq_ok, forM_eq_ok] at h
  obtain ⟨_, hpackages, _, hroots, _, hservices, _, hrecords, _, hnames, _, -, _, hrollback,
    hanchored⟩ := h
  refine ⟨hpackages, hroots, hservices, hnames, ?_, hrollback, hanchored⟩
  intro record hrecord
  have hvalid := hrecords record hrecord
  simp only [validatePersistedRecord, bind_eq_ok, ensure_eq_ok] at hvalid
  obtain ⟨_, _, _, _, _, _, hnodup⟩ := hvalid
  exact hnodup

end Ostadix.Supervisor
