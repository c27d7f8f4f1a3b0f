import Ostadix.SupervisorConfine

/-! Supervisors share one active-set file. A reconstruction installs what it read only later, while
others commit. A commit replaces a set that its supervisor has in memory, up to the generations
that a failed rollback gave to its root. -/

namespace Ostadix.Supervisor

variable (store : String → Option Manifest)

/-- What a supervisor has in memory, and the set that it last reconstructed or committed. -/
structure View where
  supervisor : HostedSupervisor := {}
  basis : Option PersistedActiveSet := none

/-- An operation moves the observed revision when the supervisor learns of its write. -/
def View.after (view : View) (w : World) : View where
  supervisor := w.supervisor
  basis :=
    if w.supervisor.observedRevision = view.supervisor.observedRevision then view.basis else w.file

structure Observer where
  now : View := {}
  /-- The reconstruction that is under way. -/
  staged : Option View := none

structure Sharing where
  file : Option PersistedActiveSet
  nextProcess : ℕ := 0
  nextIdentity : ℕ := 1
  observers : ℕ → Observer := fun _ => {}

inductive Action where
  /-- A reconstruction reads the file and stages what it finds there. -/
  | read (env : Environment)
  /-- A reconstruction installs what it has staged. -/
  | install
  | commit (env : Environment) (mutation : Mutation)

namespace Sharing

def world (sharing : Sharing) (i : ℕ) : World where
  file := sharing.file
  nextProcess := sharing.nextProcess
  nextIdentity := sharing.nextIdentity
  supervisor := (sharing.observers i).now.supervisor

/-- The set that the file holds; a missing file stands for the empty set. -/
def durable (sharing : Sharing) : PersistedActiveSet := sharing.file.getD {}

def absorb (sharing : Sharing) (i : ℕ) (w : World) (now : View) (staged : Option View) :
    Sharing where
  file := w.file
  nextProcess := w.nextProcess
  nextIdentity := w.nextIdentity
  observers := Function.update sharing.observers i ⟨now, staged⟩

def step (sharing : Sharing) (i : ℕ) : Action → Sharing
  | .read env =>
    let done := reconstruct store env (sharing.world i)
    sharing.absorb i done.world (sharing.observers i).now
      (done.result.toOption.map fun _ => ⟨done.world.supervisor, some sharing.durable⟩)
  | .install =>
    match (sharing.observers i).staged with
    | none => sharing
    | some view => sharing.absorb i (sharing.world i) view none
  | .commit env mutation =>
    let done := mutation.perform store env (sharing.world i)
    let observer := sharing.observers i
    sharing.absorb i done.world (observer.now.after done.world) observer.staged

def run (file : Option PersistedActiveSet) (actions : List (ℕ × Action)) : Sharing :=
  actions.foldl (fun sharing action => step store sharing action.1 action.2) { file }

end Sharing

/-- Every record of one list has its like in the other. -/
structure Agree (like : PersistedPackage → PersistedPackage → Prop) (l m : List PersistedPackage) :
    Prop where
  forward : ∀ a ∈ l, ∃ b ∈ m, like a b
  backward : ∀ b ∈ m, ∃ a ∈ l, like a b

/-- The state has the active packages of the set, with their services and generations. Its roots are
those of the set, perhaps at generations that a failed rollback gave them. -/
structure Remembers (set : PersistedActiveSet) (state : SupervisorState) : Prop where
  active : Agree SameRecord set.active (persistedFromRecords state).active
  rollback : Agree SameOrigin set.rollback (persistedFromRecords state).rollback

/-- The supervisor has its basis in memory and has observed its revision; the basis is the durable
set or older. -/
structure Tracked (durable : PersistedActiveSet) (view : View) : Prop where
  coherent : Coherent view.supervisor.state
  observed : view.supervisor.observedRevision = view.basis.map (·.revision)
  known : ∀ set, view.basis = some set → set = durable ∨ set.revision < durable.revision
  remembers : ∀ set, view.basis = some set → Remembers set view.supervisor.state

/-- The set the supervisor last saw is the durable one, and the supervisor has it in memory. The
next one is published over it, at the next revision. -/
structure Commits (origin : String → Prop) (view : View) (durable next : PersistedActiveSet) :
    Prop where
  basis : view.basis = some durable
  remembers : Remembers durable view.supervisor.state
  observed : view.supervisor.observedRevision = some durable.revision
  computed : ∃ base state assigned touched, Roots view.supervisor.state base ∧
    Based view.supervisor.state base state ∧
    Publication store origin { view.supervisor.state with rollback := base } state assigned
      touched ∧
    next = { persistedFromRecords state with revision := durable.revision + 1 }

/-- A step leaves the file as it is, or it is a commit. -/
def KeepsOrCommits (sharing : Sharing) (i : ℕ) (action : Action) : Prop :=
  let view := (sharing.observers i).now
  (sharing.step store i action).file = sharing.file ∨
    ∃ env mutation next, action = .commit env mutation ∧
      (sharing.step store i action).file = some next ∧
      Commits store (mutation.Origin view.supervisor.state) view sharing.durable next

section Sharing

variable {store} {sharing : Sharing} {i : ℕ} {view now : View} {staged : Option View}
  {durable next : PersistedActiveSet} {basis : Option PersistedActiveSet} {w : World}

lemma mem_map_orderedValues {V : Type} {t : Table String V} {f : V → PersistedPackage}
    {record : PersistedPackage} :
    record ∈ (orderedValues t).map f ↔ ∃ p v, t.lookup p = some v ∧ f v = record := by
  simp only [List.mem_map, mem_orderedValues, ← exists_and_right]
  exact exists_comm

lemma agree_refl {like : PersistedPackage → PersistedPackage → Prop} (hlike : ∀ a, like a a)
    (l : List PersistedPackage) : Agree like l l :=
  ⟨fun a ha => ⟨a, ha, hlike a⟩, fun a ha => ⟨a, ha, hlike a⟩⟩

/-- What a state publishes, it remembers. -/
lemma remembers_persisted (state : SupervisorState) (revision : ℕ) (owners : Table String String) :
    Remembers { persistedFromRecords state with revision }
      { state with serviceOwners := owners } :=
  ⟨agree_refl (fun _ => ⟨rfl, rfl, .refl _⟩) _, agree_refl (fun _ => ⟨rfl, rfl⟩) _⟩

lemma remembers_rebuilt {set : PersistedActiveSet} {state : SupervisorState}
    (hactive : RebuiltAll set.active ∅ state.active state.serviceOwners)
    (hroots : RebuiltRoots set state.rollback) : Remembers set state where
  active := by
    constructor
    · intro record hrecord
      obtain ⟨package, hp, hrebuilt⟩ := hactive.forward record hrecord
      exact ⟨_, mem_map_orderedValues.2 ⟨_, package, hp, rfl⟩, hrebuilt.same⟩
    · intro record hrecord
      obtain ⟨p, package, hp, rfl⟩ := mem_map_orderedValues.1 hrecord
      obtain ⟨record, hrecord, -, hrebuilt⟩ := hactive.exists_record hp
      exact ⟨record, hrecord, hrebuilt.same⟩
  rollback := by
    constructor
    · intro record hrecord
      obtain ⟨root, hp, hroot⟩ := hroots.forward record hrecord
      exact ⟨record, mem_map_orderedValues.2 ⟨_, root, hp, hroot⟩, rfl, rfl⟩
    · intro record hrecord
      obtain ⟨p, root, hp, rfl⟩ := mem_map_orderedValues.1 hrecord
      exact ⟨_, (hroots.backward p root hp).1, rfl, rfl⟩

lemma SameOrigin.trans_symm {a b c : PersistedPackage} (h : SameOrigin a b) (h' : SameOrigin c b) :
    SameOrigin a c :=
  ⟨h.1.trans h'.1.symm, h.2.trans h'.2.symm⟩

/-- A failed operation loses no root and keeps their packages and digests. -/
lemma Remembers.restored {set : PersistedActiveSet} {state : SupervisorState}
    {roots : Table String RollbackRoot} (h : Remembers set state) (hroots : Restored state roots) :
    Remembers set { state with rollback := roots } where
  active := h.active
  rollback := by
    constructor
    · intro record hrecord
      obtain ⟨record', hrecord', hsame⟩ := h.rollback.forward record hrecord
      obtain ⟨p, old, hold, rfl⟩ := mem_map_orderedValues.1 hrecord'
      obtain ⟨root, hroot⟩ := Table.mem_iff.1 (hroots.kept p (Table.mem_iff.2 ⟨old, hold⟩))
      obtain ⟨-, old', hold', horigin⟩ := hroots.sound p root hroot
      obtain rfl := Option.some.inj (hold.symm.trans hold')
      exact ⟨_, mem_map_orderedValues.2 ⟨p, root, hroot, rfl⟩, hsame.trans_symm horigin⟩
    · intro record hrecord
      obtain ⟨p, root, hroot, rfl⟩ := mem_map_orderedValues.1 hrecord
      obtain ⟨-, old, hold, horigin⟩ := hroots.sound p root hroot
      obtain ⟨record, hrecord, hsame⟩ :=
        h.rollback.backward _ (mem_map_orderedValues.2 ⟨p, old, hold, rfl⟩)
      exact ⟨record, hrecord, hsame.trans_symm horigin⟩

lemma Tracked.later (h : Tracked durable view) (hlt : durable.revision < next.revision) :
    Tracked next view := by
  refine ⟨h.coherent, h.observed, fun set hset => .inr ?_, h.remembers⟩
  rcases h.known set hset with rfl | hold
  · exact hlt
  · exact hold.trans hlt

lemma Tracked.basis_eq (h : Tracked durable view)
    (hobserved : view.supervisor.observedRevision = some durable.revision) :
    view.basis = some durable := by
  obtain ⟨set, hbasis, hset⟩ := Option.map_eq_some_iff.1 (h.observed.symm.trans hobserved)
  rcases h.known set hbasis with rfl | hlt
  · exact hbasis
  · omega

lemma Tracked.withRoots {nextProcess : ℕ} {roots : Table String RollbackRoot}
    {file : Option PersistedActiveSet} (h : Tracked durable ⟨w.supervisor, basis⟩)
    (sound : Restored w.supervisor.state roots) :
    Tracked durable (View.after ⟨w.supervisor, basis⟩
      { w.withRoots nextProcess roots with file }) := by
  rw [View.after, World.withRoots, if_pos rfl]
  exact ⟨h.coherent.withRoots sound.sound, h.observed, h.known,
    fun set hset => (h.remembers set hset).restored sound⟩

/-- What an operation makes of the file and of the supervisor's view of it. -/
lemma Tracked.transaction {env : Environment} {origin : String → Prop} {repeated : Prop}
    {done : Done Unit} (h : Tracked (w.file.getD {}) ⟨w.supervisor, basis⟩)
    (ht : Transaction store env origin repeated w done) :
    done.world.file = w.file ∧
        Tracked (w.file.getD {}) (View.after ⟨w.supervisor, basis⟩ done.world) ∨
      ∃ next, done.world.file = some next ∧ (w.file.getD {}).revision < next.revision ∧
        Commits store origin ⟨w.supervisor, basis⟩ (w.file.getD {}) next ∧
        Tracked next (View.after ⟨w.supervisor, basis⟩ done.world) := by
  cases ht with
  | failed nextProcess roots e sound => exact .inl ⟨rfl, h.withRoots sound⟩
  | unchanged known =>
    refine .inl ⟨rfl, ?_⟩
    rw [View.after, if_pos rfl]
    exact h
  | unsynced nextProcess observed roots base next assigned touched e sound rooted based observes
      publication replaces write =>
    obtain rfl := replaces.revision
    have hbasis := h.basis_eq observes
    exact .inr ⟨_, rfl, Nat.lt_succ_self _, ⟨hbasis, h.remembers _ hbasis, observes, base, next,
      assigned, touched, rooted, based, publication, rfl⟩,
      (h.later (Nat.lt_succ_self _)).withRoots sound⟩
  | published nextProcess observed base next assigned touched affected owners rooted based observes
      publication replaces owned revoked fresh =>
    obtain rfl := replaces.revision
    have hbasis := h.basis_eq observes
    refine .inr ⟨_, rfl, Nat.lt_succ_self _, ⟨hbasis, h.remembers _ hbasis, observes, base, next,
      assigned, touched, rooted, based, publication, rfl⟩, ?_⟩
    have hmoved : some ((w.file.getD {}).revision + 1) ≠ w.supervisor.observedRevision := by
      rw [observes]
      simp
    rw [View.after, if_neg hmoved]
    refine ⟨publication.coherent (h.coherent.withRoots rooted) owned, rfl, fun set hset => ?_,
      fun set hset => ?_⟩
    · exact .inl (Option.some.inj hset).symm
    · obtain rfl := Option.some.inj hset
      exact remembers_persisted _ _ _

def AllTracked (sharing : Sharing) : Prop :=
  ∀ i, ∀ view ∈ (sharing.observers i).now :: (sharing.observers i).staged.toList,
    Tracked sharing.durable view

lemma AllTracked.absorb (h : AllTracked sharing)
    (hle : w.file.getD {} = sharing.durable ∨
      sharing.durable.revision < (w.file.getD {}).revision)
    (hself : ∀ view ∈ now :: staged.toList, Tracked (w.file.getD {}) view) :
    AllTracked (sharing.absorb i w now staged) := by
  intro j view hview
  by_cases hj : j = i
  · subst hj
    exact hself view (by simpa [Sharing.absorb] using hview)
  have hold := h j view (by simpa [Sharing.absorb, hj] using hview)
  rcases hle with heq | hlt
  · rwa [← heq] at hold
  · exact hold.later hlt

lemma AllTracked.step (h : AllTracked sharing) (action : Action) :
    AllTracked (sharing.step store i action) ∧ KeepsOrCommits store sharing i action := by
  obtain ⟨hnow, hstaged⟩ := List.forall_mem_cons.1 (h i)
  cases action with
  | read env =>
    simp only [KeepsOrCommits, Sharing.step]
    generalize hdone : reconstruct store env (sharing.world i) = done
    have hcases : Reconstruction (sharing.world i) done :=
      hdone ▸ reconstruction_of_reconstruct (sharing.world i)
    cases hcases with
    | failed nextProcess nextIdentity e later =>
      exact ⟨h.absorb (.inl rfl) (List.forall_mem_singleton.2 hnow), .inl rfl⟩
    | rebuilt nextProcess state active roots =>
      refine ⟨h.absorb (.inl rfl) ?_, .inl rfl⟩
      refine List.forall_mem_cons.2 ⟨hnow, List.forall_mem_singleton.2 ?_⟩
      refine ⟨active.coherent roots, rfl, fun set hset => .inl (Option.some.inj hset).symm,
        fun set hset => ?_⟩
      obtain rfl := Option.some.inj hset
      exact remembers_rebuilt active roots
  | install =>
    simp only [KeepsOrCommits, Sharing.step]
    split
    · exact ⟨h, .inl rfl⟩
    · next view hview =>
      refine ⟨h.absorb (.inl rfl) (List.forall_mem_singleton.2 ?_), .inl rfl⟩
      exact hstaged view (Option.mem_toList.2 hview)
  | commit env mutation =>
    have htransaction : Transaction store env _ _ (sharing.world i)
        (mutation.perform store env (sharing.world i)) :=
      transaction_of_perform hnow.coherent mutation
    have hview : Tracked ((sharing.world i).file.getD {})
        ⟨(sharing.world i).supervisor, (sharing.observers i).now.basis⟩ := hnow
    rcases hview.transaction htransaction with ⟨hfile, hself⟩ | ⟨next, hfile, hlt, hcommits, hself⟩
    · refine ⟨h.absorb (.inl ?_) ?_, .inl hfile⟩
      · rw [hfile]
        rfl
      · rw [hfile]
        exact List.forall_mem_cons.2 ⟨hself, hstaged⟩
    refine ⟨h.absorb (.inr ?_) ?_, .inr ⟨env, mutation, next, rfl, hfile, hcommits⟩⟩
    · rw [hfile]
      exact hlt
    · rw [hfile]
      exact List.forall_mem_cons.2 ⟨hself, fun view hview => (hstaged view hview).later hlt⟩

end Sharing

end Ostadix.Supervisor
