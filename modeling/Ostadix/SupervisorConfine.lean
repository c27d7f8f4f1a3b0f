import Ostadix.SupervisorSteps

/-! A capability reaches the worker it was minted for, and no other one. -/

namespace Ostadix.Supervisor

open List

variable {store : String → Option Manifest} {Value : Type} {structural : Value → Bool}

/-! ## Histories -/

/-- What can happen to a supervisor. Other processes may change the active-set file. -/
inductive Event (Value : Type) where
  | external (file : Option PersistedActiveSet)
  | reconstruct (env : Environment)
  | mutate (env : Environment) (mutation : Mutation)
  | restartCrashed (envs : String → Environment) (exited : String → Option Bool)
  | serviceCapability (service protocol : String) (rights : List String)
  | invoke (capability : Capability) (operation : String) (input : Value)
      (exchange : Exchange Value)
  | compose (steps : List (CompositionStep × Exchange Value)) (value : Value)

structure History where
  world : World := {}
  trace : List Output := []

def History.extend {α : Type} (h : History) (done : Done α) : History :=
  ⟨done.world, h.trace ++ done.outputs⟩

def step (store : String → Option Manifest) (structural : Value → Bool) (h : History) :
    Event Value → History
  | .external file => { h with world := { h.world with file } }
  | .reconstruct env => h.extend (reconstruct store env h.world)
  | .mutate env mutation => h.extend (mutation.perform store env h.world)
  | .restartCrashed envs exited => h.extend (restartCrashed store envs exited h.world)
  | .serviceCapability service protocol rights =>
    h.extend (serviceCapability h.world service protocol rights)
  | .invoke capability operation input exchange =>
    h.extend (invoke structural h.world capability operation input exchange)
  | .compose steps value => h.extend (compose structural h.world steps value)

def run (store : String → Option Manifest) (structural : Value → Bool)
    (events : List (Event Value)) : History :=
  events.foldl (step store structural) {}

/-! ## Confinement -/

/-- The last thing that happened to the capability or its service: minted for the process. -/
def Bound (trace : List Output) (identity : ℕ) (service : String) (process : ℕ) : Prop :=
  (∃ start middle, trace = start ++ .minted identity service process :: middle ∧
    ∀ o ∈ middle, o ≠ .disturbed service ∧ o ≠ .reconstructed) ∧
  ∀ s p, .minted identity s p ∈ trace → s = service ∧ p = process

def Output.isQuiet : Output → Bool
  | .minted .. | .sent .. => false
  | .assigned .. | .republished .. | .disturbed _ | .reconstructed => true

variable {identity process : ℕ} {s service : String} {state : SupervisorState} {h : History}
  {bearers : Table ℕ BearerBinding} {binding : BearerBinding}
  {status : String × ActivePackage × ActiveService}

lemma Bound.append {trace out : List Output} (h : Bound trace identity service process)
    (hout : ∀ o ∈ out, o ≠ .disturbed service ∧ o ≠ .reconstructed)
    (hminted : ∀ s p, .minted identity s p ∉ out) :
    Bound (trace ++ out) identity service process := by
  obtain ⟨⟨start, middle, rfl, hmiddle⟩, hone⟩ := h
  refine ⟨⟨start, middle ++ out, by simp, ?_⟩, ?_⟩
  · intro o ho
    rcases List.mem_append.1 ho with ho | ho
    · exact hmiddle o ho
    · exact hout o ho
  intro s p hmem
  rcases List.mem_append.1 hmem with hmem | hmem
  · exact hone s p hmem
  · exact absurd hmem (hminted s p)

structure Confined (h : History) : Prop where
  coherent : Coherent h.world.supervisor.state
  bearers : ∀ identity binding, h.world.supervisor.bearers.lookup identity = some binding →
    ∃ process, Runs h.world.supervisor.state binding.service process ∧
      Bound h.trace identity binding.service process
  minted : ∀ identity s p, .minted identity s p ∈ h.trace → identity < h.world.nextIdentity
  past : ∀ i identity s p, h.trace[i]? = some (.sent identity s p) →
    Bound (h.trace.take i) identity s p

lemma Coherent.runs_unique (hstate : Coherent state) {process' : ℕ} (h : Runs state s process)
    (h' : Runs state s process') :
    process = process' := by
  obtain ⟨p, package, service, hp, hs, rfl⟩ := h
  obtain ⟨q, package', service', hq, hs', rfl⟩ := h'
  have heq := hstate.one_owner hp (Table.mem_iff.2 ⟨service, hs⟩) hq
    (Table.mem_iff.2 ⟨service', hs'⟩)
  subst heq
  rw [hp] at hq
  cases hq
  rw [hs] at hs'
  cases hs'
  rfl

/-- What was sent before stays bound when more is seen. -/
lemma past_append {seen out : List Output}
    (hpast : ∀ i identity s p, seen[i]? = some (.sent identity s p) →
      Bound (seen.take i) identity s p)
    (hout : ∀ i identity s p, out[i]? = some (.sent identity s p) →
      Bound (seen ++ out.take i) identity s p) :
    ∀ i identity s p, (seen ++ out)[i]? = some (.sent identity s p) →
      Bound ((seen ++ out).take i) identity s p := by
  intro i identity s p hi
  by_cases hlt : i < seen.length
  · rw [List.getElem?_append_left hlt] at hi
    rw [take_append_of_le_length hlt.le]
    exact hpast i identity s p hi
  rw [not_lt] at hlt
  rw [List.getElem?_append_right hlt] at hi
  rw [take_append, take_of_length_le hlt]
  exact hout _ identity s p hi

/-- A step that mints and sends nothing, and keeps only bearers whose services it leaves alone. -/
lemma Confined.quiet (hconfined : Confined h) {α : Type} {done : Done α}
    (hquiet : ∀ o ∈ done.outputs, o.isQuiet = true)
    (hcoherent : Coherent done.world.supervisor.state)
    (hidentity : h.world.nextIdentity ≤ done.world.nextIdentity)
    (hbearers : ∀ identity binding, done.world.supervisor.bearers.lookup identity = some binding →
      h.world.supervisor.bearers.lookup identity = some binding ∧
      (∀ o ∈ done.outputs, o ≠ .disturbed binding.service ∧ o ≠ .reconstructed) ∧
      ∀ process, Runs h.world.supervisor.state binding.service process →
        Runs done.world.supervisor.state binding.service process) :
    Confined (h.extend done) := by
  have hminted : ∀ identity s p, Output.minted identity s p ∉ done.outputs := by
    intro identity s p hmem
    have hfalse := hquiet _ hmem
    cases hfalse
  refine ⟨hcoherent, ?_, ?_, ?_⟩
  · intro identity binding hlookup
    obtain ⟨hold, hleft, hruns⟩ := hbearers identity binding hlookup
    obtain ⟨process, hprocess, hbound⟩ := hconfined.bearers identity binding hold
    exact ⟨process, hruns process hprocess, hbound.append hleft (hminted identity)⟩
  · intro identity s p hmem
    rcases List.mem_append.1 hmem with hmem | hmem
    · exact (hconfined.minted identity s p hmem).trans_le hidentity
    · exact absurd hmem (hminted identity s p)
  apply past_append hconfined.past
  intro i identity s p hi
  have hfalse := hquiet _ (mem_of_getElem? hi)
  cases hfalse

lemma lookup_revokeServices {services : List String}
    (h : (revokeServices services bearers).lookup identity = some binding) :
    bearers.lookup identity = some binding ∧ binding.service ∉ services := by
  have hmem := Table.mem_entries.2 h
  rw [revokeServices, mem_filter] at hmem
  exact ⟨Table.mem_entries.1 hmem.1, by simpa using hmem.2⟩

lemma lookup_erase {bearers : Table ℕ BearerBinding} {identity removed : ℕ}
    {binding : BearerBinding} (h : (bearers.erase removed).lookup identity = some binding) :
    bearers.lookup identity = some binding := by
  by_cases heq : identity = removed
  · subst heq
    rw [AList.lookup_erase] at h
    cases h
  · rwa [AList.lookup_erase_ne heq] at h

lemma isQuiet_published (assigned : List (String × ℕ)) (touched : List String) :
    ∀ o ∈ assignedOutputs assigned ++ touched.map .disturbed, o.isQuiet = true := by
  intro o ho
  simp only [assignedOutputs, List.mem_append, mem_map] at ho
  rcases ho with ⟨g, -, rfl⟩ | ⟨s, -, rfl⟩ <;> rfl

lemma Confined.transaction (hconfined : Confined h) {env : Environment} {origin : String → Prop}
    {repeated : Prop} {done : Done Unit} (ht : Transaction store env origin repeated h.world done) :
    Confined (h.extend done) := by
  cases ht with
  | failed nextProcess roots e sound =>
    apply hconfined.quiet (by simp) (hconfined.coherent.withRoots sound.sound) le_rfl
    intro identity binding hlookup
    exact ⟨hlookup, by simp, fun process hruns => hruns⟩
  | unsynced nextProcess observed roots base next assigned touched e sound =>
    apply hconfined.quiet (by simp) (hconfined.coherent.withRoots sound.sound) le_rfl
    intro identity binding hlookup
    exact ⟨hlookup, by simp, fun process hruns => hruns⟩
  | unchanged _ =>
    apply hconfined.quiet (by simp) hconfined.coherent le_rfl
    intro identity binding hlookup
    exact ⟨hlookup, by simp, fun process hruns => hruns⟩
  | published nextProcess observed base next assigned touched affected owners rooted based observes
      publication replaces owned revoked fresh =>
    apply hconfined.quiet (isQuiet_published assigned touched)
      (publication.coherent (hconfined.coherent.withRoots rooted) owned) le_rfl
    intro identity binding hlookup
    obtain ⟨hold, hservice⟩ := lookup_revokeServices hlookup
    have huntouched : binding.service ∉ touched := fun hmem => hservice (revoked hmem)
    refine ⟨hold, ?_, fun process hruns => publication.runs huntouched hruns⟩
    intro o ho
    simp only [assignedOutputs, List.mem_append, mem_map] at ho
    rcases ho with ⟨g, -, rfl⟩ | ⟨s, hs, rfl⟩
    · simp
    refine ⟨?_, by simp⟩
    intro heq
    cases heq
    exact huntouched hs

lemma RebuiltAll.coherent {set : PersistedActiveSet}
    (h : RebuiltAll set.active ∅ state.active state.serviceOwners)
    (hroots : RebuiltRoots set state.rollback) : Coherent state := by
  refine ⟨h.owners, ?_, ?_, ?_⟩
  · intro p package hp
    obtain ⟨record, -, -, hrebuilt⟩ := h.exists_record hp
    exact hrebuilt.described
  · intro p root hp package hpackage
    rw [(hroots.backward p root hp).2.2] at hpackage
    cases hpackage
  · intro p hp
    obtain ⟨root, hroot⟩ := Table.mem_iff.1 hp
    obtain ⟨hrecord, rfl, -⟩ := hroots.backward p root hroot
    obtain ⟨record, hactive, hname⟩ := mem_map.1 (hroots.anchored _ hrecord)
    obtain ⟨package, hpackage, -⟩ := h.forward record hactive
    rw [← hname]
    exact Table.mem_iff.2 ⟨package, hpackage⟩

lemma Confined.reconstruction (hconfined : Confined h) {done : Done Unit}
    (ht : Reconstruction h.world done) : Confined (h.extend done) := by
  cases ht with
  | failed nextProcess nextIdentity e later =>
    apply hconfined.quiet (by simp) hconfined.coherent later
    intro identity binding hlookup
    exact ⟨hlookup, by simp, fun process hruns => hruns⟩
  | rebuilt nextProcess state active roots =>
    apply hconfined.quiet _ (active.coherent roots) (Nat.le_succ _)
    · intro identity binding hlookup
      rw [AList.lookup_empty] at hlookup
      cases hlookup
    intro o ho
    rcases mem_cons.1 ho with rfl | ho
    · rfl
    · obtain ⟨s, -, rfl⟩ := mem_map.1 ho
      rfl

/-! ## Crashes -/

lemma lookup_terminate (state : SupervisorState) (exited : List String) (p : String) :
    (state.terminate exited).active.lookup p =
      (state.active.lookup p).map fun package => package.terminate exited :=
  Table.lookup_mapValues _ _ p

lemma mem_terminate {package : ActivePackage} {exited : List String} :
    s ∈ (package.terminate exited).services ↔ s ∈ package.services := mem_mapValues

lemma Coherent.terminate (hstate : Coherent state) (exited : List String) :
    Coherent (state.terminate exited) := by
  refine ⟨?_, ?_, hstate.roots, fun p hp => mem_mapValues.2 (hstate.anchored p hp)⟩
  · intro s p
    refine (hstate.owners s p).trans ?_
    simp only [lookup_terminate, Option.map_eq_some_iff]
    constructor
    · rintro ⟨package, hp, hs⟩
      exact ⟨_, ⟨package, hp, rfl⟩, mem_terminate.2 hs⟩
    · rintro ⟨_, ⟨package, hp, rfl⟩, hs⟩
      exact ⟨package, hp, mem_terminate.1 hs⟩
  · intro p package hp
    rw [lookup_terminate] at hp
    obtain ⟨old, hold, rfl⟩ := Option.map_eq_some_iff.1 hp
    intro s
    rw [mem_terminate]
    exact hstate.described p old hold s

lemma runs_terminate {exited : List String} (h : Runs state s process) :
    Runs (state.terminate exited) s process := by
  obtain ⟨p, package, service, hp, hs, hprocess⟩ := h
  refine ⟨p, package.terminate exited,
    if s ∈ exited then { service with terminated := true } else service, ?_, ?_, ?_⟩
  · rw [lookup_terminate, hp, Option.map_some]
  · rw [ActivePackage.terminate, Table.lookup_mapValues, hs, Option.map_some]
  · split <;> exact hprocess

lemma Confined.terminate (hconfined : Confined h) (exited : List String) :
    Confined { h with
      world := h.world.setState (h.world.supervisor.state.terminate exited) } := by
  refine ⟨hconfined.coherent.terminate exited, ?_, hconfined.minted, hconfined.past⟩
  intro identity binding hlookup
  obtain ⟨process, hruns, hbound⟩ := hconfined.bearers identity binding hlookup
  exact ⟨process, runs_terminate hruns, hbound⟩

lemma Confined.restartAll {h : History} (hconfined : Confined h) (envs : String → Environment)
    (services : List String) : Confined (h.extend (restartAll store envs h.world services)) := by
  induction services generalizing h with
  | nil => simpa [History.extend, Supervisor.restartAll] using hconfined
  | cons service services ih =>
    have htransaction : Transaction store (envs service) (fun _ => False) False h.world
        (restartService store (envs service) h.world service) :=
      transaction_of_restartService hconfined.coherent service
    have hfirst := hconfined.transaction htransaction
    rw [Supervisor.restartAll]
    split
    · exact hfirst
    · have hrest := ih hfirst
      simpa [History.extend, append_assoc] using hrest

lemma Confined.restartCrashed (hconfined : Confined h)
    (envs : String → Environment) (exited : String → Option Bool) :
    Confined (h.extend (restartCrashed store envs exited h.world)) := by
  have hstay : ∀ {world : World}, Confined { h with world } →
      ∀ e : String, Confined (h.extend (⟨world, [], .error e⟩ : Done Unit)) := by
    intro world hworld e
    simpa [History.extend] using hworld
  rw [Supervisor.restartCrashed]
  split
  · exact hstay hconfined _
  dsimp only
  split
  · exact hstay (hconfined.terminate _) _
  · exact (hconfined.terminate _).restartAll envs _

/-! ## Capabilities -/

lemma runs_of_statusFor (h : statusFor state service = .ok status) :
    Runs state service status.2.2.process := by
  simp only [statusFor, bind_eq_ok, orError_eq_ok] at h
  obtain ⟨packageName, -, package, hpackage, active, hactive, h⟩ := h
  cases h
  exact ⟨packageName, package, active, hpackage, hactive, rfl⟩

lemma Confined.serviceCapability (hconfined : Confined h)
    (service protocol : String) (rights : List String) :
    Confined (h.extend (serviceCapability h.world service protocol rights)) := by
  rw [Supervisor.serviceCapability]
  split
  · simpa [History.extend] using hconfined
  rename_i packageName package active hcheck
  simp only [checkCapability, bind_eq_ok, ensure_eq_ok] at hcheck
  obtain ⟨status, hstatus, _, -, _, -, _, -, _, -, hcheck⟩ := hcheck
  cases hcheck
  have hnew : ∀ s p, Output.minted h.world.nextIdentity s p ∉ h.trace := by
    intro s p hmem
    exact absurd (hconfined.minted _ s p hmem) (lt_irrefl _)
  have hotherOut : ∀ s : String, ∀ o ∈ [Output.minted h.world.nextIdentity service active.process],
      o ≠ .disturbed s ∧ o ≠ .reconstructed := by
    simp
  refine ⟨hconfined.coherent, ?_, ?_, ?_⟩
  · intro identity binding hlookup
    dsimp only [History.extend] at hlookup ⊢
    rw [Table.lookup_insert_eq_ite] at hlookup
    split at hlookup
    next heq =>
      subst heq
      cases hlookup
      refine ⟨active.process, runs_of_statusFor hstatus, ⟨h.trace, [], rfl, by simp⟩, ?_⟩
      intro s p hmem
      rcases List.mem_append.1 hmem with hmem | hmem
      · exact absurd hmem (hnew s p)
      · simp only [mem_singleton, Output.minted.injEq, true_and] at hmem
        exact hmem
    next hne =>
      obtain ⟨process, hruns, hbound⟩ := hconfined.bearers identity binding hlookup
      refine ⟨process, hruns, hbound.append (hotherOut _) ?_⟩
      intro s p hmem
      simp [hne] at hmem
  · intro identity s p hmem
    rcases List.mem_append.1 hmem with hmem | hmem
    · exact (hconfined.minted identity s p hmem).trans (Nat.lt_succ_self _)
    · simp only [mem_singleton, Output.minted.injEq] at hmem
      rw [hmem.1]
      exact Nat.lt_succ_self _
  · apply past_append hconfined.past
    intro i identity s p hi
    have hmem := mem_of_getElem? hi
    simp at hmem

/-- A request through a live bearer goes to the process it is bound to. -/
lemma Confined.sent (hconfined : Confined h)
    (hlookup : h.world.supervisor.bearers.lookup identity = some binding)
    (hruns : Runs h.world.supervisor.state binding.service process) :
    Confined { h with trace := h.trace ++ [.sent identity binding.service process] } := by
  obtain ⟨process', hruns', hbound⟩ := hconfined.bearers identity binding hlookup
  have heq := hconfined.coherent.runs_unique hruns hruns'
  subst heq
  refine ⟨hconfined.coherent, ?_, ?_, ?_⟩
  · intro identity' binding' hlookup'
    obtain ⟨process', hruns', hbound'⟩ := hconfined.bearers identity' binding' hlookup'
    exact ⟨process', hruns', hbound'.append (by simp) (by simp)⟩
  · intro identity' s p hmem
    simp only [List.mem_append, mem_singleton, reduceCtorEq, or_false] at hmem
    exact hconfined.minted identity' s p hmem
  apply past_append hconfined.past
  intro i identity' s p hi
  cases i with
  | zero =>
    cases hi
    simpa using hbound
  | succ i => simp at hi

lemma Confined.dropBearers (hconfined : Confined h)
    (hsub : ∀ identity binding, bearers.lookup identity = some binding →
      h.world.supervisor.bearers.lookup identity = some binding) :
    Confined { h with world := h.world.setBearers bearers } := by
  refine ⟨hconfined.coherent, ?_, hconfined.minted, hconfined.past⟩
  intro identity binding hlookup
  exact hconfined.bearers identity binding (hsub identity binding hlookup)

/-- The bearers of a service go with a failed exchange. -/
lemma Confined.revoke (hconfined : Confined h) (service : String) :
    Confined
      { world := h.world.setBearers (revokeServices [service] h.world.supervisor.bearers)
        trace := h.trace ++ [.disturbed service] } := by
  have hdone : Confined (h.extend (⟨h.world.setBearers
      (revokeServices [service] h.world.supervisor.bearers), [.disturbed service], .ok ()⟩ :
        Done Unit)) := by
    apply hconfined.quiet (by simp [Output.isQuiet]) hconfined.coherent le_rfl
    intro identity binding hlookup
    obtain ⟨hold, hservice⟩ := lookup_revokeServices hlookup
    refine ⟨hold, ?_, fun process hruns => hruns⟩
    simpa [eq_comm] using hservice
  exact hdone

lemma findBearer_eq_ok {w : World} {capability : Capability} {operation : String} {input : Value}
    {active : ActiveService}
    (h : findBearer structural w capability operation input = .ok (binding, active)) :
    w.supervisor.bearers.lookup capability.identity = some binding ∧
      Runs w.supervisor.state binding.service active.process := by
  simp only [findBearer, bind_eq_ok, ensure_eq_ok, orError_eq_ok] at h
  obtain ⟨_, _, _, _, _, _, binding', hbinding, _, _, _, _, status, hstatus, h⟩ := h
  cases h
  exact ⟨hbinding, runs_of_statusFor hstatus⟩

/-- The state after the exchange, with what is seen of its failure. -/
lemma Confined.exchanged (hconfined : Confined h) (structural : Value → Bool) (service : String)
    (exchange : Exchange Value) :
    Confined
      { world := h.world.exchanged structural service exchange
        trace := h.trace ++
          (if exchange.fails structural then [.disturbed service] else []) } := by
  have hterminated : Confined { h with
      world := if exchange.terminates structural then
        h.world.setState (h.world.supervisor.state.terminate [service]) else h.world } := by
    split
    · exact hconfined.terminate [service]
    · exact hconfined
  rw [World.exchanged]
  by_cases hfails : exchange.fails structural = true
  · simp only [hfails, if_true]
    exact hterminated.revoke service
  · simp only [if_neg hfails, append_nil]
    exact hterminated

lemma Confined.invoke (hconfined : Confined h) (structural : Value → Bool)
    (capability : Capability) (operation : String) (input : Value) (exchange : Exchange Value) :
    Confined (h.extend (invoke structural h.world capability operation input exchange)) := by
  rw [Supervisor.invoke]
  split
  · simpa [History.extend] using hconfined
  rename_i binding active hfind
  obtain ⟨hlookup, hruns⟩ := findBearer_eq_ok hfind
  split
  · have hdrop := hconfined.dropBearers fun identity binding =>
      @lookup_erase _ identity capability.identity binding
    simpa [History.extend] using hdrop
  split
  · exact hconfined.revoke binding.service
  by_cases hsends : exchange.sends = true
  · have hsent := (hconfined.sent hlookup hruns).exchanged structural binding.service exchange
    simpa [History.extend, hsends, append_assoc] using hsent
  · have hexchanged := hconfined.exchanged structural binding.service exchange
    simpa [History.extend, hsends] using hexchanged

lemma Confined.composeStep (hconfined : Confined h) (structural : Value → Bool)
    (step : CompositionStep) (value : Value) (exchange : Exchange Value) :
    Confined (h.extend (composeStep structural h.world step value exchange)) := by
  rw [Supervisor.composeStep]
  split
  · simpa [History.extend] using hconfined
  have hminted := hconfined.serviceCapability step.service step.protocol [serviceRightInvoke]
  dsimp only
  split
  · exact hminted
  next capability _ =>
    have hinvoked := hminted.invoke structural capability step.operation value exchange
    have hdropped := hinvoked.dropBearers fun identity binding =>
      @lookup_erase _ identity capability.identity binding
    simpa [History.extend, append_assoc] using hdropped

lemma Confined.composeSteps {h : History} (hconfined : Confined h) (structural : Value → Bool)
    (value : Value) (steps : List (CompositionStep × Exchange Value)) :
    Confined (h.extend (composeSteps structural h.world value steps)) := by
  induction steps generalizing h value with
  | nil => simpa [History.extend, Supervisor.composeSteps] using hconfined
  | cons step steps ih =>
    have hfirst := hconfined.composeStep structural step.1 value step.2
    rw [Supervisor.composeSteps]
    split
    · exact hfirst
    next value' _ =>
      have hrest := ih hfirst value'
      simpa [History.extend, append_assoc] using hrest

lemma Confined.compose (hconfined : Confined h) (structural : Value → Bool)
    (steps : List (CompositionStep × Exchange Value)) (value : Value) :
    Confined (h.extend (compose structural h.world steps value)) := by
  rw [Supervisor.compose]
  split
  · simpa [History.extend] using hconfined
  · split
    · simpa [History.extend] using hconfined
    · exact hconfined.composeSteps structural value steps

lemma Confined.step (hconfined : Confined h) (event : Event Value) :
    Confined (step store structural h event) := by
  cases event with
  | external file =>
    exact ⟨hconfined.coherent, hconfined.bearers, hconfined.minted, hconfined.past⟩
  | reconstruct env => exact hconfined.reconstruction (reconstruction_of_reconstruct h.world)
  | mutate env mutation =>
    exact hconfined.transaction (transaction_of_perform hconfined.coherent mutation)
  | restartCrashed envs exited => exact hconfined.restartCrashed envs exited
  | serviceCapability service protocol rights =>
    exact hconfined.serviceCapability service protocol rights
  | invoke capability operation input exchange =>
    exact hconfined.invoke structural capability operation input exchange
  | compose steps value => exact hconfined.compose structural steps value

lemma confined_run (store : String → Option Manifest) (structural : Value → Bool)
    (events : List (Event Value)) : Confined (run store structural events) := by
  refine List.foldlRecOn events (Supervisor.step store structural) ?_ ?_
  · refine ⟨coherent_empty, ?_, ?_, ?_⟩
    · intro identity binding hlookup
      simp at hlookup
    · intro identity s p hmem
      cases hmem
    · intro i identity s p hi
      simp at hi
  · intro h hconfined event _
    exact hconfined.step event

/-- A request goes once to the process its capability was minted for, and nothing has happened to
the service since. -/
theorem requests_confined (store : String → Option Manifest) (structural : Value → Bool)
    (events : List (Event Value)) (before after : List Output) (identity process : ℕ)
    (service : String) :
    (run store structural events).trace = before ++ .sent identity service process :: after →
      ∃ start middle, before = start ++ .minted identity service process :: middle ∧
        (∀ o ∈ middle, o ≠ .disturbed service ∧ o ≠ .reconstructed) ∧
        ∀ s p, .minted identity s p ∈ before → s = service ∧ p = process := by
  intro htrace
  have hpast := (confined_run store structural events).past before.length identity service process
  rw [htrace] at hpast
  obtain ⟨⟨start, middle, hbefore, hmiddle⟩, hone⟩ := hpast (by simp)
  rw [take_left] at hbefore hone
  exact ⟨start, middle, hbefore, hmiddle, hone⟩

/-! ## An example -/

def sampleDigest (digit : Char) : String := "sha256:" ++ String.ofList (List.replicate 64 digit)

def samplePackage (services : List ServiceDeclaration) (h : (services.map (·.name)).Nodup) :
    Manifest := ⟨"app", services, h⟩

def sampleStore (digest : String) : Option Manifest :=
  if digest = sampleDigest 'a' then some (samplePackage [⟨"clock", "tick"⟩] (by simp))
  else if digest = sampleDigest 'b' then some (samplePackage [⟨"clock", "tock"⟩] (by simp))
  else if digest = sampleDigest 'c' ∨ digest = sampleDigest 'd' then
    some (samplePackage [] (by simp))
  else none

def sampleCapability : Capability :=
  { kind := .service, identity := 2, service := "clock", protocol := "tick", generation := 1,
    package := "app", digest := sampleDigest 'a', rights := [serviceRightInvoke] }

def sampleEvents : List (Event ℕ) :=
  [.reconstruct {}, .mutate {} (.activate (sampleDigest 'a')),
    .serviceCapability "clock" "tick" [serviceRightInvoke],
    .invoke sampleCapability "now" 0 (.result 1)]

theorem requests_confined_sample :
    (run sampleStore (fun _ => true) sampleEvents).trace =
      [.reconstructed, .assigned "clock" 1, .disturbed "clock", .minted 2 "clock" 0,
        .sent 2 "clock" 0] ∧
      ∃ start middle, [.reconstructed, .assigned "clock" 1, .disturbed "clock",
          .minted 2 "clock" 0] = start ++ Output.minted 2 "clock" 0 :: middle ∧
        (∀ o ∈ middle, o ≠ .disturbed "clock" ∧ o ≠ .reconstructed) ∧
        ∀ s p, .minted 2 s p ∈ [Output.reconstructed, .assigned "clock" 1, .disturbed "clock",
          .minted 2 "clock" 0] → s = "clock" ∧ p = 0 := by
  have htrace : (run sampleStore (fun _ => true) sampleEvents).trace =
      [.reconstructed, .assigned "clock" 1, .disturbed "clock", .minted 2 "clock" 0,
        .sent 2 "clock" 0] := by decide +kernel
  exact ⟨htrace, requests_confined sampleStore (fun _ => true) sampleEvents _ [] 2 0 "clock" htrace⟩

end Ostadix.Supervisor
