import Ostadix.Frontier
import Ostadix.Ir
import Ostadix.Resource

/-! Effect summaries: what an operation reads and writes, and when two operations conflict. -/

namespace Ostadix

open OrdSet ResourceKey Text List

inductive EffectConfidence where
  | verified | conservative | userDeclared
  deriving DecidableEq, Repr

inductive Fallibility where
  | infallible | mayFail
  deriving DecidableEq, Repr

structure EffectSummary where
  deterministic : Bool
  fallibility : Fallibility
  (reads writes : OrdSet ResourceKey)
  actorState : Option ActorResourceId
  (unknown network spawn clock : Bool)
  confidence : EffectConfidence
  deriving DecidableEq

/-- A device or accelerator view is never independent of the generic resource it views. -/
def governedAlias : ResourceKey → Option ResourceKey
  | .deviceState resource => some (.governedResource resource)
  | .acceleratorState resource => some (.governedResource resource)
  | _ => none

def isNetworkEndpoint : ResourceKey → Bool
  | .network _ => true
  | _ => false

/-- Every exact endpoint also touches the shared network state; views touch what they view. -/
def expandResourceAliases (resources : OrdSet ResourceKey) : OrdSet ResourceKey :=
  let expanded :=
    if resources.toList.any isNetworkEndpoint then resources.insert .networkUnknown else resources
  ofList (expanded.toList.filterMap governedAlias) ∪ expanded

def touchesNetwork (resources : OrdSet ResourceKey) : Bool :=
  resources.toList.any fun resource => isNetworkEndpoint resource || resource = .networkUnknown

def resourceConflict (left right : OrdSet ResourceKey) : Bool :=
  left.toList.any (fun resource => resource ∈ right) || touchesNetwork left && touchesNetwork right

namespace EffectSummary

/-- Verified, deterministic, infallible work that touches no resource. -/
def pure : EffectSummary where
  deterministic := true
  fallibility := .infallible
  reads := ∅
  writes := ∅
  actorState := none
  unknown := false
  network := false
  spawn := false
  clock := false
  confidence := .verified

/-- Unknown hosted work always reads and writes the host world. -/
def unknownWork : EffectSummary where
  deterministic := false
  fallibility := .mayFail
  reads := {.hostWorld}
  writes := {.hostWorld}
  actorState := none
  unknown := true
  network := false
  spawn := false
  clock := false
  confidence := .conservative

def conservativeEvaluator : EffectSummary :=
  { unknownWork with
    reads := unknownWork.reads.insert .evaluatorState
    writes := unknownWork.writes.insert .evaluatorState }

def dropActor (previous : Option ActorResourceId) (resources : OrdSet ResourceKey) :
    OrdSet ResourceKey :=
  match previous with
  | some actor => resources.erase (.actorState actor)
  | none => resources

/-- Attach a persistent actor-state transition in place of an earlier one. -/
def withActorState (s : EffectSummary) (actor : ActorResourceId) : EffectSummary :=
  { s with
    actorState := some actor
    reads := (dropActor s.actorState s.reads).insert (.actorState actor)
    writes := (dropActor s.actorState s.writes).insert (.actorState actor) }

def touchesAmbientHost (reads writes : OrdSet ResourceKey) : Prop :=
  hostWorld ∈ reads ∨ hostWorld ∈ writes

instance (reads writes : OrdSet ResourceKey) : Decidable (touchesAmbientHost reads writes) :=
  inferInstanceAs (Decidable (_ ∨ _))

def touchesPreciseHost (reads writes : OrdSet ResourceKey) : Bool :=
  (reads.toList ++ writes.toList).any fun resource =>
    resource.isHostResource && resource ≠ .hostWorld

def schedulingAccesses (s : EffectSummary) : OrdSet ResourceKey × OrdSet ResourceKey :=
  let reads := expandResourceAliases s.reads
  let writes := expandResourceAliases s.writes
  (if touchesPreciseHost reads writes then reads.insert .hostWorld else reads,
    if touchesAmbientHost reads writes then writes.insert .hostWorld else writes)

def isVerifiedPureInfallible (s : EffectSummary) : Bool :=
  s.confidence = .verified && s.deterministic && s.fallibility = .infallible && !s.unknown &&
    s.actorState.isNone && s.reads.isEmpty && s.writes.isEmpty && !s.network && !s.spawn && !s.clock

def conflictsWith (s t : EffectSummary) : Bool :=
  s.actorState.isSome && s.actorState = t.actorState ||
    (resourceConflict s.schedulingAccesses.2 t.schedulingAccesses.2 ||
      resourceConflict s.schedulingAccesses.2 t.schedulingAccesses.1 ||
      resourceConflict t.schedulingAccesses.2 s.schedulingAccesses.1)

end EffectSummary

/-! ## Source declarations -/

inductive EffectError where
  | emptyAttribute
  | duplicateDeclaration (entry : String)
  | invalidClassification (value : String)
  | invalidSerialization (value : String)
  | emptyDeclaration
  | emptyResource (list : String)
  | invalidResource (item : String)
  | emptyResourceIdentity (item : String)
  | governedResource (kind item : String)
  | absoluteProjectPath (value : String)
  | emptyIdentifier (label : String)
  | invalidIdentifier (label value : String)
  | unknownResourceKind (kind item : String)
  | invalidActor (value : String)
  | emptyActorLanguage
  | invalidActorEnvironment (environment : String)
  | transientActor
  | unverifiedPure
  | atPlanNode (id : PlanNodeId) (error : EffectError)
  deriving DecidableEq, Repr

def EffectError.message : EffectError → String
  | .emptyAttribute => "empty block effect attribute"
  | .duplicateDeclaration entry => s!"duplicate `{entry}` declaration"
  | .invalidClassification value =>
    s!"invalid effect classification `{value}`; expected `pure` or `unknown`"
  | .invalidSerialization value => s!"invalid serialization domain `{value}`; expected `host`"
  | .emptyDeclaration => "resource declaration must not be empty"
  | .emptyResource list => s!"empty resource in `{list}`"
  | .invalidResource item => s!"invalid resource `{item}`; expected `kind:value`"
  | .emptyResourceIdentity item => s!"resource `{item}` has an empty identity"
  | .governedResource kind item =>
    s!"governed resource kind `{kind}` in `{item}` requires trusted lowering; " ++
      "source effect declarations cannot mint governed state or authority"
  | .absoluteProjectPath value =>
    s!"project resource `{value}` must be relative to the project root"
  | .emptyIdentifier label => s!"{label} must not be empty"
  | .invalidIdentifier label value => s!"invalid {label} `{value}`"
  | .unknownResourceKind kind item =>
    s!"unknown resource kind `{kind}` in `{item}`; " ++
      "expected project, host, env, scope, network, service, or actor"
  | .invalidActor value =>
    s!"invalid actor resource `{value}`; expected `language[environment]`"
  | .emptyActorLanguage => "actor resource language must not be empty"
  | .invalidActorEnvironment environment => s!"invalid actor environment `{environment}`"
  | .transientActor => "actor resources require an explicit persistent environment"
  | .unverifiedPure =>
    "`effects=pure` cannot upgrade an unverified, effectful, or fallible operation"
  | .atPlanNode id error => s!"plan node {id}: {error.message}"

inductive DeclaredPurity where
  | pure | unknown
  deriving DecidableEq, Repr

/-- Parsed source-level constraints on an operation's derived effects. -/
structure EffectDeclaration where
  purity : Option DeclaredPurity
  (reads writes : OrdSet ResourceKey)
  serialHost : Bool
  deriving DecidableEq

def validateIdentifier (value label : String) : Except EffectError Unit :=
  match value.toList with
  | [] => .error (.emptyIdentifier label)
  | first :: rest =>
    ensure ((first = '_' ∨ first.isAlpha) ∧ ∀ c ∈ rest, c = '_' ∨ c.isAlphanum)
      (.invalidIdentifier label value)

def parseActorEnvironment (language environment : String) : Except EffectError ActorResourceId :=
  match parseU32 environment with
  | none => .error (.invalidActorEnvironment environment)
  | some env => do
    ensure (EnvironmentRefV2.fromEncoded env).isPersistent .transientActor
    return ⟨language, env⟩

def parseActorResource (value : String) : Except EffectError ActorResourceId :=
  match (stripLast ']' value).bind (rsplitOnce '[') with
  | none => .error (.invalidActor value)
  | some (language, environment) => do
    ensure (language ≠ "") .emptyActorLanguage
    parseActorEnvironment language environment

def governedSourceResourceKinds : List String :=
  ["world", "world-state", "governor", "governor-state", "node", "node-state", "domain",
    "domain-state", "process", "process-state", "resource", "resource-state", "governed-resource",
    "object", "object-state", "capability", "capability-state", "namespace", "namespace-state",
    "task", "task-state", "artifact", "artifact-state", "device", "device-state", "accelerator",
    "accelerator-state"]

def parseResourceKind (item kind value : String) : Except EffectError ResourceKey :=
  match kind with
  | "project" => do
    ensure (value.toList.head? ≠ some '/') (.absoluteProjectPath value)
    return .projectPath value
  | "host" => .ok (.hostPath value)
  | "env" => do
    validateIdentifier value "environment variable"
    return .envVar value
  | "scope" => do
    validateIdentifier value "scope binding"
    return .scopeBinding value
  | "network" => .ok (.network value)
  | "service" => .ok (.service value)
  | "actor" => (parseActorResource value).map .actorState
  | _ => .error (.unknownResourceKind kind item)

def parseResource (item : String) : Except EffectError ResourceKey :=
  if item = "stdio" then .ok .stdio
  else if item = "network:*" ∨ item = "network" then .ok .networkUnknown
  else if item = "host:*" ∨ item = "hostworld" then .ok .hostWorld
  else if item = "evaluator" then .ok .evaluatorState
  else match splitOnce ':' item with
    | none => .error (.invalidResource item)
    | some (kind, value) => do
      ensure (value ≠ "") (.emptyResourceIdentity item)
      ensure (kind ∉ governedSourceResourceKinds) (.governedResource kind item)
      parseResourceKind item kind value

def parseItems (list : String) : List String → OrdSet ResourceKey →
    Except EffectError (OrdSet ResourceKey)
  | [], resources => .ok resources
  | item :: items, resources => do
    ensure (item ≠ "") (.emptyResource list)
    let resource ← parseResource item
    parseItems list items (resources.insert resource)

def parseResources (list : String) : Except EffectError (OrdSet ResourceKey) := do
  ensure (trim list ≠ "") .emptyDeclaration
  parseItems list ((splitAny ['+', ';'] list).map trim) ∅

namespace EffectDeclaration

def empty : EffectDeclaration := ⟨none, ∅, ∅, false⟩

/-- A declaration under construction and the entries that already occurred. -/
structure Parser where
  declaration : EffectDeclaration
  (seenEffects seenReads seenWrites seenSerial : Bool)

def parsePurity (value : String) : Except EffectError DeclaredPurity :=
  if value = "pure" then .ok .pure
  else if value = "unknown" then .ok .unknown
  else .error (.invalidClassification value)

def Parser.effects (p : Parser) (value : String) : Except EffectError Parser := do
  ensure (!p.seenEffects) (.duplicateDeclaration "effects=")
  let purity ← parsePurity value
  return { p with seenEffects := true, declaration := { p.declaration with purity := some purity } }

def Parser.reads (p : Parser) (value : String) : Except EffectError Parser := do
  ensure (!p.seenReads) (.duplicateDeclaration "reads=")
  let reads ← parseResources value
  return { p with seenReads := true, declaration := { p.declaration with reads } }

def Parser.writes (p : Parser) (value : String) : Except EffectError Parser := do
  ensure (!p.seenWrites) (.duplicateDeclaration "writes=")
  let writes ← parseResources value
  return { p with seenWrites := true, declaration := { p.declaration with writes } }

def Parser.serial (p : Parser) (value : String) : Except EffectError Parser := do
  ensure (!p.seenSerial) (.duplicateDeclaration "serial=")
  ensure (value = "host") (.invalidSerialization value)
  return { p with seenSerial := true, declaration := { p.declaration with serialHost := true } }

/-- Entries that declare no effects are left to the block options. -/
def Parser.entry (p : Parser) (entry : String) : Except EffectError Parser :=
  if entry = "" then .error .emptyAttribute
  else match after? "effects=" entry with
    | some value => p.effects value
    | none => match after? "reads=" entry with
      | some value => p.reads value
      | none => match after? "writes=" entry with
        | some value => p.writes value
        | none => match after? "serial=" entry with
          | some value => p.serial value
          | none => .ok p

def parse (attr : Option String) : Except EffectError EffectDeclaration := do
  let parsed ← (entries attr).foldlM Parser.entry ⟨empty, false, false, false, false⟩
  return parsed.declaration

def hasResources (d : EffectDeclaration) : Bool :=
  !d.reads.isEmpty || !d.writes.isEmpty || d.serialHost

def hasHostResources (d : EffectDeclaration) : Bool :=
  d.serialHost || d.reads.toList.any isHostResource ||
    d.writes.toList.any isHostResource

def overHost (s : EffectSummary) : EffectSummary :=
  { s with reads := s.reads.insert .hostWorld, writes := s.writes.insert .hostWorld }

def declareUnknown (s : EffectSummary) : EffectSummary :=
  overHost { s with
    deterministic := false, fallibility := .mayFail, unknown := true, confidence := .conservative }

/-- The changes a declaration makes to a summary. A resource-free operation keeps the host world,
since no host footprint is known to be complete. -/
def amend (d : EffectDeclaration) (base : EffectSummary) : EffectSummary :=
  let wasPure := base.isVerifiedPureInfallible
  let base := if d.purity = some .unknown then declareUnknown base else base
  let base := { base with reads := d.reads ∪ base.reads, writes := d.writes ∪ base.writes }
  let base := if d.serialHost then overHost base else base
  let base := if wasPure && d.hasHostResources then overHost base else base
  if wasPure && d.hasResources && d.purity ≠ some .unknown then
    { base with confidence := .userDeclared }
  else base

def applyChecked (d : EffectDeclaration) (base : EffectSummary) :
    Except EffectError EffectSummary := do
  ensure (d.purity = some .pure → base.isVerifiedPureInfallible) .unverifiedPure
  return d.amend base

end EffectDeclaration

/-! ## Plan nodes -/

def trustedRenderers : List String := ["html", "markdown", "text", "latex"]

def BackendInterface.isTrustedRenderer (backend : BackendInterface) : Bool :=
  backend.pure && backend.execution = .inlineValue && backend.canonical ∈ trustedRenderers

def execBaseSummary (envId : UInt32) (attr : Option String) (backend : BackendInterface) :
    EffectSummary :=
  let deferred := (entries attr).any fun entry => entry = "lazy" || entry = "defer"
  let summary :=
    if backend.isTrustedRenderer && !deferred then .pure else .conservativeEvaluator
  -- Only stateful hosted evaluators have actor state; a fresh one is nobody's actor.
  if backend.execution = .shim ∧ (EnvironmentRefV2.fromEncoded envId).isPersistent then
    summary.withActorState ⟨backend.canonical, envId⟩
  else summary

def effectSummaryForPlanNode (id : PlanNodeId) : PlanNodeKind → Except EffectError EffectSummary
  | .text => .ok .pure
  | .load name =>
    .ok { EffectSummary.pure with fallibility := .mayFail, reads := {.scopeBinding name} }
  | .store name => .ok { EffectSummary.pure with writes := {.scopeBinding name} }
  | .group _ _ => .ok .pure
  | .call _ _ _ => .ok .conservativeEvaluator
  | .request _ _ _ => .ok .conservativeEvaluator
  | .schedule _ _ _ => .ok .conservativeEvaluator
  | .exec _ envId attr backend => do
    let declaration ← (EffectDeclaration.parse attr).mapError (.atPlanNode id)
    (declaration.applyChecked (execBaseSummary envId attr backend)).mapError (.atPlanNode id)

/-! ## Conflicts share a resource -/

variable {resources : OrdSet ResourceKey}

lemma mem_expandResourceAliases {r : ResourceKey} :
    r ∈ expandResourceAliases resources ↔
      r ∈ resources ∨ r = .networkUnknown ∧ resources.toList.any isNetworkEndpoint ∨
        ∃ x ∈ resources, governedAlias x = some r := by
  unfold expandResourceAliases
  split
  · next hnet =>
    simp only [mem_union, mem_ofList, mem_filterMap, mem_toList, mem_insert, hnet, and_true]
    constructor
    · rintro (⟨x, rfl | hx, halias⟩ | h | h)
      · cases halias
      · exact .inr (.inr ⟨x, hx, halias⟩)
      · exact .inr (.inl h)
      · exact .inl h
    · rintro (h | h | ⟨x, hx, halias⟩)
      · exact .inr (.inr h)
      · exact .inr (.inl h)
      · exact .inl ⟨x, .inr hx, halias⟩
  · next hnet =>
    simp only [mem_union, mem_ofList, mem_filterMap, mem_toList, hnet,
      Bool.false_eq_true, and_false, false_or]
    exact or_comm

/-- An expanded footprint that touches the network touches the shared network state. -/
lemma networkUnknown_mem_of_touchesNetwork (h : touchesNetwork (expandResourceAliases resources)) :
    .networkUnknown ∈ expandResourceAliases resources := by
  obtain ⟨r, hr, hnet⟩ := any_eq_true.1 h
  rw [Bool.or_eq_true, decide_eq_true_eq] at hnet
  rcases hnet with hnet | rfl
  · rcases mem_expandResourceAliases.1 hr with hmem | ⟨rfl, -⟩ | ⟨x, -, halias⟩
    · exact mem_expandResourceAliases.2 (.inr (.inl ⟨rfl, any_eq_true.2 ⟨r, hmem, hnet⟩⟩))
    · cases hnet
    · cases x <;> cases halias <;> cases hnet
  · exact hr

variable {right left : OrdSet ResourceKey}

namespace EffectSummary

lemma networkUnknown_mem_leases {resources : OrdSet ResourceKey} (c : Prop) [Decidable c]
    (h : touchesNetwork (if c then (expandResourceAliases resources).insert .hostWorld
      else expandResourceAliases resources)) :
    .networkUnknown ∈ (if c then (expandResourceAliases resources).insert .hostWorld
      else expandResourceAliases resources) := by
  split at h
  · next hc =>
    obtain ⟨r, hr, hnet⟩ := any_eq_true.1 h
    rw [if_pos hc]
    rcases mem_insert.1 hr with rfl | hr
    · cases hnet
    · apply mem_insert.2
      exact .inr (networkUnknown_mem_of_touchesNetwork (any_eq_true.2 ⟨r, hr, hnet⟩))
  · next hc =>
    rw [if_neg hc]
    exact networkUnknown_mem_of_touchesNetwork h

lemma mem_of_resourceConflict (hleft : touchesNetwork left → .networkUnknown ∈ left)
    (hright : touchesNetwork right → .networkUnknown ∈ right) (h : resourceConflict left right) :
    ∃ r, r ∈ left ∧ r ∈ right := by
  rw [resourceConflict, Bool.or_eq_true, Bool.and_eq_true] at h
  rcases h with h | ⟨hl, hr⟩
  · obtain ⟨r, hmem, hr⟩ := any_eq_true.1 h
    exact ⟨r, hmem, of_decide_eq_true hr⟩
  · exact ⟨_, hleft hl, hright hr⟩

/-- How an operation uses a resource: whatever is written is not merely read. -/
def access (s : EffectSummary) (r : ResourceKey) : Option Access :=
  if r ∈ s.schedulingAccesses.2 then some .write
  else if r ∈ s.schedulingAccesses.1 then some .read
  else none

variable {s : EffectSummary} {r : ResourceKey}

lemma access_of_write (h : r ∈ s.schedulingAccesses.2) :
    s.access r = some .write := if_pos h

lemma access_of_read (hw : r ∉ s.schedulingAccesses.2) (h : r ∈ s.schedulingAccesses.1) :
    s.access r = some .read := by
  rw [access, if_neg hw, if_pos h]

lemma conflict_of_write {t : EffectSummary} (hs : r ∈ s.schedulingAccesses.2)
    (ht : r ∈ t.schedulingAccesses.1 ∨ r ∈ t.schedulingAccesses.2) :
    Access.Conflict (s.access r) (t.access r) := by
  rw [access_of_write hs]
  by_cases hw : r ∈ t.schedulingAccesses.2
  · rw [access_of_write hw]
    exact .inl rfl
  · rw [access_of_read hw (ht.resolve_right hw)]
    exact .inl rfl

/-- The state of the actor an operation belongs to is among its writes. -/
def TracksActor (s : EffectSummary) : Prop :=
  ∀ actor, s.actorState = some actor → .actorState actor ∈ s.writes

lemma mem_schedulingWrites (h : r ∈ s.writes) : r ∈ s.schedulingAccesses.2 := by
  have hexpanded : r ∈ expandResourceAliases s.writes := mem_expandResourceAliases.2 (.inl h)
  unfold schedulingAccesses
  dsimp only
  split
  · exact mem_insert.2 (.inr hexpanded)
  · exact hexpanded

/-- Conflicting operations meet at one resource, which at least one of them writes. -/
lemma exists_conflict_of_conflictsWith {t : EffectSummary} (hs : s.TracksActor)
    (ht : t.TracksActor) (h : s.conflictsWith t) :
    ∃ r, Access.Conflict (s.access r) (t.access r) := by
  simp only [conflictsWith, Bool.or_eq_true, Bool.and_eq_true, decide_eq_true_eq] at h
  have hreads : ∀ x : EffectSummary, touchesNetwork x.schedulingAccesses.1 →
      .networkUnknown ∈ x.schedulingAccesses.1 := fun _ => networkUnknown_mem_leases _
  have hwrites : ∀ x : EffectSummary, touchesNetwork x.schedulingAccesses.2 →
      .networkUnknown ∈ x.schedulingAccesses.2 := fun _ => networkUnknown_mem_leases _
  rcases h with ⟨hsome, heq⟩ | (hww | hwr) | hrw
  · obtain ⟨actor, hactor⟩ := Option.isSome_iff_exists.1 hsome
    have hwrite := mem_schedulingWrites (hs actor hactor)
    exact ⟨_, conflict_of_write hwrite (.inr (mem_schedulingWrites (ht actor (heq ▸ hactor))))⟩
  · obtain ⟨r, hr, hr'⟩ := mem_of_resourceConflict (hwrites s) (hwrites t) hww
    exact ⟨r, conflict_of_write hr (.inr hr')⟩
  · obtain ⟨r, hr, hr'⟩ := mem_of_resourceConflict (hwrites s) (hreads t) hwr
    exact ⟨r, conflict_of_write hr (.inl hr')⟩
  · obtain ⟨r, hr, hr'⟩ := mem_of_resourceConflict (hwrites t) (hreads s) hrw
    exact ⟨r, (conflict_of_write hr (.inl hr')).symm⟩

end EffectSummary

/-! ## Declarations only add -/

lemma expandResourceAliases_mono
    (h : ∀ r ∈ left, r ∈ right) {r : ResourceKey} (hr : r ∈ expandResourceAliases left) :
    r ∈ expandResourceAliases right := by
  rw [mem_expandResourceAliases] at hr ⊢
  rcases hr with hr | ⟨rfl, hnet⟩ | ⟨x, hx, halias⟩
  · exact .inl (h r hr)
  · obtain ⟨x, hx, hnet⟩ := any_eq_true.1 hnet
    exact .inr (.inl ⟨rfl, any_eq_true.2 ⟨x, h x hx, hnet⟩⟩)
  · exact .inr (.inr ⟨x, h x hx, halias⟩)

lemma resourceConflict_mono {left' right' : OrdSet ResourceKey}
    (hleft : ∀ r ∈ left, r ∈ left') (hright : ∀ r ∈ right, r ∈ right')
    (h : resourceConflict left right) : resourceConflict left' right' := by
  have hnetwork : ∀ {x y : OrdSet ResourceKey}, (∀ r ∈ x, r ∈ y) → touchesNetwork x →
      touchesNetwork y := by
    intro x y hxy hx
    obtain ⟨r, hr, hnet⟩ := any_eq_true.1 hx
    exact any_eq_true.2 ⟨r, hxy r hr, hnet⟩
  rw [resourceConflict, Bool.or_eq_true, Bool.and_eq_true] at h ⊢
  rcases h with h | ⟨hl, hr⟩
  · obtain ⟨r, hmem, hr⟩ := any_eq_true.1 h
    refine .inl (any_eq_true.2 ⟨r, hleft r hmem, ?_⟩)
    exact decide_eq_true (hright r (of_decide_eq_true hr))
  · exact .inr ⟨hnetwork hleft hl, hnetwork hright hr⟩

namespace EffectSummary

/-- The second summary touches whatever the first one does. -/
structure Covers (s t : EffectSummary) : Prop where
  actor : t.actorState = s.actorState
  reads : ∀ r ∈ s.reads, r ∈ t.reads
  writes : ∀ r ∈ s.writes, r ∈ t.writes

variable {s t : EffectSummary}

lemma Covers.schedulingAccesses (h : Covers s t) :
    (∀ r ∈ s.schedulingAccesses.1, r ∈ t.schedulingAccesses.1) ∧
      ∀ r ∈ s.schedulingAccesses.2, r ∈ t.schedulingAccesses.2 := by
  have hreads : ∀ r ∈ expandResourceAliases s.reads, r ∈ expandResourceAliases t.reads :=
    fun _ => expandResourceAliases_mono h.reads
  have hwrites : ∀ r ∈ expandResourceAliases s.writes, r ∈ expandResourceAliases t.writes :=
    fun _ => expandResourceAliases_mono h.writes
  have hleases : ∀ {c c' : Prop} [Decidable c] [Decidable c'] {x y : OrdSet ResourceKey},
      (c → c') → (∀ r ∈ x, r ∈ y) → ∀ r ∈ (if c then x.insert .hostWorld else x),
        r ∈ (if c' then y.insert .hostWorld else y) := by
    intro c c' _ _ x y hc hxy r hr
    split at hr
    · next hhost =>
      rw [if_pos (hc hhost)]
      exact mem_insert.2 ((mem_insert.1 hr).imp_right (hxy r))
    · split
      · exact mem_insert.2 (.inr (hxy r hr))
      · exact hxy r hr
  refine ⟨hleases (fun hprecise => ?_) hreads, hleases (fun hambient => ?_) hwrites⟩
  · obtain ⟨r, hr, hhost⟩ := any_eq_true.1 hprecise
    refine any_eq_true.2 ⟨r, mem_append.2 ?_, hhost⟩
    exact (mem_append.1 hr).imp (hreads r) (hwrites r)
  · exact Or.imp (hreads _) (hwrites _) hambient

lemma Covers.conflictsWith (h : Covers s t) {x : EffectSummary} (hx : s.conflictsWith x) :
    t.conflictsWith x := by
  obtain ⟨hreads, hwrites⟩ := h.schedulingAccesses
  simp only [EffectSummary.conflictsWith, Bool.or_eq_true, h.actor] at hx ⊢
  refine hx.imp_right (Or.imp (Or.imp ?_ ?_) ?_)
  · exact resourceConflict_mono hwrites fun _ => id
  · exact resourceConflict_mono hwrites fun _ => id
  · exact resourceConflict_mono (fun _ => id) hreads

end EffectSummary

variable {s : EffectSummary}

namespace EffectDeclaration

lemma covers_amend (d : EffectDeclaration) (s : EffectSummary) : s.Covers (d.amend s) := by
  unfold amend overHost declareUnknown overHost
  simp only
  split_ifs <;> exact ⟨rfl, fun r hr => by simp [hr], fun r hr => by simp [hr]⟩

lemma isVerifiedPureInfallible_of_amend {d : EffectDeclaration}
    (h : (d.amend s).isVerifiedPureInfallible) : s.isVerifiedPureInfallible := by
  by_contra hpure
  rw [Bool.not_eq_true] at hpure
  -- what is not pure keeps its other fields, unless it is declared unknown
  simp only [amend, hpure, Bool.false_and, Bool.false_eq_true, if_false] at h
  rw [← Bool.not_eq_true] at hpure
  apply hpure
  simp only [EffectSummary.isVerifiedPureInfallible, Bool.and_eq_true, decide_eq_true_eq,
    OrdSet.isEmpty_iff] at h ⊢
  split_ifs at h <;> simp_all [overHost, declareUnknown, not_or]

/-- A declaration can only make an operation conflict with more, and never makes it pure. -/
theorem applyChecked_conservative (d : EffectDeclaration) (base declared : EffectSummary)
    (h : d.applyChecked base = .ok declared) :
    (∀ x, base.conflictsWith x → declared.conflictsWith x) ∧
      (∀ r ∈ base.reads, r ∈ declared.reads) ∧ (∀ r ∈ base.writes, r ∈ declared.writes) ∧
      (declared.isVerifiedPureInfallible → base.isVerifiedPureInfallible) := by
  simp only [applyChecked, bind_eq_ok, ensure_eq_ok] at h
  obtain ⟨-, -, h⟩ := h
  cases h
  have hcovers := d.covers_amend base
  exact ⟨fun _ => hcovers.conflictsWith, hcovers.reads, hcovers.writes,
    isVerifiedPureInfallible_of_amend⟩

/-- Serialized work that also writes a log. -/
def logging : EffectDeclaration := ⟨none, ∅, {.hostPath "log"}, true⟩

def printing : EffectSummary := { EffectSummary.pure with writes := {.stdio} }

theorem applyChecked_conservative_serial :
    logging.amend printing ≠ printing ∧ (logging.amend printing).conflictsWith printing ∧
      .stdio ∈ (logging.amend printing).writes := by
  obtain ⟨hconflicts, -, hwrites, -⟩ := applyChecked_conservative logging printing _ rfl
  exact ⟨by decide, hconflicts printing (by decide), hwrites .stdio (by decide)⟩

end EffectDeclaration

/-! ## Actors -/

lemma EffectDeclaration.tracksActor_amend (d : EffectDeclaration)
    (h : s.TracksActor) : (d.amend s).TracksActor := by
  intro actor hactor
  rw [(d.covers_amend s).actor] at hactor
  exact (d.covers_amend s).writes _ (h actor hactor)

lemma tracksActor_execBaseSummary (envId : UInt32) (attr : Option String)
    (backend : BackendInterface) : (execBaseSummary envId attr backend).TracksActor := by
  intro actor hactor
  unfold execBaseSummary at hactor ⊢
  dsimp only at hactor ⊢
  split_ifs at hactor ⊢ <;> simp_all [EffectSummary.withActorState, EffectSummary.pure,
    EffectSummary.conservativeEvaluator, EffectSummary.unknownWork]

lemma tracksActor_of_effectSummaryForPlanNode {id : PlanNodeId} {kind : PlanNodeKind}
    (h : effectSummaryForPlanNode id kind = .ok s) : s.TracksActor := by
  cases kind with
  | exec lang envId attr backend =>
    simp only [effectSummaryForPlanNode, EffectDeclaration.applyChecked, bind_eq_ok,
      mapError_eq_ok, ensure_eq_ok] at h
    obtain ⟨d, -, -, -, hs⟩ := h
    cases hs
    exact d.tracksActor_amend (tracksActor_execBaseSummary envId attr backend)
  | _ =>
    cases h
    intro actor hactor
    cases hactor

end Ostadix
