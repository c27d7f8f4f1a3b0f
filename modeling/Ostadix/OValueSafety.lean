import Ostadix.OValue

/-! Which values may be cached, replayed or persisted across boots. -/

namespace Ostadix.OValue

/-! ## The predicates -/

/-- Where the three predicates differ: the requests they let pass and the native capsules. -/
structure SafetyRule where
  request : RequestKind → Bool
  native : ONative → Bool

section Safe

variable (rule : SafetyRule)

mutual

def safe : OValue → Bool
  | .system _ => false
  | .capability _ _ _ => false
  | .scope _ => false
  | .request kind source _ => rule.request kind && safe source
  | .list v => safeItems v
  | .seq _ items => safeItems items
  | .set _ items => safeItems items
  | .map v => safeFields v
  | .object fields => safeFields fields
  | .entriesMap entries => safeEntries entries
  | .graph _ nodes => safeNodes nodes
  | .nixExpr _ deps _ => safeItems deps
  | .derivation _ _ deps => safeItems deps
  | .thunk _ deps _ => safeItems deps
  | .snapshot _ _ state => safeFields state
  | .native v metadata => rule.native v && safeFields metadata
  | .error _ => false
  -- Everything else, the members of a group included, is not looked at.
  | _ => true

def safeItems : List OValue → Bool
  | [] => true
  | v :: items => safe v && safeItems items

def safeFields : List (String × OValue) → Bool
  | [] => true
  | (_, v) :: fields => safe v && safeFields fields

def safeEntries : List (OValue × OValue) → Bool
  | [] => true
  | (key, v) :: entries => safe key && safe v && safeEntries entries

def safeNodes : List (GraphNode OValue) → Bool
  | [] => true
  | .value v :: nodes => safe v && safeNodes nodes
  | .ref _ :: nodes => safeNodes nodes

end

end Safe

/-- A capsule of data or source without live parts. -/
def nativeIsInert (native : ONative) : Bool :=
  (native.safety = .dataOnly || native.safety = .sourceBacked) && native.boundary = .pure &&
    native.identity.live.isNone && native.capabilities.isEmpty

def requestIsInert : RequestKind → Bool
  | .activate _ _ _ => false
  | .eval _ _ _ authority permissions => authority.isNone && permissions.isEmpty
  | _ => true

def requestIsCacheable : RequestKind → Bool
  | .eval _ _ cacheable _ _ => cacheable
  | _ => true

def cacheRule : SafetyRule where
  request kind := requestIsCacheable kind && requestIsInert kind
  native := nativeIsInert

def replayRule : SafetyRule where
  request := requestIsInert
  native := nativeIsInert

def bootRule : SafetyRule where
  request := requestIsInert
  native v := nativeIsInert v && v.rehydrate = .portable

def isCacheSafe : OValue → Bool := safe cacheRule

def isReplaySafe : OValue → Bool := safe replayRule

def isBootPersistable : OValue → Bool := safe bootRule

/-! ## What the predicates look at -/

/-- The values inside a value, those of a group excepted. -/
def inspected : OValue → List OValue
  | .group _ _ _ => []
  | v => v.children

/-- What a rule decides about a value without looking inside. -/
def admits (rule : SafetyRule) : OValue → Bool
  | .system _ => false
  | .capability _ _ _ => false
  | .scope _ => false
  | .error _ => false
  | .request kind _ _ => rule.request kind
  | .native v _ => rule.native v
  | _ => true

variable {rule : SafetyRule} {v w : OValue}

lemma safeItems_iff {items : List OValue} : safeItems rule items ↔ ∀ v ∈ items, safe rule v := by
  induction items with
  | nil => simp [safeItems]
  | cons v items ih => simp [safeItems, ih]

lemma safeFields_iff {fields : List (String × OValue)} :
    safeFields rule fields ↔ ∀ v ∈ fields.map Prod.snd, safe rule v := by
  induction fields with
  | nil => simp [safeFields]
  | cons e fields ih => simp [safeFields, ih]

lemma safeEntries_iff {entries : List (OValue × OValue)} :
    safeEntries rule entries ↔ ∀ v ∈ entries.flatMap fun e => [e.1, e.2], safe rule v := by
  induction entries with
  | nil => simp [safeEntries]
  | cons e entries ih => simp [safeEntries, ih, and_assoc]

lemma safeNodes_iff {nodes : List (GraphNode OValue)} :
    safeNodes rule nodes ↔ ∀ v ∈ nodes.flatMap GraphNode.values, safe rule v := by
  induction nodes with
  | nil => simp [safeNodes]
  | cons n nodes ih => cases n <;> simp [safeNodes, GraphNode.values, ih]

/-- A value is safe when the rule admits it and everything inspected in it is safe. -/
lemma safe_iff : safe rule v ↔ admits rule v ∧ ∀ c ∈ v.inspected, safe rule c := by
  cases v <;>
    simp only [safe, admits, inspected, children, safeItems_iff, safeFields_iff, safeEntries_iff,
      safeNodes_iff, Bool.and_eq_true, List.mem_singleton, List.not_mem_nil, forall_eq,
      Bool.false_eq_true, false_and, true_and, IsEmpty.forall_iff, implies_true]

lemma inspected_subset (v : OValue) : v.inspected ⊆ v.children := by
  unfold inspected
  split
  · exact List.nil_subset _
  · exact List.Subset.refl _

lemma safe_iff_reach : safe rule v ↔ ∀ w, Reach inspected w v → admits rule w := by
  induction v using OValue.induction with
  | h v ih =>
    rw [safe_iff]
    constructor
    · rintro ⟨hv, hinside⟩ w hw
      rcases Reach.iff.1 hw with rfl | ⟨c, hc, hw⟩
      · exact hv
      · exact (ih c (inspected_subset v hc)).1 (hinside c hc) w hw
    · intro h
      refine ⟨h v (.refl v), fun c hc => ?_⟩
      exact (ih c (inspected_subset v hc)).2 fun w hw => h w (.step hc hw)

lemma Reach.inspected_or_member (h : Occurs w v) :
    Reach inspected w v ∨ ∃ mode members fingerprint,
      Occurs (.group mode members fingerprint) v ∧ ∃ m ∈ members, Occurs w m := by
  induction h with
  | refl => exact .inl (.refl w)
  | @step c v hc h ih =>
    rcases ih with hin | ⟨mode, members, fingerprint, hgroup, hm⟩
    · by_cases hv : c ∈ v.inspected
      · exact .inl (.step hv hin)
      -- Only a group hides the values inside it.
      right
      unfold inspected at hv
      split at hv
      · next mode members fingerprint =>
        exact ⟨mode, members, fingerprint, .refl _, c, hc, h⟩
      · exact absurd hc hv
    · exact .inr ⟨mode, members, fingerprint, .step hc hgroup, hm⟩

/-! ## Authority -/

/-- References into the world, authority, scopes, errors and activations. -/
def isLive : OValue → Bool
  | .capability _ _ _ => true
  | .system _ => true
  | .scope _ => true
  | .error _ => true
  | .request (.activate _ _ _) _ _ => true
  | _ => false

/-- These, and evaluations with an authority or with permissions. -/
def bearsAuthority : OValue → Bool
  | .request (.eval _ _ _ authority permissions) _ _ => authority.isSome || !permissions.isEmpty
  | v => v.isLive

/-- No member of a group anywhere in `v` contains a value with `bad`. -/
def GroupsFreeOf (bad : OValue → Bool) (v : OValue) : Prop :=
  ∀ mode members fingerprint, Occurs (.group mode members fingerprint) v →
    ∀ m ∈ members, ∀ w, Occurs w m → ¬bad w

/-- A value that passes a rule which admits nothing bad has something bad inside only where a group
hides it. -/
lemma safe_excludes_iff {bad : OValue → Bool} (hrule : ∀ w, admits rule w → ¬bad w)
    (hsafe : safe rule v) : (∀ w, Occurs w v → ¬bad w) ↔ GroupsFreeOf bad v := by
  constructor
  · intro h mode members fingerprint hgroup m hm w hw
    exact h w ((hw.trans (.step hm (.refl _))).trans hgroup)
  · intro hgroups w hw
    rcases hw.inspected_or_member with hin | ⟨mode, members, fingerprint, hgroup, m, hm, hw⟩
    · exact hrule w (safe_iff_reach.1 hsafe w hin)
    · exact hgroups mode members fingerprint hgroup m hm w hw

lemma not_bearsAuthority_of_admits (hrequest : ∀ kind, rule.request kind → requestIsInert kind)
    (h : admits rule w) : ¬bearsAuthority w := by
  cases w with
  | request kind source fingerprint =>
    have hinert := hrequest kind h
    cases kind with
    | instantiate | realise => nofun
    | eval lang envId cacheable authority permissions =>
      cases authority <;> simp_all [requestIsInert, bearsAuthority]
    | activate profile dryRun authority => simp [requestIsInert] at hinert
  | system | capability | scope | error => simp [admits] at h
  | _ => nofun

lemma bearsAuthority_of_isLive (h : isLive w) : bearsAuthority w := by
  unfold bearsAuthority
  split
  · simp [isLive] at h
  · exact h

lemma requestIsInert_of_cacheRule (kind : RequestKind) (h : cacheRule.request kind) :
    requestIsInert kind :=
  (Bool.and_eq_true_iff.1 h).2

/-- A persistable, cache-safe or replay-safe value has no authority but what groups hide. -/
theorem safety_excludes_authority_iff (v : OValue) :
    (v.isBootPersistable →
      ((∀ w, Occurs w v → ¬w.bearsAuthority) ↔ GroupsFreeOf bearsAuthority v)) ∧
    (v.isCacheSafe → ((∀ w, Occurs w v → ¬w.isLive) ↔ GroupsFreeOf isLive v)) ∧
    (v.isReplaySafe →
      ((∀ w, Occurs w v → ¬w.bearsAuthority) ↔ GroupsFreeOf bearsAuthority v)) := by
  refine ⟨safe_excludes_iff ?_, safe_excludes_iff ?_, safe_excludes_iff ?_⟩
  · exact fun w => not_bearsAuthority_of_admits fun _ => id
  · exact fun w hw hlive => not_bearsAuthority_of_admits requestIsInert_of_cacheRule hw
      (bearsAuthority_of_isLive hlive)
  · exact fun w => not_bearsAuthority_of_admits fun _ => id

def hiddenCapability : OValue := .group .batch [.capability .file "/etc/passwd" []] ""

/-- A capability inside a group passes all three predicates. -/
theorem group_hides_capability :
    hiddenCapability.isBootPersistable ∧ hiddenCapability.isCacheSafe ∧
      hiddenCapability.isReplaySafe ∧
      Occurs (.capability .file "/etc/passwd" []) hiddenCapability ∧
      (capability .file "/etc/passwd" []).isLive :=
  ⟨rfl, rfl, rfl, .step (List.mem_singleton.2 rfl) (.refl _), rfl⟩

end Ostadix.OValue
