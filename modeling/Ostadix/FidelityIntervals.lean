import Ostadix.FidelityOrder

/-! What fidelity assessments stand for: composition is exact on it and merging paths is least. -/

namespace Ostadix.FidelityAssessmentV2

open OrdSet FidelityLossSet

/-- Whether a concrete judgment belongs to an assessment; one that is not valid contains none. -/
def concretizationContains (assessment : FidelityAssessmentV2) (concrete : Fidelity) : Bool :=
  assessment.validate.isOk && match assessment, concrete with
    | .lossless, .lossless => true
    | .nativeCapsule, .nativeCapsule => true
    | .unsupported, .unsupported => true
    | .structural definite _, .lossless => definite.isNone
    | .structural definite possible, .structural lost =>
      definite.all (fun required => ∀ kind ∈ required.lost.toList, kind ∈ lost.lost) &&
        ∀ kind ∈ lost.lost.toList, kind ∈ possible.lost
    | _, _ => false

def lossBounds : FidelityAssessmentV2 → Except Panic (OrdSet AnnotationKind × OrdSet AnnotationKind)
  | .lossless => .ok (∅, ∅)
  | .structural definite possible => .ok (definiteSet definite, possible.lost)
  | .nativeCapsule | .unsupported => .error ⟨"internal error: entered unreachable code: " ++
      "non-structural fidelity has no loss bounds"⟩

def joinPathsValid :
    FidelityAssessmentV2 → FidelityAssessmentV2 → Except Panic FidelityAssessmentV2
  | .unsupported, _ | _, .unsupported => .ok .unsupported
  | .nativeCapsule, _ | _, .nativeCapsule => .ok .nativeCapsule
  | left, right => do
    let (leftDefinite, leftPossible) ← left.lossBounds
    let (rightDefinite, rightPossible) ← right.lossBounds
    expectBounds "path merge preserves the definite-subset-possible invariant"
      (ofLosses (leftDefinite.filter (· ∈ rightDefinite)) (leftPossible ∪ rightPossible))

/-- Merge of two paths; intervals that are not valid panic. -/
def joinPaths (left right : FidelityAssessmentV2) : Except Panic FidelityAssessmentV2 := do
  expectBounds "fidelity path merge requires valid interval bounds" do
    left.validate
    right.validate
  joinPathsValid left right

/-! ## What an assessment stands for -/

def concretization (a : FidelityAssessmentV2) : Set Fidelity := {f | a.concretizationContains f}

abbrev knows (a : FidelityAssessmentV2) : Set Loss := knownLosses (some a)

def knownOf (f : Fidelity) : Set Loss := knows (fromConcrete f)

/-- More losses are definite and fewer are possible, in the same class. -/
def Narrows (K K' : Set Loss) : Prop :=
  (∀ kind, .definite kind ∈ K' → .definite kind ∈ K) ∧
    (∀ kind, .possible kind ∈ K → .possible kind ∈ K') ∧
    (.native ∈ K ↔ .native ∈ K') ∧ (.unsupported ∈ K ↔ .unsupported ∈ K')

lemma Narrows.trans {K K' K'' : Set Loss} (h : Narrows K K') (h' : Narrows K' K'') :
    Narrows K K'' :=
  ⟨fun kind hkind => h.1 kind (h'.1 kind hkind), fun kind hkind => h'.2.1 kind (h.2.1 kind hkind),
    h.2.2.1.trans h'.2.2.1, h.2.2.2.trans h'.2.2.2⟩

variable {a b c : FidelityAssessmentV2} {f g : Fidelity} {D P : OrdSet AnnotationKind}

lemma mem_concretization (ha : a.Valid) : f ∈ a.concretization ↔ Narrows (knownOf f) (knows a) := by
  have hvalidate : a.validate = .ok () := validate_eq_ok.2 ha
  simp only [concretization, concretizationContains, hvalidate, Set.mem_ofPred_eq, Except.isOk,
    Except.toBool, Bool.true_and, knownOf, Narrows]
  rcases a with _ | ⟨_ | required, possible⟩ | _ | _ <;> cases f <;>
    simp [fromConcrete, definiteSet, exists_mem]

lemma projection_mem (ha : a.Valid) : a.projection ∈ a.concretization := by
  rw [mem_concretization ha]
  cases a with
  | structural definite possible =>
    simpa [Narrows, knownOf, projection, fromConcrete, definiteSet, Valid] using ha
  | _ => simp [Narrows, knownOf, projection, fromConcrete]

lemma knownOf_compose : knownOf (f.compose g) = knownOf f ∪ knownOf g := by
  cases f <;> cases g
  case structural.structural s t =>
    have hcompose : (Fidelity.structural s).compose (.structural t) =
        .structural (unionLosses s t) := by
      rw [Fidelity.compose, show s.lost ∪ t.lost = (unionLosses s t).lost from rfl,
        Fidelity.ofLosses, new_lost]
    rw [hcompose]
    ext loss
    cases loss <;> simp [knownOf, fromConcrete, definiteSet, unionLosses]
  all_goals
    ext loss
    cases loss <;> simp [knownOf, fromConcrete, Fidelity.compose]

lemma knownOf_injective : Function.Injective knownOf := by
  intro f g h
  have hsame := Option.some.inj (knownLosses_injective h)
  rw [← projection_fromConcrete f, hsame, projection_fromConcrete]

lemma mem_knownOf {L : OrdSet AnnotationKind} :
    .assessed ∈ knownOf (.ofLosses L) ∧
      (∀ kind, .definite kind ∈ knownOf (.ofLosses L) ↔ kind ∈ L) ∧
      (∀ kind, .possible kind ∈ knownOf (.ofLosses L) ↔ kind ∈ L) ∧
      .native ∉ knownOf (.ofLosses L) ∧ .unsupported ∉ knownOf (.ofLosses L) := by
  by_cases hempty : L = ∅
  · subst hempty
    simp [knownOf, Fidelity.ofLosses, FidelityLossSet.new, fromConcrete]
  · rw [Fidelity.ofLosses, new_lost ⟨L, hempty⟩]
    simp [knownOf, fromConcrete, definiteSet]

lemma Narrows.union {K K' J J' : Set Loss} (h : Narrows K K') (h' : Narrows J J') :
    Narrows (K ∪ J) (K' ∪ J') :=
  ⟨fun kind => Or.imp (h.1 kind) (h'.1 kind), fun kind => Or.imp (h.2.1 kind) (h'.2.1 kind),
    or_congr h.2.2.1 h'.2.2.1, or_congr h.2.2.2 h'.2.2.2⟩

lemma exists_eq_ofLosses (h : .native ∉ knownOf f) : ∃ L, f = .ofLosses L := by
  cases f with
  | lossless => exact ⟨∅, rfl⟩
  | structural lost => exact ⟨lost.lost, by rw [Fidelity.ofLosses, new_lost]⟩
  | nativeCapsule | unsupported => simp [knownOf, fromConcrete] at h

open Classical in
/-- The losses that an assessment allows, among some that hold its definite ones. -/
lemma filter_mem (ha : a.Valid) (hlower : ∀ kind, .definite kind ∈ knows a → kind ∈ D)
    (hn : .native ∉ knows a) (hu : .unsupported ∉ knows a) :
    .ofLosses (D.filter fun kind => .possible kind ∈ knows a) ∈ a.concretization := by
  rw [mem_concretization ha]
  simp only [Narrows, mem_knownOf, mem_filter, decide_eq_true_eq, hn, hu, iff_self, and_true]
  exact ⟨fun kind hkind => ⟨hlower kind hkind, ha kind hkind⟩, fun kind hkind => hkind.2⟩

/-- A judgment for losses that two assessments allow together is composed of one for each. -/
lemma exists_compose (ha : a.Valid) (hb : b.Valid)
    (hf : Narrows (knownOf f) (knows a ∪ knows b)) :
    ∃ g ∈ a.concretization, ∃ h ∈ b.concretization, g.compose h = f := by
  by_cases hnative : .native ∈ knownOf f
  · -- A native or unsupported side absorbs the other.
    refine ⟨_, projection_mem ha, _, projection_mem hb, ?_⟩
    cases f <;> cases a <;> cases b <;>
      simp_all [Narrows, knownOf, fromConcrete, projection, Fidelity.compose]
  obtain ⟨L, rfl⟩ := exists_eq_ofLosses hnative
  obtain ⟨hdefinite, hpossible, hnative, hunsupported⟩ := hf
  simp only [mem_knownOf, false_iff, Set.mem_union, not_or] at *
  refine ⟨_, filter_mem ha (fun kind hkind => hdefinite kind (.inl hkind)) hnative.1 hunsupported.1,
    _, filter_mem hb (fun kind hkind => hdefinite kind (.inr hkind)) hnative.2 hunsupported.2,
    knownOf_injective ?_⟩
  have hunion : ∀ kind, (kind ∈ L ∧ .possible kind ∈ knows a ∨
      kind ∈ L ∧ .possible kind ∈ knows b) ↔ kind ∈ L := fun kind =>
    and_or_left.symm.trans (and_iff_left_of_imp (hpossible kind))
  rw [knownOf_compose]
  ext loss
  cases loss <;> simp [mem_knownOf, hunion]

lemma andThen_exact (ha : a.Valid) (hb : b.Valid) :
    ∃ c, a.andThen b = .ok c ∧ ∀ f, f ∈ c.concretization ↔
      ∃ g ∈ a.concretization, ∃ h ∈ b.concretization, g.compose h = f := by
  obtain ⟨c, hc, (hknown : knows c = knows a ∪ knows b)⟩ := andThen_valid ha hb
  refine ⟨c, hc, fun f => ?_⟩
  rw [mem_concretization (valid_of_union ha hb hknown), hknown]
  refine ⟨exists_compose ha hb, ?_⟩
  rintro ⟨g, hg, h, hh, rfl⟩
  rw [knownOf_compose]
  exact ((mem_concretization ha).1 hg).union ((mem_concretization hb).1 hh)

/-! ## Merging paths -/

lemma subset_iff_narrows (ha : a.Valid) (hb : b.Valid) :
    a.concretization ⊆ b.concretization ↔
      Narrows (knows a) (knows b) := by
  constructor
  · intro hsubset
    -- The largest judgment gives the upper bound and the class, the smallest the lower bound.
    have hlargest := (mem_concretization hb).1 (hsubset (projection_mem ha))
    cases a with
    | structural definite possible =>
      have hmem : .ofLosses (definiteSet definite) ∈
          (structural definite possible).concretization := by
        rw [mem_concretization ha]
        simpa [Narrows, mem_knownOf, Valid] using ha
      have hsmallest := (mem_concretization hb).1 (hsubset hmem)
      exact ⟨fun kind hkind => (mem_knownOf.2.1 kind).1 (hsmallest.1 kind hkind), hlargest.2⟩
    | _ => exact hlargest
  · intro h f hf
    rw [mem_concretization ha] at hf
    exact (mem_concretization hb).2 (hf.trans h)

def isInterval : FidelityAssessmentV2 → Bool
  | .lossless | .structural .. => true
  | .nativeCapsule | .unsupported => false

lemma exists_ofLosses (h : ∀ kind ∈ D, kind ∈ P) :
    ∃ c, ofLosses D P = .ok c ∧ c.isInterval ∧
      (∀ kind, .definite kind ∈ knows c ↔ kind ∈ D) ∧
      ∀ kind, .possible kind ∈ knows c ↔ kind ∈ P := by
  by_cases hempty : P = ∅
  · subst hempty
    have hD : D = ∅ := OrdSet.ext fun kind => ⟨h kind, fun hkind => by simp at hkind⟩
    subst hD
    exact ⟨.lossless, rfl, rfl, by simp, by simp⟩
  · exact ⟨_, @ofLosses_eq_ok D ⟨P, hempty⟩ h, rfl, by simp [definiteSet_new], by simp⟩

lemma lossBounds_spec (h : a.isInterval) : ∃ D P, a.lossBounds = .ok (D, P) ∧
    (∀ kind, .definite kind ∈ knows a ↔ kind ∈ D) ∧
    (∀ kind, .possible kind ∈ knows a ↔ kind ∈ P) ∧
    .native ∉ knows a ∧ .unsupported ∉ knows a := by
  cases a with
  | lossless => exact ⟨_, _, rfl, by simp, by simp, by simp, by simp⟩
  | structural definite possible =>
    exact ⟨_, _, rfl, fun kind => Iff.rfl, fun kind => Iff.rfl, by simp, by simp⟩
  | nativeCapsule | unsupported => cases h

/-- Merged paths have the narrowest knowledge that both narrow. -/
lemma joinPaths_spec (ha : a.Valid) (hb : b.Valid) (hia : a.isInterval) (hib : b.isInterval) :
    ∃ c, a.joinPaths b = .ok c ∧ c.Valid ∧ c.isInterval ∧ Narrows (knows a) (knows c) ∧
      Narrows (knows b) (knows c) ∧
      ∀ K, Narrows (knows a) K → Narrows (knows b) K → Narrows (knows c) K := by
  obtain ⟨D, P, hbounds, hD, hP, hna, hua⟩ := lossBounds_spec hia
  obtain ⟨E, Q, hbounds', hE, hQ, hnb, hub⟩ := lossBounds_spec hib
  have hle : ∀ kind ∈ D.filter (· ∈ E), kind ∈ P ∪ Q := by
    intro kind hkind
    have hdefinite := (hD kind).2 (mem_filter.1 hkind).1
    exact mem_union.2 (.inl ((hP kind).1 (ha kind hdefinite)))
  obtain ⟨c, hc, hic, hdefinite, hpossible⟩ := exists_ofLosses hle
  obtain ⟨-, -, -, -, -, hnc, huc⟩ := lossBounds_spec hic
  have hjoin : a.joinPaths b =
      expectBounds "path merge preserves the definite-subset-possible invariant"
        (ofLosses (D.filter (· ∈ E)) (P ∪ Q)) := by
    rw [joinPaths, (validate_eq_ok (u := ())).2 ha, (validate_eq_ok (u := ())).2 hb]
    cases a <;> cases b <;> cases hbounds <;> cases hbounds' <;> rfl
  simp only [mem_filter, decide_eq_true_eq, mem_union] at hdefinite hpossible hle
  refine ⟨c, by rw [hjoin, hc]; rfl, fun kind hkind => ?_, hic, ?_, ?_, fun K h h' => ?_⟩
  · exact (hpossible kind).2 (hle kind ((hdefinite kind).1 hkind))
  · simp +contextual [Narrows, hdefinite, hpossible, hD, hP, hna, hua, hnc, huc]
  · simp +contextual [Narrows, hdefinite, hpossible, hE, hQ, hnb, hub, hnc, huc]
  · simp only [Narrows, hdefinite, hpossible, hD, hP, hE, hQ, hna, hua, hnc, huc] at h h' ⊢
    exact ⟨fun kind hkind => ⟨h.1 kind hkind, h'.1 kind hkind⟩,
      fun kind hkind => hkind.elim (h.2.1 kind) (h'.2.1 kind), h.2.2⟩

/-- Composition is exact on what assessments stand for, and merging two paths gives the least
assessment that stands for both. -/
theorem andThen_exact_joinPaths_least (a b : FidelityAssessmentV2)
    (ha : a.validate = .ok ()) (hb : b.validate = .ok ()) :
    (∃ c, a.andThen b = .ok c ∧ ∀ f, c.concretizationContains f ↔
      ∃ g, a.concretizationContains g ∧ ∃ h, b.concretizationContains h ∧ g.compose h = f) ∧
    (a.isInterval → b.isInterval → ∃ c, a.joinPaths b = .ok c ∧ c.isInterval ∧
      c.validate = .ok () ∧ a.concretization ∪ b.concretization ⊆ c.concretization ∧
      ∀ d : FidelityAssessmentV2, d.validate = .ok () →
        a.concretization ∪ b.concretization ⊆ d.concretization →
        c.concretization ⊆ d.concretization) := by
  rw [validate_eq_ok] at ha hb
  refine ⟨andThen_exact ha hb, fun hia hib => ?_⟩
  obtain ⟨c, hc, hvalid, hic, hleft, hright, hleast⟩ := joinPaths_spec ha hb hia hib
  refine ⟨c, hc, hic, validate_eq_ok.2 hvalid, ?_, fun d hd hupper => ?_⟩
  · rw [Set.union_subset_iff, subset_iff_narrows ha hvalid, subset_iff_narrows hb hvalid]
    exact ⟨hleft, hright⟩
  · rw [validate_eq_ok] at hd
    rw [Set.union_subset_iff, subset_iff_narrows ha hd, subset_iff_narrows hb hd] at hupper
    exact (subset_iff_narrows hvalid hd).2 (hleast _ hupper.1 hupper.2)

/-- The order may be lost. -/
def mayReorder : FidelityAssessmentV2 := .structural none ⟨{.ordering}, by decide⟩

/-- The encoding is lost, and the identity may be. -/
def recodes : FidelityAssessmentV2 :=
  .structural (some ⟨{.encoding}, by decide⟩) ⟨{.encoding} ∪ {.identity}, by decide⟩

theorem andThen_exact_joinPaths_least_ordering :
    (∃ c, mayReorder.andThen recodes = .ok c ∧
      c.concretizationContains (.ofLosses ({.ordering} ∪ {.encoding})) ∧
      ¬c.concretizationContains (.ofLosses {.ordering})) ∧
    ∃ c, mayReorder.joinPaths recodes = .ok c ∧ c.isInterval ∧
      mayReorder.concretization ∪ recodes.concretization ⊆ c.concretization := by
  obtain ⟨⟨c, hc, hexact⟩, hjoin⟩ := andThen_exact_joinPaths_least mayReorder recodes rfl rfl
  refine ⟨⟨c, hc, (hexact _).2 ⟨.ofLosses {.ordering}, by decide, .ofLosses {.encoding}, by decide,
    by decide⟩, ?_⟩, ?_⟩
  · obtain rfl : _ = c := Except.ok.inj hc
    decide
  · obtain ⟨d, hd, hinterval, -, hupper, -⟩ := hjoin rfl rfl
    exact ⟨d, hd, hinterval, hupper⟩

end Ostadix.FidelityAssessmentV2
