import Ostadix.Fidelity
import Mathlib.Data.Finset.Card
import Mathlib.Data.Finset.Image
import Mathlib.Data.Set.Basic

/-! Composition of fidelity assessments as the union of what is known about the losses. -/

namespace Ostadix

inductive Loss where
  | assessed
  | definite (kind : AnnotationKind)
  | possible (kind : AnnotationKind)
  | native
  | unsupported
  deriving DecidableEq

lemma FidelityLossSet.ext {s t : FidelityLossSet} (h : ∀ kind, kind ∈ s.lost ↔ kind ∈ t.lost) :
    s = t := by
  obtain ⟨s, hs⟩ := s
  obtain ⟨t, ht⟩ := t
  obtain rfl : s = t := OrdSet.ext h
  rfl

lemma FidelityLossSet.new_lost (s : FidelityLossSet) : FidelityLossSet.new s.lost = some s :=
  dif_pos s.nonempty

lemma FidelityLossSet.exists_mem (s : FidelityLossSet) : ∃ kind, kind ∈ s.lost := by
  by_contra hempty
  apply s.nonempty
  apply OrdSet.ext
  intro kind
  simp only [OrdSet.notMem_empty, iff_false]
  exact fun hmem => hempty ⟨kind, hmem⟩

namespace FidelityAssessmentV2

/-- The absorbing states claim every weaker loss as well. -/
def knownLosses : Option FidelityAssessmentV2 → Set Loss
  | none => ∅
  | some .lossless => {.assessed}
  | some (.structural definites possibles) => fun
    | .assessed => True
    | .definite kind => kind ∈ definiteSet definites
    | .possible kind => kind ∈ possibles.lost
    | .native => False
    | .unsupported => False
  | some .nativeCapsule => {.unsupported}ᶜ
  | some .unsupported => Set.univ

/-! ## Knowledge determines the assessment -/

section Membership

variable {loss : Loss}

@[simp] lemma not_mem_knownLosses_none : loss ∉ knownLosses none := id

@[simp] lemma mem_knownLosses_lossless :
    loss ∈ knownLosses (some .lossless) ↔ loss = .assessed := Iff.rfl

@[simp] lemma mem_knownLosses_nativeCapsule :
    loss ∈ knownLosses (some .nativeCapsule) ↔ loss ≠ .unsupported := Iff.rfl

@[simp] lemma mem_knownLosses_unsupported : loss ∈ knownLosses (some .unsupported) := trivial

variable {definites : Option FidelityLossSet} {possibles : FidelityLossSet} {kind : AnnotationKind}

@[simp] lemma definite_mem_structural :
    Loss.definite kind ∈ knownLosses (some (.structural definites possibles)) ↔
      kind ∈ definiteSet definites := Iff.rfl

@[simp] lemma possible_mem_structural :
    Loss.possible kind ∈ knownLosses (some (.structural definites possibles)) ↔
      kind ∈ possibles.lost := Iff.rfl

@[simp] lemma assessed_mem_structural :
    Loss.assessed ∈ knownLosses (some (.structural definites possibles)) := trivial

@[simp] lemma native_notMem_structural :
    Loss.native ∉ knownLosses (some (.structural definites possibles)) := id

@[simp] lemma unsupported_notMem_structural :
    Loss.unsupported ∉ knownLosses (some (.structural definites possibles)) := id

end Membership

lemma definiteSet_injective : Function.Injective definiteSet := by
  intro a b h
  rcases a with _ | s <;> rcases b with _ | t
  · rfl
  · exact absurd h.symm t.nonempty
  · exact absurd h s.nonempty
  · exact congrArg some (FidelityLossSet.ext fun kind => by rw [show s.lost = t.lost from h])

lemma knownLosses_injective : Function.Injective knownLosses := by
  intro a b h
  have hmem : ∀ loss, loss ∈ knownLosses a ↔ loss ∈ knownLosses b := fun loss => by rw [h]
  have hassessed := hmem .assessed
  have hnative := hmem .native
  have hunsupported := hmem .unsupported
  rcases a with _ | _ | ⟨d, p⟩ | _ | _ <;> rcases b with _ | _ | ⟨e, q⟩ | _ | _ <;>
    first | rfl | (exfalso; simp at hassessed hnative hunsupported; done) | skip
  · obtain ⟨kind, hkind⟩ := q.exists_mem
    have := (hmem (.possible kind)).2 hkind
    simp at this
  · obtain ⟨kind, hkind⟩ := p.exists_mem
    have := (hmem (.possible kind)).1 hkind
    simp at this
  · have hd : d = e := definiteSet_injective (OrdSet.ext fun kind => hmem (.definite kind))
    have hp : p = q := FidelityLossSet.ext fun kind => hmem (.possible kind)
    rw [hd, hp]

variable {a b c : FidelityAssessmentV2} {kinds : Finset AnnotationKind}

lemma exists_assessment_of_known {o : Option FidelityAssessmentV2}
    (h : knownLosses (some a) ⊆ knownLosses o) : ∃ b, o = some b := by
  have hassessed : Loss.assessed ∈ knownLosses (some a) := by cases a <;> simp
  cases o with
  | none => exact absurd (h hassessed) (by simp)
  | some b => exact ⟨b, rfl⟩

/-! ## Composition -/

def Valid (a : FidelityAssessmentV2) : Prop :=
  ∀ kind, Loss.definite kind ∈ knownLosses (some a) → Loss.possible kind ∈ knownLosses (some a)

lemma validate_eq_ok {u : Unit} : a.validate = .ok u ↔ a.Valid := by
  rcases a with _ | ⟨_ | d, p⟩ | _ | _ <;> simp [validate, Valid, definiteSet]

lemma definiteSet_new (lost : OrdSet AnnotationKind) :
    definiteSet (FidelityLossSet.new lost) = lost := by
  unfold FidelityLossSet.new
  split
  · rfl
  · next hempty => exact (not_not.1 hempty).symm

lemma ofLosses_eq_ok {definites : OrdSet AnnotationKind} {possibles : FidelityLossSet}
    (h : ∀ kind, kind ∈ definites → kind ∈ possibles.lost) :
    ofLosses definites possibles.lost =
      .ok (.structural (FidelityLossSet.new definites) possibles) := by
  unfold ofLosses
  have hensure : ensure (∀ kind ∈ definites.toList, kind ∈ possibles.lost)
      FidelityBoundsError.definiteOutsidePossible = .ok () := ensure_eq_ok.2 h
  rw [FidelityLossSet.new_lost, hensure]
  rfl

def unionLosses (s t : FidelityLossSet) : FidelityLossSet where
  lost := s.lost ∪ t.lost
  nonempty hempty := by
    obtain ⟨kind, hkind⟩ := s.exists_mem
    have : kind ∈ s.lost ∪ t.lost := OrdSet.mem_union.2 (.inl hkind)
    simp [hempty] at this

lemma thenValid_structural {d e : Option FidelityLossSet} {p q : FidelityLossSet}
    (ha : (structural d p).Valid) (hb : (structural e q).Valid) :
    ∃ c, thenValid (.structural d p) (.structural e q) = .ok c ∧ knownLosses (some c) =
      knownLosses (some (.structural d p)) ∪ knownLosses (some (.structural e q)) := by
  have hbounds : ∀ kind, kind ∈ definiteSet d ∪ definiteSet e → kind ∈ (unionLosses p q).lost := by
    intro kind hkind
    apply OrdSet.mem_union.2
    exact (OrdSet.mem_union.1 hkind).imp (ha kind) (hb kind)
  refine ⟨.structural (FidelityLossSet.new (definiteSet d ∪ definiteSet e)) (unionLosses p q),
    ?_, ?_⟩
  · simp only [thenValid]
    rw [show p.lost ∪ q.lost = (unionLosses p q).lost from rfl, ofLosses_eq_ok hbounds]
    rfl
  ext loss
  cases loss with
  | definite kind => simp [definiteSet_new]
  | possible kind => simp [unionLosses]
  | _ => simp

/-- The composition of valid assessments knows exactly what the two know. -/
lemma andThen_valid (ha : a.Valid) (hb : b.Valid) :
    ∃ c, a.andThen b = .ok c ∧
      knownLosses (some c) = knownLosses (some a) ∪ knownLosses (some b) := by
  have hchecked : a.andThen b = thenValid a b := by
    unfold andThen
    rw [validate_eq_ok (u := ()) |>.2 ha, validate_eq_ok (u := ()) |>.2 hb]
    rfl
  rw [hchecked]
  have hsub : ∀ d p, knownLosses (some (.structural d p)) ⊆ knownLosses (some .nativeCapsule) := by
    rintro d p loss hloss rfl
    exact unsupported_notMem_structural hloss
  -- The classes are ordered, and the larger one absorbs the other.
  rcases a with _ | ⟨d, p⟩ | _ | _ <;> rcases b with _ | ⟨e, q⟩ | _ | _
  case structural.structural => exact thenValid_structural ha hb
  case structural.nativeCapsule => exact ⟨_, rfl, (Set.union_eq_right.2 (hsub d p)).symm⟩
  case nativeCapsule.structural => exact ⟨_, rfl, (Set.union_eq_left.2 (hsub e q)).symm⟩
  all_goals
    refine ⟨_, rfl, ?_⟩
    ext loss
    cases loss <;> simp

lemma valid_of_union (ha : a.Valid) (hb : b.Valid)
    (h : knownLosses (some c) = knownLosses (some a) ∪ knownLosses (some b)) : c.Valid := by
  intro kind hkind
  rw [h] at hkind ⊢
  exact hkind.imp (ha kind) (hb kind)

/-! ## Projection -/

def projection : FidelityAssessmentV2 → Fidelity
  | .lossless => .lossless
  | .structural _ possibles => .structural possibles
  | .nativeCapsule => .nativeCapsule
  | .unsupported => .unsupported

lemma tryPossibleFidelity_valid (ha : a.Valid) : a.tryPossibleFidelity = .ok a.projection := by
  unfold tryPossibleFidelity
  rw [validate_eq_ok (u := ()) |>.2 ha]
  cases a <;> rfl

lemma possibleFidelity_valid (ha : a.Valid) : a.possibleFidelity = .ok a.projection := by
  unfold possibleFidelity
  rw [tryPossibleFidelity_valid ha]
  rfl

/-- The projection of more knowledge absorbs the projection of less. -/
lemma compose_projection (h : knownLosses (some a) ⊆ knownLosses (some c)) :
    a.projection.compose c.projection = c.projection := by
  rcases a with _ | ⟨d, p⟩ | _ | _ <;> rcases c with _ | ⟨e, q⟩ | _ | _ <;> try rfl
  · obtain ⟨kind, hkind⟩ := p.exists_mem
    have := h (possible_mem_structural.2 hkind)
    simp at this
  · have hunion : p.lost ∪ q.lost = q.lost := by
      apply OrdSet.ext
      intro kind
      rw [OrdSet.mem_union]
      exact or_iff_right_of_imp fun hkind => h (possible_mem_structural.2 hkind)
    simp only [projection, Fidelity.compose, Fidelity.ofLosses]
    rw [hunion, FidelityLossSet.new_lost]
  all_goals
    have hnative := @h .native
    have hunsupported := @h .unsupported
    simp at hnative hunsupported

lemma valid_fromConcrete (fidelity : Fidelity) : (fromConcrete fidelity).Valid := by
  intro kind
  cases fidelity <;> simp [fromConcrete, definiteSet]

lemma projection_fromConcrete (fidelity : Fidelity) :
    (fromConcrete fidelity).projection = fidelity := by
  cases fidelity <;> rfl

/-! ## How much there is to know -/

/-- Short of the absorbing states, every possible loss is one of the given kinds. -/
def Within (kinds : Finset AnnotationKind) (a : Option FidelityAssessmentV2) : Prop :=
  Loss.native ∉ knownLosses a → ∀ kind, Loss.possible kind ∈ knownLosses a → kind ∈ kinds

lemma within_union {a b c : Option FidelityAssessmentV2} (ha : Within kinds a)
    (hb : Within kinds b) (h : knownLosses c = knownLosses a ∪ knownLosses b) : Within kinds c := by
  intro hnative kind hkind
  rw [h] at hnative hkind
  rw [Set.mem_union, not_or] at hnative
  exact hkind.elim (ha hnative.1 kind) (hb hnative.2 kind)

def lossUniverse (kinds : Finset AnnotationKind) : Finset Loss :=
  {.assessed, .native, .unsupported} ∪ (kinds.image .definite ∪ kinds.image .possible)

lemma card_lossUniverse_le (kinds : Finset AnnotationKind) :
    (lossUniverse kinds).card ≤ 3 + 2 * kinds.card := by
  have hunion := Finset.card_union_le ({.assessed, .native, .unsupported} : Finset Loss)
    (kinds.image .definite ∪ kinds.image .possible)
  have hkinds := Finset.card_union_le (kinds.image Loss.definite) (kinds.image Loss.possible)
  have hdefinite : (kinds.image Loss.definite).card ≤ kinds.card := Finset.card_image_le
  have hpossible : (kinds.image Loss.possible).card ≤ kinds.card := Finset.card_image_le
  have hthree : ({.assessed, .native, .unsupported} : Finset Loss).card = 3 := rfl
  unfold lossUniverse
  omega

/-- Whatever is new in an assessment shows in the finite universe. -/
lemma exists_new_loss {a : Option FidelityAssessmentV2} (hvalid : c.Valid)
    (hwithin : Within kinds (some c)) (hnew : ¬knownLosses (some c) ⊆ knownLosses a) :
    ∃ loss ∈ lossUniverse kinds, loss ∈ knownLosses (some c) ∧ loss ∉ knownLosses a := by
  obtain ⟨loss, hc, ha⟩ := Set.not_subset.1 hnew
  by_cases hnative : Loss.native ∈ knownLosses (some c)
  · -- An absorbing state is new unless there was one that is at least as strong.
    rcases c with _ | ⟨d, p⟩ | _ | _
    · simp at hnative
    · simp at hnative
    · refine ⟨.native, by simp [lossUniverse], hnative, fun hknown => ?_⟩
      rcases a with _ | _ | ⟨d, p⟩ | _ | _ <;> simp_all
    · refine ⟨.unsupported, by simp [lossUniverse], trivial, fun hknown => ?_⟩
      rcases a with _ | _ | ⟨d, p⟩ | _ | _ <;> simp_all
  · refine ⟨loss, ?_, hc, ha⟩
    have huniverse := hwithin hnative
    cases loss with
    | definite kind => simp [lossUniverse, huniverse kind (hvalid kind hc)]
    | possible kind => simp [lossUniverse, huniverse kind hc]
    | _ => simp [lossUniverse]

end FidelityAssessmentV2

end Ostadix
