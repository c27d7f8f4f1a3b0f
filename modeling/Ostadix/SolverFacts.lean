import Ostadix.FidelityOrder
import Ostadix.Solver
import Mathlib.Data.Finset.Prod

/-! What the solver knows of a node, and how one update adds to it. -/

namespace Ostadix

open FidelityAssessmentV2 Finset

/-! ## Facts -/

/-- A bit that is excluded from the domain or the representation, a value, a loss. -/
inductive Fact (V : Type) where
  | noDomain (bit : Fin 16)
  | noRep (bit : Fin 16)
  | valued
  | value (v : V)
  | loss (loss : Loss)
  deriving DecidableEq

def clearBits (flags : UInt16) : Set (Fin 16) := {bit | flags.toBitVec.getLsb bit = false}

lemma clearBits_and (a b : UInt16) : clearBits (a &&& b) = clearBits a ∪ clearBits b := by
  ext bit
  simp [clearBits, -Bool.and_eq_false_imp, Bool.and_eq_false_iff]

lemma clearBits_injective : Function.Injective clearBits := by
  intro a b h
  apply UInt16.toBitVec_inj.1
  apply BitVec.eq_of_getLsbD_eq
  intro i hi
  have hbit : (⟨i, hi⟩ : Fin 16) ∈ clearBits a ↔ (⟨i, hi⟩ : Fin 16) ∈ clearBits b := by rw [h]
  simpa [clearBits, BitVec.getLsb_eq_getElem, ← BitVec.getLsbD_eq_getElem] using hbit

variable {V : Type}

def factsOf (domain rep : Set (Fin 16)) (value : Option V) (losses : Set Loss) : Set (Fact V) := fun
  | .noDomain bit => bit ∈ domain
  | .noRep bit => bit ∈ rep
  | .valued => value.isSome
  | .value v => value = some v
  | .loss loss => loss ∈ losses

section Membership

variable {d r : Set (Fin 16)} {v : Option V} {l : Set Loss}

@[simp] lemma noDomain_mem_factsOf {bit : Fin 16} :
    Fact.noDomain bit ∈ factsOf d r v l ↔ bit ∈ d := Iff.rfl

@[simp] lemma noRep_mem_factsOf {bit : Fin 16} :
    Fact.noRep bit ∈ factsOf d r v l ↔ bit ∈ r := Iff.rfl

@[simp] lemma valued_mem_factsOf : Fact.valued ∈ factsOf d r v l ↔ v.isSome := Iff.rfl

@[simp] lemma value_mem_factsOf {x : V} : Fact.value x ∈ factsOf d r v l ↔ v = some x := Iff.rfl

@[simp] lemma loss_mem_factsOf {loss : Loss} :
    Fact.loss loss ∈ factsOf d r v l ↔ loss ∈ l := Iff.rfl

end Membership

lemma factsOf_subset {d d' r r' : Set (Fin 16)} {v v' : Option V} {l l' : Set Loss} :
    factsOf d r v l ⊆ factsOf d' r' v' l' ↔
      d ⊆ d' ∧ r ⊆ r' ∧ (∀ x, v = some x → v' = some x) ∧ l ⊆ l' := by
  constructor
  · intro h
    exact ⟨fun bit hbit => h (a := .noDomain bit) hbit, fun bit hbit => h (a := .noRep bit) hbit,
      fun x hx => h (a := .value x) hx, fun loss hloss => h (a := .loss loss) hloss⟩
  · rintro ⟨hd, hr, hv, hl⟩ fact hfact
    cases fact with
    | noDomain bit => exact hd hfact
    | noRep bit => exact hr hfact
    | valued =>
      obtain ⟨x, hx⟩ := Option.isSome_iff_exists.1 hfact
      exact Option.isSome_iff_exists.2 ⟨x, hv x hx⟩
    | value x => exact hv x hfact
    | loss loss => exact hl hfact

def TypedNode.facts (node : TypedNode V) : Set (Fact V) :=
  factsOf (clearBits node.domain) (clearBits node.rep) node.value
    (knownLosses node.fidelityAssessment)

def Write.facts : Write V → Set (Fact V)
  | .domain mask => factsOf (clearBits mask) ∅ none ∅
  | .rep mask => factsOf ∅ (clearBits mask) none ∅
  | .value incoming => factsOf ∅ ∅ incoming ∅
  | .fidelity incoming => factsOf ∅ ∅ none (knownLosses (some incoming))

/-! ## Nodes in order -/

/-- The node's assessment is valid, names known kinds, and projects to the legacy judgment. -/
structure Settled (kinds : Finset AnnotationKind) (node : TypedNode V) : Prop where
  valid : ∀ a, node.fidelityAssessment = some a → a.Valid
  projects : node.fidelity = node.fidelityAssessment.map projection
  within : Within kinds node.fidelityAssessment

variable {kinds : Finset AnnotationKind} {node : TypedNode V} {incoming : FidelityAssessmentV2}
  {e : SolveFailure V}

lemma TypedNode.eq_of_facts {node' : TypedNode V} (h : Settled kinds node)
    (h' : Settled kinds node') (hkind : node.kind = node'.kind)
    (hfacts : node.facts = node'.facts) :
    node = node' := by
  obtain ⟨hd, hr, hv, hl⟩ := factsOf_subset.1 hfacts.subset
  obtain ⟨hd', hr', hv', hl'⟩ := factsOf_subset.1 hfacts.superset
  have hdomain := clearBits_injective (hd.antisymm hd')
  have hrep := clearBits_injective (hr.antisymm hr')
  have hassessment := knownLosses_injective (hl.antisymm hl')
  have hvalue : node.value = node'.value := Option.ext fun x => ⟨hv x, hv' x⟩
  have hfidelity : node.fidelity = node'.fidelity := by rw [h.projects, h'.projects, hassessment]
  cases node
  cases node'
  simp_all

/-- The facts of a node that a budget has to pay for. -/
def factUniverse [DecidableEq V] (kinds : Finset AnnotationKind) : Finset (Fact V) :=
  univ.image .noDomain ∪ (univ.image .noRep ∪
    ({.valued} ∪ (lossUniverse kinds).image .loss))

lemma card_factUniverse_le [DecidableEq V] (kinds : Finset AnnotationKind) :
    (factUniverse kinds : Finset (Fact V)).card ≤ 36 + 2 * kinds.card := by
  have hdomain : (univ.image (Fact.noDomain (V := V))).card ≤ 16 :=
    card_image_le.trans_eq (card_fin 16)
  have hrep : (univ.image (Fact.noRep (V := V))).card ≤ 16 :=
    card_image_le.trans_eq (card_fin 16)
  have hloss : ((lossUniverse kinds).image (Fact.loss (V := V))).card ≤ 3 + 2 * kinds.card :=
    card_image_le.trans (card_lossUniverse_le kinds)
  calc (factUniverse kinds : Finset (Fact V)).card
      ≤ 16 + (16 + (1 + (3 + 2 * kinds.card))) := by
        refine (card_union_le _ _).trans (add_le_add hdomain ?_)
        refine (card_union_le _ _).trans (add_le_add hrep ?_)
        exact (card_union_le _ _).trans (add_le_add (card_singleton _).le hloss)
    _ = 36 + 2 * kinds.card := by omega

lemma exists_new_fact [DecidableEq V] {node' : TypedNode V} (h' : Settled kinds node')
    (hle : node.facts ⊆ node'.facts) (hnew : ¬node'.facts ⊆ node.facts) :
    ∃ fact ∈ factUniverse kinds, fact ∈ node'.facts ∧ fact ∉ node.facts := by
  obtain ⟨fact, hfact, hmissing⟩ := Set.not_subset.1 hnew
  cases fact with
  | noDomain bit => exact ⟨.noDomain bit, by simp [factUniverse], hfact, hmissing⟩
  | noRep bit => exact ⟨.noRep bit, by simp [factUniverse], hfact, hmissing⟩
  | valued => exact ⟨.valued, by simp [factUniverse], hfact, hmissing⟩
  | value v =>
    -- A node that had another value would have kept it.
    refine ⟨.valued, by simp [factUniverse], Option.isSome_iff_exists.2 ⟨v, hfact⟩,
      fun hvalued => ?_⟩
    obtain ⟨u, hu⟩ := Option.isSome_iff_exists.1 hvalued
    have hu' : node'.value = some u := hle (a := .value u) hu
    exact hmissing (hu.trans (hu'.symm.trans hfact))
  | loss loss =>
    cases hassessment : node'.fidelityAssessment with
    | none =>
      have hloss : loss ∈ knownLosses node'.fidelityAssessment := hfact
      simp [hassessment] at hloss
    | some c =>
      have hwithin := h'.within
      rw [hassessment] at hwithin
      obtain ⟨loss', hU, hmem, hmissing'⟩ := exists_new_loss (a := node.fidelityAssessment)
        (h'.valid c hassessment) hwithin fun hsub => hmissing (hsub (hassessment ▸ hfact))
      refine ⟨.loss loss', by simp [factUniverse, hU], ?_, hmissing'⟩
      exact (congrArg (loss' ∈ knownLosses ·) hassessment).mpr hmem

/-! ## One update -/

lemma updateSlot_eq_ok {T : Type} [DecidableEq T]
    {merge : T → T → Except Panic T} {slot incoming next : T} {changed : Bool} :
    (updateSlot merge slot incoming : Except (SolveFailure V) (T × Bool)) = .ok (next, changed) ↔
      merge slot incoming = .ok next ∧ changed = decide (next ≠ slot) := by
  simp only [updateSlot, orPanic, bind_eq_ok, mapError_eq_ok]
  constructor
  · rintro ⟨merged, hmerge, hresult⟩
    split at hresult
    · next heq =>
      cases hresult
      exact ⟨heq ▸ hmerge, by simp⟩
    · next hne =>
      cases hresult
      exact ⟨hmerge, by simp [Ne.symm hne]⟩
  · rintro ⟨hmerge, rfl⟩
    refine ⟨next, hmerge, ?_⟩
    split
    · next heq =>
      subst heq
      simp [pure, Except.pure]
    · next hne => simp [pure, Except.pure, Ne.symm hne]

def PhaseWrite (kinds : Finset AnnotationKind) : SolvePhase → Write V → Prop
  | .typeAndValue, .fidelity _ => False
  | .typeAndValue, _ => True
  | .fidelity, .fidelity incoming => incoming.Valid ∧ Within kinds (some incoming)
  | .fidelity, _ => False

def Kept : SolvePhase → TypedNode V → TypedNode V → Prop
  | .typeAndValue, _, _ => True
  | .fidelity, node, node' =>
    node'.domain = node.domain ∧ node'.rep = node.rep ∧ node'.value = node.value

lemma kept_trans {phase : SolvePhase} {node₁ node₂ node₃ : TypedNode V}
    (h : Kept phase node₁ node₂) (h' : Kept phase node₂ node₃) : Kept phase node₁ node₃ := by
  cases phase with
  | typeAndValue => trivial
  | fidelity => exact ⟨h'.1.trans h.1, h'.2.1.trans h.2.1, h'.2.2.trans h.2.2⟩

structure Updated [DecidableEq V] (kinds : Finset AnnotationKind) (phase : SolvePhase)
    (write : Write V) (node node' : TypedNode V) (changed : Bool) : Prop where
  kind : node'.kind = node.kind
  settled : Settled kinds node'
  kept : Kept phase node node'
  facts : node'.facts = node.facts ∪ write.facts
  flag : changed = decide (node' ≠ node)

lemma mergeAssessment_ok (h : Settled kinds node) (hvalid : incoming.Valid) :
    ∃ c : FidelityAssessmentV2, c.Valid ∧
      knownLosses (some c) = knownLosses node.fidelityAssessment ∪ knownLosses (some incoming) ∧
      mergeAssessment node.fidelityAssessment (some incoming) = .ok (some c) := by
  cases hassessment : node.fidelityAssessment with
  | none => exact ⟨incoming, hvalid, (Set.empty_union _).symm, rfl⟩
  | some a =>
    have ha := h.valid a hassessment
    obtain ⟨c, hthen, hknown⟩ := andThen_valid ha hvalid
    refine ⟨c, valid_of_union ha hvalid hknown, hknown, ?_⟩
    simp only [mergeAssessment, mergeOption, hthen]
    rfl

lemma mergeFidelity_ok {c : FidelityAssessmentV2} (h : Settled kinds node)
    (hle : knownLosses node.fidelityAssessment ⊆ knownLosses (some c)) :
    mergeFidelity node.fidelity (some c.projection) = .ok (some c.projection) := by
  rw [h.projects]
  cases hassessment : node.fidelityAssessment with
  | none => rfl
  | some a =>
    rw [hassessment] at hle
    simp only [Option.map_some, mergeFidelity, mergeOption, compose_projection hle]
    rfl

/-- Composition with a valid assessment succeeds, and the judgment follows. -/
lemma applyFidelityToNode_ok (h : Settled kinds node) (hvalid : incoming.Valid) :
    ∃ c : FidelityAssessmentV2, c.Valid ∧
      knownLosses (some c) = knownLosses node.fidelityAssessment ∪ knownLosses (some incoming) ∧
      applyFidelityToNode node incoming =
        .ok ({ node with fidelityAssessment := some c, fidelity := some c.projection },
          decide (some c ≠ node.fidelityAssessment)) := by
  obtain ⟨c, hc, hknown, hmerge⟩ := mergeAssessment_ok h hvalid
  have hle : knownLosses node.fidelityAssessment ⊆ knownLosses (some c) := by
    rw [hknown]
    exact Set.subset_union_left
  have hproject : (some c).mapM possibleFidelity = .ok (some c.projection) := by
    rw [Option.mapM_some, possibleFidelity_valid hc]
    rfl
  -- Where the assessment stays, so does its projection.
  have hflag : (decide (some c ≠ node.fidelityAssessment) ||
      decide (some c.projection ≠ node.fidelity)) = decide (some c ≠ node.fidelityAssessment) := by
    rw [h.projects]
    by_cases hsame : some c = node.fidelityAssessment
    · simp [← hsame]
    · simp [hsame]
  refine ⟨c, hc, hknown, ?_⟩
  refine bind_eq_ok.2 ⟨_, updateSlot_eq_ok.2 ⟨hmerge, rfl⟩, ?_⟩
  refine bind_eq_ok.2 ⟨some c.projection, mapError_eq_ok.2 hproject, ?_⟩
  refine bind_eq_ok.2 ⟨_, updateSlot_eq_ok.2 ⟨mergeFidelity_ok h hle, rfl⟩, ?_⟩
  exact congrArg (fun flag => Except.ok (_, flag)) hflag

variable {kinds : Finset AnnotationKind} {phase : SolvePhase} {write : Write V}
  {node node' : TypedNode V} {changed : Bool} {edge : EdgeId} {id : NodeId}

/-- A phase that makes type writes keeps nothing in particular. -/
lemma kept_of_not_fidelity (hwrite : PhaseWrite kinds phase write)
    (hkind : ∀ incoming, write ≠ .fidelity incoming) : Kept phase node node' := by
  cases phase with
  | typeAndValue => trivial
  | fidelity =>
    cases write with
    | fidelity incoming => exact absurd rfl (hkind incoming)
    | _ => exact hwrite.elim

variable [DecidableEq V]

lemma apply_value_eq_ok {incoming : Option V}
    (happly : writeValueOnce edge id node incoming = .ok (node', changed)) :
    (node' = node ∧ changed = false ∧ ∀ v, incoming = some v → node.value = some v) ∨
      ∃ v, incoming = some v ∧ node.value = none ∧ node' = { node with value := some v } ∧
        changed = true := by
  cases incoming with
  | none =>
    cases happly
    exact .inl ⟨rfl, rfl, by simp⟩
  | some v =>
    cases hvalue : node.value with
    | some existing =>
      simp only [writeValueOnce, hvalue] at happly
      split at happly
      · cases happly
      · next hsame =>
        cases happly
        exact .inl ⟨rfl, rfl, by simp_all⟩
    | none =>
      simp only [writeValueOnce, hvalue] at happly
      obtain ⟨⟨next, flag⟩, hslot, hresult⟩ := bind_eq_ok.1 happly
      obtain ⟨hmerge, rfl⟩ := updateSlot_eq_ok.1 hslot
      cases hmerge
      cases hresult
      exact .inr ⟨v, rfl, rfl, rfl, by simp⟩

/-- Every update of a settled node is the union of what is known before and what it says. -/
lemma apply_updated (h : Settled kinds node) (hwrite : PhaseWrite kinds phase write)
    (happly : write.apply edge id node = .ok (node', changed)) :
    Updated kinds phase write node node' changed := by
  cases write with
  | domain mask | rep mask =>
    obtain ⟨⟨next, flag⟩, hslot, hresult⟩ := bind_eq_ok.1 happly
    obtain ⟨hmerge, rfl⟩ := updateSlot_eq_ok.1 hslot
    cases hmerge
    cases hresult
    refine ⟨rfl, ⟨h.valid, h.projects, h.within⟩, kept_of_not_fidelity hwrite (by simp), ?_, ?_⟩
    · ext fact
      cases fact <;> simp [TypedNode.facts, Write.facts, clearBits_and]
    · cases node
      simp
  | value incoming =>
    rcases apply_value_eq_ok happly with ⟨rfl, rfl, hsame⟩ | ⟨v, rfl, hvalue, rfl, rfl⟩
    · refine ⟨rfl, h, kept_of_not_fidelity hwrite (by simp), ?_, by simp⟩
      rw [Set.union_eq_left.2]
      exact factsOf_subset.2 ⟨by simp, by simp, hsame, by simp⟩
    refine ⟨rfl, ⟨h.valid, h.projects, h.within⟩, kept_of_not_fidelity hwrite (by simp), ?_, ?_⟩
    · ext fact
      cases fact <;> simp [TypedNode.facts, Write.facts, hvalue]
    · cases node
      simp_all
  | fidelity incoming =>
    cases phase with
    | typeAndValue => exact hwrite.elim
    | fidelity =>
      obtain ⟨hvalid, hwithin⟩ := hwrite
      obtain ⟨c, hc, hknown, hok⟩ := applyFidelityToNode_ok h hvalid
      cases hok.symm.trans happly
      refine ⟨rfl, ⟨?_, rfl, within_union h.within hwithin hknown⟩, ⟨rfl, rfl, rfl⟩, ?_, ?_⟩
      · intro a ha
        cases ha
        exact hc
      · ext fact
        cases fact <;> simp [TypedNode.facts, Write.facts, hknown]
      have hproject : some c = node.fidelityAssessment → some c.projection = node.fidelity := by
        intro hsame
        rw [h.projects, ← hsame]
        rfl
      cases node
      simp_all

lemma apply_domain_ok (edge : EdgeId) (id : NodeId) (node : TypedNode V) (mask : UInt16) :
    ∃ r, (Write.domain mask).apply edge id node = .ok r :=
  ⟨_, bind_eq_ok.2 ⟨_, updateSlot_eq_ok.2 ⟨rfl, rfl⟩, rfl⟩⟩

lemma apply_rep_ok (edge : EdgeId) (id : NodeId) (node : TypedNode V) (mask : UInt16) :
    ∃ r, (Write.rep mask).apply edge id node = .ok r :=
  ⟨_, bind_eq_ok.2 ⟨_, updateSlot_eq_ok.2 ⟨rfl, rfl⟩, rfl⟩⟩

lemma writeValueOnce_eq_error {incoming : Option V}
    (herror : writeValueOnce edge id node incoming = .error e) :
    ∃ u v, node.value = some u ∧ incoming = some v ∧ u ≠ v ∧
      e = .error (.conflictingMaterializedValue edge id u v) := by
  cases incoming with
  | none => cases herror
  | some v =>
    cases hvalue : node.value with
    | none =>
      simp only [writeValueOnce, hvalue] at herror
      rcases bind_eq_error.1 herror with hslot | ⟨_, _, hpure⟩
      · simp [updateSlot, mergeValue, orPanic, Except.mapError, bind, Except.bind, pure,
          Except.pure] at hslot
      · cases hpure
    | some u =>
      simp only [writeValueOnce, hvalue] at herror
      split at herror
      · next hne =>
        cases herror
        exact ⟨u, v, rfl, rfl, hne, rfl⟩
      · cases herror

/-- Updates of settled nodes fail only at a second value. -/
lemma apply_eq_error (h : Settled kinds node) (hwrite : PhaseWrite kinds phase write)
    (herror : write.apply edge id node = .error e) :
    ∃ u v, node.value = some u ∧ write = .value (some v) ∧ u ≠ v ∧
      e = .error (.conflictingMaterializedValue edge id u v) := by
  cases write with
  | domain mask =>
    obtain ⟨r, hok⟩ := apply_domain_ok edge id node mask
    cases hok.symm.trans herror
  | rep mask =>
    obtain ⟨r, hok⟩ := apply_rep_ok edge id node mask
    cases hok.symm.trans herror
  | value incoming =>
    obtain ⟨u, v, hu, rfl, hne, he⟩ := writeValueOnce_eq_error herror
    exact ⟨u, v, hu, rfl, hne, he⟩
  | fidelity incoming =>
    cases phase with
    | typeAndValue => exact hwrite.elim
    | fidelity =>
      obtain ⟨c, -, -, hok⟩ := applyFidelityToNode_ok h hwrite.1
      cases hok.symm.trans herror

lemma apply_of_below (edge : EdgeId) (id : NodeId) {t : TypedNode V} (h : Settled kinds node)
    (hwrite : PhaseWrite kinds phase write) (hle : node.facts ⊆ t.facts)
    (hknown : write.facts ⊆ t.facts) : ∃ r, write.apply edge id node = .ok r := by
  cases hresult : write.apply edge id node with
  | ok r => exact ⟨r, rfl⟩
  | error e =>
    obtain ⟨u, v, hu, rfl, hne, -⟩ := apply_eq_error h hwrite hresult
    have htu : t.value = some u := (factsOf_subset.1 hle).2.2.1 u hu
    have htv : t.value = some v := (factsOf_subset.1 hknown).2.2.1 v rfl
    exact absurd (some_unique htu htv) hne

end Ostadix
