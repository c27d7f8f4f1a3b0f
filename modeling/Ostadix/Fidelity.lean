import Ostadix.LexKey
import Ostadix.OrdSet

/-! Fidelity of value crossings: what a crossing loses for certain and what it may lose. -/

namespace Ostadix

inductive AnnotationKind where
  | typeTag | numericPrecision | numericExactness | encoding | ordering | identity | constraint
  | capability | presentation
  | backendSpecific (lang label : String)

namespace AnnotationKind

open LexKey

def payload : AnnotationKind → List ℕ
  | .backendSpecific lang label => key (lang, label)
  | _ => []

lemma payload_append_inj (a b : AnnotationKind) (htag : a.ctorIdx = b.ctorIdx) (s t : List ℕ)
    (h : a.payload ++ s = b.payload ++ t) : a = b ∧ s = t := by
  cases a with
  | backendSpecific lang label =>
    refine backendSpecific.elim b htag.symm (fun lang' label' h => ?_) h
    obtain ⟨hlabel, hrest⟩ := append_inj h
    cases hlabel
    exact ⟨rfl, hrest⟩
  | typeTag => exact typeTag.elim b htag.symm (fun h => ⟨rfl, h⟩) h
  | numericPrecision => exact numericPrecision.elim b htag.symm (fun h => ⟨rfl, h⟩) h
  | numericExactness => exact numericExactness.elim b htag.symm (fun h => ⟨rfl, h⟩) h
  | encoding => exact encoding.elim b htag.symm (fun h => ⟨rfl, h⟩) h
  | ordering => exact ordering.elim b htag.symm (fun h => ⟨rfl, h⟩) h
  | identity => exact identity.elim b htag.symm (fun h => ⟨rfl, h⟩) h
  | constraint => exact constraint.elim b htag.symm (fun h => ⟨rfl, h⟩) h
  | capability => exact capability.elim b htag.symm (fun h => ⟨rfl, h⟩) h
  | presentation => exact presentation.elim b htag.symm (fun h => ⟨rfl, h⟩) h

instance : LexKey AnnotationKind := tagged AnnotationKind.ctorIdx payload payload_append_inj

end AnnotationKind

instance : LinearOrder AnnotationKind := LexKey.linearOrder AnnotationKind

/-- A loss set is never empty: no loss at all is `lossless`. -/
structure FidelityLossSet where
  lost : OrdSet AnnotationKind
  nonempty : lost ≠ ∅
  deriving DecidableEq

def FidelityLossSet.new (lost : OrdSet AnnotationKind) : Option FidelityLossSet :=
  if h : lost ≠ ∅ then some ⟨lost, h⟩ else none

inductive FidelityBoundsError where
  | definiteOutsidePossible
  deriving DecidableEq, Repr

def FidelityBoundsError.message : FidelityBoundsError → String
  | .definiteOutsidePossible => "definite fidelity losses must be a subset of possible losses"

inductive Fidelity where
  | lossless
  | structural (lost : FidelityLossSet)
  | nativeCapsule
  | unsupported
  deriving DecidableEq

namespace Fidelity

def ofLosses (lost : OrdSet AnnotationKind) : Fidelity :=
  match FidelityLossSet.new lost with
  | some lost => .structural lost
  | none => .lossless

/-- The weaker of two crossings; structural losses accumulate. -/
def compose : Fidelity → Fidelity → Fidelity
  | .unsupported, _ | _, .unsupported => .unsupported
  | .nativeCapsule, _ | _, .nativeCapsule => .nativeCapsule
  | .lossless, other | other, .lossless => other
  | .structural lost, .structural more => ofLosses (lost.lost ∪ more.lost)

end Fidelity

inductive FidelityAssessmentV2 where
  | lossless
  | structural (definite : Option FidelityLossSet) (possible : FidelityLossSet)
  | nativeCapsule
  | unsupported
  deriving DecidableEq

namespace FidelityAssessmentV2

def validate : FidelityAssessmentV2 → Except FidelityBoundsError Unit
  | .structural (some definite) possible =>
    ensure (∀ kind ∈ definite.lost.toList, kind ∈ possible.lost) .definiteOutsidePossible
  | _ => .ok ()

/-- The projection that reports every possible loss. -/
def tryPossibleFidelity (assessment : FidelityAssessmentV2) :
    Except FidelityBoundsError Fidelity := do
  assessment.validate
  return match assessment with
    | .lossless => .lossless
    | .structural _ possible => .structural possible
    | .nativeCapsule => .nativeCapsule
    | .unsupported => .unsupported

structure Panic where
  message : String
  deriving DecidableEq, Repr

def expectBounds {α : Type} (text : String) (result : Except FidelityBoundsError α) :
    Except Panic α :=
  result.mapError fun
    | .definiteOutsidePossible => ⟨text ++ ": DefiniteOutsidePossible"⟩

def possibleFidelity (assessment : FidelityAssessmentV2) : Except Panic Fidelity :=
  expectBounds "fidelity projection requires valid interval bounds" assessment.tryPossibleFidelity

def ofLosses (definite possible : OrdSet AnnotationKind) :
    Except FidelityBoundsError FidelityAssessmentV2 := do
  ensure (∀ kind ∈ definite.toList, kind ∈ possible) .definiteOutsidePossible
  return match FidelityLossSet.new possible with
    | none => .lossless
    | some possible => .structural (FidelityLossSet.new definite) possible

def fromConcrete : Fidelity → FidelityAssessmentV2
  | .lossless => .lossless
  | .structural lost => .structural (some lost) lost
  | .nativeCapsule => .nativeCapsule
  | .unsupported => .unsupported

def definiteSet : Option FidelityLossSet → OrdSet AnnotationKind
  | none => ∅
  | some losses => losses.lost

def thenValid : FidelityAssessmentV2 → FidelityAssessmentV2 → Except Panic FidelityAssessmentV2
  | .unsupported, _ | _, .unsupported => .ok .unsupported
  | .nativeCapsule, _ | _, .nativeCapsule => .ok .nativeCapsule
  | .lossless, other | other, .lossless => .ok other
  | .structural definite possible, .structural moreDefinite morePossible =>
    expectBounds "union preserves the definite-subset-possible invariant"
      (ofLosses (definiteSet definite ∪ definiteSet moreDefinite)
        (possible.lost ∪ morePossible.lost))

/-- Composition of two crossings on one execution path; intervals that are not valid panic. -/
def andThen (first next : FidelityAssessmentV2) : Except Panic FidelityAssessmentV2 := do
  expectBounds "fidelity composition requires valid interval bounds" do
    first.validate
    next.validate
  thenValid first next

end FidelityAssessmentV2

end Ostadix
