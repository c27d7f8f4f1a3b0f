import Ostadix.Capability

/-! The self-test of the capability tables, and the public calls as one step function. -/

namespace Ostadix.Capability

open TaggedHandle

/-! ## Self-test -/

def generationLifecycleModelSelfTest : Bool :=
  ¬GenerationIsLive generationInvalid ∧ ¬GenerationIsLive generationRetired ∧
    GenerationIsLive 1 ∧ GenerationIsLive generationLastLive ∧
    retireOrAdvance generationLastLive = generationRetired ∧
    (List.range 17).all fun generation =>
      advanceGenerationWithBounds (.ofNat generation) 14 15 =
        .ofNat (if generation = 0 then 0
          else if generation < 14 then generation + 1
          else if generation ≤ 15 then 15
          else 0)

def expectedMask (cspaceState : ℕ) : ℕ :=
  if cspaceState = 0 then 0x05
  else if cspaceState = 1 then 0x1f
  else if cspaceState = 3 then 0x17
  else if cspaceState = 2 then 0x04
  else 0

def cspaceStateMatrixSelfTest : Bool :=
  ((List.range 256).all fun cspaceState => (List.range 256).all fun slotState =>
    cspaceSlotStateAllowed cspaceState slotState =
      (slotState < 5 && (expectedMask cspaceState).testBit slotState)) ∧
  ((List.range 256).all fun cspaceState =>
    cspaceHeaderValid cspaceState 1 0 =
        (cspaceState = 0 || cspaceState = 1 || cspaceState = 3 : Bool) ∧
      cspaceHeaderValid cspaceState generationRetired 0 = (cspaceState = 2 : Bool)) ∧
  ¬cspaceHeaderValid 0 1 1 ∧ ¬cspaceHeaderValid 0 generationInvalid 0 ∧
  cspaceHeaderValid 1 generationLastLive 1 ∧ cspaceHeaderValid 3 generationLastLive 1 ∧
  ¬cspaceHeaderValid 2 generationRetired 1

namespace Capabilities

variable (t : Capabilities)

/-- Nothing has happened since initialization. -/
def Pristine : Prop :=
  ∀ i, (t.cspaces i).state = .live ∧ (t.cspaces i).generation = 1 ∧
    (t.cspaces i).childRefs = 0 ∧ (t.cspaces i).leaseRefs = 0 ∧
    ∀ s, (t.slotAt i s).occupied = .empty ∧ (t.slotAt i s).generation = 1 ∧
      (t.slotAt i s).metadata = .none

instance (t : Capabilities) : Decidable t.Pristine := inferInstanceAs (Decidable (∀ _, _))

def setSlot (t : Capabilities) (i : Fin maxCspaces) (s : Fin capabilitiesPerCspace)
    (slot : Slot) : Capabilities :=
  t.setCspace i ((t.cspaces i).setSlot s slot)

def terminalSelfTest (owner : UInt64) : Bool × Capabilities :=
  let saved := (t.slotAt 3 63).generation
  let t := t.setSlot 3 63 { t.slotAt 3 63 with generation := generationLastLive }
  let (handle, t) := t.installForOwner owner 63 ⟨0xcafe, objectDebug, rightDebugWrite⟩
  let restored (t : Capabilities) := t.setSlot 3 63 ⟨.none, saved, .empty⟩
  if handle ≠ 0 ∧ generation handle = generationLastLive then
    let (closed, t) := t.closeForOwner owner handle
    if closed = 1 then
      let (retired, t) := t.installForOwner owner 63 ⟨0xbeef, objectDebug, rightDebugWrite⟩
      ((t.slotAt 3 63).occupied = .retired ∧ (t.slotAt 3 63).generation = generationRetired ∧
        retired = 0, restored t)
    else (false, restored t)
  else (false, restored t)

def zeroSelfTest (owner : UInt64) : Bool × Capabilities :=
  let saved := (t.slotAt 3 62).generation
  let t := t.setSlot 3 62 { t.slotAt 3 62 with generation := generationInvalid }
  let (handle, t) := t.installForOwner owner 62 ⟨0xd00d, objectDebug, rightDebugWrite⟩
  (handle = 0 ∧ (t.slotAt 3 62).generation = generationInvalid ∧ ¬t.InvariantsHold,
    t.setSlot 3 62 { t.slotAt 3 62 with generation := saved })

def retirementSelfTest (savedCspace savedSlot : UInt32) : Bool × Capabilities :=
  let t := t.setCspace 3 { t.cspaces 3 with generation := generationLastLive }
  let owner := t.cspaceHandleForSlot 3
  let restored (t : Capabilities) :=
    t.setCspace 3 ⟨.live, savedCspace, 0, 0, fun _ => ⟨.none, savedSlot, .empty⟩⟩
  if owner ≠ 0 ∧ t.InvariantsHold then
    let (destroyed, t) := t.destroyCspace owner
    if destroyed = 1 then
      if (t.cspaces 3).state = .retired ∧ (t.cspaces 3).generation = generationRetired ∧
          (t.cspaces 3).childRefs = 0 ∧ (t.cspaces 3).leaseRefs = 0 ∧ t.InvariantsHold then
        let (created, t) := t.createCspace 3
        (created = 0, restored t)
      else (false, restored t)
    else (false, restored t)
  else (false, restored t)

/-- The three phases, each of which must leave valid tables. -/
def selfTestSequence (owner : UInt64) (savedCspace savedSlot : UInt32) : UInt64 × Capabilities :=
  let (passed, t) := t.terminalSelfTest owner
  if ¬passed ∨ ¬t.InvariantsHold then (0, t)
  else
    let (passed, t) := t.zeroSelfTest owner
    if ¬passed ∨ ¬t.InvariantsHold then (0, t)
    else
      let (passed, t) := t.retirementSelfTest savedCspace savedSlot
      if ¬passed ∨ ¬t.InvariantsHold then (0, t) else (1, t)

def selfTestPhases : UInt64 × Capabilities :=
  if t.cspaceHandleForSlot 3 = 0 ∨ (t.cspaces 3).childRefs ≠ 0 ∨ (t.cspaces 3).leaseRefs ≠ 0 then
    (0, t)
  else
    t.selfTestSequence (t.cspaceHandleForSlot 3) (t.cspaces 3).generation
      (t.slotAt 3 63).generation

def selfTest : UInt64 × Capabilities :=
  if t.selfTestRan ∨ ¬generationLifecycleModelSelfTest ∨ ¬cspaceStateMatrixSelfTest ∨
      ¬t.initialized ∨ ¬t.InvariantsHold ∨ ¬t.Pristine then (0, t)
  else { t with selfTestRan := true }.selfTestPhases

def booted : Capabilities :=
  ⟨fun _ => ⟨.live, 1, 0, 0, fun _ => ⟨.none, 1, .empty⟩⟩, true, false⟩

/-- Tables are compared entry by entry. -/
lemma eq_of_entries {t t' : Capabilities}
    (hcspaces : ∀ i, (t.cspaces i).state = (t'.cspaces i).state ∧
      (t.cspaces i).generation = (t'.cspaces i).generation ∧
      (t.cspaces i).childRefs = (t'.cspaces i).childRefs ∧
      (t.cspaces i).leaseRefs = (t'.cspaces i).leaseRefs ∧
      ∀ s, (t.cspaces i).slots s = (t'.cspaces i).slots s)
    (hflags : t.initialized = t'.initialized ∧ t.selfTestRan = t'.selfTestRan) : t = t' := by
  obtain ⟨cspaces, initialized, selfTestRan⟩ := t
  have heq : cspaces = t'.cspaces := by
    funext i
    obtain ⟨hstate, hgeneration, hchild, hlease, hslots⟩ := hcspaces i
    exact Cspace.ext hstate hgeneration hchild hlease (funext hslots)
  obtain ⟨rfl, rfl⟩ := hflags
  rw [heq]

lemma init_eq {t : Capabilities} (h : t.initialized = false) : t.init = (1, booted) := by
  rw [init, if_neg (by simp [h])]
  apply Prod.ext
  · decide +kernel
  · apply eq_of_entries <;> decide +kernel

lemma eq_booted {t : Capabilities} (hinit : t.initialized) (hran : t.selfTestRan = false)
    (h : t.Pristine) : t = booted := by
  apply eq_of_entries
  · intro i
    obtain ⟨hstate, hgeneration, hchild, hlease, hslots⟩ := h i
    refine ⟨hstate, hgeneration, hchild, hlease, fun s => ?_⟩
    obtain ⟨hoccupied, hslot, hmetadata⟩ := hslots s
    exact Slot.ext hmetadata hslot hoccupied
  · exact ⟨hinit, hran⟩

def tested : Capabilities := { booted with selfTestRan := true }

def testedOwner : UInt64 := 0x1c1000003

lemma invariantsHold_tested : tested.InvariantsHold := by decide +kernel

lemma terminalSelfTest_tested : tested.terminalSelfTest testedOwner = (true, tested) := by
  apply Prod.ext
  · decide +kernel
  · apply eq_of_entries <;> decide +kernel

lemma zeroSelfTest_tested : tested.zeroSelfTest testedOwner = (true, tested) := by
  apply Prod.ext
  · decide +kernel
  · apply eq_of_entries <;> decide +kernel

lemma retirementSelfTest_tested : tested.retirementSelfTest 1 1 = (true, tested) := by
  apply Prod.ext
  · decide +kernel
  · apply eq_of_entries <;> decide +kernel

lemma selfTestSequence_tested : tested.selfTestSequence testedOwner 1 1 = (1, tested) := by
  have hvalid := invariantsHold_tested
  rw [selfTestSequence, terminalSelfTest_tested]
  simp only [zeroSelfTest_tested, retirementSelfTest_tested, hvalid]
  rfl

/-- The self-test leaves nothing behind but the mark that it ran. -/
lemma selfTestPhases_tested : tested.selfTestPhases = (1, tested) := by
  have howner : tested.cspaceHandleForSlot 3 = testedOwner := by decide +kernel
  have hfree : ¬(testedOwner = 0 ∨ (tested.cspaces 3).childRefs ≠ 0 ∨
      (tested.cspaces 3).leaseRefs ≠ 0) := by decide
  rw [selfTestPhases, howner, if_neg hfree]
  exact selfTestSequence_tested

lemma selfTest_eq (t : Capabilities) :
    t.selfTest = (0, t) ∨ t = booted ∧ t.selfTest = (1, tested) := by
  unfold selfTest
  split
  · left
    rfl
  rename_i h
  right
  push Not at h
  obtain ⟨hran, -, -, hinit, -, hpristine⟩ := h
  have hbooted := eq_booted hinit (by simpa using hran) hpristine
  rw [hbooted]
  exact ⟨rfl, selfTestPhases_tested⟩

end Capabilities

end Ostadix.Capability
