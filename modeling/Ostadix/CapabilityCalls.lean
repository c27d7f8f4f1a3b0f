import Ostadix.CapabilityBoot

/-! What a public call can do: it is refused and changes nothing, or it changes one CSpace. -/

namespace Ostadix.Capability

open TaggedHandle

/-! ## Calls -/

inductive Call where
  | createCspace (slot : ℕ)
  | retainCspace (handle : UInt64)
  | releaseCspace (handle : UInt64)
  | beginCspaceDrain (handle : UInt64)
  | destroyCspace (handle : UInt64)
  | reserveFirstFreeForOwner (cspaceHandle : UInt64)
  | publishReservedForOwner (cspaceHandle reservation : UInt64) (metadata : Metadata)
  | abortReservedForOwner (cspaceHandle reservation : UInt64)
  | installForOwner (cspaceHandle : UInt64) (capabilitySlot : ℕ) (metadata : Metadata)
  | installFirstFreeForOwner (cspaceHandle : UInt64) (metadata : Metadata)
  | installInCspace (cspaceId capabilitySlot : ℕ) (metadata : Metadata)
  | installFirstFreeInCspace (cspaceId : ℕ) (metadata : Metadata)
  | beginCloseForOwner (cspaceHandle handle objectId objectType rights : UInt64)
  | abortCloseForOwner (cspaceHandle handle : UInt64)
  | commitCloseForOwner (cspaceHandle handle : UInt64)
  | closeForOwner (cspaceHandle handle : UInt64)
  | closeDuringDrain (cspaceHandle handle : UInt64)
  | closeInCspace (cspaceId : ℕ) (handle : UInt64)
  | init
  | selfTest

/-- The calls that only read the tables are left out. -/
def Capabilities.perform (t : Capabilities) : Call → UInt64 × Capabilities
  | .createCspace slot => t.createCspace slot
  | .retainCspace handle => t.retainCspace handle
  | .releaseCspace handle => t.releaseCspace handle
  | .beginCspaceDrain handle => t.beginCspaceDrain handle
  | .destroyCspace handle => t.destroyCspace handle
  | .reserveFirstFreeForOwner cspaceHandle => t.reserveFirstFreeForOwner cspaceHandle
  | .publishReservedForOwner cspaceHandle reservation metadata =>
    t.publishReservedForOwner cspaceHandle reservation metadata
  | .abortReservedForOwner cspaceHandle reservation =>
    t.abortReservedForOwner cspaceHandle reservation
  | .installForOwner cspaceHandle capabilitySlot metadata =>
    t.installForOwner cspaceHandle capabilitySlot metadata
  | .installFirstFreeForOwner cspaceHandle metadata =>
    t.installFirstFreeForOwner cspaceHandle metadata
  | .installInCspace cspaceId capabilitySlot metadata =>
    t.installInCspace cspaceId capabilitySlot metadata
  | .installFirstFreeInCspace cspaceId metadata => t.installFirstFreeInCspace cspaceId metadata
  | .beginCloseForOwner cspaceHandle handle objectId objectType rights =>
    ((t.beginCloseForOwner cspaceHandle handle objectId objectType rights).1.1,
      (t.beginCloseForOwner cspaceHandle handle objectId objectType rights).2)
  | .abortCloseForOwner cspaceHandle handle => t.abortCloseForOwner cspaceHandle handle
  | .commitCloseForOwner cspaceHandle handle => t.commitCloseForOwner cspaceHandle handle
  | .closeForOwner cspaceHandle handle => t.closeForOwner cspaceHandle handle
  | .closeDuringDrain cspaceHandle handle => t.closeDuringDrain cspaceHandle handle
  | .closeInCspace cspaceId handle => t.closeInCspace cspaceId handle
  | .init => t.init
  | .selfTest => t.selfTest

/-- What a call that succeeded means to the holder of a handle. -/
inductive Mark where
  | quiet
  | issued (cspaceHandle handle : UInt64) (metadata : Metadata)
  | closed (cspaceHandle handle : UInt64)
  | closing (cspaceHandle handle : UInt64)
  | reopened (cspaceHandle handle : UInt64)
  | destroyed (cspaceHandle : UInt64)
  deriving DecidableEq

/-- A raw slot stands for the handle of the CSpace that is in it at the time of the call. -/
def Call.mark (t : Capabilities) (result : UInt64) : Call → Mark
  | .installForOwner c _ metadata | .installFirstFreeForOwner c metadata
  | .publishReservedForOwner c _ metadata =>
    if result = 0 then .quiet else .issued c result metadata
  | .installInCspace cspaceId _ metadata | .installFirstFreeInCspace cspaceId metadata =>
    if result = 0 then .quiet else .issued (t.cspaceHandleForSlot cspaceId) result metadata
  | .beginCloseForOwner c handle _ _ _ => if result = 0 then .quiet else .closing c handle
  | .abortCloseForOwner c handle => if result = 0 then .quiet else .reopened c handle
  | .commitCloseForOwner c handle | .closeForOwner c handle | .closeDuringDrain c handle =>
    if result = 0 then .quiet else .closed c handle
  | .closeInCspace cspaceId handle =>
    if result = 0 then .quiet else .closed (t.cspaceHandleForSlot cspaceId) handle
  | .destroyCspace c => if result = 0 then .quiet else .destroyed c
  | _ => .quiet

/-! ## Generations -/

variable {g : UInt32} {slot : Slot}

lemma generationIsLive_iff :
    GenerationIsLive g ↔ 0 < g.toNat ∧ g.toNat ≤ 0xfffffffe := Iff.rfl

lemma GenerationIsLive.ne_zero (h : GenerationIsLive g) : g ≠ 0 := by
  rintro rfl
  exact absurd h (by decide)

lemma retireOrAdvance_of_live (h : GenerationIsLive g) :
    g.toNat < (retireOrAdvance g).toNat ∧
      (GenerationIsLive (retireOrAdvance g) ∨ retireOrAdvance g = generationRetired) := by
  obtain ⟨hpos, hle⟩ := generationIsLive_iff.1 h
  have hne : ¬(g = generationInvalid ∨ g > generationLastLive) := by
    rintro (rfl | hgt)
    · exact absurd hpos (by decide)
    · exact absurd (UInt32.lt_iff_toNat_lt.1 hgt) (not_lt.2 hle)
  have hretired : g ≠ generationRetired := by
    rintro rfl
    exact absurd hle (by decide)
  unfold retireOrAdvance advanceGenerationWithBounds
  rw [if_neg (by decide), if_neg hretired, if_neg hne]
  split
  · next hlast =>
    subst hlast
    exact ⟨by decide, .inr rfl⟩
  rename_i hlast
  have hlt : g.toNat < 0xfffffffe :=
    lt_of_le_of_ne hle fun heq => hlast (UInt32.toNat_inj.1 heq)
  have hnext : (g + 1).toNat = g.toNat + 1 := by
    rw [UInt32.toNat_add]
    exact Nat.mod_eq_of_lt (by simp only [UInt32.toNat_one]; omega)
  rw [hnext]
  refine ⟨Nat.lt_succ_self _, .inl ?_⟩
  rw [generationIsLive_iff, hnext]
  omega

lemma retireOrAdvance_ne_invalid (h : GenerationIsLive g) :
    retireOrAdvance g ≠ generationInvalid := by
  intro heq
  have hlt := (retireOrAdvance_of_live h).1
  rw [heq] at hlt
  exact absurd hlt (Nat.not_lt_zero _)

lemma retireOrAdvance_retired : retireOrAdvance generationRetired = generationRetired := by
  decide

structure Cleared (slot : Slot) : Prop where
  metadata : slot.metadata = .none
  state : slot.occupied = .empty ∧ GenerationIsLive slot.generation ∨
    slot.occupied = .retired ∧ slot.generation = generationRetired

lemma clearAndAdvance_of_live {slot' : Slot} (h : GenerationIsLive slot.generation)
    (hclear : slot.clearAndAdvance = some slot') :
    Cleared slot' ∧ slot.generation.toNat < slot'.generation.toNat := by
  obtain ⟨hlt, hcase⟩ := retireOrAdvance_of_live h
  rw [Slot.clearAndAdvance, if_neg (retireOrAdvance_ne_invalid h), Option.some.injEq] at hclear
  subst hclear
  refine ⟨⟨rfl, ?_⟩, hlt⟩
  rcases hcase with hlive | hretired
  · left
    refine ⟨if_neg ?_, hlive⟩
    intro heq
    rw [heq] at hlive
    exact absurd hlive (by decide)
  · right
    exact ⟨if_pos hretired, hretired⟩

lemma clearAndAdvance_isSome (h : GenerationIsLive slot.generation) :
    ∃ slot', slot.clearAndAdvance = some slot' := by
  rw [Slot.clearAndAdvance, if_neg (retireOrAdvance_ne_invalid h)]
  exact ⟨_, rfl⟩

lemma clearAndAdvance_retired (h : slot.generation = generationRetired) :
    slot.clearAndAdvance = some ⟨.none, generationRetired, .retired⟩ := by
  rw [Slot.clearAndAdvance, h, retireOrAdvance_retired]
  rfl

/-! ## Reading handles -/

lemma isTag_cspaceHandleTag : IsTag cspaceHandleTag := by decide

lemma isTag_reservationHandleTag : IsTag reservationHandleTag := by decide

lemma index_lt {n : ℕ} (hn : n ≤ 64) (i : Fin n) : (i : ℕ) < 2 ^ 24 := by
  have hi := i.isLt
  omega

section Handles

variable {t : Capabilities} {i : Fin maxCspaces}

lemma makeCspaceHandle_eq (h : GenerationIsLive (t.cspaces i).generation) :
    t.makeCspaceHandle i = make cspaceHandleTag (t.cspaces i).generation i := if_pos h

variable {handle : UInt64} {cspace : Option (Fin maxCspaces)} {s : Fin capabilitiesPerCspace}

lemma checkedState_eq_some {admits : CspaceState → Bool}
    (h : Capabilities.checkedState admits t handle = some i) :
    admits (t.cspaces i).state ∧ GenerationIsLive (t.cspaces i).generation ∧
      handle = t.makeCspaceHandle i := by
  unfold Capabilities.checkedState at h
  split at h
  · next htag =>
    split at h
    · split at h
      · next hstate =>
        cases h
        obtain ⟨hadmits, hlive, hgeneration⟩ := hstate
        refine ⟨hadmits, hlive, ?_⟩
        rw [makeCspaceHandle_eq hlive, hgeneration]
        exact eq_make isTag_cspaceHandleTag htag.2
      · cases h
    · cases h
  · cases h

lemma makeCspaceHandle_ne_zero (h : GenerationIsLive (t.cspaces i).generation) :
    t.makeCspaceHandle i ≠ 0 := by
  rw [makeCspaceHandle_eq h]
  exact make_ne_zero isTag_cspaceHandleTag _ h.ne_zero (index_lt (by decide) i)

lemma checkedCspace_eq_some (h : t.checkedCspace handle = some i) :
    (t.cspaces i).state = .live ∧ GenerationIsLive (t.cspaces i).generation ∧
      handle = t.makeCspaceHandle i := by
  obtain ⟨hstate, hrest⟩ := checkedState_eq_some h
  exact ⟨by simpa using hstate, hrest⟩

lemma checkedCspaceOwner_eq_some (h : t.checkedCspaceOwner handle = some i) :
    ((t.cspaces i).state = .live ∨ (t.cspaces i).state = .draining) ∧
      GenerationIsLive (t.cspaces i).generation ∧ handle = t.makeCspaceHandle i := by
  obtain ⟨hstate, hrest⟩ := checkedState_eq_some h
  exact ⟨by simpa using hstate, hrest⟩

lemma checkedDrainingCspace_eq_some (h : t.checkedDrainingCspace handle = some i) :
    (t.cspaces i).state = .draining ∧ GenerationIsLive (t.cspaces i).generation ∧
      handle = t.makeCspaceHandle i := by
  obtain ⟨hstate, hrest⟩ := checkedState_eq_some h
  exact ⟨by simpa using hstate, hrest⟩

lemma lookup_eq_some {state : SlotState} (h : t.lookup cspace state handle = some (i, s)) :
    cspace = some i ∧ ((t.cspaces i).slots s).occupied = state ∧
      GenerationIsLive ((t.cspaces i).slots s).generation ∧
      handle = make 0 ((t.cspaces i).slots s).generation s := by
  unfold Capabilities.lookup at h
  split at h
  · cases h
  split at h
  · next hslot =>
    dsimp only at h
    split at h
    · next hstate =>
      cases h
      obtain ⟨hoccupied, hlive, hgeneration⟩ := hstate
      refine ⟨rfl, hoccupied, hlive, ?_⟩
      rw [hgeneration]
      have hsmall : TaggedHandle.slot handle < 2 ^ 24 := hslot.trans (by decide)
      exact eq_make_of_slot hsmall
    · cases h
  · cases h

lemma lookupReserved_eq_some {reservation : UInt64}
    (h : t.lookupReserved cspace reservation = some (i, s)) :
    cspace = some i ∧ ((t.cspaces i).slots s).occupied = .reserved ∧
      GenerationIsLive ((t.cspaces i).slots s).generation ∧
      reservation = make reservationHandleTag ((t.cspaces i).slots s).generation s := by
  unfold Capabilities.lookupReserved at h
  split at h
  · cases h
  split at h
  · next htag =>
    split at h
    · dsimp only at h
      split at h
      · next hstate =>
        cases h
        obtain ⟨hoccupied, hlive, hgeneration⟩ := hstate
        refine ⟨rfl, hoccupied, hlive, ?_⟩
        rw [hgeneration]
        exact eq_make isTag_reservationHandleTag htag
      · cases h
    · cases h
  · cases h

end Handles

end Ostadix.Capability
