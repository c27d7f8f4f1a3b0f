import Ostadix.CapabilityCalls

/-! A call is refused and changes nothing, or changes one CSpace in one of a few ways. -/

namespace Ostadix.Capability

open TaggedHandle Cspace List

structure Metadata.Admissible (metadata : Metadata) : Prop where
  object : metadata.objectId ≠ 0
  rights : metadata.rights ≠ 0
  permitted : allowedRights metadata.objectType ≠ 0
  attenuated : metadata.rights &&& allowedRights metadata.objectType = metadata.rights

structure GivenUp (next : UInt32) (slot slot' : Slot) : Prop where
  cleared : Cleared slot'
  retired : next = generationRetired → slot'.occupied = .retired
  later : slot.generation.toNat < slot'.generation.toNat ∨ slot'.generation = generationRetired

/-- The ways in which a CSpace changes, and what each means to the holder of a handle. -/
inductive Change (c : Cspace) (owner : UInt64) : Cspace → Mark → Prop where
  | create : c.state = .empty → c.childRefs = 0 → c.leaseRefs = 0 →
    GenerationIsLive c.generation → Change c owner { c with state := .live } .quiet
  | retain : c.state = .live → c.childRefs ≠ 0xffffffff → c.leaseRefs ≠ 0xffffffff →
    Change c owner
      { c with childRefs := c.childRefs + 1, leaseRefs := c.leaseRefs + 1 } .quiet
  | release : c.state = .live ∨ c.state = .draining → c.childRefs ≠ 0 → c.leaseRefs ≠ 0 →
    Change c owner
      { c with childRefs := c.childRefs - 1, leaseRefs := c.leaseRefs - 1 } .quiet
  | drain : c.state = .live → (∀ s, (c.slots s).occupied ≠ .reserved) →
    Change c owner { c with state := .draining } .quiet
  | reserve {s : Fin capabilitiesPerCspace} : c.state = .live → c.childRefs ≠ 0xffffffff →
    (c.slots s).Allocatable →
    Change c owner { c.setSlot s { c.slots s with occupied := .reserved } with
      childRefs := c.childRefs + 1 } .quiet
  | publish {s : Fin capabilitiesPerCspace} {metadata : Metadata} : c.state = .live →
    (c.slots s).occupied = .reserved → GenerationIsLive (c.slots s).generation →
    metadata.Admissible → c.leaseRefs < c.childRefs →
    Change c owner { c.setSlot s ⟨metadata, (c.slots s).generation, .live⟩ with
      childRefs := c.childRefs - 1 } (.issued owner (make 0 (c.slots s).generation s) metadata)
  | withdraw {s : Fin capabilitiesPerCspace} {slot : Slot} : c.state = .live →
    (c.slots s).occupied = .reserved → GenerationIsLive (c.slots s).generation →
    c.leaseRefs < c.childRefs → (c.slots s).clearAndAdvance = some slot →
    Change c owner { c.setSlot s slot with childRefs := c.childRefs - 1 } .quiet
  | install {s : Fin capabilitiesPerCspace} {metadata : Metadata} : c.state = .live →
    (c.slots s).Allocatable → metadata.Admissible →
    Change c owner (c.setSlot s ⟨metadata, (c.slots s).generation, .live⟩)
      (.issued owner (make 0 (c.slots s).generation s) metadata)
  | beginClose {s : Fin capabilitiesPerCspace} : c.state = .live →
    (c.slots s).occupied = .live → GenerationIsLive (c.slots s).generation →
    c.childRefs ≠ 0xffffffff →
    Change c owner { c.setSlot s { c.slots s with occupied := .closing } with
      childRefs := c.childRefs + 1 } (.closing owner (make 0 (c.slots s).generation s))
  | abortClose {s : Fin capabilitiesPerCspace} : c.state = .live ∨ c.state = .draining →
    (c.slots s).occupied = .closing → GenerationIsLive (c.slots s).generation →
    c.leaseRefs < c.childRefs →
    Change c owner { c.setSlot s { c.slots s with occupied := .live } with
      childRefs := c.childRefs - 1 } (.reopened owner (make 0 (c.slots s).generation s))
  | commitClose {s : Fin capabilitiesPerCspace} {slot : Slot} :
    c.state = .live ∨ c.state = .draining → (c.slots s).occupied = .closing →
    GenerationIsLive (c.slots s).generation → c.leaseRefs < c.childRefs →
    (c.slots s).clearAndAdvance = some slot →
    Change c owner { c.setSlot s slot with childRefs := c.childRefs - 1 }
      (.closed owner (make 0 (c.slots s).generation s))
  | close {s : Fin capabilitiesPerCspace} {slot : Slot} :
    c.state = .live ∨ c.state = .draining → (c.slots s).occupied = .live →
    GenerationIsLive (c.slots s).generation → (c.slots s).clearAndAdvance = some slot →
    Change c owner (c.setSlot s slot) (.closed owner (make 0 (c.slots s).generation s))
  | destroy {slots : Fin capabilitiesPerCspace → Slot} :
    c.state = .live ∨ c.state = .draining → GenerationIsLive c.generation → c.childRefs = 0 →
    (∀ s, (c.slots s).occupied ≠ .live) → c.InvariantsHold →
    (∀ s, GivenUp (retireOrAdvance c.generation) (c.slots s) (slots s)) →
    Change c owner ⟨if retireOrAdvance c.generation = generationRetired then .retired else .empty,
      retireOrAdvance c.generation, 0, 0, slots⟩ (.destroyed owner)

/-- A call is refused, or it succeeds and changes one CSpace. -/
def Outcome (t : Capabilities) (mark : UInt64 → Mark) (outcome : UInt64 × Capabilities) : Prop :=
  outcome = (0, t) ∨ ∃ i c' result, result ≠ 0 ∧ outcome = (result, t.setCspace i c') ∧
    Change (t.cspaces i) (t.makeCspaceHandle i) c' (mark result)

section Outcomes

variable {t : Capabilities}

variable {mark : UInt64 → Mark} {slot : Slot}

lemma outcome_refused : Outcome t mark (0, t) := .inl rfl

lemma outcome_one {i : Fin maxCspaces} {c' : Cspace}
    (h : Change (t.cspaces i) (t.makeCspaceHandle i) c' (mark 1)) :
    Outcome t mark (1, t.setCspace i c') :=
  .inr ⟨i, c', 1, by decide, rfl, h⟩

lemma capabilityHandle_ne_zero {g : UInt32} (h : GenerationIsLive g)
    (s : Fin capabilitiesPerCspace) : make 0 g s ≠ 0 :=
  make_ne_zero isTag_zero g h.ne_zero (index_lt (by decide) s)

lemma createCspace_outcome (slot : ℕ) : Outcome t (fun _ => .quiet) (t.createCspace slot) := by
  unfold Capabilities.createCspace
  split
  · dsimp only
    split
    · next h =>
      obtain ⟨-, hstate, hlive, hchild, hlease, -⟩ := h
      exact .inr ⟨_, _, _, makeCspaceHandle_ne_zero hlive, rfl, .create hstate hchild hlease hlive⟩
    · exact outcome_refused
  · exact outcome_refused

lemma retainCspace_outcome (handle : UInt64) :
    Outcome t (fun _ => .quiet) (t.retainCspace handle) := by
  unfold Capabilities.retainCspace
  split
  · exact outcome_refused
  rename_i i hi
  dsimp only
  split
  · exact outcome_refused
  · next h =>
    rw [not_or] at h
    exact outcome_one (.retain (checkedCspace_eq_some hi).1 h.1 h.2)

lemma releaseCspace_outcome (handle : UInt64) :
    Outcome t (fun _ => .quiet) (t.releaseCspace handle) := by
  unfold Capabilities.releaseCspace
  split
  · exact outcome_refused
  rename_i i hi
  dsimp only
  split
  · exact outcome_refused
  · next h =>
    rw [not_or] at h
    exact outcome_one (.release (checkedCspaceOwner_eq_some hi).1 h.1 h.2)

lemma beginCspaceDrain_outcome (handle : UInt64) :
    Outcome t (fun _ => .quiet) (t.beginCspaceDrain handle) := by
  unfold Capabilities.beginCspaceDrain
  split
  · exact outcome_refused
  rename_i i hi
  dsimp only
  split
  · exact outcome_refused
  · next h =>
    rw [not_or, not_exists] at h
    exact outcome_one (.drain (checkedCspace_eq_some hi).1 h.2)

/-! ## Reservations -/

lemma reserveFirstFreeForOwner_outcome (cspaceHandle : UInt64) :
    Outcome t (fun _ => .quiet) (t.reserveFirstFreeForOwner cspaceHandle) := by
  unfold Capabilities.reserveFirstFreeForOwner
  split
  · exact outcome_refused
  rename_i i hi
  dsimp only
  split
  · exact outcome_refused
  rename_i hchild
  split
  · exact outcome_refused
  rename_i s hs
  split
  · next hfree =>
    refine .inr ⟨i, _, _, ?_, rfl, .reserve (checkedCspace_eq_some hi).1 hchild hfree⟩
    exact make_ne_zero isTag_reservationHandleTag _ hfree.2.1.ne_zero
      (index_lt (by decide) s)
  · exact outcome_refused

lemma publishReservedForOwner_outcome (cspaceHandle reservation : UInt64) (metadata : Metadata) :
    Outcome t (fun result => .issued cspaceHandle result metadata)
      (t.publishReservedForOwner cspaceHandle reservation metadata) := by
  unfold Capabilities.publishReservedForOwner
  split
  · exact outcome_refused
  rename_i i s hs
  obtain ⟨hi, hoccupied, hlive, -⟩ := lookupReserved_eq_some hs
  obtain ⟨hstate, -, rfl⟩ := checkedCspace_eq_some hi
  dsimp only
  split
  · exact outcome_refused
  rename_i h
  push Not at h
  obtain ⟨hobject, -, hrights, hpermitted, hattenuated, hrefs⟩ := h
  exact .inr ⟨i, _, _, capabilityHandle_ne_zero hlive s, rfl,
    .publish hstate hoccupied hlive ⟨hobject, hrights, hpermitted, hattenuated⟩
      (UInt32.not_le.1 hrefs)⟩

lemma abortReservedForOwner_outcome (cspaceHandle reservation : UInt64) :
    Outcome t (fun _ => .quiet) (t.abortReservedForOwner cspaceHandle reservation) := by
  unfold Capabilities.abortReservedForOwner
  split
  · exact outcome_refused
  rename_i i s hs
  obtain ⟨hi, hoccupied, hlive, -⟩ := lookupReserved_eq_some hs
  dsimp only
  split
  · exact outcome_refused
  rename_i hrefs
  split
  · exact outcome_refused
  · next slot hslot =>
    exact outcome_one
      (.withdraw (checkedCspace_eq_some hi).1 hoccupied hlive (UInt32.not_le.1 hrefs) hslot)

/-! ## Installing -/

lemma installForOwner_outcome (cspaceHandle : UInt64) (capabilitySlot : ℕ)
    (metadata : Metadata) : Outcome t (fun result => .issued cspaceHandle result metadata)
      (t.installForOwner cspaceHandle capabilitySlot metadata) := by
  unfold Capabilities.installForOwner
  split
  · exact outcome_refused
  rename_i i hi
  obtain ⟨hstate, -, rfl⟩ := checkedCspace_eq_some hi
  split
  · dsimp only
    split
    · exact outcome_refused
    rename_i h
    push Not at h
    obtain ⟨hobject, -, hrights, hpermitted, hattenuated, hfree⟩ := h
    exact .inr ⟨i, _, _, capabilityHandle_ne_zero hfree.2.1 _, rfl,
      .install hstate hfree ⟨hobject, hrights, hpermitted, hattenuated⟩⟩
  · exact outcome_refused

lemma installFirstFreeForOwner_outcome (cspaceHandle : UInt64) (metadata : Metadata) :
    Outcome t (fun result => .issued cspaceHandle result metadata)
      (t.installFirstFreeForOwner cspaceHandle metadata) := by
  unfold Capabilities.installFirstFreeForOwner
  split
  · exact outcome_refused
  split
  · exact outcome_refused
  · split
    · exact installForOwner_outcome _ _ _
    · exact outcome_refused

/-! ## Closing -/

lemma beginCloseForOwner_outcome (cspaceHandle handle objectId objectType rights : UInt64) :
    Outcome t (fun _ => .closing cspaceHandle handle)
      ((t.beginCloseForOwner cspaceHandle handle objectId objectType rights).1.1,
        (t.beginCloseForOwner cspaceHandle handle objectId objectType rights).2) := by
  unfold Capabilities.beginCloseForOwner
  split
  · exact outcome_refused
  split
  · exact outcome_refused
  rename_i i s hs
  obtain ⟨hi, hoccupied, hlive, rfl⟩ := lookup_eq_some hs
  obtain ⟨hstate, -, rfl⟩ := checkedCspace_eq_some hi
  dsimp only
  split
  · exact outcome_refused
  · next hchild => exact outcome_one (.beginClose hstate hoccupied hlive hchild)

lemma abortCloseForOwner_outcome (cspaceHandle handle : UInt64) :
    Outcome t (fun _ => .reopened cspaceHandle handle)
      (t.abortCloseForOwner cspaceHandle handle) := by
  unfold Capabilities.abortCloseForOwner
  split
  · exact outcome_refused
  rename_i i s hs
  obtain ⟨hi, hoccupied, hlive, rfl⟩ := lookup_eq_some hs
  obtain ⟨hstate, -, rfl⟩ := checkedCspaceOwner_eq_some hi
  dsimp only
  split
  · exact outcome_refused
  · next hrefs => exact outcome_one (.abortClose hstate hoccupied hlive (UInt32.not_le.1 hrefs))

lemma commitCloseForOwner_outcome (cspaceHandle handle : UInt64) :
    Outcome t (fun _ => .closed cspaceHandle handle)
      (t.commitCloseForOwner cspaceHandle handle) := by
  unfold Capabilities.commitCloseForOwner
  split
  · exact outcome_refused
  rename_i i s hs
  obtain ⟨hi, hoccupied, hlive, rfl⟩ := lookup_eq_some hs
  obtain ⟨hstate, -, rfl⟩ := checkedCspaceOwner_eq_some hi
  dsimp only
  split
  · exact outcome_refused
  rename_i hrefs
  split
  · exact outcome_refused
  · next slot hslot =>
    exact outcome_one (.commitClose hstate hoccupied hlive (UInt32.not_le.1 hrefs) hslot)

/-- Closing at once, in a CSpace that was checked in one way or another. -/
lemma close_outcome {cspace : Option (Fin maxCspaces)} {cspaceHandle : UInt64}
    (hcspace : ∀ i, cspace = some i →
      ((t.cspaces i).state = .live ∨ (t.cspaces i).state = .draining) ∧
        cspaceHandle = t.makeCspaceHandle i) (handle : UInt64) :
    Outcome t (fun _ => .closed cspaceHandle handle) (t.close cspace handle) := by
  unfold Capabilities.close
  split
  · exact outcome_refused
  rename_i i s hs
  obtain ⟨hi, hoccupied, hlive, rfl⟩ := lookup_eq_some hs
  obtain ⟨hstate, rfl⟩ := hcspace i hi
  split
  · exact outcome_refused
  · next slot hslot => exact outcome_one (.close hstate hoccupied hlive hslot)

lemma closeForOwner_outcome (cspaceHandle handle : UInt64) :
    Outcome t (fun _ => .closed cspaceHandle handle) (t.closeForOwner cspaceHandle handle) := by
  apply close_outcome
  intro i hi
  obtain ⟨hstate, -, hhandle⟩ := checkedCspace_eq_some hi
  exact ⟨.inl hstate, hhandle⟩

lemma closeDuringDrain_outcome (cspaceHandle handle : UInt64) :
    Outcome t (fun _ => .closed cspaceHandle handle)
      (t.closeDuringDrain cspaceHandle handle) := by
  apply close_outcome
  intro i hi
  obtain ⟨hstate, -, hhandle⟩ := checkedDrainingCspace_eq_some hi
  exact ⟨.inr hstate, hhandle⟩

lemma closeInCspace_outcome (cspaceId : ℕ) (handle : UInt64) :
    Outcome t (fun _ => .closed (t.cspaceHandleForSlot cspaceId) handle)
      (t.closeInCspace cspaceId handle) := by
  unfold Capabilities.closeInCspace
  split
  · exact outcome_refused
  · exact closeForOwner_outcome _ _

/-! ## Destroying -/

def givenUp (retires : Bool) (slot : Slot) : Slot :=
  if retires then ⟨.none, generationRetired, .retired⟩ else slot.clearAndAdvance.getD slot

lemma destroySlots_eq {retires : Bool} {l : List (Fin capabilitiesPerCspace)} (hl : l.Nodup)
    {c : Cspace} (hclear : retires = false → ∀ s ∈ l, (c.slots s).clearAndAdvance.isSome) :
    (destroySlots retires l c).1 ∧ ∀ s, (destroySlots retires l c).2.slots s =
      if s ∈ l then givenUp retires (c.slots s) else c.slots s := by
  induction l generalizing c with
  | nil => exact ⟨rfl, fun s => by simp [destroySlots]⟩
  | cons a rest ih =>
    obtain ⟨ha, hrest⟩ := nodup_cons.1 hl
    -- The loop goes on with the first slot given up and the others as they were.
    have hnext : destroySlots retires (a :: rest) c =
        destroySlots retires rest (c.setSlot a (givenUp retires (c.slots a))) := by
      rw [destroySlots, givenUp]
      split
      · rfl
      rename_i hretires
      have hsome := hclear (by simpa using hretires) a mem_cons_self
      obtain ⟨slot, hslot⟩ := Option.isSome_iff_exists.1 hsome
      rw [hslot]
      rfl
    have hother : ∀ s ∈ rest, (c.setSlot a (givenUp retires (c.slots a))).slots s = c.slots s := by
      intro s hs
      have hne : s ≠ a := by
        rintro rfl
        exact ha hs
      exact Function.update_of_ne hne _ _
    have hgo := @ih hrest (c.setSlot a (givenUp retires (c.slots a))) fun hretires s hs => by
      rw [hother s hs]
      exact hclear hretires s (mem_cons_of_mem a hs)
    rw [hnext]
    refine ⟨hgo.1, fun s => ?_⟩
    rw [hgo.2 s]
    by_cases hs : s ∈ rest
    · rw [if_pos hs, if_pos (mem_cons_of_mem a hs), hother s hs]
    rw [if_neg hs]
    by_cases hsa : s = a
    · subst hsa
      rw [if_pos mem_cons_self]
      exact Function.update_self _ _ _
    · rw [if_neg (by simp [hsa, hs])]
      exact Function.update_of_ne hsa _ _

lemma liveSlots_eq_zero {c : Cspace} : c.liveSlots = 0 ↔ ∀ s, (c.slots s).occupied ≠ .live := by
  simp [liveSlots]

lemma Slot.ShapeValid.generation (h : slot.ShapeValid) :
    GenerationIsLive slot.generation ∨ slot.generation = generationRetired := by
  unfold Slot.ShapeValid at h
  split at h
  · exact .inl h.1
  · exact .inl h.1
  · exact .inl h.1
  · exact .inl h.1
  · exact .inr h.1

lemma Slot.ShapeValid.clearAndAdvance (h : slot.ShapeValid) : slot.clearAndAdvance.isSome := by
  rcases h.generation with hlive | hretired
  · obtain ⟨slot', hslot⟩ := clearAndAdvance_isSome hlive
    rw [hslot]
    rfl
  · rw [clearAndAdvance_retired hretired]
    rfl

lemma givenUp_spec {next : UInt32} (h : slot.ShapeValid) :
    GivenUp next slot (givenUp (next = generationRetired) slot) := by
  unfold givenUp
  by_cases hnext : next = generationRetired
  · rw [if_pos (by simpa using hnext)]
    exact ⟨⟨rfl, .inr ⟨rfl, rfl⟩⟩, fun _ => rfl, .inr rfl⟩
  rw [if_neg (by simpa using hnext)]
  rcases h.generation with hlive | hretired
  · obtain ⟨slot', hslot⟩ := clearAndAdvance_isSome hlive
    obtain ⟨hcleared, hlt⟩ := clearAndAdvance_of_live hlive hslot
    rw [hslot]
    exact ⟨hcleared, fun heq => absurd heq hnext, .inl hlt⟩
  · rw [clearAndAdvance_retired hretired]
    exact ⟨⟨rfl, .inr ⟨rfl, rfl⟩⟩, fun heq => absurd heq hnext, .inr rfl⟩

lemma destroyCspace_outcome (handle : UInt64) :
    Outcome t (fun _ => .destroyed handle) (t.destroyCspace handle) := by
  unfold Capabilities.destroyCspace
  split
  · exact outcome_refused
  rename_i i hi
  obtain ⟨hstate, hlive, rfl⟩ := checkedCspaceOwner_eq_some hi
  dsimp only
  split
  · exact outcome_refused
  rename_i h
  push Not at h
  obtain ⟨hchild, hslots, hvalid⟩ := h
  rw [if_neg (retireOrAdvance_ne_invalid hlive)]
  have hshape : ∀ s, ((t.cspaces i).slots s).ShapeValid := fun s => ((hvalid.2 i).2.1 s).2
  obtain ⟨hdone, hresult⟩ := @destroySlots_eq
    (decide (retireOrAdvance (t.cspaces i).generation = generationRetired)) _
    (nodup_finRange _) { t.cspaces i with state := .draining }
    (fun _ s _ => (hshape s).clearAndAdvance)
  rw [if_pos hdone]
  refine outcome_one (.destroy hstate hlive hchild (liveSlots_eq_zero.1 hslots)
    (hvalid.2 i) fun s => ?_)
  rw [hresult s, if_pos (mem_finRange s)]
  exact givenUp_spec (hshape s)

end Outcomes

/-- What a call does to initialized tables. Only the self-test, right after that, changes more. -/
lemma perform_cases {t : Capabilities} (hinit : t.initialized) (call : Call) :
    Outcome t (fun result => call.mark t result) (t.perform call) ∨
      t = .booted ∧ call = .selfTest ∧ t.perform call = (1, .tested) := by
  have hweaken : ∀ {mark mark' : UInt64 → Mark} {outcome : UInt64 × Capabilities},
      Outcome t mark outcome → (∀ result, result ≠ 0 → mark' result = mark result) →
      Outcome t mark' outcome := by
    rintro mark mark' outcome (hrefused | ⟨i, c', result, hne, heq, hchange⟩) hmark
    · exact .inl hrefused
    · exact .inr ⟨i, c', result, hne, heq, hmark result hne ▸ hchange⟩
  cases call with
  | createCspace slot => exact .inl (createCspace_outcome slot)
  | retainCspace handle => exact .inl (retainCspace_outcome handle)
  | releaseCspace handle => exact .inl (releaseCspace_outcome handle)
  | beginCspaceDrain handle => exact .inl (beginCspaceDrain_outcome handle)
  | reserveFirstFreeForOwner c => exact .inl (reserveFirstFreeForOwner_outcome c)
  | abortReservedForOwner c r => exact .inl (abortReservedForOwner_outcome c r)
  | destroyCspace handle =>
    exact .inl (hweaken (destroyCspace_outcome handle) fun _ hne => if_neg hne)
  | publishReservedForOwner c r metadata =>
    exact .inl (hweaken (publishReservedForOwner_outcome c r metadata) fun _ hne => if_neg hne)
  | installForOwner c s metadata =>
    exact .inl (hweaken (installForOwner_outcome c s metadata) fun _ hne => if_neg hne)
  | installFirstFreeForOwner c metadata =>
    exact .inl (hweaken (installFirstFreeForOwner_outcome c metadata) fun _ hne => if_neg hne)
  | installInCspace i s metadata =>
    exact .inl (hweaken (installForOwner_outcome _ s metadata) fun _ hne => if_neg hne)
  | installFirstFreeInCspace i metadata =>
    exact .inl (hweaken (installFirstFreeForOwner_outcome _ metadata) fun _ hne => if_neg hne)
  | beginCloseForOwner c h o ty r =>
    exact .inl (hweaken (beginCloseForOwner_outcome c h o ty r) fun _ hne => if_neg hne)
  | abortCloseForOwner c h =>
    exact .inl (hweaken (abortCloseForOwner_outcome c h) fun _ hne => if_neg hne)
  | commitCloseForOwner c h =>
    exact .inl (hweaken (commitCloseForOwner_outcome c h) fun _ hne => if_neg hne)
  | closeForOwner c h =>
    exact .inl (hweaken (closeForOwner_outcome c h) fun _ hne => if_neg hne)
  | closeDuringDrain c h =>
    exact .inl (hweaken (closeDuringDrain_outcome c h) fun _ hne => if_neg hne)
  | closeInCspace i h =>
    exact .inl (hweaken (closeInCspace_outcome i h) fun _ hne => if_neg hne)
  | init =>
    left
    rw [Capabilities.perform, Capabilities.init, if_pos hinit]
    exact outcome_refused
  | selfTest =>
    rcases t.selfTest_eq with hrefused | ⟨hbooted, htested⟩
    · left
      rw [Capabilities.perform, hrefused]
      exact outcome_refused
    · exact .inr ⟨hbooted, rfl, htested⟩

end Ostadix.Capability
