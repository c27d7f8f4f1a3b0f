import Ostadix.MemoryAccounts

/-! Conservation of references over every sequence of allocations, closes, transfers and mappings.
-/

namespace Ostadix.MemoryObject

open Function TaggedHandle Capability PageFrames CapTransfer MemoryMapping Capabilities

/-! ## Moving references -/

def unit (handle x : UInt64) : ℕ := if x = handle then 1 else 0

lemma Store.Accounted.congr {k : Store} {held held' : UInt64 → ℕ} (h : k.Accounted held)
    (heq : ∀ x, held' x = held x) : k.Accounted held' := by
  rw [funext heq]
  exact h

lemma update_succ (held : UInt64 → ℕ) (handle x : UInt64) :
    update held handle (held handle + 1) x = held x + unit handle x := by
  unfold unit
  by_cases hx : x = handle
  · subst hx
    rw [update_self, if_pos rfl]
  · rw [update_of_ne hx, if_neg hx]
    rfl

variable {handle : UInt64}

lemma update_pred {held : UInt64 → ℕ} (h : held handle ≠ 0) (x : UInt64) :
    update held handle (held handle - 1) x + unit handle x = held x := by
  unfold unit
  by_cases hx : x = handle
  · subst hx
    rw [update_self, if_pos rfl]
    omega
  · rw [update_of_ne hx, if_neg hx]
    rfl

/-! ## Capabilities that name an object -/

def names (metadata : Metadata) (handle : UInt64) : ℕ :=
  if metadata.objectType = objectMemory ∧ metadata.objectId = handle then 1 else 0

/-- The slots of all CSpaces that name a memory object. -/
def capabilityRefs (t : Capabilities) (handle : UInt64) : ℕ :=
  ∑ i, ∑ s, names (t.slotAt i s).metadata handle

lemma names_none (handle : UInt64) : names .none handle = 0 :=
  if_neg fun h => absurd h.1 (by decide)

lemma names_memory (object rights x : UInt64) :
    names ⟨object, objectMemory, rights⟩ x = unit object x := by
  unfold names unit
  simp only [true_and, eq_comm]

/-- The metadata of one slot changes, and no CSpace changes its owner or its leases. -/
structure SlotStep (t t' : Capabilities) (old new : Metadata) : Prop where
  valid : t'.InvariantsHold
  headers : SameHeaders t t'
  leases : ∀ i, lease t' i = lease t i
  refs : ∀ handle, capabilityRefs t' handle + names old handle =
    capabilityRefs t handle + names new handle

variable {i : Fin maxCspaces} {t : Capabilities} {s : Fin capabilitiesPerCspace}

lemma slotStep_setSlot {slot : Slot} {childRefs : UInt32}
    (hvalid : (t.setCspace i { (t.cspaces i).setSlot s slot with
      childRefs }).InvariantsHold) :
    SlotStep t (t.setCspace i { (t.cspaces i).setSlot s slot with childRefs })
      ((t.cspaces i).slots s).metadata slot.metadata := by
  refine ⟨hvalid, SameHeaders.setCspace rfl rfl, fun j => ?_, fun handle => ?_⟩
  · by_cases hj : j = i
    · subst hj
      simp [lease, setCspace, Cspace.setSlot]
    · simp [lease, setCspace, hj]
  have houter := sum_update (fun c : Cspace => ∑ x, names (c.slots x).metadata handle) t.cspaces i
    { (t.cspaces i).setSlot s slot with childRefs }
  have hinner := sum_update (fun slot : Slot => names slot.metadata handle) (t.cspaces i).slots s
    slot
  have hrefs : ∀ t : Capabilities, capabilityRefs t handle =
    ∑ j, ∑ x, names ((t.cspaces j).slots x).metadata handle := fun _ => rfl
  rw [hrefs, hrefs]
  change ∑ j, ∑ x, names ((update t.cspaces i _ j).slots x).metadata handle + _ = _
  dsimp only [Cspace.setSlot] at houter hinner ⊢
  omega

/-- A call that is refused, or changes one slot. -/
def SlotCall (t : Capabilities) (old new : Metadata) (outcome : UInt64 × Capabilities) : Prop :=
  (outcome.1 = 0 ∧ outcome.2 = t) ∨ (outcome.1 ≠ 0 ∧ SlotStep t outcome.2 old new)

section SlotCalls

variable {t : Capabilities} (h : t.InvariantsHold)

include h

lemma reserveFirstFreeForOwner_slot (cspaceHandle : UInt64) :
    ∃ metadata, SlotCall t metadata metadata (t.reserveFirstFreeForOwner cspaceHandle) := by
  have hvalid := (invariantsHold_perform h (.reserveFirstFreeForOwner cspaceHandle)).1
  change (t.reserveFirstFreeForOwner cspaceHandle).2.InvariantsHold at hvalid
  revert hvalid
  unfold reserveFirstFreeForOwner
  split
  · exact fun _ => ⟨.none, .inl ⟨rfl, rfl⟩⟩
  rename_i i _
  dsimp only
  split
  · exact fun _ => ⟨.none, .inl ⟨rfl, rfl⟩⟩
  split
  · exact fun _ => ⟨.none, .inl ⟨rfl, rfl⟩⟩
  rename_i s _
  split
  · next hfree =>
    intro hvalid
    refine ⟨((t.cspaces i).slots s).metadata, .inr ⟨?_, slotStep_setSlot hvalid⟩⟩
    exact make_ne_zero isTag_reservationHandleTag _ hfree.2.1.ne_zero
      (index_lt (by decide) s)
  · exact fun _ => ⟨.none, .inl ⟨rfl, rfl⟩⟩

lemma metadata_of_reserved (hoccupied : ((t.cspaces i).slots s).occupied = .reserved) :
    ((t.cspaces i).slots s).metadata = .none := by
  have hshape := ((h.2 i).2.1 s).2
  unfold Slot.ShapeValid at hshape
  rw [hoccupied] at hshape
  exact hshape.2

/-- A capability is issued into a slot that named nothing. -/
lemma slotCall_issued {cspaceHandle : UInt64} {metadata : Metadata}
    {outcome : UInt64 × Capabilities}
    (houtcome : Outcome t (fun result => .issued cspaceHandle result metadata) outcome) :
    SlotCall t .none metadata outcome := by
  rcases houtcome with rfl | ⟨i, c', result, hne, rfl, hchange⟩
  · exact .inl ⟨rfl, rfl⟩
  have hvalid : (t.setCspace i c').InvariantsHold :=
    invariantsHold_setCspace h (hchange.invariantsHold (h.2 i))
  cases hchange with
  | publish _ hoccupied =>
    have hstep := slotStep_setSlot hvalid
    rw [metadata_of_reserved h hoccupied] at hstep
    exact .inr ⟨hne, hstep⟩
  | install _ hfree =>
    have hstep := @slotStep_setSlot i t _ _ (t.cspaces i).childRefs hvalid
    rw [hfree.2.2] at hstep
    exact .inr ⟨hne, hstep⟩

lemma abortReservedForOwner_slot (cspaceHandle reservation : UInt64) :
    SlotCall t .none .none (t.abortReservedForOwner cspaceHandle reservation) := by
  have hvalid := (invariantsHold_perform h (.abortReservedForOwner cspaceHandle reservation)).1
  change (t.abortReservedForOwner cspaceHandle reservation).2.InvariantsHold at hvalid
  revert hvalid
  unfold abortReservedForOwner
  split
  · exact fun _ => .inl ⟨rfl, rfl⟩
  rename_i i s hlookup
  obtain ⟨-, hoccupied, hlive, -⟩ := lookupReserved_eq_some hlookup
  dsimp only
  split
  · exact fun _ => .inl ⟨rfl, rfl⟩
  split
  · exact fun _ => .inl ⟨rfl, rfl⟩
  rename_i slot hslot
  intro hvalid
  have hstep := slotStep_setSlot hvalid
  rw [metadata_of_reserved h hoccupied, (clearAndAdvance_of_live hlive hslot).1.metadata] at hstep
  exact .inr ⟨show (1 : UInt64) ≠ 0 by decide, hstep⟩

lemma closeForOwner_slot {cspaceHandle capability object : UInt64}
    (hfound : t.validateForOwner cspaceHandle capability objectMemory 0 = object)
    (hobject : object ≠ 0) :
    ∃ rights, SlotCall t ⟨object, objectMemory, rights⟩ .none
      (t.closeForOwner cspaceHandle capability) := by
  have hvalid := (invariantsHold_perform h (.closeForOwner cspaceHandle capability)).1
  change (t.closeForOwner cspaceHandle capability).2.InvariantsHold at hvalid
  revert hvalid
  unfold closeForOwner close
  unfold validateForOwner validate at hfound
  split
  · exact fun _ => ⟨0, .inl ⟨rfl, rfl⟩⟩
  rename_i i s hlookup
  rw [hlookup] at hfound
  dsimp only at hfound
  split at hfound
  · exact absurd hfound.symm hobject
  rename_i htype
  split at hfound
  · exact absurd hfound.symm hobject
  obtain ⟨-, -, hlive, -⟩ := lookup_eq_some hlookup
  have hmetadata : (t.slotAt i s).metadata =
      ⟨object, objectMemory, (t.slotAt i s).metadata.rights⟩ := by
    rw [← hfound, ← not_not.1 htype]
  split
  · exact fun _ => ⟨0, .inl ⟨rfl, rfl⟩⟩
  rename_i slot hslot
  intro hvalid
  have hstep := slotStep_setSlot hvalid
  rw [(clearAndAdvance_of_live hlive hslot).1.metadata] at hstep
  refine ⟨(t.slotAt i s).metadata.rights, .inr ⟨show (1 : UInt64) ≠ 0 by decide, ?_⟩⟩
  rw [← hmetadata]
  exact hstep

end SlotCalls

/-! ## Leases leave the capabilities alone -/

lemma capabilityRefs_setCspace {c : Cspace} (h : c.slots = (t.cspaces i).slots) (x : UInt64) :
    capabilityRefs (t.setCspace i c) x = capabilityRefs t x := by
  apply Finset.sum_congr rfl
  intro j _
  apply Finset.sum_congr rfl
  intro s _
  by_cases hj : j = i
  · subst hj
    simp [slotAt, setCspace, h]
  · simp [slotAt, setCspace, hj]

lemma capabilityRefs_retainCspace (t : Capabilities) (handle x : UInt64) :
    capabilityRefs (t.retainCspace handle).2 x = capabilityRefs t x := by
  unfold retainCspace
  split
  · rfl
  dsimp only
  split
  · rfl
  · dsimp only
    apply capabilityRefs_setCspace
    rfl

lemma capabilityRefs_releaseCspace (t : Capabilities) (handle x : UInt64) :
    capabilityRefs (t.releaseCspace handle).2 x = capabilityRefs t x := by
  unfold releaseCspace
  split
  · rfl
  dsimp only
  split
  · rfl
  · dsimp only
    apply capabilityRefs_setCspace
    rfl

variable {rest' : UInt64 → ℕ} {kind : UInt64}

namespace Store

lemma caps_quotaSlotForOwner (k : Store) (owner : UInt64) :
    (k.quotaSlotForOwner owner).2.caps = k.caps := by
  unfold quotaSlotForOwner
  split
  · rfl
  · split
    · split <;> rfl
    · rfl

lemma capabilityRefs_releaseObject (k : Store) (handle x : UInt64) :
    capabilityRefs (k.releaseObject handle).2.caps x = capabilityRefs k.caps x := by
  unfold releaseObject
  split
  · rfl
  rename_i o _
  dsimp only
  split
  · rfl
  split
  · rfl
  have hcaps := caps_quotaSlotForOwner k (k.object o).owner
  generalize k.quotaSlotForOwner (k.object o).owner = found at hcaps ⊢
  rcases found with ⟨_ | i, k₁⟩
  · exact congrArg (capabilityRefs · x) hcaps
  dsimp only at hcaps ⊢
  rw [← hcaps]
  split
  · rfl
  split
  · rfl
  · split
    · exact capabilityRefs_releaseCspace _ _ x
    · exact capabilityRefs_releaseCspace _ _ x

lemma capabilityRefs_allocateOwnedObject (k : Store) (owner kind x : UInt64) :
    capabilityRefs (k.allocateOwnedObject owner kind).2.caps x = capabilityRefs k.caps x := by
  unfold allocateOwnedObject
  split
  · rfl
  have hcaps := caps_quotaSlotForOwner k owner
  generalize k.quotaSlotForOwner owner = found at hcaps ⊢
  rcases found with ⟨_ | i, k₁⟩
  · exact congrArg (capabilityRefs · x) hcaps
  dsimp only at hcaps ⊢
  rw [← hcaps]
  split
  · rfl
  split
  · rfl
  split
  · rfl
  split
  · split <;> exact capabilityRefs_retainCspace _ _ x
  split
  · split
    · exact capabilityRefs_retainCspace _ _ x
    · split <;> exact (capabilityRefs_releaseCspace _ _ x).trans
        (capabilityRefs_retainCspace _ _ x)
  · exact capabilityRefs_retainCspace _ _ x

/-! ## The calls of the memory module -/

/-- All references but those of the capabilities are given. -/
def Balanced (k : Store) (rest : UInt64 → ℕ) : Prop :=
  k.Accounted fun x => capabilityRefs k.caps x + rest x

/-- First nothing ends, then objects may. -/
def Progress (k k' : Store) : Prop := ∃ m, Quiet k m ∧ Settles m k'

lemma Quiet.progress {k k' : Store} (h : Quiet k k') : Progress k k' := ⟨k', h, Settles.refl k'⟩

lemma Settles.progress {k k' : Store} (h : Settles k k') : Progress k k' := ⟨k, Quiet.refl k, h⟩

section Calls

variable {k : Store} {rest : UInt64 → ℕ}

section

variable (h : Balanced k rest)

include h

lemma Balanced.setQuotaForOwner (owner : UInt64) (limit : ℕ) :
    Balanced (k.setQuotaForOwner owner limit).2 rest ∧
      Quiet k (k.setQuotaForOwner owner limit).2 := by
  unfold Store.setQuotaForOwner
  split
  · exact ⟨h, Quiet.refl k⟩
  obtain ⟨haccount, hcaps, -, hobjects, -⟩ := Accounted.quotaSlotForOwner h owner
  generalize k.quotaSlotForOwner owner = found at haccount hcaps hobjects ⊢
  rcases found with ⟨_ | i, k₁⟩
  · rw [← hcaps] at haccount
    exact ⟨haccount, quiet_of_objects hobjects⟩
  dsimp only at haccount hcaps hobjects ⊢
  rw [← hcaps] at haccount
  split
  · exact ⟨haccount, quiet_of_objects hobjects⟩
  · next hroom =>
    refine ⟨?_, quiet_of_objects hobjects⟩
    exact haccount.setQuotaEntry rfl (Nat.not_lt.1 hroom) (.inl rfl)

lemma Balanced.releaseObject (hheld : rest handle ≠ 0)
    (hrest : ∀ x, rest' x + unit handle x = rest x) :
    (k.releaseObject handle).1 = 1 ∧ Balanced (k.releaseObject handle).2 rest' ∧
      Settles k (k.releaseObject handle).2 := by
  have hsum : capabilityRefs k.caps handle + rest handle ≠ 0 := by omega
  obtain ⟨hone, haccount, hsettles⟩ := Accounted.releaseObject h hsum
  refine ⟨hone, haccount.congr fun x => ?_, hsettles⟩
  have hpred := @update_pred handle (fun x => capabilityRefs k.caps x + rest x) hsum x
  have hx := hrest x
  rw [capabilityRefs_releaseObject]
  omega

/-- One capability comes or goes, with the references of the rest to match. -/
lemma Balanced.setCaps {old new : Metadata} (hstep : SlotStep k.caps t old new)
    (hrest : ∀ x, rest' x + names new x = rest x + names old x) :
    Balanced { k with caps := t } rest' := by
  have haccount := Accounted.setCaps h hstep.valid hstep.headers
    (fun i => by rw [hstep.leases]; exact h.leased i)
  refine haccount.congr fun x => ?_
  have hx := hrest x
  have hrefs := hstep.refs x
  change capabilityRefs t x + rest' x = _
  omega

lemma Balanced.allocateOwnedObject (owner kind : UInt64) :
    Quiet k (k.allocateOwnedObject owner kind).2 ∧
      (((k.allocateOwnedObject owner kind).1.1 = .ok ∧ Balanced (k.allocateOwnedObject owner kind).2
          fun x => rest x + unit (k.allocateOwnedObject owner kind).1.2 x) ∨
      ((k.allocateOwnedObject owner kind).1.1 ≠ .ok ∧
        Balanced (k.allocateOwnedObject owner kind).2 rest)) := by
  obtain ⟨hquiet, ⟨hok, haccount⟩ | ⟨hrefused, haccount⟩⟩ :=
    Accounted.allocateOwnedObject h owner kind
  · refine ⟨hquiet, .inl ⟨hok, haccount.congr fun x => ?_⟩⟩
    rw [update_succ, capabilityRefs_allocateOwnedObject]
    dsimp only
    omega
  · refine ⟨hquiet, .inr ⟨hrefused, haccount.congr fun x => ?_⟩⟩
    rw [capabilityRefs_allocateOwnedObject]

lemma Balanced.allocateCapabilityForOwner (owner kind : UInt64) :
    Balanced (k.allocateCapabilityForOwner owner kind).2 rest ∧
      Progress k (k.allocateCapabilityForOwner owner kind).2 := by
  unfold Store.allocateCapabilityForOwner
  split
  · exact ⟨h, (Quiet.refl k).progress⟩
  split
  · exact ⟨h, (Quiet.refl k).progress⟩
  split
  · exact ⟨h, (Quiet.refl k).progress⟩
  obtain ⟨hquiet, hcases⟩ := h.allocateOwnedObject owner kind
  generalize k.allocateOwnedObject owner kind = outcome at hquiet hcases ⊢
  rcases outcome with ⟨⟨status, handle⟩, k₁⟩
  rcases hcases with ⟨hok, hbalanced⟩ | ⟨hrefused, hbalanced⟩
  · dsimp only at hok hbalanced hquiet
    subst hok
    dsimp only
    generalize (if kind = memoryShared then rightMemoryUse ||| rightTransfer
      else rightMemoryUse) = rights
    rcases slotCall_issued hbalanced.caps (installFirstFreeForOwner_outcome owner
      ⟨handle, objectMemory, rights⟩) with ⟨hzero, hsame⟩ | ⟨hne, hstep⟩
    · rw [if_pos hzero, hsame]
      have hheld : rest handle + unit handle handle ≠ 0 := by simp [unit]
      obtain ⟨-, hback, hsettles⟩ := Balanced.releaseObject hbalanced hheld fun x => rfl
      exact ⟨hback, k₁, hquiet, hsettles⟩
    · rw [if_neg hne]
      refine ⟨hbalanced.setCaps hstep fun x => ?_, k₁, hquiet, settles_setCaps _⟩
      rw [names_memory, names_none, Nat.add_zero]
  · dsimp only at hrefused hbalanced hquiet
    split
    · next heq =>
      cases heq
      exact absurd rfl hrefused
    · next heq =>
      cases heq
      exact ⟨hbalanced, hquiet.progress⟩

lemma Balanced.allocateKernelObjectForOwner (owner kind : UInt64) :
    Quiet k (k.allocateKernelObjectForOwner owner kind).2 ∧
      (((k.allocateKernelObjectForOwner owner kind).1 = 0 ∧
        Balanced (k.allocateKernelObjectForOwner owner kind).2 rest) ∨
      Balanced (k.allocateKernelObjectForOwner owner kind).2
        fun x => rest x + unit (k.allocateKernelObjectForOwner owner kind).1 x) := by
  unfold Store.allocateKernelObjectForOwner
  split
  · exact ⟨Quiet.refl k, .inl ⟨rfl, h⟩⟩
  obtain ⟨hquiet, hcases⟩ := h.allocateOwnedObject owner kind
  generalize k.allocateOwnedObject owner kind = outcome at hquiet hcases ⊢
  rcases outcome with ⟨⟨status, handle⟩, k₁⟩
  rcases hcases with ⟨hok, hbalanced⟩ | ⟨hrefused, hbalanced⟩
  · dsimp only at hok hbalanced hquiet
    subst hok
    exact ⟨hquiet, .inr hbalanced⟩
  dsimp only at hrefused hbalanced hquiet
  split
  · next heq =>
    cases heq
    exact absurd rfl hrefused
  · next heq =>
    cases heq
    exact ⟨hquiet, .inl ⟨rfl, hbalanced⟩⟩

end

lemma ne_zero_of_checkedObject (h : (k.checkedObject handle kind).isSome) : handle ≠ 0 := by
  rintro rfl
  obtain ⟨o, ho⟩ := Option.isSome_iff_exists.1 h
  have htag := congrArg tagOf (checkedObject_eq_some.1 ho).1
  rw [makeObjectHandle, tagOf_make isTag_memoryHandleTag _ (objectIndex_lt o)] at htag
  exact absurd htag (by decide)

lemma Balanced.closeCapabilityForOwner (h : Balanced k rest) (owner capability : UInt64) :
    Balanced (k.closeCapabilityForOwner owner capability).2 rest ∧
      Settles k (k.closeCapabilityForOwner owner capability).2 := by
  unfold Store.closeCapabilityForOwner
  split
  · exact ⟨h, Settles.refl k⟩
  split
  · exact ⟨h, Settles.refl k⟩
  dsimp only
  generalize hfound : k.caps.validateForOwner owner capability objectMemory 0 = object
  split
  · exact ⟨h, Settles.refl k⟩
  rename_i hchecks
  rw [not_or, Option.isNone_iff_eq_none] at hchecks
  have hobject := ne_zero_of_checkedObject (Option.ne_none_iff_isSome.1 hchecks.2)
  obtain ⟨rights, ⟨hzero, hsame⟩ | ⟨hne, hstep⟩⟩ := closeForOwner_slot h.caps hfound hobject
  · rw [if_pos hzero, hsame]
    exact ⟨h, Settles.refl k⟩
  rw [if_neg hne]
  have hbalanced : Balanced { k with caps := (k.caps.closeForOwner owner capability).2 }
      (fun x => rest x + unit object x) := by
    refine h.setCaps hstep fun x => ?_
    rw [names_memory, names_none, Nat.add_zero]
  have hheld : rest object + unit object object ≠ 0 := by simp [unit]
  obtain ⟨-, hback, hsettles⟩ := Balanced.releaseObject hbalanced hheld fun x => rfl
  have hall := (settles_setCaps _).trans hsettles
  split
  · exact ⟨hback, hall⟩
  · exact ⟨hback, hall⟩

/-! ## Retaining for others -/

lemma quiet_retain (o : Fin maxMemoryObjects) : Quiet k (k.retain o) :=
  fun x _ => same_setReferences k o x _

lemma Balanced.retain (h : Balanced k rest) {o : Fin maxMemoryObjects}
    (hchecked : k.checkedObject handle kind = some o)
    (hfull : (k.object o).references ≠ 0xffffffff) :
    Balanced (k.retain o) fun x => rest x + unit handle x := by
  obtain ⟨rfl, hlive, -⟩ := checkedObject_eq_some.1 hchecked
  refine (Accounted.retain h hlive hfull).congr fun x => ?_
  rw [update_succ]
  change capabilityRefs k.caps x + (rest x + unit _ x) = _
  omega

lemma Balanced.retainObject (h : Balanced k rest) (handle : UInt64) :
    ((k.retainObject handle).1 = 0 ∧ (k.retainObject handle).2 = k) ∨
      ((k.retainObject handle).1 ≠ 0 ∧ Quiet k (k.retainObject handle).2 ∧
        Balanced (k.retainObject handle).2 fun x => rest x + unit handle x) := by
  unfold Store.retainObject
  split
  · exact .inl ⟨rfl, rfl⟩
  rename_i o ho
  split
  · exact .inl ⟨rfl, rfl⟩
  · next hfull =>
    exact .inr ⟨show (1 : UInt64) ≠ 0 by decide, quiet_retain o, h.retain ho hfull⟩

lemma Balanced.retainForMapping (h : Balanced k rest) (handle kind : UInt64) :
    ((k.retainForMapping handle kind).1.1 = 0 ∧ (k.retainForMapping handle kind).2 = k) ∨
      ((k.retainForMapping handle kind).1.1 ≠ 0 ∧ Quiet k (k.retainForMapping handle kind).2 ∧
        (k.retainForMapping handle kind).2.checkedObject handle kind ≠ none ∧
        Balanced (k.retainForMapping handle kind).2 fun x => rest x + unit handle x) := by
  unfold Store.retainForMapping
  split
  · exact .inl ⟨rfl, rfl⟩
  split
  · exact .inl ⟨rfl, rfl⟩
  rename_i o ho
  split
  · exact .inl ⟨rfl, rfl⟩
  rename_i hfull
  dsimp only
  split
  · exact .inl ⟨rfl, rfl⟩
  refine .inr ⟨show (1 : UInt64) ≠ 0 by decide, quiet_retain o, ?_, h.retain ho hfull⟩
  obtain ⟨hhandle, hlive, hkind⟩ := checkedObject_eq_some.1 ho
  obtain ⟨n, hn⟩ := quiet_retain o o hlive
  have hstill : (k.retain o).checkedObject handle kind = some o := by
    rw [checkedObject_eq_some, handle_of_same hn, hn]
    exact ⟨hhandle, hlive, hkind⟩
  rw [hstill]
  exact nofun

/-- Releasing a mapping is refused, or gives its reference back. -/
lemma Balanced.releaseMapping (h : Balanced k rest)
    (hheld : rest handle ≠ 0) (hrest : ∀ x, rest' x + unit handle x = rest x) :
    ((k.releaseMapping handle kind).1 = 0 ∧ (k.releaseMapping handle kind).2 = k ∧
        k.checkedObject handle kind = none) ∨
      ((k.releaseMapping handle kind).1 ≠ 0 ∧ Settles k (k.releaseMapping handle kind).2 ∧
        Balanced (k.releaseMapping handle kind).2 rest') := by
  unfold Store.releaseMapping
  split
  · next hnone => exact .inl ⟨rfl, rfl, hnone⟩
  obtain ⟨hone, hbalanced, hsettles⟩ := h.releaseObject hheld hrest
  refine .inr ⟨?_, hsettles, hbalanced⟩
  rw [hone]
  decide

end Calls

end Store

end Ostadix.MemoryObject
