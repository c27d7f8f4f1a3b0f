import Ostadix.CapabilityChanges

/-! Every public call keeps the capability tables valid, and a refused one leaves them as they were.
-/

namespace Ostadix.Capability

open TaggedHandle Finset CspaceState Capabilities Function

/-! ## Counting -/

/-- Replacing one entry changes a sum over all entries by the difference. -/
lemma sum_update {ι α : Type} [Fintype ι] [DecidableEq ι] (w : α → ℕ) (f : ι → α) (i : ι)
    (a : α) : ∑ x, w (update f i a x) + w (f i) = ∑ x, w (f x) + w a := by
  have hrest : ∑ x ∈ univ.erase i, w (update f i a x) =
      ∑ x ∈ univ.erase i, w (f x) := by
    apply sum_congr rfl
    intro x hx
    rw [update_of_ne (ne_of_mem_erase hx)]
  rw [← add_sum_erase _ _ (mem_univ i), hrest, update_self,
    ← add_sum_erase _ (fun x => w (f x)) (mem_univ i)]
  omega

lemma transactionRefs_setSlot (c : Cspace) (s : Fin capabilitiesPerCspace) (slot : Slot) :
    (c.setSlot s slot).transactionRefs + (c.slots s).transaction =
      c.transactionRefs + slot.transaction :=
  sum_update Slot.transaction c.slots s slot

variable {a : UInt32} {slot : Slot} {state : SlotState} {c : Cspace} {t : Capabilities}

lemma toNat_succ (h : a ≠ 0xffffffff) : (a + 1).toNat = a.toNat + 1 := by
  have hne : a.toNat ≠ 0xffffffff := fun heq => h (UInt32.toNat_inj.1 heq)
  have hlt := a.toNat_lt
  rw [UInt32.toNat_add]
  exact Nat.mod_eq_of_lt (by simp only [UInt32.toNat_one]; omega)

lemma toNat_pred (h : a ≠ 0) : (a - 1).toNat = a.toNat - 1 := by
  have hpos : 1 ≤ a.toNat := Nat.one_le_iff_ne_zero.2 fun heq => h (UInt32.toNat_inj.1 heq)
  rw [UInt32.toNat_sub_of_le]
  · rfl
  · exact hpos

/-! ## One CSpace -/

namespace Cspace

variable {c : Cspace}

/-- The invariant with the counters as numbers. -/
lemma invariantsHold_iff : c.InvariantsHold ↔
    cspaceHeaderValid c.state.code c.generation c.childRefs ∧
      (∀ s, cspaceSlotStateAllowed c.state.code (c.slots s).occupied.code ∧
        (c.slots s).ShapeValid) ∧
      c.childRefs.toNat = c.leaseRefs.toNat + c.transactionRefs := by
  unfold InvariantsHold
  refine and_congr_right fun _ => and_congr_right fun _ => ?_
  rw [UInt32.le_iff_toNat_le]
  constructor
  · rintro ⟨hle, hsub⟩
    rw [UInt32.toNat_sub_of_le _ _ hle] at hsub
    omega
  · intro heq
    have hle : c.leaseRefs.toNat ≤ c.childRefs.toNat := by omega
    refine ⟨hle, ?_⟩
    rw [UInt32.toNat_sub_of_le _ _ hle]
    omega

lemma header_of_inUse (hstate : c.state = .live ∨ c.state = .draining) {childRefs : UInt32} :
    cspaceHeaderValid c.state.code c.generation childRefs ↔ GenerationIsLive c.generation := by
  rcases hstate with hstate | hstate <;> simp [cspaceHeaderValid, hstate, code]

/-- A slot of a CSpace in use is replaced, and the transactions are counted again. -/
lemma InvariantsHold.setSlot (h : c.InvariantsHold)
    (hstate : c.state = .live ∨ c.state = .draining) {s : Fin capabilitiesPerCspace} {slot : Slot}
    {childRefs : UInt32} (hallowed : cspaceSlotStateAllowed c.state.code slot.occupied.code)
    (hshape : slot.ShapeValid) (hcount : childRefs.toNat + (c.slots s).transaction =
      c.childRefs.toNat + slot.transaction) :
    ({ c.setSlot s slot with childRefs } : Cspace).InvariantsHold := by
  obtain ⟨hheader, hslots, hrefs⟩ := invariantsHold_iff.1 h
  refine invariantsHold_iff.2 ⟨?_, fun x => ?_, ?_⟩
  · exact (header_of_inUse hstate).2 ((header_of_inUse hstate).1 hheader)
  · by_cases hx : x = s
    · subst hx
      simp only [Cspace.setSlot, update_self]
      exact ⟨hallowed, hshape⟩
    · simp only [Cspace.setSlot, update_of_ne hx]
      exact hslots x
  · have htotal := transactionRefs_setSlot c s slot
    change childRefs.toNat = c.leaseRefs.toNat + (c.setSlot s slot).transactionRefs
    omega

end Cspace

lemma transaction_of_occupied :
    slot.transaction = match slot.occupied with
      | .reserved | .closing => 1
      | _ => 0 := by
  unfold Slot.transaction
  cases slot.occupied <;> rfl

lemma Metadata.Admissible.shapeValid {metadata : Metadata} (h : metadata.Admissible)
    {g : UInt32} (hg : GenerationIsLive g) : (⟨metadata, g, .live⟩ : Slot).ShapeValid :=
  ⟨hg, h.object, h.permitted, h.rights, h.attenuated⟩

lemma Cleared.shapeValid (h : Cleared slot) : slot.ShapeValid := by
  unfold Slot.ShapeValid
  rcases h.state with ⟨hoccupied, hlive⟩ | ⟨hoccupied, hretired⟩
  · rw [hoccupied]
    exact ⟨hlive, h.metadata⟩
  · rw [hoccupied]
    exact ⟨hretired, h.metadata⟩

lemma Cleared.transaction (h : Cleared slot) : slot.transaction = 0 := by
  rw [transaction_of_occupied]
  rcases h.state with ⟨hoccupied, -⟩ | ⟨hoccupied, -⟩ <;> rw [hoccupied]

lemma Cleared.allowed (h : Cleared slot) {state : CspaceState}
    (hstate : state = .live ∨ state = .draining ∨ state = .empty) :
    cspaceSlotStateAllowed state.code slot.occupied.code := by
  rcases h.state with ⟨hoccupied, -⟩ | ⟨hoccupied, -⟩ <;> rw [hoccupied] <;>
    rcases hstate with rfl | rfl | rfl <;> decide

/-- The shape of a slot does not depend on whether its capability is being closed. -/
lemma ShapeValid.of_occupied (h : slot.ShapeValid)
    (hstate : slot.occupied = .empty ∧ state = .reserved ∨
      slot.occupied = .live ∧ state = .closing ∨ slot.occupied = .closing ∧ state = .live) :
    ({ slot with occupied := state } : Slot).ShapeValid := by
  unfold Slot.ShapeValid at h ⊢
  rcases hstate with ⟨hold, rfl⟩ | ⟨hold, rfl⟩ | ⟨hold, rfl⟩ <;> rw [hold] at h <;> exact h

lemma allowed_live (h : cspaceSlotStateAllowed CspaceState.empty.code state.code) :
    cspaceSlotStateAllowed live.code state.code := by
  revert h
  cases state <;> decide

lemma allowed_of_live {state : CspaceState} (h : state = .live) (slotState : SlotState) :
    cspaceSlotStateAllowed state.code slotState.code := by
  rw [h]
  cases slotState <;> decide

lemma allowed_draining (h : state ≠ .reserved) :
    cspaceSlotStateAllowed draining.code state.code := by
  revert h
  cases state <;> decide

lemma toNat_pred_of_lt {b : UInt32} (h : a < b) : (b - 1).toNat + 1 = b.toNat := by
  have hlt := UInt32.lt_iff_toNat_lt.1 h
  have hne : b ≠ 0 := by
    rintro rfl
    exact absurd hlt (Nat.not_lt_zero _)
  rw [toNat_pred hne]
  omega

lemma Change.invariantsHold {c' : Cspace} {owner : UInt64} {mark : Mark}
    (hchange : Change c owner c' mark) (h : c.InvariantsHold) : c'.InvariantsHold := by
  obtain ⟨hheader, hslots, hrefs⟩ := Cspace.invariantsHold_iff.1 h
  cases hchange with
  | create hstate hchild hlease hlive =>
    refine Cspace.invariantsHold_iff.2 ⟨?_, fun s => ?_, hrefs⟩
    · simpa [cspaceHeaderValid, code] using hlive
    · have hallowed := (hslots s).1
      rw [hstate] at hallowed
      exact ⟨allowed_live hallowed, (hslots s).2⟩
  | retain hstate hchild hlease =>
    refine Cspace.invariantsHold_iff.2 ⟨?_, hslots, ?_⟩
    · exact (Cspace.header_of_inUse (.inl hstate)).2
        ((Cspace.header_of_inUse (.inl hstate)).1 hheader)
    have htotal : (c.childRefs + 1).toNat = (c.leaseRefs + 1).toNat + c.transactionRefs := by
      rw [toNat_succ hchild, toNat_succ hlease]
      omega
    exact htotal
  | release hstate hchild hlease =>
    refine Cspace.invariantsHold_iff.2 ⟨?_, hslots, ?_⟩
    · exact (Cspace.header_of_inUse hstate).2 ((Cspace.header_of_inUse hstate).1 hheader)
    have hpos : c.leaseRefs.toNat ≠ 0 := fun heq => hlease (UInt32.toNat_inj.1 heq)
    have htotal : (c.childRefs - 1).toNat = (c.leaseRefs - 1).toNat + c.transactionRefs := by
      rw [toNat_pred hchild, toNat_pred hlease]
      omega
    exact htotal
  | drain hstate hreserved =>
    refine Cspace.invariantsHold_iff.2
      ⟨?_, fun s => ⟨allowed_draining (hreserved s), (hslots s).2⟩, hrefs⟩
    have hlive := (Cspace.header_of_inUse (.inl hstate)).1 hheader
    simpa [cspaceHeaderValid, code] using hlive
  | @reserve s hstate hchild hfree =>
    refine h.setSlot (.inl hstate) (allowed_of_live hstate _)
      (ShapeValid.of_occupied (hslots s).2 (.inl ⟨hfree.1, rfl⟩)) ?_
    rw [transaction_of_occupied, transaction_of_occupied, hfree.1, toNat_succ hchild]
    rfl
  | @publish s metadata hstate hoccupied hlive hadmissible hlt =>
    refine h.setSlot (.inl hstate) (allowed_of_live hstate _) (hadmissible.shapeValid hlive) ?_
    rw [transaction_of_occupied, transaction_of_occupied, hoccupied]
    exact toNat_pred_of_lt hlt
  | @withdraw s slot hstate hoccupied hlive hlt hclear =>
    obtain ⟨hcleared, -⟩ := clearAndAdvance_of_live hlive hclear
    refine h.setSlot (.inl hstate) (hcleared.allowed (.inl hstate)) hcleared.shapeValid ?_
    rw [hcleared.transaction, transaction_of_occupied, hoccupied]
    exact toNat_pred_of_lt hlt
  | @install s metadata hstate hfree hadmissible =>
    refine h.setSlot (.inl hstate) (allowed_of_live hstate _)
      (hadmissible.shapeValid hfree.2.1) ?_
    rw [transaction_of_occupied, transaction_of_occupied, hfree.1]
  | @beginClose s hstate hoccupied hlive hchild =>
    refine h.setSlot (.inl hstate) (allowed_of_live hstate _)
      (ShapeValid.of_occupied (hslots s).2 (.inr (.inl ⟨hoccupied, rfl⟩))) ?_
    rw [transaction_of_occupied, transaction_of_occupied, hoccupied, toNat_succ hchild]
    rfl
  | @abortClose s hstate hoccupied hlive hlt =>
    have hallowed : cspaceSlotStateAllowed c.state.code SlotState.live.code := by
      rcases hstate with hstate | hstate <;> rw [hstate] <;> decide
    refine h.setSlot hstate hallowed
      (ShapeValid.of_occupied (hslots s).2 (.inr (.inr ⟨hoccupied, rfl⟩))) ?_
    rw [transaction_of_occupied, transaction_of_occupied, hoccupied]
    exact toNat_pred_of_lt hlt
  | @commitClose s slot hstate hoccupied hlive hlt hclear =>
    obtain ⟨hcleared, -⟩ := clearAndAdvance_of_live hlive hclear
    refine h.setSlot hstate (hcleared.allowed (hstate.imp_right .inl)) hcleared.shapeValid ?_
    rw [hcleared.transaction, transaction_of_occupied, hoccupied]
    exact toNat_pred_of_lt hlt
  | @close s slot hstate hoccupied hlive hclear =>
    obtain ⟨hcleared, -⟩ := clearAndAdvance_of_live hlive hclear
    refine h.setSlot hstate (hcleared.allowed (hstate.imp_right .inl)) hcleared.shapeValid ?_
    rw [hcleared.transaction, transaction_of_occupied, hoccupied]
  | @destroy slots hstate hlive hchild hslotsFree hvalid hgivenUp =>
    refine Cspace.invariantsHold_iff.2 ⟨?_, fun s => ⟨?_, (hgivenUp s).cleared.shapeValid⟩, ?_⟩
    · rcases (retireOrAdvance_of_live hlive).2 with hnext | hnext
      · have hne : retireOrAdvance c.generation ≠ generationRetired := by
          intro heq
          rw [heq] at hnext
          exact absurd hnext (by decide)
        simpa [cspaceHeaderValid, code, hne] using hnext
      · simp [cspaceHeaderValid, code, hnext]
    · dsimp only
      split
      · next hnext =>
        rw [(hgivenUp s).retired hnext]
        decide
      · exact (hgivenUp s).cleared.allowed (.inr (.inr rfl))
    · have hzero : ∀ s, (slots s).transaction = 0 := fun s => (hgivenUp s).cleared.transaction
      simp [Cspace.transactionRefs, hzero]

/-! ## All CSpaces -/

lemma invariantsHold_setCspace (h : t.InvariantsHold) {i : Fin maxCspaces} (hc : c.InvariantsHold) :
    (t.setCspace i c).InvariantsHold := by
  refine ⟨h.1, fun x => ?_⟩
  by_cases hx : x = i
  · subst hx
    simpa [setCspace] using hc
  · simpa [setCspace, update_of_ne hx] using h.2 x

lemma invariantsHold_perform (h : t.InvariantsHold) (call : Call) :
    (t.perform call).2.InvariantsHold ∧ ((t.perform call).1 = 0 → (t.perform call).2 = t) := by
  rcases perform_cases h.1 call with (heq | ⟨i, c', result, hne, heq, hchange⟩) | ⟨-, -, heq⟩
  · rw [heq]
    exact ⟨h, fun _ => rfl⟩
  · rw [heq]
    exact ⟨invariantsHold_setCspace h (hchange.invariantsHold (h.2 i)),
      fun hzero => absurd hzero hne⟩
  · rw [heq]
    exact ⟨invariantsHold_tested, nofun⟩

/-- Nothing of a CSpace that is destroyed was still in use. -/
lemma unused_of_destroyCspace {handle : UInt64} (h : (t.destroyCspace handle).1 ≠ 0) :
    ∃ i, t.checkedCspaceOwner handle = some i ∧ (t.cspaces i).leaseRefs = 0 ∧
      ∀ s, (t.slotAt i s).occupied = .empty ∨ (t.slotAt i s).occupied = .retired := by
  unfold destroyCspace at h
  split at h
  · exact absurd rfl h
  rename_i i hi
  dsimp only at h
  split at h
  · exact absurd rfl h
  rename_i hguard
  push Not at hguard
  obtain ⟨hchild, hslots, hvalid⟩ := hguard
  obtain ⟨-, -, hrefs⟩ := Cspace.invariantsHold_iff.1 (hvalid.2 i)
  rw [hchild] at hrefs
  have hnone : (t.cspaces i).transactionRefs = 0 := by
    have hzero : (0 : UInt32).toNat = 0 := rfl
    omega
  have hlease : (t.cspaces i).leaseRefs.toNat = 0 := by
    have hzero : (0 : UInt32).toNat = 0 := rfl
    omega
  refine ⟨i, hi, UInt32.toNat_inj.1 hlease, fun s => ?_⟩
  have hlive := liveSlots_eq_zero.1 hslots s
  have htransaction : ((t.cspaces i).slots s).transaction = 0 := by
    have hall := sum_eq_zero_iff.1 hnone
    exact hall s (mem_univ s)
  rw [transaction_of_occupied] at htransaction
  rw [slotAt]
  revert hlive htransaction
  cases ((t.cspaces i).slots s).occupied <;> simp

/-- The references of a CSpace beyond its leases are its reservations and open closes. -/
def RefsExact (c : Cspace) : Prop :=
  c.leaseRefs ≤ c.childRefs ∧ c.childRefs.toNat - c.leaseRefs.toNat =
    (univ.filter fun s => (c.slots s).occupied = .reserved ∨
      (c.slots s).occupied = .closing).card

lemma refsExact_of_invariantsHold (h : c.InvariantsHold) : RefsExact c := by
  obtain ⟨-, -, hle, -⟩ := id h
  obtain ⟨-, -, hrefs⟩ := Cspace.invariantsHold_iff.1 h
  refine ⟨hle, ?_⟩
  rw [card_filter]
  have hsum : c.transactionRefs = ∑ s, if (c.slots s).occupied = .reserved ∨
      (c.slots s).occupied = .closing then 1 else 0 := rfl
  omega

/-- Initialization makes the tables valid and public calls keep them so; a refused call changes
nothing, and only a CSpace without anything in use is destroyed. -/
theorem calls_keep_tables_valid :
    (∀ t : Capabilities, t.initialized = false → t.init.1 = 1 ∧ t.init.2.InvariantsHold) ∧
      ∀ t : Capabilities, t.InvariantsHold → (∀ i, RefsExact (t.cspaces i)) ∧ ∀ call,
        (t.perform call).2.InvariantsHold ∧
        ((t.perform call).1 = 0 → (t.perform call).2 = t) ∧
        ∀ handle, call = .destroyCspace handle → (t.perform call).1 ≠ 0 →
          ∃ i, t.checkedCspaceOwner handle = some i ∧ (t.cspaces i).leaseRefs = 0 ∧
            ∀ s, (t.slotAt i s).occupied = .empty ∨ (t.slotAt i s).occupied = .retired := by
  constructor
  · intro t ht
    rw [init_eq ht]
    exact ⟨rfl, by decide +kernel⟩
  · intro t h
    refine ⟨fun i => refsExact_of_invariantsHold (h.2 i), fun call => ?_⟩
    obtain ⟨hvalid, hrefused⟩ := invariantsHold_perform h call
    refine ⟨hvalid, hrefused, ?_⟩
    rintro handle rfl hne
    exact unused_of_destroyCspace hne

/-- Tables that have not been initialized, and a CSpace destroyed right after. -/
theorem calls_keep_tables_valid_boot :
    (⟨booted.cspaces, false, false⟩ : Capabilities).init.1 = 1 ∧
      booted.InvariantsHold ∧
      (booted.perform (.destroyCspace 0x1c1000001)).1 = 1 ∧
      (booted.perform (.destroyCspace 0x1c1000001)).2.InvariantsHold := by
  have hvalid : booted.InvariantsHold := by decide +kernel
  exact ⟨(calls_keep_tables_valid.1 _ rfl).1, hvalid, by decide +kernel,
    ((calls_keep_tables_valid.2 _ hvalid).2 (.destroyCspace 0x1c1000001)).1⟩

end Ostadix.Capability
