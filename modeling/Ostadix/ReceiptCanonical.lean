import Ostadix.Receipt

/-! What the constructors of receipts return: the arrangement with increasing keys. -/

namespace Ostadix.Receipt

open Wire

/-! ## Sorting by identity -/

def identityBytes (record : IdentityWireRecord) : Bytes := record.encode.toOption.getD []

lemma encode_identity (record : IdentityWireRecord) :
    record.encode = .ok (identityBytes record) := by
  obtain ⟨bs, hbs, -⟩ := record.fits_encode
  rw [identityBytes, hbs]
  rfl

lemma identityKey_eq (record : IdentityWireRecord) :
    identityKey record = .ok (identityBytes record) := by
  rw [identityKey, encode_identity]
  rfl

lemma mapM_ok {α β ε : Type} {f : α → Except ε β} {g : α → β} (h : ∀ a, f a = .ok (g a))
    (l : List α) : l.mapM f = .ok (l.map g) := by
  induction l with
  | nil => rfl
  | cons a l ih =>
    rw [List.mapM_cons, h a, ih]
    rfl

/-- The keys are distinct when no two neighbours agree after sorting. -/
lemma sortIdentityEntries_eq_ok {α : Type} {record : α → IdentityWireRecord}
    {entries sorted : List α} :
    sortIdentityEntries (fun entry => identityKey (record entry)) entries = .ok sorted ↔
      sorted.Perm entries ∧ sorted.Pairwise
        (fun a b => byteOrder (identityBytes (record a)) <
          byteOrder (identityBytes (record b))) := by
  have hkeys := mapM_ok (fun entry : α => identityKey_eq (record entry)) entries
  have hsort : entries.insertionSort
      (fun a b => keyLe (identityKey (record a)) (identityKey (record b))) =
      sortBy (fun entry => byteOrder (identityBytes (record entry))) entries := by
    have hrel : (fun a b => keyLe (identityKey (record a)) (identityKey (record b))) =
        fun a b => byteOrder (identityBytes (record a)) ≤ byteOrder (identityBytes (record b)) := by
      funext a b
      rw [identityKey_eq, identityKey_eq]
      rfl
    simp only [sortBy, hrel]
  have hadjacent : anyAdjacent (fun a b => a = b)
        (sortBy byteOrder (entries.map fun entry => identityBytes (record entry))) = false ↔
      anyAdjacent (fun a b : α => decide (byteOrder (identityBytes (record a)) =
          byteOrder (identityBytes (record b))))
        (sortBy (fun entry => byteOrder (identityBytes (record entry))) entries) = false := by
    rw [← map_sortBy (fun entry => identityBytes (record entry)),
      anyAdjacent_eq_false_iff (f := byteOrder)
        (fun a b => by rw [decide_eq_true_iff, byteOrder_injective.eq_iff]),
      anyAdjacent_eq_false_iff (fun a b => decide_eq_true_iff) (pairwise_sortBy _ entries),
      List.pairwise_map]
    rw [map_sortBy]
    exact pairwise_sortBy _ _
  rw [sortIdentityEntries, hkeys]
  change (ensure _ _ >>= fun _ => _) = _ ↔ _
  rw [bind_eq_ok]
  simp only [ensure_eq_ok, exists_const, hadjacent, hsort]
  rw [← sortBy_strict_iff (fun a b => decide_eq_true_iff)]
  constructor
  · rintro ⟨hdistinct, hret⟩
    cases hret
    exact ⟨rfl, hdistinct⟩
  · rintro ⟨rfl, hdistinct⟩
    exact ⟨hdistinct, rfl⟩

/-! ## Capabilities and placements -/

lemma CapabilityFields.construct_eq_ok {given result : CapabilityFields} :
    given.construct = .ok result ↔
      (result.rights ≠ [] ∧ result.rights.length ≤ maxReceiptRights ∧
        result.rights.Pairwise fun a b => textOrder a.value < textOrder b.value) ∧
      result.capability = given.capability ∧ result.rights.Perm given.rights := by
  have hsame : ∀ a b : ReceiptRight,
      (decide (a = b) : Bool) ↔ textOrder a.value = textOrder b.value := by
    intro a b
    rw [decide_eq_true_iff]
    constructor
    · rintro rfl
      rfl
    · intro h
      exact Checked.ext (textOrder_injective h)
  simp only [construct, bind_eq_ok, ensure_eq_ok, exists_const]
  constructor
  · rintro ⟨⟨hne, hlen⟩, hdistinct, hret⟩
    cases hret
    obtain ⟨hperm, hstrict⟩ := (sortBy_strict_iff hsame).1 ⟨rfl, hdistinct⟩
    refine ⟨⟨?_, hperm.length_eq.trans_le hlen, hstrict⟩, rfl, hperm⟩
    intro hnil
    exact hne (List.perm_nil.1 (hnil ▸ hperm.symm))
  · rintro ⟨⟨hne, hlen, hstrict⟩, hcapability, hperm⟩
    obtain ⟨hsorted, hdistinct⟩ := (sortBy_strict_iff hsame).2 ⟨hperm, hstrict⟩
    refine ⟨⟨?_, hperm.length_eq.symm.trans_le hlen⟩, ?_, ?_⟩
    · intro hnil
      exact hne (List.perm_nil.1 (hnil ▸ hperm))
    · rw [hsorted]
      exact hdistinct
    · rw [hsorted, ← hcapability]
      rfl

lemma rejectionKey_eq_iff (a b : PlacementRejection) :
    rejectionKey a = rejectionKey b ↔ a.value.node = b.value.node := by
  constructor
  · intro h
    obtain ⟨hworld, hrest⟩ := Prod.mk.inj (toLex.injective h)
    obtain ⟨hnode, hgeneration⟩ := Prod.mk.inj (toLex.injective hrest)
    have hworld := Checked.ext (textOrder_injective hworld)
    have hnode := Checked.ext (textOrder_injective hnode)
    have hgeneration := Checked.ext (UInt64.toNat_inj.1 hgeneration)
    exact (NodeIdentity.mk.injEq ..).mpr ⟨hworld, hnode, hgeneration⟩
  · intro h
    rw [rejectionKey, rejectionKey, h]

lemma PlacementFields.construct_eq_ok {given result : PlacementFields} :
    given.construct = .ok result ↔
      ((result.domain.node = result.node ∧
          ∀ process ∈ result.process, process.domain = result.domain) ∧
        result.rejected.length ≤ maxReceiptRejections ∧
        (∀ entry ∈ result.rejected, entry.value.node ≠ result.node) ∧
        result.rejected.Pairwise fun a b => rejectionKey a < rejectionKey b) ∧
      (result.node = given.node ∧ result.domain = given.domain ∧ result.process = given.process ∧
        result.rejected.Perm given.rejected) := by
  have hsame : ∀ a b : PlacementRejection,
      (decide (a.value.node = b.value.node) : Bool) ↔ rejectionKey a = rejectionKey b := by
    intro a b
    rw [decide_eq_true_iff, rejectionKey_eq_iff]
  simp only [construct, enforceLimit, bind_eq_ok, ensure_eq_ok, exists_const, not_or,
    List.any_eq_true, decide_eq_true_iff, not_exists, not_and, Bool.not_eq_true]
  constructor
  · rintro ⟨hnested, hlen, ⟨hother, hdistinct⟩, hret⟩
    cases hret
    obtain ⟨hperm, hstrict⟩ := (sortBy_strict_iff hsame).1 ⟨rfl, hdistinct⟩
    exact ⟨⟨hnested, hperm.length_eq.trans_le hlen, hother, hstrict⟩, rfl, rfl, rfl, hperm⟩
  · rintro ⟨⟨hnested, hlen, hother, hstrict⟩, hnode, hdomain, hprocess, hperm⟩
    obtain ⟨hsorted, hdistinct⟩ := (sortBy_strict_iff hsame).2 ⟨hperm, hstrict⟩
    rw [hsorted, ← hnode, ← hdomain, ← hprocess]
    exact ⟨hnested, hperm.length_eq.symm.trans_le hlen, ⟨hother, hdistinct⟩, rfl⟩

/-! ## Receipts -/

lemma componentKey_eq_iff (a b : ComponentObservation) :
    (a.value.kind = b.value.kind && a.value.identity = b.value.identity &&
      a.value.generation = b.value.generation : Bool) ↔ componentKey a = componentKey b := by
  simp only [componentKey, EmbeddingLike.apply_eq_iff_eq, Prod.mk.injEq, Bool.and_eq_true,
    decide_eq_true_iff, textOrder_injective.eq_iff, UInt64.toNat_inj, UInt8.toNat_inj, and_assoc]
  refine and_congr_left' ⟨fun h => by rw [h], fun h => ?_⟩
  revert h
  cases a.value.kind <;> cases b.value.kind <;> decide

lemma capsuleKey_eq_iff (a b : CapsuleObservation) :
    (a.value.digest = b.value.digest && a.value.evaluator = b.value.evaluator : Bool) ↔
      capsuleKey a = capsuleKey b := by
  simp only [capsuleKey, EmbeddingLike.apply_eq_iff_eq, Prod.mk.injEq, Bool.and_eq_true,
    decide_eq_true_iff, textOrder_injective.eq_iff, Checked.ext_iff]

namespace ReceiptFields

/-- The checks that do not depend on the order of the entries. -/
structure Admissible (r : ReceiptFields) : Prop where
  limits : r.enforceLimits = .ok ()
  world : r.NamesWorld r.context.value.world.world
  attempt : ∀ checkpoint ∈ r.checkpoints,
    checkpoint.value.checkpoint.attempt = r.context.value.attempt
  terminal : r.terminal.validate = .ok ()
  commit : r.commit.validate r.context.value.governor = .ok ()

structure Arranged (r : ReceiptFields) : Prop where
  components : r.components.Pairwise fun a b => componentKey a < componentKey b
  capabilities : r.capabilities.Pairwise fun a b =>
    byteOrder (identityBytes (.capability a.value.capability)) <
      byteOrder (identityBytes (.capability b.value.capability))
  objects : r.objects.Pairwise fun a b =>
    byteOrder (identityBytes (.object a.value.object)) <
      byteOrder (identityBytes (.object b.value.object))
  capsules : r.capsules.Pairwise fun a b => capsuleKey a < capsuleKey b
  effects : r.effects.Pairwise fun a b =>
    byteOrder (identityBytes (.resource a.value.resource)) <
      byteOrder (identityBytes (.resource b.value.resource))
  checkpoints : r.checkpoints.Pairwise fun a b =>
    byteOrder (identityBytes (.checkpoint a.value.checkpoint)) <
      byteOrder (identityBytes (.checkpoint b.value.checkpoint))

/-- The two differ in the order of their observations only. -/
structure Rearranged (r s : ReceiptFields) : Prop where
  context : r.context = s.context
  subject : r.subject = s.subject
  components : r.components.Perm s.components
  capabilities : r.capabilities.Perm s.capabilities
  objects : r.objects.Perm s.objects
  capsules : r.capsules.Perm s.capsules
  effects : r.effects.Perm s.effects
  checkpoints : r.checkpoints.Perm s.checkpoints
  terminal : r.terminal = s.terminal
  commit : r.commit = s.commit
  evidence : r.evidence = s.evidence

lemma Rearranged.refl (r : ReceiptFields) : r.Rearranged r :=
  ⟨rfl, rfl, .refl _, .refl _, .refl _, .refl _, .refl _, .refl _, rfl, rfl, rfl⟩

variable {r result s : ReceiptFields}

lemma Rearranged.symm (h : r.Rearranged s) : s.Rearranged r :=
  ⟨h.context.symm, h.subject.symm, h.components.symm, h.capabilities.symm, h.objects.symm,
    h.capsules.symm, h.effects.symm, h.checkpoints.symm, h.terminal.symm, h.commit.symm,
    h.evidence.symm⟩

lemma Rearranged.trans {t : ReceiptFields} (h : r.Rearranged s) (h' : s.Rearranged t) :
    r.Rearranged t :=
  ⟨h.context.trans h'.context, h.subject.trans h'.subject, h.components.trans h'.components,
    h.capabilities.trans h'.capabilities, h.objects.trans h'.objects,
    h.capsules.trans h'.capsules, h.effects.trans h'.effects, h.checkpoints.trans h'.checkpoints,
    h.terminal.trans h'.terminal, h.commit.trans h'.commit, h.evidence.trans h'.evidence⟩

lemma Rearranged.admissible (h : r.Rearranged s) (hr : r.Admissible) : s.Admissible := by
  obtain ⟨hlimits, hworld, hattempt, hterminal, hcommit⟩ := hr
  constructor
  · simp only [enforceLimits] at hlimits ⊢
    rw [← h.components.length_eq, ← h.capabilities.length_eq, ← h.objects.length_eq,
      ← h.capsules.length_eq, ← h.effects.length_eq, ← h.checkpoints.length_eq]
    exact hlimits
  · rw [← h.context]
    obtain ⟨h1, h2, h3, h4, h5, h6⟩ := hworld
    exact ⟨fun e he => h1 e (h.capabilities.mem_iff.2 he),
      fun e he => h2 e (h.objects.mem_iff.2 he),
      fun e he => h3 e (h.capsules.mem_iff.2 he), fun e he => h4 e (h.effects.mem_iff.2 he),
      fun e he => h5 e (h.checkpoints.mem_iff.2 he), by rw [← h.context]; exact h6⟩
  · rw [← h.context]
    exact fun e he => hattempt e (h.checkpoints.mem_iff.2 he)
  · rw [← h.terminal]
    exact hterminal
  · rw [← h.context, ← h.commit]
    exact hcommit

/-- The constructor returns the arrangement of an admissible receipt in canonical order. -/
lemma construct_eq_ok {given : ReceiptFields} :
    given.construct = .ok result ↔
      result.Admissible ∧ result.Arranged ∧ result.Rearranged given := by
  simp only [construct, rejectAdjacentDuplicates, bind_eq_ok, ensure_eq_ok, exists_const,
    forM_eq_ok, sortIdentityEntries_eq_ok]
  constructor
  · rintro ⟨⟨⟩, hlimits, hworld, hattempt, ⟨⟩, hterminal, ⟨⟩, hcommit, hcomponents, capabilities,
      ⟨hcapPerm, hcap⟩, objects, ⟨hobjPerm, hobj⟩, hcapsules, effects, ⟨heffPerm, heff⟩,
      checkpoints, ⟨hcheckPerm, hcheck⟩, hret⟩
    obtain ⟨hcompPerm, hcomp⟩ := (sortBy_strict_iff componentKey_eq_iff).1 ⟨rfl, hcomponents⟩
    obtain ⟨hcapsPerm, hcaps⟩ := (sortBy_strict_iff capsuleKey_eq_iff).1 ⟨rfl, hcapsules⟩
    replace hret := Except.ok.inj hret
    have hsame : result.Rearranged given := by
      subst hret
      exact ⟨rfl, rfl, hcompPerm, hcapPerm, hobjPerm, hcapsPerm, heffPerm, hcheckPerm,
        rfl, rfl, rfl⟩
    have harranged : result.Arranged := by
      subst hret
      exact ⟨hcomp, hcap, hobj, hcaps, heff, hcheck⟩
    exact ⟨hsame.symm.admissible ⟨hlimits, hworld, hattempt, hterminal, hcommit⟩, harranged, hsame⟩
  · rintro ⟨hadmissible, harranged, hsame⟩
    obtain ⟨hlimits, hworld, hattempt, hterminal, hcommit⟩ := hsame.admissible hadmissible
    obtain ⟨hcomponents, hcompDistinct⟩ :=
      (sortBy_strict_iff componentKey_eq_iff).2 ⟨hsame.components, harranged.components⟩
    obtain ⟨hcapsules, hcapsDistinct⟩ :=
      (sortBy_strict_iff capsuleKey_eq_iff).2 ⟨hsame.capsules, harranged.capsules⟩
    rw [hcomponents, hcapsules]
    refine ⟨(), hlimits, hworld, hattempt, (), hterminal, (), hcommit, hcompDistinct,
      _, ⟨hsame.capabilities, harranged.capabilities⟩, _, ⟨hsame.objects, harranged.objects⟩,
      hcapsDistinct, _, ⟨hsame.effects, harranged.effects⟩,
      _, ⟨hsame.checkpoints, harranged.checkpoints⟩, ?_⟩
    rw [← hsame.context, ← hsame.subject, ← hsame.terminal, ← hsame.commit, ← hsame.evidence]
    rfl

lemma construct_eq_ok_of_rearranged (h : r.Rearranged s) :
    r.construct = .ok result ↔ s.construct = .ok result := by
  rw [construct_eq_ok, construct_eq_ok]
  constructor
  · rintro ⟨hadmissible, harranged, hr⟩
    exact ⟨hadmissible, harranged, hr.trans h⟩
  · rintro ⟨hadmissible, harranged, hs⟩
    exact ⟨hadmissible, harranged, hs.trans h.symm⟩

end ReceiptFields

/-! ## Constructed values are constructed from themselves -/

lemma CapabilityObservation.construct_self (observation : CapabilityObservation) :
    observation.value.construct = .ok observation.value := by
  obtain ⟨value, given, hgiven⟩ := observation
  obtain ⟨hvalid, -⟩ := CapabilityFields.construct_eq_ok.1 hgiven
  exact CapabilityFields.construct_eq_ok.2 ⟨hvalid, rfl, .refl _⟩

lemma ReceiptPlacement.construct_self (placement : ReceiptPlacement) :
    placement.value.construct = .ok placement.value := by
  obtain ⟨value, given, hgiven⟩ := placement
  obtain ⟨hvalid, -⟩ := PlacementFields.construct_eq_ok.1 hgiven
  exact PlacementFields.construct_eq_ok.2 ⟨hvalid, rfl, rfl, rfl, .refl _⟩

lemma ExecutionReceipt.construct_self (r : ExecutionReceipt) : r.value.construct = .ok r.value := by
  obtain ⟨value, given, hgiven⟩ := r
  obtain ⟨hadmissible, harranged, -⟩ := ReceiptFields.construct_eq_ok.1 hgiven
  exact ReceiptFields.construct_eq_ok.2 ⟨hadmissible, harranged, .refl _⟩

namespace ReceiptParts

def ofReceipt (r : ExecutionReceipt) : ReceiptParts where
  receipt := r.value.context.value.receipt
  world := r.value.context.value.world
  governor := r.value.context.value.governor
  attempt := r.value.context.value.attempt
  node := r.value.context.value.placement.value.node
  domain := r.value.context.value.placement.value.domain
  process := r.value.context.value.placement.value.process
  rejected := r.value.context.value.placement.value.rejected
  subject := r.value.subject
  components := r.value.components
  capabilities := r.value.capabilities
  objects := r.value.objects
  capsules := r.value.capsules
  effects := r.value.effects
  checkpoints := r.value.checkpoints
  terminal := r.value.terminal
  commit := r.value.commit
  evidence := r.value.evidence

lemma assemble_ofReceipt (r : ExecutionReceipt) : (ofReceipt r).assemble = .ok r := by
  simp only [assemble, bind_eq_ok, Constructed.new_eq_ok, Checked.new_eq_ok]
  exact ⟨_, r.value.context.value.placement.construct_self, r.value.context, rfl, r.construct_self⟩

/-- The two differ in the order of their observations and rejections only. -/
structure Rearranged (p q : ReceiptParts) : Prop where
  receipt : p.receipt = q.receipt
  world : p.world = q.world
  governor : p.governor = q.governor
  attempt : p.attempt = q.attempt
  node : p.node = q.node
  domain : p.domain = q.domain
  process : p.process = q.process
  rejected : p.rejected.Perm q.rejected
  subject : p.subject = q.subject
  components : p.components.Perm q.components
  capabilities : p.capabilities.Perm q.capabilities
  objects : p.objects.Perm q.objects
  capsules : p.capsules.Perm q.capsules
  effects : p.effects.Perm q.effects
  checkpoints : p.checkpoints.Perm q.checkpoints
  terminal : p.terminal = q.terminal
  commit : p.commit = q.commit
  evidence : p.evidence = q.evidence

variable {p q : ReceiptParts}

lemma Rearranged.symm (h : p.Rearranged q) : q.Rearranged p :=
  ⟨h.receipt.symm, h.world.symm, h.governor.symm, h.attempt.symm, h.node.symm, h.domain.symm,
    h.process.symm, h.rejected.symm, h.subject.symm, h.components.symm, h.capabilities.symm,
    h.objects.symm, h.capsules.symm, h.effects.symm, h.checkpoints.symm, h.terminal.symm,
    h.commit.symm, h.evidence.symm⟩

lemma assemble_eq_ok_of_rearranged (h : p.Rearranged q) {r : ExecutionReceipt}
    (hp : p.assemble = .ok r) : q.assemble = .ok r := by
  simp only [assemble, bind_eq_ok, Constructed.new_eq_ok, Checked.new_eq_ok] at hp ⊢
  obtain ⟨placement, hplacement, context, hcontext, hreceipt⟩ := hp
  refine ⟨placement, ?_, context, ?_, ?_⟩
  · obtain ⟨hvalid, hnode, hdomain, hprocess, hrejected⟩ :=
      PlacementFields.construct_eq_ok.1 hplacement
    exact PlacementFields.construct_eq_ok.2 ⟨hvalid, hnode.trans h.node, hdomain.trans h.domain,
      hprocess.trans h.process, hrejected.trans h.rejected⟩
  · rw [hcontext, h.receipt, h.world, h.governor, h.attempt]
  rw [ReceiptFields.construct_eq_ok_of_rearranged] at hreceipt
  · exact hreceipt
  · exact ⟨rfl, h.subject, h.components, h.capabilities, h.objects, h.capsules, h.effects,
      h.checkpoints, h.terminal, h.commit, h.evidence⟩

end ReceiptParts

end Ostadix.Receipt
