import Ostadix.CapabilityInvariant

/-! Handles cannot be forged: what is validated was issued into the same CSpace and is open. -/

namespace Ostadix.Capability

open TaggedHandle List Capabilities

/-! ## Histories -/

/-- The tables after some calls, and what the calls meant, the latest first. -/
structure Run where
  tables : Capabilities
  marks : List Mark

def Run.start : Run := ⟨.booted, []⟩

def Run.step (run : Run) (call : Call) : Run :=
  ⟨(run.tables.perform call).2, call.mark run.tables (run.tables.perform call).1 :: run.marks⟩

def Run.after (calls : List Call) : Run := calls.foldl Run.step .start

/-- A handle issued with this metadata that is open. If `usable`, every close that began was
aborted. -/
def Held (marks : List Mark) (c h : UInt64) (metadata : Metadata) (usable : Prop) : Prop :=
  ∃ later earlier, marks = later ++ .issued c h metadata :: earlier ∧
    .closed c h ∉ later ∧ .destroyed c ∉ later ∧
    (usable → ∀ after before, later = after ++ .closing c h :: before → .reopened c h ∈ after)

lemma held_issued (marks : List Mark) (c h : UInt64) (metadata : Metadata) (usable : Prop) :
    Held (.issued c h metadata :: marks) c h metadata usable :=
  ⟨[], marks, rfl, not_mem_nil, not_mem_nil, fun _ after before h => by simp at h⟩

variable {c : Cspace} {h : UInt64} {mark : Mark} {t : Capabilities}

/-- A later call that does not close the handle keeps it. -/
lemma Held.cons {marks : List Mark} {c : UInt64} {metadata : Metadata} {usable usable' : Prop}
    (hheld : Held marks c h metadata usable) (hclosed : mark ≠ .closed c h)
    (hdestroyed : mark ≠ .destroyed c)
    (husable : usable' → mark = .reopened c h ∨ usable ∧ mark ≠ .closing c h) :
    Held (mark :: marks) c h metadata usable' := by
  obtain ⟨later, earlier, rfl, hlater, hkept, hopen⟩ := hheld
  refine ⟨mark :: later, earlier, rfl, ?_, ?_, fun husable' after before hsplit => ?_⟩
  · simp [hclosed.symm, hlater]
  · simp [hdestroyed.symm, hkept]
  rcases after with _ | ⟨first, after⟩
  · -- The latest call would be the one that begins to close.
    obtain ⟨rfl, -⟩ := List.cons.inj hsplit
    rcases husable husable' with hreopened | ⟨-, hclosing⟩
    · cases hreopened
    · exact absurd rfl hclosing
  · obtain ⟨rfl, hrest⟩ := List.cons.inj hsplit
    rcases husable husable' with rfl | ⟨hbefore, -⟩
    · exact mem_cons_self
    · exact mem_cons_of_mem _ (hopen hbefore after before hrest)

/-! ## What a change does to a slot -/

section Changes

variable {c c' : Cspace} {owner : UInt64} {mark : Mark}

def Cspace.handle (c : Cspace) (s : Fin capabilitiesPerCspace) : UInt64 :=
  make 0 (c.slots s).generation s

/-- What becomes of the capability in a slot. -/
inductive SlotChange (c c' : Cspace) (owner : UInt64) (mark : Mark)
    (s : Fin capabilitiesPerCspace) : Prop where
  | same : c'.slots s = c.slots s → mark ≠ .closed owner (c.handle s) → mark ≠ .destroyed owner →
    mark ≠ .closing owner (c.handle s) → SlotChange c c' owner mark s
  | issued : mark = .issued owner (c'.handle s) (c'.slots s).metadata →
    SlotChange c c' owner mark s
  | closing : mark = .closing owner (c.handle s) →
    c'.slots s = { c.slots s with occupied := .closing } → (c.slots s).occupied = .live →
    SlotChange c c' owner mark s
  | reopened : mark = .reopened owner (c.handle s) →
    c'.slots s = { c.slots s with occupied := .live } → (c.slots s).occupied = .closing →
    SlotChange c c' owner mark s
  | gone : (c'.slots s).occupied ≠ .live → (c'.slots s).occupied ≠ .closing →
    SlotChange c c' owner mark s

variable {s s' : Fin capabilitiesPerCspace} {slot : Slot}

lemma Cspace.handle_ne (h : s ≠ s') : c.handle s ≠ c.handle s' := by
  intro heq
  have hslot := congrArg TaggedHandle.slot heq
  rw [Cspace.handle, Cspace.handle, slot_make _ (index_lt (by decide) s),
    slot_make _ (index_lt (by decide) s')] at hslot
  exact h (Fin.ext hslot)

lemma Cleared.not_used (h : Cleared slot) : slot.occupied ≠ .live ∧ slot.occupied ≠ .closing := by
  rcases h.state with ⟨hoccupied, -⟩ | ⟨hoccupied, -⟩ <;> rw [hoccupied] <;> exact ⟨nofun, nofun⟩

/-- A slot that is not replaced keeps its capability. -/
lemma slotChange_other (h : s' ≠ s) {childRefs : UInt32}
    (hmark : mark = .quiet ∨ (∃ x m, mark = .issued owner x m) ∨
      mark = .closed owner (c.handle s) ∨ mark = .closing owner (c.handle s) ∨
      mark = .reopened owner (c.handle s)) :
    SlotChange c { c.setSlot s slot with childRefs } owner mark s' := by
  have hne := Cspace.handle_ne (c := c) h.symm
  apply SlotChange.same
  · exact Function.update_of_ne h _ _
  all_goals
    rcases hmark with rfl | ⟨x, m, rfl⟩ | rfl | rfl | rfl <;> simp [hne]

lemma Change.slotChange (h : Change c owner c' mark) (s : Fin capabilitiesPerCspace) :
    SlotChange c c' owner mark s := by
  cases h with
  | create | retain | release | drain => exact .same rfl nofun nofun nofun
  | @reserve s₀ =>
    by_cases hs : s = s₀
    · subst hs
      apply SlotChange.gone <;> simp [Cspace.setSlot]
    · exact slotChange_other hs (.inl rfl)
  | @publish s₀ metadata | @install s₀ metadata =>
    by_cases hs : s = s₀
    · subst hs
      apply SlotChange.issued
      simp [Cspace.setSlot, Cspace.handle]
    · exact slotChange_other hs (.inr (.inl ⟨_, _, rfl⟩))
  | @withdraw s₀ slot _ _ hlive _ hclear =>
    by_cases hs : s = s₀
    · subst hs
      have hgone := (clearAndAdvance_of_live hlive hclear).1.not_used
      apply SlotChange.gone <;> simp [Cspace.setSlot, hgone]
    · exact slotChange_other hs (.inl rfl)
  | @beginClose s₀ _ hoccupied =>
    by_cases hs : s = s₀
    · subst hs
      exact .closing rfl (Function.update_self _ _ _) hoccupied
    · exact slotChange_other hs (.inr (.inr (.inr (.inl rfl))))
  | @abortClose s₀ _ hoccupied =>
    by_cases hs : s = s₀
    · subst hs
      exact .reopened rfl (Function.update_self _ _ _) hoccupied
    · exact slotChange_other hs (.inr (.inr (.inr (.inr rfl))))
  | @commitClose s₀ slot _ _ hlive _ hclear | @close s₀ slot _ _ hlive hclear =>
    by_cases hs : s = s₀
    · subst hs
      have hgone := (clearAndAdvance_of_live hlive hclear).1.not_used
      apply SlotChange.gone <;> simp [Cspace.setSlot, hgone]
    · exact slotChange_other hs (.inr (.inr (.inl rfl)))
  | destroy _ _ _ _ _ hgivenUp =>
    have hgone := (hgivenUp s).cleared.not_used
    exact .gone hgone.1 hgone.2

/-! ## Generations only grow -/

lemma toNat_lt_retired {g : UInt32} (h : GenerationIsLive g) : g.toNat < generationRetired.toNat :=
  Nat.lt_of_le_of_lt (generationIsLive_iff.1 h).2 (by decide)

lemma toNat_le_retired (g : UInt32) : g.toNat ≤ generationRetired.toNat :=
  Nat.le_of_lt_succ g.toNat_lt

/-- Replacing a slot by one of a later generation. -/
lemma generation_setSlot_le {s₀ : Fin capabilitiesPerCspace}
    (h : (c.slots s₀).generation.toNat ≤ slot.generation.toNat) (s : Fin capabilitiesPerCspace) :
    (c.slots s).generation.toNat ≤ ((c.setSlot s₀ slot).slots s).generation.toNat := by
  by_cases hs : s = s₀
  · subst hs
    simpa [Cspace.setSlot] using h
  · simp [Cspace.setSlot, Function.update_of_ne hs]

lemma Change.slot_generation_le (h : Change c owner c' mark) (s : Fin capabilitiesPerCspace) :
    (c.slots s).generation.toNat ≤ (c'.slots s).generation.toNat := by
  cases h with
  | create | retain | release | drain => exact le_rfl
  | reserve | publish | install | beginClose | abortClose =>
    refine generation_setSlot_le (c := c) ?_ s
    exact le_rfl
  | withdraw _ _ hlive _ hclear | commitClose _ _ hlive _ hclear | close _ _ hlive hclear =>
    exact generation_setSlot_le (c := c) (clearAndAdvance_of_live hlive hclear).2.le s
  | destroy _ _ _ _ _ hgivenUp =>
    rcases (hgivenUp s).later with hlt | hretired
    · exact hlt.le
    · rw [hretired]
      exact toNat_le_retired _

lemma Change.generation_cases (h : Change c owner c' mark) :
    c'.generation = c.generation ∧ mark ≠ .destroyed owner ∨
      mark = .destroyed owner ∧ c.generation.toNat < c'.generation.toNat ∧
        ∀ s, (c.slots s).generation.toNat < (c'.slots s).generation.toNat ∨
          (c'.slots s).generation = generationRetired := by
  cases h with
  | destroy _ hlive _ _ _ hgivenUp =>
    exact .inr ⟨rfl, (retireOrAdvance_of_live hlive).1, fun s => (hgivenUp s).later⟩
  | _ => exact .inl ⟨rfl, nofun⟩

lemma Change.closed (h : Change c owner c' mark) {x y : UInt64} (hmark : mark = .closed x y) :
    x = owner ∧ ∃ s, y = c.handle s ∧
      (c.slots s).generation.toNat < (c'.slots s).generation.toNat := by
  cases h with
  | @commitClose s slot _ _ hlive _ hclear =>
    cases hmark
    refine ⟨rfl, s, rfl, ?_⟩
    simpa [Cspace.setSlot] using (clearAndAdvance_of_live hlive hclear).2
  | @close s slot _ _ hlive hclear =>
    cases hmark
    refine ⟨rfl, s, rfl, ?_⟩
    simpa [Cspace.setSlot] using (clearAndAdvance_of_live hlive hclear).2
  | _ => cases hmark

lemma Change.issued (h : Change c owner c' mark) {x y : UInt64} {m : Metadata}
    (hmark : mark = .issued x y m) :
    x = owner ∧ c'.generation = c.generation ∧ ∃ s, y = c'.handle s ∧
      GenerationIsLive (c'.slots s).generation := by
  cases h with
  | @publish s metadata _ _ hlive =>
    cases hmark
    exact ⟨rfl, rfl, s, by simp [Cspace.handle, Cspace.setSlot],
      by simpa [Cspace.setSlot] using hlive⟩
  | @install s metadata _ hfree =>
    cases hmark
    exact ⟨rfl, rfl, s, by simp [Cspace.handle, Cspace.setSlot],
      by simpa [Cspace.setSlot] using hfree.2.1⟩
  | _ => cases hmark

end Changes

/-! ## The invariant of a history -/

/-- The index of a CSpace and the slot that the handles name, with the generations they had. -/
structure Named (c h : UInt64) (i : Fin maxCspaces) (s : Fin capabilitiesPerCspace) : Prop where
  cspace : index c = i
  slot : TaggedHandle.slot h = s

/-- What the marks of the past say about the tables. -/
structure Traced (run : Run) : Prop where
  valid : run.tables.InvariantsHold
  held : ∀ i s, (run.tables.slotAt i s).occupied = .live ∨
      (run.tables.slotAt i s).occupied = .closing →
    Held run.marks (run.tables.makeCspaceHandle i) ((run.tables.cspaces i).handle s)
      (run.tables.slotAt i s).metadata ((run.tables.slotAt i s).occupied = .live)
  closed : ∀ c h, .closed c h ∈ run.marks → ∃ i s, Named c h i s ∧
    (generation h).toNat < (run.tables.slotAt i s).generation.toNat
  destroyed : ∀ c, .destroyed c ∈ run.marks → ∃ i : Fin maxCspaces, index c = i ∧
    (generation c).toNat < (run.tables.cspaces i).generation.toNat
  issued : ∀ c h m, .issued c h m ∈ run.marks → ∃ i s, Named c h i s ∧
    (generation c).toNat ≤ (run.tables.cspaces i).generation.toNat ∧
    (generation h).toNat ≤ (run.tables.slotAt i s).generation.toNat ∧
    GenerationIsLive (generation h) ∧
    ((generation c).toNat < (run.tables.cspaces i).generation.toNat →
      (generation h).toNat < (run.tables.slotAt i s).generation.toNat)

lemma traced_start : Traced .start := by
  refine ⟨?_, fun i s h => ?_, nofun, nofun, nofun⟩
  · change booted.InvariantsHold
    decide +kernel
  · rcases h with h | h <;> cases h

lemma mark_zero (t : Capabilities) (call : Call) : call.mark t 0 = .quiet := by
  cases call <;> rfl

section Handles

variable {t : Capabilities} {i : Fin maxCspaces}

lemma index_makeCspaceHandle (h : GenerationIsLive (t.cspaces i).generation) :
    index (t.makeCspaceHandle i) = i := by
  rw [makeCspaceHandle_eq h, index_make isTag_cspaceHandleTag _ (index_lt (by decide) i)]

lemma generation_makeCspaceHandle (h : GenerationIsLive (t.cspaces i).generation) :
    generation (t.makeCspaceHandle i) = (t.cspaces i).generation := by
  rw [makeCspaceHandle_eq h, generation_make isTag_cspaceHandleTag _ (index_lt (by decide) i)]

lemma slot_handle (c : Cspace) (s : Fin capabilitiesPerCspace) :
    TaggedHandle.slot (c.handle s) = s := slot_make _ (index_lt (by decide) s)

lemma generation_handle (c : Cspace) (s : Fin capabilitiesPerCspace) :
    generation (c.handle s) = (c.slots s).generation :=
  generation_make isTag_zero _ (index_lt (by decide) s)

end Handles

lemma makeCspaceHandle_ne {i j : Fin maxCspaces} (h : i ≠ j)
    (hi : GenerationIsLive (t.cspaces i).generation)
    (hj : GenerationIsLive (t.cspaces j).generation) :
    t.makeCspaceHandle i ≠ t.makeCspaceHandle j := by
  intro heq
  have hindex := congrArg index heq
  rw [index_makeCspaceHandle hi, index_makeCspaceHandle hj] at hindex
  exact h (Fin.ext hindex)

/-- The generation of a CSpace is live unless it is retired for good. -/
lemma Cspace.InvariantsHold.live_of_slot (h : c.InvariantsHold) {s : Fin capabilitiesPerCspace}
    (hs : (c.slots s).occupied = .live ∨ (c.slots s).occupied = .closing) :
    c.state = .live ∨ c.state = .draining := by
  have hallowed := (h.2.1 s).1
  rcases hs with hs | hs <;> rw [hs] at hallowed <;> revert hallowed <;> cases c.state <;> decide

lemma Change.inUse {c' : Cspace} {owner : UInt64} (h : Change c owner c' mark) :
    GenerationIsLive c.generation ∨ c.state = .live ∨ c.state = .draining := by
  cases h with
  | create _ _ _ hlive => exact .inl hlive
  | retain h | drain h | reserve h | publish h | withdraw h | install h | beginClose h =>
    exact .inr (.inl h)
  | release h | abortClose h | commitClose h | close h => exact .inr h
  | destroy _ hlive => exact .inl hlive

lemma Cspace.InvariantsHold.generationIsLive (h : c.InvariantsHold)
    (hstate : c.state = .live ∨ c.state = .draining) : GenerationIsLive c.generation :=
  (Cspace.header_of_inUse hstate).1 h.1

def Mark.cspace : Mark → Option UInt64
  | .quiet => none
  | .issued c _ _ | .closed c _ | .closing c _ | .reopened c _ | .destroyed c => some c

lemma Change.cspace {c' : Cspace} {owner x : UInt64} (h : Change c owner c' mark)
    (hmark : mark.cspace = some x) : x = owner := by
  cases h <;> cases hmark <;> rfl

section Step

variable {t : Capabilities} {i : Fin maxCspaces} {c' : Cspace} {mark : Mark} {marks : List Mark}

lemma cspaces_setCspace (j : Fin maxCspaces) :
    (t.setCspace i c').cspaces j = if j = i then c' else t.cspaces j := by
  simp [setCspace, Function.update_apply]

lemma makeCspaceHandle_setCspace {j : Fin maxCspaces}
    (h : ((t.setCspace i c').cspaces j).generation = (t.cspaces j).generation) :
    (t.setCspace i c').makeCspaceHandle j = t.makeCspaceHandle j := by
  unfold makeCspaceHandle
  rw [h]

lemma held_change (htraced : Traced ⟨t, marks⟩)
    (hchange : Change (t.cspaces i) (t.makeCspaceHandle i) c' mark) (j : Fin maxCspaces)
    (s : Fin capabilitiesPerCspace)
    (hs : ((t.setCspace i c').slotAt j s).occupied = .live ∨
      ((t.setCspace i c').slotAt j s).occupied = .closing) :
    Held (mark :: marks) ((t.setCspace i c').makeCspaceHandle j)
      (((t.setCspace i c').cspaces j).handle s) ((t.setCspace i c').slotAt j s).metadata
      (((t.setCspace i c').slotAt j s).occupied = .live) := by
  have hlive : GenerationIsLive (t.cspaces i).generation := by
    rcases hchange.inUse with hlive | hstate
    · exact hlive
    · exact (htraced.valid.2 i).generationIsLive hstate
  by_cases hj : j = i
  · subst hj
    have hcspace : (t.setCspace j c').cspaces j = c' := by rw [cspaces_setCspace, if_pos rfl]
    rw [slotAt, hcspace] at hs ⊢
    -- Unless the CSpace is destroyed, its handle stays the same.
    have hsame : mark ≠ .destroyed (t.makeCspaceHandle j) →
        (t.setCspace j c').makeCspaceHandle j = t.makeCspaceHandle j := by
      intro hne
      apply makeCspaceHandle_setCspace
      rw [hcspace]
      rcases hchange.generation_cases with ⟨heq, -⟩ | ⟨hdestroyed, -⟩
      · exact heq
      · exact absurd hdestroyed hne
    cases hchange.slotChange s with
    | same hslot hclosed hdestroyed hclosing =>
      have hhandle : c'.handle s = (t.cspaces j).handle s := by
        rw [Cspace.handle, hslot]
        rfl
      rw [hsame hdestroyed, hhandle, hslot]
      rw [hslot] at hs
      exact (htraced.held j s hs).cons hclosed hdestroyed fun h => .inr ⟨h, hclosing⟩
    | issued hmark =>
      rw [hmark, hsame (by rw [hmark]; rintro ⟨⟩)]
      exact held_issued _ _ _ _ _
    | closing hmark hslot hwas =>
      have hhandle : c'.handle s = (t.cspaces j).handle s := by
        rw [Cspace.handle, hslot]
        rfl
      rw [hsame (by rw [hmark]; rintro ⟨⟩), hhandle, hslot, hmark]
      exact (htraced.held j s (.inl hwas)).cons (by rintro ⟨⟩) (by rintro ⟨⟩) (by rintro ⟨⟩)
    | reopened hmark hslot hwas =>
      have hhandle : c'.handle s = (t.cspaces j).handle s := by
        rw [Cspace.handle, hslot]
        rfl
      rw [hsame (by rw [hmark]; rintro ⟨⟩), hhandle, hslot, hmark]
      exact (htraced.held j s (.inr hwas)).cons (by rintro ⟨⟩) (by rintro ⟨⟩) fun _ => .inl rfl
    | gone hlive hclosing => exact absurd hs (not_or.2 ⟨hlive, hclosing⟩)
  · have hcspace : (t.setCspace i c').cspaces j = t.cspaces j := by
      rw [cspaces_setCspace, if_neg hj]
    rw [slotAt, hcspace] at hs ⊢
    rw [makeCspaceHandle_setCspace (by rw [hcspace])]
    have hliveJ := (htraced.valid.2 j).generationIsLive ((htraced.valid.2 j).live_of_slot hs)
    have hother : ∀ x, mark.cspace = some x → x ≠ t.makeCspaceHandle j := by
      intro x hx
      rw [hchange.cspace hx]
      exact makeCspaceHandle_ne (Ne.symm hj) hlive hliveJ
    refine (htraced.held j s hs).cons ?_ ?_ fun h => .inr ⟨h, ?_⟩ <;>
    · intro heq
      rw [heq] at hother
      exact hother _ rfl rfl

lemma slotAt_generation_le
    (hchange : Change (t.cspaces i) (t.makeCspaceHandle i) c' mark) (j : Fin maxCspaces)
    (s : Fin capabilitiesPerCspace) : (t.slotAt j s).generation.toNat ≤
      ((t.setCspace i c').slotAt j s).generation.toNat := by
  rw [slotAt, slotAt, cspaces_setCspace]
  split
  · next hj =>
    subst hj
    exact hchange.slot_generation_le s
  · exact le_rfl

lemma cspaces_generation_le
    (hchange : Change (t.cspaces i) (t.makeCspaceHandle i) c' mark) (j : Fin maxCspaces) :
    (t.cspaces j).generation.toNat ≤ ((t.setCspace i c').cspaces j).generation.toNat := by
  rw [cspaces_setCspace]
  split
  · next hj =>
    subst hj
    rcases hchange.generation_cases with ⟨heq, -⟩ | ⟨-, hlt, -⟩
    · rw [heq]
    · exact hlt.le
  · exact le_rfl

lemma Traced.change (htraced : Traced ⟨t, marks⟩)
    (hchange : Change (t.cspaces i) (t.makeCspaceHandle i) c' mark) :
    Traced ⟨t.setCspace i c', mark :: marks⟩ := by
  have hlive : GenerationIsLive (t.cspaces i).generation := by
    rcases hchange.inUse with hlive | hstate
    · exact hlive
    · exact (htraced.valid.2 i).generationIsLive hstate
  have hself : (t.setCspace i c').cspaces i = c' := by rw [cspaces_setCspace, if_pos rfl]
  refine ⟨invariantsHold_setCspace htraced.valid (hchange.invariantsHold (htraced.valid.2 i)),
    held_change htraced hchange, fun c h hmem => ?_, fun c hmem => ?_, fun c h m hmem => ?_⟩
  · rcases mem_cons.1 hmem with heq | hmem
    · obtain ⟨rfl, s, rfl, hlt⟩ := hchange.closed heq.symm
      refine ⟨i, s, ⟨index_makeCspaceHandle hlive, slot_handle _ s⟩, ?_⟩
      rw [generation_handle, slotAt, hself]
      exact hlt
    · obtain ⟨j, s, hnamed, hlt⟩ := htraced.closed c h hmem
      exact ⟨j, s, hnamed, hlt.trans_le (slotAt_generation_le hchange j s)⟩
  · rcases mem_cons.1 hmem with heq | hmem
    · have howner : c = t.makeCspaceHandle i := hchange.cspace (by rw [← heq]; rfl)
      subst howner
      refine ⟨i, index_makeCspaceHandle hlive, ?_⟩
      rw [generation_makeCspaceHandle hlive, hself]
      rcases hchange.generation_cases with ⟨-, hne⟩ | ⟨-, hlt, -⟩
      · exact absurd heq.symm hne
      · exact hlt
    · obtain ⟨j, hindex, hlt⟩ := htraced.destroyed c hmem
      exact ⟨j, hindex, hlt.trans_le (cspaces_generation_le hchange j)⟩
  · rcases mem_cons.1 hmem with heq | hmem
    · obtain ⟨rfl, hgeneration, s, rfl, hslot⟩ := hchange.issued heq.symm
      refine ⟨i, s, ⟨index_makeCspaceHandle hlive, slot_handle _ s⟩, ?_⟩
      rw [generation_makeCspaceHandle hlive, generation_handle, slotAt, hself, hgeneration]
      exact ⟨le_rfl, le_rfl, hslot, fun h => absurd h (lt_irrefl _)⟩
    obtain ⟨j, s, hnamed, hc, hh, hslot, hstale⟩ := htraced.issued c h m hmem
    refine ⟨j, s, hnamed, hc.trans (cspaces_generation_le hchange j),
      hh.trans (slotAt_generation_le hchange j s), hslot, fun hlt => ?_⟩
    by_cases hold : (generation c).toNat < (t.cspaces j).generation.toNat
    · exact (hstale hold).trans_le (slotAt_generation_le hchange j s)
    -- The CSpace has just been destroyed, and all its slots were advanced.
    have heq : (generation c).toNat = (t.cspaces j).generation.toNat :=
      le_antisymm hc (not_lt.1 hold)
    rw [heq, cspaces_setCspace] at hlt
    split at hlt
    · next hj =>
      subst hj
      rcases hchange.generation_cases with ⟨hsame, -⟩ | ⟨-, -, hslots⟩
      · rw [hsame] at hlt
        exact absurd hlt (lt_irrefl _)
      rw [slotAt, hself]
      rcases hslots s with hnext | hretired
      · exact hh.trans_lt hnext
      · rw [hretired]
        exact toNat_lt_retired hslot
    · exact absurd hlt (lt_irrefl _)

end Step

lemma Traced.quiet {t' : Capabilities} {marks : List Mark} (h : Traced ⟨t, marks⟩)
    (hcspaces : t'.cspaces = t.cspaces) (hinit : t'.initialized) :
    Traced ⟨t', .quiet :: marks⟩ := by
  have hslot : ∀ i s, t'.slotAt i s = t.slotAt i s := fun i s => by
    rw [slotAt, hcspaces]
    rfl
  have hhandle : ∀ i, t'.makeCspaceHandle i = t.makeCspaceHandle i := fun i => by
    rw [makeCspaceHandle, hcspaces]
    rfl
  refine ⟨⟨hinit, hcspaces ▸ h.valid.2⟩, fun i s hs => ?_, fun c x hmem => ?_, fun c hmem => ?_,
    fun c x m hmem => ?_⟩
  · simp only [hslot, hhandle, hcspaces] at hs ⊢
    refine (h.held i s hs).cons ?_ ?_ fun husable => .inr ⟨husable, ?_⟩ <;> rintro ⟨⟩
  · simp only [hslot]
    exact h.closed c x ((mem_cons.1 hmem).resolve_left (by rintro ⟨⟩))
  · simp only [hcspaces]
    exact h.destroyed c ((mem_cons.1 hmem).resolve_left (by rintro ⟨⟩))
  · simp only [hslot, hcspaces]
    exact h.issued c x m ((mem_cons.1 hmem).resolve_left (by rintro ⟨⟩))

lemma Traced.step {run : Run} (h : Traced run) (call : Call) : Traced (run.step call) := by
  obtain ⟨t, marks⟩ := run
  unfold Run.step
  rcases perform_cases h.valid.1 call with
    (heq | ⟨i, c', result, -, heq, hchange⟩) | ⟨hbooted, hcall, heq⟩
  · rw [heq, mark_zero]
    exact h.quiet rfl h.valid.1
  · rw [heq]
    exact h.change hchange
  have hbefore : t = .booted := hbooted
  subst hbefore
  rw [heq, hcall]
  exact h.quiet rfl rfl

lemma traced_after (calls : List Call) : Traced (.after calls) := by
  induction calls using List.reverseRecOn with
  | nil => exact traced_start
  | append_singleton calls call ih =>
    rw [Run.after, foldl_append]
    exact ih.step call

/-! ## Unforgeability -/

def Dead (t : Capabilities) (c h : UInt64) : Prop :=
  ∀ objectType rights, t.validateForOwner c h objectType rights = 0 ∧
    t.validateDuringDrain c h objectType rights = 0

lemma validate_ne_zero {cspace : Option (Fin maxCspaces)} {objectType rights : UInt64}
    (hne : t.validate cspace h objectType rights ≠ 0) :
    ∃ i s, cspace = some i ∧ (t.slotAt i s).occupied = .live ∧ h = (t.cspaces i).handle s ∧
      (t.slotAt i s).metadata.objectType = objectType ∧
      (t.slotAt i s).metadata.rights &&& rights = rights ∧
      t.validate cspace h objectType rights = (t.slotAt i s).metadata.objectId := by
  unfold validate at hne ⊢
  split at hne
  · exact absurd rfl hne
  rename_i i s hlookup
  obtain ⟨hcspace, hlive, -, hhandle⟩ := lookup_eq_some hlookup
  dsimp only at hne
  split at hne
  · exact absurd rfl hne
  rename_i htype
  split at hne
  · exact absurd rfl hne
  rename_i hrights
  refine ⟨i, s, hcspace, hlive, hhandle, not_not.1 htype, not_not.1 hrights, ?_⟩
  dsimp only
  rw [if_neg htype, if_neg hrights]

/-- Either validation is of a capability of the CSpace that the handle names now. -/
lemma checked_of_validate {c objectType rights : UInt64} {o : UInt64} (hne : o ≠ 0)
    (hvalid : t.validateForOwner c h objectType rights = o ∨
      t.validateDuringDrain c h objectType rights = o) :
    ∃ i s, c = t.makeCspaceHandle i ∧ GenerationIsLive (t.cspaces i).generation ∧
      (t.slotAt i s).occupied = .live ∧ h = (t.cspaces i).handle s ∧
      (t.slotAt i s).metadata.objectType = objectType ∧
      (t.slotAt i s).metadata.rights &&& rights = rights ∧
      o = (t.slotAt i s).metadata.objectId := by
  rcases hvalid with hvalid | hvalid
  · have hfound : t.validate (t.checkedCspace c) h objectType rights ≠ 0 := by
      intro hzero
      exact hne (hvalid.symm.trans hzero)
    obtain ⟨i, s, hc, hlive, hh, htype, hrights, heq⟩ := validate_ne_zero hfound
    obtain ⟨-, hgeneration, howner⟩ := checkedCspace_eq_some hc
    exact ⟨i, s, howner, hgeneration, hlive, hh, htype, hrights, hvalid.symm.trans heq⟩
  · have hfound : t.validate (t.checkedDrainingCspace c) h objectType rights ≠ 0 := by
      intro hzero
      exact hne (hvalid.symm.trans hzero)
    obtain ⟨i, s, hc, hlive, hh, htype, hrights, heq⟩ := validate_ne_zero hfound
    obtain ⟨-, hgeneration, howner⟩ := checkedDrainingCspace_eq_some hc
    exact ⟨i, s, howner, hgeneration, hlive, hh, htype, hrights, hvalid.symm.trans heq⟩

lemma dead_of_generation_lt {c : UInt64}
    (hlater : ∀ (i : Fin maxCspaces) (s : Fin capabilitiesPerCspace), index c = i →
      TaggedHandle.slot h = s → (generation h).toNat < (t.slotAt i s).generation.toNat ∨
        (generation c).toNat < (t.cspaces i).generation.toNat) : Dead t c h := by
  have hnone : ∀ objectType rights o, o ≠ 0 → ¬(t.validateForOwner c h objectType rights = o ∨
      t.validateDuringDrain c h objectType rights = o) := by
    intro objectType rights o hne hvalid
    obtain ⟨i, s, rfl, hlive, -, rfl, -⟩ := checked_of_validate hne hvalid
    rcases hlater i s (index_makeCspaceHandle hlive) (slot_handle _ s) with hlt | hlt
    · rw [generation_handle] at hlt
      exact absurd hlt (lt_irrefl _)
    · rw [generation_makeCspaceHandle hlive] at hlt
      exact absurd hlt (lt_irrefl _)
  intro objectType rights
  constructor
  · by_contra hne
    exact hnone objectType rights _ hne (.inl rfl)
  · by_contra hne
    exact hnone objectType rights _ hne (.inr rfl)

/-- Whatever is validated was issued into this generation of the CSpace, with this object, type and
rights, and is open. A closed handle, or one of a destroyed CSpace, stays dead. -/
theorem capabilities_unforgeable (calls : List Call) :
    (∀ c h objectType rights o, o ≠ 0 →
      ((Run.after calls).tables.validateForOwner c h objectType rights = o ∨
        (Run.after calls).tables.validateDuringDrain c h objectType rights = o) →
      ∃ held, held &&& rights = rights ∧
        Held (Run.after calls).marks c h ⟨o, objectType, held⟩ True) ∧
    (∀ c h, .closed c h ∈ (Run.after calls).marks → ∀ c', index c' = index c →
      Dead (Run.after calls).tables c' h) ∧
    ∀ c, .destroyed c ∈ (Run.after calls).marks →
      (∀ h, Dead (Run.after calls).tables c h) ∧
      ∀ h metadata, .issued c h metadata ∈ (Run.after calls).marks → ∀ c', index c' = index c →
        Dead (Run.after calls).tables c' h := by
  have htraced := traced_after calls
  refine ⟨fun c h objectType rights o hne hvalid => ?_, fun c h hclosed c' hindex => ?_,
    fun c hdestroyed => ⟨fun h => ?_, fun h metadata hissued c' hindex => ?_⟩⟩
  · obtain ⟨i, s, rfl, -, hlive, rfl, rfl, hrights, rfl⟩ := checked_of_validate hne hvalid
    refine ⟨_, hrights, ?_⟩
    obtain ⟨later, earlier, hmarks, hclosed, hkept, hopen⟩ := htraced.held i s (.inl hlive)
    exact ⟨later, earlier, hmarks, hclosed, hkept, fun _ => hopen hlive⟩
  · obtain ⟨i, s, hnamed, hlt⟩ := htraced.closed c h hclosed
    apply dead_of_generation_lt
    intro i' s' hi' hs'
    obtain rfl : i' = i := Fin.ext (hi'.symm.trans (hindex.trans hnamed.cspace))
    obtain rfl : s' = s := Fin.ext (hs'.symm.trans hnamed.slot)
    exact .inl hlt
  · obtain ⟨i, hi, hlt⟩ := htraced.destroyed c hdestroyed
    apply dead_of_generation_lt
    intro i' s' hi' hs'
    obtain rfl : i' = i := Fin.ext (hi'.symm.trans hi)
    exact .inr hlt
  · obtain ⟨i, hi, hlt⟩ := htraced.destroyed c hdestroyed
    obtain ⟨j, s, hnamed, -, -, -, hstale⟩ := htraced.issued c h metadata hissued
    obtain rfl : j = i := Fin.ext (hnamed.cspace.symm.trans hi)
    apply dead_of_generation_lt
    intro i' s' hi' hs'
    obtain rfl : i' = j := Fin.ext (hi'.symm.trans (hindex.trans hi))
    obtain rfl : s' = s := Fin.ext (hs'.symm.trans hnamed.slot)
    exact .inl (hstale hlt)

/-- A debug capability is valid until its CSpace is destroyed, also when that is created again. -/
theorem capabilities_unforgeable_debug :
    (∃ held, held &&& 1 = 1 ∧ Held (Run.after
        [.installForOwner 0x1c1000000 5 ⟨7, objectDebug, rightDebugWrite⟩]).marks
        0x1c1000000 0x100000005 ⟨7, objectDebug, held⟩ True) ∧
      Dead (Run.after [.installForOwner 0x1c1000000 5 ⟨7, objectDebug, rightDebugWrite⟩,
        .closeForOwner 0x1c1000000 0x100000005, .destroyCspace 0x1c1000000,
        .createCspace 0]).tables 0x2c1000000 0x100000005 := by
  constructor
  · exact (capabilities_unforgeable _).1 0x1c1000000 0x100000005 objectDebug 1 7 (by decide)
      (.inl (by decide +kernel))
  · exact (capabilities_unforgeable _).2.1 0x1c1000000 0x100000005 (by decide +kernel)
      0x2c1000000 (by decide +kernel)

end Ostadix.Capability
