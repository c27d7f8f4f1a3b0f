import Ostadix.CapTransfer
import Ostadix.MemoryMapping

/-! The account of references: an object lives as long as someone holds one. -/

namespace Ostadix.MemoryObject

open Function TaggedHandle Capability PageFrames Frames Capabilities

lemma isTag_memoryHandleTag : IsTag memoryHandleTag := by decide

lemma objectIndex_lt (o : Fin maxMemoryObjects) : (o : ℕ) < 2 ^ 24 :=
  Nat.lt_trans o.isLt (by decide)

lemma index_eq_of_handle {g g' : UInt32} {o o' : Fin maxMemoryObjects}
    (h : make memoryHandleTag g o = make memoryHandleTag g' o') : o = o' := by
  have hindex := congrArg index h
  rw [index_make isTag_memoryHandleTag _ (objectIndex_lt o),
    index_make isTag_memoryHandleTag _ (objectIndex_lt o')] at hindex
  exact Fin.ext hindex

variable {handle : UInt64} {t' : Capabilities}

lemma frameIndex_eq_of_handle {f f' : Frames} {kind kind' : UInt64} {i j : Fin maxFrames}
    (hi : f.checkedIndex handle kind = some i) (hj : f'.checkedIndex handle kind' = some j) :
    i = j := by
  have heq := (checkedIndex_eq_some.1 hi).1.symm.trans (checkedIndex_eq_some.1 hj).1
  have hindex := congrArg index heq
  rw [index_make isTag_frameHandleTag _ (frameIndex_lt i),
    index_make isTag_frameHandleTag _ (frameIndex_lt j)] at hindex
  exact Fin.ext hindex

/-! ## CSpaces whose owners stay the same -/

structure SameHeaders (t t' : Capabilities) : Prop where
  initialized : t'.initialized = t.initialized
  state : ∀ i, (t'.cspaces i).state = (t.cspaces i).state
  generation : ∀ i, (t'.cspaces i).generation = (t.cspaces i).generation

variable {t : Capabilities} {i : Fin maxCspaces}

lemma SameHeaders.checkedState (h : SameHeaders t t') (admits : CspaceState → Bool)
    (handle : UInt64) :
    t'.checkedState admits handle = t.checkedState admits handle := by
  unfold Capabilities.checkedState
  simp only [h.initialized, h.state, h.generation]

lemma SameHeaders.checkedCspaceOwner (h : SameHeaders t t') (handle : UInt64) :
    t'.checkedCspaceOwner handle = t.checkedCspaceOwner handle :=
  h.checkedState _ handle

lemma SameHeaders.refl (t : Capabilities) : SameHeaders t t := ⟨rfl, fun _ => rfl, fun _ => rfl⟩

lemma SameHeaders.setCspace {c : Cspace} (hstate : c.state = (t.cspaces i).state)
    (hgeneration : c.generation = (t.cspaces i).generation) : SameHeaders t (t.setCspace i c) := by
  refine ⟨rfl, fun j => ?_, fun j => ?_⟩
  · by_cases hj : j = i
    · subst hj
      simpa [Capabilities.setCspace] using hstate
    · simp [Capabilities.setCspace, hj]
  by_cases hj : j = i
  · subst hj
    simpa [Capabilities.setCspace] using hgeneration
  · simp [Capabilities.setCspace, hj]

/-- A live CSpace is one that may own. -/
lemma checkedCspaceOwner_of_checkedCspace (h : t.checkedCspace handle = some i) :
    t.checkedCspaceOwner handle = some i := by
  unfold checkedCspace Capabilities.checkedState at h
  unfold checkedCspaceOwner Capabilities.checkedState
  split at h
  · next htag =>
    rw [if_pos htag]
    split at h
    · next hlt =>
      rw [dif_pos hlt]
      split at h
      · next hlive =>
        rw [if_pos]
        · exact h
        · refine ⟨?_, hlive.2⟩
          simp [hlive.1]
      · cases h
    · cases h
  · cases h

def lease (t : Capabilities) (i : Fin maxCspaces) : ℕ := (t.cspaces i).leaseRefs.toNat

lemma retainCspace_cases (t : Capabilities) (handle : UInt64) :
    ((t.retainCspace handle).1 = 0 ∧ (t.retainCspace handle).2 = t) ∨
      ((t.retainCspace handle).1 ≠ 0 ∧ SameHeaders t (t.retainCspace handle).2 ∧
        ∃ i, t.checkedCspaceOwner handle = some i ∧ ∀ j,
          lease (t.retainCspace handle).2 j = lease t j + if j = i then 1 else 0) := by
  unfold retainCspace
  split
  · exact .inl ⟨rfl, rfl⟩
  rename_i i hi
  dsimp only
  split
  · exact .inl ⟨rfl, rfl⟩
  rename_i hfull
  rw [not_or] at hfull
  refine .inr ⟨show (1 : UInt64) ≠ 0 by decide, SameHeaders.setCspace rfl rfl, i, ?_, fun j => ?_⟩
  · exact checkedCspaceOwner_of_checkedCspace hi
  by_cases hj : j = i
  · subst hj
    simp [lease, Capabilities.setCspace, toNat_succ hfull.2]
  · simp [lease, Capabilities.setCspace, hj]

lemma releaseCspace_cases (t : Capabilities) (handle : UInt64) :
    ((t.releaseCspace handle).1 = 0 ∧ (t.releaseCspace handle).2 = t ∧
      ∀ i, t.checkedCspaceOwner handle = some i → (t.cspaces i).InvariantsHold → lease t i = 0) ∨
      ((t.releaseCspace handle).1 = 1 ∧ SameHeaders t (t.releaseCspace handle).2 ∧
        ∃ i, t.checkedCspaceOwner handle = some i ∧ ∀ j,
          lease (t.releaseCspace handle).2 j = lease t j - if j = i then 1 else 0) := by
  unfold releaseCspace
  split
  · next hnone => exact .inl ⟨rfl, rfl, fun i hi => by rw [hnone] at hi; cases hi⟩
  rename_i i hi
  dsimp only
  split
  · next hempty =>
    refine .inl ⟨rfl, rfl, fun j hj hvalid => ?_⟩
    rw [hi, Option.some.injEq] at hj
    subst hj
    obtain ⟨-, -, hrefs⟩ := Cspace.invariantsHold_iff.1 hvalid
    rcases hempty with hchild | hlease
    · rw [hchild] at hrefs
      have hzero : (0 : UInt32).toNat = 0 := rfl
      rw [lease]
      omega
    · rw [lease, hlease]
      rfl
  · next hsome =>
    rw [not_or] at hsome
    refine .inr ⟨rfl, SameHeaders.setCspace rfl rfl, i, hi, fun j => ?_⟩
    by_cases hj : j = i
    · subst hj
      simp [lease, Capabilities.setCspace, toNat_pred hsome.2]
    · simp [lease, Capabilities.setCspace, hj]

/-! ## The account -/

namespace Store

variable {k k' k'' : Store} {o : Fin maxMemoryObjects} {n : UInt32}

lemma checkedObject_eq_some {handle kind : UInt64} :
    k.checkedObject handle kind = some o ↔ handle = k.makeObjectHandle o ∧
      (k.object o).state = .live ∧ (kind = 0 ∨ (k.object o).kind = kind) := by
  unfold checkedObject makeObjectHandle
  constructor
  · intro h
    split at h
    · dsimp only at h
      split at h
      · next hchecks =>
        obtain ⟨htag, hstate, hgeneration, hkind⟩ := hchecks
        cases h
        refine ⟨?_, hstate, hkind⟩
        rw [hgeneration]
        exact eq_make isTag_memoryHandleTag htag
      · cases h
    · cases h
  · rintro ⟨rfl, hstate, hkind⟩
    have hlt := objectIndex_lt o
    have hindex : index (make memoryHandleTag (k.object o).generation o) = o :=
      index_make isTag_memoryHandleTag _ hlt
    have htag := tagOf_make isTag_memoryHandleTag (k.object o).generation hlt
    have hgeneration := generation_make isTag_memoryHandleTag (k.object o).generation hlt
    simp only [hindex, htag, hgeneration]
    rw [dif_pos o.isLt, if_pos]
    exact ⟨trivial, hstate, trivial, hkind⟩

def Live (k : Store) (o : Fin maxMemoryObjects) : Prop := (k.object o).state = .live

def charge (t : Capabilities) (i : Fin maxCspaces) (object : Object) : ℕ :=
  if object.state = .live ∧ t.checkedCspaceOwner object.owner = some i then 1 else 0

lemma charge_of_headers {t t' : Capabilities} (h : SameHeaders t t') (i : Fin maxCspaces)
    (object : Object) : charge t' i object = charge t i object := by
  unfold charge
  rw [h.checkedCspaceOwner]

lemma observed_eq (k : Store) (i : Fin maxCspaces) :
    k.observed i = ∑ o, charge k.caps i (k.memory.objects o) := rfl

/-- The tables agree with the references that are held of every object. -/
structure Accounted (k : Store) (held : UInt64 → ℕ) : Prop where
  caps : k.caps.InvariantsHold
  frames : k.frames.InvariantsHold
  owner : ∀ o, k.Live o → ∃ i, k.caps.checkedCspaceOwner (k.object o).owner = some i ∧
    (k.quota i).owner = (k.object o).owner
  frame : ∀ o, k.Live o → ∃ i, k.frames.Owns (k.object o).frame (frameKindFor (k.object o).kind) i
  apart : ∀ o o', k.Live o → k.Live o' → (k.object o).frame = (k.object o').frame → o = o'
  used : ∀ i, k.observed i = (k.quota i).used
  limit : ∀ i, (k.quota i).used ≤ (k.quota i).limit
  leased : ∀ i, (k.quota i).used ≤ lease k.caps i
  counted : ∀ o, k.Live o → (k.object o).references.toNat = held (k.makeObjectHandle o)
  positive : ∀ o, k.Live o → (k.object o).references ≠ 0
  named : ∀ handle, held handle ≠ 0 → ∃ o, k.Live o ∧ k.makeObjectHandle o = handle

/-- Each object stays as it is but for its references, or is gone with its frame. None appears. -/
structure Settles (k k' : Store) : Prop where
  objects : ∀ o, k.Live o →
    (∃ n, k'.object o = { k.object o with references := n }) ∨
    ((∀ kind, k'.checkedObject (k.makeObjectHandle o) kind = none) ∧
      ∀ kind, k'.frames.checkedIndex (k.object o).frame kind = none)
  gone : ∀ handle, (∀ kind, k.checkedObject handle kind = none) →
    ∀ kind, k'.checkedObject handle kind = none
  freed : ∀ handle, (∀ kind, k.frames.checkedIndex handle kind = none) →
    ∀ kind, k'.frames.checkedIndex handle kind = none

def Quiet (k k' : Store) : Prop :=
  ∀ o, k.Live o → ∃ n, k'.object o = { k.object o with references := n }

lemma live_of_same (h : k'.object o = { k.object o with references := n }) (ho : k.Live o) :
    k'.Live o := by
  rw [Live, h]
  exact ho

lemma Settles.refl (k : Store) : Settles k k :=
  ⟨fun _ _ => .inl ⟨_, rfl⟩, fun _ h => h, fun _ h => h⟩

lemma Quiet.refl (k : Store) : Quiet k k := fun _ _ => ⟨_, rfl⟩

lemma Quiet.trans (h : Quiet k k') (h' : Quiet k' k'') : Quiet k k'' := by
  intro o ho
  obtain ⟨n, hn⟩ := h o ho
  obtain ⟨m, hm⟩ := h' o (live_of_same hn ho)
  exact ⟨m, by rw [hm, hn]⟩

lemma handle_of_same (h : k'.object o = { k.object o with references := n }) :
    k'.makeObjectHandle o = k.makeObjectHandle o := by
  rw [makeObjectHandle, h]
  rfl

/-- What becomes of an object that only changed its references before. -/
lemma Settles.objects_of_same (h' : Settles k' k'')
    (hn : k'.object o = { k.object o with references := n }) (ho : k.Live o) :
    (∃ n, k''.object o = { k.object o with references := n }) ∨
      ((∀ kind, k''.checkedObject (k.makeObjectHandle o) kind = none) ∧
        ∀ kind, k''.frames.checkedIndex (k.object o).frame kind = none) := by
  rcases h'.objects o (live_of_same hn ho) with ⟨m, hm⟩ | ⟨hgone, hfreed⟩
  · exact .inl ⟨m, by rw [hm, hn]⟩
  · rw [handle_of_same hn] at hgone
    rw [hn] at hfreed
    exact .inr ⟨hgone, hfreed⟩

lemma Settles.trans (h : Settles k k') (h' : Settles k' k'') : Settles k k'' := by
  refine ⟨fun o ho => ?_, fun handle hnone => h'.gone handle (h.gone handle hnone),
    fun handle hnone => h'.freed handle (h.freed handle hnone)⟩
  rcases h.objects o ho with ⟨n, hn⟩ | ⟨hgone, hfreed⟩
  · exact h'.objects_of_same hn ho
  · exact .inr ⟨h'.gone _ hgone, h'.freed _ hfreed⟩

/-! ## One table changes -/

section Updates

variable {k : Store} {held : UInt64 → ℕ}

lemma object_setObject (k : Store) (o x : Fin maxMemoryObjects) (object : Object) :
    (k.setObject o object).object x = if x = o then object else k.object x := by
  by_cases hx : x = o
  · subst hx
    simp [setObject, Store.object]
  · simp [setObject, Store.object, hx]

lemma quota_setQuotaEntry (k : Store) (i j : Fin maxCspaces) (quota : Quota) :
    (k.setQuotaEntry i quota).quota j = if j = i then quota else k.quota j := by
  by_cases hj : j = i
  · subst hj
    simp [setQuotaEntry, Store.quota]
  · simp [setQuotaEntry, Store.quota, hj]

lemma same_setReferences (k : Store) (o x : Fin maxMemoryObjects) (n : UInt32) :
    ∃ m, (k.setObject o { k.object o with references := n }).object x =
      { k.object x with references := m } := by
  rw [object_setObject]
  by_cases hx : x = o
  · subst hx
    exact ⟨n, by rw [if_pos rfl]⟩
  · exact ⟨(k.object x).references, by rw [if_neg hx]⟩

variable {t : Capabilities} {i : Fin maxCspaces} {k' : Store} {o x : Fin maxMemoryObjects}
  {f : Frames} {j : Fin maxFrames} {handle : UInt64}

variable {object : Object} {count : ℕ} {kind : UInt64}

lemma charge_eq_zero (h : object.state ≠ .live) (i : Fin maxCspaces) : charge t i object = 0 :=
  if_neg fun hlive => h hlive.1

lemma charge_eq_ite (hlive : object.state = .live)
    (hi : t.checkedCspaceOwner object.owner = some i) (j : Fin maxCspaces) :
    charge t j object = if j = i then 1 else 0 := by
  unfold charge
  simp only [hlive, hi, Option.some.injEq, true_and, eq_comm]

/-- One object changes, with `count` references to it afterwards, and the others stay. -/
structure Replaces (k k' : Store) (o : Fin maxMemoryObjects) (count : ℕ) : Prop where
  others : ∀ x, x ≠ o → k'.object x = k.object x
  caps : k'.caps.InvariantsHold
  headers : SameHeaders k.caps k'.caps
  frames : k'.frames.InvariantsHold
  kept : ∀ x, x ≠ o → k.Live x →
    ∃ i, k'.frames.Owns (k.object x).frame (frameKindFor (k.object x).kind) i
  owners : ∀ i, (k'.quota i).owner = (k.quota i).owner
  charges : ∀ i, (k'.quota i).used + charge k.caps i (k.object o) =
    (k.quota i).used + charge k.caps i (k'.object o)
  limit : ∀ i, (k'.quota i).used ≤ (k'.quota i).limit
  leased : ∀ i, (k'.quota i).used ≤ lease k'.caps i
  dead : ¬k'.Live o → count = 0
  handle : k'.Live o → k'.makeObjectHandle o = k.makeObjectHandle o
  owner : k'.Live o → ∃ i, k.caps.checkedCspaceOwner (k'.object o).owner = some i ∧
    (k.quota i).owner = (k'.object o).owner
  frame : k'.Live o →
    ∃ i, k'.frames.Owns (k'.object o).frame (frameKindFor (k'.object o).kind) i
  apart : k'.Live o → ∀ x, x ≠ o → k.Live x → (k.object x).frame ≠ (k'.object o).frame
  count : k'.Live o → (k'.object o).references.toNat = count ∧ count ≠ 0

lemma Replaces.observed (r : Replaces k k' o count) (i : Fin maxCspaces) :
    k'.observed i + charge k.caps i (k.object o) =
      k.observed i + charge k.caps i (k'.object o) := by
  have hobserved : k'.observed i =
      ∑ x, charge k.caps i (update k.memory.objects o (k'.object o) x) := by
    apply Finset.sum_congr rfl
    intro x _
    have hx : update k.memory.objects o (k'.object o) x = k'.object x := by
      by_cases hxo : x = o
      · rw [hxo, update_self]
      · rw [update_of_ne hxo, r.others x hxo]
        rfl
    rw [hx]
    exact charge_of_headers r.headers i _
  have hsum := sum_update (charge k.caps i) k.memory.objects o (k'.object o)
  rw [hobserved, observed_eq]
  change _ + charge k.caps i (k.memory.objects o) = _
  omega

section

variable (h : Accounted k held)

include h

/-- The account stays right when one object changes. -/
lemma Accounted.replace (r : Replaces k k' o count) :
    Accounted k' (update held (k.makeObjectHandle o) count) := by
  have hlive : ∀ x, x ≠ o → (k'.Live x ↔ k.Live x) := by
    intro x hx
    rw [Live, r.others x hx]
    rfl
  have hhandle : ∀ x, x ≠ o → k'.makeObjectHandle x = k.makeObjectHandle x := by
    intro x hx
    rw [makeObjectHandle, r.others x hx]
    rfl
  refine ⟨r.caps, r.frames, fun x hx => ?_, fun x hx => ?_, fun x y hx hy heq => ?_, fun i => ?_,
    r.limit, r.leased, fun x hx => ?_, fun x hx => ?_, fun handle hne => ?_⟩
  · have howner : ∃ i, k.caps.checkedCspaceOwner (k'.object x).owner = some i ∧
        (k.quota i).owner = (k'.object x).owner := by
      by_cases hxo : x = o
      · rw [hxo] at hx ⊢
        exact r.owner hx
      · rw [r.others x hxo]
        exact h.owner x ((hlive x hxo).1 hx)
    obtain ⟨i, hi, hquota⟩ := howner
    exact ⟨i, (r.headers.checkedCspaceOwner _).trans hi, (r.owners i).trans hquota⟩
  · by_cases hxo : x = o
    · rw [hxo] at hx ⊢
      exact r.frame hx
    · rw [r.others x hxo]
      exact r.kept x hxo ((hlive x hxo).1 hx)
  · by_cases hxo : x = o
    · by_cases hyo : y = o
      · rw [hxo, hyo]
      · rw [hxo] at hx heq
        rw [r.others y hyo] at heq
        exact absurd heq.symm (r.apart hx y hyo ((hlive y hyo).1 hy))
    · rw [r.others x hxo] at heq
      by_cases hyo : y = o
      · rw [hyo] at hy heq
        exact absurd heq (r.apart hy x hxo ((hlive x hxo).1 hx))
      · rw [r.others y hyo] at heq
        exact h.apart x y ((hlive x hxo).1 hx) ((hlive y hyo).1 hy) heq
  · have hobserved := r.observed i
    have hcharges := r.charges i
    have hused := h.used i
    omega
  · by_cases hxo : x = o
    · rw [hxo] at hx ⊢
      rw [r.handle hx, update_self]
      exact (r.count hx).1
    · have hdiff : k.makeObjectHandle x ≠ k.makeObjectHandle o :=
        fun heq => hxo (index_eq_of_handle heq)
      rw [hhandle x hxo, update_of_ne hdiff, r.others x hxo]
      exact h.counted x ((hlive x hxo).1 hx)
  · by_cases hxo : x = o
    · rw [hxo] at hx ⊢
      obtain ⟨hcount, hpositive⟩ := r.count hx
      intro hzero
      rw [hzero] at hcount
      exact hpositive hcount.symm
    · rw [r.others x hxo]
      exact h.positive x ((hlive x hxo).1 hx)
  · by_cases hhere : handle = k.makeObjectHandle o
    · rw [hhere, update_self] at hne
      have ho : k'.Live o := by
        by_contra hdead
        exact hne (r.dead hdead)
      exact ⟨o, ho, (r.handle ho).trans hhere.symm⟩
    · rw [update_of_ne hhere] at hne
      obtain ⟨x, hx, heq⟩ := h.named handle hne
      have hxo : x ≠ o := by
        rintro rfl
        exact hhere heq.symm
      exact ⟨x, (hlive x hxo).2 hx, (hhandle x hxo).trans heq⟩

/-- The references of an object change to another positive number. -/
lemma Accounted.setReferences {n : UInt32} (hn : n ≠ 0) (ho : k.Live o) :
    Accounted (k.setObject o { k.object o with references := n })
      (update held (k.makeObjectHandle o) n.toNat) := by
  have hself : (k.setObject o { k.object o with references := n }).object o =
      { k.object o with references := n } := by
    rw [object_setObject, if_pos rfl]
  have hn' : n.toNat ≠ 0 := fun hzero => hn (UInt32.toNat_inj.1 hzero)
  apply h.replace
  exact
    { others := fun x hx => by rw [object_setObject, if_neg hx]
      caps := h.caps
      headers := SameHeaders.refl _
      frames := h.frames
      kept := fun x _ hx => h.frame x hx
      owners := fun _ => rfl
      charges := fun i => by rw [hself]; rfl
      limit := h.limit
      leased := h.leased
      dead := fun hdead => absurd (by rw [Live, hself]; exact ho) hdead
      handle := fun _ => handle_of_same hself
      owner := fun _ => by rw [hself]; exact h.owner o ho
      frame := fun _ => by rw [hself]; exact h.frame o ho
      apart := fun _ x hxo hx heq => hxo (h.apart x o hx ho (by rw [heq, hself]))
      count := fun _ => ⟨by rw [hself], hn'⟩ }

lemma Accounted.used_pos (ho : k.Live o)
    (hi : k.caps.checkedCspaceOwner (k.object o).owner = some i) :
    0 < (k.quota i).used := by
  rw [← h.used i, observed_eq]
  have hle := Finset.single_le_sum (fun x _ => Nat.zero_le (charge k.caps i (k.memory.objects x)))
    (Finset.mem_univ o)
  have hone : charge k.caps i (k.memory.objects o) = 1 := if_pos ⟨ho, hi⟩
  rw [hone] at hle
  exact hle

/-- A quota is bound anew only when nothing is charged to it. -/
lemma Accounted.setQuotaEntry {quota : Quota}
    (hused : quota.used = (k.quota i).used) (hlimit : quota.used ≤ quota.limit)
    (howner : quota.owner = (k.quota i).owner ∨ (k.quota i).used = 0) :
    Accounted (k.setQuotaEntry i quota) held := by
  have husedAll : ∀ j, ((k.setQuotaEntry i quota).quota j).used = (k.quota j).used := by
    intro j
    rw [quota_setQuotaEntry]
    by_cases hj : j = i
    · subst hj
      rw [if_pos rfl, hused]
    · rw [if_neg hj]
  refine ⟨h.caps, h.frames, fun o ho => ?_, h.frame, h.apart, fun j => ?_, fun j => ?_,
    fun j => ?_, h.counted, h.positive, h.named⟩
  · obtain ⟨j, hj, hquota⟩ := h.owner o ho
    refine ⟨j, hj, ?_⟩
    rw [quota_setQuotaEntry]
    by_cases hji : j = i
    · subst hji
      rw [if_pos rfl]
      rcases howner with hsame | hzero
      · rw [hsame]
        exact hquota
      · have hpos := h.used_pos ho hj
        omega
    · rw [if_neg hji]
      exact hquota
  · rw [husedAll]
    exact h.used j
  · rw [quota_setQuotaEntry]
    by_cases hj : j = i
    · rw [if_pos hj]
      exact hlimit
    · rw [if_neg hj]
      exact h.limit j
  · rw [husedAll]
    exact h.leased j

lemma Accounted.setCaps (hvalid : t.InvariantsHold)
    (hheaders : SameHeaders k.caps t) (hlease : ∀ i, (k.quota i).used ≤ lease t i) :
    Accounted { k with caps := t } held := by
  refine ⟨hvalid, h.frames, fun o ho => ?_, h.frame, h.apart, fun i => ?_, h.limit, hlease,
    h.counted, h.positive, h.named⟩
  · obtain ⟨i, hi, hquota⟩ := h.owner o ho
    exact ⟨i, by rw [← hi]; exact hheaders.checkedCspaceOwner _, hquota⟩
  · have hused := h.used i
    exact (Finset.sum_congr rfl fun o _ => charge_of_headers hheaders i _).trans hused

lemma Accounted.setFrames (hvalid : f.InvariantsHold)
    (howns : ∀ o, k.Live o → ∃ i, f.Owns (k.object o).frame (frameKindFor (k.object o).kind) i) :
    Accounted { k with frames := f } held :=
  { h with frames := hvalid, frame := howns }

/-- The quota of an owner is found, with everything else as before. -/
lemma Accounted.quotaSlotForOwner (owner : UInt64) :
    Accounted (k.quotaSlotForOwner owner).2 held ∧
      (k.quotaSlotForOwner owner).2.caps = k.caps ∧
      (k.quotaSlotForOwner owner).2.frames = k.frames ∧
      (k.quotaSlotForOwner owner).2.memory.objects = k.memory.objects ∧
      ∀ i, (k.quotaSlotForOwner owner).1 = some i → k.caps.checkedCspaceOwner owner = some i ∧
        ((k.quotaSlotForOwner owner).2.quota i).owner = owner := by
  unfold Store.quotaSlotForOwner
  split
  · exact ⟨h, rfl, rfl, rfl, nofun⟩
  rename_i i hi
  split
  · split
    · exact ⟨h, rfl, rfl, rfl, nofun⟩
    rename_i hzero
    have hused : (k.quota i).used = 0 := by
      by_contra hne
      exact hzero hne
    refine ⟨h.setQuotaEntry rfl ?_ (.inr hused), rfl, rfl, rfl, fun j hj => ?_⟩
    · exact Nat.le_of_eq hused
    · cases hj
      exact ⟨hi, by rw [quota_setQuotaEntry, if_pos rfl]⟩
  · next hsame =>
    refine ⟨h, rfl, rfl, rfl, fun j hj => ?_⟩
    cases hj
    exact ⟨hi, not_not.1 hsame⟩

end

/-! ## The end of an object -/

lemma advanced_state (object : Object) : (Object.advanced object).state ≠ .live := by
  unfold Object.advanced
  split <;> exact nofun

def finish (k : Store) (o : Fin maxMemoryObjects) (i : Fin maxCspaces) (f : Frames)
    (t : Capabilities) : Store :=
  ({ k with frames := f, caps := t }.setQuotaEntry i
    { k.quota i with used := (k.quota i).used - 1 }).setObject o (Object.advanced (k.object o))

lemma object_finish (k : Store) (o x : Fin maxMemoryObjects) (i : Fin maxCspaces) (f : Frames)
    (t : Capabilities) :
    (k.finish o i f t).object x = if x = o then Object.advanced (k.object o) else k.object x :=
  object_setObject _ o x _

lemma quota_finish (k : Store) (o : Fin maxMemoryObjects) (i j : Fin maxCspaces) (f : Frames)
    (t : Capabilities) : (k.finish o i f t).quota j =
      if j = i then { k.quota i with used := (k.quota i).used - 1 } else k.quota j :=
  quota_setQuotaEntry _ i j _

lemma live_finish : (k.finish o i f t).Live x ↔ x ≠ o ∧ k.Live x := by
  rw [Live, object_finish]
  by_cases hx : x = o
  · rw [if_pos hx]
    exact ⟨fun hlive => absurd hlive (advanced_state _), fun hlive => absurd hx hlive.1⟩
  · rw [if_neg hx]
    exact ⟨fun hlive => ⟨hx, hlive⟩, fun hlive => hlive.2⟩

lemma handle_finish (hx : x ≠ o) :
    (k.finish o i f t).makeObjectHandle x = k.makeObjectHandle x := by
  rw [makeObjectHandle, object_finish, if_neg hx]
  rfl

lemma Accounted.finish (h : Accounted k held) (ho : k.Live o)
    (hi : k.caps.checkedCspaceOwner (k.object o).owner = some i) (hvalid : f.InvariantsHold)
    (hframe : k.frames.Owns (k.object o).frame (frameKindFor (k.object o).kind) j)
    (hothers : Frames.Elsewhere k.frames f j) (hcaps : t.InvariantsHold)
    (hheaders : SameHeaders k.caps t)
    (hlease : ∀ x, lease t x = lease k.caps x - if x = i then 1 else 0) :
    Accounted (k.finish o i f t) (update held (k.makeObjectHandle o) 0) := by
  have husedPos := h.used_pos ho hi
  have hdead : ¬(k.finish o i f t).Live o := fun hlive => (live_finish.1 hlive).1 rfl
  have hused : ∀ y, ((k.finish o i f t).quota y).used =
      (k.quota y).used - if y = i then 1 else 0 := by
    intro y
    rw [quota_finish]
    split
    · next heq => rw [heq]
    · rfl
  have hquota : ∀ y, ((k.finish o i f t).quota y).owner = (k.quota y).owner ∧
      ((k.finish o i f t).quota y).limit = (k.quota y).limit := by
    intro y
    rw [quota_finish]
    split
    · next heq => exact ⟨by rw [heq], by rw [heq]⟩
    · exact ⟨rfl, rfl⟩
  apply h.replace
  exact
    { others := fun x hx => by rw [object_finish, if_neg hx]
      caps := hcaps
      headers := hheaders
      frames := hvalid
      kept := fun x hxo hx => by
        obtain ⟨y, hy⟩ := h.frame x hx
        refine ⟨y, hothers.owns ?_ hy⟩
        -- one frame has one handle, and other objects own frames of other handles
        rintro rfl
        have hmine := (checkedIndex_eq_some.1 hframe.checked).1
        have htheirs := (checkedIndex_eq_some.1 hy.checked).1
        exact hxo (h.apart x o hx ho (htheirs.trans hmine.symm))
      owners := fun y => (hquota y).1
      charges := fun y => by
        rw [hused, charge_eq_ite ho hi, charge_eq_zero hdead]
        split
        · next heq =>
          rw [heq]
          omega
        · rfl
      limit := fun y => by
        have hlimit := h.limit y
        rw [hused, (hquota y).2]
        omega
      leased := fun y => by
        have hleased := h.leased y
        change _ ≤ lease t y
        rw [hused, hlease]
        omega
      dead := fun _ => rfl
      handle := (absurd · hdead)
      owner := (absurd · hdead)
      frame := (absurd · hdead)
      apart := (absurd · hdead)
      count := (absurd · hdead) }

lemma settles_finish (ho : k.Live o)
    (hframe : k.frames.Owns (k.object o).frame (frameKindFor (k.object o).kind) j)
    (hothers : Frames.Elsewhere k.frames f j) (hdead : (f.frames j).state ≠ .live) :
    Settles k (k.finish o i f t) := by
  have hlost : ∀ handle kind x, f.checkedIndex handle kind = some x →
      k.frames.checkedIndex handle kind = some x ∧ x ≠ j := by
    intro handle kind x hx
    rw [checkedIndex_eq_some] at hx
    have hxj : x ≠ j := by
      rintro rfl
      exact hdead hx.2.2.2.1
    rw [hothers.others x hxj, hothers.count, hothers.initialized] at hx
    exact ⟨checkedIndex_eq_some.2 hx, hxj⟩
  refine ⟨fun x hx => ?_, fun handle hnone kind => ?_, fun handle hnone kind => ?_⟩
  · by_cases hxo : x = o
    · subst hxo
      refine .inr ⟨fun kind => ?_, fun kind => ?_⟩
      · rcases hcheck : (k.finish x i f t).checkedObject (k.makeObjectHandle x) kind with _ | y
        · rfl
        · obtain ⟨heq, hlive, -⟩ := checkedObject_eq_some.1 hcheck
          have hxy := index_eq_of_handle heq
          exact absurd hxy.symm (live_finish.1 hlive).1
      rcases hcheck : f.checkedIndex (k.object x).frame kind with _ | y
      · exact hcheck
      · obtain ⟨hbefore, hyj⟩ := hlost _ _ _ hcheck
        exact absurd (frameIndex_eq_of_handle hbefore hframe.checked) hyj
    · exact .inl ⟨(k.object x).references, by rw [object_finish, if_neg hxo]⟩
  · rcases hcheck : (k.finish o i f t).checkedObject handle kind with _ | y
    · rfl
    obtain ⟨heq, hlive, hkind⟩ := checkedObject_eq_some.1 hcheck
    obtain ⟨hyo, hbefore⟩ := live_finish.1 hlive
    rw [handle_finish hyo] at heq
    have hsome := checkedObject_eq_some.2 ⟨heq, hbefore, .inl (rfl : (0 : UInt64) = 0)⟩
    rw [hnone 0] at hsome
    cases hsome
  · rcases hcheck : f.checkedIndex handle kind with _ | y
    · exact hcheck
    · obtain ⟨hbefore, -⟩ := hlost _ _ _ hcheck
      rw [hnone kind] at hbefore
      cases hbefore

/-! ## Retaining and releasing -/

lemma settles_setReferences (o : Fin maxMemoryObjects) (n : UInt32) :
    Settles k (k.setObject o { k.object o with references := n }) := by
  refine ⟨fun x _ => .inl (same_setReferences k o x n), fun handle hnone kind => ?_, fun _ h => h⟩
  rcases hcheck : (k.setObject o { k.object o with references := n }).checkedObject handle kind
    with _ | x
  · rfl
  obtain ⟨heq, hlive, -⟩ := checkedObject_eq_some.1 hcheck
  obtain ⟨m, hm⟩ := same_setReferences k o x n
  rw [handle_of_same hm] at heq
  rw [hm] at hlive
  have hsome := checkedObject_eq_some.2 ⟨heq, hlive, .inl (rfl : (0 : UInt64) = 0)⟩
  rw [hnone 0] at hsome
  cases hsome

lemma settles_setCaps (t : Capabilities) : Settles k { k with caps := t } :=
  ⟨fun _ _ => .inl ⟨_, rfl⟩, fun _ h => h, fun _ h => h⟩

lemma Accounted.retain (h : Accounted k held) (ho : k.Live o)
    (hfull : (k.object o).references ≠ 0xffffffff) :
    Accounted (k.retain o) (update held (k.makeObjectHandle o)
      (held (k.makeObjectHandle o) + 1)) := by
  have hsucc := toNat_succ hfull
  have hn : (k.object o).references + 1 ≠ 0 := by
    intro hzero
    rw [hzero] at hsucc
    exact absurd hsucc.symm (Nat.succ_ne_zero _)
  have hset := h.setReferences hn ho
  rw [hsucc, h.counted o ho] at hset
  exact hset

/-- A held reference can always be given back. -/
lemma Accounted.releaseObject (h : Accounted k held) (hheld : held handle ≠ 0) :
    (k.releaseObject handle).1 = 1 ∧
      Accounted (k.releaseObject handle).2 (update held handle (held handle - 1)) ∧
      Settles k (k.releaseObject handle).2 := by
  obtain ⟨o, ho, rfl⟩ := h.named handle hheld
  have hchecked : k.checkedObject (k.makeObjectHandle o) 0 = some o :=
    checkedObject_eq_some.2 ⟨rfl, ho, .inl rfl⟩
  have hcount := h.counted o ho
  have hpositive := h.positive o ho
  unfold Store.releaseObject
  rw [hchecked]
  dsimp only
  rw [if_neg hpositive]
  split
  · next hmore =>
    have hpred := toNat_pred hpositive
    have hlt := UInt32.lt_iff_toNat_lt.1 hmore
    have hone : (1 : UInt32).toNat = 1 := rfl
    have hn : (k.object o).references - 1 ≠ 0 := by
      intro hzero
      rw [hzero] at hpred
      have hzero' : (0 : UInt32).toNat = 0 := rfl
      omega
    refine ⟨rfl, ?_, settles_setReferences o _⟩
    have hset := h.setReferences hn ho
    rw [hpred, hcount] at hset
    exact hset
  · next hlast =>
    have hlastNat : held (k.makeObjectHandle o) - 1 = 0 := by
      have hle := mt UInt32.lt_iff_toNat_lt.2 hlast
      have hone : (1 : UInt32).toNat = 1 := rfl
      omega
    obtain ⟨i, hi, hquota⟩ := h.owner o ho
    have hslot : k.quotaSlotForOwner (k.object o).owner = (some i, k) := by
      unfold Store.quotaSlotForOwner
      rw [hi]
      simp only [hquota, ne_eq, not_true_eq_false, if_false]
    obtain ⟨j, hj⟩ := h.frame o ho
    obtain ⟨hfreed, hvalid, hothers, hdead⟩ := releaseFrame_of_owns h.frames hj
    have hpos := h.used_pos ho hi
    have hleased := h.leased i
    rw [hslot]
    dsimp only
    rcases releaseCspace_cases k.caps (k.object o).owner with ⟨-, -, hzero⟩ |
      ⟨hreleased, hheaders, i', hi', hlease⟩
    · have hnone := hzero i hi (h.caps.2 i)
      omega
    rw [hi, Option.some.injEq] at hi'
    subst hi'
    have hchild : k.caps.cspaceChildRefs (k.object o).owner ≠ 0 := by
      unfold cspaceChildRefs
      rw [hi]
      intro hzero
      change (k.caps.cspaces i).childRefs = 0 at hzero
      obtain ⟨-, -, hrefs⟩ := Cspace.invariantsHold_iff.1 (h.caps.2 i)
      rw [hzero] at hrefs
      have hzero' : (0 : UInt32).toNat = 0 := rfl
      rw [lease] at hleased
      omega
    rw [if_neg (not_or.2 ⟨by omega, hchild⟩), if_neg (by rw [hfreed]; decide),
      if_neg (by rw [hreleased]; decide)]
    have hcaps := (invariantsHold_perform h.caps (.releaseCspace (k.object o).owner)).1
    rw [hlastNat]
    exact ⟨rfl, h.finish ho hi hvalid hj hothers hcaps hheaders hlease,
      settles_finish ho hj hothers hdead⟩

/-! ## A new object -/

def publish (k : Store) (o : Fin maxMemoryObjects) (i : Fin maxCspaces) (object : Object)
    (f : Frames) (t : Capabilities) : Store :=
  ({ k with frames := f, caps := t }.setObject o object).setQuotaEntry i
    { k.quota i with used := (k.quota i).used + 1 }

lemma object_publish (k : Store) (o x : Fin maxMemoryObjects) (i : Fin maxCspaces)
    (object : Object) (f : Frames) (t : Capabilities) :
    (k.publish o i object f t).object x = if x = o then object else k.object x :=
  object_setObject _ o x _

lemma quota_publish (k : Store) (o : Fin maxMemoryObjects) (i j : Fin maxCspaces)
    (object : Object) (f : Frames) (t : Capabilities) : (k.publish o i object f t).quota j =
      if j = i then { k.quota i with used := (k.quota i).used + 1 } else k.quota j :=
  quota_setQuotaEntry _ i j _

structure Fresh (k : Store) (o : Fin maxMemoryObjects) (i : Fin maxCspaces) (object : Object)
    (f : Frames) (t : Capabilities) : Prop where
  vacant : (k.object o).state = .empty
  live : object.state = .live
  single : object.references = 1
  generation : object.generation = (k.object o).generation
  owner : k.caps.checkedCspaceOwner object.owner = some i
  quota : (k.quota i).owner = object.owner
  room : (k.quota i).used < (k.quota i).limit
  valid : f.InvariantsHold
  frame : ∃ j, (k.frames.frames j).state = .free ∧ Frames.Elsewhere k.frames f j ∧
    f.Owns object.frame (frameKindFor object.kind) j
  caps : t.InvariantsHold
  headers : SameHeaders k.caps t
  leased : ∀ x, lease t x = lease k.caps x + if x = i then 1 else 0

lemma ne_of_free {i : Fin maxFrames} (hi : f.Owns handle kind i)
    (hfree : (f.frames j).state = .free) : i ≠ j := by
  rintro rfl
  have hstate := (checkedIndex_eq_some.1 hi.checked).2.2.2.1
  rw [hfree] at hstate
  cases hstate

lemma Accounted.owns_elsewhere (h : Accounted k held) (hfree : (k.frames.frames j).state = .free)
    (hothers : Frames.Elsewhere k.frames f j) (o : Fin maxMemoryObjects) (ho : k.Live o) :
    ∃ i, f.Owns (k.object o).frame (frameKindFor (k.object o).kind) i := by
  obtain ⟨i, hi⟩ := h.frame o ho
  exact ⟨i, hothers.owns (ne_of_free hi hfree) hi⟩

lemma Accounted.publish (h : Accounted k held) {o : Fin maxMemoryObjects} {i : Fin maxCspaces}
    {object : Object} {f : Frames} {t : Capabilities} (hfresh : Fresh k o i object f t) :
    Accounted (k.publish o i object f t) (update held (k.makeObjectHandle o)
      (held (k.makeObjectHandle o) + 1)) := by
  have hempty : ¬k.Live o := by
    rw [Live, hfresh.vacant]
    exact nofun
  have hzero : held (k.makeObjectHandle o) = 0 := by
    by_contra hne
    obtain ⟨x, hx, heq⟩ := h.named _ hne
    rw [index_eq_of_handle heq] at hx
    exact hempty hx
  have hself : (k.publish o i object f t).object o = object := by
    rw [object_publish, if_pos rfl]
  have hused : ∀ y, ((k.publish o i object f t).quota y).used =
      (k.quota y).used + if y = i then 1 else 0 := by
    intro y
    rw [quota_publish]
    split
    · next heq => rw [heq]
    · rfl
  obtain ⟨j, hfree, hothers, hmine⟩ := hfresh.frame
  rw [hzero]
  apply h.replace
  exact
    { others := fun x hx => by rw [object_publish, if_neg hx]
      caps := hfresh.caps
      headers := hfresh.headers
      frames := hfresh.valid
      kept := fun x _ hx => h.owns_elsewhere hfree hothers x hx
      owners := fun y => by
        rw [quota_publish]
        split
        · next heq => rw [heq]
        · rfl
      charges := fun y => by
        rw [hself, hused, charge_eq_zero hempty, charge_eq_ite hfresh.live hfresh.owner]
        rfl
      limit := fun y => by
        have hlimit := h.limit y
        rw [quota_publish]
        split
        · exact hfresh.room
        · exact hlimit
      leased := fun y => by
        have hleased := h.leased y
        change _ ≤ lease t y
        rw [hused, hfresh.leased]
        omega
      dead := fun hdead => absurd (by rw [Live, hself]; exact hfresh.live) hdead
      handle := fun _ => by
        rw [makeObjectHandle, hself, hfresh.generation]
        rfl
      owner := fun _ => by
        rw [hself]
        exact ⟨i, hfresh.owner, hfresh.quota⟩
      frame := fun _ => by
        rw [hself]
        exact ⟨j, hmine⟩
      apart := fun _ x _ hx heq => by
        rw [hself] at heq
        obtain ⟨y, hy⟩ := h.frame x hx
        rw [heq] at hy
        exact ne_of_free hy hfree (frameIndex_eq_of_handle hy.checked hmine.checked)
      count := fun _ => by
        rw [hself, hfresh.single]
        exact ⟨rfl, Nat.succ_ne_zero _⟩ }

lemma quiet_of_objects {k : Store} (h : k'.memory.objects = k.memory.objects) : Quiet k k' :=
  fun o _ => ⟨(k.object o).references, congrFun h o⟩

/-- A frame that is taken and given back leaves the account as it was. -/
lemma Accounted.undoFrame (h : Accounted k held) (hfree : (k.frames.frames j).state = .free)
    (hothers : Frames.Elsewhere k.frames f j) (hvalid : f.InvariantsHold)
    (hframe : f.Owns handle kind j) :
    (f.releaseFrame handle kind).1 = 1 ∧
      Accounted { k with frames := (f.releaseFrame handle kind).2 } held := by
  obtain ⟨hone, hvalid', hothers', -⟩ := releaseFrame_of_owns hvalid hframe
  have hboth : Frames.Elsewhere k.frames (f.releaseFrame handle kind).2 j :=
    ⟨hothers'.count.trans hothers.count, hothers'.initialized.trans hothers.initialized,
      fun x hx => (hothers'.others x hx).trans (hothers.others x hx)⟩
  exact ⟨hone, h.setFrames hvalid' (h.owns_elsewhere hfree hboth)⟩

/-- The outcome of an allocation: a new object that the caller holds once, or nothing. -/
def Allocation (held : UInt64 → ℕ) (outcome : (Status × UInt64) × Store) : Prop :=
  (outcome.1.1 = .ok ∧
      Accounted outcome.2 (update held outcome.1.2 (held outcome.1.2 + 1))) ∨
    (outcome.1.1 ≠ .ok ∧ Accounted outcome.2 held)

lemma Accounted.allocateOwnedObject (h : Accounted k held) (owner kind : UInt64) :
    Quiet k (k.allocateOwnedObject owner kind).2 ∧
      Allocation held (k.allocateOwnedObject owner kind) := by
  unfold Store.allocateOwnedObject
  split
  · exact ⟨Quiet.refl k, .inr ⟨nofun, h⟩⟩
  obtain ⟨haccount, hcaps, hframes, hobjects, hslot⟩ := h.quotaSlotForOwner owner
  generalize k.quotaSlotForOwner owner = found at haccount hcaps hframes hobjects hslot ⊢
  rcases found with ⟨_ | i, k₁⟩
  · exact ⟨quiet_of_objects hobjects, .inr ⟨nofun, haccount⟩⟩
  obtain ⟨howner, hquota⟩ := hslot i rfl
  dsimp only at haccount hcaps hframes hobjects hquota ⊢
  rw [← hcaps] at howner
  split
  · exact ⟨quiet_of_objects hobjects, .inr ⟨nofun, haccount⟩⟩
  rename_i hroom
  split
  · exact ⟨quiet_of_objects hobjects, .inr ⟨nofun, haccount⟩⟩
  rename_i o ho
  have hvacant : (k₁.object o).state = .empty := by
    have hfound := List.find?_some ho
    simpa using hfound
  rcases allocFrame_cases haccount.frames (frameKindFor kind) with
    ⟨hnone, hvalid, hsame⟩ | ⟨hsome, hvalid, j, hfree, hothers, hframe⟩
  · rw [if_pos hnone]
    refine ⟨quiet_of_objects hobjects, .inr ⟨nofun, haccount.setFrames hvalid ?_⟩⟩
    intro x hx
    obtain ⟨y, hy⟩ := haccount.frame x hx
    refine ⟨y, ?_, ?_⟩
    · rw [checkedIndex_eq_some, (hsame y).1.count, (hsame y).1.initialized, (hsame y).2]
      exact checkedIndex_eq_some.1 hy.checked
    · rw [(hsame y).2]
      exact hy.single
  · rw [if_neg hsome]
    obtain ⟨hundone, hundo⟩ := haccount.undoFrame hfree hothers hvalid hframe
    rcases retainCspace_cases k₁.caps owner with ⟨hrefused, hsame⟩ |
      ⟨hretained, hheaders, i', hi', hlease⟩
    · rw [if_pos hrefused, if_neg (by rw [hundone]; decide), hsame]
      exact ⟨quiet_of_objects hobjects, .inr ⟨nofun, hundo⟩⟩
    rw [howner, Option.some.injEq] at hi'
    subst hi'
    have hretainedValid := (invariantsHold_perform haccount.caps (.retainCspace owner)).1
    rw [if_neg hretained]
    split
    · rw [if_neg (by rw [hundone]; decide)]
      have hunleased := (invariantsHold_perform hretainedValid (.releaseCspace owner)).1
      have hback : SameHeaders k₁.caps
          ((k₁.caps.retainCspace owner).2.releaseCspace owner).2 ∧
          ∀ x, lease k₁.caps x ≤
            lease ((k₁.caps.retainCspace owner).2.releaseCspace owner).2 x := by
        rcases releaseCspace_cases (k₁.caps.retainCspace owner).2 owner with
          ⟨-, hsame, -⟩ | ⟨-, hheaders', i', hi', hlease'⟩
        · rw [hsame]
          refine ⟨hheaders, fun x => ?_⟩
          rw [hlease]
          omega
        rw [hheaders.checkedCspaceOwner, howner, Option.some.injEq] at hi'
        subst hi'
        refine ⟨⟨hheaders'.initialized.trans hheaders.initialized,
          fun x => (hheaders'.state x).trans (hheaders.state x),
          fun x => (hheaders'.generation x).trans (hheaders.generation x)⟩,
          fun x => ?_⟩
        rw [hlease', hlease]
        omega
      have hfinal := hundo.setCaps hunleased hback.1
        (fun x => (hundo.leased x).trans (hback.2 x))
      have hflag : Accounted
          ⟨((k₁.caps.retainCspace owner).2.releaseCspace owner).2,
            ((k₁.frames.allocFrame (frameKindFor kind)).2.releaseFrame
              (k₁.frames.allocFrame (frameKindFor kind)).1 (frameKindFor kind)).2,
            { k₁.memory with failAfterObjectPublish := false }⟩ held := { hfinal with }
      split
      · exact ⟨quiet_of_objects hobjects, .inr ⟨nofun, hflag⟩⟩
      · exact ⟨quiet_of_objects hobjects, .inr ⟨nofun, hflag⟩⟩
    · have hfresh : Fresh k₁ o i
          ⟨.live, kind, owner, (k₁.frames.allocFrame (frameKindFor kind)).1, 1,
            (k₁.object o).generation⟩
          (k₁.frames.allocFrame (frameKindFor kind)).2
          (k₁.caps.retainCspace owner).2 :=
        ⟨hvacant, rfl, rfl, rfl, howner, hquota, Nat.not_le.1 hroom, hvalid,
          ⟨j, hfree, hothers, hframe⟩, hretainedValid, hheaders, hlease⟩
      have hpublished := haccount.publish hfresh
      refine ⟨?_, .inl ⟨rfl, ?_⟩⟩
      · intro x hx
        have hxo : x ≠ o := by
          rintro rfl
          have hlive : (k.object x).state = .live := hx
          have hsame : k₁.object x = k.object x := congrFun hobjects x
          rw [hsame, hlive] at hvacant
          cases hvacant
        refine ⟨(k.object x).references, ?_⟩
        exact (object_publish k₁ o x i _ _ _).trans ((if_neg hxo).trans (congrFun hobjects x))
      · have hnew : (k₁.publish o i
            ⟨.live, kind, owner, (k₁.frames.allocFrame (frameKindFor kind)).1, 1,
              (k₁.object o).generation⟩
            (k₁.frames.allocFrame (frameKindFor kind)).2
            (k₁.caps.retainCspace owner).2).makeObjectHandle o =
              k₁.makeObjectHandle o := by
          rw [makeObjectHandle, object_publish, if_pos rfl]
          rfl
        rw [← hnew] at hpublished
        exact hpublished

end Updates

end Store

end Ostadix.MemoryObject
