import Ostadix.Basic
import Mathlib.Data.List.AList

/-! Finite maps as association lists without repeated keys, and loops that visit or fill them. -/

namespace Ostadix

open List

abbrev Table (K V : Type) := AList (fun _ : K => V)

namespace Table

variable {K V A ε : Type} [DecidableEq K]

variable {t t' : Table K V} {k : K} {v : V} {u : Unit} {l : List A}

lemma mem_entries : ⟨k, v⟩ ∈ t.entries ↔ t.lookup k = some v := AList.mem_lookup_iff.symm

lemma mem_iff : k ∈ t ↔ ∃ v, t.lookup k = some v := by
  rw [← AList.lookup_isSome, Option.isSome_iff_exists]

lemma lookup_insert_eq_ite (t : Table K V) (k k' : K) (v : V) :
    (t.insert k v).lookup k' = if k' = k then some v else t.lookup k' := by
  split
  · next h =>
    subst h
    exact AList.lookup_insert t
  · next h => exact AList.lookup_insert_ne h

/-- A loop over the entries checks every binding. -/
lemma forM_entries_eq_ok {f : K → V → Except ε Unit} :
    (t.entries.forM fun e => f e.1 e.2) = .ok u ↔ ∀ k v, t.lookup k = some v → f k v = .ok () := by
  rw [forM_eq_ok]
  constructor
  · intro h k v hv
    exact h ⟨k, v⟩ (mem_entries.2 hv)
  · rintro h ⟨k, v⟩ hmem
    exact h k v (mem_entries.1 hmem)

lemma forM_keys_eq_ok {f : K → Except ε Unit} :
    t.keys.forM f = .ok u ↔ ∀ k v, t.lookup k = some v → f k = .ok () := by
  rw [forM_eq_ok]
  constructor
  · intro h k v hv
    exact h k (mem_iff.2 ⟨v, hv⟩)
  · intro h k hk
    obtain ⟨v, hv⟩ := mem_iff.1 hk
    exact h k v hv

/-! ## Changing values in place -/

def mapValues (f : K → V → V) (t : Table K V) : Table K V where
  entries := t.entries.map (.map id f)
  nodupKeys := by
    have hnodup := t.nodupKeys
    rw [List.NodupKeys, List.keys] at hnodup ⊢
    rw [List.map_map]
    exact hnodup

@[simp] lemma lookup_mapValues (f : K → V → V) (t : Table K V) (k : K) :
    (t.mapValues f).lookup k = (t.lookup k).map (f k) := dlookup_map₂ k

omit [DecidableEq K] in
@[simp] lemma keys_mapValues (f : K → V → V) (t : Table K V) : (t.mapValues f).keys = t.keys := by
  simp only [AList.keys, List.keys, mapValues, List.map_map]
  rfl

def replace (t : Table K V) (k : K) (v : V) : Table K V :=
  t.mapValues fun k' v' => if k' = k then v else v'

@[simp] lemma keys_replace (t : Table K V) (k : K) (v : V) : (t.replace k v).keys = t.keys :=
  keys_mapValues _ t

lemma lookup_replace {v₀ : V} (h : t.lookup k = some v₀) (k' : K) :
    (t.replace k v).lookup k' = if k' = k then some v else t.lookup k' := by
  rw [replace, lookup_mapValues]
  split
  · next heq =>
    subst heq
    simp [h]
  · simp

/-- Tables that list the same keys and bind them to the same values are equal. -/
lemma ext_lookup {u : Table K V} (hkeys : t.keys = u.keys) (h : ∀ k, t.lookup k = u.lookup k) :
    t = u := by
  have hentries : ∀ t : Table K V,
      t.keys.filterMap (fun k => (t.lookup k).map fun v => (⟨k, v⟩ : (_ : K) × V)) = t.entries := by
    intro t
    rw [AList.keys, List.keys, List.filterMap_map]
    conv_rhs => rw [← filterMap_some (l := t.entries)]
    apply filterMap_congr
    rintro ⟨k, v⟩ hmem
    rw [Function.comp_apply, mem_entries.1 hmem]
    rfl
  apply AList.ext
  rw [← hentries t, ← hentries u, hkeys]
  simp only [h]

/-! ## Collecting bindings -/

def checkNew (repeated : V → ε) : Option V → Except ε Unit
  | none => .ok ()
  | some previous => .error (repeated previous)

@[simp] lemma checkNew_eq_ok {repeated : V → ε} {previous : Option V} :
    checkNew repeated previous = .ok u ↔ previous = none := by
  cases previous <;> simp [checkNew]

/-- Bind a new key, then make a further check. -/
def bindNew (repeated : K → V → V → ε) (check : Except ε Unit) (t : Table K V) :
    Option (K × V) → Except ε (Table K V)
  | none => .ok t
  | some (k, v) => do
    checkNew (fun previous => repeated k previous v) (t.lookup k)
    check
    return t.insert k v

/-- Read at most one binding off every element of a list. -/
def collect (entry : A → Except ε (Option (K × V))) (repeated : K → V → V → ε)
    (check : A → Except ε Unit) (t : Table K V) (l : List A) : Except ε (Table K V) :=
  l.foldlM (fun t a => do bindNew repeated (check a) t (← entry a)) t

variable {entry : A → Except ε (Option (K × V))} {repeated : K → V → V → ε}
  {check : A → Except ε Unit}

lemma bindNew_some_eq_ok {c : Except ε Unit} :
    bindNew repeated c t (some (k, v)) = .ok t' ↔
      t.lookup k = none ∧ c = .ok () ∧ t' = t.insert k v := by
  simp only [bindNew, bind_eq_ok, checkNew_eq_ok]
  constructor
  · rintro ⟨⟨⟩, hnew, ⟨⟩, hcheck, hinsert⟩
    cases hinsert
    exact ⟨hnew, hcheck, rfl⟩
  · rintro ⟨hnew, hcheck, rfl⟩
    exact ⟨(), hnew, (), hcheck, rfl⟩

lemma collect_cons {a : A} :
    collect entry repeated check t (a :: l) = .ok t' ↔
      ∃ r, entry a = .ok r ∧ ∃ t₁, bindNew repeated (check a) t r = .ok t₁ ∧
        collect entry repeated check t₁ l = .ok t' := by
  simp only [collect, foldlM_cons, bind_eq_ok]
  constructor
  · rintro ⟨t₁, ⟨r, hr, hbind⟩, hrest⟩
    exact ⟨r, hr, t₁, hbind, hrest⟩
  · rintro ⟨r, hr, t₁, hbind, hrest⟩
    exact ⟨t₁, ⟨r, hr, hbind⟩, hrest⟩

/-- What collecting requires of the elements of a list. -/
structure Collectable (entry : A → Except ε (Option (K × V))) (check : A → Except ε Unit)
    (l : List A) : Prop where
  reads : ∀ a ∈ l, ∃ r, entry a = .ok r
  checks : ∀ a ∈ l, ∀ k v, entry a = .ok (some (k, v)) → check a = .ok ()
  distinct : l.Pairwise fun a b =>
    ∀ k v w, entry a = .ok (some (k, v)) → entry b ≠ .ok (some (k, w))

def Unbound (entry : A → Except ε (Option (K × V))) (t : Table K V) (l : List A) : Prop :=
  ∀ a ∈ l, ∀ k v, entry a = .ok (some (k, v)) → t.lookup k = none

lemma unbound_insert :
    Unbound entry (t.insert k v) l ↔
      Unbound entry t l ∧ ∀ a ∈ l, ∀ w, entry a ≠ .ok (some (k, w)) := by
  constructor
  · intro h
    constructor
    · intro a ha k' v' hentry
      have hnone := h a ha k' v' hentry
      rw [lookup_insert_eq_ite] at hnone
      split at hnone
      · cases hnone
      · exact hnone
    · intro a ha w hentry
      have hnone := h a ha k w hentry
      rw [lookup_insert_eq_ite, if_pos rfl] at hnone
      cases hnone
  · rintro ⟨h, hne⟩ a ha k' v' hentry
    rw [lookup_insert_eq_ite, if_neg]
    · exact h a ha k' v' hentry
    · rintro rfl
      exact hne a ha v' hentry

lemma exists_collect_iff :
    (∃ t', collect entry repeated check t l = .ok t') ↔
      Collectable entry check l ∧ Unbound entry t l := by
  induction l generalizing t with
  | nil =>
    refine ⟨fun _ => ⟨⟨by simp, by simp, .nil⟩, by simp [Unbound]⟩, fun _ => ⟨t, rfl⟩⟩
  | cons a l ih =>
    constructor
    · rintro ⟨t', h⟩
      obtain ⟨r, hr, t₁, hbind, hrest⟩ := collect_cons.1 h
      obtain ⟨hl, hunbound⟩ := ih.1 ⟨t', hrest⟩
      rcases r with _ | ⟨k, v⟩
      · have hno : ∀ k v, entry a ≠ .ok (some (k, v)) := fun k v h => by simp [hr] at h
        cases hbind
        refine ⟨⟨?_, ?_, pairwise_cons.2 ⟨?_, hl.distinct⟩⟩, ?_⟩
        · exact forall_mem_cons.2 ⟨⟨none, hr⟩, hl.reads⟩
        · exact forall_mem_cons.2 ⟨fun k v h => absurd h (hno k v), hl.checks⟩
        · intro b _ k v w h
          exact absurd h (hno k v)
        · exact forall_mem_cons.2 ⟨fun k v h => absurd h (hno k v), hunbound⟩
      · obtain ⟨hnew, hcheck, rfl⟩ := bindNew_some_eq_ok.1 hbind
        have hkey : ∀ k' v', entry a = .ok (some (k', v')) → k' = k := fun k' v' h => by
          rw [hr] at h
          cases h
          rfl
        obtain ⟨hunbound, hne⟩ := unbound_insert.1 hunbound
        refine ⟨⟨?_, ?_, pairwise_cons.2 ⟨?_, hl.distinct⟩⟩, ?_⟩
        · exact forall_mem_cons.2 ⟨⟨_, hr⟩, hl.reads⟩
        · exact forall_mem_cons.2 ⟨fun _ _ _ => hcheck, hl.checks⟩
        · intro b hb k' v' w h
          rw [hkey k' v' h]
          exact hne b hb w
        · refine forall_mem_cons.2 ⟨fun k' v' h => ?_, hunbound⟩
          rw [hkey k' v' h]
          exact hnew
    · rintro ⟨hl, hunbound⟩
      obtain ⟨hreads, hreads'⟩ := forall_mem_cons.1 hl.reads
      obtain ⟨hchecks, hchecks'⟩ := forall_mem_cons.1 hl.checks
      obtain ⟨hdistinct, hdistinct'⟩ := pairwise_cons.1 hl.distinct
      obtain ⟨hnew, hunbound'⟩ := forall_mem_cons.1 hunbound
      obtain ⟨r, hr⟩ := hreads
      have hrest : Collectable entry check l := ⟨hreads', hchecks', hdistinct'⟩
      rcases r with _ | ⟨k, v⟩
      · obtain ⟨t', ht'⟩ := ih.2 ⟨hrest, hunbound'⟩
        exact ⟨t', collect_cons.2 ⟨none, hr, t, rfl, ht'⟩⟩
      obtain ⟨t', ht'⟩ := ih.2 ⟨hrest, unbound_insert.2
        ⟨hunbound', fun b hb w => hdistinct b hb k v w hr⟩⟩
      refine ⟨t', collect_cons.2 ⟨_, hr, t.insert k v, ?_, ht'⟩⟩
      exact bindNew_some_eq_ok.2 ⟨hnew k v hr, hchecks k v hr, rfl⟩

lemma lookup_of_collect (h : collect entry repeated check t l = .ok t') :
    t'.lookup k = some v ↔ t.lookup k = some v ∨ ∃ a ∈ l, entry a = .ok (some (k, v)) := by
  induction l generalizing t with
  | nil =>
    cases h
    simp
  | cons a l ih =>
    obtain ⟨r, hr, t₁, hbind, hrest⟩ := collect_cons.1 h
    rw [ih hrest]
    simp only [mem_cons, exists_eq_or_imp, hr]
    rcases r with _ | ⟨k', v'⟩
    · cases hbind
      simp
    obtain ⟨hnew, -, rfl⟩ := bindNew_some_eq_ok.1 hbind
    rw [lookup_insert_eq_ite]
    split
    · next heq =>
      subst heq
      simp [hnew]
    · next hne => simp [Ne.symm hne]

end Table

end Ostadix
