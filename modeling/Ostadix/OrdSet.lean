import Mathlib.Order.Basic
import Mathlib.Order.Lattice
import Mathlib.Data.List.Basic
import Mathlib.Data.List.Nodup

/-! Finite sets as strictly increasing lists: equality of sets is equality of the lists. -/

namespace Ostadix

structure OrdSet (α : Type*) [LinearOrder α] where
  toList : List α
  sorted : toList.Pairwise (· < ·)

namespace OrdSet

variable {α β : Type*} [LinearOrder α] [LinearOrder β]

instance : DecidableEq (OrdSet α) := fun s t =>
  decidable_of_iff (s.toList = t.toList) (by cases s; cases t; simp)

instance : Membership α (OrdSet α) := ⟨fun s a => a ∈ s.toList⟩

instance (a : α) (s : OrdSet α) : Decidable (a ∈ s) :=
  inferInstanceAs (Decidable (a ∈ s.toList))

variable {a b : α} {s : OrdSet α}

@[simp] lemma mem_toList : a ∈ s.toList ↔ a ∈ s := Iff.rfl

def empty : OrdSet α := ⟨[], List.Pairwise.nil⟩

instance : EmptyCollection (OrdSet α) := ⟨empty⟩

instance : Inhabited (OrdSet α) := ⟨empty⟩

@[simp] lemma notMem_empty (a : α) : ¬a ∈ (∅ : OrdSet α) := List.not_mem_nil

def isEmpty (s : OrdSet α) : Bool := s.toList.isEmpty

lemma isEmpty_iff : s.isEmpty ↔ ∀ a, a ∉ s := by
  rw [isEmpty, List.isEmpty_iff, List.eq_nil_iff_forall_not_mem]
  rfl

/-- Two sets with the same members have the same list. -/
lemma ext {t : OrdSet α} (h : ∀ a, a ∈ s ↔ a ∈ t) : s = t := by
  obtain ⟨l, hl⟩ := s
  obtain ⟨m, hm⟩ := t
  have hperm : l.Perm m :=
    (List.perm_ext_iff_of_nodup (hl.imp ne_of_lt) (hm.imp ne_of_lt)).2 h
  have heq : l = m := hperm.eq_of_pairwise (fun a b _ _ hab hba => absurd hba hab.asymm) hl hm
  subst heq
  rfl

lemma nodup (s : OrdSet α) : s.toList.Nodup := s.sorted.imp ne_of_lt

/-! ## Insertion -/

def insertList (a : α) : List α → List α
  | [] => [a]
  | b :: l => if a < b then a :: b :: l else if b < a then b :: insertList a l else b :: l

lemma mem_insertList {a b : α} {l : List α} : b ∈ insertList a l ↔ b = a ∨ b ∈ l := by
  induction l with
  | nil => simp [insertList]
  | cons c l ih =>
    unfold insertList
    split_ifs with hac hca
    · simp
    · simp only [List.mem_cons, ih]
      tauto
    · have hc : a = c := le_antisymm (not_lt.1 hca) (not_lt.1 hac)
      simp [hc]

lemma insertList_sorted {a : α} {l : List α} (hl : l.Pairwise (· < ·)) :
    (insertList a l).Pairwise (· < ·) := by
  induction l with
  | nil => simp [insertList]
  | cons c l ih =>
    obtain ⟨hc, hl'⟩ := List.pairwise_cons.1 hl
    unfold insertList
    split_ifs with hac hca
    · refine List.pairwise_cons.2 ⟨fun b hb => ?_, hl⟩
      rcases List.mem_cons.1 hb with rfl | hb
      · exact hac
      · exact hac.trans (hc b hb)
    · refine List.pairwise_cons.2 ⟨fun b hb => ?_, ih hl'⟩
      rcases mem_insertList.1 hb with rfl | hb
      · exact hca
      · exact hc b hb
    · exact hl

def insert (a : α) (s : OrdSet α) : OrdSet α := ⟨insertList a s.toList, insertList_sorted s.sorted⟩

@[simp] lemma mem_insert : b ∈ s.insert a ↔ b = a ∨ b ∈ s := mem_insertList

def ofList (l : List α) : OrdSet α := l.foldr insert ∅

@[simp] lemma mem_ofList {a : α} {l : List α} : a ∈ ofList l ↔ a ∈ l := by
  induction l with
  | nil => simp [ofList]
  | cons b l ih =>
    have hcons : ofList (b :: l) = (ofList l).insert b := rfl
    rw [hcons, mem_insert, ih, List.mem_cons]

instance : Singleton α (OrdSet α) := ⟨fun a => ⟨[a], List.pairwise_singleton _ _⟩⟩

@[simp] lemma mem_singleton : b ∈ ({a} : OrdSet α) ↔ b = a := List.mem_singleton

def union (s t : OrdSet α) : OrdSet α := s.toList.foldr insert t

instance : Union (OrdSet α) := ⟨union⟩

@[simp] lemma mem_union {a : α} {s t : OrdSet α} : a ∈ s ∪ t ↔ a ∈ s ∨ a ∈ t := by
  obtain ⟨l, hl⟩ := s
  change a ∈ l.foldr insert t ↔ a ∈ l ∨ a ∈ t
  clear hl
  induction l with
  | nil => simp
  | cons b l ih => rw [List.foldr_cons, mem_insert, ih, List.mem_cons, or_assoc]

/-! ## Removal and the least element -/

def filter (p : α → Bool) (s : OrdSet α) : OrdSet α := ⟨s.toList.filter p, s.sorted.filter p⟩

@[simp] lemma mem_filter {p : α → Bool} :
    a ∈ s.filter p ↔ a ∈ s ∧ p a = true := List.mem_filter

def erase (s : OrdSet α) (a : α) : OrdSet α := s.filter (fun b => b ≠ a)

@[simp] lemma mem_erase : b ∈ s.erase a ↔ b ∈ s ∧ b ≠ a := by
  simp [erase]

def first? (s : OrdSet α) : Option α := s.toList.head?

lemma first?_eq_some : s.first? = some a ↔ a ∈ s ∧ ∀ b ∈ s, a ≤ b := by
  obtain ⟨l, hl⟩ := s
  change l.head? = some a ↔ a ∈ l ∧ ∀ b ∈ l, a ≤ b
  cases l with
  | nil => simp
  | cons c l =>
    have hc := (List.pairwise_cons.1 hl).1
    rw [List.head?_cons, Option.some_inj]
    constructor
    · rintro rfl
      refine ⟨List.mem_cons_self, fun b hb => ?_⟩
      rcases List.mem_cons.1 hb with rfl | hb
      · exact le_rfl
      · exact (hc b hb).le
    · rintro ⟨ha, hle⟩
      rcases List.mem_cons.1 ha with rfl | ha
      · rfl
      · exact absurd (hc a ha) (not_lt.2 (hle c List.mem_cons_self))

end OrdSet

end Ostadix
