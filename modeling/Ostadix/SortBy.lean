import Mathlib.Data.List.Sort
import Mathlib.Data.List.Lex

/-! Stable sorting of a list by a key. -/

namespace Ostadix

variable {α β κ : Type} [LinearOrder κ]

def sortBy (key : α → κ) (l : List α) : List α := l.insertionSort (fun a b => key a ≤ key b)

instance keyTotal (key : α → κ) : Std.Total (fun a b => key a ≤ key b) :=
  ⟨fun a b => le_total (key a) (key b)⟩

instance keyTrans (key : α → κ) : IsTrans α (fun a b => key a ≤ key b) :=
  ⟨fun _ _ _ hab hbc => le_trans hab hbc⟩

lemma perm_sortBy (key : α → κ) (l : List α) : (sortBy key l).Perm l := List.perm_insertionSort _ l

variable {f key : α → κ} {l m : List α}

@[simp] lemma mem_sortBy {a : α} : a ∈ sortBy f l ↔ a ∈ l := (perm_sortBy f l).mem_iff

@[simp] lemma length_sortBy (key : α → κ) (l : List α) : (sortBy key l).length = l.length :=
  (perm_sortBy key l).length_eq

lemma pairwise_sortBy (key : α → κ) (l : List α) :
    (sortBy key l).Pairwise (fun a b => key a ≤ key b) :=
  List.pairwise_insertionSort _ l

lemma sortBy_eq_self (h : l.Pairwise (fun a b => key a ≤ key b)) : sortBy key l = l :=
  List.Pairwise.insertionSort_eq h

/-- Lists with the same elements, told apart by their keys, have the same sorted form. -/
lemma sortBy_eq_of_perm (h : l.Perm m) (hinj : ∀ a ∈ l, ∀ b ∈ l, f a = f b → a = b) :
    sortBy f l = sortBy f m := by
  have hperm : (sortBy f l).Perm (sortBy f m) :=
    (perm_sortBy f l).trans (h.trans (perm_sortBy f m).symm)
  refine hperm.eq_of_pairwise ?_ (pairwise_sortBy f l) (pairwise_sortBy f m)
  intro a b ha hb hab hba
  exact hinj a (mem_sortBy.1 ha) b (h.mem_iff.2 (mem_sortBy.1 hb)) (le_antisymm hab hba)

lemma sortBy_eq_iff (hinj : Function.Injective f) : sortBy f l = sortBy f m ↔ l.Perm m := by
  constructor
  · intro h
    exact (perm_sortBy f l).symm.trans (h ▸ perm_sortBy f m)
  · intro h
    exact sortBy_eq_of_perm h fun a _ b _ hab => hinj hab

/-- Sorting commutes with a map that keeps the keys. -/
lemma map_sortBy (f : α → β) (key : β → κ) (l : List α) :
    (sortBy (fun a => key (f a)) l).map f = sortBy key (l.map f) :=
  List.map_insertionSort _ _ f l (fun _ _ _ _ => Iff.rfl)

def anyAdjacent (same : α → α → Bool) : List α → Bool
  | a :: b :: l => same a b || anyAdjacent same (b :: l)
  | _ => false

variable {same : α → α → Bool}

/-- In a list that is in order, equal keys are next to each other. -/
lemma anyAdjacent_eq_false_iff {f : α → κ} (hsame : ∀ a b, same a b ↔ f a = f b) {l : List α}
    (hl : l.Pairwise (fun a b => f a ≤ f b)) :
    anyAdjacent same l = false ↔ l.Pairwise (fun a b => f a < f b) := by
  induction l with
  | nil => simp [anyAdjacent]
  | cons a l ih =>
    cases l with
    | nil => simp [anyAdjacent]
    | cons b l =>
      obtain ⟨hhead, htail⟩ := List.pairwise_cons.1 hl
      have hneq : same a b = false ↔ f a < f b := by
        rw [Bool.eq_false_iff, ne_eq, hsame, lt_iff_le_and_ne]
        exact (and_iff_right (hhead b (by simp))).symm
      have : IsTrans α (fun a b => f a < f b) := ⟨fun _ _ _ => lt_trans⟩
      rw [anyAdjacent, Bool.or_eq_false_iff, ih htail, hneq, ← List.isChain_iff_pairwise,
        ← List.isChain_iff_pairwise, List.isChain_cons_cons]

/-- Sorting without repeated keys finds the one arrangement with increasing keys. -/
lemma sortBy_strict_iff (hsame : ∀ a b, same a b ↔ key a = key b) :
    sortBy key l = m ∧ anyAdjacent same m = false ↔
      m.Perm l ∧ m.Pairwise (fun a b => key a < key b) := by
  constructor
  · rintro ⟨rfl, h⟩
    exact ⟨perm_sortBy key l, (anyAdjacent_eq_false_iff hsame (pairwise_sortBy key l)).1 h⟩
  · rintro ⟨hperm, hstrict⟩
    have hle : m.Pairwise (fun a b => key a ≤ key b) := hstrict.imp le_of_lt
    have hsorted : sortBy key l = m := by
      have hinj : ∀ a ∈ l, ∀ b ∈ l, key a = key b → a = b := by
        intro a ha b hb hab
        have hnodup : (m.map key).Nodup := List.pairwise_map.2 (hstrict.imp ne_of_lt)
        exact List.inj_on_of_nodup_map hnodup (hperm.mem_iff.2 ha) (hperm.mem_iff.2 hb) hab
      rw [sortBy_eq_of_perm hperm.symm hinj, sortBy_eq_self hle]
    exact ⟨hsorted, (anyAdjacent_eq_false_iff hsame hle).2 hstrict⟩

omit [LinearOrder κ] in
lemma same_iff {f : β → κ} (hf : Function.Injective f) {g : α → β} [DecidableEq β] (a b : α) :
    decide (g a = g b) ↔ f (g a) = f (g b) := by
  rw [decide_eq_true_iff, hf.eq_iff]

/-- Sorting without repeated keys forgets the order the elements came in. -/
lemma sortBy_perm (hsame : ∀ a b, same a b ↔ key a = key b)
    (hadjacent : anyAdjacent same (sortBy key l) = false) (hperm : l.Perm m) :
    sortBy key m = sortBy key l := by
  obtain ⟨hsorted, hstrict⟩ := (sortBy_strict_iff hsame).1 ⟨rfl, hadjacent⟩
  exact ((sortBy_strict_iff hsame).2 ⟨hsorted.trans hperm, hstrict⟩).1

end Ostadix
