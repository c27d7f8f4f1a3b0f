import Mathlib.Data.List.Basic

/-! Texts put together with a separator that is not escaped. -/

namespace Ostadix

open List

variable {α : Type} {sep : α} {p q s t : List α}

/-- Where two separated texts agree, both parts do, or one first part goes on past the separator. -/
lemma append_sep_eq (h : p ++ sep :: s = q ++ sep :: t) :
    (p = q ∧ s = t) ∨ (∃ r, q = p ++ sep :: r ∧ s = r ++ sep :: t) ∨
      ∃ r, p = q ++ sep :: r ∧ t = r ++ sep :: s := by
  rcases append_eq_append_iff.1 h with ⟨r, hq, hr⟩ | ⟨r, hp, hr⟩
  · cases r with
    | nil => simp_all
    | cons c r =>
      obtain ⟨hc, hs⟩ := List.cons.inj hr
      exact .inr (.inl ⟨r, hc ▸ hq, hs⟩)
  · cases r with
    | nil => simp_all
    | cons c r =>
      obtain ⟨hc, ht⟩ := List.cons.inj hr
      exact .inr (.inr ⟨r, hc ▸ hp, ht⟩)

/-- A first part without separators begins the other text. -/
lemma append_sep_left (hp : sep ∉ p) (h : p ++ sep :: s = q ++ sep :: t) :
    (q = p ∧ s = t) ∨ ∃ r, q = p ++ sep :: r ∧ s = r ++ sep :: t := by
  rcases append_sep_eq h with ⟨hpq, hst⟩ | h | ⟨r, hr, -⟩
  · exact .inl ⟨hpq.symm, hst⟩
  · exact .inr h
  · simp [hr] at hp

lemma append_sep_inj (hp : sep ∉ p) (hq : sep ∉ q) (h : p ++ sep :: s = q ++ sep :: t) :
    p = q ∧ s = t := by
  rcases append_sep_left hp h with ⟨hpq, hst⟩ | ⟨r, hr, -⟩
  · exact ⟨hpq.symm, hst⟩
  · simp [hr] at hq

/-- The last part is found from the end when it has no separators. -/
lemma append_sep_right (hs : sep ∉ s) (ht : sep ∉ t) (h : p ++ sep :: s = q ++ sep :: t) :
    p = q ∧ s = t := by
  rcases append_sep_eq h with h | ⟨r, -, hr⟩ | ⟨r, -, hr⟩
  · exact h
  · simp [hr] at hs
  · simp [hr] at ht

variable {xs : List (List α)}

/-- Joining is injective on parts that have no separators and are not empty. -/
lemma intercalate_sep_inj {ys : List (List α)} (hx : ∀ x ∈ xs, sep ∉ x ∧ x ≠ [])
    (hy : ∀ y ∈ ys, sep ∉ y ∧ y ≠ []) (h : [sep].intercalate xs = [sep].intercalate ys) :
    xs = ys := by
  induction xs generalizing ys with
  | nil =>
    match ys with
    | [] => rfl
    | [y] => simp_all [List.intercalate]
    | y :: z :: ys => simp [intercalate_cons_cons] at h
  | cons x xs ih =>
    match xs, ys with
    | [], [] => exact absurd (by simpa [List.intercalate] using h) (hx x (by simp)).2
    | z :: xs, [] => simp [intercalate_cons_cons] at h
    | [], [y] => simpa [List.intercalate] using h
    | [], y :: z :: ys =>
      have hmem : sep ∈ x := by
        simp only [intercalate_singleton, intercalate_cons_cons] at h
        simp [h]
      exact absurd hmem (hx x (by simp)).1
    | z :: xs, [y] =>
      have hmem : sep ∈ y := by
        simp only [intercalate_singleton, intercalate_cons_cons] at h
        simp [← h]
      exact absurd hmem (hy y (by simp)).1
    | z :: xs, y :: w :: ys =>
      simp only [intercalate_cons_cons, append_assoc, singleton_append] at h
      obtain ⟨hxy, hrest⟩ := append_sep_inj (hx x (by simp)).1 (hy y (by simp)).1 h
      have htail := ih (fun u hu => hx u (.tail _ hu)) (fun u hu => hy u (.tail _ hu)) hrest
      rw [hxy, htail]

lemma intercalate_ne_sep_cons (hx : ∀ x ∈ xs, sep ∉ x ∧ x ≠ []) :
    [sep].intercalate xs ≠ sep :: t := by
  intro h
  match xs with
  | [] => simp at h
  | x :: xs =>
    obtain ⟨hsep, hne⟩ := hx x (by simp)
    -- The first part is not empty, so the separator would be its first element.
    obtain ⟨c, x', rfl⟩ := exists_cons_of_ne_nil hne
    have hhead := congrArg List.head? h
    cases xs with
    | nil => simp_all
    | cons y xs => simp_all [intercalate_cons_cons]

/-- Joined parts do not have two separators in a row. -/
lemma intercalate_ne_double (hx : ∀ x ∈ xs, sep ∉ x ∧ x ≠ []) :
    [sep].intercalate xs ≠ s ++ sep :: sep :: t := by
  intro h
  induction xs generalizing s with
  | nil => simp at h
  | cons x xs ih =>
    obtain ⟨hsep, -⟩ := hx x (by simp)
    have hxs : ∀ y ∈ xs, sep ∉ y ∧ y ≠ [] := fun y hy => hx y (.tail _ hy)
    cases xs with
    | nil =>
      rw [intercalate_singleton] at h
      simp [h] at hsep
    | cons y xs =>
      rw [intercalate_cons_cons, append_assoc, singleton_append] at h
      rcases append_sep_left hsep h with ⟨-, hrest⟩ | ⟨r, -, hrest⟩
      · exact intercalate_ne_sep_cons hxs hrest
      · exact ih hxs hrest

/-- Where a double separator comes first it is found again, whatever stands before it. -/
lemma append_double_inj (hs : ∀ r u, s ≠ r ++ sep :: sep :: u) (hs' : ∀ u, s ≠ sep :: u)
    (ht : ∀ r u, t ≠ r ++ sep :: sep :: u) (ht' : ∀ u, t ≠ sep :: u)
    (h : p ++ sep :: sep :: s = q ++ sep :: sep :: t) : p = q ∧ s = t := by
  rcases append_sep_eq h with ⟨hpq, hst⟩ | ⟨r, -, hr⟩ | ⟨r, -, hr⟩
  · exact ⟨hpq, (List.cons.inj hst).2⟩
  · match r with
    | [] => exact absurd (List.cons.inj hr).2 (hs' t)
    | c :: r => exact absurd (List.cons.inj hr).2 (hs r t)
  · match r with
    | [] => exact absurd (List.cons.inj hr).2 (ht' s)
    | c :: r => exact absurd (List.cons.inj hr).2 (ht r s)

end Ostadix
