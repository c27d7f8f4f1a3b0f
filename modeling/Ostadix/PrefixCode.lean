import Ostadix.Wire
import Mathlib.Data.List.Forall2

/-! Encodings that can be told apart at the front of a longer string, if shorter than `2 ^ 64`. -/

namespace Ostadix

open Wire List

section Splits

variable {α β γ : Type}

/-- Where the encoding of `a` stands and `b`'s could be read, they are related and the rest agrees.
-/
def Splits (enc : α → Bytes) (R : α → α → Prop) (a : α) : Prop :=
  ∀ b s t, (enc a).length < 2 ^ 64 → (enc b).length < 2 ^ 64 → enc a ++ s = enc b ++ t →
    R a b ∧ s = t

variable {enc : α → Bytes} {R : α → α → Prop}

lemma Splits.mono {R' : α → α → Prop} {a : α} (h : Splits enc R a) (hR : ∀ b, R a b → R' a b) :
    Splits enc R' a := by
  intro b s t ha hb heq
  obtain ⟨hab, hst⟩ := h b s t ha hb heq
  exact ⟨hR b hab, hst⟩

lemma Splits.comap (f : γ → α) {c : γ} (h : Splits enc R (f c)) :
    Splits (fun c => enc (f c)) (fun c d => R (f c) (f d)) c :=
  fun d s t hc hd heq => h (f d) s t hc hd heq

lemma Splits.append {e₁ : α → Bytes} {e₂ : β → Bytes} {R₁ : α → α → Prop} {R₂ : β → β → Prop}
    {a : α} {b : β} (h₁ : Splits e₁ R₁ a) (h₂ : Splits e₂ R₂ b) :
    Splits (fun p : α × β => e₁ p.1 ++ e₂ p.2) (fun p q => R₁ p.1 q.1 ∧ R₂ p.2 q.2) (a, b) := by
  rintro ⟨a', b'⟩ s t ha hb heq
  simp only [length_append, append_assoc] at ha hb heq
  obtain ⟨haa, heq⟩ := h₁ a' _ _ (by omega) (by omega) heq
  obtain ⟨hbb, hst⟩ := h₂ b' _ _ (by omega) (by omega) heq
  exact ⟨⟨haa, hbb⟩, hst⟩

lemma splits_of_length {n : ℕ} (hlen : ∀ a, (enc a).length = n) (hinj : Function.Injective enc)
    (a : α) : Splits enc Eq a := by
  intro b s t _ _ heq
  obtain ⟨hab, hst⟩ := append_inj heq ((hlen a).trans (hlen b).symm)
  exact ⟨hinj hab, hst⟩

lemma splits_putU64 (v : UInt64) : Splits putU64 Eq v := by
  refine splits_of_length length_putU64 ?_ v
  intro v w h
  rw [← getU64_putU64 v, h, getU64_putU64]

lemma ofNat_inj_of_lt {m n : ℕ} (hm : m < 2 ^ 64) (hn : n < 2 ^ 64)
    (h : UInt64.ofNat m = UInt64.ofNat n) : m = n := by
  rw [← UInt64.toNat_ofNat_of_lt' hm, ← UInt64.toNat_ofNat_of_lt' hn, h]

lemma splits_sized (bytes : Bytes) :
    Splits (fun bytes => putU64 (UInt64.ofNat bytes.length) ++ bytes) Eq bytes := by
  intro bytes' s t ha hb heq
  simp only [length_append, append_assoc] at ha hb heq
  obtain ⟨hlen, heq⟩ := splits_putU64 _ _ _ _ (by simp) (by simp) heq
  exact append_inj heq (ofNat_inj_of_lt (by omega) (by omega) hlen)

lemma length_le_length_flatMap {enc : α → Bytes} (hne : ∀ a, enc a ≠ []) (l : List α) :
    l.length ≤ (l.flatMap enc).length := by
  induction l with
  | nil => exact Nat.zero_le _
  | cons a l ih =>
    have ha := length_pos_iff.2 (hne a)
    rw [flatMap_cons, length_append, length_cons]
    omega

lemma splits_flatMap {enc : α → Bytes} {R : α → α → Prop} {l m : List α} {s t : Bytes}
    (h : ∀ a ∈ l, Splits enc R a) (hlen : l.length = m.length)
    (hl : (l.flatMap enc).length < 2 ^ 64) (hm : (m.flatMap enc).length < 2 ^ 64)
    (heq : l.flatMap enc ++ s = m.flatMap enc ++ t) : List.Forall₂ R l m ∧ s = t := by
  induction l generalizing m with
  | nil =>
    obtain rfl := length_eq_zero_iff.1 hlen.symm
    exact ⟨.nil, heq⟩
  | cons a l ih =>
    cases m with
    | nil => cases hlen
    | cons b m =>
      simp only [flatMap_cons, length_append, append_assoc] at hl hm heq
      obtain ⟨hab, heq⟩ := h a (by simp) b _ _ (by omega) (by omega) heq
      obtain ⟨hrest, hst⟩ := ih (fun c hc => h c (by simp [hc])) (Nat.succ.inj hlen) (by omega)
        (by omega) heq
      exact ⟨.cons hab hrest, hst⟩

lemma splits_counted (hne : ∀ a, enc a ≠ []) {l : List α} (h : ∀ a ∈ l, Splits enc R a) :
    Splits (fun l => putU64 (UInt64.ofNat l.length) ++ l.flatMap enc) (List.Forall₂ R) l := by
  intro m s t hl hm heq
  simp only [length_append, append_assoc] at hl hm heq
  have hlenl := length_le_length_flatMap hne l
  have hlenm := length_le_length_flatMap hne m
  obtain ⟨hlen, heq⟩ := splits_putU64 _ _ _ _ (by simp) (by simp) heq
  exact splits_flatMap h (ofNat_inj_of_lt (by omega) (by omega) hlen) (by omega) (by omega) heq

end Splits

end Ostadix
