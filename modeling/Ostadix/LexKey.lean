import Ostadix.Wire
import Mathlib.Data.List.Lex

/-! Linear orders from prefix codes: records are compared by fields and unions by the tag first. -/

namespace Ostadix

class LexKey (α : Type) where
  key : α → List ℕ
  append_inj : ∀ {a b : α} {s t : List ℕ}, key a ++ s = key b ++ t → a = b ∧ s = t

namespace LexKey

variable {α β : Type}

lemma key_injective [LexKey α] : Function.Injective (key : α → List ℕ) := by
  intro a b hab
  have happend : key a ++ [] = key b ++ [] := by rw [hab]
  exact (append_inj happend).1

/-- Values are compared by their codes. -/
abbrev linearOrder (α : Type) [LexKey α] : LinearOrder α := LinearOrder.lift' key key_injective

instance : LexKey ℕ where
  key n := [n]
  append_inj h := by simpa using h

abbrev ofInjective [LexKey β] (f : α → β) (hf : Function.Injective f) : LexKey α where
  key a := key (f a)
  append_inj h := ⟨hf (append_inj h).1, (append_inj h).2⟩

instance : LexKey UInt32 := ofInjective UInt32.toNat fun _ _ => UInt32.toNat_inj.1

instance : LexKey UInt64 := ofInjective UInt64.toNat fun _ _ => UInt64.toNat_inj.1

instance [LexKey α] [LexKey β] : LexKey (α × β) where
  key x := key x.1 ++ key x.2
  append_inj h := by
    rw [List.append_assoc, List.append_assoc] at h
    obtain ⟨hfst, h⟩ := append_inj h
    obtain ⟨hsnd, h⟩ := append_inj h
    exact ⟨Prod.ext hfst hsnd, h⟩

/-- Numbers that are never zero can be ended by a zero. -/
lemma terminated_inj {l m s t : List ℕ} (h : l.map (· + 1) ++ 0 :: s = m.map (· + 1) ++ 0 :: t) :
    l = m ∧ s = t := by
  induction l generalizing m with
  | nil =>
    cases m with
    | nil => simpa using h
    | cons b m => simp at h
  | cons a l ih =>
    cases m with
    | nil => simp at h
    | cons b m =>
      simp only [List.map_cons, List.cons_append, List.cons.injEq, Nat.add_right_cancel_iff] at h
      obtain ⟨hlm, hst⟩ := ih h.2
      exact ⟨by rw [h.1, hlm], hst⟩

-- Strings compare as their bytes do; the terminator puts a string before its extensions.
instance : LexKey String where
  key s := ((Wire.utf8 s).map UInt8.toNat).map (· + 1) ++ [0]
  append_inj h := by
    rw [List.append_assoc, List.append_assoc] at h
    obtain ⟨hbytes, hrest⟩ := terminated_inj h
    refine ⟨Wire.utf8_injective ?_, hrest⟩
    exact (List.map_injective_iff.2 fun _ _ => UInt8.toNat_inj.1) hbytes

instance {ε : Type} (check : α → Except ε Unit) [LexKey α] : LexKey (Checked check) :=
  ofInjective Checked.value fun _ _ h => Checked.ext h

/-- A tagged union is compared by the tag and, under the same tag, by the payload. -/
abbrev tagged (tag : α → ℕ) (payload : α → List ℕ)
    (h : ∀ a b, tag a = tag b → ∀ s t, payload a ++ s = payload b ++ t → a = b ∧ s = t) :
    LexKey α where
  key a := tag a :: payload a
  append_inj {a b s t} hab := by
    obtain ⟨htag, hpayload⟩ := List.cons.inj hab
    exact h a b htag s t hpayload

end LexKey

end Ostadix
