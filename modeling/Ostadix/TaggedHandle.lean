import Mathlib.Data.Nat.Bitwise
import Mathlib.Data.UInt

/-! Handles of one word: a generation above a tag and an index, or only an index. -/

namespace Ostadix.TaggedHandle

def tagOf (handle : UInt64) : UInt64 := handle &&& 0xff000000

def index (handle : UInt64) : ℕ := (handle &&& 0x00ffffff).toNat

def slot (handle : UInt64) : ℕ := (handle &&& 0xffffffff).toNat

def generation (handle : UInt64) : UInt32 := (handle >>> 32).toUInt32

def make (tag : UInt64) (generation : UInt32) (index : ℕ) : UInt64 :=
  (generation.toUInt64 <<< 32) ||| tag ||| UInt64.ofNat index

/-- The tag is made of the bits that a tag may use. -/
def IsTag (tag : UInt64) : Prop := tag.toNat % 2 ^ 24 = 0 ∧ tag.toNat < 2 ^ 32

instance (tag : UInt64) : Decidable (IsTag tag) := inferInstanceAs (Decidable (_ ∧ _))

/-! ## Arithmetic -/

lemma shift_amount : (32 : UInt64).toNat % 64 = 32 := by decide

lemma toNat_generation (handle : UInt64) : (generation handle).toNat = handle.toNat / 2 ^ 32 := by
  have hbound := handle.toNat_lt
  rw [generation, UInt64.toNat_toUInt32, UInt64.toNat_shiftRight, shift_amount,
    Nat.shiftRight_eq_div_pow]
  omega

lemma index_eq (handle : UInt64) : index handle = handle.toNat % 2 ^ 24 := by
  rw [index, UInt64.toNat_and]
  exact Nat.and_two_pow_sub_one_eq_mod handle.toNat 24

lemma slot_eq (handle : UInt64) : slot handle = handle.toNat % 2 ^ 32 := by
  rw [slot, UInt64.toNat_and]
  exact Nat.and_two_pow_sub_one_eq_mod handle.toNat 32

lemma toNat_tagOf (handle : UInt64) :
    (tagOf handle).toNat = handle.toNat / 2 ^ 24 % 2 ^ 8 * 2 ^ 24 := by
  rw [tagOf, UInt64.toNat_and]
  -- The mask is eight ones above the bits of the index.
  have hmask : (0xff000000 : UInt64).toNat = (2 ^ 8 - 1) <<< 24 := by decide
  rw [hmask, ← Nat.and_two_pow_sub_one_eq_mod, ← Nat.shiftRight_eq_div_pow, ← Nat.shiftLeft_eq]
  apply Nat.eq_of_testBit_eq
  intro i
  simp only [Nat.testBit_and, Nat.testBit_shiftLeft, Nat.testBit_shiftRight]
  by_cases hi : 24 ≤ i
  · simp [hi]
  · simp [hi]

lemma toNat_make {tag : UInt64} (htag : IsTag tag) (g : UInt32) {i : ℕ} (hi : i < 2 ^ 24) :
    (make tag g i).toNat = g.toNat * 2 ^ 32 + tag.toNat + i := by
  obtain ⟨hlow, hhigh⟩ := htag
  have hg := g.toNat_lt
  have hshift : (g.toUInt64 <<< 32).toNat = g.toNat <<< 32 := by
    rw [UInt64.toNat_shiftLeft, shift_amount, UInt32.toNat_toUInt64, Nat.shiftLeft_eq]
    omega
  have hindex : (UInt64.ofNat i).toNat = i := by
    rw [UInt64.toNat_ofNat']
    omega
  have htagged : tag.toNat ||| i = tag.toNat + i := by
    have hdiv : tag.toNat = (tag.toNat / 2 ^ 24) <<< 24 := by
      rw [Nat.shiftLeft_eq]
      omega
    rw [hdiv, ← Nat.shiftLeft_add_eq_or_of_lt hi]
  rw [make, UInt64.toNat_or, UInt64.toNat_or, hshift, hindex, Nat.lor_assoc, htagged,
    ← Nat.shiftLeft_add_eq_or_of_lt (by omega), Nat.shiftLeft_eq]
  omega

/-! ## Making and reading handles -/

section Tagged

variable {tag : UInt64} (htag : IsTag tag) (g : UInt32) {i : ℕ}

include htag

lemma tagOf_make (hi : i < 2 ^ 24) : tagOf (make tag g i) = tag := by
  apply UInt64.toNat_inj.1
  obtain ⟨hlow, hhigh⟩ := id htag
  rw [toNat_tagOf, toNat_make htag g hi]
  omega

lemma index_make (hi : i < 2 ^ 24) : index (make tag g i) = i := by
  obtain ⟨hlow, hhigh⟩ := id htag
  rw [index_eq, toNat_make htag g hi]
  omega

lemma generation_make (hi : i < 2 ^ 24) : generation (make tag g i) = g := by
  apply UInt32.toNat_inj.1
  obtain ⟨hlow, hhigh⟩ := id htag
  rw [toNat_generation, toNat_make htag g hi]
  omega

lemma eq_make {handle : UInt64} (h : tagOf handle = tag) :
    handle = make tag (generation handle) (index handle) := by
  have hindex : index handle < 2 ^ 24 := by
    rw [index_eq]
    omega
  have hbound := handle.toNat_lt
  apply UInt64.toNat_inj.1
  rw [toNat_make htag _ hindex, toNat_generation, index_eq, ← h, toNat_tagOf]
  omega

lemma make_ne_zero (hg : g ≠ 0) (hi : i < 2 ^ 24) : make tag g i ≠ 0 := by
  intro h
  have hzero := congrArg generation h
  rw [generation_make htag g hi] at hzero
  exact hg hzero

end Tagged

/-! ## Handles without a tag -/

lemma isTag_zero : IsTag 0 := by decide

lemma slot_make (g : UInt32) {i : ℕ} (hi : i < 2 ^ 24) : slot (make 0 g i) = i := by
  rw [slot_eq, toNat_make isTag_zero g hi]
  simp only [UInt64.toNat_zero]
  omega

lemma eq_make_of_slot {handle : UInt64} (h : slot handle < 2 ^ 24) :
    handle = make 0 (generation handle) (slot handle) := by
  have hbound := handle.toNat_lt
  apply UInt64.toNat_inj.1
  rw [toNat_make isTag_zero _ h, toNat_generation, slot_eq]
  simp only [UInt64.toNat_zero]
  omega

end Ostadix.TaggedHandle
