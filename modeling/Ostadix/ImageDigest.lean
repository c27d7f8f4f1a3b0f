import Mathlib
import Ostadix.Sha256

/-! The digest of an image, computed in masked 64-bit words, is the SHA-256 digest of its bytes. -/

namespace Ostadix.ImageVfs

open Sha256 List BitVec

/-! ## The image store -/

def maxReadOnlyImages : ℕ := 2

/-- What is read: the bytes of the images, and memory by addresses. The larger store is chosen
when the kernel is built. -/
structure Machine where
  larger : Bool
  bytes : ℕ → BitVec 8
  memory : ℕ → BitVec 8

namespace Machine

variable (machine : Machine)

def imageByteCapacity : ℕ := if machine.larger then 98304 else 65536

def imageByteIndex (imageSlot offset : ℕ) : ℕ := imageSlot * machine.imageByteCapacity + offset

def readImageStorage (index : ℕ) : BitVec 64 :=
  if 2 * machine.imageByteCapacity ≤ index then 0x100 else (machine.bytes index).setWidth 64

def sha256SourceByte (imageSlot source : ℕ) (sourceIsImage : Bool) (offset : ℕ) : BitVec 64 :=
  if sourceIsImage then machine.readImageStorage (machine.imageByteIndex imageSlot offset)
  else (machine.memory (source + offset)).setWidth 64

end Machine

def sha256WordMask : BitVec 64 := 0xffffffff

def sha256RoundConstants : List (BitVec 64) :=
  [0x428a2f98, 0x71374491, 0xb5c0fbcf, 0xe9b5dba5, 0x3956c25b, 0x59f111f1, 0x923f82a4, 0xab1c5ed5,
    0xd807aa98, 0x12835b01, 0x243185be, 0x550c7dc3, 0x72be5d74, 0x80deb1fe, 0x9bdc06a7, 0xc19bf174,
    0xe49b69c1, 0xefbe4786, 0x0fc19dc6, 0x240ca1cc, 0x2de92c6f, 0x4a7484aa, 0x5cb0a9dc, 0x76f988da,
    0x983e5152, 0xa831c66d, 0xb00327c8, 0xbf597fc7, 0xc6e00bf3, 0xd5a79147, 0x06ca6351, 0x14292967,
    0x27b70a85, 0x2e1b2138, 0x4d2c6dfc, 0x53380d13, 0x650a7354, 0x766a0abb, 0x81c2c92e, 0x92722c85,
    0xa2bfe8a1, 0xa81a664b, 0xc24b8b70, 0xc76c51a3, 0xd192e819, 0xd6990624, 0xf40e3585, 0x106aa070,
    0x19a4c116, 0x1e376c08, 0x2748774c, 0x34b0bcb5, 0x391c0cb3, 0x4ed8aa4a, 0x5b9cca4f, 0x682e6ff3,
    0x748f82ee, 0x78a5636f, 0x84c87814, 0x8cc70208, 0x90befffa, 0xa4506ceb, 0xbef9a3f7, 0xc67178f2]

def sha256RotateRight (value : BitVec 64) (bits : ℕ) : BitVec 64 :=
  (value >>> bits ||| value <<< (32 - bits)) &&& sha256WordMask

/-- The byte at a position of the padded message. -/
def part (byteAt : ℕ → BitVec 64) (length position : ℕ) : BitVec 64 :=
  let paddedLength := (length + 9 + 63) / 64 * 64
  let bitLength := BitVec.ofNat 64 length * 8
  if position < length then byteAt position
  else if position = length then 0x80
  else if paddedLength - 8 ≤ position then
    bitLength >>> ((paddedLength - 1 - position) * 8) &&& 0xff
  else 0

def loadWord (part : ℕ → BitVec 64) (start : ℕ) : BitVec 64 :=
  (range 4).foldl (fun value byte => value <<< 8 ||| part (start + byte)) 0

def expandWord (schedule : ℕ → BitVec 64) (word : ℕ) : BitVec 64 :=
  let priorFifteen := schedule (word - 15)
  let priorTwo := schedule (word - 2)
  let smallSigmaZero := sha256RotateRight priorFifteen 7 ^^^ sha256RotateRight priorFifteen 18 ^^^
    priorFifteen >>> 3
  let smallSigmaOne := sha256RotateRight priorTwo 17 ^^^ sha256RotateRight priorTwo 19 ^^^
    priorTwo >>> 10
  (schedule (word - 16) + smallSigmaZero + schedule (word - 7) + smallSigmaOne) &&& sha256WordMask

/-- The array of the schedule after its two loops. -/
def sha256Schedule (part : ℕ → BitVec 64) (block : ℕ) : ℕ → BitVec 64 :=
  let loaded := (range' 0 16).foldl (fun schedule word =>
    Function.update schedule word (loadWord part (block * 64 + word * 4))) fun _ => 0
  (range' 16 48).foldl (fun schedule word =>
    Function.update schedule word (expandWord schedule word)) loaded

def sha256Round (v : Hash (BitVec 64)) (k w : BitVec 64) : Hash (BitVec 64) :=
  let bigSigmaOne := sha256RotateRight v.e 6 ^^^ sha256RotateRight v.e 11 ^^^
    sha256RotateRight v.e 25
  let choice := (v.e &&& v.f) ^^^ ((v.e ^^^ sha256WordMask) &&& v.g)
  let temporaryOne := (v.h + bigSigmaOne + choice + k + w) &&& sha256WordMask
  let bigSigmaZero := sha256RotateRight v.a 2 ^^^ sha256RotateRight v.a 13 ^^^
    sha256RotateRight v.a 22
  let majority := (v.a &&& v.b) ^^^ (v.a &&& v.c) ^^^ (v.b &&& v.c)
  let temporaryTwo := (bigSigmaZero + majority) &&& sha256WordMask
  ⟨(temporaryOne + temporaryTwo) &&& sha256WordMask, v.a, v.b, v.c,
    (v.d + temporaryOne) &&& sha256WordMask, v.e, v.f, v.g⟩

def sha256Block (hash : Hash (BitVec 64)) (schedule : ℕ → BitVec 64) : Hash (BitVec 64) :=
  hash.zipWith (fun x y => (x + y) &&& sha256WordMask) ((range 64).foldl
    (fun v word => sha256Round v (sha256RoundConstants.getD word 0) (schedule word)) hash)

def sha256Initial : Hash (BitVec 64) :=
  ⟨0x6a09e667, 0xbb67ae85, 0x3c6ef372, 0xa54ff53a, 0x510e527f, 0x9b05688c, 0x1f83d9ab, 0x5be0cd19⟩

/-- The four words that are stored from the address `result` on. -/
def Machine.sha256Compute (machine : Machine) (imageSlot source : ℕ) (sourceIsImage : Bool)
    (length result : ℕ) : Option (List (BitVec 64)) :=
  if result = 0 ∨ machine.imageByteCapacity < length ∨
      (sourceIsImage = true ∧ maxReadOnlyImages ≤ imageSlot) ∨
      (sourceIsImage = false ∧ length ≠ 0 ∧ source = 0) then none
  else
    let byteAt := machine.sha256SourceByte imageSlot source sourceIsImage
    let hash := (range ((length + 9 + 63) / 64)).foldl
      (fun hash block => sha256Block hash (sha256Schedule (part byteAt length) block)) sha256Initial
    some [hash.a <<< 32 ||| hash.b, hash.c <<< 32 ||| hash.d, hash.e <<< 32 ||| hash.f,
      hash.g <<< 32 ||| hash.h]

/-! ## Words of 32 bits in 64 -/

abbrev widen (w : Word) : BitVec 64 := w.setWidth 64

def widenHash (v : Hash Word) : Hash (BitVec 64) := v.zipWith (fun w _ => widen w) v

lemma and_mask (x : BitVec 64) : x &&& sha256WordMask = widen (x.setWidth 32) := by
  apply eq_of_toNat_eq
  have hmask : sha256WordMask.toNat = 2 ^ 32 - 1 := rfl
  have hlt := Nat.mod_lt x.toNat (show 0 < 2 ^ 32 by decide)
  rw [toNat_and, hmask, Nat.and_two_pow_sub_one_eq_mod, toNat_setWidth, toNat_setWidth]
  omega

lemma narrow_shiftRight (w : Word) (n : ℕ) : (widen w >>> n).setWidth 32 = w >>> n := by
  rw [← setWidth_ushiftRight (by decide), setWidth_setWidth_of_le _ (by decide), setWidth_eq]

lemma rotate_widen (w : Word) {n : ℕ} (hlt : n < 32) :
    sha256RotateRight (widen w) n = widen (w.rotateRight n) := by
  have hleft : (widen w <<< (32 - n)).setWidth 32 = w <<< (32 - n) := by
    rw [setWidth_shiftLeft_of_le (by decide), setWidth_setWidth_of_le _ (by decide), setWidth_eq]
  rw [sha256RotateRight, and_mask, rotateRight_def, Nat.mod_eq_of_lt hlt,
    setWidth_or, narrow_shiftRight, hleft]

lemma join_widen (x y : Word) : (widen x <<< 32 ||| widen y : BitVec 64) = x ++ y := by
  ext i hi
  simp
  grind

lemma sha256Round_widen (v : Hash Word) (k w : Word) :
    sha256Round (widenHash v) (widen k) (widen w) = widenHash (oneRound v k w) := by
  have hnot (e : Word) : e ^^^ sha256WordMask.setWidth 32 = ~~~e := xor_allOnes
  simp [sha256Round, oneRound, widenHash, Hash.zipWith, and_mask, rotate_widen, setWidth_add, hnot,
    ch, maj, bigSigma₀, bigSigma₁]

lemma expandWord_widen {s : ℕ → BitVec 64} {block : ℕ → Word} {t : ℕ} (ht : 16 ≤ t)
    (hs : ∀ u < t, s u = widen (schedule block u)) :
    expandWord s t = widen (schedule block t) := by
  rw [schedule, if_neg (Nat.not_lt.2 ht), expandWord, hs _ (by omega), hs _ (by omega),
    hs _ (by omega), hs _ (by omega), and_mask]
  simp [rotate_widen, narrow_shiftRight, setWidth_add, smallSigma₀, smallSigma₁,
    BitVec.add_comm, BitVec.add_assoc]

lemma sha256Block_widen (hash : Hash Word) {s : ℕ → BitVec 64} {block : ℕ → Word}
    (hs : ∀ t < 64, s t = widen (schedule block t)) :
    sha256Block (widenHash hash) s = widenHash (compress hash block) := by
  have hconstants (t : ℕ) : sha256RoundConstants.getD t 0 = widen (constants.getD t 0) := by
    rw [show sha256RoundConstants = constants.map widen from rfl]
    exact getD_map constants 0 widen
  have hrounds : ∀ n ≤ 64, (range n).foldl
      (fun v word => sha256Round v (sha256RoundConstants.getD word 0) (s word)) (widenHash hash) =
      widenHash ((range n).foldl
        (fun v t => oneRound v (constants.getD t 0) (schedule block t)) hash) := by
    intro n hn
    induction n with
    | zero => rfl
    | succ n ih =>
      rw [range_succ, foldl_append, foldl_append, ih (by omega)]
      simp only [foldl_cons, foldl_nil]
      rw [hconstants, hs n hn, sha256Round_widen]
  rw [sha256Block, compress, hrounds 64 (Nat.le_refl 64)]
  generalize List.foldl _ hash _ = v
  simp [widenHash, Hash.zipWith, and_mask, setWidth_add]

/-! ## Blocks -/

/-- A loop that fills an array in order, each entry from the ones before it. -/
lemma foldl_update {α : Type} {step : (ℕ → α) → ℕ → α} {g : ℕ → α} {k : ℕ} (n : ℕ) {s : ℕ → α}
    (hs : ∀ t < k, s t = g t)
    (hstep : ∀ s m, k ≤ m → m < k + n → (∀ t < m, s t = g t) → step s m = g m) :
    ∀ t < k + n, (range' k n).foldl (fun s m => Function.update s m (step s m)) s t = g t := by
  induction n generalizing k s with
  | zero => exact hs
  | succ n ih =>
    intro t ht
    rw [range'_succ, foldl_cons]
    refine ih (fun t ht => ?_) (fun s m hm hlt => hstep s m (by omega) (by omega)) t (by omega)
    by_cases htk : t = k
    · rw [htk, Function.update_self]
      exact hstep s k (Nat.le_refl k) (by omega) hs
    · rw [Function.update_of_ne htk]
      exact hs t (by omega)

lemma loadWord_eq {part : ℕ → BitVec 64} {bytes : List (BitVec 8)} {start : ℕ}
    (hpart : ∀ i < 4, part (start + i) = (bytes.getD (start + i) 0).setWidth 64) :
    loadWord part start = widen (wordAt bytes start) := by
  have hrange : range 4 = [0, 1, 2, 3] := rfl
  simp only [loadWord, hrange, foldl_cons, foldl_nil, hpart, Nat.reduceLT]
  unfold wordAt
  ext i hi
  simp
  grind

lemma sha256Schedule_widen {part : ℕ → BitVec 64} {bytes : List (BitVec 8)} {block : ℕ}
    (hpart : ∀ i < 64, part (block * 64 + i) = (bytes.getD (block * 64 + i) 0).setWidth 64) :
    ∀ t < 64, sha256Schedule part block t =
      widen (schedule (fun t => wordAt bytes (64 * block + 4 * t)) t) := by
  refine foldl_update 48 (foldl_update 16 nofun fun s m _ hm _ => ?_)
    fun s m hm _ hs => expandWord_widen hm hs
  rw [schedule, if_pos (by omega), Nat.mul_comm 64, Nat.mul_comm 4]
  refine loadWord_eq fun i hi => ?_
  rw [Nat.add_assoc]
  exact hpart _ (by omega)

lemma length_pad (message : List (BitVec 8)) :
    (pad message).length = (message.length + 9 + 63) / 64 * 64 := by
  simp [pad]
  omega

lemma length_byte {n : ℕ} (hn : n < 2 ^ 32) (shift : ℕ) :
    (BitVec.ofNat 64 n * 8) >>> shift &&& 0xff =
      (BitVec.ofNat 8 ((8 * n) >>> shift)).setWidth 64 := by
  apply eq_of_toNat_eq
  have hbits : (BitVec.ofNat 64 n * 8).toNat = 8 * n := by
    rw [toNat_mul, toNat_ofNat]
    change n % 2 ^ 64 * 8 % 2 ^ 64 = _
    omega
  have hmask : (0xff : BitVec 64).toNat = 2 ^ 8 - 1 := rfl
  have hlt := Nat.mod_lt ((8 * n) >>> shift) (show 0 < 2 ^ 8 by decide)
  rw [toNat_and, hmask, Nat.and_two_pow_sub_one_eq_mod, toNat_ushiftRight, hbits,
    toNat_setWidth, toNat_ofNat]
  omega

lemma part_eq {byteAt : ℕ → BitVec 64} {message : List (BitVec 8)} {p : ℕ}
    (hlength : message.length < 2 ^ 32)
    (hbytes : ∀ i < message.length, byteAt i = (message.getD i 0).setWidth 64)
    (hp : p < (message.length + 9 + 63) / 64 * 64) :
    part byteAt message.length p = ((pad message).getD p 0).setWidth 64 := by
  unfold part pad
  dsimp only
  split
  · next hlt => rw [hbytes p hlt, getD_append _ _ _ _ hlt]
  next hge =>
  rw [getD_append_right _ _ _ _ (Nat.not_lt.1 hge)]
  split
  · next heq =>
    rw [heq, Nat.sub_self]
    rfl
  next hne =>
  obtain ⟨q, rfl⟩ : ∃ q, p = message.length + (q + 1) := ⟨p - message.length - 1, by omega⟩
  rw [Nat.add_sub_cancel_left, getD_cons_succ]
  split
  · next hlast =>
    obtain ⟨j, rfl⟩ : ∃ j, q = (119 - message.length % 64) % 64 + j :=
      ⟨q - (119 - message.length % 64) % 64, by omega⟩
    rw [getD_append_right _ _ _ _ (by simp), length_replicate, Nat.add_sub_cancel_left,
      getD_eq_getElem _ _ (by simp; omega), getElem_map, getElem_range,
      length_byte hlength]
    congr 3
    omega
  · next hlast =>
    rw [getD_append _ _ _ _ (by simp; omega)]
    simp

/-! ## Messages -/

/-- Wherever the bytes of a message are, its SHA-256 digest is computed. -/
theorem sha256Compute_digest (machine : Machine) (message : List (BitVec 8))
    {imageSlot source result : ℕ} {sourceIsImage : Bool} (hresult : result ≠ 0)
    (hlength : message.length ≤ machine.imageByteCapacity)
    (himage : sourceIsImage = true → imageSlot < maxReadOnlyImages)
    (hsource : sourceIsImage = false → message.length ≠ 0 → source ≠ 0)
    (hbytes : ∀ i < message.length, message.getD i 0 =
      if sourceIsImage then machine.bytes (machine.imageByteIndex imageSlot i)
      else machine.memory (source + i)) :
    machine.sha256Compute imageSlot source sourceIsImage message.length result =
      some (digest message) := by
  have hcapacity : machine.imageByteCapacity ≤ 98304 := by
    unfold Machine.imageByteCapacity
    split <;> decide
  have hsourceByte : ∀ i < message.length,
      machine.sha256SourceByte imageSlot source sourceIsImage i =
        (message.getD i 0).setWidth 64 := by
    intro i hi
    rw [hbytes i hi, Machine.sha256SourceByte]
    cases sourceIsImage with
    | false => rfl
    | true =>
      -- the two slots of the store lie one after the other
      have hslot : imageSlot ≤ 1 := Nat.lt_succ_iff.1 (himage rfl)
      have hindex : ¬2 * machine.imageByteCapacity ≤ machine.imageByteIndex imageSlot i := by
        have := Nat.mul_le_mul_right machine.imageByteCapacity hslot
        unfold Machine.imageByteIndex
        omega
      simp [Machine.readImageStorage, hindex]
  have hblocks : ∀ n ≤ (message.length + 9 + 63) / 64,
      (range n).foldl (fun hash block => sha256Block hash (sha256Schedule
        (part (machine.sha256SourceByte imageSlot source sourceIsImage) message.length) block))
        sha256Initial =
      widenHash ((range n).foldl (fun hash i => compress hash fun t =>
        wordAt (pad message) (64 * i + 4 * t)) initial) := by
    intro n hn
    induction n with
    | zero => rfl
    | succ n ih =>
      rw [range_succ, foldl_append, foldl_append, ih (by omega)]
      refine sha256Block_widen _ (sha256Schedule_widen fun i hi => ?_)
      exact part_eq (by omega) hsourceByte (by omega)
  rw [Machine.sha256Compute, if_neg, digest, length_pad, Nat.mul_div_cancel _ (by decide)]
  · dsimp only
    rw [hblocks _ (Nat.le_refl _)]
    simp only [widenHash, Hash.zipWith, join_widen]
  · rintro (h | h | ⟨h, hslot⟩ | ⟨h, hne, hzero⟩)
    · exact hresult h
    · omega
    · exact absurd (himage h) (Nat.not_lt.2 hslot)
    · exact hsource h hne hzero

/-- Two bytes in the second slot of the larger store. -/
theorem sha256Compute_digest_slot :
    Machine.sha256Compute ⟨true, BitVec.ofNat 8, fun _ => 0⟩ 1 0 true 2 8 = some (digest [0, 1]) :=
  sha256Compute_digest _ [0, 1] (by decide) (by decide) (by decide) (by decide) (by decide)

end Ostadix.ImageVfs
