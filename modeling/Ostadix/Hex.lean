import Ostadix.Wire

/-! Hexadecimal text, as the crate `hex` writes and reads it. -/

namespace Ostadix

open Wire List

def hexDigit (n : ℕ) : Char := Char.ofNat (if n < 10 then 48 + n else 87 + n)

def hexEncode (bytes : Bytes) : String :=
  String.ofList (bytes.flatMap fun b => [hexDigit (b.toNat / 16), hexDigit (b.toNat % 16)])

/-- The value of a hexadecimal digit, in either case. -/
def hexValue (b : UInt8) : Option ℕ :=
  if 48 ≤ b ∧ b ≤ 57 then some (b.toNat - 48)
  else if 97 ≤ b ∧ b ≤ 102 then some (b.toNat - 87)
  else if 65 ≤ b ∧ b ≤ 70 then some (b.toNat - 55)
  else none

def hexDecodeBytes : Bytes → Option Bytes
  | [] => some []
  | [_] => none
  | high :: low :: digits => do
    let h ← hexValue high
    let l ← hexValue low
    let bytes ← hexDecodeBytes digits
    return UInt8.ofNat (16 * h + l) :: bytes

def hexDecode (text : String) : Option Bytes := hexDecodeBytes (utf8 text)

lemma hexDigit_injOn : ∀ m n : Fin 16, hexDigit m = hexDigit n → m = n := by decide

lemma hexEncode_injective : Function.Injective hexEncode := by
  intro a b h
  replace h := String.ofList_injective h
  induction a generalizing b with
  | nil =>
    cases b with
    | nil => rfl
    | cons y b => simp at h
  | cons x a ih =>
    cases b with
    | nil => simp at h
    | cons y b =>
      simp only [flatMap_cons, cons_append, nil_append, List.cons.injEq] at h
      obtain ⟨hhigh, hlow, hrest⟩ := h
      have hx := x.toNat_lt
      have hy := y.toNat_lt
      have hdiv := hexDigit_injOn ⟨x.toNat / 16, by omega⟩ ⟨y.toNat / 16, by omega⟩ hhigh
      have hmod := hexDigit_injOn ⟨x.toNat % 16, by omega⟩ ⟨y.toNat % 16, by omega⟩ hlow
      simp only [Fin.mk.injEq] at hdiv hmod
      have hxy : x.toNat = y.toNat := by omega
      rw [UInt8.toNat_inj.1 hxy, ih hrest]

lemma hexDigit_ne_bar : ∀ n : Fin 16, hexDigit n ≠ '|' := by decide

lemma bar_not_mem_hexEncode (bytes : Bytes) : '|' ∉ (hexEncode bytes).toList := by
  rw [hexEncode, String.toList_ofList]
  intro hmem
  obtain ⟨b, -, hb⟩ := mem_flatMap.1 hmem
  have hlt := b.toNat_lt
  rcases mem_cons.1 hb with hhigh | hlow
  · exact hexDigit_ne_bar ⟨b.toNat / 16, by omega⟩ hhigh.symm
  · exact hexDigit_ne_bar ⟨b.toNat % 16, by omega⟩ (mem_singleton.1 hlow).symm

lemma length_hexEncode (bytes : Bytes) : (hexEncode bytes).toList.length = 2 * bytes.length := by
  rw [hexEncode, String.toList_ofList]
  induction bytes with
  | nil => rfl
  | cons b bytes ih =>
    rw [flatMap_cons, length_append, ih, length_cons]
    simp only [length_cons, length_nil]
    omega

lemma utf8_ofList (chars : List Char) :
    utf8 (String.ofList chars) = chars.flatMap String.utf8EncodeChar := by
  simp [utf8, String.toByteArray_ofList, List.utf8Encode]

def isLowerHexDigit (b : UInt8) : Bool := (48 ≤ b && b ≤ 57) || (97 ≤ b && b ≤ 102)

lemma hexValue_of_lower {b : UInt8} (hb : isLowerHexDigit b) :
    ∃ n < 16, hexValue b = some n ∧ String.utf8EncodeChar (hexDigit n) = [b] := by
  have hall : ∀ n : Fin 256, isLowerHexDigit (UInt8.ofNat n) →
      ∃ m : Fin 16, hexValue (UInt8.ofNat n) = some m.1 ∧
        String.utf8EncodeChar (hexDigit m) = [UInt8.ofNat n] := by decide +kernel
  have hlt := b.toNat_lt
  have hbyte := hall ⟨b.toNat, hlt⟩
  rw [UInt8.ofNat_toNat] at hbyte
  obtain ⟨m, hvalue, hchar⟩ := hbyte hb
  exact ⟨m, m.2, hvalue, hchar⟩

lemma hexDecodeBytes_of_lower (n : ℕ) {text : Bytes} (hlen : text.length = 2 * n)
    (htext : ∀ b ∈ text, isLowerHexDigit b) :
    ∃ bytes, hexDecodeBytes text = some bytes ∧ bytes.length = n ∧
      text = utf8 (hexEncode bytes) := by
  induction n generalizing text with
  | zero =>
    obtain rfl := length_eq_zero_iff.1 hlen
    exact ⟨[], rfl, rfl, rfl⟩
  | succ n ih =>
    match text with
    | [] => simp at hlen
    | [_] =>
      rw [length_singleton] at hlen
      omega
    | high :: low :: digits =>
      rw [length_cons, length_cons] at hlen
      obtain ⟨bytes, hbytes, hcount, hdigits⟩ := @ih digits (by omega) fun b hb =>
        htext b (by simp [hb])
      obtain ⟨h, hh, hhigh, hhighChar⟩ := hexValue_of_lower (htext high (by simp))
      obtain ⟨l, hl, hlow, hlowChar⟩ := hexValue_of_lower (htext low (by simp))
      have hbyte : (UInt8.ofNat (16 * h + l)).toNat = 16 * h + l :=
        UInt8.toNat_ofNat_of_lt' (by change _ < 256; omega)
      have hdiv : (16 * h + l) / 16 = h := by omega
      have hmod : (16 * h + l) % 16 = l := by omega
      refine ⟨UInt8.ofNat (16 * h + l) :: bytes, ?_, by simp [hcount], ?_⟩
      · rw [hexDecodeBytes, hhigh, hlow, hbytes]
        rfl
      · rw [hexEncode, utf8_ofList] at hdigits ⊢
        rw [flatMap_cons, hbyte, hdiv, hmod, flatMap_append, ← hdigits]
        simp [hhighChar, hlowChar]

end Ostadix
