import Ostadix.Wire

/-! The JSON-compatible data model that messages and records are lowered to. -/

namespace Ostadix

open Wire

/-! ## Numbers -/

/-- The exponent field of a 64-bit floating value is not all ones. -/
def isFiniteF64 (bits : UInt64) : Bool := (bits >>> 52) &&& 0x7ff ≠ 0x7ff

/-- The bits of the 64-bit floating value equal to the 32-bit one with the given bits. -/
def widenF32 (bits : UInt32) : UInt64 :=
  let sign : ℕ := bits.toNat / 2 ^ 31
  let exponent : ℕ := bits.toNat / 2 ^ 23 % 2 ^ 8
  let fraction : ℕ := bits.toNat % 2 ^ 23
  let magnitude : ℕ :=
    if exponent = 255 then 2047 * 2 ^ 52 + fraction * 2 ^ 29
    else if exponent ≠ 0 then (exponent + 896) * 2 ^ 52 + fraction * 2 ^ 29
    else if fraction = 0 then 0
    -- A subnormal value is `fraction * 2 ^ -149`; the wider format has it as a normal one.
    else (fraction.log2 + 874) * 2 ^ 52 + (fraction - 2 ^ fraction.log2) * 2 ^ (52 - fraction.log2)
  UInt64.ofNat (sign * 2 ^ 63 + magnitude)

/-- A number is unsigned, negative or floating; floating values are never infinite or undefined. -/
inductive JsonNumber where
  | posInt (value : UInt64)
  | negInt (value : {v : ℤ // -2 ^ 63 ≤ v ∧ v < 0})
  | float (bits : {b : UInt64 // isFiniteF64 b})
  deriving DecidableEq

def JsonNumber.fromF64 (bits : UInt64) : Option JsonNumber :=
  if h : isFiniteF64 bits then some (.float ⟨bits, h⟩) else none

def JsonNumber.fromI64 (v : ℤ) : Option JsonNumber :=
  if h : -2 ^ 63 ≤ v ∧ v < 0 then some (.negInt ⟨v, h⟩)
  else if 0 ≤ v ∧ v < 2 ^ 63 then some (.posInt (UInt64.ofNat v.toNat))
  else none

/-! ## Values -/

/-- An object keeps its entries in insertion order. -/
inductive Json where
  | null
  | bool (value : Bool)
  | number (number : JsonNumber)
  | string (text : String)
  | array (items : List Json)
  | object (entries : List (String × Json))

namespace Json

/-- Induction with the hypothesis for every item of an array and every value of an object. -/
@[elab_as_elim]
lemma induction {P : Json → Prop} (null : P null) (bool : ∀ b, P (bool b))
    (number : ∀ n, P (number n)) (string : ∀ s, P (string s))
    (array : ∀ items, (∀ v ∈ items, P v) → P (array items))
    (object : ∀ entries, (∀ e ∈ entries, P e.2) → P (object entries)) (v : Json) : P v := by
  refine @Json.rec P (fun items => ∀ v ∈ items, P v) (fun entries => ∀ e ∈ entries, P e.2)
    (fun e => P e.2) null bool number string array object ?_ ?_ ?_ ?_ ?_ v
  · exact fun v hv => absurd hv List.not_mem_nil
  · intro v items hv hitems w hw
    rcases List.mem_cons.1 hw with rfl | hw
    · exact hv
    · exact hitems w hw
  · exact fun e he => absurd he List.not_mem_nil
  · intro e entries he hentries f hf
    rcases List.mem_cons.1 hf with rfl | hf
    · exact he
    · exact hentries f hf
  · exact fun _ _ hv => hv

/-! ## Equality -/

mutual

/-- Equality of values. Objects are compared as maps: the order of insertion does not matter. -/
def same : Json → Json → Bool
  | .null, .null => true
  | .bool a, .bool b => a = b
  | .number a, .number b => a = b
  | .string a, .string b => a = b
  | .array xs, .array ys => sameItems xs ys
  | .object es, .object fs => es.length = fs.length && sameEntries es fs
  | _, _ => false

def sameItems : List Json → List Json → Bool
  | [], [] => true
  | x :: xs, y :: ys => same x y && sameItems xs ys
  | _, _ => false

def sameEntries : List (String × Json) → List (String × Json) → Bool
  | [], _ => true
  | (key, x) :: es, fs =>
    (match fs.lookup key with
      | some y => same x y
      | none => false) && sameEntries es fs

end

lemma sameItems_iff {xs ys : List Json} :
    sameItems xs ys ↔ List.Forall₂ (fun x y => same x y) xs ys := by
  induction xs generalizing ys with
  | nil => cases ys <;> simp [sameItems]
  | cons x xs ih => cases ys <;> simp [sameItems, ih]

lemma sameEntries_iff {es fs : List (String × Json)} :
    sameEntries es fs ↔ ∀ e ∈ es, ∃ y, fs.lookup e.1 = some y ∧ same e.2 y := by
  induction es with
  | nil => simp [sameEntries]
  | cons e es ih =>
    simp only [sameEntries, Bool.and_eq_true, ih, List.mem_cons, forall_eq_or_imp]
    refine and_congr_left fun _ => ?_
    cases fs.lookup e.1 <;> simp

/-! ## Values that can be built -/

mutual

/-- The keys of an object are distinct, and every length is the length of something in memory. -/
def wellFormed : Json → Bool
  | .string s => (utf8 s).length < 2 ^ 64
  | .array items => items.length < 2 ^ 64 && wellFormedItems items
  | .object entries =>
    entries.length < 2 ^ 64 && (entries.map Prod.fst).Nodup && wellFormedEntries entries
  | _ => true

def wellFormedItems : List Json → Bool
  | [] => true
  | v :: items => wellFormed v && wellFormedItems items

def wellFormedEntries : List (String × Json) → Bool
  | [] => true
  | (key, v) :: entries => (utf8 key).length < 2 ^ 64 && wellFormed v && wellFormedEntries entries

end

lemma wellFormedItems_iff {items : List Json} :
    wellFormedItems items ↔ ∀ v ∈ items, wellFormed v := by
  induction items with
  | nil => simp [wellFormedItems]
  | cons v items ih => simp [wellFormedItems, ih]

lemma wellFormedEntries_iff {entries : List (String × Json)} :
    wellFormedEntries entries ↔ ∀ e ∈ entries, (utf8 e.1).length < 2 ^ 64 ∧ wellFormed e.2 := by
  induction entries with
  | nil => simp [wellFormedEntries]
  | cons e entries ih => simp [wellFormedEntries, ih]

lemma wellFormed_array {items : List Json} :
    (array items).wellFormed ↔ items.length < 2 ^ 64 ∧ ∀ v ∈ items, wellFormed v := by
  rw [wellFormed, Bool.and_eq_true, decide_eq_true_eq, wellFormedItems_iff]

lemma wellFormed_object {entries : List (String × Json)} :
    (object entries).wellFormed ↔ entries.length < 2 ^ 64 ∧ (entries.map Prod.fst).Nodup ∧
      ∀ e ∈ entries, (utf8 e.1).length < 2 ^ 64 ∧ wellFormed e.2 := by
  rw [wellFormed, Bool.and_eq_true, Bool.and_eq_true, decide_eq_true_eq, decide_eq_true_eq,
    wellFormedEntries_iff, and_assoc]

lemma wellFormed_string {s : String} : (string s).wellFormed ↔ (utf8 s).length < 2 ^ 64 := by
  rw [wellFormed, decide_eq_true_eq]

/-! ## Items and nesting -/

mutual

def itemCount : Json → ℕ
  | .array items => 1 + itemCountItems items
  | .object entries => 1 + itemCountEntries entries
  | _ => 1

def itemCountItems : List Json → ℕ
  | [] => 0
  | v :: items => itemCount v + itemCountItems items

def itemCountEntries : List (String × Json) → ℕ
  | [] => 0
  | (_, v) :: entries => 1 + itemCount v + itemCountEntries entries

end

mutual

def depth : Json → ℕ
  | .array items => depthItems items
  | .object entries => depthEntries entries
  | _ => 0

def depthItems : List Json → ℕ
  | [] => 0
  | v :: items => max (depth v + 1) (depthItems items)

def depthEntries : List (String × Json) → ℕ
  | [] => 0
  | (_, v) :: entries => max (depth v + 1) (depthEntries entries)

end

mutual

/-- For every text and key: which item it is, after `n` earlier ones, and its length in bytes. -/
def texts : ℕ → Json → List (ℕ × ℕ)
  | n, .string s => [(n + 1, (utf8 s).length)]
  | n, .array items => textsItems (n + 1) items
  | n, .object entries => textsEntries (n + 1) entries
  | _, _ => []

def textsItems : ℕ → List Json → List (ℕ × ℕ)
  | _, [] => []
  | n, v :: items => texts n v ++ textsItems (n + itemCount v) items

def textsEntries : ℕ → List (String × Json) → List (ℕ × ℕ)
  | _, [] => []
  | n, (key, v) :: entries =>
    (n + 1, (utf8 key).length) :: texts (n + 1) v ++ textsEntries (n + (1 + itemCount v)) entries

end

end Json

structure JsonValue where
  value : Json
  valid : value.wellFormed

end Ostadix
