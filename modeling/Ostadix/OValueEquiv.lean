import Ostadix.OValueCanonical

/-! Equality up to what canonical bytes leave out: the order of hash maps, multisets and native
capabilities, and the spelling of base64. -/

namespace Ostadix.OValue

/-! ## Equivalence -/

def SameBlob (v w : String) : Prop :=
  v = w ∨ ∃ bytes, Base64.decode v = some bytes ∧ Base64.decode w = some bytes

/-- Equal capsules, in whatever order the capabilities are listed. -/
def SameNative (v w : ONative) : Prop :=
  v.capabilities.Perm w.capabilities ∧ { v with capabilities := w.capabilities } = w

mutual

def Same : OValue → OValue → Prop
  | .list xs, .list ys => SameItems xs ys
  | .map es, .map fs => ∃ gs, gs.Perm fs ∧ SameFields es gs
  | .seq k xs, .seq l ys => k = l ∧ SameItems xs ys
  | .object es, .object fs => SameFields es fs
  | .entriesMap es, .entriesMap fs => ∃ gs, gs.Perm fs ∧ SameEntries es gs
  | .set .ordered xs, .set .ordered ys => SameItems xs ys
  | .set .unordered xs, .set .unordered ys => ∃ zs, zs.Perm ys ∧ SameItems xs zs
  | .scope es, .scope fs => ∃ gs, gs.Perm fs ∧ SameFields es gs
  | .blob v m, .blob w n => m = n ∧ SameBlob v w
  | .graph r xs, .graph q ys => r = q ∧ SameNodes xs ys
  | .native v es, .native w fs => SameNative v w ∧ SameFields es fs
  | .nixExpr b xs f, .nixExpr c ys g => b = c ∧ SameItems xs ys ∧ f = g
  | .derivation p os xs, .derivation q ps ys => p = q ∧ os = ps ∧ SameItems xs ys
  | .request k v f, .request l w g => k = l ∧ Same v w ∧ f = g
  | .capability k i es, .capability l j fs => k = l ∧ i = j ∧ ∃ gs, gs.Perm fs ∧ SameFields es gs
  | .snapshot k i es, .snapshot l j fs => k = l ∧ i = j ∧ ∃ gs, gs.Perm fs ∧ SameFields es gs
  | .thunk b xs f, .thunk c ys g => b = c ∧ SameItems xs ys ∧ f = g
  | .group m xs f, .group n ys g => m = n ∧ SameItems xs ys ∧ f = g
  -- Values without anything inside are the same when they are equal.
  | v, w => v = w

def SameItems : List OValue → List OValue → Prop
  | [], [] => True
  | x :: xs, y :: ys => Same x y ∧ SameItems xs ys
  | _, _ => False

def SameFields : List (String × OValue) → List (String × OValue) → Prop
  | [], [] => True
  | (k, x) :: es, (l, y) :: fs => k = l ∧ Same x y ∧ SameFields es fs
  | _, _ => False

def SameEntries : List (OValue × OValue) → List (OValue × OValue) → Prop
  | [], [] => True
  | (k, x) :: es, (l, y) :: fs => Same k l ∧ Same x y ∧ SameEntries es fs
  | _, _ => False

def SameNodes : List (GraphNode OValue) → List (GraphNode OValue) → Prop
  | [], [] => True
  | .value x :: xs, .value y :: ys => Same x y ∧ SameNodes xs ys
  | .ref t :: xs, .ref u :: ys => t = u ∧ SameNodes xs ys
  | _, _ => False

end

def SameField (e f : String × OValue) : Prop := e.1 = f.1 ∧ Same e.2 f.2

def SameEntry (e f : OValue × OValue) : Prop := Same e.1 f.1 ∧ Same e.2 f.2

def SameNode : GraphNode OValue → GraphNode OValue → Prop
  | .value x, .value y => Same x y
  | .ref t, .ref u => t = u
  | _, _ => False

lemma sameItems_iff {xs ys : List OValue} : SameItems xs ys ↔ List.Forall₂ Same xs ys := by
  induction xs generalizing ys with
  | nil => cases ys <;> simp [SameItems]
  | cons x xs ih => cases ys <;> simp [SameItems, ih]

lemma sameFields_iff {es fs : List (String × OValue)} :
    SameFields es fs ↔ List.Forall₂ SameField es fs := by
  induction es generalizing fs with
  | nil => cases fs <;> simp [SameFields]
  | cons e es ih =>
    obtain ⟨k, x⟩ := e
    cases fs with
    | nil => simp [SameFields]
    | cons f fs =>
      obtain ⟨l, y⟩ := f
      simp [SameFields, SameField, ih, and_assoc]

lemma sameEntries_iff {es fs : List (OValue × OValue)} :
    SameEntries es fs ↔ List.Forall₂ SameEntry es fs := by
  induction es generalizing fs with
  | nil => cases fs <;> simp [SameEntries]
  | cons e es ih =>
    obtain ⟨k, x⟩ := e
    cases fs with
    | nil => simp [SameEntries]
    | cons f fs =>
      obtain ⟨l, y⟩ := f
      simp [SameEntries, SameEntry, ih, and_assoc]

lemma sameNodes_iff {xs ys : List (GraphNode OValue)} :
    SameNodes xs ys ↔ List.Forall₂ SameNode xs ys := by
  induction xs generalizing ys with
  | nil => cases ys <;> simp [SameNodes]
  | cons x xs ih =>
    cases ys with
    | nil => simp [SameNodes]
    | cons y ys => cases x <;> cases y <;> simp [SameNodes, SameNode, ih]

/-! ## Values in memory -/

/-- A hash map has distinct keys, a sorted map lists its keys in increasing order. -/
def KeysOk : OValue → Prop
  | .map es => (es.map Prod.fst).Nodup
  | .object es => (es.map fun e => Wire.textOrder e.1).Pairwise (· < ·)
  | .scope es => (es.map Prod.fst).Nodup
  | .native _ es => (es.map fun e => Wire.textOrder e.1).Pairwise (· < ·)
  | .capability _ _ es => (es.map Prod.fst).Nodup
  | .snapshot _ _ es => (es.map Prod.fst).Nodup
  | _ => True

/-- A value whose maps, at any depth, are maps and whose canonical bytes can be held in memory. -/
structure InMemory where
  value : OValue
  keys : ∀ w, Occurs w value → KeysOk w
  fits : value.canonicalBytes.length < 2 ^ 64

end Ostadix.OValue
