import Ostadix.Basic
import Mathlib.Data.Nat.Digits.Lemmas

/-! Wire formats. A reader consumes bytes from the front and is related to the spellings it accepts.
-/

namespace Ostadix.Wire

open List

abbrev Bytes := List UInt8

/-! ## Big-endian integers -/

def leNat (bs : Bytes) : ℕ := Nat.ofDigits 256 (bs.map UInt8.toNat)

def leBytes : ℕ → ℕ → Bytes
  | 0, _ => []
  | w + 1, n => UInt8.ofNat n :: leBytes w (n / 256)

def beNat (bs : Bytes) : ℕ := leNat bs.reverse

def beBytes (w n : ℕ) : Bytes := (leBytes w n).reverse

@[simp] lemma length_leBytes (w n : ℕ) : (leBytes w n).length = w := by
  induction w generalizing n with
  | zero => rfl
  | succ w ih => simp [leBytes, ih]

@[simp] lemma length_beBytes (w n : ℕ) : (beBytes w n).length = w := by simp [beBytes]

lemma leNat_cons (b : UInt8) (bs : Bytes) : leNat (b :: bs) = b.toNat + 256 * leNat bs := by
  simp [leNat, Nat.ofDigits_cons]

lemma leNat_leBytes (w n : ℕ) (h : n < 256 ^ w) : leNat (leBytes w n) = n := by
  induction w generalizing n with
  | zero =>
    have : n = 0 := by simpa using h
    simp [leBytes, leNat, this]
  | succ w ih =>
    have hdiv : n / 256 < 256 ^ w := by
      apply Nat.div_lt_of_lt_mul
      rwa [pow_succ, mul_comm] at h
    rw [leBytes, leNat_cons, ih _ hdiv, UInt8.toNat_ofNat']
    change n % 256 + 256 * (n / 256) = n
    omega

lemma leBytes_leNat (bs : Bytes) : leBytes bs.length (leNat bs) = bs := by
  induction bs with
  | nil => rfl
  | cons b bs ih =>
    have hb : b.toNat < 256 := b.toNat_lt
    have hdiv : (b.toNat + 256 * leNat bs) / 256 = leNat bs := by omega
    have hbyte : UInt8.ofNat (b.toNat + 256 * leNat bs) = b := by
      apply UInt8.toNat_inj.1
      rw [UInt8.toNat_ofNat']
      change (b.toNat + 256 * leNat bs) % 256 = b.toNat
      omega
    rw [length_cons, leNat_cons, leBytes, hdiv, ih, hbyte]

lemma leNat_lt (bs : Bytes) : leNat bs < 256 ^ bs.length := by
  induction bs with
  | nil => simp [leNat]
  | cons b bs ih =>
    have hb : b.toNat < 256 := b.toNat_lt
    rw [leNat_cons, length_cons, pow_succ]
    omega

lemma beNat_beBytes (w n : ℕ) (h : n < 256 ^ w) : beNat (beBytes w n) = n := by
  rw [beNat, beBytes, reverse_reverse, leNat_leBytes w n h]

variable {bs record : Bytes} {s : String} {ε : Type} {m n offset : ℕ}

lemma beBytes_beNat {w : ℕ} (h : bs.length = w) : beBytes w (beNat bs) = bs := by
  have := leBytes_leNat bs.reverse
  rw [length_reverse, h] at this
  rw [beBytes, beNat, this, reverse_reverse]

lemma beNat_lt {w : ℕ} (h : bs.length = w) : beNat bs < 256 ^ w := by
  have := leNat_lt bs.reverse
  rwa [length_reverse, h] at this

/-- The shortest big-endian spelling, which is empty for zero. -/
def minimalBytes (n : ℕ) : Bytes := ((Nat.digits 256 n).map UInt8.ofNat).reverse

lemma map_toNat_reverse_minimalBytes (n : ℕ) :
    (minimalBytes n).reverse.map UInt8.toNat = Nat.digits 256 n := by
  rw [minimalBytes, reverse_reverse, map_map]
  conv_rhs => rw [← map_id (Nat.digits 256 n)]
  apply map_congr_left
  intro d hd
  have hlt : d < 256 := Nat.digits_lt_base (by decide) hd
  rw [Function.comp_apply, UInt8.toNat_ofNat']
  exact Nat.mod_eq_of_lt hlt

lemma beNat_minimalBytes (n : ℕ) : beNat (minimalBytes n) = n := by
  rw [beNat, leNat, map_toNat_reverse_minimalBytes, Nat.ofDigits_digits]

lemma head?_minimalBytes (n : ℕ) : (minimalBytes n).head? ≠ some 0 := by
  rw [← getLast?_reverse]
  intro h
  have hlast := congrArg (Option.map UInt8.toNat) h
  rw [← getLast?_map, map_toNat_reverse_minimalBytes] at hlast
  rcases eq_or_ne n 0 with rfl | hn
  · simp at hlast
  · rw [getLast?_eq_some_getLast (Nat.digits_ne_nil_iff_ne_zero.2 hn)] at hlast
    exact Nat.getLast_digit_ne_zero 256 hn (Option.some.inj hlast)

/-- A spelling without a leading zero byte is the shortest one. -/
lemma minimalBytes_beNat (h : bs.head? ≠ some 0) : minimalBytes (beNat bs) = bs := by
  have hdigits : Nat.digits 256 (beNat bs) = bs.reverse.map UInt8.toNat := by
    apply Nat.digits_ofDigits 256 (by decide)
    · intro d hd
      obtain ⟨b, -, rfl⟩ := mem_map.1 hd
      exact b.toNat_lt
    intro hne hlast
    rw [getLast_map] at hlast
    apply h
    have hbs : bs.reverse ≠ [] := fun hnil => hne (by rw [hnil, map_nil])
    rw [← getLast?_reverse, getLast?_eq_some_getLast hbs]
    exact congrArg some (UInt8.toNat_inj.1 hlast)
  rw [minimalBytes, hdigits, map_map, map_reverse, reverse_reverse]
  exact map_id'' (fun b => UInt8.ofNat_toNat) bs

def putU16 (v : UInt16) : Bytes := beBytes 2 v.toNat

def putU32 (v : UInt32) : Bytes := beBytes 4 v.toNat

def putU64 (v : UInt64) : Bytes := beBytes 8 v.toNat

def getU16 (bs : Bytes) : UInt16 := UInt16.ofNat (beNat bs)

def getU32 (bs : Bytes) : UInt32 := UInt32.ofNat (beNat bs)

def getU64 (bs : Bytes) : UInt64 := UInt64.ofNat (beNat bs)

@[simp] lemma length_putU16 (v : UInt16) : (putU16 v).length = 2 := length_beBytes _ _

@[simp] lemma length_putU32 (v : UInt32) : (putU32 v).length = 4 := length_beBytes _ _

@[simp] lemma length_putU64 (v : UInt64) : (putU64 v).length = 8 := length_beBytes _ _

@[simp] lemma getU16_putU16 (v : UInt16) : getU16 (putU16 v) = v := by
  have hlt : v.toNat < 256 ^ 2 := v.toNat_lt
  rw [getU16, putU16, beNat_beBytes 2 _ hlt, UInt16.ofNat_toNat]

@[simp] lemma getU32_putU32 (v : UInt32) : getU32 (putU32 v) = v := by
  have hlt : v.toNat < 256 ^ 4 := v.toNat_lt
  rw [getU32, putU32, beNat_beBytes 4 _ hlt, UInt32.ofNat_toNat]

@[simp] lemma getU64_putU64 (v : UInt64) : getU64 (putU64 v) = v := by
  have hlt : v.toNat < 256 ^ 8 := v.toNat_lt
  rw [getU64, putU64, beNat_beBytes 8 _ hlt, UInt64.ofNat_toNat]

lemma putU16_getU16 (h : bs.length = 2) : putU16 (getU16 bs) = bs := by
  have hlt : beNat bs < 2 ^ 16 := beNat_lt h
  rw [putU16, getU16, UInt16.toNat_ofNat_of_lt' hlt, beBytes_beNat h]

lemma putU32_getU32 (h : bs.length = 4) : putU32 (getU32 bs) = bs := by
  have hlt : beNat bs < 2 ^ 32 := beNat_lt h
  rw [putU32, getU32, UInt32.toNat_ofNat_of_lt' hlt, beBytes_beNat h]

lemma putU64_getU64 (h : bs.length = 8) : putU64 (getU64 bs) = bs := by
  have hlt : beNat bs < 2 ^ 64 := beNat_lt h
  rw [putU64, getU64, UInt64.toNat_ofNat_of_lt' hlt, beBytes_beNat h]

/-! ## Text -/

def utf8 (s : String) : Bytes := s.toByteArray.data.toList

def fromUtf8 (bs : Bytes) : Option String := String.fromUTF8? ⟨bs.toArray⟩

@[simp] lemma fromUtf8_utf8 (s : String) : fromUtf8 (utf8 s) = some s := by
  have hbytes : (⟨(utf8 s).toArray⟩ : ByteArray) = s.toByteArray := by simp [utf8]
  rw [fromUtf8, hbytes, String.fromUTF8?, dif_pos s.isValidUTF8]
  rfl

lemma utf8_of_fromUtf8 (h : fromUtf8 bs = some s) : utf8 s = bs := by
  unfold fromUtf8 String.fromUTF8? at h
  split at h
  · cases h
    simp [utf8, String.fromUTF8]
  · simp at h

lemma fromUtf8_eq_some : fromUtf8 bs = some s ↔ bs = utf8 s := by
  constructor
  · intro h
    exact (utf8_of_fromUtf8 h).symm
  · rintro rfl
    exact fromUtf8_utf8 s

def decodeUtf8 {ε : Type} (e : ε) (bs : Bytes) : Except ε String :=
  match fromUtf8 bs with
  | some text => .ok text
  | none => .error e

@[simp] lemma decodeUtf8_eq_ok {e : ε} : decodeUtf8 e bs = .ok s ↔ bs = utf8 s := by
  rw [← fromUtf8_eq_some]
  unfold decodeUtf8
  split <;> simp_all

lemma utf8_injective {t : String} (h : utf8 s = utf8 t) : s = t := by
  have := congrArg fromUtf8 h
  simpa using this

def byteOrder (bytes : Bytes) : List ℕ := bytes.map UInt8.toNat

def textOrder (s : String) : List ℕ := byteOrder (utf8 s)

lemma byteOrder_injective : Function.Injective byteOrder :=
  map_injective_iff.2 fun _ _ => UInt8.toNat_inj.1

lemma textOrder_injective : Function.Injective textOrder :=
  fun _ _ h => utf8_injective (byteOrder_injective h)

/-! ## Readers -/

/-- A reader consumes bytes from the front of the input and leaves the rest. -/
abbrev Reader (ε α : Type) := StateT Bytes (Except ε) α

section Readers

variable {ε α β : Type}

/-- Fail unless `n` bytes remain; `truncated` reports the need and what was left. -/
def take (truncated : ℕ → ℕ → ε) (n : ℕ) : Reader ε Bytes := fun bs =>
  if bs.length < n then .error (truncated n bs.length) else .ok (bs.take n, bs.drop n)

def takeU16 (truncated : ℕ → ℕ → ε) : Reader ε UInt16 := getU16 <$> take truncated 2

def takeU32 (truncated : ℕ → ℕ → ε) : Reader ε UInt32 := getU32 <$> take truncated 4

def takeU64 (truncated : ℕ → ℕ → ε) : Reader ε UInt64 := getU64 <$> take truncated 8

def takeU8 (truncated : ℕ → ℕ → ε) : Reader ε UInt8 :=
  (fun bs => UInt8.ofNat (beNat bs)) <$> take truncated 1

def takeRemaining : Reader ε Bytes := fun bs => .ok (bs, [])

/-- Fail unless the number of remaining bytes satisfies `c`. -/
def checkRemaining (c : ℕ → Prop) [DecidablePred c] (e : ℕ → ε) : Reader ε Unit := fun bs =>
  if c bs.length then .ok ((), bs) else .error (e bs.length)

def consumed (r : Reader ε α) : Reader ε (α × Bytes) := fun bs => do
  let (a, rest) ← r bs
  return ((a, bs.take (bs.length - rest.length)), rest)

/-- Run the reader on a payload of its own, which it has to use up. -/
def whole (trailing : ℕ → ε) (r : Reader ε α) (payload : Bytes) : Except ε α := do
  let (a, rest) ← r payload
  ensure (rest.length = 0) (trailing rest.length)
  return a

def lift (x : Except ε α) : Reader ε α := fun bs => x.map (fun a => (a, bs))

/-- The reader accepts a value spelled `bs` exactly when `W` relates them, whatever follows. -/
structure Reads (r : Reader ε α) (W : α → Bytes → Prop) : Prop where
  complete : ∀ {a bs}, W a bs → ∀ rest, r (bs ++ rest) = .ok (a, rest)
  sound : ∀ {input a rest}, r input = .ok (a, rest) → ∃ bs, W a bs ∧ input = bs ++ rest

variable {r : Reader ε α} {W W' : α → Bytes → Prop} {f : α → Reader ε β} {a : α}
  {X : α → β → Bytes → Prop} {x y : Except ε Bytes}

lemma Reads.congr (h : Reads r W) (hW : ∀ a bs, W a bs ↔ W' a bs) : Reads r W' :=
  ⟨fun hw => h.complete ((hW _ _).2 hw), fun hr => by
    obtain ⟨bs, hw, heq⟩ := h.sound hr
    exact ⟨bs, (hW _ _).1 hw, heq⟩⟩

lemma Reads.pure (a : α) : Reads (Pure.pure a : Reader ε α) (fun a' bs => a' = a ∧ bs = []) := by
  constructor
  · rintro _ _ ⟨rfl, rfl⟩ rest
    rfl
  · intro input a' rest h
    cases h
    exact ⟨[], ⟨rfl, rfl⟩, rfl⟩

lemma bind_apply (r : Reader ε α) (f : α → Reader ε β) (input : Bytes) :
    (r >>= f) input = (r input >>= fun p => f p.1 p.2) := rfl

lemma bind_of_ok {input rest : Bytes} (h : r input = .ok (a, rest)) :
    (r >>= f) input = f a rest := by
  rw [bind_apply, h]
  rfl

/-- Reading one thing after another accepts the concatenations. -/
lemma Reads.bind (hr : Reads r W) (hf : ∀ a, Reads (f a) (X a)) :
    Reads (r >>= f) (fun b bs => ∃ a x y, W a x ∧ X a b y ∧ bs = x ++ y) := by
  constructor
  · rintro b bs ⟨a, x, y, hw, hx, rfl⟩ rest
    rw [bind_apply, append_assoc, hr.complete hw]
    exact (hf a).complete hx rest
  · intro input b rest h
    rw [bind_apply, bind_eq_ok] at h
    obtain ⟨⟨a, mid⟩, ha, hb⟩ := h
    obtain ⟨x, hw, rfl⟩ := hr.sound ha
    obtain ⟨y, hx, rfl⟩ := (hf a).sound hb
    exact ⟨x ++ y, ⟨a, x, y, hw, hx, rfl⟩, (append_assoc x y rest).symm⟩

lemma Reads.lift (x : Except ε α) : Reads (Wire.lift x) (fun a bs => x = .ok a ∧ bs = []) := by
  constructor
  · rintro a _ ⟨rfl, rfl⟩ rest
    rfl
  · intro input a rest h
    cases x with
    | error e => exact absurd h (by simp [Wire.lift, Except.map])
    | ok a' =>
      cases h
      exact ⟨[], ⟨rfl, rfl⟩, rfl⟩

lemma Reads.lift_bind (x : Except ε α) (hf : ∀ a, Reads (f a) (X a)) :
    Reads (Wire.lift x >>= f) (fun b bs => ∃ a, x = .ok a ∧ X a b bs) := by
  refine ((Reads.lift x).bind hf).congr fun b bs => ?_
  constructor
  · rintro ⟨a, _, y, ⟨hx, rfl⟩, hy, rfl⟩
    exact ⟨a, hx, hy⟩
  · rintro ⟨a, hx, hy⟩
    exact ⟨a, [], bs, ⟨hx, rfl⟩, hy, rfl⟩

lemma Reads.check_bind (x : Except ε Unit) (h : Reads r W) :
    Reads (Wire.lift x >>= fun _ => r) (fun a bs => x = .ok () ∧ W a bs) := by
  refine (Reads.lift_bind x fun _ => h).congr fun a bs => ?_
  exact ⟨fun ⟨_, hx, hw⟩ => ⟨hx, hw⟩, fun ⟨hx, hw⟩ => ⟨(), hx, hw⟩⟩

lemma Reads.take (truncated : ℕ → ℕ → ε) (n : ℕ) :
    Reads (Wire.take truncated n) (fun a bs => a = bs ∧ bs.length = n) := by
  constructor
  · rintro _ bs ⟨rfl, rfl⟩ rest
    simp [Wire.take]
  · intro input a rest h
    unfold Wire.take at h
    split at h
    · simp at h
    · next hlen =>
      cases h
      exact ⟨_, ⟨rfl, by simp; omega⟩, (take_append_drop n input).symm⟩

lemma Reads.map (h : Reads r W) (f : α → β) :
    Reads (f <$> r) (fun b bs => ∃ a, W a bs ∧ b = f a) := by
  have hbind := h.bind (fun a => Reads.pure (ε := ε) (f a))
  refine hbind.congr fun b bs => ?_
  constructor
  · rintro ⟨a, x, y, hw, ⟨rfl, rfl⟩, rfl⟩
    exact ⟨a, by simpa using hw, rfl⟩
  · rintro ⟨a, hw, rfl⟩
    exact ⟨a, bs, [], hw, ⟨rfl, rfl⟩, by simp⟩

lemma Reads.takeU16 (truncated : ℕ → ℕ → ε) :
    Reads (Wire.takeU16 truncated) (fun v bs => bs = putU16 v) := by
  refine ((Reads.take truncated 2).map getU16).congr fun v bs => ?_
  constructor
  · rintro ⟨_, ⟨rfl, hlen⟩, rfl⟩
    exact (putU16_getU16 hlen).symm
  · rintro rfl
    exact ⟨_, ⟨rfl, length_putU16 v⟩, (getU16_putU16 v).symm⟩

lemma Reads.takeU32 (truncated : ℕ → ℕ → ε) :
    Reads (Wire.takeU32 truncated) (fun v bs => bs = putU32 v) := by
  refine ((Reads.take truncated 4).map getU32).congr fun v bs => ?_
  constructor
  · rintro ⟨_, ⟨rfl, hlen⟩, rfl⟩
    exact (putU32_getU32 hlen).symm
  · rintro rfl
    exact ⟨_, ⟨rfl, length_putU32 v⟩, (getU32_putU32 v).symm⟩

lemma Reads.takeU64 (truncated : ℕ → ℕ → ε) :
    Reads (Wire.takeU64 truncated) (fun v bs => bs = putU64 v) := by
  refine ((Reads.take truncated 8).map getU64).congr fun v bs => ?_
  constructor
  · rintro ⟨_, ⟨rfl, hlen⟩, rfl⟩
    exact (putU64_getU64 hlen).symm
  · rintro rfl
    exact ⟨_, ⟨rfl, length_putU64 v⟩, (getU64_putU64 v).symm⟩

lemma Reads.takeU8 (truncated : ℕ → ℕ → ε) :
    Reads (Wire.takeU8 truncated) (fun v bs => bs = [v]) := by
  refine ((Reads.take truncated 1).map _).congr fun v bs => ?_
  constructor
  · rintro ⟨_, ⟨rfl, hlen⟩, rfl⟩
    obtain ⟨b, rfl⟩ := length_eq_one_iff.1 hlen
    simp [beNat, leNat]
  · rintro rfl
    exact ⟨[v], ⟨rfl, rfl⟩, by simp [beNat, leNat]⟩

lemma Reads.consumed (h : Reads r W) :
    Reads (Wire.consumed r) (fun p bs => W p.1 bs ∧ p.2 = bs) := by
  constructor
  · rintro ⟨a, _⟩ bs ⟨hw, rfl⟩ rest
    simp [Wire.consumed, h.complete hw]
  · rintro input ⟨a, key⟩ rest hr
    rw [Wire.consumed, bind_eq_ok] at hr
    obtain ⟨⟨a', rest'⟩, ha, hret⟩ := hr
    obtain ⟨⟨rfl, rfl⟩, rfl⟩ := Prod.mk.inj (Except.ok.inj hret) |>.imp_left Prod.mk.inj
    obtain ⟨bs, hw, rfl⟩ := h.sound ha
    exact ⟨bs, ⟨hw, by simp⟩, rfl⟩

variable {c : ℕ → Prop} {bs : Bytes}

/-- A check of the remaining length adds the condition `P` that it amounts to on accepted spellings.
-/
lemma Reads.checkRemaining_iff (h : Reads r W) [DecidablePred c] (e : ℕ → ε) (P : Prop)
    (hc : ∀ a bs, W a bs → ∀ m, c (bs.length + m) ↔ P) :
    Reads (Wire.checkRemaining c e >>= fun _ => r) (fun a bs => P ∧ W a bs) := by
  constructor
  · rintro a bs ⟨hP, hw⟩ rest
    have hlen := (hc a bs hw rest.length).2 hP
    rw [← length_append] at hlen
    rw [bind_apply, Wire.checkRemaining, if_pos hlen]
    exact h.complete hw rest
  · intro input a rest hr
    rw [bind_apply, bind_eq_ok] at hr
    obtain ⟨⟨u, input'⟩, hcheck, hr⟩ := hr
    unfold Wire.checkRemaining at hcheck
    split at hcheck
    · next hlen =>
      obtain rfl := (Prod.mk.inj (Except.ok.inj hcheck)).2
      obtain ⟨bs, hw, rfl⟩ := h.sound hr
      rw [length_append] at hlen
      exact ⟨bs, ⟨(hc a bs hw _).1 hlen, hw⟩, rfl⟩
    · simp at hcheck

/-- A check that every accepted spelling passes is redundant. -/
lemma Reads.checkRemaining (h : Reads r W) [DecidablePred c] (e : ℕ → ε)
    (hc : ∀ a bs, W a bs → ∀ m, c (bs.length + m)) :
    Reads (Wire.checkRemaining c e >>= fun _ => r) W :=
  (h.checkRemaining_iff e True fun a bs hw m => iff_true_intro (hc a bs hw m)).congr
    fun _ _ => (true_and _).to_iff

/-! ## Readers of a whole payload -/

/-- The reader uses up exactly the inputs that `W` relates to its result. -/
structure Exact (r : Reader ε α) (W : α → Bytes → Prop) : Prop where
  iff : ∀ {a : α} {bs : Bytes}, r bs = .ok (a, []) ↔ W a bs

lemma Reads.exact (h : Reads r W) : Exact r W := by
  constructor
  intro a bs
  constructor
  · intro hr
    obtain ⟨bs', hw, heq⟩ := h.sound hr
    rw [append_nil] at heq
    rwa [heq]
  · intro hw
    have hr := h.complete hw []
    rwa [append_nil] at hr

lemma Exact.congr (h : Exact r W) (hW : ∀ a bs, W a bs ↔ W' a bs) :
    Exact r W' := ⟨h.iff.trans (hW _ _)⟩

lemma Exact.bind (hr : Reads r W) (hf : ∀ a, Exact (f a) (X a)) :
    Exact (r >>= f) (fun b bs => ∃ a x y, W a x ∧ X a b y ∧ bs = x ++ y) := by
  constructor
  intro b bs
  constructor
  · intro h
    rw [bind_apply, bind_eq_ok] at h
    obtain ⟨⟨a, mid⟩, ha, hb⟩ := h
    obtain ⟨x, hw, rfl⟩ := hr.sound ha
    exact ⟨a, x, mid, hw, (hf a).iff.1 hb, rfl⟩
  · rintro ⟨a, x, y, hw, hx, rfl⟩
    rw [bind_apply, hr.complete hw]
    exact (hf a).iff.2 hx

lemma Exact.check_bind (x : Except ε Unit) (h : Exact r W) :
    Exact (Wire.lift x >>= fun _ => r) (fun a bs => x = .ok () ∧ W a bs) := by
  constructor
  intro a bs
  cases x with
  | error e => exact iff_of_false nofun fun hw => nomatch hw.1
  | ok u => exact h.iff.trans (and_iff_right rfl).symm

lemma Exact.map (h : Exact r W) (f : α → β) :
    Exact (f <$> r) (fun b bs => ∃ a, W a bs ∧ b = f a) := by
  constructor
  intro b bs
  change (r bs >>= fun p => .ok (f p.1, p.2)) = .ok (b, []) ↔ _
  rw [bind_eq_ok]
  constructor
  · rintro ⟨⟨a, rest⟩, ha, hret⟩
    cases hret
    exact ⟨a, h.iff.1 ha, rfl⟩
  · rintro ⟨a, hw, rfl⟩
    exact ⟨(a, []), h.iff.2 hw, rfl⟩

lemma Exact.remaining (g : Bytes → Except ε α) :
    Exact (Wire.takeRemaining >>= fun bs => Wire.lift (g bs)) (fun a bs => g bs = .ok a) := by
  constructor
  intro a bs
  change (g bs).map (fun a => (a, [])) = .ok (a, []) ↔ g bs = .ok a
  cases g bs <;> simp [Except.map]

lemma Exact.checkRemaining (h : Exact r W) [DecidablePred c] (e : ℕ → ε)
    (hc : ∀ a bs, W a bs → c bs.length) :
    Exact (Wire.checkRemaining c e >>= fun _ => r) W := by
  constructor
  intro a bs
  rw [bind_apply, Wire.checkRemaining]
  split
  · exact h.iff
  · next hlen => exact iff_of_false nofun fun hw => hlen (hc a bs hw)

lemma Exact.whole (h : Exact r W) (trailing : ℕ → ε) {payload : Bytes} :
    Wire.whole trailing r payload = .ok a ↔ W a payload := by
  rw [← h.iff, Wire.whole, bind_eq_ok]
  simp only [bind_eq_ok, ensure_eq_ok, length_eq_zero_iff]
  constructor
  · rintro ⟨⟨a', rest⟩, hr, -, rfl, hret⟩
    cases hret
    exact hr
  · intro hr
    exact ⟨(a, []), hr, (), rfl, rfl⟩

/-! ## Readers against encoders -/

/-- The reader accepts exactly what the encoder produces. -/
def Decodes {ε' : Type} (r : Reader ε α) (e : α → Except ε' Bytes) : Prop :=
  Reads r (fun a bs => e a = .ok bs)

variable {γ δ ε' : Type} {e₁ : α → Except ε' Bytes} {e₂ : β → Except ε' Bytes}

lemma append_eq_ok :
    (do return (← x) ++ (← y)) = .ok bs ↔ ∃ a b, x = .ok a ∧ y = .ok b ∧ bs = a ++ b := by
  simp only [bind_eq_ok]
  constructor
  · rintro ⟨a, ha, b, hb, h⟩
    exact ⟨a, b, ha, hb, (Except.ok.inj h).symm⟩
  · rintro ⟨a, b, ha, hb, rfl⟩
    exact ⟨a, ha, b, hb, rfl⟩

lemma append3_eq_ok {z : Except ε Bytes} :
    (do return (← x) ++ ((← y) ++ (← z))) = .ok bs ↔
      ∃ a b c, x = .ok a ∧ y = .ok b ∧ z = .ok c ∧ bs = a ++ (b ++ c) := by
  simp only [bind_eq_ok]
  constructor
  · rintro ⟨a, ha, b, hb, c, hc, h⟩
    exact ⟨a, b, c, ha, hb, hc, (Except.ok.inj h).symm⟩
  · rintro ⟨a, b, c, ha, hb, hc, rfl⟩
    exact ⟨a, ha, b, hb, c, hc, rfl⟩

/-- A record of two fields, read in the order in which they are written. -/
lemma Decodes.record2 {r₁ : Reader ε α} {r₂ : Reader ε β} (h₁ : Decodes r₁ e₁)
    (h₂ : Decodes r₂ e₂) (mk : α → β → γ) (p₁ : γ → α) (p₂ : γ → β)
    (hmk : ∀ c, mk (p₁ c) (p₂ c) = c) (hp : ∀ a b, p₁ (mk a b) = a ∧ p₂ (mk a b) = b) :
    Decodes (do let a ← r₁; let b ← r₂; return mk a b)
      (fun c => do return (← e₁ (p₁ c)) ++ (← e₂ (p₂ c))) := by
  refine (h₁.bind fun a => h₂.bind fun b => Reads.pure (mk a b)).congr fun c bs => ?_
  rw [append_eq_ok]
  constructor
  · rintro ⟨a, x, _, ha, ⟨b, y, _, hb, ⟨rfl, rfl⟩, rfl⟩, rfl⟩
    refine ⟨x, y, ?_, ?_, by simp⟩
    · rwa [(hp a b).1]
    · rwa [(hp a b).2]
  · rintro ⟨x, y, hx, hy, rfl⟩
    exact ⟨_, x, y, hx, ⟨_, y, [], hy, ⟨(hmk c).symm, rfl⟩, by simp⟩, rfl⟩

lemma Decodes.record3 {r₁ : Reader ε α} {r₂ : Reader ε β} {r₃ : Reader ε γ}
    {e₃ : γ → Except ε' Bytes} (h₁ : Decodes r₁ e₁) (h₂ : Decodes r₂ e₂) (h₃ : Decodes r₃ e₃)
    (mk : α → β → γ → δ) (p₁ : δ → α) (p₂ : δ → β) (p₃ : δ → γ)
    (hmk : ∀ d, mk (p₁ d) (p₂ d) (p₃ d) = d)
    (hp : ∀ a b c, p₁ (mk a b c) = a ∧ p₂ (mk a b c) = b ∧ p₃ (mk a b c) = c) :
    Decodes (do let a ← r₁; let b ← r₂; let c ← r₃; return mk a b c)
      (fun d => do return (← e₁ (p₁ d)) ++ ((← e₂ (p₂ d)) ++ (← e₃ (p₃ d)))) := by
  refine (h₁.bind fun a => h₂.bind fun b => h₃.bind fun c => Reads.pure (mk a b c)).congr
    fun d bs => ?_
  rw [append3_eq_ok]
  constructor
  · rintro ⟨a, x, _, ha, ⟨b, y, _, hb, ⟨c, z, _, hc, ⟨rfl, rfl⟩, rfl⟩, rfl⟩, rfl⟩
    refine ⟨x, y, z, ?_, ?_, ?_, by simp⟩
    · rwa [(hp a b c).1]
    · rwa [(hp a b c).2.1]
    · rwa [(hp a b c).2.2]
  · rintro ⟨x, y, z, hx, hy, hz, rfl⟩
    exact ⟨_, x, _, hx, ⟨_, y, _, hy, ⟨_, z, [], hz, ⟨(hmk d).symm, rfl⟩, rfl⟩, rfl⟩, by simp⟩

/-! ## Sequences -/

def concat : List (Except ε Bytes) → Except ε Bytes
  | [] => .ok []
  | x :: xs => do return (← x) ++ (← concat xs)

def readMany (r : Reader ε α) : ℕ → Reader ε (List α)
  | 0 => pure []
  | n + 1 => do
    let item ← r
    let items ← readMany r n
    return item :: items

lemma concat_nil_eq_ok : concat ([] : List (Except ε Bytes)) = .ok bs ↔ bs = [] := by
  rw [concat, Except.ok.injEq, eq_comm]

lemma concat_cons_eq_ok {xs : List (Except ε Bytes)} :
    concat (x :: xs) = .ok bs ↔ ∃ a b, x = .ok a ∧ concat xs = .ok b ∧ bs = a ++ b :=
  append_eq_ok

/-- Whatever follows, the reader gives back what the encoder wrote. -/
structure Recovers (r : Reader ε α) (e : α → Except ε' Bytes) : Prop where
  read : ∀ {a bs}, e a = .ok bs → ∀ rest, r (bs ++ rest) = .ok (a, rest)

lemma lift_ok {x : Except ε α} (h : x = .ok a) (input : Bytes) :
    Wire.lift x input = .ok (a, input) := by
  rw [h]
  rfl

lemma lift_bind_ok {x : Except ε α} (h : x = .ok a) (f : α → Reader ε β) (input : Bytes) :
    (Wire.lift x >>= f) input = f a input := by
  rw [h]
  rfl

lemma concat_append {xs ys : List (Except ε Bytes)} :
    concat (concat xs :: ys) = .ok bs ↔ concat (xs ++ ys) = .ok bs := by
  induction xs generalizing bs with
  | nil =>
    rw [concat_cons_eq_ok]
    simp only [concat_nil_eq_ok, nil_append]
    constructor
    · rintro ⟨_, b, rfl, hb, rfl⟩
      exact hb
    · intro h
      exact ⟨[], bs, rfl, h, rfl⟩
  | cons x xs ih =>
    simp only [concat_cons_eq_ok, cons_append, ← ih]
    constructor
    · rintro ⟨_, b, ⟨c, d, hc, hd, rfl⟩, hb, rfl⟩
      exact ⟨c, d ++ b, hc, ⟨d, b, hd, hb, rfl⟩, append_assoc c d b⟩
    · rintro ⟨c, _, hc, ⟨d, b, hd, hb, rfl⟩, rfl⟩
      exact ⟨c ++ d, b, ⟨c, d, hc, hd, rfl⟩, hb, (append_assoc c d b).symm⟩

/-- Read the first part that was written and go on with the others. -/
lemma Recovers.step {r : Reader ε α} {e : α → Except ε' Bytes} (h : Recovers r e) {a : α}
    {parts : List (Except ε' Bytes)} {bs rest : Bytes} {f : α → Reader ε β}
    {result : Except ε (β × Bytes)} (hbs : concat (e a :: parts) = .ok bs)
    (hf : ∀ bs', concat parts = .ok bs' → f a (bs' ++ rest) = result) :
    (r >>= f) (bs ++ rest) = result := by
  obtain ⟨x, y, hx, hy, rfl⟩ := concat_cons_eq_ok.1 hbs
  rw [append_assoc, bind_of_ok (h.read hx _)]
  exact hf y hy

lemma Recovers.many {r : Reader ε α} {e : α → Except ε' Bytes} (h : Recovers r e) {l : List α}
    (hbs : concat (l.map e) = .ok bs) (rest : Bytes) :
    readMany r l.length (bs ++ rest) = .ok (l, rest) := by
  induction l generalizing bs with
  | nil =>
    obtain rfl := concat_nil_eq_ok.1 hbs
    rfl
  | cons a l ih =>
    obtain ⟨x, y, hx, hy, rfl⟩ := concat_cons_eq_ok.1 hbs
    rw [append_assoc, length_cons, readMany, bind_of_ok (h.read hx _), bind_of_ok (ih hy)]
    rfl

end Readers

/-! ## Frames

A frame is a magic word of eight bytes, two 16-bit fields, the total length, and a payload. -/

def u16At (record : Bytes) (offset : ℕ) : UInt16 := getU16 ((record.drop offset).take 2)

def u32At (record : Bytes) (offset : ℕ) : UInt32 := getU32 ((record.drop offset).take 4)

def frame (magic : Bytes) (first second : UInt16) (total : UInt32) (payload : Bytes) : Bytes :=
  magic ++ (putU16 first ++ (putU16 second ++ (putU32 total ++ payload)))

lemma putU16_u16At (h : offset + 2 ≤ record.length) :
    putU16 (u16At record offset) = (record.drop offset).take 2 :=
  putU16_getU16 (by rw [length_take, length_drop]; omega)

lemma putU32_u32At (h : offset + 4 ≤ record.length) :
    putU32 (u32At record offset) = (record.drop offset).take 4 :=
  putU32_getU32 (by rw [length_take, length_drop]; omega)

/-- A record of at least sixteen bytes is the frame of what its header says. -/
lemma frame_of_record (h : 16 ≤ record.length) :
    frame (record.take 8) (u16At record 8) (u16At record 10) (u32At record 12) (record.drop 16)
      = record := by
  have hsplit : ∀ offset n, (record.drop offset).take n ++ record.drop (offset + n)
      = record.drop offset := by
    intro offset n
    rw [← drop_drop, take_append_drop]
  rw [frame, putU16_u16At (by omega), putU16_u16At (by omega), putU32_u32At (by omega),
    hsplit 12 4, hsplit 10 2, hsplit 8 2, take_append_drop]

lemma u16At_append {pre : Bytes} {offset : ℕ} (h : pre.length = offset) (v : UInt16)
    (rest : Bytes) : u16At (pre ++ (putU16 v ++ rest)) offset = v := by
  rw [u16At, drop_left' h, ← length_putU16 v, take_left, getU16_putU16]

lemma u32At_append {pre : Bytes} (h : pre.length = offset) (v : UInt32) (rest : Bytes) :
    u32At (pre ++ (putU32 v ++ rest)) offset = v := by
  rw [u32At, drop_left' h, ← length_putU32 v, take_left, getU32_putU32]

section Frame

variable {magic : Bytes} (hmagic : magic.length = 8) (first second : UInt16) (total : UInt32)
  (payload : Bytes)

include hmagic

lemma length_frame : (frame magic first second total payload).length = 16 + payload.length := by
  simp only [frame, length_append, hmagic, length_putU16, length_putU32]
  omega

lemma take_frame : (frame magic first second total payload).take 8 = magic := by
  rw [frame, ← hmagic, take_left]

lemma u16At_frame_first : u16At (frame magic first second total payload) 8 = first :=
  u16At_append hmagic first _

lemma u16At_frame_second : u16At (frame magic first second total payload) 10 = second := by
  rw [frame, ← append_assoc]
  exact u16At_append (by simp [hmagic]) second _

lemma u32At_frame : u32At (frame magic first second total payload) 12 = total := by
  rw [frame, ← append_assoc, ← append_assoc]
  exact u32At_append (by simp [hmagic]) total _

lemma drop_frame : (frame magic first second total payload).drop 16 = payload := by
  rw [frame, ← append_assoc, ← append_assoc, ← append_assoc, drop_left' (by simp [hmagic])]

end Frame

/-! ## Encoders that always fit -/

/-- The encoder succeeds with at most `n` bytes. -/
def Fits {ε : Type} (x : Except ε Bytes) (n : ℕ) : Prop := ∃ bs, x = .ok bs ∧ bs.length ≤ n

lemma Fits.ok (h : bs.length ≤ n) :
    Fits (.ok bs : Except ε Bytes) n := ⟨bs, rfl, h⟩

variable {x y : Except ε Bytes}

lemma Fits.append (hx : Fits x m) (hy : Fits y n) : Fits (do return (← x) ++ (← y)) (m + n) := by
  obtain ⟨a, rfl, ha⟩ := hx
  obtain ⟨b, rfl, hb⟩ := hy
  exact ⟨a ++ b, rfl, by rw [length_append]; omega⟩

lemma Fits.append3 {z : Except ε Bytes} {l : ℕ} (hx : Fits x l) (hy : Fits y m) (hz : Fits z n) :
    Fits (do return (← x) ++ ((← y) ++ (← z))) (l + (m + n)) := by
  obtain ⟨a, rfl, ha⟩ := hx
  obtain ⟨b, rfl, hb⟩ := hy
  obtain ⟨c, rfl, hc⟩ := hz
  exact ⟨a ++ (b ++ c), rfl, by rw [length_append, length_append]; omega⟩

lemma Fits.mono (h : Fits x m) (hmn : m ≤ n) : Fits x n := by
  obtain ⟨bs, hbs, hlen⟩ := h
  exact ⟨bs, hbs, hlen.trans hmn⟩

end Ostadix.Wire
