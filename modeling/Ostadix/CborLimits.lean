import Ostadix.CborRoundTrip

/-! Decoding under limits: which values fit, and what any accepted payload is bounded by. -/

namespace Ostadix

open List

namespace Json

def isByte : Json → Bool
  | .number (.posInt value) => value ≤ 255
  | _ => false

mutual

/-- The nesting of a value in which an array of bytes counts as a single item. -/
def flatDepth : Json → ℕ
  | .array items => if items.all isByte then 0 else flatDepthItems items
  | .object entries => flatDepthEntries entries
  | _ => 0

def flatDepthItems : List Json → ℕ
  | [] => 0
  | v :: items => max (flatDepth v + 1) (flatDepthItems items)

def flatDepthEntries : List (String × Json) → ℕ
  | [] => 0
  | (_, v) :: entries => max (flatDepth v + 1) (flatDepthEntries entries)

end
lemma itemCount_pos (v : Json) : 1 ≤ v.itemCount := by
  cases v <;> simp only [itemCount] <;> omega

lemma depthItems_le {items : List Json} {d : ℕ} :
    depthItems items ≤ d ↔ ∀ v ∈ items, v.depth + 1 ≤ d := by
  induction items with
  | nil => simp [depthItems]
  | cons v items ih => simp [depthItems, ih]

lemma depthEntries_le {entries : List (String × Json)} {d : ℕ} :
    depthEntries entries ≤ d ↔ ∀ e ∈ entries, e.2.depth + 1 ≤ d := by
  induction entries with
  | nil => simp [depthEntries]
  | cons e entries ih => simp [depthEntries, ih]

lemma itemCountItems_eq (items : List Json) : itemCountItems items = (items.map itemCount).sum := by
  induction items with
  | nil => rfl
  | cons v items ih => rw [itemCountItems, ih, map_cons, sum_cons]

lemma itemCountEntries_eq (entries : List (String × Json)) :
    itemCountEntries entries = (entries.map fun e => 1 + e.2.itemCount).sum := by
  induction entries with
  | nil => rfl
  | cons e entries ih => rw [itemCountEntries, ih, map_cons, sum_cons]

end Json

namespace Cbor

open Wire

/-! ## Values that fit -/

lemma itemCount_canonical (v : Json) : (canonical v).itemCount = v.itemCount := by
  induction v using Json.induction with
  | null | bool | number | string => rfl
  | array items ih =>
    have hmap : items.map (Json.itemCount ∘ canonical) = items.map Json.itemCount :=
      map_congr_left ih
    rw [canonical_array, Json.itemCount, Json.itemCount, Json.itemCountItems_eq, map_map, hmap,
      Json.itemCountItems_eq]
  | object entries ih =>
    have hmap : (sortBy entryOrder entries).map
        ((fun e => 1 + e.2.itemCount) ∘ canonicalEntry) =
        (sortBy entryOrder entries).map (fun e => 1 + e.2.itemCount) :=
      map_congr_left fun e he => congrArg (1 + ·) (ih e (mem_sortBy.1 he))
    rw [canonical_object, Json.itemCount, Json.itemCount, Json.itemCountEntries_eq, map_map,
      hmap, Json.itemCountEntries_eq, ((perm_sortBy entryOrder entries).map _).sum_eq]

lemma depth_canonical (v : Json) : (canonical v).depth = v.depth := by
  induction v using Json.induction with
  | null | bool | number | string => rfl
  | array items ih =>
    rw [canonical_array, Json.depth, Json.depth]
    refine eq_of_forall_ge_iff fun d => ?_
    rw [Json.depthItems_le, Json.depthItems_le, forall_mem_map]
    exact forall₂_congr fun v hv => by rw [ih v hv]
  | object entries ih =>
    rw [canonical_object, Json.depth, Json.depth]
    refine eq_of_forall_ge_iff fun d => ?_
    rw [Json.depthEntries_le, Json.depthEntries_le, forall_mem_map]
    simp only [mem_sortBy]
    exact forall₂_congr fun e he => by rw [canonicalEntry, ih e he]

/-- Under limits that leave room for it, an encoding is decoded. -/
lemma decodeBounded_encode (v : JsonValue) (limits : DecodeLimits)
    (hbytes : (encode v.value).length ≤ limits.maxBytes.toNat)
    (hitems : v.value.itemCount ≤ limits.maxItems.toNat)
    (hdepth : v.value.depth ≤ limits.maxDepth.toNat)
    (htexts : ∀ t ∈ (canonical v.value).texts 0, t.1 + t.2 ≤ limits.maxItems.toNat) :
    decodeBounded (encode v.value) limits = .ok (canonical v.value) := by
  have hallows : Allows (some limits) (0 + (canonical v.value).depth)
      (0 + (canonical v.value).itemCount) ((canonical v.value).texts 0) := by
    intro l hl
    cases hl
    rw [Nat.zero_add, Nat.zero_add, depth_canonical, itemCount_canonical]
    exact ⟨hdepth, hitems, htexts⟩
  have h := decodesTo (some limits) v.valid _ 0 le_rfl 0 [] hallows
  rw [append_nil] at h
  rw [decodeBounded, ensure, if_pos hbytes, decodePayload, encode]
  change (decodeValueAtDepth _ _ _ _ >>= _) = _
  rw [h]
  rfl

/-! ## Readers that count no items -/

variable {α β : Type}

variable {r : Decoder α} {f : α → Decoder β} {s u : CborDecoder} {b : β} {P : α → Prop}
  {Q : β → Prop}

lemma run_bind_eq_ok : (r >>= f) s = .ok (b, u) ↔ ∃ a t, r s = .ok (a, t) ∧ f a t = .ok (b, u) := by
  change (r s >>= fun p => f p.1 p.2) = _ ↔ _
  rw [bind_eq_ok]
  exact Prod.exists

lemma run_map_eq_ok {f : α → β} (h : (f <$> r) s = .ok (b, u)) :
    ∃ a, r s = .ok (a, u) ∧ f a = b := by
  obtain ⟨a, t, ha, hret⟩ := run_bind_eq_ok (f := fun a => Pure.pure (f a)).1 h
  cases hret
  exact ⟨a, ha, rfl⟩

/-- The reader counts no items and returns values with `P`. -/
def Keeps {α : Type} (P : α → Prop) (r : Decoder α) : Prop :=
  ∀ s a t, r s = .ok (a, t) → t.decodedItems = s.decodedItems ∧ P a

lemma Keeps.pure {a : α} (h : P a) : Keeps P (Pure.pure a) := by
  intro s b t hrun
  cases hrun
  exact ⟨rfl, h⟩

lemma Keeps.fail {α : Type} {P : α → Prop} (e : CborError) : Keeps P (fail e) := nofun

lemma Keeps.bind (hr : Keeps P r) (hf : ∀ a, P a → Keeps Q (f a)) : Keeps Q (r >>= f) := by
  intro s b u hrun
  obtain ⟨a, t, ha, hb⟩ := run_bind_eq_ok.1 hrun
  obtain ⟨ht, hP⟩ := hr _ _ _ ha
  obtain ⟨hu, hQ⟩ := hf a hP _ _ _ hb
  exact ⟨hu.trans ht, hQ⟩

lemma Keeps.map {f : α → β} (hr : Keeps P r) (hf : ∀ a, P a → Q (f a)) : Keeps Q (f <$> r) :=
  hr.bind (f := fun a => Pure.pure (f a)) fun a ha => Keeps.pure (hf a ha)

lemma Keeps.readBytes (len : ℕ) : Keeps (fun bytes => bytes.length = len) (readBytes len) := by
  intro s bytes t hrun
  unfold Cbor.readBytes at hrun
  split at hrun
  · cases hrun
  · cases hrun
    exact ⟨rfl, by simp; omega⟩

lemma Keeps.readU8 : Keeps (fun _ => True) readU8 := by
  intro s byte t hrun
  unfold Cbor.readU8 at hrun
  split at hrun
  · cases hrun
  · cases hrun
    exact ⟨rfl, trivial⟩

lemma Keeps.check (x : Except CborError Unit) : Keeps (fun _ => True) (check x) := by
  intro s u t hrun
  cases x with
  | error e => cases hrun
  | ok u' =>
    cases hrun
    exact ⟨rfl, trivial⟩

lemma Keeps.readLen (additional : UInt8) : Keeps (fun _ => True) (readLen additional) := by
  unfold Cbor.readLen
  split_ifs
  · exact .pure trivial
  · exact Keeps.readU8.map fun _ _ => trivial
  · exact (Keeps.readBytes 2).map fun _ _ => trivial
  · exact (Keeps.readBytes 4).map fun _ _ => trivial
  · exact (Keeps.readBytes 8).map fun _ _ => trivial
  · exact .fail _
  · exact .fail _

lemma Keeps.get : Keeps (fun _ => True) (get : Decoder CborDecoder) := by
  intro s a t hrun
  cases hrun
  exact ⟨rfl, trivial⟩

lemma Keeps.readSizedLen (limits : Option DecodeLimits) (additional : UInt8) (kind : SizedKind)
    (per : ℕ) : Keeps (fun _ => True) (readSizedLen limits additional kind per) :=
  (Keeps.readLen additional).bind fun _ _ => Keeps.get.bind fun _ _ => (Keeps.check _).bind
    fun _ _ => (Keeps.check _).bind fun _ _ => .pure trivial

def Single (v : Json) : Prop := v.itemCount = 1 ∧ v.flatDepth = 0

lemma keeps_option {o : Option JsonNumber} (e : CborError) :
    Keeps Single (match o with
      | some number => Pure.pure (.number number)
      | none => Cbor.fail e) := by
  cases o with
  | none => exact .fail e
  | some number => exact .pure ⟨rfl, rfl⟩

lemma keeps_decodeNegative (additional : UInt8) : Keeps Single (decodeNegative additional) :=
  (Keeps.readLen additional).bind fun _ _ => keeps_option _

lemma keeps_decodeSimple (additional : UInt8) : Keeps Single (decodeSimple additional) := by
  unfold decodeSimple
  split_ifs
  · exact .pure ⟨rfl, rfl⟩
  · exact .pure ⟨rfl, rfl⟩
  · exact .pure ⟨rfl, rfl⟩
  · exact (Keeps.readBytes 4).bind fun _ _ => keeps_option _
  · exact (Keeps.readBytes 8).bind fun _ _ => keeps_option _
  · exact .fail _

lemma keeps_decodeText (limits : Option DecodeLimits) (additional : UInt8) :
    Keeps Single (decodeText limits additional) := by
  refine (Keeps.readSizedLen limits additional _ 1).bind fun len _ =>
    (Keeps.readBytes len).bind fun bytes _ => ?_
  split
  · exact .pure ⟨rfl, rfl⟩
  · exact .fail _

/-! ## Every accepted payload keeps to the limits -/

section Within

variable (l : DecodeLimits)

def Within (depth : ℕ) (item : Decoder Json) : Prop :=
  ∀ s v t, item s = .ok (v, t) → s.decodedItems + v.itemCount ≤ t.decodedItems ∧
    t.decodedItems ≤ l.maxItems.toNat ∧ depth + v.flatDepth ≤ l.maxDepth.toNat

variable {l}

variable {s t : CborDecoder} {depth : ℕ} {item : Decoder Json}

lemma countItems_within {k : ℕ} (h : countItems (some l) k s = .ok ((), t)) :
    t.decodedItems = s.decodedItems + k ∧ t.decodedItems ≤ l.maxItems.toNat := by
  simp only [countItems, bind_eq_ok, ensure_eq_ok, exists_const] at h
  obtain ⟨-, hmax, hret⟩ := h
  obtain rfl := (Prod.mk.inj (Except.ok.inj hret)).2
  exact ⟨rfl, hmax⟩

lemma noteItem_within (h : noteItem (some l) depth s = .ok ((), t)) :
    depth ≤ l.maxDepth.toNat ∧ t.decodedItems = s.decodedItems + 1 ∧
      t.decodedItems ≤ l.maxItems.toNat := by
  obtain ⟨⟨⟩, u, hcheck, hcount⟩ := run_bind_eq_ok.1 h
  obtain ⟨htotal, hmax⟩ := countItems_within hcount
  have hu := ((Keeps.check _) _ _ _ hcheck).1
  have hdepth : depth ≤ l.maxDepth.toNat := by
    by_contra hdeep
    simp [check, ensure, hdeep, Except.map, bind, Except.bind] at hcheck
  exact ⟨hdepth, hu ▸ htotal, hmax⟩

/-- The items in a run of the loop, at one level below `depth`. -/
lemma decodeItems_within (hitem : Within l (depth + 1) item) (hdepth : depth ≤ l.maxDepth.toNat)
    {count : ℕ} {items : List Json} (hs : s.decodedItems ≤ l.maxItems.toNat)
    (h : decodeItems item count s = .ok (items, t)) :
    s.decodedItems + Json.itemCountItems items ≤ t.decodedItems ∧
      t.decodedItems ≤ l.maxItems.toNat ∧
      depth + Json.flatDepthItems items ≤ l.maxDepth.toNat := by
  induction count generalizing s items with
  | zero =>
    cases h
    exact ⟨le_rfl, hs, hdepth⟩
  | succ count ih =>
    obtain ⟨v, u, hv, h⟩ := run_bind_eq_ok.1 h
    obtain ⟨rest, u', hrest, h⟩ := run_bind_eq_ok.1 h
    cases h
    obtain ⟨hcount, hmax, hflat⟩ := hitem _ _ _ hv
    obtain ⟨hcount', hmax', hflat'⟩ := ih hmax hrest
    simp only [Json.itemCountItems, Json.flatDepthItems]
    omega

lemma itemCountEntries_insertEntry (key : String) (v : Json) (map : List (String × Json)) :
    Json.itemCountEntries (insertEntry key v map) ≤
      Json.itemCountEntries map + 1 + v.itemCount := by
  induction map with
  | nil => simp [insertEntry, Json.itemCountEntries]
  | cons e map ih =>
    rw [insertEntry]
    split_ifs <;> simp only [Json.itemCountEntries] <;> omega

lemma flatDepthEntries_insertEntry (key : String) (v : Json) (map : List (String × Json)) :
    Json.flatDepthEntries (insertEntry key v map) ≤
      max (v.flatDepth + 1) (Json.flatDepthEntries map) := by
  induction map with
  | nil => simp [insertEntry, Json.flatDepthEntries]
  | cons e map ih =>
    rw [insertEntry]
    split_ifs <;> simp only [Json.flatDepthEntries] <;> omega

lemma keeps_keyText (v : Json) : Keeps (fun _ => True) (keyText v) := by
  unfold keyText
  split
  · exact .pure trivial
  · exact .fail _

/-- Every key and value counts, also those that a repeated key replaces. -/
lemma decodeEntries_within (hitem : Within l (depth + 1) item) {count : ℕ}
    {map entries : List (String × Json)} (hs : s.decodedItems ≤ l.maxItems.toNat)
    (hmap : depth + Json.flatDepthEntries map ≤ l.maxDepth.toNat)
    (h : decodeEntries item count map s = .ok (entries, t)) :
    s.decodedItems + Json.itemCountEntries entries ≤ t.decodedItems + Json.itemCountEntries map ∧
      t.decodedItems ≤ l.maxItems.toNat ∧
      depth + Json.flatDepthEntries entries ≤ l.maxDepth.toNat := by
  induction count generalizing s map with
  | zero =>
    cases h
    exact ⟨le_rfl, hs, hmap⟩
  | succ count ih =>
    obtain ⟨keyValue, s₁, hkey, h⟩ := run_bind_eq_ok.1 h
    obtain ⟨key, s₂, htext, h⟩ := run_bind_eq_ok.1 h
    obtain ⟨v, s₃, hv, h⟩ := run_bind_eq_ok.1 h
    obtain ⟨hkeyCount, -, -⟩ := hitem _ _ _ hkey
    have hsame := ((keeps_keyText keyValue) _ _ _ htext).1
    obtain ⟨hcount, hmax, hflat⟩ := hitem _ _ _ hv
    have hkeyPos : 1 ≤ keyValue.itemCount := Json.itemCount_pos _
    have hgrow := itemCountEntries_insertEntry key v map
    have hdeep := flatDepthEntries_insertEntry key v map
    obtain ⟨hcount', hmax', hflat'⟩ := ih hmax (by omega) h
    omega

lemma itemCount_bytes (bytes : Bytes) :
    (Json.array (bytes.map byteItem)).itemCount = 1 + bytes.length := by
  have h : Json.itemCountItems (bytes.map byteItem) = bytes.length := by
    induction bytes with
    | nil => rfl
    | cons b bytes ih =>
      have hb : (byteItem b).itemCount = 1 := rfl
      rw [map_cons, Json.itemCountItems, ih, hb, length_cons, Nat.add_comm]
  rw [Json.itemCount, h]

lemma flatDepth_bytes (bytes : Bytes) : (Json.array (bytes.map byteItem)).flatDepth = 0 := by
  have h : (bytes.map byteItem).all Json.isByte := by
    rw [all_eq_true, forall_mem_map]
    intro b _
    have := b.toNat_lt
    simp only [byteItem, Json.isByte, decide_eq_true_eq, UInt64.le_iff_toNat_le,
      UInt8.toNat_toUInt64]
    exact Nat.le_of_lt_succ this
  rw [Json.flatDepth, if_pos h]

variable {additional : UInt8} {v : Json}

lemma decodeByteString_within (hdepth : depth ≤ l.maxDepth.toNat)
    (h : decodeByteString (some l) additional s = .ok (v, t)) :
    s.decodedItems + v.itemCount ≤ t.decodedItems + 1 ∧ t.decodedItems ≤ l.maxItems.toNat ∧
      depth + v.flatDepth ≤ l.maxDepth.toNat := by
  obtain ⟨len, s₁, hlen, h⟩ := run_bind_eq_ok.1 h
  obtain ⟨⟨⟩, s₂, hreserve, h⟩ := run_bind_eq_ok.1 h
  obtain ⟨bytes, s₃, hbytes, h⟩ := run_bind_eq_ok.1 h
  cases h
  have hs₁ := ((Keeps.readSizedLen _ _ _ _) _ _ _ hlen).1
  obtain ⟨hs₂, hmax⟩ := countItems_within hreserve
  obtain ⟨hs₃, hlength⟩ := (Keeps.readBytes len) _ _ _ hbytes
  rw [itemCount_bytes, flatDepth_bytes]
  omega

lemma flatDepth_array_le (items : List Json) :
    (Json.array items).flatDepth ≤ Json.flatDepthItems items := by
  rw [Json.flatDepth]
  split <;> omega

lemma decodeBody_within (hitem : Within l (depth + 1) item) (hdepth : depth ≤ l.maxDepth.toNat)
    {major : UInt8} (hs : s.decodedItems ≤ l.maxItems.toNat)
    (h : decodeBody (some l) item major additional s = .ok (v, t)) :
    s.decodedItems + v.itemCount ≤ t.decodedItems + 1 ∧ t.decodedItems ≤ l.maxItems.toNat ∧
      depth + v.flatDepth ≤ l.maxDepth.toNat := by
  have hsingle : ∀ {r : Decoder Json}, Keeps Single r → r s = .ok (v, t) →
      s.decodedItems + v.itemCount ≤ t.decodedItems + 1 ∧ t.decodedItems ≤ l.maxItems.toNat ∧
        depth + v.flatDepth ≤ l.maxDepth.toNat := by
    intro r hr hrun
    obtain ⟨hsame, hcount, hflat⟩ := hr _ _ _ hrun
    omega
  unfold decodeBody at h
  split_ifs at h
  · exact hsingle ((Keeps.readLen additional).map fun _ _ => ⟨rfl, rfl⟩) h
  · exact hsingle (keeps_decodeNegative additional) h
  · exact decodeByteString_within hdepth h
  · exact hsingle (keeps_decodeText (some l) additional) h
  · obtain ⟨len, u, hlen, h⟩ := run_bind_eq_ok.1 h
    obtain ⟨items, hitems, rfl⟩ := run_map_eq_ok h
    have hu := ((Keeps.readSizedLen _ _ _ _) _ _ _ hlen).1
    obtain ⟨hcount, hmax, hflat⟩ := decodeItems_within hitem hdepth (hu ▸ hs) hitems
    have hle := flatDepth_array_le items
    rw [Json.itemCount]
    omega
  · obtain ⟨len, u, hlen, h⟩ := run_bind_eq_ok.1 h
    obtain ⟨entries, hentries, rfl⟩ := run_map_eq_ok h
    have hu := ((Keeps.readSizedLen _ _ _ _) _ _ _ hlen).1
    have hempty : depth + Json.flatDepthEntries [] ≤ l.maxDepth.toNat := hdepth
    obtain ⟨hcount, hmax, hflat⟩ := decodeEntries_within hitem (hu ▸ hs) hempty hentries
    rw [Json.itemCount, Json.flatDepth]
    rw [Json.itemCountEntries] at hcount
    omega
  · exact hsingle (keeps_decodeSimple additional) h
  · cases h

lemma decodeValueAtDepth_within (fuel depth : ℕ) :
    Within l depth (decodeValueAtDepth (some l) fuel depth) := by
  induction fuel generalizing depth with
  | zero =>
    intro s v t h
    obtain ⟨_, _, _, h⟩ := run_bind_eq_ok.1 h
    cases h
  | succ fuel ih =>
    intro s v t h
    obtain ⟨⟨⟩, s₁, hnote, h⟩ := run_bind_eq_ok.1 h
    obtain ⟨initial, s₂, hread, h⟩ := run_bind_eq_ok.1 h
    obtain ⟨hdepth, hs₁, hmax⟩ := noteItem_within hnote
    have hs₂ := (Keeps.readU8 _ _ _ hread).1
    obtain ⟨hcount, hmax', hflat⟩ := decodeBody_within (ih (depth + 1)) hdepth (hs₂ ▸ hmax) h
    omega

end Within

/-- A value within the limits whose texts fit the items left is decoded; whatever is decoded keeps
to the limits, arrays of bytes counting as one level. -/
theorem decodeBounded_limits (limits : DecodeLimits) :
    (∀ v : JsonValue, (encode v.value).length ≤ limits.maxBytes.toNat →
      v.value.itemCount ≤ limits.maxItems.toNat → v.value.depth ≤ limits.maxDepth.toNat →
      (∀ t ∈ (canonical v.value).texts 0, t.1 + t.2 ≤ limits.maxItems.toNat) →
      ∃ w, decodeBounded (encode v.value) limits = .ok w ∧ w.same v.value) ∧
    ∀ payload w, decodeBounded payload limits = .ok w →
      w.itemCount ≤ limits.maxItems.toNat ∧ w.flatDepth ≤ limits.maxDepth.toNat := by
  refine ⟨fun v hbytes hitems hdepth htexts => ?_, fun payload w h => ?_⟩
  · exact ⟨_, decodeBounded_encode v limits hbytes hitems hdepth htexts,
      same_of_canonical_eq v.valid (canonical_idem _)⟩
  obtain ⟨⟨⟩, -, h⟩ := bind_eq_ok.1 h
  obtain ⟨⟨v, t⟩, hv, h⟩ := bind_eq_ok.1 h
  obtain ⟨⟨⟩, -, h⟩ := bind_eq_ok.1 h
  cases h
  obtain ⟨hcount, hmax, hflat⟩ := decodeValueAtDepth_within _ _ _ _ _ hv
  omega

def sampleValue : JsonValue where
  value := .object [("b", .array [.bool true, .null]), ("a", .string "xy")]
  valid := by decide

theorem decodeBounded_limits_sample :
    (∃ w, decodeBounded (encode sampleValue.value) ⟨16, 8, 2⟩ = .ok w ∧
      w.same sampleValue.value) ∧
    (Json.array [.number (.posInt 7)]).itemCount ≤ 2 ∧
      (Json.array [.number (.posInt 7)]).flatDepth ≤ 1 :=
  ⟨(decodeBounded_limits ⟨16, 8, 2⟩).1 sampleValue (by decide) (by decide) (by decide) (by decide),
    (decodeBounded_limits ⟨2, 2, 1⟩).2 [0x41, 7] _ rfl⟩

/-- A text of two bytes is refused where one item is allowed; a byte string is lifted to numbers one
level below the deepest allowed. -/
theorem decodeBounded_text_budget :
    (encode (.string "aa")).length ≤ 3 ∧ (Json.string "aa").itemCount ≤ 1 ∧
    (Json.string "aa").depth ≤ 0 ∧
    decodeBounded (encode (.string "aa")) ⟨3, 1, 0⟩ = .error (.itemBudget .textString 2 0) ∧
    decodeBounded [0x41, 7] ⟨2, 2, 0⟩ = .ok (.array [.number (.posInt 7)]) ∧
    ¬(Json.array [.number (.posInt 7)]).depth ≤ 0 := by
  refine ⟨by decide, by decide, by decide, rfl, rfl, by decide⟩

end Cbor

end Ostadix
