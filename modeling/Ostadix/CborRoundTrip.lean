import Ostadix.Cbor

/-! Decoding a canonical encoding gives the encoded value back. -/

namespace Ostadix.Cbor

open Wire List Json

/-! ## Lengths -/

lemma initial_fields : ∀ (major : Fin 8) (additional : Fin 32),
    ((UInt8.ofNat major <<< 5) ||| UInt8.ofNat additional) >>> 5 = UInt8.ofNat major ∧
      ((UInt8.ofNat major <<< 5) ||| UInt8.ofNat additional) &&& 0x1f = UInt8.ofNat additional := by
  decide

variable {α : Type} {limits : Option DecodeLimits} {d depth fuel k n : ℕ} {ts : List (ℕ × ℕ)}
  {entries : List (String × Json)}

variable {β : Type} {r : Decoder α} {s t : CborDecoder} {a : α} {bytes : Bytes} {len : UInt64}
  {j : ℕ} {v : Json}

lemma bind_ok {f : α → Decoder β} (h : r s = .ok (a, t)) : (r >>= f) s = f a t := by
  change (r s >>= fun p => f p.1 p.2) = _
  rw [h]
  rfl

lemma check_ok {x : Except CborError Unit} (h : x = .ok ()) (s : CborDecoder) :
    check x s = .ok ((), s) := by
  rw [h]
  rfl

lemma map_eq_ok {f : α → β} (h : r s = .ok (a, t)) : (f <$> r) s = .ok (f a, t) := by
  change (r s >>= fun p => pure (f p.1, p.2)) = _
  rw [h]
  rfl

lemma readBytes_append {len : ℕ} (h : bytes.length = len) (rest : Bytes) (n : ℕ) :
    readBytes len ⟨bytes ++ rest, n⟩ = .ok (bytes, ⟨rest, n⟩) := by
  subst h
  simp [readBytes]

lemma readLen_putU16 (v : UInt16) (rest : Bytes) (n : ℕ) :
    readLen 25 ⟨putU16 v ++ rest, n⟩ = .ok (v.toUInt64, ⟨rest, n⟩) := by
  have h := map_eq_ok (f := fun bytes => (getU16 bytes).toUInt64)
    (readBytes_append (length_putU16 v) rest n)
  rwa [getU16_putU16] at h

lemma readLen_putU32 (v : UInt32) (rest : Bytes) (n : ℕ) :
    readLen 26 ⟨putU32 v ++ rest, n⟩ = .ok (v.toUInt64, ⟨rest, n⟩) := by
  have h := map_eq_ok (f := fun bytes => (getU32 bytes).toUInt64)
    (readBytes_append (length_putU32 v) rest n)
  rwa [getU32_putU32] at h

lemma readLen_putU64 (v : UInt64) (rest : Bytes) (n : ℕ) :
    readLen 27 ⟨putU64 v ++ rest, n⟩ = .ok (v, ⟨rest, n⟩) := by
  have h := map_eq_ok (f := getU64) (readBytes_append (length_putU64 v) rest n)
  rwa [getU64_putU64] at h

/-- A length that fits a byte is read back from the byte it is narrowed to. -/
lemma toUInt64_toUInt8 (h : len.toNat ≤ 255) : len.toUInt8.toUInt64 = len := by
  rw [← UInt64.toNat_inj, UInt8.toNat_toUInt64, UInt64.toNat_toUInt8]
  omega

/-- What the encoder writes for a major type and a length is read back as them. -/
lemma encodeTypeLen_eq (major : Fin 8) (len : UInt64) :
    ∃ initial tail, encodeTypeLen (UInt8.ofNat major) len = initial :: tail ∧
      initial >>> 5 = UInt8.ofNat major ∧
      ∀ rest n, readLen (initial &&& 0x1f) ⟨tail ++ rest, n⟩ = .ok (len, ⟨rest, n⟩) := by
  unfold encodeTypeLen
  simp only [UInt64.le_iff_toNat_le]
  split_ifs with h23 h8 h16 h32
  · replace h23 : len.toNat ≤ 23 := h23
    obtain ⟨hmajor, hadd⟩ := initial_fields major ⟨len.toNat, by omega⟩
    have hof : UInt8.ofNat len.toNat = len.toUInt8 := rfl
    rw [hof] at hmajor hadd
    have hle : len.toUInt8.toNat ≤ 23 := by
      rw [UInt64.toNat_toUInt8]
      omega
    refine ⟨_, [], rfl, hmajor, fun rest n => ?_⟩
    rw [hadd, readLen, if_pos (UInt8.le_iff_toNat_le.2 hle), toUInt64_toUInt8 (by omega)]
    rfl
  · obtain ⟨hmajor, hadd⟩ := initial_fields major 24
    refine ⟨_, [len.toUInt8], rfl, hmajor, fun rest n => ?_⟩
    nth_rewrite 2 [← toUInt64_toUInt8 h8]
    exact hadd ▸ rfl
  · replace h16 : len.toNat ≤ 65535 := h16
    obtain ⟨hmajor, hadd⟩ := initial_fields major 25
    have hlen : len.toUInt16.toUInt64 = len := by
      rw [← UInt64.toNat_inj, UInt16.toNat_toUInt64, UInt64.toNat_toUInt16]
      omega
    refine ⟨_, _, rfl, hmajor, fun rest n => ?_⟩
    nth_rewrite 2 [← hlen]
    exact hadd ▸ readLen_putU16 _ rest n
  · replace h32 : len.toNat ≤ 4294967295 := h32
    obtain ⟨hmajor, hadd⟩ := initial_fields major 26
    have hlen : len.toUInt32.toUInt64 = len := by
      rw [← UInt64.toNat_inj, UInt32.toNat_toUInt64, UInt64.toNat_toUInt32]
      omega
    refine ⟨_, _, rfl, hmajor, fun rest n => ?_⟩
    nth_rewrite 2 [← hlen]
    exact hadd ▸ readLen_putU32 _ rest n
  · obtain ⟨hmajor, hadd⟩ := initial_fields major 27
    exact ⟨_, _, rfl, hmajor, fun rest n => hadd ▸ readLen_putU64 len rest n⟩

lemma encodeTypeLen_ne_nil (major : UInt8) (len : UInt64) : encodeTypeLen major len ≠ [] := by
  unfold encodeTypeLen
  split_ifs <;> exact cons_ne_nil _ _

/-! ## Canonical order -/

lemma encodeEntries_eq (entries : List (String × Json)) :
    encodeEntries entries = entries.map (fun e => (encodeText e.1, encodeValue e.2)) := by
  induction entries with
  | nil => rfl
  | cons e entries ih => rw [encodeEntries, ih, map_cons]

def entryOrder (entry : String × Json) : List ℕ := keyOrder (encodeText entry.1)

mutual

def canonical : Json → Json
  | .array items => .array (canonicalItems items)
  | .object entries => .object (sortBy entryOrder (canonicalEntries entries))
  | v => v

def canonicalItems : List Json → List Json
  | [] => []
  | v :: items => canonical v :: canonicalItems items

def canonicalEntries : List (String × Json) → List (String × Json)
  | [] => []
  | (key, v) :: entries => (key, canonical v) :: canonicalEntries entries

end

def canonicalEntry (entry : String × Json) : String × Json := (entry.1, canonical entry.2)

lemma canonicalItems_eq (items : List Json) : canonicalItems items = items.map canonical := by
  induction items with
  | nil => rfl
  | cons v items ih => rw [canonicalItems, ih, map_cons]

lemma canonicalEntries_eq (entries : List (String × Json)) :
    canonicalEntries entries = entries.map canonicalEntry := by
  induction entries with
  | nil => rfl
  | cons e entries ih =>
    rw [canonicalEntries, ih, map_cons]
    rfl

lemma canonical_array (items : List Json) :
    canonical (.array items) = .array (items.map canonical) := by
  rw [canonical, canonicalItems_eq]

lemma canonical_object (entries : List (String × Json)) :
    canonical (.object entries) = .object ((sortBy entryOrder entries).map canonicalEntry) := by
  rw [canonical, canonicalEntries_eq, ← map_sortBy canonicalEntry entryOrder]
  rfl

def encodeEntry (entry : String × Json) : Bytes := encodeText entry.1 ++ encodeValue entry.2

lemma encodeValue_object (entries : List (String × Json)) :
    encodeValue (.object entries) = encodeTypeLen 5 (UInt64.ofNat entries.length) ++
      (sortBy entryOrder entries).flatMap encodeEntry := by
  have hsort := map_sortBy (fun e : String × Json => (encodeText e.1, encodeValue e.2))
    (fun entry => keyOrder entry.1) entries
  rw [encodeValue, encodeEntries_eq, ← hsort, length_map, length_sortBy, flatMap_map]
  rfl

lemma canonical_idem (v : Json) : canonical (canonical v) = canonical v := by
  induction v using Json.induction with
  | null | bool | number | string => rfl
  | array items ih =>
    rw [canonical_array, canonical_array, map_map]
    exact congrArg Json.array (map_congr_left ih)
  | object entries ih =>
    have hmap : (sortBy entryOrder entries).map (canonicalEntry ∘ canonicalEntry) =
        (sortBy entryOrder entries).map canonicalEntry := by
      apply map_congr_left
      intro e he
      exact congrArg (Prod.mk e.1) (ih e (mem_sortBy.1 he))
    have hsorted : sortBy entryOrder ((sortBy entryOrder entries).map canonicalEntry) =
        (sortBy entryOrder entries).map canonicalEntry :=
      sortBy_eq_self (pairwise_map.2 (pairwise_sortBy entryOrder entries))
    rw [canonical_object, canonical_object, hsorted, map_map, hmap]

/-- Values with one canonical order are equal. -/
lemma same_of_canonical_eq {v w : Json} (hw : w.wellFormed) (h : canonical v = canonical w) :
    v.same w := by
  induction v using Json.induction generalizing w with
  | null | bool | number | string => cases w <;> simp_all [canonical, same]
  | array items ih =>
    cases w with
    | array items' =>
      obtain ⟨-, hitems⟩ := wellFormed_array.1 hw
      rw [canonical_array, canonical_array, Json.array.injEq] at h
      rw [same, sameItems_iff]
      exact forall₂_of_map_eq h fun x hx y hy hxy => ih x hx (hitems y hy) hxy
    | _ => simp [canonical] at h
  | object entries ih =>
    cases w with
    | object entries' =>
      obtain ⟨-, hnodup, hentries⟩ := wellFormed_object.1 hw
      rw [canonical_object, canonical_object, Json.object.injEq] at h
      have hlen := congrArg List.length h
      simp only [length_map, length_sortBy] at hlen
      simp only [same, hlen, decide_true, Bool.true_and, sameEntries_iff]
      intro e he
      have hmem : canonicalEntry e ∈ (sortBy entryOrder entries').map canonicalEntry :=
        h ▸ mem_map_of_mem (mem_sortBy.2 he)
      obtain ⟨f, hf, hef⟩ := mem_map.1 hmem
      obtain ⟨hkey, hval⟩ := Prod.mk.inj hef
      have hf := mem_sortBy.1 hf
      exact ⟨f.2, hkey ▸ lookup_eq_some_of_mem hnodup hf, ih e he (hentries f hf).2 hval.symm⟩
    | _ => simp [canonical] at h

/-! ## Running the decoder under limits -/

def counted (limits : Option DecodeLimits) (n k : ℕ) : ℕ := if limits.isSome then n + k else n

lemma countItems_eq (rest : Bytes) (h : ∀ l ∈ limits, n + k ≤ l.maxItems.toNat) :
    countItems limits k ⟨rest, n⟩ = .ok ((), ⟨rest, counted limits n k⟩) := by
  cases limits with
  | none => rfl
  | some l =>
    have hk := h l rfl
    have hmax := l.maxItems.toNat_lt
    have h1 : n + k < 2 ^ 64 := by omega
    simp only [countItems, ensure, h1, hk, counted]
    rfl

/-- A check made under limits passes when every limit does. -/
lemma check_limits {f : DecodeLimits → Except CborError Unit} (h : ∀ l ∈ limits, f l = .ok ())
    (s : CborDecoder) :
    check (limits.toList.forM f) s = .ok ((), s) :=
  check_ok (forM_eq_ok.2 fun l hl => h l (Option.mem_toList.1 hl)) s

lemma noteItem_eq (rest : Bytes) (hd : ∀ l ∈ limits, depth ≤ l.maxDepth.toNat)
    (hk : ∀ l ∈ limits, n + 1 ≤ l.maxItems.toNat) :
    noteItem limits depth ⟨rest, n⟩ = .ok ((), ⟨rest, counted limits n 1⟩) := by
  rw [noteItem, bind_ok (check_limits (fun l hl => ensure_eq_ok.2 (hd l hl)) _)]
  exact countItems_eq rest hk

lemma readSizedLen_eq (limits : Option DecodeLimits) {additional : UInt8} (kind : SizedKind)
    {per : ℕ} {rest : Bytes} (hread : readLen additional ⟨bytes, n⟩ = .ok (len, ⟨rest, n⟩))
    (hper : 0 < per) (hrest : len.toNat * per ≤ rest.length)
    (hk : ∀ l ∈ limits, n + len.toNat ≤ l.maxItems.toNat) :
    readSizedLen limits additional kind per ⟨bytes, n⟩ = .ok (len.toNat, ⟨rest, n⟩) := by
  have hfit : len.toNat ≤ rest.length / per := (Nat.le_div_iff_mul_le hper).2 hrest
  have hbudget : ∀ l ∈ limits, len.toNat ≤ l.maxItems.toNat - n := by
    intro l hl
    have := hk l hl
    omega
  have hget : (get : Decoder CborDecoder) ⟨rest, n⟩ = .ok (⟨rest, n⟩, ⟨rest, n⟩) := rfl
  rw [readSizedLen, bind_ok hread, bind_ok hget, bind_ok (check_ok (ensure_eq_ok.2 hfit) _),
    bind_ok (check_limits (fun l hl => ensure_eq_ok.2 (hbudget l hl)) _)]
  rfl

def Allows (limits : Option DecodeLimits) (d k : ℕ) (texts : List (ℕ × ℕ)) : Prop :=
  ∀ l ∈ limits, d ≤ l.maxDepth.toNat ∧ k ≤ l.maxItems.toNat ∧
    ∀ t ∈ texts, t.1 + t.2 ≤ l.maxItems.toNat

lemma Allows.mono {d' k' : ℕ} {ts' : List (ℕ × ℕ)} (h : Allows limits d k ts) (hd : d' ≤ d)
    (hk : k' ≤ k) (hts : ts' ⊆ ts) :
    Allows limits d' k' ts' := by
  intro l hl
  obtain ⟨hdepth, hitems, htexts⟩ := h l hl
  exact ⟨hd.trans hdepth, hk.trans hitems, fun t ht => htexts t (hts ht)⟩

lemma counted_add (limits : Option DecodeLimits) (n j k : ℕ) :
    counted limits (counted limits n j) k = counted limits n (j + k) := by
  cases limits <;> simp [counted, Nat.add_assoc]

lemma Allows.counted {limits : Option DecodeLimits} {d n j k : ℕ} {t : ℕ → List (ℕ × ℕ)}
    (h : Allows limits d (n + (j + k)) (t (n + j))) :
    Allows limits d (counted limits n j + k) (t (counted limits n j)) := by
  cases limits with
  | none => nofun
  | some l => rwa [← Nat.add_assoc] at h

def DecodesTo (limits : Option DecodeLimits) (item : Decoder Json) (depth : ℕ) (v : Json) : Prop :=
  ∀ n rest, Allows limits (depth + (canonical v).depth) (n + (canonical v).itemCount)
      ((canonical v).texts n) →
    item ⟨encodeValue v ++ rest, n⟩ =
      .ok (canonical v, ⟨rest, counted limits n (canonical v).itemCount⟩)

lemma decodeItems_eq {limits : Option DecodeLimits} {item : Decoder Json} {depth : ℕ}
    {items : List Json} (h : ∀ v ∈ items, DecodesTo limits item (depth + 1) v) {n : ℕ}
    (hallows : Allows limits (depth + depthItems (items.map canonical))
      (n + itemCountItems (items.map canonical)) (textsItems n (items.map canonical)))
    (rest : Bytes) :
    decodeItems item items.length ⟨encodeItems items ++ rest, n⟩ =
      .ok (items.map canonical,
        ⟨rest, counted limits n (itemCountItems (items.map canonical))⟩) := by
  induction items generalizing n with
  | nil => cases limits <;> rfl
  | cons v items ih =>
    simp only [map_cons, depthItems, itemCountItems, textsItems] at hallows ⊢
    have hv := h v (by simp) n (encodeItems items ++ rest)
      (hallows.mono (by omega) (by omega) (subset_append_left _ _))
    have hitems := ih (fun w hw => h w (by simp [hw]))
      (Allows.counted (t := fun n => textsItems n (items.map canonical))
        (hallows.mono (by omega) le_rfl (subset_append_right _ _)))
    rw [counted_add] at hitems
    rw [encodeItems, append_assoc, length_cons, decodeItems, bind_ok hv, bind_ok hitems]
    rfl

lemma insertEntry_of_not_mem {key : String} {v : Json} {map : List (String × Json)}
    (h : key ∉ map.map Prod.fst) : insertEntry key v map = map ++ [(key, v)] := by
  induction map with
  | nil => rfl
  | cons e map ih =>
    rw [map_cons, mem_cons, not_or] at h
    rw [insertEntry, if_neg fun heq => h.1 heq.symm, ih h.2]
    rfl

lemma decodeEntries_eq {limits : Option DecodeLimits} {item : Decoder Json} {depth : ℕ}
    {entries map : List (String × Json)}
    (h : ∀ e ∈ entries, DecodesTo limits item (depth + 1) (.string e.1) ∧
      DecodesTo limits item (depth + 1) e.2)
    (hnodup : (map.map Prod.fst ++ entries.map Prod.fst).Nodup) {n : ℕ}
    (hallows : Allows limits (depth + depthEntries (entries.map canonicalEntry))
      (n + itemCountEntries (entries.map canonicalEntry))
      (textsEntries n (entries.map canonicalEntry)))
    (rest : Bytes) :
    decodeEntries item entries.length map ⟨entries.flatMap encodeEntry ++ rest, n⟩ =
      .ok (map ++ entries.map canonicalEntry,
        ⟨rest, counted limits n (itemCountEntries (entries.map canonicalEntry))⟩) := by
  induction entries generalizing map n with
  | nil =>
    rw [map_nil, append_nil]
    cases limits <;> rfl
  | cons e entries ih =>
    simp only [map_cons, canonicalEntry, depthEntries, itemCountEntries, textsEntries] at hallows ⊢
    obtain ⟨hkeyItem, hvalueItem⟩ := h e (by simp)
    have hkey : item ⟨encodeText e.1 ++ (encodeValue e.2 ++ (entries.flatMap encodeEntry ++ rest)),
        n⟩ = .ok (.string e.1, ⟨_, counted limits n 1⟩) :=
      hkeyItem n _ (hallows.mono (by simp only [canonical, Json.depth]; omega)
        (by simp only [canonical, itemCount]; omega) (by simp [canonical, Json.texts]))
    have hvalue := hvalueItem (counted limits n 1) (entries.flatMap encodeEntry ++ rest)
      (Allows.counted (t := fun n => (canonical e.2).texts n)
        (hallows.mono (by omega) (by omega) (by intro t ht; simp [ht])))
    rw [counted_add] at hvalue
    rw [map_cons] at hnodup
    have hfresh : e.1 ∉ map.map Prod.fst := by
      intro hmem
      exact (nodup_append.1 hnodup).2.2 e.1 hmem e.1 (by simp) rfl
    have hentries := @ih (map ++ [(e.1, canonical e.2)]) (fun f hf => h f (by simp [hf]))
      (by simpa using hnodup) _
      (Allows.counted (t := fun n => textsEntries n (entries.map canonicalEntry))
        (hallows.mono (by omega) le_rfl (subset_append_right _ _)))
    rw [counted_add] at hentries
    rw [flatMap_cons, encodeEntry, append_assoc, append_assoc, length_cons, decodeEntries]
    have htext : keyText (.string e.1)
        ⟨encodeValue e.2 ++ (entries.flatMap encodeEntry ++ rest), counted limits n 1⟩ =
      .ok (e.1, _) := rfl
    rw [bind_ok hkey, bind_ok htext, bind_ok hvalue, insertEntry_of_not_mem hfresh, hentries,
      append_assoc]
    rfl

/-! ## One item -/

lemma Allows.depth_le (h : Allows limits (depth + d) k ts) :
    ∀ l ∈ limits, depth ≤ l.maxDepth.toNat :=
  fun l hl => (Nat.le_add_right depth d).trans (h l hl).1

lemma Allows.items_le (h : Allows limits d k ts) (hj : j ≤ k) :
    ∀ l ∈ limits, j ≤ l.maxItems.toNat :=
  fun l hl => hj.trans (h l hl).2.1

/-- The decoder notes the item and reads the major type and the length that the encoder wrote. -/
lemma decodeValueAtDepth_head (major : Fin 8) (len : UInt64) (fuel : ℕ) (body : Bytes)
    (hd : ∀ l ∈ limits, depth ≤ l.maxDepth.toNat) (hk : ∀ l ∈ limits, n + 1 ≤ l.maxItems.toNat) :
    ∃ additional tail,
      decodeValueAtDepth limits (fuel + 1) depth
          ⟨encodeTypeLen (UInt8.ofNat major) len ++ body, n⟩ =
        decodeBody limits (decodeValueAtDepth limits fuel (depth + 1))
          (UInt8.ofNat major) additional
          ⟨tail ++ body, counted limits n 1⟩ ∧
      ∀ rest n, readLen additional ⟨tail ++ rest, n⟩ = .ok (len, ⟨rest, n⟩) := by
  obtain ⟨initial, tail, hbytes, hmajor, hread⟩ := encodeTypeLen_eq major len
  refine ⟨initial &&& 0x1f, tail, ?_, hread⟩
  have hinitial : readU8 ⟨initial :: (tail ++ body), counted limits n 1⟩ =
      .ok (initial, ⟨tail ++ body, counted limits n 1⟩) := rfl
  rw [hbytes, cons_append, decodeValueAtDepth, bind_ok (noteItem_eq _ hd hk), bind_ok hinitial,
    hmajor]

lemma decodesTo_string (limits : Option DecodeLimits) {s : String} (hs : (utf8 s).length < 2 ^ 64)
    (fuel depth : ℕ) :
    DecodesTo limits (decodeValueAtDepth limits (fuel + 1) depth) depth (.string s) := by
  intro n rest hallows
  have hlen : (UInt64.ofNat (utf8 s).length).toNat = (utf8 s).length := UInt64.toNat_ofNat_of_lt' hs
  obtain ⟨additional, tail, hdecode, hread⟩ := decodeValueAtDepth_head 3
    (UInt64.ofNat (utf8 s).length) fuel (utf8 s ++ rest) hallows.depth_le
    (hallows.items_le (j := n + 1) le_rfl)
  have hsized := readSizedLen_eq limits .textString
    (hread (utf8 s ++ rest) (counted limits n 1)) Nat.one_pos
    (by rw [hlen, length_append]; omega) (by
      intro l hl
      have ht := (hallows l hl).2.2 (n + 1, (utf8 s).length) (by simp [canonical, Json.texts])
      obtain rfl := Option.mem_def.1 hl
      rw [hlen]
      exact ht)
  rw [hlen] at hsized
  rw [encodeValue, encodeText, append_assoc]
  refine hdecode.trans ?_
  change decodeText limits additional _ = _
  rw [decodeText, bind_ok hsized, bind_ok (readBytes_append rfl _ _), fromUtf8_utf8]
  rfl

lemma decodesTo_number (limits : Option DecodeLimits) (number : JsonNumber) (fuel depth : ℕ) :
    DecodesTo limits (decodeValueAtDepth limits (fuel + 1) depth) depth (.number number) := by
  intro n rest hallows
  have hnote := hallows.items_le (j := n + 1) le_rfl
  cases number with
  | posInt value =>
    obtain ⟨additional, tail, hdecode, hread⟩ :=
      decodeValueAtDepth_head 0 value fuel rest hallows.depth_le hnote
    exact hdecode.trans (map_eq_ok (hread rest _))
  | negInt value =>
    obtain ⟨v, hv⟩ := value
    obtain ⟨additional, tail, hdecode, hread⟩ := decodeValueAtDepth_head 1
      (UInt64.ofNat (-1 - v).toNat) fuel rest hallows.depth_le hnote
    refine hdecode.trans ?_
    have hraw : -1 - ((UInt64.ofNat (-1 - v).toNat).toNat : ℤ) = v := by
      rw [UInt64.toNat_ofNat_of_lt' (by simp only [UInt64.size]; omega)]
      omega
    change decodeNegative additional _ = _
    rw [decodeNegative, bind_ok (hread rest _), hraw, JsonNumber.fromI64, dif_pos hv]
    rfl
  | float bits =>
    obtain ⟨bits, hbits⟩ := bits
    have hinitial : readU8 ⟨0xfb :: (putU64 bits ++ rest), counted limits n 1⟩ =
      .ok (0xfb, ⟨putU64 bits ++ rest, counted limits n 1⟩) := rfl
    rw [encodeValue, encodeNumber, cons_append, decodeValueAtDepth,
      bind_ok (noteItem_eq _ hallows.depth_le hnote), bind_ok hinitial]
    change (readBytes 8 >>= _) _ = _
    rw [bind_ok (readBytes_append (length_putU64 bits) rest _), getU64_putU64, JsonNumber.fromF64,
      dif_pos hbits]
    rfl

lemma decodesTo_simple (limits : Option DecodeLimits) (fuel depth : ℕ) {initial : UInt8}
    (hbytes : encodeValue v = [initial]) (hv : canonical v = v) (hcount : v.itemCount = 1)
    (hbody : decodeBody limits (decodeValueAtDepth limits fuel (depth + 1)) (initial >>> 5)
      (initial &&& 0x1f) = pure v) :
    DecodesTo limits (decodeValueAtDepth limits (fuel + 1) depth) depth v := by
  intro n rest hallows
  have hnote := hallows.items_le (j := n + 1) (by rw [hv, hcount])
  have hinitial : readU8 ⟨initial :: rest, counted limits n 1⟩ =
      .ok (initial, ⟨rest, counted limits n 1⟩) := rfl
  rw [hbytes, hv, hcount, cons_append, nil_append, decodeValueAtDepth,
    bind_ok (noteItem_eq _ hallows.depth_le hnote), bind_ok hinitial, hbody]
  rfl

lemma encodeValue_ne_nil (v : Json) : encodeValue v ≠ [] := by
  cases v with
  | null => exact cons_ne_nil _ _
  | bool b => cases b <;> exact cons_ne_nil _ _
  | number number =>
    cases number with
    | posInt | negInt => exact encodeTypeLen_ne_nil _ _
    | float => exact cons_ne_nil _ _
  | string | array | object => exact append_ne_nil_of_left_ne_nil (encodeTypeLen_ne_nil _ _) _

lemma length_encodeItems (items : List Json) : items.length ≤ (encodeItems items).length := by
  induction items with
  | nil => exact Nat.zero_le _
  | cons v items ih =>
    have hv := length_pos_iff.2 (encodeValue_ne_nil v)
    rw [encodeItems, length_append, length_cons]
    omega

lemma length_encodeText_pos (s : String) : 0 < (encodeText s).length :=
  length_pos_iff.2 (encodeValue_ne_nil (.string s))

lemma length_flatMap_encodeEntry (entries : List (String × Json)) :
    entries.length * 2 ≤ (entries.flatMap encodeEntry).length := by
  induction entries with
  | nil => exact Nat.zero_le _
  | cons e entries ih =>
    have hkey := length_encodeText_pos e.1
    have hvalue := length_pos_iff.2 (encodeValue_ne_nil e.2)
    rw [flatMap_cons, encodeEntry, length_append, length_append, length_cons]
    omega

lemma length_le_encodeItems {v : Json} {items : List Json} (h : v ∈ items) :
    (encodeValue v).length ≤ (encodeItems items).length := by
  induction items with
  | nil => exact absurd h not_mem_nil
  | cons w items ih =>
    rw [encodeItems, length_append]
    rcases mem_cons.1 h with rfl | h
    · omega
    · have := ih h
      omega

lemma length_le_flatMap {f : α → Bytes} {l : List α} (h : a ∈ l) :
    (f a).length ≤ (l.flatMap f).length := by
  rw [flatMap_def]
  exact (sublist_flatten_of_mem (mem_map_of_mem h)).length_le

lemma length_le_itemCountItems (items : List Json) : items.length ≤ itemCountItems items := by
  induction items with
  | nil => exact Nat.zero_le _
  | cons v items ih =>
    have hv : 1 ≤ v.itemCount := by cases v <;> simp only [itemCount] <;> omega
    rw [itemCountItems, length_cons]
    omega

lemma length_le_itemCountEntries (entries : List (String × Json)) :
    entries.length ≤ itemCountEntries entries := by
  induction entries with
  | nil => exact Nat.zero_le _
  | cons e entries ih =>
    rw [itemCountEntries, length_cons]
    omega

lemma counted_le {m : ℕ} (h : ∀ l ∈ limits, n + k ≤ l.maxItems.toNat) (hk : j + m ≤ k) :
    ∀ l ∈ limits, counted limits n j + m ≤ l.maxItems.toNat := by
  intro l hl
  have := h l hl
  obtain rfl := Option.mem_def.1 hl
  change n + j + m ≤ _
  omega

lemma decodesTo_array (limits : Option DecodeLimits) {items : List Json}
    (hsize : items.length < 2 ^ 64) (hchild : ∀ v ∈ items,
      DecodesTo limits (decodeValueAtDepth limits fuel (depth + 1)) (depth + 1) v) :
    DecodesTo limits (decodeValueAtDepth limits (fuel + 1) depth) depth (.array items) := by
  intro n rest hallows
  rw [canonical_array] at hallows ⊢
  simp only [Json.depth, itemCount, Json.texts] at hallows
  have hlen : (UInt64.ofNat items.length).toNat = items.length := UInt64.toNat_ofNat_of_lt' hsize
  have hcount := length_le_itemCountItems (items.map canonical)
  rw [length_map] at hcount
  obtain ⟨additional, tail, hdecode, hread⟩ := decodeValueAtDepth_head 4
    (UInt64.ofNat items.length) fuel (encodeItems items ++ rest) hallows.depth_le
    (hallows.items_le (j := n + 1) (by omega))
  have hroom := length_encodeItems items
  have hsized := readSizedLen_eq limits .array
    (hread (encodeItems items ++ rest) (counted limits n 1)) Nat.one_pos
    (by rw [hlen, length_append]; omega)
    (by rw [hlen]; exact counted_le (hallows.items_le le_rfl) (by omega))
  rw [hlen] at hsized
  have hloop := decodeItems_eq hchild
    (Allows.counted (t := fun n => textsItems n (items.map canonical)) hallows) rest
  rw [counted_add] at hloop
  rw [encodeValue, append_assoc]
  refine hdecode.trans ?_
  change (readSizedLen limits additional .array 1 >>= _) _ = _
  rw [bind_ok hsized]
  exact map_eq_ok hloop

lemma decodesTo_object (limits : Option DecodeLimits) (hsize : entries.length < 2 ^ 64)
    (hnodup : (entries.map Prod.fst).Nodup) (hchild : ∀ e ∈ entries,
      DecodesTo limits (decodeValueAtDepth limits fuel (depth + 1)) (depth + 1) (.string e.1) ∧
      DecodesTo limits (decodeValueAtDepth limits fuel (depth + 1)) (depth + 1) e.2) :
    DecodesTo limits (decodeValueAtDepth limits (fuel + 1) depth) depth (.object entries) := by
  intro n rest hallows
  -- The entries are written and read in canonical order.
  obtain ⟨sorted, hsorted⟩ : ∃ sorted, sorted = sortBy entryOrder entries := ⟨_, rfl⟩
  have hperm : sorted.Perm entries := hsorted ▸ perm_sortBy entryOrder entries
  rw [canonical_object, ← hsorted] at hallows ⊢
  simp only [Json.depth, itemCount, Json.texts] at hallows
  have hlen : (UInt64.ofNat entries.length).toNat = sorted.length := by
    rw [UInt64.toNat_ofNat_of_lt' hsize, hperm.length_eq]
  have hcount := length_le_itemCountEntries (sorted.map canonicalEntry)
  rw [length_map] at hcount
  obtain ⟨additional, tail, hdecode, hread⟩ := decodeValueAtDepth_head 5
    (UInt64.ofNat entries.length) fuel (sorted.flatMap encodeEntry ++ rest) hallows.depth_le
    (hallows.items_le (j := n + 1) (by omega))
  have hroom := length_flatMap_encodeEntry sorted
  have hsized := readSizedLen_eq limits .map
    (hread (sorted.flatMap encodeEntry ++ rest) (counted limits n 1)) Nat.two_pos
    (by rw [hlen, length_append]; omega)
    (by rw [hlen]; exact counted_le (hallows.items_le le_rfl) (by omega))
  rw [hlen] at hsized
  have hkeys : (([] : List (String × Json)).map Prod.fst ++ sorted.map Prod.fst).Nodup :=
    (hperm.map Prod.fst).nodup_iff.2 hnodup
  have hloop := decodeEntries_eq (fun e he => hchild e (hperm.mem_iff.1 he)) hkeys
    (Allows.counted (t := fun n => textsEntries n (sorted.map canonicalEntry)) hallows) rest
  rw [counted_add] at hloop
  rw [encodeValue_object, ← hsorted, append_assoc]
  refine hdecode.trans ?_
  change (readSizedLen limits additional .map 2 >>= _) _ = _
  rw [bind_ok hsized]
  exact map_eq_ok hloop

lemma exists_fuel (h : (encodeValue v).length ≤ fuel) : ∃ f, fuel = f + 1 := by
  have hpos := length_pos_iff.2 (encodeValue_ne_nil v)
  exact ⟨fuel - 1, by omega⟩

/-- As much fuel as there are bytes is enough to read a value back. -/
lemma decodesTo (limits : Option DecodeLimits) {v : Json} (hv : v.wellFormed) (fuel depth : ℕ)
    (hfuel : (encodeValue v).length ≤ fuel) :
    DecodesTo limits (decodeValueAtDepth limits fuel depth) depth v := by
  induction v using Json.induction generalizing fuel depth with
  | null =>
    obtain ⟨fuel, rfl⟩ := exists_fuel hfuel
    exact decodesTo_simple limits fuel depth rfl rfl rfl rfl
  | bool b =>
    obtain ⟨fuel, rfl⟩ := exists_fuel hfuel
    cases b <;> exact decodesTo_simple limits fuel depth rfl rfl rfl rfl
  | number number =>
    obtain ⟨fuel, rfl⟩ := exists_fuel hfuel
    exact decodesTo_number limits number fuel depth
  | string s =>
    obtain ⟨fuel, rfl⟩ := exists_fuel hfuel
    exact decodesTo_string limits (wellFormed_string.1 hv) fuel depth
  | array items ih =>
    obtain ⟨fuel, rfl⟩ := exists_fuel hfuel
    obtain ⟨hsize, hitems⟩ := wellFormed_array.1 hv
    have hhead := length_pos_iff.2 (encodeTypeLen_ne_nil 4 (UInt64.ofNat items.length))
    rw [encodeValue, length_append] at hfuel
    refine decodesTo_array limits hsize fun v hv => ?_
    have hle := length_le_encodeItems hv
    exact ih v hv (hitems v hv) fuel (depth + 1) (by omega)
  | object entries ih =>
    obtain ⟨fuel, rfl⟩ := exists_fuel hfuel
    obtain ⟨hsize, hnodup, hentries⟩ := wellFormed_object.1 hv
    have hhead := length_pos_iff.2 (encodeTypeLen_ne_nil 5 (UInt64.ofNat entries.length))
    rw [encodeValue_object, length_append] at hfuel
    refine decodesTo_object limits hsize hnodup fun e he => ?_
    have hle : (encodeEntry e).length ≤ _ :=
      length_le_flatMap (f := encodeEntry) (mem_sortBy (f := entryOrder) |>.2 he)
    have hkey := length_encodeText_pos e.1
    rw [encodeEntry, length_append] at hle
    obtain ⟨f, hf⟩ : ∃ f, fuel = f + 1 := ⟨fuel - 1, by omega⟩
    refine ⟨?_, ih e he (hentries e he).2 fuel (depth + 1) (by omega)⟩
    rw [hf]
    exact decodesTo_string limits (hentries e he).1 f (depth + 1)

/-! ## Whole payloads -/

lemma encodeText_injective {s t : String} (hs : (utf8 s).length < 2 ^ 64)
    (ht : (utf8 t).length < 2 ^ 64) (h : encodeText s = encodeText t) : s = t := by
  have hdecode := fun {u : String} (hu : (utf8 u).length < 2 ^ 64) =>
    decodesTo_string none hu 0 0 0 [] nofun
  have hs' := hdecode hs
  rw [encodeValue, h] at hs'
  have heq := hs'.symm.trans (hdecode ht)
  exact Json.string.inj (Prod.mk.inj (Except.ok.inj heq)).1

lemma keyOrder_injective : Function.Injective keyOrder := by
  intro k l h
  exact (map_injective_iff.2 fun _ _ => UInt8.toNat_inj.1) (List.cons.inj h).2

/-- Objects that are equal as maps have the same encoded entries. -/
lemma perm_map_entries {f : String × Json → α} {entries' : List (String × Json)}
    (hnodup : (entries.map Prod.fst).Nodup) (hlen : entries.length = entries'.length)
    (hf : ∀ e ∈ entries, ∀ e' ∈ entries, f e = f e' → e.1 = e'.1)
    (h : ∀ e ∈ entries, ∃ e' ∈ entries', f e = f e') : (entries.map f).Perm (entries'.map f) := by
  have hnodup' : (entries.map f).Nodup := by
    refine (nodup_map_iff_inj_on (List.Nodup.of_map _ hnodup)).2 fun e he e' he' heq => ?_
    exact inj_on_of_nodup_map hnodup he he' (hf e he e' he' heq)
  have hsub : entries.map f ⊆ entries'.map f := by
    intro a ha
    obtain ⟨e, he, rfl⟩ := mem_map.1 ha
    obtain ⟨e', he', heq⟩ := h e he
    exact heq ▸ mem_map_of_mem he'
  exact (subperm_of_subset hnodup' hsub).perm_of_length_le (by simp [hlen])

lemma encodeItems_eq_of_forall₂ {items items' : List Json}
    (h : List.Forall₂ (fun x y => x.same y) items items')
    (hsame : ∀ x ∈ items, ∀ y ∈ items', x.same y → encodeValue x = encodeValue y) :
    encodeItems items = encodeItems items' := by
  induction h with
  | nil => rfl
  | cons hxy _ ih =>
    rw [encodeItems, encodeItems, hsame _ (by simp) _ (by simp) hxy,
      ih fun x hx y hy => hsame x (by simp [hx]) y (by simp [hy])]

/-- The encoding does not depend on the order in which entries were inserted. -/
lemma encodeValue_eq_of_same {v w : Json} (hv : v.wellFormed) (hw : w.wellFormed)
    (h : v.same w) : encodeValue v = encodeValue w := by
  induction v using Json.induction generalizing w with
  | null | bool | number | string => cases w <;> simp_all [same]
  | array items ih =>
    cases w with
    | array items' =>
      obtain ⟨-, hitems⟩ := wellFormed_array.1 hv
      obtain ⟨-, hitems'⟩ := wellFormed_array.1 hw
      rw [same, sameItems_iff] at h
      rw [encodeValue, encodeValue, h.length_eq, encodeItems_eq_of_forall₂ h fun x hx y hy hxy =>
        ih x hx (hitems x hx) (hitems' y hy) hxy]
    | _ => simp [same] at h
  | object entries ih =>
    cases w with
    | object entries' =>
      obtain ⟨-, hnodup, hentries⟩ := wellFormed_object.1 hv
      obtain ⟨-, hnodup', hentries'⟩ := wellFormed_object.1 hw
      simp only [same, Bool.and_eq_true, decide_eq_true_eq, sameEntries_iff] at h
      obtain ⟨hlen, hsame⟩ := h
      have hkey : ∀ e ∈ entries, ∀ e' ∈ entries, encodeText e.1 = encodeText e'.1 → e.1 = e'.1 :=
        fun e he e' he' heq => encodeText_injective (hentries e he).1 (hentries e' he').1 heq
      have hperm := perm_map_entries (f := fun e => (encodeText e.1, encodeValue e.2)) hnodup hlen
        (fun e he e' he' heq => hkey e he e' he' (Prod.mk.inj heq).1) (fun e he => by
          obtain ⟨y, hy, hxy⟩ := hsame e he
          obtain ⟨before, after, hsplit, -⟩ := lookup_eq_some_iff.1 hy
          have hmem : (e.1, y) ∈ entries' := by simp [hsplit]
          exact ⟨(e.1, y), hmem, by rw [ih e he (hentries e he).2 (hentries' _ hmem).2 hxy]⟩)
      have hsorted := sortBy_eq_of_perm (f := fun e => keyOrder e.1) hperm (by
        intro a ha b hb hab
        obtain ⟨e, he, rfl⟩ := mem_map.1 ha
        obtain ⟨e', he', rfl⟩ := mem_map.1 hb
        have heq := hkey e he e' he' (keyOrder_injective hab)
        rw [inj_on_of_nodup_map hnodup he he' heq])
      rw [encodeValue, encodeValue, encodeEntries_eq, encodeEntries_eq, hsorted]
    | _ => simp [same] at h

lemma decode_encode (v : JsonValue) : decode (encode v.value) = .ok (canonical v.value) := by
  have h := decodesTo none v.valid _ 0 le_rfl 0 [] nofun
  rw [append_nil] at h
  rw [decode, decodePayload, encode, h]
  rfl

lemma canonical_eq_of_encode_eq {v w : JsonValue} (h : encode v.value = encode w.value) :
    canonical v.value = canonical w.value :=
  Except.ok.inj ((decode_encode v).symm.trans (h ▸ decode_encode w))

/-- Decoding gives the encoded value back, and only equal values have the same encoding. -/
theorem encode_faithful (v : JsonValue) :
    (∃ w, decode (encode v.value) = .ok w ∧ w.same v.value) ∧
      ∀ w : JsonValue, v.value.same w.value ↔ encode v.value = encode w.value := by
  refine ⟨⟨_, decode_encode v, same_of_canonical_eq v.valid (canonical_idem _)⟩, fun w => ?_⟩
  constructor
  · exact encodeValue_eq_of_same v.valid w.valid
  · intro h
    exact same_of_canonical_eq w.valid (canonical_eq_of_encode_eq h)

end Ostadix.Cbor
