import Ostadix.ValueCodec

/-! Decoding a portable value accepts exactly the bytes that encoding produces. -/

namespace Ostadix.ValueCodec

open Wire List

/-! ## Fields of a payload -/

lemma reads_takeLength (tag : UInt16) :
    Reads (takeLength tag)
      (fun n bs => n < 2 ^ 16 ∧ bs = putU16 (UInt16.ofNat n) ++ putU16 0) := by
  refine ((Reads.takeU16 _).bind fun length => (Reads.takeU16 _).bind fun reserved =>
    Reads.check_bind _ (Reads.pure length.toNat)).congr fun n bs => ?_
  simp only [ensure_eq_ok]
  constructor
  · rintro ⟨length, _, _, rfl, ⟨reserved, _, _, rfl, ⟨rfl, rfl, rfl⟩, rfl⟩, rfl⟩
    exact ⟨length.toNat_lt, by rw [UInt16.ofNat_toNat, List.append_nil]⟩
  · rintro ⟨hlt, rfl⟩
    have hlen := (UInt16.toNat_ofNat_of_lt' hlt).symm
    exact ⟨UInt16.ofNat n, _, _, rfl, ⟨0, _, [], rfl, ⟨rfl, hlen, rfl⟩, (List.append_nil _).symm⟩,
      rfl⟩

lemma reads_takeIdentifierExact (length : ℕ) (field : IdentifierField) :
    Reads (takeIdentifierExact length field)
      (fun s bs => bs = utf8 s ∧ (utf8 s).length = length ∧
        validateIdentifier s field = .ok ()) := by
  refine ((Reads.take _ length).bind fun bytes => Reads.lift_bind (decodeUtf8 _ bytes) fun value =>
    Reads.check_bind (validateIdentifier value field) (Reads.pure value)).congr fun s bs => ?_
  simp only [decodeUtf8_eq_ok]
  constructor
  · rintro ⟨_, _, _, ⟨rfl, hlen⟩, ⟨value, rfl, hvalid, rfl, rfl⟩, rfl⟩
    exact ⟨List.append_nil _, hlen, hvalid⟩
  · rintro ⟨rfl, hlen, hvalid⟩
    exact ⟨utf8 s, _, [], ⟨rfl, hlen⟩, ⟨s, rfl, hvalid, rfl, rfl⟩, (List.append_nil _).symm⟩

lemma reads_takeDigest : Reads takeDigest (fun digest bs => bs = digest.bytes) := by
  constructor
  · rintro digest _ rfl rest
    have hlen : ¬(digest.bytes ++ rest).length < 32 := by
      rw [length_append, digest.size]
      omega
    obtain ⟨bytes, hsize⟩ := digest
    rw [takeDigest, dif_neg hlen]
    simp [take_left' hsize, drop_left' hsize]
  · intro input digest rest h
    unfold takeDigest at h
    split at h
    · simp at h
    · cases h
      exact ⟨_, rfl, (take_append_drop 32 input).symm⟩

lemma reads_takeSelector (tag : UInt16) :
    Reads (takeSelector tag) (fun selector bs => bs = [selector, 0, 0, 0]) := by
  refine ((Reads.takeU8 _).bind fun selector => (Reads.takeU8 _).bind fun first =>
    Reads.check_bind _ ((Reads.takeU16 _).bind fun second =>
    Reads.check_bind _ (Reads.pure selector))).congr fun selector bs => ?_
  simp only [ensure_eq_ok]
  constructor
  · rintro ⟨selector, _, _, rfl, ⟨first, _, _, rfl, ⟨rfl, second, _, _, rfl, ⟨rfl, rfl, rfl⟩, rfl⟩,
      rfl⟩, rfl⟩
    rfl
  · rintro rfl
    exact ⟨selector, [selector], [0, 0, 0], rfl, ⟨0, [0], [0, 0], rfl, ⟨rfl, 0, [0, 0], [], rfl,
      ⟨rfl, rfl, rfl⟩, rfl⟩, rfl⟩, rfl⟩

variable {payload bs : Bytes} {tag : UInt16}

lemma finishNode_eq_ok : finishNode tag payload = .ok bs ↔ 8 + payload.length < 2 ^ 32 ∧
      bs = putU16 tag ++ (putU16 0 ++ (putU32 (UInt32.ofNat (8 + payload.length)) ++ payload)) := by
  have h8 : ovalueNodeHeaderBytes = 8 := rfl
  simp only [finishNode, bind_eq_ok, ensure_eq_ok, exists_const, h8]
  exact and_congr_right fun _ => ⟨fun h => (Except.ok.inj h).symm, fun h => congrArg _ h.symm⟩

lemma reads_takePayload (tag : UInt16) (declared : ℕ) :
    Reads (takePayload tag declared)
      (fun payload bs => payload = bs ∧ declared = 8 + bs.length) := by
  have h8 : ovalueNodeHeaderBytes = 8 := rfl
  refine ((Reads.take _ _).checkRemaining_iff _ (8 ≤ declared) ?_).congr ?_
  · rintro payload bs ⟨-, hlen⟩ m
    omega
  rintro payload bs
  constructor
  · rintro ⟨hle, rfl, hlen⟩
    exact ⟨rfl, by omega⟩
  · rintro ⟨rfl, hlen⟩
    exact ⟨by omega, rfl, by omega⟩

lemma reads_takeNode (depth nodes : ℕ) :
    Reads (takeNode depth nodes)
      (fun node bs =>
        enterNode depth nodes = .ok node.2.2 ∧ finishNode node.1 node.2.1 = .ok bs) := by
  refine (Reads.lift_bind (enterNode depth nodes) fun n =>
    ((Reads.takeU16 _).bind fun tag => (Reads.takeU16 _).bind fun reserved =>
      Reads.check_bind _ ((Reads.takeU32 _).bind fun declared =>
      (reads_takePayload tag declared.toNat).bind fun payload =>
      Reads.pure (tag, payload, n))).checkRemaining _ ?_).congr ?_
  · rintro _ _ ⟨tag, _, _, rfl, ⟨reserved, _, _, rfl, ⟨-, declared, _, _, rfl, -, rfl⟩, rfl⟩, rfl⟩ m
    simp only [length_append, length_putU16, length_putU32, ovalueNodeHeaderBytes]
    omega
  rintro ⟨tag, payload, n⟩ bs
  simp only [ensure_eq_ok, finishNode_eq_ok, Prod.mk.injEq]
  constructor
  · rintro ⟨_, hn, tag, _, _, rfl, ⟨_, _, _, rfl, ⟨rfl, declared, _, _, rfl, ⟨payload, _, _,
      ⟨rfl, hlen⟩, ⟨⟨rfl, rfl, rfl⟩, rfl⟩, rfl⟩, rfl⟩, rfl⟩, rfl⟩
    refine ⟨hn, hlen ▸ declared.toNat_lt, ?_⟩
    rw [← hlen, UInt32.ofNat_toNat, List.append_nil]
  · rintro ⟨hn, hlt, rfl⟩
    have hlen := UInt32.toNat_ofNat_of_lt' hlt
    exact ⟨n, hn, tag, _, _, rfl, ⟨0, _, _, rfl, ⟨rfl, UInt32.ofNat (8 + payload.length), _, _, rfl,
      ⟨payload, payload, [], ⟨rfl, hlen⟩, ⟨⟨rfl, rfl, rfl⟩, rfl⟩, (List.append_nil _).symm⟩, rfl⟩,
      rfl⟩, rfl⟩

/-! ## Scalars -/

variable {n : ℕ}

lemma magnitudeBytes_of_ne_zero (h : n ≠ 0) : magnitudeBytes n = minimalBytes n := if_neg h

lemma beNat_eq_zero {magnitude : Bytes} (h : magnitude.head? ≠ some 0)
    (hzero : beNat magnitude = 0) : magnitude = [] := by
  rw [← minimalBytes_beNat h, hzero]
  rfl

lemma integerOfPayload_eq_ok {sign : UInt8} {magnitude : Bytes} {integer : ℤ} :
    integerOfPayload sign magnitude = .ok integer ↔
      encodeInteger integer = .ok (sign :: magnitude) := by
  constructor
  · intro h
    simp only [integerOfPayload, bind_eq_ok, ensure_eq_ok] at h
    obtain ⟨-, hlen, -, ⟨hsign, hhead, hempty⟩, h⟩ := h
    by_cases hnil : magnitude = []
    · rw [if_pos hnil] at h
      cases h
      obtain rfl := hempty hnil
      rw [hnil]
      rfl
    rw [if_neg hnil] at h
    have hpos : beNat magnitude ≠ 0 := fun hzero => hnil (beNat_eq_zero hhead hzero)
    have hbytes : magnitudeBytes (beNat magnitude) = magnitude := by
      rw [magnitudeBytes_of_ne_zero hpos, minimalBytes_beNat hhead]
    split at h
    · next hneg =>
      cases h
      have hne : ¬(-(beNat magnitude : ℤ)) = 0 := by omega
      have hlt : ¬0 < -(beNat magnitude : ℤ) := by omega
      rw [encodeInteger, Int.natAbs_neg, Int.natAbs_natCast, hbytes, if_neg hne, if_neg hlt, hneg]
      simp [ensure, hlen]
    rename_i hneg
    cases h
    have hzero : sign = 0 := by
      have hle : sign.toNat ≤ 1 := UInt8.le_iff_toNat_le.1 hsign
      have hne : sign.toNat ≠ 1 := fun h => hneg (UInt8.toNat_inj.1 h)
      apply UInt8.toNat_inj.1
      change sign.toNat = 0
      omega
    have hne : ¬(beNat magnitude : ℤ) = 0 := by omega
    have hlt : 0 < (beNat magnitude : ℤ) := by omega
    rw [encodeInteger, Int.natAbs_natCast, hbytes, if_neg hne, if_pos hlt, hzero]
    simp [ensure, hlen]
  · intro h
    simp only [encodeInteger, bind_eq_ok, ensure_eq_ok] at h
    obtain ⟨-, hlen, h⟩ := h
    by_cases hzero : integer = 0
    · rw [if_pos hzero] at h
      cases h
      rw [hzero]
      rfl
    have habs : integer.natAbs ≠ 0 := by omega
    have hhead := head?_minimalBytes integer.natAbs
    have hvalue := beNat_minimalBytes integer.natAbs
    have hne : minimalBytes integer.natAbs ≠ [] := by
      intro hnil
      rw [hnil] at hvalue
      exact habs hvalue.symm
    rw [if_neg hzero, magnitudeBytes_of_ne_zero habs] at h
    rw [magnitudeBytes_of_ne_zero habs] at hlen
    simp only [integerOfPayload, bind_eq_ok, ensure_eq_ok, exists_const]
    split at h
    · next hpos =>
      cases h
      refine ⟨hlen, ⟨by decide, hhead, fun hnil => absurd hnil hne⟩, ?_⟩
      rw [if_neg hne, if_neg (by decide), hvalue, Int.natAbs_of_nonneg hpos.le]
      rfl
    · next hneg =>
      cases h
      refine ⟨hlen, ⟨by decide, hhead, fun hnil => absurd hnil hne⟩, ?_⟩
      rw [if_neg hne, if_pos rfl, hvalue, Int.ofNat_natAbs_of_nonpos (not_lt.1 hneg), neg_neg]
      rfl

lemma exact_decodeInteger :
    Exact decodeInteger (fun v payload =>
      ∃ integer, v = .number (.int integer) ∧ encodeInteger integer = .ok payload) := by
  refine ((Exact.bind (Reads.takeU8 _) fun sign => Exact.remaining fun magnitude => do
    return PortableOValue.number (.int (← integerOfPayload sign magnitude))).checkRemaining
      _ ?_).congr ?_
  · rintro _ _ ⟨sign, _, y, rfl, -, rfl⟩
    simp
  intro v payload
  simp only [bind_eq_ok, integerOfPayload_eq_ok]
  constructor
  · rintro ⟨sign, _, magnitude, rfl, ⟨integer, hencode, hret⟩, rfl⟩
    exact ⟨integer, (Except.ok.inj hret).symm, hencode⟩
  · rintro ⟨integer, rfl, hencode⟩
    cases payload with
    | nil =>
      -- an encoded integer always has its sign byte
      simp only [encodeInteger, bind_eq_ok] at hencode
      obtain ⟨-, -, h⟩ := hencode
      split_ifs at h <;> simp [pure, Except.pure] at h
    | cons sign magnitude => exact ⟨sign, [sign], magnitude, rfl, ⟨integer, hencode, rfl⟩, rfl⟩

/-- A selector byte, three reserved bytes, and a rest that is decoded as a whole. -/
lemma exact_selector {α : Type} (tag : UInt16) (e : ℕ → PortableValueError)
    (g : UInt8 → Bytes → Check α) :
    Exact (do
        checkRemaining (4 ≤ ·) e
        let selector ← takeSelector tag
        let rest ← takeRemaining
        lift (g selector rest))
      (fun a payload => ∃ selector rest,
        payload = selector :: 0 :: 0 :: 0 :: rest ∧ g selector rest = .ok a) := by
  refine ((Exact.bind (reads_takeSelector tag) fun selector =>
    Exact.remaining (g selector)).checkRemaining _ ?_).congr ?_
  · rintro _ _ ⟨selector, _, rest, rfl, -, rfl⟩
    simp
  intro a payload
  constructor
  · rintro ⟨selector, _, rest, rfl, h, rfl⟩
    exact ⟨selector, rest, rfl, h⟩
  · rintro ⟨selector, rest, rfl, h⟩
    exact ⟨selector, _, rest, rfl, h, rfl⟩

lemma floatOfPayload_eq_ok {formatTag : UInt8} {bits : Bytes} {number : ONumber} :
    floatOfPayload formatTag bits = .ok number ↔
      ∃ format, number = .binaryFloat format bits ∧
        formatTag = floatFormatTag format ∧ bits.length = floatFormatSize format := by
  unfold floatOfPayload
  constructor
  · intro h
    split_ifs at h with h32 h64
    · exact ⟨.f32, (Except.ok.inj h).symm, h32⟩
    · exact ⟨.f64, (Except.ok.inj h).symm, h64⟩
  · rintro ⟨format, rfl, rfl, hlen⟩
    cases format with
    | f32 => exact if_pos ⟨rfl, hlen⟩
    | f64 =>
      rw [if_neg (fun h => absurd h.1 (by decide))]
      exact if_pos ⟨rfl, hlen⟩

lemma exact_decodeBinaryFloat :
    Exact decodeBinaryFloat (fun v payload =>
      ∃ format bits, v = .number (.binaryFloat format bits) ∧
        encodeBinaryFloat format bits = .ok payload) := by
  refine (exact_selector tagBinaryFloat (.invalidBinaryFloat 0) fun formatTag bits => do
    return PortableOValue.number (← floatOfPayload formatTag bits)).congr fun v payload => ?_
  simp only [bind_eq_ok, floatOfPayload_eq_ok, encodeBinaryFloat, ensure_eq_ok, exists_const]
  constructor
  · rintro ⟨_, bits, rfl, _, ⟨format, rfl, rfl, hlen⟩, hret⟩
    exact ⟨format, bits, (Except.ok.inj hret).symm, hlen, rfl⟩
  · rintro ⟨format, bits, rfl, hlen, hret⟩
    cases hret
    exact ⟨_, bits, rfl, _, ⟨format, rfl, rfl, hlen⟩, rfl⟩

lemma encodingOfByte_eq_ok {byte : UInt8} {encoding : Option String} :
    encodingOfByte byte = .ok encoding ↔ encodingByte encoding = .ok byte := by
  unfold encodingOfByte
  constructor
  · intro h
    split_ifs at h with h0 h1
    · cases h
      rw [h0]
      rfl
    · cases h
      rw [h1]
      rfl
  · intro h
    cases encoding with
    | none =>
      cases h
      rfl
    | some name =>
      simp only [encodingByte] at h
      split_ifs at h with hname
      cases h
      rw [hname]
      rfl

lemma textOfPayload_eq_ok {encoding : UInt8} {bytes : Bytes} {text : OText} :
    textOfPayload encoding bytes = .ok text ↔
      encodeText text = .ok (encoding :: 0 :: 0 :: 0 :: bytes) := by
  obtain ⟨s, enc⟩ := text
  simp only [textOfPayload, encodeText, bind_eq_ok, decodeUtf8_eq_ok, ensure_eq_ok, exists_const,
    encodingOfByte_eq_ok]
  constructor
  · rintro ⟨_, rfl, hlen, enc', henc, hret⟩
    obtain ⟨rfl, rfl⟩ := OText.mk.inj (Except.ok.inj hret)
    exact ⟨encoding, henc, hlen, rfl⟩
  · rintro ⟨selector, hselector, hlen, hret⟩
    obtain ⟨rfl, hbytes⟩ := List.cons.inj (Except.ok.inj hret)
    simp only [List.cons.injEq, true_and] at hbytes
    exact ⟨s, hbytes.symm, hlen, enc, hselector, rfl⟩

lemma exact_decodeText :
    Exact decodeText (fun v payload => ∃ text, v = .text text ∧ encodeText text = .ok payload) := by
  refine (exact_selector tagText (.truncated 4) fun encoding bytes => do
    return PortableOValue.text (← textOfPayload encoding bytes)).congr fun v payload => ?_
  simp only [bind_eq_ok, textOfPayload_eq_ok]
  constructor
  · rintro ⟨encoding, bytes, rfl, text, hencode, hret⟩
    exact ⟨text, (Except.ok.inj hret).symm, hencode⟩
  · rintro ⟨text, rfl, hencode⟩
    have hshape : ∃ encoding, payload = encoding :: 0 :: 0 :: 0 :: utf8 text.utf8 := by
      simp only [encodeText, bind_eq_ok, ensure_eq_ok, exists_const] at hencode
      obtain ⟨encoding, -, -, hret⟩ := hencode
      exact ⟨encoding, (Except.ok.inj hret).symm⟩
    obtain ⟨encoding, rfl⟩ := hshape
    exact ⟨encoding, _, rfl, text, hencode, rfl⟩

lemma exact_decodeNull : Exact decodeNull (fun v payload => v = .null ∧ payload = []) := by
  refine (Reads.pure PortableOValue.null).exact.checkRemaining _ ?_
  rintro _ _ ⟨-, rfl⟩
  rfl

lemma exact_decodeBool :
    Exact decodeBool (fun v payload =>
      ∃ value, v = .bool value ∧ payload = [if value then 1 else 0]) := by
  refine (((Reads.takeU8 _).bind fun byte => Reads.lift _).exact.checkRemaining _ ?_).congr ?_
  · rintro _ _ ⟨byte, _, _, rfl, ⟨-, rfl⟩, rfl⟩
    rfl
  intro v payload
  constructor
  · rintro ⟨byte, _, _, rfl, ⟨h, rfl⟩, rfl⟩
    split_ifs at h with h0 h1
    · exact ⟨false, (Except.ok.inj h).symm, by rw [h0]; rfl⟩
    · exact ⟨true, (Except.ok.inj h).symm, by rw [h1]; rfl⟩
  · rintro ⟨value, rfl, rfl⟩
    refine ⟨if value then 1 else 0, _, [], rfl, ⟨?_, rfl⟩, rfl⟩
    cases value <;> rfl

lemma charFromU32_eq_ok {scalar : UInt32} {value : Char} :
    charFromU32 scalar = .ok value ↔ scalar = value.val := by
  unfold charFromU32
  constructor
  · intro h
    split at h
    · rw [← Except.ok.inj h]
    · simp at h
  · rintro rfl
    exact dif_pos value.valid

lemma exact_decodeChar :
    Exact decodeChar (fun v payload => ∃ value, v = .char value ∧ payload = putU32 value.val) := by
  refine (((Reads.takeU32 _).bind fun scalar => Reads.lift (do
    return PortableOValue.char (← charFromU32 scalar))).exact.checkRemaining _ ?_).congr ?_
  · rintro _ _ ⟨scalar, _, _, rfl, ⟨-, rfl⟩, rfl⟩
    simp
  intro v payload
  simp only [bind_eq_ok, charFromU32_eq_ok]
  constructor
  · rintro ⟨_, _, _, rfl, ⟨⟨value, rfl, hret⟩, rfl⟩, rfl⟩
    exact ⟨value, (Except.ok.inj hret).symm, List.append_nil _⟩
  · rintro ⟨value, rfl, rfl⟩
    exact ⟨_, _, [], rfl, ⟨⟨value, rfl, rfl⟩, rfl⟩, (List.append_nil _).symm⟩

/-! ## Texts and references -/

lemma utf8_eq_nil {s : String} : utf8 s = [] ↔ s = "" :=
  ⟨fun h => utf8_injective (h.trans rfl), fun h => h ▸ rfl⟩

/-- The empty media type has no spelling of its own: no bytes stand for an absent one. -/
lemma reads_takeMedia (length : ℕ) :
    Reads (takeMedia length)
      (fun media bs => bs = utf8 (media.getD "") ∧ bs.length = length ∧ media ≠ some "") := by
  unfold takeMedia
  split
  · next hlen =>
    refine (Reads.pure none).congr fun media bs => ?_
    constructor
    · rintro ⟨rfl, rfl⟩
      exact ⟨rfl, hlen.symm, by simp⟩
    · rintro ⟨rfl, hlen', hne⟩
      rw [hlen, length_eq_zero_iff, utf8_eq_nil] at hlen'
      cases media with
      | none => exact ⟨rfl, rfl⟩
      | some s => exact absurd (congrArg some hlen') hne
  · next hlen =>
    refine ((Reads.take _ length).bind fun bytes =>
      Reads.lift_bind (decodeUtf8 _ bytes) fun media =>
      Reads.pure (some media)).congr fun media bs => ?_
    simp only [decodeUtf8_eq_ok]
    constructor
    · rintro ⟨_, _, _, ⟨rfl, hlen'⟩, ⟨s, rfl, rfl, rfl⟩, rfl⟩
      refine ⟨List.append_nil _, by rw [List.append_nil]; exact hlen', ?_⟩
      rintro h
      cases h
      exact hlen hlen'.symm
    · rintro ⟨rfl, hlen', hne⟩
      cases media with
      | none => exact absurd hlen'.symm hlen
      | some s =>
        exact ⟨utf8 s, _, [], ⟨rfl, hlen'⟩, ⟨s, rfl, rfl, rfl⟩, (List.append_nil _).symm⟩

lemma validateMediaType_ne_empty {media : Option String}
    (h : validateMediaType media = .ok ()) : media ≠ some "" := by
  rintro rfl
  simp [validateMediaType] at h

lemma bytesOfPayload_eq_ok {media : Option String} {bytes : OBytes} :
    bytesOfPayload media payload = .ok bytes ↔
      payload.length ≤ maxOvalueBytesBytes ∧ bytes = ⟨payload, media⟩ := by
  simp only [bytesOfPayload, bind_eq_ok, ensure_eq_ok, exists_const]
  exact and_congr_right fun _ => ⟨fun h => (Except.ok.inj h).symm, fun h => congrArg _ h.symm⟩

lemma exact_decodeBytes :
    Exact decodeBytes (fun v payload =>
      ∃ bytes, v = .bytes bytes ∧ encodeBytes bytes = .ok payload) := by
  refine ((Exact.bind (reads_takeLength tagBytes) fun length =>
    Exact.bind (reads_takeMedia length) fun media =>
    Exact.check_bind (validateMediaType media) (Exact.remaining fun bytes => do
      return PortableOValue.bytes (← bytesOfPayload media bytes))).checkRemaining _ ?_).congr ?_
  · rintro _ _ ⟨length, _, _, ⟨-, rfl⟩, -, rfl⟩
    simp only [length_append, length_putU16]
    omega
  intro v payload
  simp only [encodeBytes, bind_eq_ok, ensure_eq_ok, exists_const, bytesOfPayload_eq_ok]
  constructor
  · rintro ⟨_, _, _, ⟨hlt, rfl⟩, ⟨media, _, _, ⟨rfl, rfl, -⟩, ⟨hvalid, _, ⟨hlen, rfl⟩, hret⟩, rfl⟩,
      rfl⟩
    refine ⟨⟨_, media⟩, (Except.ok.inj hret).symm, (), hvalid, hlen, hlt, ?_⟩
    rw [append_assoc]
    rfl
  · rintro ⟨⟨bytes, media⟩, rfl, ⟨⟩, hvalid, hlen, hlt, hret⟩
    cases hret
    exact ⟨_, _, _, ⟨hlt, rfl⟩, ⟨media, _, _, ⟨rfl, rfl, validateMediaType_ne_empty hvalid⟩,
      ⟨hvalid, _, ⟨hlen, rfl⟩, rfl⟩, rfl⟩, (append_assoc _ _ _).symm⟩

lemma length_of_validateIdentifier {value : String} {field : IdentifierField}
    (h : validateIdentifier value field = .ok ()) : (utf8 value).length < 2 ^ 16 := by
  rw [validateIdentifier, ensure_eq_ok] at h
  have h96 : maxOvalueIdentifierBytes = 96 := rfl
  omega

lemma errorOfPayload_eq_ok {code : String} {error : PortableError} :
    errorOfPayload code payload = .ok error ↔
      error.code = code ∧ payload = utf8 error.message ∧
        (utf8 error.message).length ≤ maxOvalueTextBytes := by
  simp only [errorOfPayload, bind_eq_ok, ensure_eq_ok, exists_const, decodeUtf8_eq_ok]
  constructor
  · rintro ⟨message, hpayload, hlen, hret⟩
    cases hret
    exact ⟨rfl, hpayload, hlen⟩
  · rintro ⟨rfl, hpayload, hlen⟩
    exact ⟨error.message, hpayload, hlen, rfl⟩

lemma exact_decodeError :
    Exact decodeError (fun v payload =>
      ∃ error, v = .error error ∧ encodeError error = .ok payload) := by
  refine ((Exact.bind (reads_takeLength tagError) fun length =>
    Exact.bind (reads_takeIdentifierExact length .errorCode) fun code =>
    Exact.remaining fun bytes => do
      return PortableOValue.error (← errorOfPayload code bytes)).checkRemaining _ ?_).congr ?_
  · rintro _ _ ⟨length, _, _, ⟨-, rfl⟩, -, rfl⟩
    simp only [length_append, length_putU16]
    omega
  intro v payload
  simp only [encodeError, bind_eq_ok, ensure_eq_ok, exists_const, errorOfPayload_eq_ok]
  constructor
  · rintro ⟨_, _, _, ⟨hlt, rfl⟩,
      ⟨_, _, _, ⟨rfl, rfl, hvalid⟩, ⟨error, ⟨rfl, rfl, hlen⟩, hret⟩, rfl⟩,
      rfl⟩
    refine ⟨error, (Except.ok.inj hret).symm, (), hvalid, hlen, ?_⟩
    rw [append_assoc]
    rfl
  · rintro ⟨error, rfl, ⟨⟩, hvalid, hlen, hret⟩
    cases hret
    exact ⟨_, _, _, ⟨length_of_validateIdentifier hvalid, rfl⟩, ⟨_, _, _, ⟨rfl, rfl, hvalid⟩,
      ⟨error, ⟨rfl, rfl, hlen⟩, rfl⟩, rfl⟩, (append_assoc _ _ _).symm⟩

lemma objectOfPayload_eq_ok {nested : Bytes} {identity : ObjectIdentity} :
    objectOfPayload nested = .ok identity ↔
      (IdentityWireRecord.object identity).encode = .ok nested := by
  rw [← IdentityWireRecord.decode_eq_ok_iff]
  simp only [objectOfPayload, bind_eq_ok, mapError_eq_ok]
  constructor
  · rintro ⟨record, hdecode, h⟩
    cases record with
    | object found =>
      simp only [bind_eq_ok, ensure_eq_ok, mapError_eq_ok, exists_const] at h
      obtain ⟨-, -, -, hret⟩ := h
      cases hret
      exact hdecode
    | _ => simp [throw, throwThe, MonadExceptOf.throw] at h
  · intro hdecode
    refine ⟨_, hdecode, ?_⟩
    simp only [bind_eq_ok, ensure_eq_ok, mapError_eq_ok, exists_const]
    exact ⟨nested, IdentityWireRecord.decode_eq_ok_iff.1 hdecode, rfl, rfl⟩

lemma exact_decodeObjectRef :
    Exact decodeObjectRef (fun v payload =>
      ∃ identity, v = .objectRef identity ∧
        (IdentityWireRecord.object identity).encode = .ok payload) := by
  refine (Exact.remaining fun nested => do
    return PortableOValue.objectRef (← objectOfPayload nested)).congr fun v payload => ?_
  simp only [bind_eq_ok, objectOfPayload_eq_ok]
  constructor
  · rintro ⟨identity, hencode, hret⟩
    exact ⟨identity, (Except.ok.inj hret).symm, hencode⟩
  · rintro ⟨identity, rfl, hencode⟩
    exact ⟨identity, hencode, rfl⟩

lemma exact_decodeCodeRef :
    Exact decodeCodeRef (fun v payload =>
      ∃ reference, v = .codeRef reference ∧ encodeCodeRef reference = .ok payload) := by
  refine ((((Reads.takeU16 _).bind fun algorithm => (Reads.takeU16 _).bind fun reserved =>
    (Reads.takeU16 _).bind fun evaluatorLen => (Reads.takeU16 _).bind fun entrypointLen =>
    Reads.check_bind _ (reads_takeDigest.bind fun digest =>
    (reads_takeIdentifierExact evaluatorLen.toNat .codeEvaluator).bind fun evaluator =>
    (reads_takeIdentifierExact entrypointLen.toNat .codeEntrypoint).bind fun entrypoint =>
    Reads.pure (PortableOValue.codeRef ⟨digest, evaluator, entrypoint⟩)))).exact.checkRemaining _
    ?_).congr ?_
  · rintro _ _ ⟨_, _, _, rfl, ⟨_, _, _, rfl,
    ⟨_, _, _, rfl, ⟨_, _, _, rfl, ⟨-, digest, _, _, rfl, -, rfl⟩,
      rfl⟩, rfl⟩, rfl⟩, rfl⟩
    simp only [length_append, length_putU16, digest.size]
    omega
  intro v payload
  simp only [encodeCodeRef, bind_eq_ok, ensure_eq_ok]
  constructor
  · rintro ⟨_, _, _, rfl, ⟨_, _, _, rfl, ⟨evaluatorLen, _, _, rfl, ⟨entrypointLen, _, _, rfl,
      ⟨⟨rfl, rfl⟩, digest, _, _, rfl, ⟨evaluator, _, _, ⟨rfl, hevaluator, hvalid⟩,
        ⟨entrypoint, _, _,
      ⟨rfl, hentrypoint, hvalid'⟩, ⟨rfl, rfl⟩, rfl⟩, rfl⟩, rfl⟩, rfl⟩, rfl⟩, rfl⟩, rfl⟩
    refine ⟨⟨digest, evaluator, entrypoint⟩, rfl, (), hvalid, (), hvalid', ?_⟩
    rw [hevaluator, hentrypoint, UInt16.ofNat_toNat, UInt16.ofNat_toNat, List.append_nil]
    rfl
  · rintro ⟨⟨digest, evaluator, entrypoint⟩, rfl, ⟨⟩, hvalid, ⟨⟩, hvalid', hret⟩
    cases hret
    have hlen := UInt16.toNat_ofNat_of_lt' (length_of_validateIdentifier hvalid)
    have hlen' := UInt16.toNat_ofNat_of_lt' (length_of_validateIdentifier hvalid')
    exact ⟨_, _, _, rfl, ⟨_, _, _, rfl,
      ⟨_, _, _, rfl, ⟨_, _, _, rfl, ⟨⟨rfl, rfl⟩, digest, _, _, rfl,
      ⟨evaluator, _, _, ⟨rfl, hlen.symm, hvalid⟩, ⟨entrypoint, _, [], ⟨rfl, hlen'.symm, hvalid'⟩,
      ⟨rfl, rfl⟩, (List.append_nil _).symm⟩, rfl⟩, rfl⟩, rfl⟩, rfl⟩, rfl⟩, rfl⟩

/-! ## Collections -/

variable {nodes depth : ℕ}

lemma encodeItems_cons_eq_ok {item : PortableOValue} {items : List PortableOValue} :
    encodeItems (item :: items) depth nodes = .ok (bs, n) ↔
      ∃ x m y, encodeCoreNode item depth nodes = .ok (x, m) ∧
        encodeItems items depth m = .ok (y, n) ∧ bs = x ++ y := by
  simp only [encodeItems, bind_eq_ok, Prod.exists]
  constructor
  · rintro ⟨x, m, hx, y, k, hy, hret⟩
    cases hret
    exact ⟨x, m, y, hx, hy, rfl⟩
  · rintro ⟨x, m, y, hx, hy, rfl⟩
    exact ⟨x, m, hx, y, n, hy, rfl⟩

lemma encodeFields_cons_eq_ok {key : String} {value : PortableOValue}
    {fields : List (String × PortableOValue)} {prior : Option Bytes} :
    encodeFields ((key, value) :: fields) prior depth nodes = .ok (bs, n) ↔
      validateRecordKey (utf8 key) = .ok () ∧
      checkKeyOrder prior (utf8 key) .duplicateRecordKey .nonCanonicalRecordOrder = .ok () ∧
      ∃ x m y, encodeCoreNode value depth nodes = .ok (x, m) ∧
        encodeFields fields (some (utf8 key)) depth m = .ok (y, n) ∧
        bs = putU16 (UInt16.ofNat (utf8 key).length) ++ (utf8 key ++ (x ++ y)) := by
  simp only [encodeFields, bind_eq_ok, Prod.exists]
  constructor
  · rintro ⟨⟨⟩, hkey, ⟨⟩, horder, x, m, hx, y, k, hy, hret⟩
    cases hret
    exact ⟨hkey, horder, x, m, y, hx, hy, rfl⟩
  · rintro ⟨hkey, horder, x, m, y, hx, hy, rfl⟩
    exact ⟨(), hkey, (), horder, x, m, hx, y, n, hy, rfl⟩

lemma encodeEntries_cons_eq_ok {key value : PortableOValue}
    {entries : List (PortableOValue × PortableOValue)} {prior : Option Bytes} :
    encodeEntries ((key, value) :: entries) prior depth nodes = .ok (bs, n) ↔
      isScalarMapKey key ∧
      ∃ k m, encodeCoreNode key depth nodes = .ok (k, m) ∧
        checkKeyOrder prior k .duplicateMapKey .nonCanonicalMapOrder = .ok () ∧
        ∃ x l y, encodeCoreNode value depth m = .ok (x, l) ∧
          encodeEntries entries (some k) depth l = .ok (y, n) ∧ bs = k ++ (x ++ y) := by
  simp only [encodeEntries, bind_eq_ok, ensure_eq_ok, exists_const, Prod.exists]
  refine and_congr_right fun _ => ?_
  constructor
  · rintro ⟨k, m, hk, ⟨⟩, horder, x, l, hx, y, n', hy, hret⟩
    cases hret
    exact ⟨k, m, hk, horder, x, l, y, hx, hy, rfl⟩
  · rintro ⟨k, m, hk, horder, x, l, y, hx, hy, rfl⟩
    exact ⟨k, m, hk, (), horder, x, l, hx, y, n, hy, rfl⟩

lemma reads_empty {α : Type} (encode : List α → Check (Bytes × ℕ))
    (h : encode [] = .ok ([], nodes)) : Reads (pure ([], nodes) : Decoder (List α × ℕ))
      (fun p bs => p.1.length = 0 ∧ encode p.1 = .ok (bs, p.2)) := by
  refine (Reads.pure ([], nodes)).congr fun p bs => ?_
  obtain ⟨items, n⟩ := p
  constructor
  · rintro ⟨hp, rfl⟩
    cases hp
    exact ⟨rfl, h⟩
  · rintro ⟨hlen, hp⟩
    obtain rfl := length_eq_zero_iff.1 hlen
    obtain ⟨rfl, rfl⟩ := Prod.mk.inj (Except.ok.inj (h.symm.trans hp))
    exact ⟨rfl, rfl⟩

lemma reads_collection {α : Type} (tag : UInt16) (kind : EntryKind) {maximum : ℕ}
    (hmaximum : maximum < 2 ^ 16) (wrap : List α → PortableOValue)
    {decode : ℕ → Decoder (List α × ℕ)} {encode : List α → Check (Bytes × ℕ)}
    (h : ∀ count, Reads (decode count)
      (fun p bs => p.1.length = count ∧ encode p.1 = .ok (bs, p.2))) :
    Reads (do
        let count ← takeCollectionPrefix tag
        lift (validateEntryCount kind count maximum)
        let (items, nodes) ← decode count
        return (wrap items, nodes))
      (fun p bs => ∃ items, p.1 = wrap items ∧ (do
          validateEntryCount kind items.length maximum
          let (body, nodes) ← encode items
          return (lengthPrefixed items.length body, nodes)) = .ok (bs, p.2)) := by
  refine ((Reads.checkRemaining (reads_takeLength tag) _ ?_).bind fun count =>
    Reads.check_bind (validateEntryCount kind count maximum) ((h count).bind fun p =>
    Reads.pure (wrap p.1, p.2))).congr ?_
  · rintro _ _ ⟨-, rfl⟩ m
    simp only [length_append, length_putU16]
    omega
  rintro ⟨v, n⟩ bs
  simp only [bind_eq_ok, Prod.exists]
  constructor
  · rintro ⟨_, _, _, ⟨hlt, rfl⟩, ⟨hcount, items, m, y, _, ⟨rfl, hy⟩, ⟨hp, rfl⟩, rfl⟩, rfl⟩
    cases hp
    refine ⟨items, rfl, (), hcount, y, _, hy, ?_⟩
    rw [List.append_nil, append_assoc]
    rfl
  · rintro ⟨items, rfl, ⟨⟩, hcount, y, m, hy, hret⟩
    cases hret
    have hlt : items.length < 2 ^ 16 := by
      rw [validateEntryCount, ensure_eq_ok] at hcount
      omega
    exact ⟨_, _, y, ⟨hlt, rfl⟩, ⟨hcount, items, _, y, [], ⟨rfl, hy⟩, ⟨rfl, rfl⟩,
      (List.append_nil _).symm⟩, (append_assoc _ _ _).symm⟩

variable {v : PortableOValue}

section Children

variable {child : ℕ → Decoder (PortableOValue × ℕ)} {depth : ℕ}
  (hchild : ∀ nodes, Reads (child nodes)
    (fun node bs => encodeCoreNode node.1 (depth + 1) nodes = .ok (bs, node.2)))

include hchild

lemma reads_decodeItems (count nodes : ℕ) :
    Reads (decodeItems child count nodes) (fun p bs =>
      p.1.length = count ∧ encodeItems p.1 (depth + 1) nodes = .ok (bs, p.2)) := by
  induction count generalizing nodes with
  | zero => exact reads_empty (encodeItems · (depth + 1) nodes) rfl
  | succ count ih =>
    refine ((hchild nodes).bind fun node => (ih node.2).bind fun rest =>
      Reads.pure (node.1 :: rest.1, rest.2)).congr fun p bs => ?_
    obtain ⟨items, n⟩ := p
    constructor
    · rintro ⟨⟨item, m⟩, x, _, hx, ⟨⟨items, k⟩, y, _, ⟨rfl, hy⟩, ⟨h, rfl⟩, rfl⟩, rfl⟩
      cases h
      exact ⟨rfl, encodeItems_cons_eq_ok.2 ⟨x, m, y, hx, hy, by rw [List.append_nil]⟩⟩
    · rintro ⟨hlen, h⟩
      cases items with
      | nil => simp at hlen
      | cons item items =>
        obtain ⟨x, m, y, hx, hy, rfl⟩ := encodeItems_cons_eq_ok.1 h
        exact ⟨(item, m), x, y, hx, ⟨(items, n), y, [], ⟨Nat.succ.inj hlen, hy⟩, ⟨rfl, rfl⟩,
          (List.append_nil _).symm⟩, rfl⟩

lemma reads_decodeFields (count : ℕ) (prior : Option Bytes) (nodes : ℕ) :
    Reads (decodeFields child count prior nodes) (fun p bs =>
      p.1.length = count ∧ encodeFields p.1 prior (depth + 1) nodes = .ok (bs, p.2)) := by
  induction count generalizing prior nodes with
  | zero => exact reads_empty (encodeFields · prior (depth + 1) nodes) rfl
  | succ count ih =>
    refine ((Reads.takeU16 _).bind fun keyLen => (Reads.take _ keyLen.toNat).bind fun keyBytes =>
      Reads.check_bind (validateRecordKey keyBytes) (Reads.check_bind (checkKeyOrder prior keyBytes
      _ _) (Reads.lift_bind (decodeUtf8 _ keyBytes) fun key => (hchild nodes).bind fun node =>
      (ih (some keyBytes) node.2).bind fun rest =>
      Reads.pure ((key, node.1) :: rest.1, rest.2)))).congr fun p bs => ?_
    obtain ⟨fields, n⟩ := p
    simp only [decodeUtf8_eq_ok]
    constructor
    · rintro ⟨keyLen, _, _, rfl, ⟨_, _, _, ⟨rfl, hlen⟩,
      ⟨hkey, horder, key, rfl, ⟨value, m⟩, x, _, hx,
        ⟨⟨fields, k⟩, y, _, ⟨rfl, hy⟩, ⟨h, rfl⟩, rfl⟩, rfl⟩, rfl⟩, rfl⟩
      cases h
      refine ⟨rfl, encodeFields_cons_eq_ok.2 ⟨hkey, horder, x, m, y, hx, hy, ?_⟩⟩
      rw [hlen, UInt16.ofNat_toNat, List.append_nil]
    · rintro ⟨hlen, h⟩
      cases fields with
      | nil => simp at hlen
      | cons field fields =>
        obtain ⟨key, value⟩ := field
        obtain ⟨hkey, horder, x, m, y, hx, hy, rfl⟩ := encodeFields_cons_eq_ok.1 h
        have hlt : (utf8 key).length < 2 ^ 16 := by
          rw [validateRecordKey, ensure_eq_ok] at hkey
          have h96 : maxOvalueIdentifierBytes = 96 := rfl
          omega
        exact ⟨_, _, _, rfl, ⟨utf8 key, _, _, ⟨rfl, (UInt16.toNat_ofNat_of_lt' hlt).symm⟩, ⟨hkey,
          horder, key, rfl, (value, m), x, y, hx, ⟨(fields, n), y, [], ⟨Nat.succ.inj hlen, hy⟩,
          ⟨rfl, rfl⟩, (List.append_nil _).symm⟩, rfl⟩, rfl⟩, rfl⟩

lemma reads_decodeEntries (count : ℕ) (prior : Option Bytes) (nodes : ℕ) :
    Reads (decodeEntries child count prior nodes) (fun p bs =>
      p.1.length = count ∧ encodeEntries p.1 prior (depth + 1) nodes = .ok (bs, p.2)) := by
  induction count generalizing prior nodes with
  | zero => exact reads_empty (encodeEntries · prior (depth + 1) nodes) rfl
  | succ count ih =>
    refine ((hchild nodes).consumed.bind fun key =>
      Reads.check_bind _ (Reads.check_bind (checkKeyOrder prior key.2 _ _)
      ((hchild key.1.2).bind fun node => (ih (some key.2) node.2).bind fun rest =>
      Reads.pure ((key.1.1, node.1) :: rest.1, rest.2)))).congr fun p bs => ?_
    obtain ⟨entries, n⟩ := p
    simp only [ensure_eq_ok]
    constructor
    · rintro ⟨⟨⟨key, m⟩, k⟩, _, _, ⟨hk, rfl⟩, ⟨hscalar, horder, ⟨value, l⟩, x, _, hx,
        ⟨⟨entries, j⟩, y, _, ⟨rfl, hy⟩, ⟨h, rfl⟩, rfl⟩, rfl⟩, rfl⟩
      cases h
      refine ⟨rfl, encodeEntries_cons_eq_ok.2 ⟨hscalar, _, m, hk, horder, x, l, y, hx, hy, ?_⟩⟩
      rw [List.append_nil]
    · rintro ⟨hlen, h⟩
      match entries with
      | [] => simp at hlen
      | (key, value) :: entries =>
        obtain ⟨hscalar, k, m, hk, horder, x, l, y, hx, hy, rfl⟩ := encodeEntries_cons_eq_ok.1 h
        exact ⟨((key, m), k), k, _, ⟨hk, rfl⟩, ⟨hscalar, horder, (value, l), x, y, hx,
          ⟨(entries, n), y, [], ⟨Nat.succ.inj hlen, hy⟩, ⟨rfl, rfl⟩,
            (List.append_nil _).symm⟩, rfl⟩,
          rfl⟩

lemma reads_decodeTagged (nodes : ℕ) :
    Reads (decodeTagged child nodes) (fun p bs => ∃ tag value, p.1 = .tagged tag value ∧
      encodeCorePayload (.tagged tag value) depth nodes = .ok (bs, p.2)) := by
  refine ((Reads.checkRemaining ((reads_takeLength tagTagged).bind fun length =>
    reads_takeIdentifierExact length .tag) _ ?_).bind fun tag => (hchild nodes).bind fun node =>
    Reads.pure (PortableOValue.tagged tag node.1, node.2)).congr ?_
  · rintro _ _ ⟨length, _, _, ⟨-, rfl⟩, -, rfl⟩ m
    simp only [length_append, length_putU16]
    omega
  rintro ⟨v, n⟩ bs
  simp only [encodeCorePayload, bind_eq_ok, Prod.exists]
  constructor
  · rintro ⟨tag, _, _, ⟨_, _, _, ⟨hlt, rfl⟩, ⟨rfl, rfl, hvalid⟩, rfl⟩,
    ⟨value, m, y, _, hy, ⟨hp, rfl⟩,
      rfl⟩, rfl⟩
    cases hp
    refine ⟨tag, value, rfl, (), hvalid, y, _, hy, ?_⟩
    rw [List.append_nil, append_assoc, append_assoc]
    rfl
  · rintro ⟨tag, value, rfl, ⟨⟩, hvalid, y, m, hy, hret⟩
    cases hret
    refine ⟨tag, _, y,
      ⟨_, _, _, ⟨length_of_validateIdentifier hvalid, rfl⟩, ⟨rfl, rfl, hvalid⟩, rfl⟩,
      ⟨value, _, y, [], hy, ⟨rfl, rfl⟩, (List.append_nil _).symm⟩, ?_⟩
    rw [append_assoc, append_assoc]
    rfl

/-! ## Nodes -/

omit hchild in
lemma return_leaf_eq_ok {x : Check Bytes} :
    (do return (← x, nodes)) = .ok (payload, n) ↔ x = .ok payload ∧ n = nodes := by
  simp only [bind_eq_ok]
  constructor
  · rintro ⟨bs, hx, hret⟩
    cases hret
    exact ⟨hx, rfl⟩
  · rintro ⟨hx, rfl⟩
    exact ⟨payload, hx, rfl⟩

omit hchild in
/-- A payload without nodes of its own leaves their number as it is. -/
lemma leaf_eq_ok {r : Decoder PortableOValue} {W : PortableOValue → Bytes → Prop} (h : Exact r W) :
    ((·, nodes) <$> r) payload = .ok ((v, n), []) ↔ W v payload ∧ n = nodes := by
  rw [(h.map (·, nodes)).iff]
  constructor
  · rintro ⟨v, hw, hp⟩
    cases hp
    exact ⟨hw, rfl⟩
  · rintro ⟨hw, rfl⟩
    exact ⟨v, hw, rfl⟩

lemma exact_decodeList (nodes : ℕ) :
    Exact (decodeList child nodes) (fun p payload => ∃ items, p.1 = .list items ∧
      encodeCorePayload (.list items) depth nodes = .ok (payload, p.2)) :=
  (reads_collection tagList .list (by decide) .list fun count =>
    reads_decodeItems hchild count nodes).exact

lemma exact_decodeRecord (nodes : ℕ) :
    Exact (decodeRecord child nodes) (fun p payload => ∃ fields, p.1 = .record fields ∧
      encodeCorePayload (.record fields) depth nodes = .ok (payload, p.2)) :=
  (reads_collection tagRecord .record (by decide) .record fun count =>
    reads_decodeFields hchild count none nodes).exact

lemma exact_decodeMap (nodes : ℕ) :
    Exact (decodeMap child nodes) (fun p payload => ∃ entries, p.1 = .map entries ∧
      encodeCorePayload (.map entries) depth nodes = .ok (payload, p.2)) :=
  (reads_collection tagMap .map (by decide) .map fun count =>
    reads_decodeEntries hchild count none nodes).exact

lemma decodeCorePayload_complete (htag : coreTag v = .ok tag)
    (h : encodeCorePayload v depth nodes = .ok (payload, n)) :
    decodeCorePayload child tag nodes payload = .ok ((v, n), []) := by
  cases v with
  | null =>
    cases htag
    cases h
    exact (leaf_eq_ok exact_decodeNull).2 ⟨⟨rfl, rfl⟩, rfl⟩
  | bool value =>
    cases htag
    cases h
    exact (leaf_eq_ok exact_decodeBool).2 ⟨⟨value, rfl, rfl⟩, rfl⟩
  | number number =>
    obtain ⟨hencode, rfl⟩ := return_leaf_eq_ok.1 h
    cases number with
    | int integer =>
      cases htag
      exact (leaf_eq_ok exact_decodeInteger).2 ⟨⟨integer, rfl, hencode⟩, rfl⟩
    | binaryFloat format bits =>
      cases htag
      exact (leaf_eq_ok exact_decodeBinaryFloat).2 ⟨⟨format, bits, rfl, hencode⟩, rfl⟩
    | _ => simp [encodeNumber, numberInteger, numberBinaryFloat] at hencode
  | text text =>
    cases htag
    obtain ⟨hencode, rfl⟩ := return_leaf_eq_ok.1 h
    exact (leaf_eq_ok exact_decodeText).2 ⟨⟨text, rfl, hencode⟩, rfl⟩
  | char value =>
    cases htag
    cases h
    exact (leaf_eq_ok exact_decodeChar).2 ⟨⟨value, rfl, rfl⟩, rfl⟩
  | bytes bytes =>
    cases htag
    obtain ⟨hencode, rfl⟩ := return_leaf_eq_ok.1 h
    exact (leaf_eq_ok exact_decodeBytes).2 ⟨⟨bytes, rfl, hencode⟩, rfl⟩
  | list items =>
    cases htag
    exact (exact_decodeList hchild nodes).iff.2 ⟨items, rfl, h⟩
  | record fields =>
    cases htag
    exact (exact_decodeRecord hchild nodes).iff.2 ⟨fields, rfl, h⟩
  | map entries =>
    cases htag
    exact (exact_decodeMap hchild nodes).iff.2 ⟨entries, rfl, h⟩
  | tagged tag value =>
    cases htag
    exact (reads_decodeTagged hchild nodes).exact.iff.2 ⟨tag, value, rfl, h⟩
  | codeRef reference =>
    cases htag
    obtain ⟨hencode, rfl⟩ := return_leaf_eq_ok.1 h
    exact (leaf_eq_ok exact_decodeCodeRef).2 ⟨⟨reference, rfl, hencode⟩, rfl⟩
  | objectRef identity =>
    cases htag
    obtain ⟨hencode, rfl⟩ := return_leaf_eq_ok.1 h
    exact (leaf_eq_ok exact_decodeObjectRef).2 ⟨⟨identity, rfl, mapError_eq_ok.1 hencode⟩, rfl⟩
  | error error =>
    cases htag
    obtain ⟨hencode, rfl⟩ := return_leaf_eq_ok.1 h
    exact (leaf_eq_ok exact_decodeError).2 ⟨⟨error, rfl, hencode⟩, rfl⟩

lemma decodeCorePayload_sound (h : decodeCorePayload child tag nodes payload = .ok ((v, n), [])) :
    coreTag v = .ok tag ∧ encodeCorePayload v depth nodes = .ok (payload, n) := by
  unfold decodeCorePayload at h
  split at h
  · obtain ⟨⟨rfl, rfl⟩, rfl⟩ := (leaf_eq_ok exact_decodeNull).1 h
    exact ⟨rfl, rfl⟩
  · obtain ⟨⟨value, rfl, rfl⟩, rfl⟩ := (leaf_eq_ok exact_decodeBool).1 h
    exact ⟨rfl, rfl⟩
  · obtain ⟨⟨integer, rfl, hencode⟩, rfl⟩ := (leaf_eq_ok exact_decodeInteger).1 h
    exact ⟨rfl, return_leaf_eq_ok.2 ⟨hencode, rfl⟩⟩
  · obtain ⟨⟨format, bits, rfl, hencode⟩, rfl⟩ := (leaf_eq_ok exact_decodeBinaryFloat).1 h
    exact ⟨rfl, return_leaf_eq_ok.2 ⟨hencode, rfl⟩⟩
  · obtain ⟨⟨text, rfl, hencode⟩, rfl⟩ := (leaf_eq_ok exact_decodeText).1 h
    exact ⟨rfl, return_leaf_eq_ok.2 ⟨hencode, rfl⟩⟩
  · obtain ⟨⟨value, rfl, rfl⟩, rfl⟩ := (leaf_eq_ok exact_decodeChar).1 h
    exact ⟨rfl, rfl⟩
  · obtain ⟨⟨bytes, rfl, hencode⟩, rfl⟩ := (leaf_eq_ok exact_decodeBytes).1 h
    exact ⟨rfl, return_leaf_eq_ok.2 ⟨hencode, rfl⟩⟩
  · obtain ⟨items, rfl, hencode⟩ := (exact_decodeList hchild nodes).iff.1 h
    exact ⟨rfl, hencode⟩
  · obtain ⟨fields, rfl, hencode⟩ := (exact_decodeRecord hchild nodes).iff.1 h
    exact ⟨rfl, hencode⟩
  · obtain ⟨entries, rfl, hencode⟩ := (exact_decodeMap hchild nodes).iff.1 h
    exact ⟨rfl, hencode⟩
  · obtain ⟨tag, value, rfl, hencode⟩ := (reads_decodeTagged hchild nodes).exact.iff.1 h
    exact ⟨rfl, hencode⟩
  · obtain ⟨⟨reference, rfl, hencode⟩, rfl⟩ := (leaf_eq_ok exact_decodeCodeRef).1 h
    exact ⟨rfl, return_leaf_eq_ok.2 ⟨hencode, rfl⟩⟩
  · obtain ⟨⟨identity, rfl, hencode⟩, rfl⟩ := (leaf_eq_ok exact_decodeObjectRef).1 h
    exact ⟨rfl, return_leaf_eq_ok.2 ⟨mapError_eq_ok.2 hencode, rfl⟩⟩
  · obtain ⟨⟨error, rfl, hencode⟩, rfl⟩ := (leaf_eq_ok exact_decodeError).1 h
    exact ⟨rfl, return_leaf_eq_ok.2 ⟨hencode, rfl⟩⟩
  · simp [lift, Except.map] at h
  · simp [lift, Except.map] at h

/-- Payloads are decoded exactly as they are encoded, one level above `child`. -/
lemma exact_decodeCorePayload (tag : UInt16) (nodes : ℕ) :
    Exact (decodeCorePayload child tag nodes) (fun node payload =>
      coreTag node.1 = .ok tag ∧
        encodeCorePayload node.1 depth nodes = .ok (payload, node.2)) :=
  ⟨decodeCorePayload_sound hchild, fun h => decodeCorePayload_complete hchild h.1 h.2⟩

end Children

lemma coreTag_ne_extension (h : coreTag v = .ok tag) : tag ≠ tagExtension := by
  cases v with
  | number number =>
    simp only [coreTag] at h
    split_ifs at h <;> exact Except.ok.inj h ▸ by decide
  | _ => exact Except.ok.inj h ▸ by decide

lemma encodeNode_eq_ok {tag : Check UInt16} {encodePayload : ℕ → Check (Bytes × ℕ)} :
    encodeNode tag encodePayload depth nodes = .ok (bs, n) ↔
      ∃ m t payload, enterNode depth nodes = .ok m ∧ tag = .ok t ∧
        encodePayload m = .ok (payload, n) ∧ finishNode t payload = .ok bs := by
  simp only [encodeNode, bind_eq_ok, Prod.exists]
  constructor
  · rintro ⟨m, hm, t, ht, payload, k, hpayload, bs', hbs, hret⟩
    cases hret
    exact ⟨m, t, payload, hm, ht, hpayload, hbs⟩
  · rintro ⟨m, t, payload, hm, ht, hpayload, hbs⟩
    exact ⟨m, hm, t, ht, payload, n, hpayload, bs, hbs, rfl⟩

/-- Nodes are decoded exactly as they are encoded. The induction is on the levels left. -/
lemma reads_decodeCoreNode (levels depth nodes : ℕ) (h : levels + depth = maxOvalueDepth + 1) :
    Reads (decodeCoreNode levels depth nodes)
      (fun node bs => encodeCoreNode node.1 depth nodes = .ok (bs, node.2)) := by
  induction levels generalizing depth nodes with
  | zero =>
    have hdepth : ¬depth ≤ maxOvalueDepth := by omega
    refine (Reads.lift _).congr fun node bs => iff_of_false (by simp) fun hencode => ?_
    obtain ⟨m, -, -, hm, -⟩ := encodeNode_eq_ok.1 hencode
    simp [enterNode, bind_eq_ok, hdepth] at hm
  | succ levels ih =>
    have hchild := fun nodes => ih (depth + 1) nodes (by omega)
    refine ((reads_takeNode depth nodes).bind fun node => Reads.check_bind _ (Reads.lift (whole
      .trailingBytes (decodeCorePayload (decodeCoreNode levels (depth + 1)) node.1 node.2.2)
      node.2.1))).congr fun node bs => ?_
    obtain ⟨v, n⟩ := node
    simp only [(exact_decodeCorePayload hchild _ _).whole, ensure_eq_ok]
    constructor
    · rintro ⟨⟨tag, payload, m⟩, x, _, ⟨hm, hx⟩, ⟨-, ⟨htag, hpayload⟩, rfl⟩, rfl⟩
      rw [List.append_nil]
      exact encodeNode_eq_ok.2 ⟨m, tag, payload, hm, htag, hpayload, hx⟩
    · intro hencode
      obtain ⟨m, tag, payload, hm, htag, hpayload, hx⟩ := encodeNode_eq_ok.1 hencode
      have hne : tag ≠ tagExtension := coreTag_ne_extension htag
      exact ⟨(tag, payload, m), bs, [], ⟨hm, hx⟩, ⟨hne, ⟨htag, hpayload⟩, rfl⟩,
        (List.append_nil _).symm⟩

lemma exact_decodeExtensionPayload {child : ℕ → Decoder (PortableOValue × ℕ)}
    (hchild : ∀ nodes, Reads (child nodes)
      (fun node bs => encodeCoreNode node.1 (depth + 1) nodes = .ok (bs, node.2))) (nodes : ℕ) :
    Exact (decodeExtensionPayload child nodes) (fun p payload =>
      encodeExtensionPayload p.1 depth nodes = .ok (payload, p.2)) := by
  refine ((((Reads.takeU16 _).bind fun namespaceLen => (Reads.takeU16 _).bind fun nameLen =>
    (Reads.takeU16 _).bind fun version => (Reads.takeU16 _).bind fun reserved =>
    Reads.check_bind _ (Reads.check_bind _ (reads_takeDigest.bind fun schemaDigest =>
    Reads.check_bind _ ((reads_takeIdentifierExact namespaceLen.toNat .extensionNamespace).bind
    fun namespace_ => Reads.check_bind _ ((reads_takeIdentifierExact nameLen.toNat
    .extensionName).bind fun name => (hchild nodes).bind fun node =>
    Reads.pure (ExtensionEnvelope.mk namespace_ name version schemaDigest node.1, node.2)
    )))))).exact.checkRemaining _ ?_).congr ?_
  · rintro _ _ ⟨_, _, _, rfl, ⟨_, _, _, rfl,
    ⟨_, _, _, rfl, ⟨_, _, _, rfl, ⟨-, -, digest, _, _, rfl, -,
      rfl⟩, rfl⟩, rfl⟩, rfl⟩, rfl⟩
    simp only [length_append, length_putU16, digest.size]
    omega
  rintro ⟨envelope, n⟩ payload
  simp only [encodeExtensionPayload, validateExtension, bind_eq_ok, ensure_eq_ok, exists_const,
    Prod.exists]
  constructor
  · rintro ⟨namespaceLen, _, _, rfl, ⟨nameLen, _, _, rfl, ⟨version, _, _, rfl, ⟨_, _, _, rfl,
      ⟨hversion, rfl, digest, _, _, rfl, ⟨hdigest, namespace_, _, _, ⟨rfl, hnamespace, hvalid⟩,
      ⟨hdot, name, _, _, ⟨rfl, hname, hvalid'⟩, ⟨value, m, y, _, hy, ⟨hp, rfl⟩, rfl⟩, rfl⟩, rfl⟩,
      rfl⟩, rfl⟩, rfl⟩, rfl⟩, rfl⟩
    cases hp
    refine ⟨⟨(), hvalid, hdot, (), hvalid', hversion, hdigest⟩, y, _, hy, ?_⟩
    rw [hnamespace, hname, UInt16.ofNat_toNat, UInt16.ofNat_toNat, List.append_nil]
    rfl
  · obtain ⟨namespace_, name, version, digest, value⟩ := envelope
    rintro ⟨⟨⟨⟩, hvalid, hdot, ⟨⟩, hvalid', hversion, hdigest⟩, y, m, hy, hret⟩
    cases hret
    have hlen := UInt16.toNat_ofNat_of_lt' (length_of_validateIdentifier hvalid)
    have hlen' := UInt16.toNat_ofNat_of_lt' (length_of_validateIdentifier hvalid')
    exact ⟨_, _, _, rfl, ⟨_, _, _, rfl, ⟨version, _, _, rfl, ⟨0, _, _, rfl, ⟨hversion, rfl, digest,
      _, _, rfl, ⟨hdigest, namespace_, _, _, ⟨rfl, hlen.symm, hvalid⟩, ⟨hdot, name, _, _,
      ⟨rfl, hlen'.symm, hvalid'⟩, ⟨value, _, y, [], hy, ⟨rfl, rfl⟩, (List.append_nil _).symm⟩,
      rfl⟩, rfl⟩, rfl⟩, rfl⟩, rfl⟩, rfl⟩, rfl⟩

end Ostadix.ValueCodec

/-! ## Records -/

namespace Ostadix.PortableValueRecord

open Wire ValueCodec

lemma rootOfPayload_eq_extension {tag : UInt16} {payload : Bytes} {nodes n : ℕ}
    {envelope : ExtensionEnvelope} :
    rootOfPayload tag payload nodes = .ok (.extension envelope, n) ↔
      tag = tagExtension ∧ encodeExtensionPayload envelope 1 nodes = .ok (payload, n) := by
  have hchild := fun nodes => reads_decodeCoreNode (maxOvalueDepth - 1) 2 nodes rfl
  unfold rootOfPayload
  split
  · next htag =>
    simp only [bind_eq_ok, (exact_decodeExtensionPayload hchild nodes).whole, Prod.exists]
    constructor
    · rintro ⟨_, _, hencode, hret⟩
      obtain ⟨h, rfl⟩ := Prod.mk.inj (Except.ok.inj hret)
      cases h
      exact ⟨htag, hencode⟩
    · rintro ⟨-, hencode⟩
      exact ⟨envelope, n, hencode, rfl⟩
  · next htag =>
    refine iff_of_false (fun h => ?_) fun h => htag h.1
    obtain ⟨_, -, hret⟩ := bind_eq_ok.1 h
    simp [pure, Except.pure] at hret

lemma rootOfPayload_eq_core {tag : UInt16} {payload : Bytes} {nodes n : ℕ}
    {value : PortableOValue} :
    rootOfPayload tag payload nodes = .ok (.core value, n) ↔
      coreTag value = .ok tag ∧ encodeCorePayload value 1 nodes = .ok (payload, n) := by
  have hchild := fun nodes => reads_decodeCoreNode (maxOvalueDepth - 1) 2 nodes rfl
  unfold rootOfPayload
  split
  · next htag =>
    refine iff_of_false (fun h => ?_) fun h => coreTag_ne_extension h.1 htag
    obtain ⟨_, -, hret⟩ := bind_eq_ok.1 h
    simp [pure, Except.pure] at hret
  simp only [bind_eq_ok, (exact_decodeCorePayload hchild tag nodes).whole, Prod.exists]
  constructor
  · rintro ⟨_, _, hencode, hret⟩
    obtain ⟨h, rfl⟩ := Prod.mk.inj (Except.ok.inj hret)
    cases h
    exact hencode
  · intro hencode
    exact ⟨value, n, hencode, rfl⟩

lemma reads_decodeRootNode : Reads decodeRootNode (fun p bs => p.1.encodeBody = .ok (bs, p.2)) := by
  refine ((reads_takeNode 1 0).bind fun node =>
    Reads.lift (rootOfPayload node.1 node.2.1 node.2.2)).congr fun p bs => ?_
  obtain ⟨record, n⟩ := p
  cases record with
  | core value =>
    simp only [encodeBody, encodeCoreNode, encodeNode_eq_ok, Prod.exists, rootOfPayload_eq_core]
    constructor
    · rintro ⟨tag, payload, m, x, _, ⟨hm, hx⟩, ⟨⟨htag, hpayload⟩, rfl⟩, rfl⟩
      exact ⟨m, tag, payload, hm, htag, hpayload, by rwa [List.append_nil]⟩
    · rintro ⟨m, tag, payload, hm, htag, hpayload, hx⟩
      exact ⟨tag, payload, m, bs, [], ⟨hm, hx⟩, ⟨⟨htag, hpayload⟩, rfl⟩, (List.append_nil _).symm⟩
  | extension envelope =>
    simp only [encodeBody, encodeExtensionNode, encodeNode_eq_ok, Prod.exists,
      rootOfPayload_eq_extension]
    constructor
    · rintro ⟨_, payload, m, x, _, ⟨hm, hx⟩, ⟨⟨rfl, hpayload⟩, rfl⟩, rfl⟩
      exact ⟨m, tagExtension, payload, hm, rfl, hpayload, by rwa [List.append_nil]⟩
    · rintro ⟨m, tag, payload, hm, htag, hpayload, hx⟩
      cases htag
      exact ⟨tagExtension, payload, m, bs, [], ⟨hm, hx⟩, ⟨⟨rfl, hpayload⟩, rfl⟩,
        (List.append_nil _).symm⟩

variable {limit : UInt32}

lemma enforceRecordSize_eq_ok {actual : ℕ} {u : Unit} : enforceRecordSize actual limit = .ok u ↔
      actual ≤ 4096 ∧ 24 ≤ actual ∧ actual ≤ limit.toNat := by
  simp only [enforceRecordSize, bind_eq_ok, ensure_eq_ok, exists_const]
  rfl

variable {record : PortableValueRecord}

lemma encodeWithLimit_eq_ok {bs : Bytes} : record.encodeWithLimit limit = .ok bs ↔
      ∃ body n, record.encodeBody = .ok (body, n) ∧
        (16 + body.length ≤ 4096 ∧ 24 ≤ 16 + body.length ∧ 16 + body.length ≤ limit.toNat) ∧
        bs = frame ovalueWireMagic ovalueWireSchemaV1 0 (UInt32.ofNat (16 + body.length)) body := by
  simp only [encodeWithLimit, bind_eq_ok, enforceRecordSize_eq_ok, exists_const, Prod.exists]
  constructor
  · rintro ⟨body, n, hbody, hlen, hret⟩
    exact ⟨body, n, hbody, hlen, (Except.ok.inj hret).symm⟩
  · rintro ⟨body, n, hbody, hlen, rfl⟩
    exact ⟨body, n, hbody, hlen, rfl⟩

/-- Strict parsing accepts exactly the encoded records. -/
lemma parse_eq_ok {bs : Bytes} :
    parse bs limit = .ok record ↔ record.encodeWithLimit limit = .ok bs := by
  have hmagic : ovalueWireMagic.length = 8 := rfl
  have h16 : ovalueWireHeaderBytes = 16 := rfl
  rw [encodeWithLimit_eq_ok]
  simp only [parse, bind_eq_ok, ensure_eq_ok, exists_const, enforceRecordSize_eq_ok, Prod.exists,
    reads_decodeRootNode.exact.whole, h16]
  constructor
  · rintro ⟨hsize, hheader, htake, hschema, hreserved, hdeclared, decoded, n, hbody, hret⟩
    cases hret
    have hlen : 16 + (bs.drop 16).length = bs.length := by
      rw [List.length_drop]
      omega
    refine ⟨_, n, hbody, hlen.symm ▸ hsize, ?_⟩
    rw [hlen, ← hdeclared, UInt32.ofNat_toNat, ← htake, ← hschema, ← hreserved]
    exact (frame_of_record hheader).symm
  · rintro ⟨body, n, hbody, hsize, rfl⟩
    have htotal : (UInt32.ofNat (16 + body.length)).toNat = 16 + body.length :=
      UInt32.toNat_ofNat_of_lt' (hsize.1.trans_lt (by decide))
    have hlength := length_frame hmagic ovalueWireSchemaV1 0 (UInt32.ofNat (16 + body.length)) body
    refine ⟨hlength.symm ▸ hsize, (Nat.le_add_right 16 _).trans_eq hlength.symm,
      take_frame hmagic .., u16At_frame_first hmagic .., u16At_frame_second hmagic .., ?_,
      record, n,
      ?_, rfl⟩
    · rw [u32At_frame hmagic, htotal, hlength]
    · rw [drop_frame hmagic]
      exact hbody

lemma encode_of_encodeWithLimit {bs : Bytes}
    (h : record.encodeWithLimit limit = .ok bs) : record.encode = .ok bs := by
  obtain ⟨body, n, hbody, hsize, rfl⟩ := encodeWithLimit_eq_ok.1 h
  exact encodeWithLimit_eq_ok.2 ⟨body, n, hbody, ⟨hsize.1, hsize.2.1, hsize.1⟩, rfl⟩

/-- The comparison with the re-encoded record changes nothing. -/
lemma decodeWithLimit_eq_parse (bs : Bytes) (limit : UInt32) :
    decodeWithLimit bs limit = parse bs limit := by
  unfold decodeWithLimit
  cases hparse : parse bs limit with
  | error e => rfl
  | ok record =>
    have hencode := encode_of_encodeWithLimit (parse_eq_ok.1 hparse)
    change (record.encode >>= _) = _
    rw [hencode]
    change (ensure (bs = bs) _ >>= _) = _
    rw [ensure, if_pos rfl]
    rfl

/-- Whatever limit a record is encoded under, it is decoded back under that limit. -/
theorem decode_of_encode (record : PortableValueRecord) (limit : UInt32) (bs : Bytes)
    (h : record.encodeWithLimit limit = .ok bs) : decodeWithLimit bs limit = .ok record := by
  rw [decodeWithLimit_eq_parse]
  exact parse_eq_ok.2 h

def sampleRecord : PortableValueRecord := .core (.list [.bool true, .number (.int (-300))])

def sampleBytes : Bytes :=
  [79, 87, 86, 65, 76, 85, 69, 0, 0, 1, 0, 0, 0, 0, 0, 48, 0, 48, 0, 0, 0, 0, 0, 32, 0, 2, 0, 0,
    0, 1, 0, 0, 0, 0, 0, 9, 1, 0, 16, 0, 0, 0, 0, 0, 11, 1, 1, 44]

theorem decode_of_encode_sample :
    sampleRecord.encodeWithLimit 64 = .ok sampleBytes ∧
      decodeWithLimit sampleBytes 64 = .ok sampleRecord :=
  ⟨by decide, decode_of_encode sampleRecord 64 sampleBytes (by decide)⟩

/-- Strict parsing implies the canonical form, so the comparison at the end never rejects. -/
theorem canonical_of_parse (record : PortableValueRecord) (limit : UInt32) (bs : Bytes)
    (h : parse bs limit = .ok record) :
    record.encode = .ok bs ∧ decodeWithLimit bs limit = .ok record := by
  refine ⟨encode_of_encodeWithLimit (parse_eq_ok.1 h), ?_⟩
  rw [decodeWithLimit_eq_parse]
  exact h

theorem canonical_of_parse_sample :
    parse sampleBytes 64 = .ok sampleRecord ∧
      sampleRecord.encode = .ok sampleBytes ∧ decodeWithLimit sampleBytes 64 = .ok sampleRecord :=
  ⟨rfl, canonical_of_parse sampleRecord 64 sampleBytes rfl⟩

end Ostadix.PortableValueRecord
