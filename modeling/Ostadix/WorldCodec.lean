import Ostadix.IdentityWire
import Ostadix.Protocol

/-! The World control-plane records (`OWPROTO`): version negotiation and identity descriptions. -/

namespace Ostadix

open Wire Checked List IdentityWireRecord

/-! ## Records -/

def worldWireMagic : Bytes := [79, 87, 80, 82, 79, 84, 79, 0]

def worldWireCodecVersion : UInt16 := 1

def worldWireHeaderBytes : ℕ := 16

def negotiationPayloadBytes : ℕ := 8

def identityPrefixBytes : ℕ := 4

inductive WorldWireKind where
  | schemaOffer | schemaSelection | schemaRejection | identityDescription
  deriving DecidableEq, Repr

inductive WorldCodecError where
  | recordTooLarge (actual maximum : ℕ)
  | recordExceedsLimit (actual : ℕ) (limit : UInt32)
  | truncated (needed remaining : ℕ)
  | badMagic
  | unsupportedCodecVersion (found : UInt16)
  | unknownKind (found : UInt16)
  | lengthMismatch (declared actual : ℕ)
  | invalidPayloadLength (kind : WorldWireKind) (expected actual : ℕ)
  | nonzeroReserved (kind : WorldWireKind) (found : UInt16)
  | unsupportedPayloadSchema (kind : WorldWireKind) (found : UInt16)
  | unsupportedNegotiatedSchema (found : UInt16)
  | expectedIdentityDescription (found : WorldWireKind)
  | nonCanonicalIdentity
  | protocol (error : WorldProtocolError)
  | identity (error : IdentityWireError)
  deriving DecidableEq, Repr

def WorldWireKind.toU16 : WorldWireKind → UInt16
  | .schemaOffer => 0x0001
  | .schemaSelection => 0x0002
  | .schemaRejection => 0x0003
  | .identityDescription => 0x0010

def WorldWireKind.fromU16 : UInt16 → Except WorldCodecError WorldWireKind
  | 0x0001 => .ok .schemaOffer
  | 0x0002 => .ok .schemaSelection
  | 0x0003 => .ok .schemaRejection
  | 0x0010 => .ok .identityDescription
  | found => .error (.unknownKind found)

inductive WorldWireRecord where
  | schemaOffer (offer : SchemaOffer)
  | schemaSelection (selection : SchemaSelection)
  | schemaRejection (rejection : SchemaRejection)
  | identityDescription (identity : IdentityWireRecord)
  deriving DecidableEq

def enforceLimit (actual : ℕ) (callerLimit : UInt32) : Except WorldCodecError Unit := do
  ensure (actual ≤ maxWorldWireRecordBytes.toNat)
    (.recordTooLarge actual maxWorldWireRecordBytes.toNat)
  ensure (actual ≤ callerLimit.toNat) (.recordExceedsLimit actual callerLimit)

namespace WorldWireRecord

def kind : WorldWireRecord → WorldWireKind
  | .schemaOffer _ => .schemaOffer
  | .schemaSelection _ => .schemaSelection
  | .schemaRejection _ => .schemaRejection
  | .identityDescription _ => .identityDescription

def encodePayload : WorldWireRecord → Except WorldCodecError Bytes
  | .schemaOffer ⟨offer, _⟩ =>
    .ok (putU16 offer.minVersion ++ (putU16 offer.maxVersion ++ putU32 offer.maxRecordBytes))
  | .schemaSelection ⟨selection, _⟩ =>
    .ok (putU16 selection.version ++ (putU16 0 ++ putU32 selection.maxRecordBytes))
  | .schemaRejection ⟨rejection, _⟩ =>
    .ok (putU16 rejection.localMin ++ (putU16 rejection.localMax ++
      (putU16 rejection.peerMin ++ putU16 rejection.peerMax)))
  | .identityDescription identity => do
    let nested ← identity.encode.mapError .identity
    return putU16 worldSchemaV1 ++ (putU16 0 ++ nested)

def encodeWithLimit (record : WorldWireRecord) (maxRecordBytes : UInt32) :
    Except WorldCodecError Bytes := do
  let payload ← record.encodePayload
  let total := worldWireHeaderBytes + payload.length
  enforceLimit total maxRecordBytes
  return frame worldWireMagic worldWireCodecVersion record.kind.toU16 (UInt32.ofNat total) payload

def encode (record : WorldWireRecord) : Except WorldCodecError Bytes :=
  record.encodeWithLimit maxWorldWireRecordBytes

def requirePayloadLen (kind : WorldWireKind) (payload : Bytes) (expected : ℕ) :
    Except WorldCodecError Unit :=
  ensure (payload.length = expected) (.invalidPayloadLength kind expected payload.length)

def decodePayload (kind : WorldWireKind) (payload : Bytes) :
    Except WorldCodecError WorldWireRecord :=
  match kind with
  | .schemaOffer => do
    requirePayloadLen kind payload negotiationPayloadBytes
    let offer ← (Checked.new OfferFields.check
      ⟨u16At payload 0, u16At payload 2, u32At payload 4⟩).mapError .protocol
    return .schemaOffer offer
  | .schemaSelection => do
    requirePayloadLen kind payload negotiationPayloadBytes
    ensure (u16At payload 2 = 0) (.nonzeroReserved kind (u16At payload 2))
    let selection ← (Checked.new SelectionFields.check
      ⟨u16At payload 0, u32At payload 4⟩).mapError .protocol
    return .schemaSelection selection
  | .schemaRejection => do
    requirePayloadLen kind payload negotiationPayloadBytes
    let rejection ← (SchemaRejection.noCommonVersion (u16At payload 0) (u16At payload 2)
      (u16At payload 4) (u16At payload 6)).mapError .protocol
    return .schemaRejection rejection
  | .identityDescription => do
    ensure (identityPrefixBytes ≤ payload.length) (.truncated identityPrefixBytes payload.length)
    ensure (u16At payload 0 = worldSchemaV1) (.unsupportedPayloadSchema kind (u16At payload 0))
    ensure (u16At payload 2 = 0) (.nonzeroReserved kind (u16At payload 2))
    let nested := payload.drop identityPrefixBytes
    let identity ← (IdentityWireRecord.decode nested).mapError .identity
    let canonical ← identity.encode.mapError .identity
    ensure (canonical = nested) .nonCanonicalIdentity
    return .identityDescription identity

def decodeWithLimit (record : Bytes) (maxRecordBytes : UInt32) :
    Except WorldCodecError WorldWireRecord := do
  enforceLimit record.length maxRecordBytes
  ensure (worldWireHeaderBytes ≤ record.length) (.truncated worldWireHeaderBytes record.length)
  ensure (record.take 8 = worldWireMagic) .badMagic
  ensure (u16At record 8 = worldWireCodecVersion) (.unsupportedCodecVersion (u16At record 8))
  let kind ← WorldWireKind.fromU16 (u16At record 10)
  let declared := (u32At record 12).toNat
  enforceLimit declared maxRecordBytes
  ensure (declared = record.length) (.lengthMismatch declared record.length)
  decodePayload kind (record.drop worldWireHeaderBytes)

def decode (record : Bytes) : Except WorldCodecError WorldWireRecord :=
  decodeWithLimit record maxWorldWireRecordBytes

/-- Decodes one identity record under the schema and record bound two offers agreed on. -/
def decodeIdentityWithNegotiatedSchema (record : Bytes) (negotiated : SchemaSelection) :
    Except WorldCodecError IdentityWireRecord := do
  ensure (negotiated.value.version = worldSchemaV1)
    (.unsupportedNegotiatedSchema negotiated.value.version)
  match ← decodeWithLimit record negotiated.value.maxRecordBytes with
  | .identityDescription identity => return identity
  | other => throw (.expectedIdentityDescription other.kind)

/-! ## Round trips -/

variable {payload : Bytes} {record : WorldWireRecord} {limit : UInt32}

/-- Eight bytes are four 16-bit fields, or two and a 32-bit field. -/
lemma split_payload (h : payload.length = 8) :
    putU16 (u16At payload 0) ++ (putU16 (u16At payload 2) ++ putU32 (u32At payload 4)) = payload ∧
    putU16 (u16At payload 0) ++ (putU16 (u16At payload 2) ++
      (putU16 (u16At payload 4) ++ putU16 (u16At payload 6))) = payload := by
  have hsplit : ∀ offset n, (payload.drop offset).take n ++ payload.drop (offset + n)
      = payload.drop offset := by
    intro offset n
    rw [← drop_drop, take_append_drop]
  have hrest4 : (payload.drop 4).take 4 = payload.drop 4 :=
    take_of_length_le (by rw [length_drop]; omega)
  have hrest6 : (payload.drop 6).take 2 = payload.drop 6 :=
    take_of_length_le (by rw [length_drop]; omega)
  rw [putU16_u16At (by omega), putU16_u16At (by omega), putU16_u16At (by omega),
    putU16_u16At (by omega), putU32_u32At (by omega), hrest4, hrest6, hsplit 4 2, hsplit 2 2,
    hsplit 0 2]
  exact ⟨rfl, rfl⟩

lemma read_limits (a b : UInt16) (c : UInt32) :
    u16At (putU16 a ++ (putU16 b ++ putU32 c)) 0 = a ∧
    u16At (putU16 a ++ (putU16 b ++ putU32 c)) 2 = b ∧
    u32At (putU16 a ++ (putU16 b ++ putU32 c)) 4 = c := by
  refine ⟨@u16At_append [] 0 rfl a _, u16At_append (length_putU16 a) b _, ?_⟩
  have hlen : (putU16 a ++ putU16 b).length = 4 := by simp
  have hread := u32At_append hlen c []
  rwa [append_nil, append_assoc] at hread

lemma read_ranges (a b c d : UInt16) :
    u16At (putU16 a ++ (putU16 b ++ (putU16 c ++ putU16 d))) 0 = a ∧
    u16At (putU16 a ++ (putU16 b ++ (putU16 c ++ putU16 d))) 2 = b ∧
    u16At (putU16 a ++ (putU16 b ++ (putU16 c ++ putU16 d))) 4 = c ∧
    u16At (putU16 a ++ (putU16 b ++ (putU16 c ++ putU16 d))) 6 = d := by
  refine ⟨@u16At_append [] 0 rfl a _, u16At_append (length_putU16 a) b _, ?_, ?_⟩
  · have hlen : (putU16 a ++ putU16 b).length = 4 := by simp
    have hread := u16At_append hlen c (putU16 d)
    rwa [append_assoc] at hread
  · have hlen : (putU16 a ++ (putU16 b ++ putU16 c)).length = 6 := by simp
    have hread := u16At_append hlen d []
    rwa [append_nil, append_assoc, append_assoc] at hread

lemma decodePayload_offer :
    decodePayload .schemaOffer payload = .ok record ↔
      record.kind = .schemaOffer ∧ record.encodePayload = .ok payload := by
  simp only [decodePayload, requirePayloadLen, bind_eq_ok, ensure_eq_ok, mapError_eq_ok, new_eq_ok]
  constructor
  · rintro ⟨-, hlen, ⟨fields, hvalid⟩, hfields, hret⟩
    cases hret
    obtain rfl : fields = _ := hfields
    exact ⟨rfl, congrArg _ (split_payload hlen).1⟩
  · rintro ⟨hkind, hpayload⟩
    cases record with
    | schemaOffer offer =>
      obtain ⟨fields, hvalid⟩ := offer
      cases hpayload
      obtain ⟨h0, h2, h4⟩ := read_limits fields.minVersion fields.maxVersion fields.maxRecordBytes
      refine ⟨(), by simp [negotiationPayloadBytes], ⟨fields, hvalid⟩, ?_, rfl⟩
      rw [h0, h2, h4]
    | _ => simp [WorldWireRecord.kind] at hkind

lemma decodePayload_selection :
    decodePayload .schemaSelection payload = .ok record ↔
      record.kind = .schemaSelection ∧ record.encodePayload = .ok payload := by
  simp only [decodePayload, requirePayloadLen, bind_eq_ok, ensure_eq_ok, mapError_eq_ok, new_eq_ok]
  constructor
  · rintro ⟨-, hlen, -, hreserved, ⟨fields, hvalid⟩, hfields, hret⟩
    cases hret
    obtain rfl : fields = _ := hfields
    have hsplit := (split_payload hlen).1
    rw [hreserved] at hsplit
    exact ⟨rfl, congrArg _ hsplit⟩
  · rintro ⟨hkind, hpayload⟩
    cases record with
    | schemaSelection selection =>
      obtain ⟨fields, hvalid⟩ := selection
      cases hpayload
      obtain ⟨h0, h2, h4⟩ := read_limits fields.version 0 fields.maxRecordBytes
      refine ⟨(), by simp [negotiationPayloadBytes], (), h2, ⟨fields, hvalid⟩, ?_, rfl⟩
      rw [h0, h4]
    | _ => simp [WorldWireRecord.kind] at hkind

lemma decodePayload_rejection :
    decodePayload .schemaRejection payload = .ok record ↔
      record.kind = .schemaRejection ∧ record.encodePayload = .ok payload := by
  simp only [decodePayload, requirePayloadLen, SchemaRejection.noCommonVersion, bind_eq_ok,
    ensure_eq_ok, mapError_eq_ok, new_eq_ok]
  constructor
  · rintro ⟨-, hlen, ⟨fields, hvalid⟩, hfields, hret⟩
    cases hret
    obtain rfl : fields = _ := hfields
    exact ⟨rfl, congrArg _ (split_payload hlen).2⟩
  · rintro ⟨hkind, hpayload⟩
    cases record with
    | schemaRejection rejection =>
      obtain ⟨fields, hvalid⟩ := rejection
      cases hpayload
      obtain ⟨h0, h2, h4, h6⟩ := read_ranges fields.localMin fields.localMax fields.peerMin
        fields.peerMax
      refine ⟨(), by simp [negotiationPayloadBytes], ⟨fields, hvalid⟩, ?_, rfl⟩
      -- the wire kind implies the one reason a rejection can carry
      obtain ⟨⟨⟩, localMin, localMax, peerMin, peerMax⟩ := fields
      rw [h0, h2, h4, h6]
    | _ => simp [WorldWireRecord.kind] at hkind

lemma decodePayload_identity :
    decodePayload .identityDescription payload = .ok record ↔
      record.kind = .identityDescription ∧ record.encodePayload = .ok payload := by
  simp only [decodePayload, bind_eq_ok, ensure_eq_ok, mapError_eq_ok]
  constructor
  · rintro ⟨-, hlen, -, hschema, -, hreserved, identity, -, _, hencode, -, rfl, hret⟩
    cases hret
    refine ⟨rfl, ?_⟩
    have h4 : identityPrefixBytes = 4 := rfl
    rw [encodePayload, hencode, ← hschema, ← hreserved, putU16_u16At (by omega),
      putU16_u16At (by omega)]
    refine congrArg Except.ok ?_
    rw [identityPrefixBytes, show 4 = 2 + 2 from rfl, ← drop_drop, take_append_drop,
      drop_zero, take_append_drop]
  · rintro ⟨hkind, hpayload⟩
    cases record with
    | identityDescription identity =>
      rw [encodePayload, bind_eq_ok] at hpayload
      obtain ⟨nested, hnested, hret⟩ := hpayload
      cases hret
      rw [mapError_eq_ok] at hnested
      have hdrop : (putU16 worldSchemaV1 ++ (putU16 0 ++ nested)).drop identityPrefixBytes
          = nested := by
        rw [← append_assoc, drop_left' (by simp [identityPrefixBytes])]
      refine ⟨(), by simp [identityPrefixBytes]; omega, (), @u16At_append [] 0 rfl worldSchemaV1 _,
        (), u16At_append (length_putU16 worldSchemaV1) 0 _, identity, ?_, nested, hnested, (),
        ?_, rfl⟩
      · rw [hdrop]
        exact decode_eq_ok_iff.2 hnested
      · exact hdrop.symm
    | _ => simp [WorldWireRecord.kind] at hkind

lemma decodePayload_eq_ok {kind : WorldWireKind} :
    decodePayload kind payload = .ok record ↔
      record.kind = kind ∧ record.encodePayload = .ok payload := by
  cases kind with
  | schemaOffer => exact decodePayload_offer
  | schemaSelection => exact decodePayload_selection
  | schemaRejection => exact decodePayload_rejection
  | identityDescription => exact decodePayload_identity

lemma fromU16_eq_ok {found : UInt16} {kind : WorldWireKind} :
    WorldWireKind.fromU16 found = .ok kind ↔ found = kind.toU16 := by
  constructor
  · intro h
    unfold WorldWireKind.fromU16 at h
    split at h <;> first | (obtain rfl := Except.ok.inj h; rfl) | simp at h
  · rintro rfl
    cases kind <;> rfl

lemma enforceLimit_eq_ok {actual : ℕ} {u : Unit} :
    enforceLimit actual limit = .ok u ↔ actual ≤ 16384 ∧ actual ≤ limit.toNat := by
  simp only [enforceLimit, bind_eq_ok, ensure_eq_ok]
  constructor
  · rintro ⟨_, h, h'⟩
    exact ⟨h, h'⟩
  · rintro ⟨h, h'⟩
    exact ⟨(), h, h'⟩

lemma encodeWithLimit_eq_ok {bs : Bytes} :
    record.encodeWithLimit limit = .ok bs ↔
      ∃ payload, record.encodePayload = .ok payload ∧
        (16 + payload.length ≤ 16384 ∧ 16 + payload.length ≤ limit.toNat) ∧
        bs = frame worldWireMagic worldWireCodecVersion record.kind.toU16
          (UInt32.ofNat (16 + payload.length)) payload := by
  simp only [encodeWithLimit, bind_eq_ok, enforceLimit_eq_ok]
  constructor
  · rintro ⟨payload, hpayload, -, hlen, h⟩
    exact ⟨payload, hpayload, hlen, (Except.ok.inj h).symm⟩
  · rintro ⟨payload, hpayload, hlen, rfl⟩
    exact ⟨payload, hpayload, (), hlen, rfl⟩

/-- For every limit, decoding inverts encoding in both directions. -/
lemma decodeWithLimit_eq_ok_iff {bs : Bytes} :
    decodeWithLimit bs limit = .ok record ↔ record.encodeWithLimit limit = .ok bs := by
  have hmagic : worldWireMagic.length = 8 := rfl
  have h16 : worldWireHeaderBytes = 16 := rfl
  rw [encodeWithLimit_eq_ok]
  simp only [decodeWithLimit, bind_eq_ok, ensure_eq_ok, enforceLimit_eq_ok,
    fromU16_eq_ok, decodePayload_eq_ok, h16]
  constructor
  · rintro ⟨-, hmax, -, hheader, -, htake, -, hversion, kind, hkind, -, -, -, hdeclared, rfl,
      hpayload⟩
    have hlen : 16 + (bs.drop 16).length = bs.length := by
      rw [length_drop]
      omega
    refine ⟨_, hpayload, hlen.symm ▸ hmax, ?_⟩
    rw [hlen, ← hdeclared, UInt32.ofNat_toNat, ← htake, ← hversion, ← hkind]
    exact (frame_of_record hheader).symm
  · rintro ⟨payload, hpayload, hlen, rfl⟩
    have htotal : (UInt32.ofNat (16 + payload.length)).toNat = 16 + payload.length :=
      UInt32.toNat_ofNat_of_lt' (hlen.1.trans_lt (by decide))
    have hlength := length_frame hmagic worldWireCodecVersion record.kind.toU16
      (UInt32.ofNat (16 + payload.length)) payload
    refine ⟨(), ?_, (), (Nat.le_add_right 16 _).trans_eq hlength.symm, (), take_frame hmagic ..,
      (), u16At_frame_first hmagic .., record.kind, u16At_frame_second hmagic .., (), ?_, (), ?_,
      rfl, ?_⟩
    · rw [hlength]
      exact hlen
    · rw [u32At_frame hmagic, htotal]
      exact hlen
    · rw [u32At_frame hmagic, htotal, hlength]
    · rw [drop_frame hmagic]
      exact hpayload

/-- After negotiation an identity is accepted exactly in its canonical spelling, within the agreed
bound, under schema version 1. -/
theorem decodeIdentityWithNegotiatedSchema_eq_ok {record : Bytes} {negotiated : SchemaSelection}
    {identity : IdentityWireRecord} :
    decodeIdentityWithNegotiatedSchema record negotiated = .ok identity ↔
      negotiated.value.version = worldSchemaV1 ∧
      (identityDescription identity).encodeWithLimit negotiated.value.maxRecordBytes
        = .ok record := by
  simp only [decodeIdentityWithNegotiatedSchema, bind_eq_ok, ensure_eq_ok, exists_const,
    ← decodeWithLimit_eq_ok_iff]
  refine and_congr_right fun _ => ?_
  constructor
  · rintro ⟨decoded, hdecode, h⟩
    cases decoded with
    | identityDescription found =>
      cases h
      exact hdecode
    | _ => simp [throw, throwThe, MonadExceptOf.throw] at h
  · intro hdecode
    exact ⟨_, hdecode, rfl⟩

lemma fits_encodePayload (record : WorldWireRecord) : Fits record.encodePayload 832 := by
  cases record with
  | identityDescription identity =>
    -- the nested record is at most 828 bytes, so the identity alone decides the bound
    obtain ⟨nested, hnested, hlen⟩ := identity.fits_encode
    refine ⟨putU16 worldSchemaV1 ++ (putU16 0 ++ nested), ?_, ?_⟩
    · rw [encodePayload, hnested]
      rfl
    · simp only [length_append, length_putU16]
      omega
  | _ => exact Fits.ok (by simp)

lemma fits_encode (record : WorldWireRecord) : Fits record.encode 848 := by
  obtain ⟨payload, hpayload, hlen⟩ := record.fits_encodePayload
  have hmax : maxWorldWireRecordBytes.toNat = 16384 := rfl
  refine ⟨_, encodeWithLimit_eq_ok.2 ⟨payload, hpayload, ?_, rfl⟩, ?_⟩
  · omega
  · rw [length_frame rfl]
    omega

/-- A decoded identity re-encodes to the bytes it came from, so the comparison with them holds. -/
lemma decodePayload_ne_nonCanonicalIdentity (kind : WorldWireKind) (payload : Bytes) :
    decodePayload kind payload ≠ .error .nonCanonicalIdentity := by
  intro h
  cases kind with
  | identityDescription =>
    simp only [decodePayload, bind_eq_error, ensure_eq_error, mapError_eq_error, mapError_eq_ok,
      decode_eq_ok_iff, reduceCtorEq, and_false, false_or, exists_false] at h
    obtain ⟨-, -, -, -, -, -, identity, hdecode, canonical, hencode, hne⟩ := h
    rw [hdecode] at hencode
    cases hencode
    simp [pure, Except.pure] at hne
  | _ =>
    simp [decodePayload, requirePayloadLen, bind_eq_error, pure, Except.pure] at h

lemma decodeWithLimit_ne_nonCanonicalIdentity (bs : Bytes) (limit : UInt32) :
    decodeWithLimit bs limit ≠ .error .nonCanonicalIdentity := by
  intro h
  have hkind : WorldWireKind.fromU16 (u16At bs 10) ≠ .error .nonCanonicalIdentity := by
    unfold WorldWireKind.fromU16
    split <;> simp
  simp only [decodeWithLimit, enforceLimit, bind_eq_error, ensure_eq_error, reduceCtorEq, and_false,
    false_or, hkind, exists_false, decodePayload_ne_nonCanonicalIdentity] at h

/-- Identity and protocol records always encode, and each has exactly one accepted spelling. -/
theorem records_encode_canonically :
    (∀ record : IdentityWireRecord,
      ∃ bs, record.encode = .ok bs ∧ IdentityWireRecord.decode bs = .ok record) ∧
    (∀ (bs : Bytes) (record : IdentityWireRecord),
      IdentityWireRecord.decode bs = .ok record ↔ record.encode = .ok bs) ∧
    (∀ record : WorldWireRecord, ∃ bs, record.encode = .ok bs ∧ decode bs = .ok record) ∧
    (∀ (bs : Bytes) (record : WorldWireRecord),
      decode bs = .ok record ↔ record.encode = .ok bs) ∧
    ∀ (bs : Bytes) (limit : UInt32),
      decodeWithLimit bs limit ≠ .error .nonCanonicalIdentity := by
  refine ⟨?_, fun _ _ => decode_eq_ok_iff, ?_,
    fun _ _ => decodeWithLimit_eq_ok_iff, decodeWithLimit_ne_nonCanonicalIdentity⟩
  · intro record
    obtain ⟨bs, hbs, -⟩ := record.fits_encode
    exact ⟨bs, hbs, decode_eq_ok_iff.2 hbs⟩
  · intro record
    obtain ⟨bs, hbs, -⟩ := record.fits_encode
    exact ⟨bs, hbs, decodeWithLimit_eq_ok_iff.2 hbs⟩

end WorldWireRecord

end Ostadix
