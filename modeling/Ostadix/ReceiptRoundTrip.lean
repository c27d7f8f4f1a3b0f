import Ostadix.ReceiptCanonical
import Ostadix.ReceiptCodec
import Ostadix.ValueRoundTrip

/-! Decoding gives a receipt back, so bodies and signing preimages tell receipts apart. -/

namespace Ostadix.Receipt

open Wire

/-! ## Fields -/

lemma recovers_u64 : Recovers readU64 (fun v => (.ok (putU64 v) : Check Bytes)) :=
  ⟨fun h => (Reads.takeU64 _).complete (Except.ok.inj h).symm⟩

variable {parts : List (Check Bytes)} {α : Type} {body bs rest : Bytes} {r : ExecutionReceipt}

variable {maximum : ℕ} {kind : String} {result : Check (α × Bytes)}

lemma recovers_count {n : ℕ} (hn : n ≤ maximum) {f : ℕ → Cursor α}
    (hbs : concat (putCount n :: parts) = .ok bs)
    (hf : ∀ bs', concat parts = .ok bs' → f n (bs' ++ rest) = result) :
    (readCount maximum kind >>= f) (bs ++ rest) = result := by
  obtain ⟨x, y, hx, hy, rfl⟩ := concat_cons_eq_ok.1 hbs
  simp only [putCount, bind_eq_ok, ensure_eq_ok, exists_const] at hx
  obtain ⟨hlt, hret⟩ := hx
  cases hret
  have hcount : (UInt16.ofNat n).toNat = n := UInt16.toNat_ofNat_of_lt' hlt
  have hread : readCount maximum kind (putU16 (UInt16.ofNat n) ++ (y ++ rest)) =
      .ok (n, y ++ rest) := by
    rw [readCount, readU16, bind_of_ok ((Reads.takeU16 _).complete rfl _), hcount,
      lift_bind_ok (a := ()) (ensure_eq_ok.2 hn)]
    rfl
  rw [List.append_assoc, bind_of_ok hread]
  exact hf y hy

lemma recovers_text : Recovers readText putText := by
  constructor
  intro text bs h rest
  simp only [putText, bind_eq_ok, ensure_eq_ok, exists_const] at h
  obtain ⟨⟨hne, hle⟩, hret⟩ := h
  cases hret
  have hlen : (UInt16.ofNat (utf8 text).length).toNat = (utf8 text).length :=
    UInt16.toNat_ofNat_of_lt' (hle.trans_lt (by decide))
  have hpos : UInt16.ofNat (utf8 text).length ≠ 0 := by
    intro hzero
    rw [hzero] at hlen
    exact hne (List.length_eq_zero_iff.1 hlen.symm)
  rw [readText, List.append_assoc, readU16, bind_of_ok ((Reads.takeU16 _).complete rfl _),
    lift_bind_ok (a := ()) (ensure_eq_ok.2 ⟨hpos, hlen.trans_le hle⟩),
    takeBytes, bind_of_ok ((Reads.take _ _).complete ⟨rfl, hlen.symm⟩ _)]
  exact lift_ok (decodeUtf8_eq_ok.2 rfl) rest

lemma recovers_digest : Recovers readDigest putDigest := by
  constructor
  intro digest bs h rest
  simp only [putDigest, bind_eq_ok, orError_eq_ok, ensure_eq_ok, exists_const] at h
  obtain ⟨bytes, hbytes, hlen, hret⟩ := h
  cases hret
  have hvalid := digest.valid
  simp only [validateArtifactDigest, ensure_eq_ok, List.all_eq_true] at hvalid
  obtain ⟨decoded, hdecoded, -, htext⟩ := hexDecodeBytes_of_lower 32 hvalid.1 hvalid.2
  obtain rfl : decoded = bs := some_unique hdecoded hbytes
  rw [readDigest, takeBytes, bind_of_ok ((Reads.take _ _).complete ⟨rfl, hlen⟩ _)]
  exact lift_ok (mapError_eq_ok.2 (Checked.new_eq_ok.2 (utf8_injective htext))) rest

/-- An identity is written with its length, which is not zero. -/
lemma putIdentity_spec {record : IdentityWireRecord} (h : putIdentity record = .ok bs) :
    ∃ (length : UInt16) (bytes : Bytes),
      record.encode = .ok bytes ∧ length ≠ 0 ∧ bytes.length = length.toNat ∧
        bs = putU16 length ++ bytes := by
  simp only [putIdentity, bind_eq_ok, mapError_eq_ok, ensure_eq_ok, exists_const] at h
  obtain ⟨bytes, hbytes, hlt, hret⟩ := h
  have hlen : (UInt16.ofNat bytes.length).toNat = bytes.length := UInt16.toNat_ofNat_of_lt' hlt
  refine ⟨UInt16.ofNat bytes.length, bytes, hbytes, ?_, hlen.symm, (Except.ok.inj hret).symm⟩
  intro hzero
  obtain ⟨payload, -, -, rfl⟩ := IdentityWireRecord.encode_eq_ok.1 hbytes
  rw [hzero, length_frame rfl] at hlen
  exact absurd hlen (by rw [UInt16.toNat_zero]; omega)

lemma recovers_identity : Recovers readIdentity putIdentity := by
  constructor
  intro record bs h rest
  obtain ⟨length, bytes, hbytes, hpos, hlen, rfl⟩ := putIdentity_spec h
  rw [readIdentity, List.append_assoc, readU16, bind_of_ok ((Reads.takeU16 _).complete rfl _),
    lift_bind_ok (a := ()) (ensure_eq_ok.2 hpos), takeBytes,
    bind_of_ok ((Reads.take _ _).complete ⟨rfl, hlen⟩ _)]
  exact lift_ok (mapError_eq_ok.2 (IdentityWireRecord.decode_eq_ok_iff.2 hbytes)) rest

section Expected

variable {variant : String} {select : IdentityWireRecord → Option α} {record : IdentityWireRecord}
  {a : α}

lemma read_expect (h : putIdentity record = .ok bs) (ha : select record = some a) (rest : Bytes) :
    expectIdentity variant select (bs ++ rest) = .ok (a, rest) := by
  rw [expectIdentity, bind_of_ok (recovers_identity.read h rest)]
  exact lift_ok (orError_eq_ok.2 ha) rest

lemma expect_step {β : Type} {f : α → Cursor β} {result : Check (β × Bytes)}
    (hbs : concat (putIdentity record :: parts) = .ok bs) (ha : select record = some a)
    (hf : ∀ bs', concat parts = .ok bs' → f a (bs' ++ rest) = result) :
    (expectIdentity variant select >>= f) (bs ++ rest) = result := by
  obtain ⟨x, y, hx, hy, rfl⟩ := concat_cons_eq_ok.1 hbs
  rw [List.append_assoc, bind_of_ok (read_expect hx ha _)]
  exact hf y hy

end Expected

section Tags

variable {α : Type} {rest : Bytes} {result : Check (α × Bytes)}

lemma zeros_bind (f : Unit → Cursor α) (input : Bytes) :
    (zeros 3 >>= f) ([0, 0, 0] ++ input) = f () input := by
  have htake : takeBytes 3 ([0, 0, 0] ++ input) = .ok ([0, 0, 0], input) :=
    (Reads.take _ 3).complete (show ([0, 0, 0] : Bytes) = [0, 0, 0] ∧ _ from ⟨rfl, rfl⟩) input
  have hread : zeros 3 ([0, 0, 0] ++ input) = .ok ((), input) := by
    rw [zeros, bind_of_ok htake]
    rfl
  exact bind_of_ok hread

lemma tag_step {tag : UInt8} {parts : List (Check Bytes)} {bs : Bytes} {f : UInt8 → Cursor α}
    (hbs : concat (putTag tag :: parts) = .ok bs)
    (hf : ∀ bs', concat parts = .ok bs' → f tag ([0, 0, 0] ++ (bs' ++ rest)) = result) :
    (readU8 >>= f) (bs ++ rest) = result := by
  obtain ⟨x, y, hx, hy, rfl⟩ := concat_cons_eq_ok.1 hbs
  cases hx
  have hread := (Reads.takeU8 fun _ _ => ReceiptError.malformed "truncated unsigned body").complete
    (a := tag) rfl ([0, 0, 0] ++ (y ++ rest))
  rw [← hf y hy]
  exact bind_of_ok hread

end Tags

lemma recovers_tag : Recovers readTag putTag := by
  constructor
  intro tag bs h rest
  have hparts : concat [putTag tag] = .ok bs :=
    concat_cons_eq_ok.2 ⟨bs, [], h, rfl, (List.append_nil bs).symm⟩
  refine tag_step hparts fun bs' hbs' => ?_
  obtain rfl := concat_nil_eq_ok.1 hbs'
  exact zeros_bind _ _

lemma recovers_process : Recovers readProcess putProcess := by
  constructor
  intro process bs h rest
  cases process with
  | none =>
    cases h
    rfl
  | some process =>
    -- the length that is looked at is never the zero of an absent process
    obtain ⟨length, bytes, -, hpos, -, hbs⟩ := putIdentity_spec h
    have hpeek : peekU16 (bs ++ rest) = .ok (length, bs ++ rest) := by
      have htake : (bs ++ rest).take 2 = putU16 length := by
        rw [hbs, List.append_assoc, ← length_putU16 length, List.take_left]
      rw [peekU16, htake, getU16_putU16, if_neg]
      rw [hbs, List.append_assoc, List.length_append, length_putU16]
      omega
    have hread : expectProcess (bs ++ rest) = .ok (process, rest) := by
      apply read_expect h
      rfl
    rw [readProcess, bind_of_ok hpeek, if_neg hpos, bind_of_ok hread]
    rfl

lemma entries_step {β : Type} {read : Cursor α} {put : α → Check Bytes} (h : Recovers read put)
    {entries : List α} (hlen : entries.length ≤ maximum) {f : List α → Cursor β}
    {result : Check (β × Bytes)} (hbs : concat (putEntries put entries :: parts) = .ok bs)
    (hf : ∀ bs', concat parts = .ok bs' → f entries (bs' ++ rest) = result) :
    (readEntries maximum kind read >>= f) (bs ++ rest) = result := by
  obtain ⟨x, y, hx, hy, rfl⟩ := concat_cons_eq_ok.1 hbs
  have hread : readEntries maximum kind read (x ++ (y ++ rest)) = .ok (entries, y ++ rest) := by
    refine recovers_count hlen hx fun bs' hbs' => ?_
    obtain ⟨items, _, hitems, hnil, rfl⟩ := concat_cons_eq_ok.1 hbs'
    obtain rfl := concat_nil_eq_ok.1 hnil
    rw [List.append_nil]
    exact h.many hitems _
  rw [List.append_assoc, bind_of_ok hread]
  exact hf y hy

/-! ## Observations -/

lemma fromU8_toU8_component (kind : ComponentKind) : ComponentKind.fromU8 kind.toU8 = .ok kind := by
  cases kind <;> rfl

lemma recovers_component : Recovers decodeComponent encodeComponent := by
  constructor
  intro component bs h rest
  refine tag_step h fun bs h => ?_
  rw [lift_bind_ok (fromU8_toU8_component _), zeros_bind]
  refine recovers_u64.step h fun bs h => recovers_text.step h fun bs h =>
    recovers_digest.step h fun bs h => ?_
  obtain rfl := concat_nil_eq_ok.1 h
  exact lift_ok (Checked.new_eq_ok.2 rfl) rest

lemma recovers_right : Recovers decodeRight (fun right : ReceiptRight => putText right.value) := by
  constructor
  intro right bs h rest
  rw [decodeRight, bind_of_ok (recovers_text.read h rest)]
  exact lift_ok (Checked.new_eq_ok.2 rfl) rest

lemma recovers_capability : Recovers decodeCapability encodeCapability := by
  constructor
  intro capability bs h rest
  obtain ⟨⟨hne, hlen, -⟩, -⟩ := CapabilityFields.construct_eq_ok.1 capability.construct_self
  refine expect_step h rfl fun bs h => ?_
  obtain ⟨entries, _, hentries, hnil, rfl⟩ := concat_cons_eq_ok.1 h
  obtain rfl := concat_nil_eq_ok.1 hnil
  rw [List.append_nil]
  refine recovers_count hlen hentries fun bs h => ?_
  have hpos : capability.value.rights.length ≠ 0 :=
    fun hzero => hne (List.length_eq_zero_iff.1 hzero)
  obtain ⟨rights, _, hrights, hnil, rfl⟩ := concat_cons_eq_ok.1 h
  obtain rfl := concat_nil_eq_ok.1 hnil
  rw [List.append_nil, lift_bind_ok (a := ()) (ensure_eq_ok.2 hpos),
    bind_of_ok (recovers_right.many hrights rest)]
  exact lift_ok (Constructed.new_eq_ok.2 capability.construct_self) rest

lemma fromU8_toU8_object (role : ObjectRole) : ObjectRole.fromU8 role.toU8 = .ok role := by
  cases role <;> rfl

lemma recovers_object : Recovers decodeObject encodeObject := by
  constructor
  intro object bs h rest
  refine expect_step h rfl fun bs h => tag_step h fun bs h => ?_
  rw [lift_bind_ok (fromU8_toU8_object _), zeros_bind]
  refine recovers_digest.step h fun bs h => recovers_u64.step h fun bs h => ?_
  obtain rfl := concat_nil_eq_ok.1 h
  exact lift_ok (Checked.new_eq_ok.2 rfl) rest

lemma recovers_capsule : Recovers decodeCapsule encodeCapsule := by
  constructor
  intro capsule bs h rest
  refine recovers_digest.step h fun bs h => recovers_text.step h fun bs h =>
    expect_step h rfl fun bs h => ?_
  obtain rfl := concat_nil_eq_ok.1 h
  exact lift_ok (Checked.new_eq_ok.2 rfl) rest

lemma recovers_effect : Recovers decodeEffect encodeEffect := by
  constructor
  intro effect bs h rest
  refine expect_step h rfl fun bs h => recovers_digest.step h fun bs h =>
    recovers_digest.step h fun bs h => ?_
  obtain rfl := concat_nil_eq_ok.1 h
  exact lift_ok (Checked.new_eq_ok.2 rfl) rest

lemma recovers_rejection : Recovers decodeRejection encodeRejection := by
  constructor
  intro rejection bs h rest
  refine expect_step h rfl fun bs h => recovers_text.step h fun bs h => ?_
  obtain rfl := concat_nil_eq_ok.1 h
  exact lift_ok (Checked.new_eq_ok.2 rfl) rest

lemma recoveryFlag_eq (recovered : Bool) :
    recoveryFlag (if recovered then 1 else 0) = .ok recovered := by
  cases recovered <;> rfl

lemma recovers_checkpoint : Recovers decodeCheckpoint encodeCheckpoint := by
  constructor
  intro checkpoint bs h rest
  refine expect_step h rfl fun bs h => recovers_digest.step h fun bs h =>
    tag_step h fun bs h => ?_
  rw [lift_bind_ok (recoveryFlag_eq _), zeros_bind]
  obtain rfl := concat_nil_eq_ok.1 h
  exact lift_ok (Checked.new_eq_ok.2 rfl) rest

/-! ## Subject -/

/-- The bits of the mask tell which digests are there. -/
lemma mask_spec (subject : SubjectFields) :
    subject.mask &&& ~~~digestMask = 0 ∧
    (subject.mask &&& digestSource ≠ 0 ↔ subject.source.isSome) ∧
    (subject.mask &&& digestBundle ≠ 0 ↔ subject.bundle.isSome) ∧
    (subject.mask &&& digestPackage ≠ 0 ↔ subject.package.isSome) ∧
    (subject.mask &&& digestHgraph ≠ 0 ↔ subject.logicalHgraph.isSome) ∧
    (subject.mask &&& digestEffects ≠ 0 ↔ subject.effects.isSome) ∧
    (subject.mask = 0 → ∀ digest ∈ subject.digests, digest = none) := by
  obtain ⟨source, bundle, package, logicalHgraph, effects⟩ := subject
  simp only [SubjectFields.mask, present, SubjectFields.digests, List.forall_mem_cons,
    List.not_mem_nil, false_implies, implies_true, and_true, ← Option.not_isSome_iff_eq_none]
  generalize source.isSome = a
  generalize bundle.isSome = b
  generalize package.isSome = c
  generalize logicalHgraph.isSome = d
  generalize effects.isSome = e
  cases a <;> cases b <;> cases c <;> cases d <;> cases e <;> decide

lemma nextDigest_step {mask bit : UInt8} {digest : Option ArtifactId}
    (hbit : mask &&& bit ≠ 0 ↔ digest.isSome) {f : Option ArtifactId → Cursor α}
    (hbs : concat (putOptionalDigest digest :: parts) = .ok bs)
    (hf : ∀ bs', concat parts = .ok bs' → f digest (bs' ++ rest) = result) :
    (nextDigest mask bit >>= f) (bs ++ rest) = result := by
  obtain ⟨x, y, hx, hy, rfl⟩ := concat_cons_eq_ok.1 hbs
  have hread : nextDigest mask bit (x ++ (y ++ rest)) = .ok (digest, y ++ rest) := by
    unfold nextDigest
    cases digest with
    | none =>
      obtain rfl := concat_nil_eq_ok.1 hx
      rw [if_neg (by simpa using hbit)]
      rfl
    | some digest =>
      obtain ⟨bytes, _, hbytes, hnil, rfl⟩ := concat_cons_eq_ok.1 hx
      obtain rfl := concat_nil_eq_ok.1 hnil
      rw [if_pos (hbit.2 rfl), List.append_nil, map_eq_pure_bind,
        bind_of_ok (recovers_digest.read hbytes _)]
      rfl
  rw [List.append_assoc, bind_of_ok hread]
  exact hf y hy

lemma recovers_subject :
    Recovers decodeSubject (fun subject : ReceiptSubject => encodeSubject subject.value) := by
  constructor
  intro subject bs h rest
  obtain ⟨hmask, hsource, hbundle, hpackage, hhgraph, heffects, hempty⟩ := mask_spec subject.value
  have hpresent : subject.value.mask ≠ 0 := by
    intro hzero
    have hvalid := subject.valid
    simp only [SubjectFields.check, bind_eq_ok, ensure_eq_ok, exists_const] at hvalid
    obtain ⟨⟨digest, hmem, hsome⟩, -⟩ := hvalid
    exact hsome (hempty hzero digest hmem)
  refine tag_step h fun bs h => ?_
  rw [lift_bind_ok (a := ()) (ensure_eq_ok.2 ⟨hpresent, hmask⟩), zeros_bind]
  refine nextDigest_step hsource h fun bs h => nextDigest_step hbundle h fun bs h =>
    nextDigest_step hpackage h fun bs h => nextDigest_step hhgraph h fun bs h =>
    nextDigest_step heffects h fun bs h => ?_
  obtain rfl := concat_nil_eq_ok.1 h
  exact lift_ok (Checked.new_eq_ok.2 rfl) rest

/-! ## Outcome -/

lemma recovers_value : Recovers readValue putValue := by
  constructor
  intro value bs h rest
  simp only [putValue, bind_eq_ok, mapError_eq_ok] at h
  obtain ⟨bytes, hbytes, hret⟩ := h
  cases hret
  have hlen : (UInt32.ofNat bytes.length).toNat = bytes.length := by
    obtain ⟨body, n, -, hsize, rfl⟩ := PortableValueRecord.encodeWithLimit_eq_ok.1 hbytes
    rw [length_frame rfl]
    exact UInt32.toNat_ofNat_of_lt' (hsize.1.trans_lt (by decide))
  have hdecode : PortableValueRecord.decode bytes = .ok value := by
    rw [PortableValueRecord.decode, PortableValueRecord.decodeWithLimit_eq_parse]
    exact PortableValueRecord.parse_eq_ok.2 hbytes
  rw [readValue, List.append_assoc, readU32, bind_of_ok ((Reads.takeU32 _).complete rfl _),
    takeBytes, bind_of_ok ((Reads.take _ _).complete ⟨rfl, hlen.symm⟩ _)]
  exact lift_ok (mapError_eq_ok.2 hdecode) rest

lemma read_terminal {terminal : ReceiptTerminal} (hvalid : terminal.validate = .ok ())
    (h : encodeTerminal terminal = .ok bs) (rest : Bytes) :
    decodeTerminal (bs ++ rest) = .ok (terminal, rest) := by
  cases terminal with
  | success value =>
    refine recovers_tag.step h fun bs h => ?_
    obtain ⟨bytes, _, hbytes, hnil, rfl⟩ := concat_cons_eq_ok.1 h
    obtain rfl := concat_nil_eq_ok.1 hnil
    change (ReceiptTerminal.success <$> readValue) _ = _
    rw [List.append_nil, map_eq_pure_bind, bind_of_ok (recovers_value.read hbytes rest)]
    rfl
  | failure code detailDigest =>
    refine recovers_tag.step h fun bs h => recovers_text.step h fun bs h =>
      recovers_digest.step h fun bs h => ?_
    obtain rfl := concat_nil_eq_ok.1 h
    refine lift_ok ?_ rest
    rw [ReceiptTerminal.newFailure, bind_eq_ok]
    exact ⟨(), hvalid, rfl⟩
  | cancelled | deadlineExceeded | worldFailed | worldStopped =>
    rw [decodeTerminal, bind_of_ok (recovers_tag.read h rest)]
    rfl

lemma recovers_commit : Recovers decodeCommit encodeCommit := by
  constructor
  intro commit bs h rest
  cases commit with
  | uncommitted =>
    rw [decodeCommit, bind_of_ok (recovers_tag.read h rest)]
    rfl
  | governed governor =>
    refine recovers_tag.step h fun bs h => ?_
    obtain ⟨bytes, _, hbytes, hnil, rfl⟩ := concat_cons_eq_ok.1 h
    obtain rfl := concat_nil_eq_ok.1 hnil
    change (ReceiptCommitFence.governed <$> expectGovernor) _ = _
    have hread : expectGovernor (bytes ++ rest) = .ok (governor, rest) := by
      apply read_expect hbytes
      rfl
    rw [List.append_nil, map_eq_pure_bind, bind_of_ok hread]
    rfl

lemma recovers_evidence : Recovers decodeEvidence encodeEvidence := by
  constructor
  intro evidence bs h rest
  cases evidence with
  | none =>
    rw [decodeEvidence, bind_of_ok (recovers_tag.read h rest)]
    rfl
  | some evidence =>
    refine recovers_tag.step h fun bs h => recovers_text.step h fun bs h =>
      recovers_digest.step h fun bs h => ?_
    obtain rfl := concat_nil_eq_ok.1 h
    have hnew : Checked.new EvidenceFields.check evidence.value = .ok evidence :=
      Checked.new_eq_ok.2 rfl
    rw [map_eq_pure_bind, lift_bind_ok hnew]
    rfl

/-! ## Bodies -/

section

variable (h : encodeBody r = .ok body)

include h

lemma encodeBody_eq_ok :
    body.length ≤ maxWorldReceiptBodyBytes ∧
    concat [encodeContext r.value.context.value, encodeSubject r.value.subject.value,
      putEntries encodeComponent r.value.components,
      putEntries encodeCapability r.value.capabilities, putEntries encodeObject r.value.objects,
      putEntries encodeCapsule r.value.capsules, putEntries encodeEffect r.value.effects,
      putEntries encodeRejection r.value.context.value.placement.value.rejected,
      putEntries encodeCheckpoint r.value.checkpoints, encodeTerminal r.value.terminal,
      encodeCommit r.value.commit, encodeEvidence r.value.evidence] = .ok body := by
  simp only [encodeBody, bind_eq_ok, ensure_eq_ok, exists_const] at h
  obtain ⟨output, houtput, hlen, hret⟩ := h
  cases hret
  exact ⟨hlen, houtput⟩

lemma decodeParts_encodeBody : decodeParts body = .ok (.ofReceipt r, []) := by
  obtain ⟨hadmissible, -⟩ := ReceiptFields.construct_eq_ok.1 r.construct_self
  have hlimits := hadmissible.limits
  simp only [ReceiptFields.enforceLimits, enforceLimit, bind_eq_ok, ensure_eq_ok,
    exists_const] at hlimits
  obtain ⟨hcomponents, hcapabilities, hobjects, hcapsules, heffects, hcheckpoints⟩ := hlimits
  obtain ⟨⟨-, hrejected, -⟩, -⟩ :=
    PlacementFields.construct_eq_ok.1 r.value.context.value.placement.construct_self
  replace h := concat_append.1 (encodeBody_eq_ok h).2
  rw [← List.append_nil body, decodeParts]
  refine expect_step h rfl fun bs h => expect_step h rfl fun bs h =>
    expect_step h rfl fun bs h => expect_step h rfl fun bs h =>
    expect_step h rfl fun bs h => expect_step h rfl fun bs h =>
    recovers_process.step h fun bs h => recovers_subject.step h fun bs h =>
    entries_step recovers_component hcomponents h fun bs h =>
    entries_step recovers_capability hcapabilities h fun bs h =>
    entries_step recovers_object hobjects h fun bs h =>
    entries_step recovers_capsule hcapsules h fun bs h =>
    entries_step recovers_effect heffects h fun bs h =>
    entries_step recovers_rejection hrejected h fun bs h =>
    entries_step recovers_checkpoint hcheckpoints h fun bs h => ?_
  obtain ⟨terminal, rest, hterminal, hend, rfl⟩ := concat_cons_eq_ok.1 h
  rw [List.append_assoc, bind_of_ok (read_terminal hadmissible.terminal hterminal _)]
  refine recovers_commit.step hend fun bs h => recovers_evidence.step h fun bs h => ?_
  obtain rfl := concat_nil_eq_ok.1 h
  rfl

lemma decodeBody_encodeBody : decodeBody body = .ok r := by
  rw [decodeBody, whole, decodeParts_encodeBody h]
  exact ReceiptParts.assemble_ofReceipt r

lemma inspectUnsignedReceipt_encodeBody : inspectUnsignedReceipt body = .ok r := by
  have hdecode := decodeBody_encodeBody h
  have hne : body ≠ [] := by
    rintro rfl
    exact nomatch hdecode
  simp only [inspectUnsignedReceipt, bind_eq_ok, ensure_eq_ok, exists_const]
  exact ⟨⟨hne, (encodeBody_eq_ok h).1⟩, r, hdecode, body, h, rfl, rfl⟩

end

lemma buildPreimage_injective (keyId : Digest) : Function.Injective (buildPreimage · keyId) := by
  intro body body' h
  have hrest := List.append_cancel_left h
  have hlengths := List.append_cancel_left (List.append_cancel_left hrest)
  have hkeyed := (List.append_inj hlengths (by rw [length_putU32, length_putU32])).2
  exact List.append_cancel_left hkeyed

/-- Bodies decode to their receipts, do not depend on the order of observations and rejections, and
make signing preimages distinct. -/
theorem receipt_bodies_canonical :
    (∀ (r : ExecutionReceipt) (body : Bytes), encodeBody r = .ok body →
      decodeBody body = .ok r ∧ inspectUnsignedReceipt body = .ok r) ∧
    (∀ p q : ReceiptParts, p.Rearranged q →
      ((∃ r, p.assemble = .ok r) ↔ ∃ s, q.assemble = .ok s) ∧
      ∀ r s, p.assemble = .ok r → q.assemble = .ok s → encodeBody r = encodeBody s) ∧
    (∀ (keyId : Digest) (r s : ExecutionReceipt) (body body' : Bytes), encodeBody r = .ok body →
      encodeBody s = .ok body' → r ≠ s → buildPreimage body keyId ≠ buildPreimage body' keyId) := by
  refine ⟨fun r body h => ⟨decodeBody_encodeBody h, inspectUnsignedReceipt_encodeBody h⟩, ?_, ?_⟩
  · intro p q hpq
    refine ⟨?_, fun r s hr hs => ?_⟩
    · constructor
      · rintro ⟨r, hr⟩
        exact ⟨r, ReceiptParts.assemble_eq_ok_of_rearranged hpq hr⟩
      · rintro ⟨s, hs⟩
        exact ⟨s, ReceiptParts.assemble_eq_ok_of_rearranged hpq.symm hs⟩
    · have hsame := ReceiptParts.assemble_eq_ok_of_rearranged hpq hr
      rw [Except.ok.inj (hsame.symm.trans hs)]
  · intro keyId r s body body' hr hs hne hpreimage
    have hbody := buildPreimage_injective keyId hpreimage
    subst hbody
    exact hne (Except.ok.inj ((decodeBody_encodeBody hr).symm.trans (decodeBody_encodeBody hs)))

def sampleWorld : WorldIdentity := ⟨⟨"w", rfl⟩, ⟨1, rfl⟩⟩

def sampleNode : NodeIdentity := ⟨⟨"w", rfl⟩, ⟨"n", rfl⟩, ⟨1, rfl⟩⟩

def sampleDigest : ArtifactId :=
  ⟨"0123456789abcdef0123456789abcdef0123456789abcdef0123456789abcdef", rfl⟩

def sampleComponent (identity : String)
    (h : validateIdentifier "component identity" identity = .ok ()) : ComponentObservation :=
  ⟨⟨.project, identity, 0, sampleDigest⟩, by rw [ComponentFields.check, h]; rfl⟩

def sampleParts (components : List ComponentObservation) : ReceiptParts where
  receipt := ⟨⟨"w", rfl⟩, ⟨"r", rfl⟩⟩
  world := sampleWorld
  governor := ⟨sampleWorld, ⟨1, rfl⟩, ⟨1, rfl⟩⟩
  attempt := ⟨⟨"w", rfl⟩, ⟨"t", rfl⟩, ⟨1, rfl⟩⟩
  node := sampleNode
  domain := ⟨sampleNode, ⟨"d", rfl⟩, ⟨1, rfl⟩⟩
  process := none
  rejected := []
  subject := ⟨⟨some sampleDigest, none, none, none, none⟩, rfl⟩
  components
  capabilities := []
  objects := []
  capsules := []
  effects := []
  checkpoints := []
  terminal := .cancelled
  commit := .uncommitted
  evidence := none

def sampleObserved : ReceiptParts := sampleParts [sampleComponent "b" rfl, sampleComponent "a" rfl]

def sampleReordered : ReceiptParts := sampleParts [sampleComponent "a" rfl, sampleComponent "b" rfl]

theorem receipt_bodies_canonical_sample :
    ∃ r s body, sampleObserved.assemble = .ok r ∧ sampleReordered.assemble = .ok s ∧
      encodeBody r = .ok body ∧ decodeBody body = .ok r ∧ encodeBody r = encodeBody s := by
  obtain ⟨hroundtrip, horder, -⟩ := receipt_bodies_canonical
  have hsome : (sampleObserved.assemble >>= encodeBody).toOption.isSome := by decide +kernel
  obtain ⟨body, hbody⟩ : ∃ body, (sampleObserved.assemble >>= encodeBody) = .ok body := by
    cases h : sampleObserved.assemble >>= encodeBody with
    | error e => simp [h, Except.toOption] at hsome
    | ok body => exact ⟨body, rfl⟩
  obtain ⟨r, hr, hencode⟩ := bind_eq_ok.1 hbody
  have hswap : sampleObserved.Rearranged sampleReordered :=
    ⟨rfl, rfl, rfl, rfl, rfl, rfl, rfl, .refl _, rfl, .swap _ _ _, .refl _, .refl _, .refl _,
      .refl _, .refl _, rfl, rfl, rfl⟩
  obtain ⟨hboth, hsame⟩ := horder _ _ hswap
  obtain ⟨s, hs⟩ := hboth.1 ⟨r, hr⟩
  exact ⟨r, s, body, hr, hs, hencode, (hroundtrip r body hencode).1, hsame r s hr hs⟩

end Ostadix.Receipt
