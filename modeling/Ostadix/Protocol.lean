import Ostadix.Basic

/-! Version negotiation for the World wire codec, as a calculation over two bounded offers. -/

namespace Ostadix

def worldSchemaV1 : UInt16 := 1

def worldWireMinRecordBytes : UInt32 := 24

def maxWorldWireRecordBytes : UInt32 := 16384

inductive WorldProtocolError where
  | zeroSchemaVersion
  | invertedSchemaRange (min max : UInt16)
  | recordLimitTooSmall (found minimum : UInt32)
  | recordLimitTooLarge (found maximum : UInt32)
  | nonCanonicalRejection
  | nonCanonicalRejectionForOffers
  | rejectionWithOverlap
  | nonCanonicalSelection (expectedVersion : UInt16) (expectedMaxRecordBytes : UInt32)
      (foundVersion : UInt16) (foundMaxRecordBytes : UInt32)
  | selectionWithoutOverlap
  deriving DecidableEq, Repr

def validateRange (min max : UInt16) : Except WorldProtocolError Unit := do
  ensure (min ≠ 0 ∧ max ≠ 0) .zeroSchemaVersion
  ensure (min ≤ max) (.invertedSchemaRange min max)

def validateRecordLimit (maxRecordBytes : UInt32) : Except WorldProtocolError Unit := do
  ensure (worldWireMinRecordBytes ≤ maxRecordBytes)
    (.recordLimitTooSmall maxRecordBytes worldWireMinRecordBytes)
  ensure (maxRecordBytes ≤ maxWorldWireRecordBytes)
    (.recordLimitTooLarge maxRecordBytes maxWorldWireRecordBytes)

def rangesOverlap (localMin localMax peerMin peerMax : UInt16) : Prop :=
  max localMin peerMin ≤ min localMax peerMax

instance (a b c d : UInt16) : Decidable (rangesOverlap a b c d) :=
  inferInstanceAs (Decidable (_ ≤ _))

/-! ## Offers, selections and rejections -/

structure OfferFields where
  (minVersion maxVersion : UInt16)
  maxRecordBytes : UInt32
  deriving DecidableEq

def OfferFields.check (offer : OfferFields) : Except WorldProtocolError Unit := do
  validateRange offer.minVersion offer.maxVersion
  validateRecordLimit offer.maxRecordBytes

abbrev SchemaOffer := Checked OfferFields.check

structure SelectionFields where
  version : UInt16
  maxRecordBytes : UInt32
  deriving DecidableEq

def SelectionFields.check (selection : SelectionFields) : Except WorldProtocolError Unit := do
  ensure (selection.version ≠ 0) .zeroSchemaVersion
  validateRecordLimit selection.maxRecordBytes

abbrev SchemaSelection := Checked SelectionFields.check

inductive SchemaRejectionReason where
  | noCommonVersion
  deriving DecidableEq

structure RejectionFields where
  reason : SchemaRejectionReason
  (localMin localMax peerMin peerMax : UInt16)
  deriving DecidableEq

def RejectionFields.check (rejection : RejectionFields) : Except WorldProtocolError Unit := do
  validateRange rejection.localMin rejection.localMax
  validateRange rejection.peerMin rejection.peerMax
  ensure (¬rangesOverlap rejection.localMin rejection.localMax rejection.peerMin rejection.peerMax)
    .nonCanonicalRejection

abbrev SchemaRejection := Checked RejectionFields.check

def SchemaRejection.noCommonVersion (localMin localMax peerMin peerMax : UInt16) :
    Except WorldProtocolError SchemaRejection :=
  Checked.new RejectionFields.check ⟨.noCommonVersion, localMin, localMax, peerMin, peerMax⟩

/-! ## Negotiation

`negotiateSchema` fills in its selection or rejection without running the constructor's checks;
that these hold is what the two lemmas before it show. -/

lemma validateRange_eq_ok {min max : UInt16} {u : Unit} :
    validateRange min max = .ok u ↔ (min ≠ 0 ∧ max ≠ 0) ∧ min ≤ max := by
  simp only [validateRange, bind_eq_ok, ensure_eq_ok, exists_const]

lemma validateRecordLimit_eq_ok {maxRecordBytes : UInt32} {u : Unit} :
    validateRecordLimit maxRecordBytes = .ok u ↔
      worldWireMinRecordBytes ≤ maxRecordBytes ∧ maxRecordBytes ≤ maxWorldWireRecordBytes := by
  simp only [validateRecordLimit, bind_eq_ok, ensure_eq_ok, exists_const]

lemma OfferFields.check_eq_ok {offer : OfferFields} {u : Unit} :
    offer.check = .ok u ↔
      ((offer.minVersion ≠ 0 ∧ offer.maxVersion ≠ 0) ∧ offer.minVersion ≤ offer.maxVersion) ∧
        worldWireMinRecordBytes ≤ offer.maxRecordBytes ∧
        offer.maxRecordBytes ≤ maxWorldWireRecordBytes := by
  simp only [OfferFields.check, bind_eq_ok, validateRange_eq_ok, validateRecordLimit_eq_ok,
    exists_const]

variable (loc peer : SchemaOffer)

/-- The highest common version and the smaller receive bound. -/
def selectedFields : SelectionFields where
  version := min loc.value.maxVersion peer.value.maxVersion
  maxRecordBytes := min loc.value.maxRecordBytes peer.value.maxRecordBytes

def rejectedFields : RejectionFields where
  reason := .noCommonVersion
  localMin := loc.value.minVersion
  localMax := loc.value.maxVersion
  peerMin := peer.value.minVersion
  peerMax := peer.value.maxVersion

lemma selectedFields_check (loc peer : SchemaOffer) : (selectedFields loc peer).check = .ok () := by
  obtain ⟨⟨⟨-, hlocal⟩, -⟩, hmin, hmax⟩ := OfferFields.check_eq_ok.1 loc.valid
  obtain ⟨⟨⟨-, hpeer⟩, -⟩, hmin', -⟩ := OfferFields.check_eq_ok.1 peer.valid
  simp only [SelectionFields.check, bind_eq_ok, ensure_eq_ok, validateRecordLimit_eq_ok,
    exists_const]
  refine ⟨?_, Std.le_min_iff.2 ⟨hmin, hmin'⟩, Std.le_trans Std.min_le_left hmax⟩
  have hversion : min loc.value.maxVersion peer.value.maxVersion = loc.value.maxVersion ∨
      min loc.value.maxVersion peer.value.maxVersion = peer.value.maxVersion := Std.min_eq_or
  rcases hversion with h | h
  · exact fun hzero => hlocal (h.symm.trans hzero)
  · exact fun hzero => hpeer (h.symm.trans hzero)

lemma rejectedFields_check {loc peer : SchemaOffer}
    (h : ¬rangesOverlap loc.value.minVersion loc.value.maxVersion peer.value.minVersion
      peer.value.maxVersion) : (rejectedFields loc peer).check = .ok () := by
  have hlocal := (OfferFields.check_eq_ok.1 loc.valid).1
  have hpeer := (OfferFields.check_eq_ok.1 peer.valid).1
  simp only [RejectionFields.check, bind_eq_ok, ensure_eq_ok, validateRange_eq_ok, exists_const]
  exact ⟨hlocal, hpeer, h⟩

inductive SchemaNegotiation where
  | selected (selection : SchemaSelection)
  | rejected (rejection : SchemaRejection)
  deriving DecidableEq

def negotiateSchema : SchemaNegotiation :=
  if h : rangesOverlap loc.value.minVersion loc.value.maxVersion peer.value.minVersion
      peer.value.maxVersion then
    .selected ⟨selectedFields loc peer, selectedFields_check loc peer⟩
  else
    .rejected ⟨rejectedFields loc peer, rejectedFields_check h⟩

/-- A peer's selection is admitted only when it is the canonical result for the two offers. -/
def validateSelection (selected : SchemaSelection) : Except WorldProtocolError SchemaSelection :=
  match negotiateSchema loc peer with
  | .selected expected =>
    if expected = selected then .ok expected
    else .error (.nonCanonicalSelection expected.value.version expected.value.maxRecordBytes
      selected.value.version selected.value.maxRecordBytes)
  | .rejected _ => .error .selectionWithoutOverlap

/-- Two offers admit exactly one answer, and it is the negotiated one. -/
lemma validateSelection_eq_ok {loc peer : SchemaOffer} {selected admitted : SchemaSelection} :
    validateSelection loc peer selected = .ok admitted ↔
      negotiateSchema loc peer = .selected selected ∧ admitted = selected := by
  unfold validateSelection
  cases negotiateSchema loc peer with
  | rejected rejection => simp
  | selected expected =>
    by_cases h : expected = selected
    · subst h
      simp [eq_comm]
    · simp [h]

lemma rangesOverlap_iff {a b c d : UInt16} :
    rangesOverlap a b c d ↔ (a ≤ b ∧ c ≤ b) ∧ a ≤ d ∧ c ≤ d := by
  have hmax : max a c = if a ≤ c then c else a := rfl
  rw [rangesOverlap, Std.le_min_iff]
  grind

lemma negotiateSchema_eq_selected {loc peer : SchemaOffer} {selected : SchemaSelection} :
    negotiateSchema loc peer = .selected selected ↔
      rangesOverlap loc.value.minVersion loc.value.maxVersion peer.value.minVersion
        peer.value.maxVersion ∧ selected.value = selectedFields loc peer := by
  unfold negotiateSchema
  split
  · next h => simp [h, Checked.ext_iff, eq_comm]
  · next h => simp [h]

lemma selectedFields_comm : selectedFields loc peer = selectedFields peer loc :=
  congrArg₂ SelectionFields.mk (Std.Commutative.comm _ _) (Std.Commutative.comm _ _)

def OfferFields.Admits (offer : OfferFields) (version : UInt16) : Prop :=
  offer.minVersion ≤ version ∧ version ≤ offer.maxVersion

/-- The parties agree: one admits a selection exactly when the other negotiates it, and it is the
highest version that both offers admit, with records that both can receive. -/
theorem negotiation_agrees (loc peer : SchemaOffer) (selected : SchemaSelection) :
    (validateSelection loc peer selected = .ok selected ↔
      negotiateSchema peer loc = .selected selected) ∧
    (negotiateSchema loc peer = .selected selected →
      IsGreatest {v | loc.value.Admits v ∧ peer.value.Admits v} selected.value.version ∧
      selected.value.maxRecordBytes ≤ loc.value.maxRecordBytes ∧
      selected.value.maxRecordBytes ≤ peer.value.maxRecordBytes) := by
  constructor
  · rw [validateSelection_eq_ok, negotiateSchema_eq_selected, negotiateSchema_eq_selected,
      selectedFields_comm, rangesOverlap_iff, rangesOverlap_iff]
    tauto
  intro h
  obtain ⟨hoverlap, hselected⟩ := negotiateSchema_eq_selected.1 h
  obtain ⟨⟨hlocal, hpeer⟩, hlocal', hpeer'⟩ := rangesOverlap_iff.1 hoverlap
  rw [hselected]
  refine ⟨⟨⟨⟨?_, Std.min_le_left⟩, ?_, Std.min_le_right⟩, fun v hv => ?_⟩,
    Std.min_le_left, Std.min_le_right⟩
  · exact Std.le_min_iff.2 ⟨hlocal, hlocal'⟩
  · exact Std.le_min_iff.2 ⟨hpeer, hpeer'⟩
  · exact Std.le_min_iff.2 ⟨hv.1.2, hv.2.2⟩

end Ostadix
