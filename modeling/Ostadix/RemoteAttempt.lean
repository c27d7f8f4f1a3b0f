import Ostadix.RemoteRenderer

/-! One rendering operation, carried out here and on another node. -/

namespace Ostadix.Fabric

open Wire List

def maxInputBindings : ℕ := 8

def maxRendererParts : ℕ := 128

def maxRendererLiteralBytes : ℕ := 4 * 1024

def maxRendererSourceBytes : ℕ := 16 * 1024

def maxSlotBytes : ℕ := 64

def maxInputValueBytesTotal : ℕ := 32 * 1024

abbrev Result (α : Type) := Except String α

/-- A child of an admitted operation: literal text, or a nested expression with its value. -/
inductive RendererChild where
  | literal (utf8 : String)
  | value (value : OValue)

/-! ## The local evaluator -/

def childText (formatting : Formatting) (style : Style) : RendererChild → String
  | .literal utf8 => utf8
  | .value value => render formatting style value

def rendered (renderer : TrustedInlineRenderer) (text : String) : OValue :=
  match renderer with
  | .html => .html text
  | .markdown | .latex | .text => .text ⟨text, some "utf-8"⟩

def renderLocally (formatting : Formatting) (renderer : TrustedInlineRenderer)
    (children : List RendererChild) : OValue :=
  rendered renderer (String.join (children.map (childText formatting (renderer.style formatting))))

/-! ## Inputs on the wire -/

mutual

def isRendererValue : PortableOValue → Bool
  | .null | .bool _ | .number _ | .text _ | .char _ => true
  | .list items => areRendererValues items
  | .record fields => areRendererFields fields
  | .map entries => areRendererEntries entries
  | .bytes _ | .tagged .. | .codeRef _ | .objectRef _ | .error _ => false

def areRendererValues : List PortableOValue → Bool
  | [] => true
  | item :: items => isRendererValue item && areRendererValues items

def areRendererFields : List (String × PortableOValue) → Bool
  | [] => true
  | (_, value) :: fields => isRendererValue value && areRendererFields fields

def areRendererEntries : List (PortableOValue × PortableOValue) → Bool
  | [] => true
  | (key, value) :: entries =>
    isRendererValue key && (isRendererValue value && areRendererEntries entries)

end

/-- Read an embedded value, which must be canonical and of a kind that renderers take. -/
def decodePortable (owvalue : Bytes) : Result PortableOValue := do
  let record ← (PortableValueRecord.decode owvalue).mapError (·.message)
  let canonical ← record.encode.mapError (·.message)
  ensure (canonical = owvalue) "embedded OWVALUE is not canonical"
  match record with
  | .extension _ => throw "portable extensions are not admitted in execution capsules"
  | .core value =>
    ensure (isRendererValue value = true)
      "portable value kind is outside the trusted renderer allowlist"
    return value

def encodePortable (value : PortableOValue) : Result Bytes := do
  let owvalue ← (PortableValueRecord.core value).encode.mapError (·.message)
  let _ ← decodePortable owvalue
  return owvalue

def isTokenByte (b : UInt8) : Bool :=
  isAsciiLowercase b || isAsciiUppercase b || isAsciiDigit b || b = 45 || b = 95 || b = 46

def validateSlot (slot : String) : Result Unit :=
  let bytes := utf8 slot
  ensure (bytes ≠ [] ∧ bytes.length ≤ maxSlotBytes ∧ bytes.all isTokenByte)
    "execution slot is not a bounded ASCII token"

/-! ## Projection -/

inductive RendererPart where
  | literal (utf8 : String)
  | input (slot : String)

def slotName (n : ℕ) : String :=
  let digits := toString n
  "input_" ++ String.ofList (List.replicate (8 - digits.length) '0') ++ digits

/-- The parts and the input bindings of the children, with the slots counted from `n`. -/
def project : ℕ → List RendererChild → Result (List RendererPart × List (String × Bytes))
  | _, [] => .ok ([], [])
  | n, .literal utf8 :: children => do
    let rest ← project n children
    return (.literal utf8 :: rest.1, rest.2)
  | n, .value value :: children => do
    let portable ← (PortableOValue.tryFrom value).mapError (·.message)
    let owvalue ← encodePortable portable
    validateSlot (slotName n)
    let rest ← project (n + 1) children
    return (.input (slotName n) :: rest.1, (slotName n, owvalue) :: rest.2)

def literalBytes : RendererPart → ℕ
  | .literal text => (utf8 text).length
  | .input _ => 0

def validateParts (parts : List RendererPart) : Result Unit := do
  ensure (parts.length ≤ maxRendererParts) "renderer has too many parts"
  ensure (∀ part ∈ parts, literalBytes part ≤ maxRendererLiteralBytes)
    "renderer literal exceeds its byte limit"
  ensure ((parts.map literalBytes).sum ≤ maxRendererSourceBytes)
    "renderer literal source exceeds its aggregate byte limit"

def inputManifest (bindings : List (String × Bytes)) : Result (List (String × Bytes)) := do
  let bindings := sortBy (fun binding => textOrder binding.1) bindings
  ensure (bindings.length ≤ maxInputBindings) "input manifest has too many bindings"
  ensure ((bindings.map fun binding => textOrder binding.1).Pairwise (· < ·))
    "input bindings must be uniquely sorted by slot"
  ensure ((bindings.map (·.2.length)).sum ≤ maxInputValueBytesTotal)
    "input manifest exceeds its aggregate value-byte limit"
  return bindings

/-! ## The other node -/

def pushBounded (maximum : ℕ) (output fragment : String) : Result String := do
  ensure ((utf8 output).length + (utf8 fragment).length ≤ maximum)
    ("rendered UTF-8 exceeds the safe pre-encoding bound of " ++ toString maximum ++ " bytes")
  return output ++ fragment

def partText (formatting : Formatting) (style : Style) (inputs : List (String × Bytes)) :
    RendererPart → Result String
  | .literal utf8 => .ok utf8
  | .input slot => do
    let owvalue ← orError ("validated capsule omitted renderer input slot " ++ slot)
      (inputs.lookup slot)
    let portable ← decodePortable owvalue
    let value ← (PortableOValue.lowerRendererValue portable).mapError (·.message)
    return render formatting style value

def executeParts (formatting : Formatting) (style : Style) (inputs : List (String × Bytes))
    (maximum : ℕ) : String → List RendererPart → Result String
  | output, [] => .ok output
  | output, part :: parts => do
    let fragment ← partText formatting style inputs part
    let output ← pushBounded maximum output fragment
    executeParts formatting style inputs maximum output parts

def candidateOutput (text : String) : Result Bytes := do
  let portable ← (PortableOValue.checked (.text ⟨text, some "utf-8"⟩)).mapError (·.message)
  encodePortable portable

def lowerExactRendererOutput (renderer : TrustedInlineRenderer) (owvalue : Bytes) :
    Result OValue := do
  let portable ← decodePortable owvalue
  match portable with
  | .text text =>
    match renderer with
    | .html => return .html text.utf8
    | .markdown | .latex | .text => return .text text
  | _ => throw "Fabric V1 renderer output is not one canonical portable Text record"

/-- A remote attempt. The checks of identities, digests, signatures and deadlines only refuse it. -/
def renderRemotely (formatting : Formatting) (renderer : TrustedInlineRenderer)
    (maxOutputBytes : ℕ) (children : List RendererChild) : Result OValue := do
  let projected ← project 0 children
  validateParts projected.1
  let inputs ← inputManifest projected.2
  let text ← executeParts formatting (renderer.style formatting) inputs
    (min maxOutputBytes ValueCodec.maxOvalueTextBytes) "" projected.1
  let owvalue ← candidateOutput text
  lowerExactRendererOutput renderer owvalue

/-! ## Equal values -/

lemma decodePortable_of_encodePortable {value value' : PortableOValue} {owvalue : Bytes}
    (hencode : encodePortable value = .ok owvalue) (hdecode : decodePortable owvalue = .ok value') :
    value' = value := by
  simp only [encodePortable, bind_eq_ok, mapError_eq_ok] at hencode
  obtain ⟨encoded, hencoded, _, _, h⟩ := hencode
  cases h
  simp only [decodePortable, bind_eq_ok, mapError_eq_ok] at hdecode
  obtain ⟨record, hrecord, _, _, _, _, hdecode⟩ := hdecode
  have hparse : PortableValueRecord.decode owvalue = .ok (.core value) := by
    rw [PortableValueRecord.decode, PortableValueRecord.decodeWithLimit_eq_parse]
    exact PortableValueRecord.parse_eq_ok.2 hencoded
  rw [hparse] at hrecord
  cases hrecord
  simp only [bind_eq_ok] at hdecode
  obtain ⟨_, _, hdecode⟩ := hdecode
  cases hdecode
  rfl

/-- The loop over the parts appends what the children are locally. -/
lemma executeParts_project {formatting : Formatting} {style : Style} {maximum : ℕ}
    {children : List RendererChild} (harranged : ∀ value, .value value ∈ children → Arranged value)
    {n : ℕ} {projected : List RendererPart × List (String × Bytes)}
    (hproject : project n children = .ok projected) {inputs : List (String × Bytes)}
    (hinputs : ∀ binding ∈ projected.2, inputs.lookup binding.1 = some binding.2)
    {output text : String}
    (htext : executeParts formatting style inputs maximum output projected.1 = .ok text) :
    text = output ++ String.join (children.map (childText formatting style)) := by
  induction children generalizing n projected output with
  | nil =>
    cases hproject
    cases htext
    simp
  | cons child children ih =>
    have hrestArranged : ∀ value, .value value ∈ children → Arranged value :=
      fun value hvalue => harranged value (mem_cons_of_mem _ hvalue)
    cases child with
    | literal utf8 =>
      simp only [project, bind_eq_ok] at hproject
      obtain ⟨rest, hrest, hproject⟩ := hproject
      cases hproject
      simp only [executeParts, partText, pushBounded, bind_eq_ok] at htext
      obtain ⟨fragment, hfragment, output', ⟨_, _, houtput⟩, htext⟩ := htext
      cases hfragment
      cases houtput
      rw [ih hrestArranged hrest hinputs htext, map_cons, String.join_cons, String.append_assoc]
      rfl
    | value value =>
      simp only [project, bind_eq_ok, mapError_eq_ok] at hproject
      obtain ⟨portable, hportable, owvalue, howvalue, _, _, rest, hrest, hproject⟩ := hproject
      cases hproject
      obtain ⟨hslot, hinputsRest⟩ := forall_mem_cons.1 hinputs
      simp only [executeParts, partText, pushBounded, bind_eq_ok, orError_eq_ok,
        mapError_eq_ok] at htext
      obtain ⟨fragment, ⟨owvalue', hlookup, portable', hdecode, lowered, hlowered, hfragment⟩,
        output', ⟨_, _, houtput⟩, htext⟩ := htext
      rw [hslot] at hlookup
      cases hlookup
      obtain rfl := decodePortable_of_encodePortable howvalue hdecode
      cases hfragment
      cases houtput
      have hfaithful := faithful_of_arranged formatting style value
        (harranged value mem_cons_self) portable' lowered hportable hlowered
      rw [ih hrestArranged hrest hinputsRest htext, map_cons, String.join_cons,
        String.append_assoc, hfaithful]
      rfl

/-- The manifest finds the binding of every slot. -/
lemma lookup_inputManifest {bindings inputs : List (String × Bytes)}
    (h : inputManifest bindings = .ok inputs) :
    ∀ binding ∈ bindings, inputs.lookup binding.1 = some binding.2 := by
  simp only [inputManifest, bind_eq_ok, ensure_eq_ok] at h
  obtain ⟨_, _, _, hsorted, _, _, h⟩ := h
  cases h
  intro binding hbinding
  have hnodup : ((sortBy (fun binding => textOrder binding.1) bindings).map Prod.fst).Nodup := by
    rw [pairwise_map] at hsorted
    rw [List.Nodup, pairwise_map]
    refine hsorted.imp ?_
    intro a b hlt heq
    rw [heq] at hlt
    exact lt_irrefl _ hlt
  exact lookup_eq_some_of_mem hnodup (mem_sortBy.2 hbinding)

lemma lower_candidateOutput {renderer : TrustedInlineRenderer} {text : String} {owvalue : Bytes}
    {value : OValue} (hcandidate : candidateOutput text = .ok owvalue)
    (hvalue : lowerExactRendererOutput renderer owvalue = .ok value) :
    value = rendered renderer text := by
  simp only [candidateOutput, bind_eq_ok, mapError_eq_ok] at hcandidate
  obtain ⟨portable, hportable, hencode⟩ := hcandidate
  obtain rfl := checked_eq_ok hportable
  simp only [lowerExactRendererOutput, bind_eq_ok] at hvalue
  obtain ⟨portable', hdecode, hvalue⟩ := hvalue
  obtain rfl := decodePortable_of_encodePortable hencode hdecode
  cases renderer <;> cases hvalue <;> rfl

/-- A remote attempt whose inputs have their entry maps in order gives the local value, if any. -/
theorem remote_eq_local (formatting : Formatting) (renderer : TrustedInlineRenderer)
    (maxOutputBytes : ℕ) (children : List RendererChild)
    (harranged : ∀ value, .value value ∈ children → Arranged value) (value : OValue)
    (h : renderRemotely formatting renderer maxOutputBytes children = .ok value) :
    value = renderLocally formatting renderer children := by
  simp only [renderRemotely, bind_eq_ok] at h
  obtain ⟨projected, hproject, _, _, inputs, hinputs, text, htext, owvalue, howvalue, hvalue⟩ := h
  have hjoined := executeParts_project harranged hproject (lookup_inputManifest hinputs) htext
  rw [lower_candidateOutput howvalue hvalue, renderLocally, hjoined, String.empty_append]

def sampleFormatting : Formatting where
  float _ _ := ""
  debug s := s
  other _ _ := ""

def sampleText (s : String) : OValue := .text ⟨s, some "utf-8"⟩

def sampleChildren (first second : String) : List RendererChild :=
  [.literal "seen: ", .value (.entriesMap [(sampleText first, .number (.int 1)),
    (sampleText second, .number (.int 2))])]

lemma arranged_sampleChildren :
    ∀ value, .value value ∈ sampleChildren "a" "b" → Arranged value := by
  intro value hvalue
  simp only [sampleChildren, mem_cons, reduceCtorEq, RendererChild.value.injEq,
    not_mem_nil, or_false, false_or] at hvalue
  subst hvalue
  intro part hpart
  rcases OValue.Reach.iff.1 hpart with rfl | ⟨child, hchild, hpart⟩
  · change ([sampleText "a", sampleText "b"].map keyOrder).Pairwise (· ≤ ·)
    decide +kernel
  simp only [OValue.children, flatMap_cons, flatMap_nil, mem_append,
    mem_cons, not_mem_nil, or_false] at hchild
  rcases hchild with (rfl | rfl) | (rfl | rfl) <;>
  · rcases OValue.Reach.iff.1 hpart with rfl | ⟨inner, hinner, -⟩
    · trivial
    · cases hinner

theorem remote_eq_local_sample :
    renderRemotely sampleFormatting .text 4096 (sampleChildren "a" "b") =
        .ok (sampleText "seen: \x7ba => 1, b => 2\x7d") ∧
      sampleText "seen: \x7ba => 1, b => 2\x7d" =
        renderLocally sampleFormatting .text (sampleChildren "a" "b") := by
  have hremote : renderRemotely sampleFormatting .text 4096 (sampleChildren "a" "b") =
      .ok (sampleText "seen: \x7ba => 1, b => 2\x7d") := by rfl
  exact ⟨hremote, remote_eq_local sampleFormatting .text 4096 (sampleChildren "a" "b")
    arranged_sampleChildren _ hremote⟩

/-- Entries out of order come back in order, and so the texts differ. -/
theorem remote_reorders_entries :
    renderRemotely sampleFormatting .text 4096 (sampleChildren "b" "a") =
        .ok (sampleText "seen: \x7ba => 2, b => 1\x7d") ∧
      renderLocally sampleFormatting .text (sampleChildren "b" "a") =
        sampleText "seen: \x7bb => 1, a => 2\x7d" :=
  ⟨rfl, rfl⟩

end Ostadix.Fabric
