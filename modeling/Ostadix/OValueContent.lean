import Ostadix.OValueFingerprint

/-! What equal fingerprints of Nix expressions, thunks and groups say about their contents. -/

namespace Ostadix

open Wire List

namespace OValue

def storedFingerprint : OValue → Option String
  | .nixExpr _ _ fingerprint => some fingerprint
  | .thunk _ _ fingerprint => some fingerprint
  | .request _ _ fingerprint => some fingerprint
  | .group _ _ fingerprint => some fingerprint
  | _ => none

section Digest

variable {sha256 : Bytes → Digest}

variable (sha256) in
/-- A value that one of the three constructors builds out of built values. -/
inductive Carrier where
  | nixExpr (body : String) (deps : List (Built sha256))
  | thunk (body : String) (deps : List (Built sha256))
  | group (mode : GroupMode) (members : List (Built sha256))

def identities (values : List (Built sha256)) : List String :=
  values.map fun value => contentIdentity sha256 value.value

namespace Carrier

def build : Carrier sha256 → OValue
  | .nixExpr body deps => mkNixExpr sha256 body (deps.map Built.value)
  | .thunk body deps => mkThunk sha256 body (deps.map Built.value)
  | .group mode members => mkGroup sha256 mode (members.map Built.value)

def depsText (body : String) (deps : List (Built sha256)) : String :=
  body ++ "||" ++ joinBars (sortBy textOrder (identities deps))

def groupText (mode : GroupMode) (members : List (Built sha256)) : String :=
  "group|" ++ mode.name ++ "|" ++ joinBars (identities members)

def text : Carrier sha256 → String
  | .nixExpr body deps => depsText body deps
  | .thunk body deps => depsText body deps
  | .group mode members => groupText mode members

lemma storedFingerprint_build (x : Carrier sha256) :
    storedFingerprint x.build = some (hexDigest sha256 x.text) := by
  cases x <;> simp [build, text, storedFingerprint, mkNixExpr, mkThunk, mkGroup, depsFingerprint,
    depsText, groupText, identities, Function.comp_def]

/-- What a fingerprint tells: body and dependencies in any order, or mode and members in order. -/
def SameContent : Carrier sha256 → Carrier sha256 → Prop
  | .nixExpr body deps, .nixExpr body' deps' =>
    body = body' ∧ (identities deps).Perm (identities deps')
  | .nixExpr body deps, .thunk body' deps' =>
    body = body' ∧ (identities deps).Perm (identities deps')
  | .thunk body deps, .nixExpr body' deps' =>
    body = body' ∧ (identities deps).Perm (identities deps')
  | .thunk body deps, .thunk body' deps' => body = body' ∧ (identities deps).Perm (identities deps')
  | .group mode members, .group mode' members' =>
    mode = mode' ∧ identities members = identities members'
  | _, _ => False

end Carrier

/-! ## Joined identities -/

lemma toList_joinBars (parts : List String) :
    (joinBars parts).toList = ['|'].intercalate (parts.map String.toList) := by
  rw [joinBars, String.toList_intercalate]
  rfl

lemma identities_clean (values : List (Built sha256)) :
    ∀ part ∈ (identities values).map String.toList, '|' ∉ part ∧ part ≠ [] := by
  intro part hpart
  obtain ⟨identity, hidentity, rfl⟩ := mem_map.1 hpart
  obtain ⟨value, -, rfl⟩ := mem_map.1 hidentity
  constructor
  · obtain ⟨bytes, hidentity⟩ := contentIdentity_eq_hexEncode value
    rw [hidentity]
    exact bar_not_mem_hexEncode _
  · intro hempty
    have hlength := length_contentIdentity value
    simp [hempty] at hlength

lemma sorted_clean (values : List (Built sha256)) :
    ∀ part ∈ (sortBy textOrder (identities values)).map String.toList, '|' ∉ part ∧ part ≠ [] := by
  intro part hpart
  obtain ⟨identity, hidentity, rfl⟩ := mem_map.1 hpart
  exact identities_clean values _ (mem_map_of_mem (mem_sortBy.1 hidentity))

/-! ## Texts -/

lemma toList_depsText (body : String) (deps : List (Built sha256)) :
    (Carrier.depsText body deps).toList = body.toList ++ '|' :: '|' ::
      ['|'].intercalate ((sortBy textOrder (identities deps)).map String.toList) := by
  simp [Carrier.depsText, toList_joinBars]

lemma depsText_eq_iff {body body' : String} {deps deps' : List (Built sha256)} :
    Carrier.depsText body deps = Carrier.depsText body' deps' ↔
      body = body' ∧ (identities deps).Perm (identities deps') := by
  rw [← sortBy_eq_iff textOrder_injective]
  constructor
  · intro h
    replace h := congrArg String.toList h
    rw [toList_depsText, toList_depsText] at h
    obtain ⟨hbody, hjoined⟩ := append_double_inj
      (fun r u => intercalate_ne_double (sorted_clean deps))
      (fun u => intercalate_ne_sep_cons (sorted_clean deps))
      (fun r u => intercalate_ne_double (sorted_clean deps'))
      (fun u => intercalate_ne_sep_cons (sorted_clean deps')) h
    refine ⟨String.toList_injective hbody, ?_⟩
    exact map_injective_iff.2 (fun _ _ => String.toList_injective)
      (intercalate_sep_inj (sorted_clean deps) (sorted_clean deps') hjoined)
  · rintro ⟨rfl, hsorted⟩
    rw [Carrier.depsText, Carrier.depsText, hsorted]

lemma mode_clean (mode : GroupMode) : '|' ∉ mode.name.toList ∧ mode.name.toList ≠ [] := by
  cases mode <;> decide

lemma toList_groupText (mode : GroupMode) (members : List (Built sha256)) :
    (Carrier.groupText mode members).toList = "group".toList ++ '|' :: (mode.name.toList ++ '|' ::
      ['|'].intercalate ((identities members).map String.toList)) := by
  simp [Carrier.groupText, toList_joinBars]

lemma groupText_eq_iff {mode mode' : GroupMode} {members members' : List (Built sha256)} :
    Carrier.groupText mode members = Carrier.groupText mode' members' ↔
      mode = mode' ∧ identities members = identities members' := by
  constructor
  · intro h
    replace h := congrArg String.toList h
    rw [toList_groupText, toList_groupText] at h
    obtain ⟨hmode, hjoined⟩ := append_sep_inj (mode_clean mode).1 (mode_clean mode').1
      (List.cons.inj (append_cancel_left h)).2
    refine ⟨GroupMode.name_injective (String.toList_injective hmode), ?_⟩
    exact map_injective_iff.2 (fun _ _ => String.toList_injective)
      (intercalate_sep_inj (identities_clean members) (identities_clean members') hjoined)
  · rintro ⟨rfl, hmembers⟩
    rw [Carrier.groupText, Carrier.groupText, hmembers]

/-- A group has no double bar in its text, an expression or a thunk has one. -/
lemma groupText_ne_depsText (mode : GroupMode) (members : List (Built sha256)) (body : String)
    (deps : List (Built sha256)) : Carrier.groupText mode members ≠ Carrier.depsText body deps := by
  intro h
  replace h := congrArg String.toList h
  rw [toList_groupText, toList_depsText] at h
  obtain ⟨hbar, hne⟩ := mode_clean mode
  rcases append_sep_left (by decide) h with ⟨-, hmode⟩ | ⟨r, -, hmode⟩
  · obtain ⟨c, name, hname⟩ := exists_cons_of_ne_nil hne
    rw [hname] at hmode hbar
    simp_all
  · rcases append_sep_left hbar hmode with ⟨-, hjoined⟩ | ⟨r, -, hjoined⟩
    · exact intercalate_ne_sep_cons (identities_clean members) hjoined
    · exact intercalate_ne_double (identities_clean members) hjoined

/-! ## Fingerprints -/

/-- Fingerprints determine the content up to the order of dependencies, apart from whether it is an
expression or a thunk. -/
theorem carrier_fingerprint_eq_iff (x y : Carrier sha256)
    (hcollision : NoCollision sha256 (utf8 x.text) (utf8 y.text)) :
    storedFingerprint x.build = storedFingerprint y.build ↔ x.SameContent y := by
  rw [x.storedFingerprint_build, y.storedFingerprint_build, Option.some.injEq,
    hexDigest_eq_iff hcollision]
  cases x <;> cases y
  case group.group => exact groupText_eq_iff
  case group.nixExpr => exact iff_of_false (groupText_ne_depsText _ _ _ _) id
  case group.thunk => exact iff_of_false (groupText_ne_depsText _ _ _ _) id
  case nixExpr.group => exact iff_of_false (groupText_ne_depsText _ _ _ _).symm id
  case thunk.group => exact iff_of_false (groupText_ne_depsText _ _ _ _).symm id
  all_goals exact depsText_eq_iff

/-- Dependencies may be reordered, members may not. -/
theorem carrier_fingerprint_eq_iff_reordered :
    let first := bareThunk leadingBytes "1"
    let second := bareThunk leadingBytes "2"
    storedFingerprint (Carrier.thunk "x" [first, second]).build =
        storedFingerprint (Carrier.thunk "x" [second, first]).build ∧
      storedFingerprint (Carrier.group .batch [first, second]).build ≠
        storedFingerprint (Carrier.group .batch [second, first]).build := by
  intro first second
  constructor
  · apply (carrier_fingerprint_eq_iff _ _ fun _ => by decide +kernel).2
    exact ⟨rfl, .swap _ _ _⟩
  · intro h
    have hcontent := (carrier_fingerprint_eq_iff _ _ fun h => absurd h (by decide +kernel)).1 h
    exact absurd hcontent.2 (by decide +kernel)

/-- A thunk and a Nix expression share their fingerprint, whatever the digest is. -/
theorem thunk_shares_with_nixExpr : ¬∃ (sha256 : Bytes → Digest) (body : String),
    storedFingerprint (mkThunk sha256 body []) ≠ storedFingerprint (mkNixExpr sha256 body []) := by
  rintro ⟨sha256, body, h⟩
  exact h rfl

end Digest

end OValue

end Ostadix
