import Ostadix.OValueIdentity
import Ostadix.Separator
import Mathlib

/-! What equal fingerprints of requests say about the requests. -/

namespace Ostadix

open Wire

namespace OValue

/-! ## Texts of request kinds -/

/-- The first text goes on with the middle of the other, and its last text makes up for it. -/
def Spills (first middle last first' middle' last' : String) : Prop :=
  (first' = first ++ "|" ++ middle ∧ last = middle' ++ "|" ++ last') ∨
    ∃ rest, first' = first ++ "|" ++ middle ++ "|" ++ rest ∧
      last = rest ++ "|" ++ middle' ++ "|" ++ last'

/-- An absent authority and the authority that is called `none`. -/
def SpelledNone (authority authority' : Option String) : Prop :=
  (authority = none ∧ authority' = some "none") ∨ (authority = some "none" ∧ authority' = none)

def evalMiddle (envId : UInt32) (cacheable : Bool) : String :=
  envId.toNat.repr ++ "|" ++ toString cacheable

/-- Kinds whose texts leave open which authority or which end of a field is meant. -/
def Ambiguous : RequestKind → RequestKind → Prop
  | .eval lang envId cacheable authority permissions,
    .eval lang' envId' cacheable' authority' permissions' =>
    permissions = permissions' ∧
      ((lang = lang' ∧ envId = envId' ∧ cacheable = cacheable' ∧
        SpelledNone authority authority') ∨
      Spills lang (evalMiddle envId cacheable) (authority.getD "none")
        lang' (evalMiddle envId' cacheable') (authority'.getD "none") ∨
      Spills lang' (evalMiddle envId' cacheable') (authority'.getD "none")
        lang (evalMiddle envId cacheable) (authority.getD "none"))
  | .activate profile dryRun authority, .activate profile' dryRun' authority' =>
    (profile = profile' ∧ dryRun = dryRun' ∧ SpelledNone authority authority') ∨
      Spills profile (toString dryRun) (authority.getD "none")
        profile' (toString dryRun') (authority'.getD "none") ∨
      Spills profile' (toString dryRun') (authority'.getD "none")
        profile (toString dryRun) (authority.getD "none")
  | _, _ => False

lemma bar_not_mem_flag (flag : Bool) : '|' ∉ (toString flag).toList := by
  cases flag <;> decide

lemma flag_injective : Function.Injective (fun flag : Bool => toString flag) := by decide

lemma bar_not_mem_repr (n : ℕ) : '|' ∉ n.repr.toList := by
  intro h
  rw [Nat.toList_repr] at h
  exact absurd (Nat.isDigit_of_mem_toDigits (by decide) (by decide) h) (by decide)

lemma flag_ne_repr (flag : Bool) (n : ℕ) : (toString flag).toList ≠ n.repr.toList := by
  intro h
  -- a flag has the letter `e`, a number has digits only
  have hmem : 'e' ∈ n.repr.toList := by
    rw [← h]
    cases flag <;> decide
  rw [Nat.toList_repr] at hmem
  exact absurd (Nat.isDigit_of_mem_toDigits (by decide) (by decide) hmem) (by decide)

lemma getD_none_eq_iff (authority authority' : Option String) :
    authority.getD "none" = authority'.getD "none" ↔
      authority = authority' ∨ SpelledNone authority authority' := by
  cases authority <;> cases authority' <;> simp [SpelledNone, eq_comm]

variable {first first' lang lang' last last' middle middle' profile profile' : String}
  {cacheable cacheable' dryRun dryRun' : Bool} {envId envId' : UInt32}
  {authority authority' : Option String} {kind kind' : RequestKind}

lemma Spills.text_eq (h : Spills first middle last first' middle' last') :
    first ++ "|" ++ middle ++ "|" ++ last = first' ++ "|" ++ middle' ++ "|" ++ last' := by
  rcases h with ⟨hfirst, hlast⟩ | ⟨rest, hfirst, hlast⟩
  · simp only [hfirst, hlast, String.append_assoc]
  · simp only [hfirst, hlast, String.append_assoc]

lemma Spills.ne (h : Spills first middle last first' middle' last') : first ≠ first' := by
  intro heq
  subst heq
  rcases h with ⟨h, -⟩ | ⟨rest, h, -⟩
  · have hlen := congrArg String.length h
    simp only [String.length_append] at hlen
    have : "|".length = 1 := rfl
    omega
  have hlen := congrArg String.length h
  simp only [String.length_append] at hlen
  have : "|".length = 1 := rfl
  omega

section Cut

variable {first middle last first' middle' last' : String} {r : List Char}

/-- A first text that reaches past the bar covers a middle without bars. -/
lemma spills_of_flag (hmiddle : '|' ∉ middle.toList)
    (hfirst : first'.toList = first.toList ++ '|' :: r)
    (hrest : middle.toList ++ '|' :: last.toList =
      r ++ '|' :: (middle'.toList ++ '|' :: last'.toList)) :
    Spills first middle last first' middle' last' := by
  rcases append_sep_left hmiddle hrest with ⟨hr, hlast⟩ | ⟨rest, hr, hlast⟩
  · left
    constructor
    · apply String.toList_injective
      simp [hfirst, hr]
    · apply String.toList_injective
      simp [hlast]
  · right
    refine ⟨String.ofList rest, ?_, ?_⟩
    · apply String.toList_injective
      simp [hfirst, hr]
    · apply String.toList_injective
      simp [hlast]

/-- The same where the middle is a number and a flag: the number is not taken for the flag. -/
lemma spills_of_eval {envId envId' : UInt32} {cacheable cacheable' : Bool}
    (hfirst : first'.toList = first.toList ++ '|' :: r)
    (hrest : envId.toNat.repr.toList ++ '|' :: ((toString cacheable).toList ++ '|' :: last.toList) =
      r ++ '|' :: (envId'.toNat.repr.toList ++ '|' ::
        ((toString cacheable').toList ++ '|' :: last'.toList))) :
    Spills first (evalMiddle envId cacheable) last first' (evalMiddle envId' cacheable') last' := by
  rcases append_sep_left (bar_not_mem_repr _) hrest with ⟨-, htail⟩ | ⟨r', hr, htail⟩
  · have hflag := (append_sep_inj (bar_not_mem_flag _) (bar_not_mem_repr _) htail).1
    exact absurd hflag (flag_ne_repr _ _)
  have hspills : Spills (first ++ "|" ++ envId.toNat.repr) (toString cacheable) last
      first' (evalMiddle envId' cacheable') last' := by
    apply spills_of_flag (bar_not_mem_flag _) (r := r')
    · simp [hfirst, hr]
    · simpa [evalMiddle] using htail
  simpa only [Spills, evalMiddle, String.append_assoc] using hspills

end Cut

lemma activate_text_eq (h : profile ++ "|" ++ toString dryRun ++ "|" ++ last =
      profile' ++ "|" ++ toString dryRun' ++ "|" ++ last') :
    (profile = profile' ∧ dryRun = dryRun' ∧ last = last') ∨
      Spills profile (toString dryRun) last profile' (toString dryRun') last' ∨
      Spills profile' (toString dryRun') last' profile (toString dryRun) last := by
  replace h := congrArg String.toList h
  simp only [String.toList_append, String.reduceToList, List.append_assoc,
    List.singleton_append] at h
  rcases append_sep_eq h with ⟨hprofile, hrest⟩ | ⟨r, hprofile, hrest⟩ | ⟨r, hprofile, hrest⟩
  · obtain ⟨hflag, hlast⟩ := append_sep_inj (bar_not_mem_flag _) (bar_not_mem_flag _) hrest
    exact .inl ⟨String.toList_injective hprofile,
      flag_injective (String.toList_injective hflag), String.toList_injective hlast⟩
  · exact .inr (.inl (spills_of_flag (bar_not_mem_flag _) hprofile hrest))
  · exact .inr (.inr (spills_of_flag (bar_not_mem_flag _) hprofile hrest))

lemma eval_text_eq (h : lang ++ "|" ++ evalMiddle envId cacheable ++ "|" ++ last =
      lang' ++ "|" ++ evalMiddle envId' cacheable' ++ "|" ++ last') :
    (lang = lang' ∧ envId = envId' ∧ cacheable = cacheable' ∧ last = last') ∨
      Spills lang (evalMiddle envId cacheable) last lang' (evalMiddle envId' cacheable') last' ∨
      Spills lang' (evalMiddle envId' cacheable') last' lang (evalMiddle envId cacheable) last := by
  replace h := congrArg String.toList h
  simp only [evalMiddle, String.toList_append, String.reduceToList, List.append_assoc,
    List.cons_append] at h
  rcases append_sep_eq h with ⟨hlang, hrest⟩ | ⟨r, hlang, hrest⟩ | ⟨r, hlang, hrest⟩
  · obtain ⟨henv, hrest⟩ := append_sep_inj (bar_not_mem_repr _) (bar_not_mem_repr _) hrest
    obtain ⟨hflag, hlast⟩ := append_sep_inj (bar_not_mem_flag _) (bar_not_mem_flag _) hrest
    have henv := Nat.repr_inj.1 (String.toList_injective henv)
    exact .inl ⟨String.toList_injective hlang, UInt32.toNat_inj.1 henv,
      flag_injective (String.toList_injective hflag), String.toList_injective hlast⟩
  · exact .inr (.inl (spills_of_eval hlang hrest))
  · exact .inr (.inr (spills_of_eval hlang hrest))

def permissionText (permissions : List BackendAuthority) : String :=
  String.intercalate "," (permissions.map BackendAuthority.name)

lemma permissionText_injective : Function.Injective permissionText := by
  intro permissions permissions' h
  replace h := congrArg String.toList h
  simp only [permissionText, String.toList_intercalate, List.map_map] at h
  have hname : ∀ name ∈ [BackendAuthority.fileRead, .fileWrite, .network, .process],
      ',' ∉ name.name.toList ∧ name.name.toList ≠ [] := by decide
  have hparts : ∀ permissions : List BackendAuthority,
      ∀ x ∈ permissions.map (String.toList ∘ BackendAuthority.name), ',' ∉ x ∧ x ≠ [] := by
    intro permissions x hx
    obtain ⟨permission, -, rfl⟩ := List.mem_map.1 hx
    exact hname permission (by cases permission <;> simp)
  have hmap := intercalate_sep_inj (hparts _) (hparts _) h
  exact List.map_injective_iff.2
    (fun _ _ h => BackendAuthority.name_injective (String.toList_injective h)) hmap

lemma bar_not_mem_permissionText (permissions : List BackendAuthority) :
    '|' ∉ (permissionText permissions).toList := by
  induction permissions with
  | nil => decide
  | cons permission permissions ih =>
    have hname : '|' ∉ permission.name.toList := by cases permission <;> decide
    cases permissions with
    | nil => simpa [permissionText] using hname
    | cons next permissions =>
      simp only [permissionText, List.map_cons, String.intercalate_cons_cons,
        String.toList_append, List.mem_append] at ih ⊢
      rintro ((h | h) | h)
      · exact hname h
      · exact absurd h (by decide)
      · exact ih h

lemma kindTag_eval (lang : String) (envId : UInt32) (cacheable : Bool)
    (authority : Option String) (permissions : List BackendAuthority) :
    kindTag (.eval lang envId cacheable authority permissions) =
      "eval|" ++ (lang ++ "|" ++ evalMiddle envId cacheable ++ "|" ++ authority.getD "none") ++
        "|" ++ permissionText permissions := by
  -- the texts stay variables while they are regrouped
  have hregroup : ∀ a b c d e f g : String, a ++ b ++ c ++ d ++ c ++ e ++ c ++ f ++ c ++ g =
      a ++ (b ++ c ++ (d ++ c ++ e) ++ c ++ f) ++ c ++ g := by
    intro a b c d e f g
    simp only [String.append_assoc]
  exact hregroup _ _ _ _ _ _ _

lemma kindTag_activate (profile : String) (dryRun : Bool) (authority : Option String) :
    kindTag (.activate profile dryRun authority) =
      "activate|" ++ (profile ++ "|" ++ toString dryRun ++ "|" ++ authority.getD "none") := by
  have hregroup : ∀ a b c d e : String,
      a ++ b ++ c ++ d ++ c ++ e = a ++ (b ++ c ++ d ++ c ++ e) := by
    intro a b c d e
    simp only [String.append_assoc]
  exact hregroup _ _ _ _ _

/-- The text after the last bar is found from the end. -/
lemma append_bar_inj {p q s t : String} (hs : '|' ∉ s.toList) (ht : '|' ∉ t.toList)
    (h : p ++ "|" ++ s = q ++ "|" ++ t) : p = q ∧ s = t := by
  replace h := congrArg String.toList h
  simp only [String.toList_append, String.reduceToList, List.append_assoc,
    List.singleton_append] at h
  obtain ⟨hp, hst⟩ := append_sep_right hs ht h
  exact ⟨String.toList_injective hp, String.toList_injective hst⟩

lemma kindTag_eval_eq_iff {permissions permissions' : List BackendAuthority} :
    kindTag (.eval lang envId cacheable authority permissions) =
        kindTag (.eval lang' envId' cacheable' authority' permissions') ↔
      RequestKind.eval lang envId cacheable authority permissions =
          .eval lang' envId' cacheable' authority' permissions' ∨
        Ambiguous (.eval lang envId cacheable authority permissions)
          (.eval lang' envId' cacheable' authority' permissions') := by
  rw [kindTag_eval, kindTag_eval, Ambiguous, RequestKind.eval.injEq]
  constructor
  · intro h
    obtain ⟨htext, hpermissions⟩ := append_bar_inj (bar_not_mem_permissionText _)
      (bar_not_mem_permissionText _) h
    have hpermissions := permissionText_injective hpermissions
    rcases eval_text_eq ((String.append_right_inj _).1 htext) with
      ⟨hlang, henv, hcache, hlast⟩ | hspills
    · rcases (getD_none_eq_iff _ _).1 hlast with hsame | hnone
      · exact .inl ⟨hlang, henv, hcache, hsame, hpermissions⟩
      · exact .inr ⟨hpermissions, .inl ⟨hlang, henv, hcache, hnone⟩⟩
    · exact .inr ⟨hpermissions, .inr hspills⟩
  · rintro (⟨rfl, rfl, rfl, rfl, rfl⟩ | ⟨rfl, ⟨rfl, rfl, rfl, hnone⟩ | hspills | hspills⟩)
    · rfl
    · rw [(getD_none_eq_iff _ _).2 (.inr hnone)]
    · rw [hspills.text_eq]
    · rw [hspills.text_eq]

lemma kindTag_activate_eq_iff :
    kindTag (.activate profile dryRun authority) =
        kindTag (.activate profile' dryRun' authority') ↔
      RequestKind.activate profile dryRun authority = .activate profile' dryRun' authority' ∨
        Ambiguous (.activate profile dryRun authority)
          (.activate profile' dryRun' authority') := by
  rw [kindTag_activate, kindTag_activate, Ambiguous, RequestKind.activate.injEq]
  constructor
  · intro h
    rcases activate_text_eq ((String.append_right_inj _).1 h) with
      ⟨hprofile, hdry, hlast⟩ | hspills
    · rcases (getD_none_eq_iff _ _).1 hlast with hsame | hnone
      · exact .inl ⟨hprofile, hdry, hsame⟩
      · exact .inr (.inl ⟨hprofile, hdry, hnone⟩)
    · exact .inr (.inr hspills)
  · rintro (⟨rfl, rfl, rfl⟩ | ⟨rfl, rfl, hnone⟩ | hspills | hspills)
    · rfl
    · rw [(getD_none_eq_iff _ _).2 (.inr hnone)]
    · rw [hspills.text_eq]
    · rw [hspills.text_eq]

/-- The text of a kind begins with a letter of its own. -/
def initial : RequestKind → Char
  | .instantiate => 'i'
  | .realise => 'r'
  | .eval .. => 'e'
  | .activate .. => 'a'

lemma kindTag_head (kind : RequestKind) : (kindTag kind).toList.head? = some (initial kind) := by
  cases kind with
  | instantiate => rfl
  | realise => rfl
  | eval => simp [kindTag_eval, initial]
  | activate => simp [kindTag_activate, initial]

lemma initial_eq_of_kindTag_eq (h : kindTag kind = kindTag kind') :
    initial kind = initial kind' := by
  have hhead := kindTag_head kind
  rw [h, kindTag_head kind'] at hhead
  exact (Option.some.inj hhead).symm

lemma kindTag_eq_iff (kind kind' : RequestKind) :
    kindTag kind = kindTag kind' ↔ kind = kind' ∨ Ambiguous kind kind' := by
  cases kind <;> cases kind'
  case instantiate.instantiate => simp
  case realise.realise => simp
  case eval.eval => exact kindTag_eval_eq_iff
  case activate.activate => exact kindTag_activate_eq_iff
  all_goals
    constructor
    · intro h
      exact absurd (initial_eq_of_kindTag_eq h) (by simp [initial])
    · intro h
      simp [Ambiguous] at h

lemma not_spelledNone_self (authority : Option String) : ¬ SpelledNone authority authority := by
  cases authority <;> simp [SpelledNone]

lemma Ambiguous.ne (h : Ambiguous kind kind') : kind ≠ kind' := by
  intro heq
  subst heq
  cases kind with
  | instantiate => exact h
  | realise => exact h
  | eval lang envId cacheable authority permissions =>
    rcases h with ⟨-, ⟨-, -, -, hnone⟩ | hspills | hspills⟩
    · exact not_spelledNone_self _ hnone
    · exact hspills.ne rfl
    · exact hspills.ne rfl
  | activate profile dryRun authority =>
    rcases h with ⟨-, -, hnone⟩ | hspills | hspills
    · exact not_spelledNone_self _ hnone
    · exact hspills.ne rfl
    · exact hspills.ne rfl

/-! ## Fingerprints of requests -/

section Digest

variable {sha256 : Bytes → Digest}

/-- Whatever a value is built from, its identity is the text of one digest. -/
lemma contentIdentity_eq_hexEncode (source : Built sha256) :
    ∃ bytes, contentIdentity sha256 source.value = hexEncode (sha256 bytes).bytes := by
  obtain ⟨value, hbuilt⟩ := source
  have hroot : FingerprintOk sha256 value := hbuilt value (.refl value)
  cases value with
  | nixExpr body deps fingerprint =>
    obtain ⟨-, -, hfingerprint⟩ := OValue.nixExpr.inj hroot
    exact ⟨_, hfingerprint⟩
  | thunk body deps fingerprint =>
    obtain ⟨-, -, hfingerprint⟩ := OValue.thunk.inj hroot
    exact ⟨_, hfingerprint⟩
  | group mode members fingerprint =>
    obtain ⟨-, -, hfingerprint⟩ := OValue.group.inj hroot
    exact ⟨_, hfingerprint⟩
  | request kind source fingerprint =>
    obtain ⟨-, -, hfingerprint⟩ := OValue.request.inj hroot
    exact ⟨_, hfingerprint⟩
  | _ => exact ⟨_, rfl⟩

lemma length_contentIdentity (source : Built sha256) :
    (contentIdentity sha256 source.value).toList.length = 64 := by
  obtain ⟨bytes, hidentity⟩ := contentIdentity_eq_hexEncode source
  rw [hidentity, length_hexEncode, (sha256 bytes).size]

variable (sha256) in
/-- The digest tells the two inputs apart. -/
def NoCollision (a b : Bytes) : Prop := sha256 a = sha256 b → a = b

lemma hexDigest_eq_iff {text text' : String}
    (hcollision : NoCollision sha256 (utf8 text) (utf8 text')) :
    hexDigest sha256 text = hexDigest sha256 text' ↔ text = text' := by
  constructor
  · intro h
    have hbytes := hexEncode_injective h
    have hdigest : sha256 (utf8 text) = sha256 (utf8 text') := by
      revert hbytes
      cases sha256 (utf8 text)
      cases sha256 (utf8 text')
      simp
    exact utf8_injective (hcollision hdigest)
  · intro h
    rw [h]

/-- The identity has a fixed length, so the text of the kind ends where it begins. -/
lemma requestText_eq_iff (kind kind' : RequestKind) (source source' : Built sha256) :
    requestText sha256 kind source.value = requestText sha256 kind' source'.value ↔
      kindTag kind = kindTag kind' ∧
        contentIdentity sha256 source.value = contentIdentity sha256 source'.value := by
  constructor
  · intro h
    replace h := congrArg String.toList h
    simp only [requestText, String.toList_append] at h
    obtain ⟨htag, hidentity⟩ := List.append_inj' h (by
      rw [length_contentIdentity, length_contentIdentity])
    exact ⟨String.toList_injective (List.append_cancel_right htag),
      String.toList_injective hidentity⟩
  · rintro ⟨htag, hidentity⟩
    rw [requestText, requestText, htag, hidentity]

/-- A fingerprint pins down kind and source unless the two kinds share an ambiguous text. -/
theorem request_slot_determines_iff (kind kind' : RequestKind) (source source' : Built sha256)
    (hcollision : NoCollision sha256 (utf8 (requestText sha256 kind source.value))
      (utf8 (requestText sha256 kind' source'.value))) :
    (contentIdentity sha256 (mkRequest sha256 kind source.value) =
        contentIdentity sha256 (mkRequest sha256 kind' source'.value) →
      kind = kind' ∧
        contentIdentity sha256 source.value = contentIdentity sha256 source'.value) ↔
      ¬ (Ambiguous kind kind' ∧
        contentIdentity sha256 source.value = contentIdentity sha256 source'.value) := by
  have hslots : contentIdentity sha256 (mkRequest sha256 kind source.value) =
      contentIdentity sha256 (mkRequest sha256 kind' source'.value) ↔
      (kind = kind' ∨ Ambiguous kind kind') ∧
        contentIdentity sha256 source.value = contentIdentity sha256 source'.value := by
    simp only [mkRequest, contentIdentity]
    rw [← kindTag_eq_iff, ← requestText_eq_iff]
    exact hexDigest_eq_iff hcollision
  rw [hslots]
  constructor
  · rintro h ⟨hambiguous, hidentity⟩
    exact hambiguous.ne (h ⟨.inr hambiguous, hidentity⟩).1
  · rintro h ⟨hsame | hambiguous, hidentity⟩
    · exact ⟨hsame, hidentity⟩
    · exact absurd ⟨hambiguous, hidentity⟩ h

end Digest

def leadingBytes (bytes : Bytes) : Digest :=
  ⟨(bytes ++ List.replicate 32 0).take 32, by simp⟩

def bareThunk (sha256 : Bytes → Digest) (body : String) : Built sha256 where
  value := mkThunk sha256 body []
  built := by
    intro w hw
    cases hw with
    | refl => rfl
    | step hc h => simp [mkThunk, children] at hc

/-- An evaluation with an authority and a permission has another slot than one without. -/
theorem request_slot_determines_iff_eval :
    let granted : RequestKind := .eval "py" 0 true (some "net") [.network]
    let plain : RequestKind := .eval "py" 0 true none []
    let source := bareThunk leadingBytes "1"
    contentIdentity leadingBytes (mkRequest leadingBytes granted source.value) ≠
      contentIdentity leadingBytes (mkRequest leadingBytes plain source.value) := by
  intro granted plain source hslot
  have hcollision : NoCollision leadingBytes
      (utf8 (requestText leadingBytes granted source.value))
      (utf8 (requestText leadingBytes plain source.value)) :=
    fun h => absurd h (by decide +kernel)
  have hclear : ¬(Ambiguous granted plain ∧ contentIdentity leadingBytes source.value =
      contentIdentity leadingBytes source.value) := fun h => absurd h.1.1 (by decide)
  have hsame := (request_slot_determines_iff granted plain source source hcollision).2 hclear hslot
  exact absurd hsame.1 (by decide)

/-- An absent authority and one that is called `none` share a slot, whatever the digest is. -/
theorem absent_authority_shares_slot :
    RequestKind.eval "python" 0 true none [] ≠ .eval "python" 0 true (some "none") [] ∧
      ¬∃ sha256 : Bytes → Digest, ∀ source : Built sha256,
        contentIdentity sha256 (mkRequest sha256 (.eval "python" 0 true none []) source.value) ≠
          contentIdentity sha256
            (mkRequest sha256 (.eval "python" 0 true (some "none") []) source.value) := by
  refine ⟨by decide, ?_⟩
  rintro ⟨sha256, h⟩
  exact h (bareThunk sha256 "") rfl

end OValue

end Ostadix
