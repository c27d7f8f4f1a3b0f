import Ostadix.PrefixCode
import Ostadix.SortBy
import Mathlib.Data.Prod.Lex
import Mathlib.Data.List.Perm.Basic

/-! The identity of a package: the hashed bytes fix the payload, and the manifest up to order. -/

namespace Ostadix.LiveSystem

open Wire List

/-! ## Manifests and payloads -/

structure RuntimeManifest where
  (kind entry abi : String)

structure ServiceManifest where
  (name protocol : String)

structure CapabilityRequestManifest where
  kind : String
  rights : List String
  purpose : String

structure HealthManifest where
  protocol : String
  timeoutMs : UInt64

structure BuildManifest where
  (sourceSha256 builder : String)

structure PackageManifest where
  (schema name version architecture payloadSha256 : String)
  runtime : RuntimeManifest
  services : List ServiceManifest
  capabilityRequests : List CapabilityRequestManifest
  health : HealthManifest
  build : BuildManifest

structure PayloadFile where
  path : String
  executable : Bool
  contents : Bytes

/-! ## The hashed bytes -/

def ServiceManifest.order (service : ServiceManifest) : List ℕ ×ₗ List ℕ :=
  toLex (textOrder service.name, textOrder service.protocol)

def CapabilityRequestManifest.order (request : CapabilityRequestManifest) :
    List ℕ ×ₗ List ℕ ×ₗ List (List ℕ) :=
  toLex (textOrder request.kind,
    toLex (textOrder request.purpose, request.rights.map textOrder))

def CapabilityRequestManifest.sortRights (request : CapabilityRequestManifest) :
    CapabilityRequestManifest :=
  { request with rights := sortBy textOrder request.rights }

def PackageManifest.canonicalized (manifest : PackageManifest) : PackageManifest :=
  { manifest with
    services := sortBy ServiceManifest.order manifest.services
    capabilityRequests := sortBy CapabilityRequestManifest.order
      (manifest.capabilityRequests.map CapabilityRequestManifest.sortRights) }

def hashBytes (bytes : Bytes) : Bytes := putU64 (UInt64.ofNat bytes.length) ++ bytes

def encodeString (value : String) : Bytes := hashBytes (utf8 value)

def encodeAll {α : Type} (encode : α → Bytes) (l : List α) : Bytes :=
  putU64 (UInt64.ofNat l.length) ++ l.flatMap encode

def ServiceManifest.encode (service : ServiceManifest) : Bytes :=
  encodeString service.name ++ encodeString service.protocol

def CapabilityRequestManifest.encode (request : CapabilityRequestManifest) : Bytes :=
  encodeString request.kind ++ (encodeAll encodeString request.rights ++
    encodeString request.purpose)

def PackageManifest.encode (manifest : PackageManifest) : Bytes :=
  utf8 "ocore.package-manifest/v1\x00" ++ (encodeString manifest.schema ++
    (encodeString manifest.name ++ (encodeString manifest.version ++
    (encodeString manifest.architecture ++ (encodeString manifest.payloadSha256 ++
    (encodeString manifest.runtime.kind ++ (encodeString manifest.runtime.entry ++
    (encodeString manifest.runtime.abi ++
    (encodeAll ServiceManifest.encode manifest.services ++
    (encodeAll CapabilityRequestManifest.encode manifest.capabilityRequests ++
    (encodeString manifest.health.protocol ++ (putU64 manifest.health.timeoutMs ++
    (encodeString manifest.build.sourceSha256 ++ encodeString manifest.build.builder)))))))))))))

def PayloadFile.encode (file : PayloadFile) : Bytes :=
  hashBytes (utf8 file.path) ++ ([if file.executable then 1 else 0] ++ hashBytes file.contents)

def encodePayloadTree (files : List PayloadFile) : Bytes :=
  utf8 "ocore.payload-tree/v1\x00" ++ encodeAll PayloadFile.encode files

-- Nothing below depends on which manifests are valid.
variable {ε : Type} (validate : PackageManifest → Except ε Unit)

def canonicalIdentityBytes (manifest : PackageManifest) : Except ε Bytes := do
  validate manifest
  return manifest.canonicalized.encode

def packagePreimage (manifest : PackageManifest) (files : List PayloadFile) : Except ε Bytes := do
  let manifestBytes ← canonicalIdentityBytes validate manifest
  return utf8 "ocore.package-object/v1\x00" ++ (hashBytes manifestBytes ++ encodePayloadTree files)

/-- A package with a valid manifest, all of which is held in memory. -/
structure Package where
  manifest : PackageManifest
  files : List PayloadFile
  preimage : Bytes
  digested : packagePreimage validate manifest files = .ok preimage
  held : preimage.length < 2 ^ 64

/-! ## The same up to order -/

structure CapabilityRequestManifest.SameRights (a b : CapabilityRequestManifest) : Prop where
  kind : a.kind = b.kind
  purpose : a.purpose = b.purpose
  rights : a.rights.Perm b.rights

/-- Equal up to the order of services, of requests, and of rights within a request. -/
structure PackageManifest.SameUpToOrder (a b : PackageManifest) : Prop where
  services : a.services.Perm b.services
  requests : ∃ l, Forall₂ CapabilityRequestManifest.SameRights a.capabilityRequests l ∧
    l.Perm b.capabilityRequests
  rest : { a with services := [], capabilityRequests := [] } =
    { b with services := [], capabilityRequests := [] }

lemma ServiceManifest.order_injective : Function.Injective order := by
  intro a b h
  obtain ⟨hname, hprotocol⟩ := Prod.mk.inj (toLex.injective h)
  cases a
  cases b
  congr
  · exact textOrder_injective hname
  · exact textOrder_injective hprotocol

namespace CapabilityRequestManifest

lemma order_injective : Function.Injective order := by
  intro a b h
  obtain ⟨hkind, h⟩ := Prod.mk.inj (toLex.injective h)
  obtain ⟨hpurpose, hrights⟩ := Prod.mk.inj (toLex.injective h)
  cases a
  cases b
  congr
  · exact textOrder_injective hkind
  · exact map_injective_iff.2 textOrder_injective hrights
  · exact textOrder_injective hpurpose

lemma sortRights_eq_iff {a b : CapabilityRequestManifest} :
    a.sortRights = b.sortRights ↔ a.SameRights b := by
  constructor
  · intro h
    obtain ⟨hkind, hrights, hpurpose⟩ := mk.inj h
    exact ⟨hkind, hpurpose, (sortBy_eq_iff textOrder_injective).1 hrights⟩
  · rintro ⟨hkind, hpurpose, hrights⟩
    rw [sortRights, sortRights, hkind, hpurpose, (sortBy_eq_iff textOrder_injective).2 hrights]

lemma map_sortRights_perm_iff {l m : List CapabilityRequestManifest} :
    (l.map sortRights).Perm (m.map sortRights) ↔ ∃ k, Forall₂ SameRights l k ∧ k.Perm m := by
  constructor
  · intro h
    have hm : Forall₂ (fun a r => a = sortRights r) (m.map sortRights) m :=
      forall₂_map_left_iff.2 (forall₂_same.2 fun _ _ => rfl)
    obtain ⟨k, hk, hperm⟩ := perm_comp_forall₂ h hm
    exact ⟨k, (forall₂_map_left_iff.1 hk).imp fun _ _ => sortRights_eq_iff.1, hperm⟩
  · rintro ⟨k, hk, hperm⟩
    rw [map_eq_of_forall₂ (hk.imp fun _ _ => sortRights_eq_iff.2)]
    exact hperm.map _

end CapabilityRequestManifest

open CapabilityRequestManifest in
lemma canonicalized_eq_iff {a b : PackageManifest} :
    a.canonicalized = b.canonicalized ↔ a.SameUpToOrder b := by
  constructor
  · intro h
    have hservices := congrArg PackageManifest.services h
    have hrequests := congrArg PackageManifest.capabilityRequests h
    exact ⟨(sortBy_eq_iff ServiceManifest.order_injective).1 hservices,
      map_sortRights_perm_iff.1 ((sortBy_eq_iff order_injective).1 hrequests),
      congrArg ({ · with services := [], capabilityRequests := [] }) h⟩
  · rintro ⟨hservices, hrequests, hrest⟩
    have hservices := (sortBy_eq_iff ServiceManifest.order_injective).2 hservices
    have hrequests := (sortBy_eq_iff order_injective).2
      (map_sortRights_perm_iff.2 hrequests)
    cases a
    cases b
    cases hrest
    rw [PackageManifest.canonicalized, PackageManifest.canonicalized, hservices, hrequests]

/-! ## The encodings can be told apart -/

lemma splits_hashBytes (bytes : Bytes) : Splits hashBytes Eq bytes := splits_sized bytes

lemma splits_encodeString (value : String) : Splits encodeString Eq value :=
  ((splits_sized (utf8 value)).comap utf8).mono fun _ h => utf8_injective h

lemma encodeString_append_ne_nil (value : String) (rest : Bytes) :
    encodeString value ++ rest ≠ [] := by
  simp [encodeString, hashBytes, ← length_pos_iff]

lemma splits_encodeAll {α : Type} {encode : α → Bytes} (hne : ∀ a, encode a ≠ [])
    (h : ∀ a, Splits encode Eq a) (l : List α) : Splits (encodeAll encode) Eq l :=
  (splits_counted hne fun a _ => h a).mono fun _ h => forall₂_eq_eq_eq ▸ h

lemma splits_service (service : ServiceManifest) : Splits ServiceManifest.encode Eq service := by
  obtain ⟨name, protocol⟩ := service
  rintro ⟨name', protocol'⟩ s t hv hw heq
  obtain ⟨⟨rfl, rfl⟩, hst⟩ := (splits_encodeString name).append (splits_encodeString protocol)
    (name', protocol') s t hv hw heq
  exact ⟨rfl, hst⟩

lemma splits_request (request : CapabilityRequestManifest) :
    Splits CapabilityRequestManifest.encode Eq request := by
  obtain ⟨kind, rights, purpose⟩ := request
  rintro ⟨kind', rights', purpose'⟩ s t hv hw heq
  have hne : ∀ right, encodeString right ≠ [] := fun right => by
    simpa using encodeString_append_ne_nil right []
  obtain ⟨⟨rfl, rfl, rfl⟩, hst⟩ := (splits_encodeString kind).append
    ((splits_encodeAll hne splits_encodeString rights).append (splits_encodeString purpose))
    (kind', rights', purpose') s t hv hw heq
  exact ⟨rfl, hst⟩

lemma splits_domain {α : Type} {encode : α → Bytes} {a : α} (domain : Bytes)
    (h : Splits encode Eq a) : Splits (fun a => domain ++ encode a) Eq a := by
  intro b s t ha hb heq
  simp only [length_append, append_assoc] at ha hb heq
  exact h b s t (by omega) (by omega) (append_cancel_left heq)

lemma splits_manifest (manifest : PackageManifest) : Splits PackageManifest.encode Eq manifest := by
  obtain ⟨schema, name, version, architecture, payload, ⟨kind, entry, abi⟩, services, requests,
    ⟨protocol, timeout⟩, ⟨source, builder⟩⟩ := manifest
  have str := splits_encodeString
  have hservices := splits_encodeAll (fun service => encodeString_append_ne_nil _ _)
    splits_service services
  have hrequests := splits_encodeAll (fun request => encodeString_append_ne_nil _ _)
    splits_request requests
  refine splits_domain _ ?_
  intro m s t hv hw heq
  obtain ⟨⟨rfl, rfl, rfl, rfl, rfl, rfl, rfl, rfl, rfl, rfl, rfl, rfl, rfl, rfl⟩, hst⟩ :=
    (str schema).append ((str name).append ((str version).append ((str architecture).append
      ((str payload).append ((str kind).append ((str entry).append ((str abi).append
      (hservices.append (hrequests.append ((str protocol).append
      ((splits_putU64 timeout).append ((str source).append (str builder)))))))))))))
      (m.schema, m.name, m.version, m.architecture, m.payloadSha256, m.runtime.kind,
        m.runtime.entry, m.runtime.abi, m.services, m.capabilityRequests, m.health.protocol,
        m.health.timeoutMs, m.build.sourceSha256, m.build.builder) s t hv hw heq
  exact ⟨rfl, hst⟩

lemma splits_file (file : PayloadFile) : Splits PayloadFile.encode Eq file := by
  obtain ⟨path, executable, contents⟩ := file
  rintro ⟨path', executable', contents'⟩ s t hv hw heq
  have hflag : Splits (fun b : Bool => [if b then (1 : UInt8) else 0]) Eq executable :=
    splits_of_length (n := 1) (fun _ => rfl) (by decide) executable
  obtain ⟨⟨rfl, rfl, rfl⟩, hst⟩ := (splits_encodeString path).append
    (hflag.append (splits_sized contents)) (path', executable', contents') s t hv hw heq
  exact ⟨rfl, hst⟩

lemma splits_payloadTree (files : List PayloadFile) : Splits encodePayloadTree Eq files :=
  splits_domain _ (splits_encodeAll (fun _ => encodeString_append_ne_nil _ _) splits_file files)

variable {validate}

lemma Package.preimage_eq (package : Package validate) : package.preimage =
    utf8 "ocore.package-object/v1\x00" ++ (hashBytes package.manifest.canonicalized.encode ++
      encodePayloadTree package.files) := by
  obtain ⟨bytes, hbytes, h⟩ := bind_eq_ok.1 package.digested
  obtain ⟨-, -, hbytes⟩ := bind_eq_ok.1 hbytes
  cases hbytes
  exact (Except.ok.inj h).symm

/-- Packages are hashed from the same bytes exactly when they have the same payload and the same
manifest up to the order of declarations. -/
theorem package_preimage_eq_iff (a b : Package validate) :
    a.preimage = b.preimage ↔ a.files = b.files ∧ a.manifest.SameUpToOrder b.manifest := by
  rw [← canonicalized_eq_iff]
  have ha := a.held
  have hb := b.held
  rw [a.preimage_eq] at ha ⊢
  rw [b.preimage_eq] at hb ⊢
  constructor
  · intro h
    simp only [length_append] at ha hb
    obtain ⟨hmanifest, h⟩ := splits_hashBytes _ _ _ _ (by omega) (by omega) (append_cancel_left h)
    obtain ⟨hfiles, -⟩ := splits_payloadTree a.files b.files [] [] (by omega) (by omega) (by rw [h])
    simp only [hashBytes, length_append] at ha hb
    obtain ⟨hmanifest, -⟩ := splits_manifest a.manifest.canonicalized b.manifest.canonicalized [] []
      (by omega) (by omega) (by rw [hmanifest])
    exact ⟨hfiles, hmanifest⟩
  · rintro ⟨hfiles, hmanifest⟩
    rw [hfiles, hmanifest]

def sampleManifest (services : List ServiceManifest) (rights : List String) : PackageManifest :=
  ⟨"ocore.package/v1", "app", "1.0.0", "x86_64", "00", ⟨"oexec", "main", "1"⟩, services,
    [⟨"clock", rights, "time"⟩], ⟨"ping", 100⟩, ⟨"00", "o"⟩⟩

def samplePackage (services : List ServiceManifest) (rights : List String)
    (held : ((packagePreimage (fun _ => .ok ()) (sampleManifest services rights)
      [⟨"main", true, [0]⟩] : Except Unit Bytes).toOption.getD []).length < 2 ^ 64) :
    Package (fun _ => .ok () : PackageManifest → Except Unit Unit) where
  manifest := sampleManifest services rights
  files := [⟨"main", true, [0]⟩]
  preimage := _
  digested := rfl
  held := held

theorem package_preimage_eq_iff_swapped :
    (samplePackage [⟨"log", "v1"⟩, ⟨"store", "v2"⟩] ["read", "set"] (by decide +kernel)).preimage =
      (samplePackage [⟨"store", "v2"⟩, ⟨"log", "v1"⟩] ["set", "read"]
        (by decide +kernel)).preimage :=
  (package_preimage_eq_iff _ _).2 ⟨rfl, .swap _ _ _,
    ⟨[⟨"clock", ["set", "read"], "time"⟩], .cons ⟨rfl, rfl, .swap _ _ _⟩ .nil, .rfl⟩, rfl⟩

end Ostadix.LiveSystem
