import Ostadix.Registry

/-! Profiles of a verified registry are backed by chains of signed events from a pinned root. -/

namespace Ostadix.Registry

open List RegistryEventBody Table

variable {crypto : Crypto} {store : RegistryStore} {trust : RegistryTrust} {nowMs : UInt64}
  {staleness : ProfileStalenessPolicy}

/-! ## Scopes -/

variable {scope : String} {anchor : Authority} {snapshot : RegistrySnapshot}
  {first signed : SignedRegistryEvent}

variable {value : String} {root : NamespaceRoot} {expiresAtMs validFromMs : UInt64}

lemma isWithinScope_iff : isWithinScope value scope = true ↔
    value = scope ∨ ∃ suffix, value.toList = scope.toList ++ '/' :: suffix := by
  rw [isWithinScope, Bool.or_eq_true, decide_eq_true_eq]
  apply or_congr_right
  unfold Text.after?
  constructor
  · intro h
    split at h
    · next hprefix =>
      obtain ⟨rest, hrest⟩ := isPrefixOf_iff_prefix.1 hprefix
      rw [← hrest] at h ⊢
      cases rest with
      | nil => simp [← String.length_toList] at h
      | cons c rest => simp [← String.length_toList] at h; exact ⟨rest, by rw [h]⟩
    · simp at h
  · rintro ⟨suffix, h⟩
    have hprefix : scope.toList.isPrefixOf value.toList = true :=
      isPrefixOf_iff_prefix.2 ⟨_, h.symm⟩
    rw [if_pos hprefix, h]
    simp [← String.length_toList]

lemma isStrictDescendant_iff : isStrictDescendant value scope = true ↔
    ∃ suffix, value.toList = scope.toList ++ '/' :: suffix := by
  rw [isStrictDescendant, Bool.and_eq_true, decide_eq_true_eq, isWithinScope_iff]
  constructor
  · rintro ⟨hne, h⟩
    exact h.resolve_left hne
  · rintro ⟨suffix, h⟩
    refine ⟨?_, .inr ⟨suffix, h⟩⟩
    rintro rfl
    simpa using congrArg List.length h

lemma isStrictDescendant_of_isWithinScope {child parent : String}
    (hchild : isStrictDescendant child parent = true)
    (hparent : isWithinScope parent scope = true) :
    isStrictDescendant child scope = true := by
  obtain ⟨suffix, hsuffix⟩ := isStrictDescendant_iff.1 hchild
  rw [isStrictDescendant_iff]
  rcases isWithinScope_iff.1 hparent with rfl | ⟨middle, hmiddle⟩
  · exact ⟨suffix, hsuffix⟩
  · refine ⟨middle ++ '/' :: suffix, ?_⟩
    rw [hsuffix, hmiddle]
    simp

/-! ## Chains -/

structure SignedBy (crypto : Crypto) (key : RegistryPublicKey) (signed : SignedRegistryEvent) :
    Prop where
  signer : signed.event.signerPublicKey = key
  verifies : ∃ preimage, registrySigningPreimage crypto signed.event = .ok preimage ∧
    crypto.verifyStrict key preimage signed.signature = true

def Authority.ValidAt (authority : Authority) (t : UInt64) : Prop :=
  authority.validFromMs ≤ t ∧ t < authority.expiresAtMs

/-- An event is signed with its predecessor's key, issued while that is valid, and valid only then.
-/
structure Follows (crypto : Crypto) (link : Authority) (signed : SignedRegistryEvent)
    (validFromMs expiresAtMs : UInt64) : Prop where
  signature : SignedBy crypto link.publicKey signed
  issued : link.ValidAt signed.event.issuedAtMs
  starts : link.validFromMs ≤ validFromMs
  ends : expiresAtMs ≤ link.expiresAtMs

def NamespaceRoot.authority (root : NamespaceRoot) : Authority :=
  ⟨root.namespace, root.rootPublicKey, root.validFromMs, root.expiresAtMs⟩

/-- The root of a snapshot is what an authority names, and has not expired. -/
structure RootUnder (crypto : Crypto) (store : RegistryStore) (nowMs : UInt64) (anchor : Authority)
    (snapshot : RegistrySnapshot) (first : SignedRegistryEvent) (root : NamespaceRoot) : Prop where
  stored : snapshot ∈ store.snapshots
  head : snapshot.events.head? = some first
  body : first.event.body = .namespaceRoot root
  scope : root.namespace = anchor.scope
  key : root.rootPublicKey = anchor.publicKey
  follows : Follows crypto anchor first root.validFromMs root.expiresAtMs
  current : root.authority.ValidAt nowMs

/-- An authority delegates a strictly smaller namespace. -/
structure DelegatedUnder (crypto : Crypto) (link : Authority) (snapshot : RegistrySnapshot)
    (signed : SignedRegistryEvent) (delegation : NamespaceDelegation) : Prop where
  stored : signed ∈ snapshot.events
  body : signed.event.body = .namespaceDelegation delegation
  within : isWithinScope delegation.parentNamespace link.scope = true
  strict : isStrictDescendant delegation.childNamespace delegation.parentNamespace = true
  descends : isStrictDescendant delegation.childNamespace link.scope = true
  follows : Follows crypto link signed delegation.validFromMs delegation.expiresAtMs

/-- The events from a pinned root to an authority, the last in the snapshot. A snapshot can start
under an unexpired delegation of another. -/
inductive Chain (crypto : Crypto) (store : RegistryStore) (trust : RegistryTrust) (nowMs : UInt64) :
    RegistrySnapshot → List SignedRegistryEvent → Authority → Prop where
  | pinned {pin : RegistryRootPin} {snapshot : RegistrySnapshot} {first : SignedRegistryEvent}
    {root : NamespaceRoot} (hpin : pin ∈ trust.roots)
    (hroot : RootUnder crypto store nowMs pin.authority snapshot first root) :
    Chain crypto store trust nowMs snapshot [first] root.authority
  | crossing {source snapshot : RegistrySnapshot} {events : List SignedRegistryEvent}
    {last first : SignedRegistryEvent} {delegation : NamespaceDelegation} {root : NamespaceRoot}
    (h : Chain crypto store trust nowMs source (events ++ [last]) delegation.authority)
    (hlast : last.event.body = .namespaceDelegation delegation)
    (hnow : delegation.authority.ValidAt nowMs)
    (hroot : RootUnder crypto store nowMs delegation.authority snapshot first root) :
    Chain crypto store trust nowMs snapshot (events ++ [last] ++ [first]) root.authority
  | delegated {snapshot : RegistrySnapshot} {events : List SignedRegistryEvent} {link : Authority}
    {signed : SignedRegistryEvent} {delegation : NamespaceDelegation}
    (h : Chain crypto store trust nowMs snapshot events link)
    (hdelegation : DelegatedUnder crypto link snapshot signed delegation) :
    Chain crypto store trust nowMs snapshot (events ++ [signed]) delegation.authority

/-- An authority publishes a profile of a namespace inside its scope. -/
structure PublishedUnder (crypto : Crypto) (link : Authority) (snapshot : RegistrySnapshot)
    (signed : SignedRegistryEvent) (publication : ProfilePublication) : Prop where
  stored : signed ∈ snapshot.events
  body : signed.event.body = .publishProfile publication
  within : isWithinScope publication.namespace link.scope = true
  follows : Follows crypto link signed publication.profile.issuedAt publication.profile.expiresAt

def Exported (crypto : Crypto) (store : RegistryStore) (trust : RegistryTrust) (nowMs : UInt64)
    (authority : Authority) : Prop :=
  ∃ snapshot events last delegation, authority = delegation.authority ∧
    Chain crypto store trust nowMs snapshot (events ++ [last]) delegation.authority ∧
    last.event.body = .namespaceDelegation delegation ∧ delegation.authority.ValidAt nowMs

def Anchors (crypto : Crypto) (store : RegistryStore) (trust : RegistryTrust) (nowMs : UInt64)
    (authority : Authority) : Prop :=
  (∃ pin ∈ trust.roots, authority = pin.authority) ∨ Exported crypto store trust nowMs authority

/-! ## Events -/

lemma signedBy_of_verifyEventSignature {u : Unit} (h : verifyEventSignature crypto signed = .ok u) :
    SignedBy crypto signed.event.signerPublicKey signed := by
  simp only [verifyEventSignature, bind_eq_ok, ensure_eq_ok] at h
  obtain ⟨_, -, _, -, preimage, hpreimage, hverifies⟩ := h
  exact ⟨rfl, preimage, hpreimage, hverifies⟩

lemma follows_of_authorizes {link : Authority}
    (hsigned : SignedBy crypto signed.event.signerPublicKey signed)
    (h : link.authorizes signed.event.namespace signed.event.signerPublicKey
      signed.event.issuedAtMs = true)
    (hinterval : link.containsInterval validFromMs expiresAtMs = true) :
    isWithinScope signed.event.namespace link.scope = true ∧
      Follows crypto link signed validFromMs expiresAtMs := by
  simp only [Authority.authorizes, Bool.and_eq_true, decide_eq_true_eq] at h
  simp only [Authority.containsInterval, Bool.and_eq_true, decide_eq_true_eq] at hinterval
  obtain ⟨⟨⟨hkey, hwithin⟩, hfrom⟩, huntil⟩ := h
  rw [← hkey] at hsigned
  exact ⟨hwithin, hsigned, ⟨hfrom, huntil⟩, hinterval.1, hinterval.2⟩

/-- Some authority that signs an event also covers an interval. -/
lemma exists_follows {s : SnapshotState}
    (hsigned : SignedBy crypto signed.event.signerPublicKey signed)
    (h : ((s.authorities.filter fun authority => authority.authorizes signed.event.namespace
      signed.event.signerPublicKey signed.event.issuedAtMs).any fun authority =>
        authority.containsInterval validFromMs expiresAtMs) = true) :
    ∃ link ∈ s.authorities, isWithinScope signed.event.namespace link.scope = true ∧
      Follows crypto link signed validFromMs expiresAtMs := by
  obtain ⟨link, hmem, hinterval⟩ := any_eq_true.1 h
  obtain ⟨hmem, hauthorizes⟩ := mem_filter.1 hmem
  exact ⟨link, hmem, follows_of_authorizes hsigned hauthorizes hinterval⟩

lemma rootUnder_of_verifyRoot (hstored : snapshot ∈ store.snapshots)
    (hhead : snapshot.events.head? = some first)
    (h : verifyRoot crypto nowMs first anchor = .ok root) :
    RootUnder crypto store nowMs anchor snapshot first root := by
  simp only [verifyRoot, RegistryEvent.validateShape, bind_eq_ok, ensure_eq_ok] at h
  obtain ⟨_, ⟨_, -, _, -, _, -, hvalid⟩, _, -, _, hsignature, root', hbody, _,
    ⟨-, hsigner, hissued⟩, _, hanchor, _, hnow, hroot⟩ := h
  cases hroot
  have hbody : first.event.body = .namespaceRoot root := by
    unfold rootOf at hbody
    split at hbody
    · next heq =>
      cases hbody
      exact heq
    · cases hbody
  have hinterval : root.validFromMs < root.expiresAtMs := by
    rw [hbody] at hvalid
    simp only [validate, NamespaceRoot.validate, validateValidity, bind_eq_ok,
      ensure_eq_ok] at hvalid
    obtain ⟨_, -, _, -, hlt⟩ := hvalid
    exact hlt
  simp only [Authority.authorizesRoot, Bool.and_eq_true, decide_eq_true_eq] at hanchor
  obtain ⟨⟨⟨⟨⟨hkey, hscope⟩, hfrom⟩, huntil⟩, -⟩, -⟩ := hanchor
  have hsigned := signedBy_of_verifyEventSignature hsignature
  rw [hsigner, ← hkey] at hsigned
  refine ⟨hstored, hhead, hbody, hscope, hkey.symm, ⟨hsigned, ?_, hfrom, huntil⟩, hnow⟩
  rw [hissued]
  exact ⟨hfrom, by grind⟩

/-! ## Snapshots -/

/-- A profile published in a list of events whose other publications there are of earlier
generations. -/
structure Latest (published : List SignedRegistryEvent) (signed : SignedRegistryEvent)
    (publication : ProfilePublication) : Prop where
  mem : signed ∈ published
  body : signed.event.body = .publishProfile publication
  latest : ∀ other ∈ published, ∀ p, other.event.body = .publishProfile p →
    p.key = publication.key →
    other = signed ∨ p.profile.profileGeneration < publication.profile.profileGeneration

/-- The profiles are the latest publications of a list of events, each at the end of a chain. -/
structure Backed (crypto : Crypto) (store : RegistryStore) (trust : RegistryTrust) (nowMs : UInt64)
    (snapshot : RegistrySnapshot) (done : List SignedRegistryEvent)
    (profiles : Table RegistryProfileKey VerifiedRegistryProfile) : Prop where
  chains : ∀ key profile, profiles.lookup key = some profile →
    key = profile.publication.key ∧ ∃ signed events link,
      Latest done signed profile.publication ∧
      Chain crypto store trust nowMs snapshot events link ∧
      PublishedUnder crypto link snapshot signed profile.publication
  published : ∀ signed ∈ done, ∀ publication, signed.event.body = .publishProfile publication →
    publication.key ∈ profiles

structure Sound (crypto : Crypto) (store : RegistryStore) (trust : RegistryTrust) (nowMs : UInt64)
    (snapshot : RegistrySnapshot) (done : List SignedRegistryEvent) (s : SnapshotState) : Prop where
  authorities : ∀ a ∈ s.authorities, ∃ events, Chain crypto store trust nowMs snapshot events a
  active : ∀ a ∈ s.activeDelegations, Exported crypto store trust nowMs a
  backed : Backed crypto store trust nowMs snapshot done s.profiles

variable {publication : ProfilePublication}

section Step

variable {snapshot : RegistrySnapshot} {done : List SignedRegistryEvent} {s s' : SnapshotState}
  {signed : SignedRegistryEvent} {authorizing : List Authority}

lemma Latest.append {other : SignedRegistryEvent} (h : Latest done other publication)
    (hnew : ∀ p, signed.event.body = .publishProfile p → p.key ≠ publication.key) :
    Latest (done ++ [signed]) other publication := by
  refine ⟨mem_append_left _ h.mem, h.body, ?_⟩
  intro event hevent p hbody hkey
  rcases mem_append.1 hevent with hevent | hevent
  · exact h.latest event hevent p hbody hkey
  · obtain rfl := mem_singleton.1 hevent
    exact absurd hkey (hnew p hbody)

lemma Sound.admitDelegation (h : Sound crypto store trust nowMs snapshot done s)
    (hstored : signed ∈ snapshot.events) {delegation : NamespaceDelegation}
    (hbody : signed.event.body = .namespaceDelegation delegation)
    (hvalid : delegation.validate = .ok ())
    (hsigned : SignedBy crypto signed.event.signerPublicKey signed)
    (hstep : admitDelegation nowMs s signed.event (s.authorities.filter fun authority =>
      authority.authorizes signed.event.namespace signed.event.signerPublicKey
        signed.event.issuedAtMs) delegation = .ok s') :
    Sound crypto store trust nowMs snapshot (done ++ [signed]) s' := by
  simp only [Registry.admitDelegation, bind_eq_ok, ensure_eq_ok] at hstep
  obtain ⟨_, hparent, _, ⟨-, hinterval⟩, hs'⟩ := hstep
  cases hs'
  simp only [NamespaceDelegation.validate, bind_eq_ok, ensure_eq_ok] at hvalid
  obtain ⟨_, -, _, -, _, -, _, hstrict, -⟩ := hvalid
  obtain ⟨link, hlink, hwithin, hfollows⟩ := exists_follows hsigned hinterval
  obtain ⟨events, hchain⟩ := h.authorities link hlink
  rw [hparent] at hwithin
  have hnew : Chain crypto store trust nowMs snapshot (events ++ [signed]) delegation.authority :=
    .delegated hchain ⟨hstored, hbody, hwithin, hstrict,
      isStrictDescendant_of_isWithinScope hstrict hwithin, hfollows⟩
  have hnone : ∀ p, signed.event.body ≠ .publishProfile p := by simp [hbody]
  refine ⟨?_, ?_, ?_, ?_⟩
  · intro a ha
    rcases mem_append.1 ha with ha | ha
    · exact h.authorities a ha
    · obtain rfl := mem_singleton.1 ha
      exact ⟨_, hnew⟩
  · intro a ha
    split at ha
    · next hactive =>
      rcases mem_append.1 ha with ha | ha
      · exact h.active a ha
      · obtain rfl := mem_singleton.1 ha
        exact ⟨snapshot, events, signed, delegation, rfl, hnew, hbody, hactive⟩
    · exact h.active a ha
  · intro key profile hprofile
    obtain ⟨hkey, other, events, link, hlatest, hrest⟩ := h.backed.chains key profile hprofile
    exact ⟨hkey, other, events, link, hlatest.append fun p hp => absurd hp (hnone p), hrest⟩
  · intro event hevent p hp
    rcases mem_append.1 hevent with hevent | hevent
    · exact h.backed.published event hevent p hp
    · obtain rfl := mem_singleton.1 hevent
      exact absurd hp (hnone p)

lemma Sound.admitPublication (h : Sound crypto store trust nowMs snapshot done s)
    (hstored : signed ∈ snapshot.events) (hbody : signed.event.body = .publishProfile publication)
    (hsigned : SignedBy crypto signed.event.signerPublicKey signed)
    (hstep : admitPublication crypto nowMs s signed (s.authorities.filter fun authority =>
      authority.authorizes signed.event.namespace signed.event.signerPublicKey
        signed.event.issuedAtMs) publication = .ok s') :
    Sound crypto store trust nowMs snapshot (done ++ [signed]) s' := by
  simp only [Registry.admitPublication, bind_eq_ok, ensure_eq_ok] at hstep
  obtain ⟨_, hnamespace, _, -, _, ⟨-, -, hinterval⟩, _, hgeneration, digest, -, hs'⟩ := hstep
  cases hs'
  obtain ⟨link, hlink, hwithin, hfollows⟩ := exists_follows hsigned hinterval
  obtain ⟨events, hchain⟩ := h.authorities link hlink
  rw [hnamespace] at hwithin
  -- Every earlier publication of the node is older than the one it replaces, or is that one.
  have hlatest : Latest (done ++ [signed]) signed publication := by
    refine ⟨by simp, hbody, ?_⟩
    intro other hother p hp hkey
    rcases mem_append.1 hother with hother | hother
    · right
      obtain ⟨existing, hexisting⟩ := mem_iff.1 (h.backed.published other hother p hp)
      obtain ⟨hkey', replaced, _, _, hreplaced, -⟩ := h.backed.chains _ _ hexisting
      rw [hkey] at hexisting
      rw [hexisting] at hgeneration
      simp only [checkGeneration, bind_eq_ok, ensure_eq_ok] at hgeneration
      obtain ⟨_, hle, hne⟩ := hgeneration
      have hlt : existing.publication.profile.profileGeneration <
          publication.profile.profileGeneration := by grind
      rcases hreplaced.latest other hother p hp hkey' with rfl | hlt'
      · rw [hreplaced.body] at hp
        cases hp
        exact hlt
      · grind
    · left
      exact mem_singleton.1 hother
  refine ⟨h.authorities, h.active, ?_, ?_⟩
  · intro key profile hprofile
    rw [lookup_insert_eq_ite] at hprofile
    split at hprofile
    · next hkey =>
      cases hprofile
      exact ⟨hkey, signed, events, link, hlatest, hchain, hstored, hbody, hwithin, hfollows⟩
    rename_i hne
    obtain ⟨hkey, other, events, link, hother, hrest⟩ := h.backed.chains key profile hprofile
    refine ⟨hkey, other, events, link, hother.append ?_, hrest⟩
    intro p hp heq
    rw [hbody] at hp
    cases hp
    exact hne (hkey.trans heq.symm)
  · intro event hevent p hp
    rw [AList.mem_insert]
    rcases mem_append.1 hevent with hevent | hevent
    · exact .inr (h.backed.published event hevent p hp)
    obtain rfl := mem_singleton.1 hevent
    rw [hbody] at hp
    cases hp
    exact .inl rfl

lemma Sound.verifyEvent {index : ℕ} (h : Sound crypto store trust nowMs snapshot done s)
    (hstored : signed ∈ snapshot.events)
    (hstep : verifyEvent crypto nowMs s (signed, index) = .ok s') :
    Sound crypto store trust nowMs snapshot (done ++ [signed]) s' := by
  simp only [Registry.verifyEvent, RegistryEvent.validateShape, bind_eq_ok, ensure_eq_ok] at hstep
  obtain ⟨_, ⟨_, -, _, -, _, -, hvalid⟩, _, -, _, -, _, -, _, -, _, hsignature, _, -, s₁, hbody,
    digest, -, hs'⟩ := hstep
  cases hs'
  have hsigned := signedBy_of_verifyEventSignature hsignature
  have hsound : Sound crypto store trust nowMs snapshot (done ++ [signed]) s₁ := by
    unfold admitBody at hbody
    split at hbody
    · cases hbody
    · next delegation heq =>
      rw [heq] at hvalid
      exact h.admitDelegation hstored heq hvalid hsigned hbody
    · next publication heq => exact h.admitPublication hstored heq hsigned hbody
  exact { hsound with }

lemma Sound.run {l : List (SignedRegistryEvent × ℕ)}
    (hstep : l.foldlM (Registry.verifyEvent crypto nowMs) s = .ok s')
    (hstored : ∀ e ∈ l, e.1 ∈ snapshot.events)
    (h : Sound crypto store trust nowMs snapshot done s) :
    Sound crypto store trust nowMs snapshot (done ++ l.map Prod.fst) s' := by
  induction l generalizing done s with
  | nil =>
    rw [map_nil, append_nil]
    exact Except.ok.inj hstep ▸ h
  | cons e l ih =>
    rw [foldlM_cons] at hstep
    obtain ⟨s₁, hs₁, hstep⟩ := bind_eq_ok.1 hstep
    have hnext := h.verifyEvent (hstored e mem_cons_self) hs₁
    have hrun := ih hstep (fun e' he' => hstored e' (mem_cons_of_mem e he')) hnext
    rwa [append_assoc] at hrun

end Step

variable {checked : SnapshotVerification}

lemma backed_of_verifySnapshot
    (hstored : snapshot ∈ store.snapshots) (hanchor : Anchors crypto store trust nowMs anchor)
    (h : verifySnapshot crypto nowMs staleness snapshot anchor = .ok checked) :
    (∀ a ∈ checked.activeDelegations, Exported crypto store trust nowMs a) ∧
      Backed crypto store trust nowMs snapshot snapshot.events checked.profiles := by
  simp only [verifySnapshot, bind_eq_ok] at h
  obtain ⟨_, -, h⟩ := h
  split at h
  · cases h
  rename_i first rest hevents
  simp only [bind_eq_ok] at h
  obtain ⟨root, hroot, digest, -, s, hrun, _, -, hchecked⟩ := h
  cases hchecked
  have hunder := rootUnder_of_verifyRoot hstored (by simp [hevents]) hroot
  have hchain : ∃ events, Chain crypto store trust nowMs snapshot events root.authority := by
    rcases hanchor with ⟨pin, hpin, rfl⟩ | ⟨source, events, last, delegation, rfl, h, hlast, hnow⟩
    · exact ⟨_, .pinned hpin hunder⟩
    · exact ⟨_, .crossing h hlast hnow hunder⟩
  obtain ⟨events, hchain⟩ := hchain
  -- The interval of a root lies in that of its anchor already.
  have hmax : max root.validFromMs anchor.validFromMs = root.validFromMs := by
    have hstarts := hunder.follows.starts
    change (if root.validFromMs ≤ anchor.validFromMs then _ else _) = _
    split <;> grind
  have hmin : min root.expiresAtMs anchor.expiresAtMs = root.expiresAtMs := by
    have hends := hunder.follows.ends
    change (if root.expiresAtMs ≤ anchor.expiresAtMs then _ else _) = _
    rw [if_pos hends]
  have hstart : Sound crypto store trust nowMs snapshot [first]
      ⟨[⟨root.namespace, root.rootPublicKey, max root.validFromMs anchor.validFromMs,
        min root.expiresAtMs anchor.expiresAtMs⟩], [], ∅, digest, first.event.issuedAtMs⟩ := by
    rw [hmax, hmin]
    refine ⟨?_, by simp, by rintro _ _ ⟨⟩, ?_⟩
    · intro a ha
      obtain rfl := mem_singleton.1 ha
      exact ⟨events, hchain⟩
    intro signed hsigned publication hbody
    obtain rfl := mem_singleton.1 hsigned
    rw [hunder.body] at hbody
    cases hbody
  have hsound := Sound.run hrun (fun e he => by
    rw [hevents]
    exact mem_cons_of_mem first (fst_mem_of_mem_zipIdx he)) hstart
  rw [zipIdx_map_fst, singleton_append, ← hevents] at hsound
  exact ⟨hsound.active, hsound.backed⟩

/-! ## Stores -/

/-- The passes keep verified snapshots backed, and the snapshots together make up the store. -/
structure Resolved (crypto : Crypto) (store : RegistryStore) (trust : RegistryTrust)
    (nowMs : UInt64) (r : Resolution)
    (remaining : List (RegistrySnapshot × String × RegistryPublicKey)) : Prop where
  anchors : ∀ a ∈ r.authorities, Anchors crypto store trust nowMs a
  verified : ∃ pairs : List (RegistrySnapshot × SnapshotVerification),
    pairs.map Prod.snd = r.verified ∧
      (pairs.map Prod.fst ++ (r.unresolved ++ remaining).map Prod.fst).Perm store.snapshots ∧
      ∀ p ∈ pairs, Backed crypto store trust nowMs p.1 p.1.events p.2.profiles

variable {r' r : Resolution}

lemma Resolved.visit {entry : RegistrySnapshot × String × RegistryPublicKey}
    {remaining : List (RegistrySnapshot × String × RegistryPublicKey)}
    (h : Resolved crypto store trust nowMs r (entry :: remaining))
    (hstep : visit crypto nowMs staleness r entry = .ok r') :
    Resolved crypto store trust nowMs r' remaining := by
  obtain ⟨pairs, hpairs, hperm, hbacked⟩ := h.verified
  obtain ⟨snapshot, root, publicKey⟩ := entry
  unfold Registry.visit at hstep
  dsimp only at hstep
  split at hstep
  · cases hstep
    exact ⟨h.anchors, pairs, hpairs, by simpa using hperm, hbacked⟩
  rename_i anchor hfind
  obtain ⟨checked, hchecked, hr'⟩ := bind_eq_ok.1 hstep
  cases hr'
  have hstored : snapshot ∈ store.snapshots := hperm.mem_iff.1 (by simp)
  obtain ⟨hactive, hnew⟩ := backed_of_verifySnapshot hstored
    (h.anchors anchor (mem_of_find?_eq_some hfind)) hchecked
  refine ⟨?_, pairs ++ [(snapshot, checked)], by simp [hpairs], ?_, ?_⟩
  · intro a ha
    rcases mem_append.1 ha with ha | ha
    · exact h.anchors a ha
    · exact .inr (hactive a ha)
  · refine List.Perm.trans ?_ hperm
    simp only [map_append, map_cons, map_nil, append_assoc, singleton_append]
    apply List.Perm.append_left
    exact perm_middle.symm
  intro p hp
  rcases mem_append.1 hp with hp | hp
  · exact hbacked p hp
  · obtain rfl := mem_singleton.1 hp
    exact hnew

lemma Resolved.pass {l : List (RegistrySnapshot × String × RegistryPublicKey)}
    (hstep : l.foldlM (Registry.visit crypto nowMs staleness) r = .ok r')
    (h : Resolved crypto store trust nowMs r l) : Resolved crypto store trust nowMs r' [] := by
  induction l generalizing r with
  | nil => exact Except.ok.inj hstep ▸ h
  | cons entry l ih =>
    rw [foldlM_cons] at hstep
    obtain ⟨r₁, hr₁, hstep⟩ := bind_eq_ok.1 hstep
    exact ih hstep (h.visit hr₁)

/-- The passes end when every snapshot is verified. -/
lemma Resolved.resolve {fuel : ℕ} (hstep : resolve crypto nowMs staleness fuel r = .ok r')
    (hfuel : r.unresolved.length ≤ fuel) (h : Resolved crypto store trust nowMs r []) :
    Resolved crypto store trust nowMs r' [] ∧ r'.unresolved = [] := by
  induction fuel generalizing r with
  | zero =>
    cases hstep
    exact ⟨h, length_eq_zero_iff.1 (Nat.le_zero.1 hfuel)⟩
  | succ fuel ih =>
    unfold Registry.resolve at hstep
    split at hstep
    · next hnil =>
      cases hstep
      exact ⟨h, hnil⟩
    simp only [bind_eq_ok, ensure_eq_ok] at hstep
    obtain ⟨r₁, hpass, _, hless, hrest⟩ := hstep
    refine ih hrest (by omega) (Resolved.pass hpass ⟨h.anchors, ?_⟩)
    obtain ⟨pairs, hpairs, hperm, hbacked⟩ := h.verified
    exact ⟨pairs, hpairs, by simpa using hperm, hbacked⟩

/-! ## Merging -/

variable {profiles' profiles : Table RegistryProfileKey VerifiedRegistryProfile}

/-- The entries that are merged are new, and nothing else is added. -/
lemma mergeProfile_fold {l : List ((_ : RegistryProfileKey) × VerifiedRegistryProfile)}
    (h : l.foldlM mergeProfile profiles = .ok profiles') :
    (∀ key profile, profiles'.lookup key = some profile →
      profiles.lookup key = some profile ∨ ⟨key, profile⟩ ∈ l) ∧
    (∀ key ∈ profiles, key ∈ profiles') ∧ ∀ e ∈ l, e.1 ∉ profiles ∧ e.1 ∈ profiles' := by
  induction l generalizing profiles with
  | nil =>
    cases h
    exact ⟨fun _ _ hp => .inl hp, fun _ hk => hk, nofun⟩
  | cons e l ih =>
    rw [foldlM_cons] at h
    obtain ⟨profiles₁, hmerge, h⟩ := bind_eq_ok.1 h
    unfold mergeProfile at hmerge
    dsimp only at hmerge
    split at hmerge
    · next hnone =>
      cases hmerge
      obtain ⟨hfrom, hkeep, hnew⟩ := ih h
      refine ⟨?_, fun key hkey => hkeep key ((AList.mem_insert _).2 (.inr hkey)), ?_⟩
      · intro key profile hp
        rcases hfrom key profile hp with hp | hp
        · rw [lookup_insert_eq_ite] at hp
          split at hp
          · next heq =>
            cases hp
            subst heq
            exact .inr mem_cons_self
          · exact .inl hp
        · exact .inr (mem_cons_of_mem e hp)
      · intro e' he'
        rcases mem_cons.1 he' with rfl | he'
        · exact ⟨AList.lookup_eq_none.1 hnone, hkeep _ ((AList.mem_insert _).2 (.inl rfl))⟩
        · obtain ⟨hout, hin⟩ := hnew e' he'
          exact ⟨fun hmem => hout ((AList.mem_insert _).2 (.inr hmem)), hin⟩
    · cases hmerge

/-- Merging keeps the profiles of the snapshots, no two of which share a key. -/
structure Merged (done : List SnapshotVerification)
    (profiles : Table RegistryProfileKey VerifiedRegistryProfile) : Prop where
  origin : ∀ key profile, profiles.lookup key = some profile →
    ∃ checked ∈ done, checked.profiles.lookup key = some profile
  kept : ∀ checked ∈ done, ∀ key ∈ checked.profiles, key ∈ profiles
  apart : done.Pairwise fun a b => ∀ key ∈ a.profiles, key ∉ b.profiles

lemma Merged.mergeSnapshot {done : List SnapshotVerification}
    (h : Merged done profiles) (hstep : mergeSnapshot profiles checked = .ok profiles') :
    Merged (done ++ [checked]) profiles' := by
  obtain ⟨hfrom, hkeep, hnew⟩ := mergeProfile_fold hstep
  have hnew : ∀ key ∈ checked.profiles, key ∉ profiles ∧ key ∈ profiles' := by
    intro key hkey
    obtain ⟨profile, hprofile⟩ := mem_iff.1 hkey
    exact hnew ⟨key, profile⟩ (mem_sortBy.2 (mem_entries.2 hprofile))
  refine ⟨?_, ?_, ?_⟩
  · intro key profile hprofile
    rcases hfrom key profile hprofile with hold | hmem
    · obtain ⟨c, hc, hlookup⟩ := h.origin key profile hold
      exact ⟨c, mem_append_left _ hc, hlookup⟩
    · exact ⟨checked, by simp, mem_entries.1 (mem_sortBy.1 hmem)⟩
  · intro c hc key hkey
    rcases mem_append.1 hc with hc | hc
    · exact hkeep key (h.kept c hc key hkey)
    · obtain rfl := mem_singleton.1 hc
      exact (hnew key hkey).2
  rw [pairwise_append]
  refine ⟨h.apart, pairwise_singleton _ _, ?_⟩
  intro c hc c' hc' key hkey hkey'
  obtain rfl := mem_singleton.1 hc'
  exact (hnew key hkey').1 (h.kept c hc key hkey)

lemma length_rootIdentities {snapshots : List RegistrySnapshot} {names : List String}
    {identities : List (String × RegistryPublicKey)}
    (h : rootIdentities snapshots names = .ok identities) :
    identities.length = snapshots.length := by
  induction snapshots generalizing names identities with
  | nil =>
    cases h
    rfl
  | cons snapshot rest ih =>
    simp only [rootIdentities, bind_eq_ok, ensure_eq_ok] at h
    obtain ⟨identity, -, _, -, others, hothers, h⟩ := h
    cases h
    simp [ih hothers]

/-- Every profile of a verified registry ends a chain of signed events from a pinned root, is the
latest of its node, and is published in one snapshot only. -/
theorem verified_profile_has_chain {registry : VerifiedRegistry}
    (h : verifyRegistryStore crypto nowMs staleness store trust = .ok registry)
    {key : RegistryProfileKey} {profile : VerifiedRegistryProfile}
    (hprofile : registry.profiles.lookup key = some profile) :
    key = profile.publication.key ∧ ∃ snapshot ∈ store.snapshots, ∃ signed events link,
      Chain crypto store trust nowMs snapshot events link ∧
      PublishedUnder crypto link snapshot signed profile.publication ∧
      Latest snapshot.events signed profile.publication ∧
      ∀ other ∈ store.snapshots, other ≠ snapshot → ∀ event ∈ other.events, ∀ publication,
        event.event.body = .publishProfile publication → publication.key ≠ key := by
  simp only [verifyRegistryStore, bind_eq_ok, ensure_eq_ok] at h
  obtain ⟨_, -, _, -, identities, hidentities, _, -, r, hresolve, profiles, hmerge, hregistry⟩ := h
  cases hregistry
  have hlength := length_rootIdentities hidentities
  have hstart : Resolved crypto store trust nowMs
      ⟨trust.roots.map (·.authority), [], store.snapshots.zip identities⟩ [] := by
    refine ⟨?_, [], rfl, ?_, by simp⟩
    · intro a ha
      obtain ⟨pin, hpin, rfl⟩ := mem_map.1 ha
      exact .inl ⟨pin, hpin, rfl⟩
    · simp [map_fst_zip, hlength]
  obtain ⟨hresolved, hdone⟩ := Resolved.resolve hresolve (by simp [hlength]) hstart
  obtain ⟨pairs, hpairs, hperm, hbacked⟩ := hresolved.verified
  simp only [hdone, map_nil, append_nil] at hperm
  have hmerged : Merged ([] ++ r.verified) profiles := by
    apply foldlM_history hmerge ⟨by rintro _ _ ⟨⟩, by simp, .nil⟩
    intro done checked b b' hb' hb
    exact hb.mergeSnapshot hb'
  rw [nil_append, ← hpairs] at hmerged
  obtain ⟨checked, hchecked, hlookup⟩ := hmerged.origin key profile hprofile
  obtain ⟨⟨snapshot, checked⟩, hpair, rfl⟩ := mem_map.1 hchecked
  obtain ⟨hkey, signed, events, link, hlatest, hchain, hpublished⟩ :=
    (hbacked _ hpair).chains key profile hlookup
  refine ⟨hkey, snapshot, hperm.mem_iff.1 (mem_map_of_mem hpair), signed, events, link,
    hchain, hpublished, hlatest, ?_⟩
  -- Another snapshot that publishes the key would have been merged under the same key.
  intro other hother hne event hevent publication hbody heq
  obtain ⟨⟨other, checked'⟩, hpair', rfl⟩ := mem_map.1 (hperm.mem_iff.2 hother)
  have hmem' := (hbacked _ hpair').published event hevent publication hbody
  have happart : pairs.Pairwise fun a b => ∀ k, ¬(k ∈ a.2.profiles ∧ k ∈ b.2.profiles) := by
    have hapart := pairwise_map.1 hmerged.apart
    exact hapart.imp fun hab k hk => hab k hk.1 hk.2
  have hsymm : Std.Symm fun a b : RegistrySnapshot × SnapshotVerification =>
      ∀ k, ¬(k ∈ a.2.profiles ∧ k ∈ b.2.profiles) := ⟨fun _ _ hab k hk => hab k hk.symm⟩
  refine happart.forall hpair' hpair (fun hsame => hne (congrArg Prod.fst hsame)) key ⟨?_, ?_⟩
  · exact heq ▸ hmem'
  · exact mem_iff.2 ⟨profile, hlookup⟩

/-! A pinned root delegates a namespace, under which another snapshot publishes a profile. -/

def sampleCrypto : Crypto where
  canonicalEvent _ := .ok []
  canonicalSignedEvent _ := .ok []
  sha256 _ := .replicate 32 0
  publicKeyId key := key
  isVerifyingKey _ := true
  verifyStrict _ _ _ := true

def sampleKey (n : UInt8) : RegistryPublicKey := .replicate 32 n

def sampleEvent (sequence : UInt64) (scope : String) (n : UInt8) (body : RegistryEventBody) :
    SignedRegistryEvent :=
  ⟨⟨1, sequence, if sequence = 1 then none else some (.replicate 32 0), 10, scope, sampleKey n,
    body⟩, .replicate 64 0⟩

def samplePublication : ProfilePublication :=
  ⟨1, "a/b", "n", ⟨"n", hexEncode (sampleKey 2).toList, 1, 10, 20, []⟩⟩

def sampleStore : RegistryStore :=
  ⟨1, [⟨1, [sampleEvent 1 "a" 1 (.namespaceRoot ⟨1, "a", sampleKey 1, 10, 40⟩),
      sampleEvent 2 "a" 1 (.namespaceDelegation ⟨1, "a", "a/b", sampleKey 2, 10, 30⟩)]⟩,
    ⟨1, [sampleEvent 1 "a/b" 2 (.namespaceRoot ⟨1, "a/b", sampleKey 2, 10, 30⟩),
      sampleEvent 2 "a/b" 2 (.publishProfile samplePublication)]⟩]⟩

def sampleTrust : RegistryTrust := ⟨1, [⟨"a", sampleKey 1⟩]⟩

theorem sample_profile_has_chain : ∃ snapshot ∈ sampleStore.snapshots, ∃ signed events link,
    Chain sampleCrypto sampleStore sampleTrust 15 snapshot events link ∧
    PublishedUnder sampleCrypto link snapshot signed samplePublication := by
  have hverify : ∃ registry,
      verifyRegistryStore sampleCrypto 15 .reject sampleStore sampleTrust = .ok registry ∧
      registry.profiles.lookup ⟨"a/b", "n"⟩ =
        some ⟨samplePublication, .replicate 32 0, 10, 20, false⟩ := ⟨_, rfl, rfl⟩
  obtain ⟨registry, hregistry, hprofile⟩ := hverify
  obtain ⟨-, snapshot, hstored, signed, events, link, hchain, hpublished, -⟩ :=
    verified_profile_has_chain hregistry hprofile
  exact ⟨snapshot, hstored, signed, events, link, hchain, hpublished⟩

end Ostadix.Registry
