import Ostadix.Renderer

/-! A renderer that runs on another node gives the text it gives here. -/

namespace Ostadix

open Wire PortableOValue List

/-! ## Loops over the parts of a value -/

lemma exists_of_forall₂ {α β : Type} {R : α → β → Prop} {l : List α} {m : List β}
    (h : List.Forall₂ R l m) {a : α} (ha : a ∈ l) : ∃ b ∈ m, R a b := by
  induction h with
  | nil => cases ha
  | cons hab _ ih =>
    rcases mem_cons.1 ha with rfl | ha
    · exact ⟨_, mem_cons_self, hab⟩
    · obtain ⟨b, hb, hR⟩ := ih ha
      exact ⟨b, mem_cons_of_mem _ hb, hR⟩

lemma tryFromItems_eq_mapM (items : List OValue) : tryFromItems items = items.mapM tryFrom := by
  induction items with
  | nil => rfl
  | cons item items ih => rw [tryFromItems, mapM_cons, ih]

def tryFromField (field : String × OValue) : Except HostedValueError (String × PortableOValue) := do
  return (field.1, ← tryFrom field.2)

lemma tryFromFields_eq_mapM (fields : List (String × OValue)) :
    tryFromFields fields = fields.mapM tryFromField := by
  induction fields with
  | nil => rfl
  | cons field fields ih =>
    rw [tryFromFields, mapM_cons, ih, tryFromField, bind_assoc]
    rfl

def tryFromEntry (entry : OValue × OValue) :
    Except HostedValueError (PortableOValue × PortableOValue) := do
  return (← tryFrom entry.1, ← tryFrom entry.2)

lemma tryFromEntries_eq_mapM (entries : List (OValue × OValue)) :
    tryFromEntries entries = entries.mapM tryFromEntry := by
  induction entries with
  | nil => rfl
  | cons entry entries ih =>
    rw [tryFromEntries, mapM_cons, ih, tryFromEntry, bind_assoc]
    congr 1
    funext key
    rw [bind_assoc]
    rfl

lemma lowerItems_eq_mapM (values : List PortableOValue) :
    lowerItems values = values.mapM lowerRendererValue := by
  induction values with
  | nil => rfl
  | cons value values ih => rw [lowerItems, mapM_cons, ih]

def lowerField (field : String × PortableOValue) : Except LowerError (String × OValue) := do
  return (field.1, ← lowerRendererValue field.2)

lemma lowerFields_eq_mapM (fields : List (String × PortableOValue)) :
    lowerFields fields = fields.mapM lowerField := by
  induction fields with
  | nil => rfl
  | cons field fields ih =>
    rw [lowerFields, mapM_cons, ih, lowerField, bind_assoc]
    rfl

def lowerEntry (entry : PortableOValue × PortableOValue) : Except LowerError (OValue × OValue) := do
  return (← lowerRendererValue entry.1, ← lowerRendererValue entry.2)

lemma lowerEntries_eq_mapM (entries : List (PortableOValue × PortableOValue)) :
    lowerEntries entries = entries.mapM lowerEntry := by
  induction entries with
  | nil => rfl
  | cons entry entries ih =>
    rw [lowerEntries, mapM_cons, ih, lowerEntry, bind_assoc]
    congr 1
    funext key
    rw [bind_assoc]
    rfl

section Render

variable (formatting : Formatting) (style : Style)

lemma renderItems_eq_map (items : List OValue) :
    renderItems formatting style items = items.map (render formatting style) := by
  induction items with
  | nil => rfl
  | cons item items ih => rw [renderItems, map_cons, ih]

def renderField (field : String × OValue) : String × String :=
  (field.1, render formatting style field.2)

lemma renderFields_eq_map (fields : List (String × OValue)) :
    renderFields formatting style fields = fields.map (renderField formatting style) := by
  induction fields with
  | nil => rfl
  | cons field fields ih =>
    rw [renderFields, map_cons, ih]
    rfl

def renderEntry (entry : OValue × OValue) : String × String :=
  (render formatting style entry.1, render formatting style entry.2)

lemma renderEntries_eq_map (entries : List (OValue × OValue)) :
    renderEntries formatting style entries = entries.map (renderEntry formatting style) := by
  induction entries with
  | nil => rfl
  | cons entry entries ih =>
    rw [renderEntries, map_cons, ih]
    rfl

end Render

/-! ## The order of entries -/

def nodeOrder (key : PortableOValue) : List ℕ :=
  match key.encodeOneNode with
  | .error _ => []
  | .ok encoded => byteOrder encoded

/-- Where the portable conversion puts an entry with this key. -/
def keyOrder (key : OValue) : List ℕ :=
  match tryFrom key with
  | .error _ => []
  | .ok portable => nodeOrder portable

def InOrder : OValue → Prop
  | .object fields => (fields.map fun field => textOrder field.1).Pairwise (· ≤ ·)
  | .entriesMap entries => (entries.map fun entry => keyOrder entry.1).Pairwise (· ≤ ·)
  | _ => True

def Arranged (value : OValue) : Prop := ∀ part, OValue.Occurs part value → InOrder part

lemma Arranged.child {value part : OValue} (h : Arranged value) (hpart : part ∈ value.children) :
    Arranged part :=
  fun inner hinner => h inner (.step hpart hinner)

variable {portable : PortableOValue}

lemma checked_eq_ok {value : PortableOValue} (h : value.checked = .ok portable) :
    portable = value := by
  simp only [checked, bind_eq_ok] at h
  obtain ⟨_, _, h⟩ := h
  cases h
  rfl

variable {fields : List (String × PortableOValue)}

lemma ofFields_eq_ok
    (h : ofFields fields = .ok portable) : portable = .record (sortFields fields) := by
  simp only [ofFields, bind_eq_ok] at h
  obtain ⟨_, _, _, _, _, _, h⟩ := h
  exact checked_eq_ok h

lemma keyEntry_eq_ok {entry : PortableOValue × PortableOValue}
    {keyed : Bytes × PortableOValue × PortableOValue} (h : keyEntry entry = .ok keyed) :
    entry.1.encodeOneNode = .ok keyed.1 ∧ keyed.2 = entry := by
  simp only [keyEntry, bind_eq_ok] at h
  obtain ⟨_, _, _, _, _, _, bytes, hbytes, h⟩ := h
  cases h
  exact ⟨hbytes, rfl⟩

/-! ## Records and maps by key -/

section

variable {fields fields' : List (String × PortableOValue)}
  {entries entries' : List (PortableOValue × PortableOValue)} {portable : PortableOValue}

lemma checked_validate {value : PortableOValue} (h : value.checked = .ok portable) :
    portable.validate = .ok () ∧ portable = value := by
  obtain rfl := checked_eq_ok h
  simp only [checked, bind_eq_ok] at h
  exact ⟨h.choose_spec.1, rfl⟩

lemma keyed_entries {keyed : List (Bytes × PortableOValue × PortableOValue)}
    (hkeyed : entries.Forall₂ (fun entry k => keyEntry entry = .ok k) keyed) :
    keyed.map (·.2) = entries := by
  rw [← map_id entries]
  exact map_eq_of_forall₂ (hkeyed.flip.imp fun k c hk => (keyEntry_eq_ok hk).2)

lemma ofFields_perm (h : ofFields fields = .ok portable) (hperm : fields.Perm fields') :
    ofFields fields' = .ok portable := by
  simp only [ofFields, bind_eq_ok, forM_eq_ok, ensure_eq_ok] at h ⊢
  obtain ⟨_, hcount, _, hchecked, _, hadjacent, hvalid⟩ := h
  have hsorted : sortFields fields' = sortFields fields :=
    sortBy_perm (same_iff textOrder_injective) hadjacent hperm
  rw [hsorted, ← hperm.length_eq]
  exact ⟨(), hcount, (), fun field hmem => hchecked field (hperm.mem_iff.2 hmem), (), hadjacent,
    hvalid⟩

lemma ofEntries_perm (h : ofEntries entries = .ok portable) (hperm : entries.Perm entries') :
    ofEntries entries' = .ok portable := by
  simp only [ofEntries, bind_eq_ok, mapM_eq_ok, ensure_eq_ok] at h ⊢
  obtain ⟨_, hcount, keyed, hkeyed, _, hadjacent, hvalid⟩ := h
  obtain ⟨keyed', hkeyed', hperm'⟩ := perm_comp_forall₂ hperm.symm hkeyed
  have hsorted := sortBy_perm (same_iff byteOrder_injective) hadjacent hperm'.symm
  refine ⟨(), hperm.length_eq ▸ hcount, keyed', hkeyed', (), ?_, ?_⟩
  · rw [hsorted]
    exact hadjacent
  · rw [hsorted]
    exact hvalid

/-- Records and maps do not depend on the order of their entries, which they store by key. -/
theorem ofFields_ofEntries_perm (hfields : fields.Perm fields') (hentries : entries.Perm entries') :
    (∀ portable, ofFields fields = .ok portable ↔ ofFields fields' = .ok portable) ∧
    (∀ portable, ofEntries entries = .ok portable ↔ ofEntries entries' = .ok portable) ∧
    (∀ portable, ofFields fields = .ok portable → portable.validate = .ok () ∧
      ∃ stored, portable = .record stored ∧ stored.Perm fields ∧
        stored.Pairwise fun left right => textOrder left.1 < textOrder right.1) ∧
    ∀ portable, ofEntries entries = .ok portable → portable.validate = .ok () ∧
      ∃ stored, portable = .map stored ∧ stored.Perm entries ∧
        stored.Pairwise fun left right => ∃ key key', left.1.encodeOneNode = .ok key ∧
          right.1.encodeOneNode = .ok key' ∧ byteOrder key < byteOrder key' := by
  refine ⟨fun _ => ⟨fun h => ofFields_perm h hfields, fun h => ofFields_perm h hfields.symm⟩,
    fun _ => ⟨fun h => ofEntries_perm h hentries, fun h => ofEntries_perm h hentries.symm⟩,
    fun portable h => ?_, fun portable h => ?_⟩
  · simp only [ofFields, bind_eq_ok, ensure_eq_ok] at h
    obtain ⟨_, _, _, _, _, hadjacent, hvalid⟩ := h
    obtain ⟨hvalidate, rfl⟩ := checked_validate hvalid
    exact ⟨hvalidate, _, rfl, (sortBy_strict_iff (same_iff textOrder_injective)).1 ⟨rfl, hadjacent⟩⟩
  simp only [ofEntries, bind_eq_ok, mapM_eq_ok, ensure_eq_ok] at h
  obtain ⟨_, _, keyed, hkeyed, _, hadjacent, hvalid⟩ := h
  obtain ⟨hvalidate, rfl⟩ := checked_validate hvalid
  obtain ⟨hperm, hstrict⟩ := (sortBy_strict_iff (same_iff byteOrder_injective)).1 ⟨rfl, hadjacent⟩
  have hencoded : ∀ k ∈ keyed, k.2.1.encodeOneNode = .ok k.1 :=
    ((forall₂_and_left keyed entries).1 (hkeyed.flip.imp fun k c hk =>
      ⟨(keyEntry_eq_ok hk).2 ▸ (keyEntry_eq_ok hk).1, hk⟩)).1
  refine ⟨hvalidate, _, rfl, keyed_entries hkeyed ▸ hperm.map _, pairwise_map.2 ?_⟩
  refine hstrict.imp_of_mem fun hleft hright hlt => ?_
  exact ⟨_, _, hencoded _ (hperm.mem_iff.1 hleft), hencoded _ (hperm.mem_iff.1 hright), hlt⟩

theorem ofFields_ofEntries_perm_swap :
    ofFields [("b", null), ("a", bool true)] = .ok (.record [("a", bool true), ("b", null)]) ∧
      ofEntries [(bool true, null), (null, bool false)] =
        .ok (.map [(null, bool false), (bool true, null)]) := by
  obtain ⟨hfields, hentries, -⟩ := ofFields_ofEntries_perm
    (.swap ("a", bool true) ("b", null) []) (.swap (null, bool false) (bool true, null) [])
  exact ⟨(hfields _).2 rfl, (hentries _).2 rfl⟩

end

variable {converted : List (PortableOValue × PortableOValue)} {entries : List (OValue × OValue)}

/-- Entries whose keys are in order keep their places. -/
lemma ofEntries_eq_ok
    (horder : InOrder (.entriesMap entries)) (hconverted : tryFromEntries entries = .ok converted)
    (h : ofEntries converted = .ok portable) : portable = .map converted := by
  rw [tryFromEntries_eq_mapM, mapM_eq_ok] at hconverted
  simp only [ofEntries, bind_eq_ok, mapM_eq_ok] at h
  obtain ⟨_, _, keyed, hkeyed, _, _, h⟩ := h
  have hsame : keyed.map (·.2) = converted := keyed_entries hkeyed
  have hnodes : converted.map (fun c => nodeOrder c.1) = keyed.map fun k => byteOrder k.1 := by
    refine map_eq_of_forall₂ (hkeyed.imp fun c k hk => ?_)
    rw [nodeOrder, (keyEntry_eq_ok hk).1]
  have hkeys : entries.map (fun entry => keyOrder entry.1) =
      converted.map fun c => nodeOrder c.1 := by
    refine map_eq_of_forall₂ (hconverted.imp fun entry c hc => ?_)
    simp only [tryFromEntry, bind_eq_ok] at hc
    obtain ⟨key, hkey, value, _, hc⟩ := hc
    cases hc
    rw [keyOrder, hkey]
  have hsorted : keyed.Pairwise fun a b => byteOrder a.1 ≤ byteOrder b.1 := by
    apply pairwise_map.1
    rw [← hnodes, ← hkeys]
    exact horder
  rw [sortBy_eq_self hsorted, hsame] at h
  exact checked_eq_ok h

/-! ## Lowered values -/

section Lowered

variable {formatting : Formatting} {style : Style}

/-- A value and what the other side makes of it have the same text. -/
def Faithful (formatting : Formatting) (style : Style) (value : OValue) : Prop :=
  ∀ portable lowered, tryFrom value = .ok portable → lowerRendererValue portable = .ok lowered →
    render formatting style lowered = render formatting style value

def portableField (formatting : Formatting) (style : Style) (field : String × PortableOValue) :
    String × String :=
  (field.1,
    match lowerRendererValue field.2 with
    | .ok value => render formatting style value
    | .error _ => "")

lemma renderFields_lowered {fields out : List (String × OValue)}
    {converted : List (String × PortableOValue)}
    (hfields : ∀ field ∈ fields, Faithful formatting style field.2)
    (hconverted : tryFromFields fields = .ok converted)
    (hout : lowerFields (sortFields converted) = .ok out) :
    renderFields formatting style (sortBy (fun field => textOrder field.1) out) =
      sortBy (fun field => textOrder field.1) (renderFields formatting style fields) := by
  rw [tryFromFields_eq_mapM, mapM_eq_ok] at hconverted
  rw [lowerFields_eq_mapM, mapM_eq_ok] at hout
  have hlowered : ∀ c ∈ converted, ∃ value, lowerRendererValue c.2 = .ok value := by
    intro c hc
    obtain ⟨o, -, ho⟩ := exists_of_forall₂ hout (mem_sortBy.2 hc)
    simp only [lowerField, bind_eq_ok] at ho
    obtain ⟨value, hvalue, -⟩ := ho
    exact ⟨value, hvalue⟩
  have hrendered : out.map (renderField formatting style) =
      (sortFields converted).map (portableField formatting style) := by
    symm
    refine map_eq_of_forall₂ (hout.imp fun c o ho => ?_)
    simp only [lowerField, bind_eq_ok] at ho
    obtain ⟨value, hvalue, ho⟩ := ho
    cases ho
    rw [portableField, hvalue]
    rfl
  have hsource : fields.map (renderField formatting style) =
      converted.map (portableField formatting style) := by
    have hfaithful := (forall₂_and_left _ _).2 ⟨hfields, hconverted⟩
    have hboth := (forall₂_and_left _ _).2 ⟨hlowered, hfaithful.flip⟩
    symm
    refine map_eq_of_forall₂ (hboth.imp ?_)
    rintro c field ⟨⟨value, hvalue⟩, hfield, hc⟩
    simp only [tryFromField, bind_eq_ok] at hc
    obtain ⟨portable, hportable, hc⟩ := hc
    cases hc
    rw [portableField, hvalue]
    dsimp only
    rw [hfield portable value hportable hvalue]
    rfl
  calc renderFields formatting style (sortBy (fun field => textOrder field.1) out)
      = sortBy (fun field => textOrder field.1) (out.map (renderField formatting style)) := by
        rw [renderFields_eq_map]
        exact map_sortBy (renderField formatting style) (fun field => textOrder field.1) out
    _ = sortBy (fun field => textOrder field.1)
          (sortBy (fun field => textOrder field.1)
            (converted.map (portableField formatting style))) := by
        rw [hrendered]
        congr 1
        exact map_sortBy (portableField formatting style) (fun field => textOrder field.1) converted
    _ = sortBy (fun field => textOrder field.1) (renderFields formatting style fields) := by
        rw [sortBy_eq_self (pairwise_sortBy _ _), ← hsource, renderFields_eq_map]

lemma renderItems_lowered {items out : List OValue} {converted : List PortableOValue}
    (hitems : ∀ item ∈ items, Faithful formatting style item)
    (hconverted : tryFromItems items = .ok converted) (hout : lowerItems converted = .ok out) :
    renderItems formatting style out = renderItems formatting style items := by
  rw [tryFromItems_eq_mapM, mapM_eq_ok] at hconverted
  rw [lowerItems_eq_mapM, mapM_eq_ok] at hout
  rw [renderItems_eq_map, renderItems_eq_map]
  induction hconverted generalizing out with
  | nil =>
    cases hout
    rfl
  | cons hitem _ ih =>
    cases hout with
    | cons hvalue hrest =>
      obtain ⟨hhead, htail⟩ := forall_mem_cons.1 hitems
      rw [map_cons, map_cons, hhead _ _ hitem hvalue, ih htail hrest]

lemma renderEntries_lowered {out : List (OValue × OValue)} (hentries : ∀ entry ∈ entries,
      Faithful formatting style entry.1 ∧ Faithful formatting style entry.2)
    (hconverted : tryFromEntries entries = .ok converted)
    (hout : lowerEntries converted = .ok out) :
    renderEntries formatting style out = renderEntries formatting style entries := by
  rw [tryFromEntries_eq_mapM, mapM_eq_ok] at hconverted
  rw [lowerEntries_eq_mapM, mapM_eq_ok] at hout
  rw [renderEntries_eq_map, renderEntries_eq_map]
  induction hconverted generalizing out with
  | nil =>
    cases hout
    rfl
  | cons hentry _ ih =>
    cases hout with
    | cons hlowered hrest =>
      obtain ⟨⟨hkey, hvalue⟩, htail⟩ := forall_mem_cons.1 hentries
      simp only [tryFromEntry, bind_eq_ok] at hentry
      obtain ⟨key, htryKey, value, htryValue, hentry⟩ := hentry
      cases hentry
      simp only [lowerEntry, bind_eq_ok] at hlowered
      obtain ⟨key', hlowerKey, value', hlowerValue, hlowered⟩ := hlowered
      cases hlowered
      rw [map_cons, map_cons, ih htail hrest, renderEntry, renderEntry,
        hkey _ _ htryKey hlowerKey, hvalue _ _ htryValue hlowerValue]

lemma lowerRecord_eq_ok {lowered : OValue} (h : lowerRendererValue (.record fields) = .ok lowered) :
    ∃ out, lowerFields fields = .ok out ∧
      lowered = .object (sortBy (fun field => textOrder field.1) out) := by
  simp only [lowerRendererValue, bind_eq_ok] at h
  obtain ⟨out, hout, _, _, h⟩ := h
  cases h
  exact ⟨out, hout, rfl⟩

lemma renderFields_sorted {fields : List (String × OValue)}
    (h : InOrder (.object fields)) :
    sortBy (fun field => textOrder field.1) (renderFields formatting style fields) =
      renderFields formatting style fields := by
  apply sortBy_eq_self
  rw [renderFields_eq_map, pairwise_map]
  exact pairwise_map.1 h

/-- A value whose entry maps are in order keeps its text on the way to the other side. -/
lemma faithful_of_arranged (formatting : Formatting) (style : Style) (value : OValue) :
    Arranged value → Faithful formatting style value := by
  induction value using OValue.induction with
  | h value ih =>
    intro harranged portable lowered hportable hlowered
    have hinner : ∀ part ∈ value.children, Faithful formatting style part :=
      fun part hpart => ih part hpart (harranged.child hpart)
    have hhere : InOrder value := harranged value (.refl value)
    cases value with
    | null | bool | char =>
      cases hportable
      cases hlowered
      rfl
    | number v =>
      cases v with
      | int | binaryFloat =>
        simp only [tryFrom, hosted, mapError_eq_ok] at hportable
        obtain rfl := checked_eq_ok hportable
        cases hlowered
        rfl
      | _ => cases hportable
    | text v =>
      simp only [tryFrom, hosted, mapError_eq_ok] at hportable
      obtain rfl := checked_eq_ok hportable
      cases hlowered
      rfl
    | bytes v =>
      simp only [tryFrom, hosted, mapError_eq_ok] at hportable
      obtain rfl := checked_eq_ok hportable
      cases hlowered
    | list v =>
      simp only [tryFrom, hosted, bind_eq_ok, mapError_eq_ok] at hportable
      obtain ⟨items, hitems, hportable⟩ := hportable
      obtain rfl := checked_eq_ok hportable
      simp only [lowerRendererValue, bind_eq_ok] at hlowered
      obtain ⟨out, hout, hlowered⟩ := hlowered
      cases hlowered
      have hparts : ∀ item ∈ v, Faithful formatting style item := hinner
      rw [render, render, renderItems_lowered hparts hitems hout]
    | map v =>
      simp only [tryFrom, hosted, bind_eq_ok, mapError_eq_ok] at hportable
      obtain ⟨fields, hfields, hportable⟩ := hportable
      obtain rfl := ofFields_eq_ok hportable
      obtain ⟨out, hout, rfl⟩ := lowerRecord_eq_ok hlowered
      have hparts : ∀ field ∈ v, Faithful formatting style field.2 :=
        fun field hfield => hinner field.2 (mem_map_of_mem hfield)
      rw [render, render, renderFields_lowered hparts hfields hout]
    | object v =>
      simp only [tryFrom, hosted, bind_eq_ok, mapError_eq_ok] at hportable
      obtain ⟨fields, hfields, hportable⟩ := hportable
      obtain rfl := ofFields_eq_ok hportable
      obtain ⟨out, hout, rfl⟩ := lowerRecord_eq_ok hlowered
      have hparts : ∀ field ∈ v, Faithful formatting style field.2 :=
        fun field hfield => hinner field.2 (mem_map_of_mem hfield)
      rw [render, render, renderFields_lowered hparts hfields hout, renderFields_sorted hhere]
    | entriesMap v =>
      simp only [tryFrom, hosted, bind_eq_ok, mapError_eq_ok] at hportable
      obtain ⟨entries, hentries, hportable⟩ := hportable
      obtain rfl := ofEntries_eq_ok hhere hentries hportable
      simp only [lowerRendererValue, bind_eq_ok] at hlowered
      obtain ⟨out, hout, hlowered⟩ := hlowered
      cases hlowered
      have hparts : ∀ entry ∈ v,
          Faithful formatting style entry.1 ∧ Faithful formatting style entry.2 := by
        intro entry hentry
        constructor
        · exact hinner entry.1 (mem_flatMap.2 ⟨entry, hentry, by simp⟩)
        · exact hinner entry.2 (mem_flatMap.2 ⟨entry, hentry, by simp⟩)
      rw [render, render, renderEntries_lowered hparts hentries hout]
    | _ => cases hportable

end Lowered

end Ostadix
