import Ostadix.OValueEquiv
import Ostadix.PrefixCode
import Ostadix.LexKey
import Mathlib

/-! Two values have the same canonical bytes exactly when they are equivalent. -/

namespace Ostadix.OValue

open Wire Canonical List CapabilityKind Base64

/-! ## Equivalent values have the same bytes -/

variable {α β : Type} {xs : List OValue} {es fs : List (String × OValue)} {v w : OValue}

lemma map_eq_of_forall₂ {R : α → α → Prop} {f : α → β} {l m : List α} (h : List.Forall₂ R l m)
    (hf : ∀ a ∈ l, ∀ b ∈ m, R a b → f a = f b) : l.map f = m.map f := by
  induction h with
  | nil => rfl
  | cons hab _ ih =>
    rw [map_cons, map_cons, hf _ (by simp) _ (by simp) hab,
      ih fun c hc d hd => hf c (by simp [hc]) d (by simp [hd])]

/-- The entries of a hash map are encoded in the same order however they are iterated. -/
lemma encodeHashMap_eq_of_perm {es fs : List (String × Bytes)} (h : es.Perm fs)
    (hnodup : (es.map Prod.fst).Nodup) : encodeHashMap es = encodeHashMap fs := by
  have hsorted := sortBy_eq_of_perm (f := fun field => textOrder field.1) h (by
    intro a ha b hb hab
    exact inj_on_of_nodup_map hnodup ha hb (textOrder_injective hab))
  rw [encodeHashMap, encodeHashMap, hsorted]

lemma encodeItems_eq_of_same {ys : List OValue} (h : SameItems xs ys)
    (hin : ∀ x ∈ xs, ∀ y, Same x y → x.encodeCanonical = y.encodeCanonical) :
    encodeItems xs = encodeItems ys := by
  rw [encodeItems_eq, encodeItems_eq]
  exact map_eq_of_forall₂ (sameItems_iff.1 h) fun x hx y _ hxy => hin x hx y hxy

lemma encodeFields_eq_of_same (h : SameFields es fs)
    (hin : ∀ x ∈ es.map Prod.snd, ∀ y, Same x y → x.encodeCanonical = y.encodeCanonical) :
    encodeFields es = encodeFields fs := by
  rw [encodeFields_eq, encodeFields_eq]
  refine map_eq_of_forall₂ (sameFields_iff.1 h) fun e he f _ hef => ?_
  rw [hef.1, hin e.2 (mem_map_of_mem he) f.2 hef.2]

lemma encodeEntries_eq_of_same {es fs : List (OValue × OValue)} (h : SameEntries es fs)
    (hin : ∀ x ∈ es.flatMap fun e => [e.1, e.2], ∀ y, Same x y →
      x.encodeCanonical = y.encodeCanonical) :
    encodeEntries es = encodeEntries fs := by
  rw [encodeEntries_eq, encodeEntries_eq]
  refine map_eq_of_forall₂ (sameEntries_iff.1 h) fun e he f _ hef => ?_
  rw [hin e.1 (mem_flatMap.2 ⟨e, he, by simp⟩) f.1 hef.1,
    hin e.2 (mem_flatMap.2 ⟨e, he, by simp⟩) f.2 hef.2]

lemma encodeNodes_eq_of_same {xs ys : List (GraphNode OValue)} (h : SameNodes xs ys)
    (hin : ∀ x ∈ xs.flatMap GraphNode.values, ∀ y, Same x y →
      x.encodeCanonical = y.encodeCanonical) :
    encodeNodes xs = encodeNodes ys := by
  rw [encodeNodes_eq, encodeNodes_eq]
  refine map_eq_of_forall₂ (sameNodes_iff.1 h) fun m hm n _ hmn => ?_
  cases m with
  | value x =>
    cases n with
    | value y =>
      have hx : x ∈ xs.flatMap GraphNode.values :=
        mem_flatMap.2 ⟨_, hm, mem_singleton.2 rfl⟩
      rw [encodeNode, encodeNode, hin x hx y hmn]
    | ref u => exact hmn.elim
  | ref t =>
    cases n with
    | value y => exact hmn.elim
    | ref u => rw [show t = u from hmn]

/-- Hash maps with equivalent entries have the same bytes. -/
lemma encodeHashMap_eq_of_same (hnodup : (es.map Prod.fst).Nodup)
    (h : ∃ gs, gs.Perm fs ∧ SameFields es gs)
    (hin : ∀ x ∈ es.map Prod.snd, ∀ y, Same x y → x.encodeCanonical = y.encodeCanonical) :
    encodeHashMap (encodeFields es) = encodeHashMap (encodeFields fs) := by
  obtain ⟨gs, hperm, hsame⟩ := h
  have heq := encodeFields_eq_of_same hsame hin
  have hkeys : (encodeFields es).map Prod.fst = es.map Prod.fst := by
    rw [encodeFields_eq, map_map]
    rfl
  refine encodeHashMap_eq_of_perm ?_ (hkeys ▸ hnodup)
  rw [heq, encodeFields_eq, encodeFields_eq]
  exact hperm.map _

lemma encodeNative_eq_of_same {v w : ONative} (h : SameNative v w) :
    v.encodeFields = w.encodeFields := by
  obtain ⟨hperm, hrest⟩ := h
  have hsorted := sortBy_eq_of_perm (f := fun kind => textOrder kind.name) hperm
    fun k _ l _ hkl => name_injective (textOrder_injective hkl)
  rw [← hrest]
  simp only [ONative.encodeFields, hsorted]

lemma encodeBlob_eq_of_same {v w : String} (h : SameBlob v w) (mime : String) :
    encodeBlob v mime = encodeBlob w mime := by
  rcases h with rfl | ⟨bytes, hv, hw⟩
  · rfl
  · rw [encodeBlob, encodeBlob, hv, hw]

lemma pairOrder_injective : Function.Injective pairOrder := by
  rintro ⟨a, b⟩ ⟨c, d⟩ h
  obtain ⟨hfst, hsnd⟩ := LexKey.terminated_inj h
  exact Prod.ext (byteOrder_injective hfst) (byteOrder_injective hsnd)

lemma tagName_eq_of_same (h : Same v w) : v.tagName = w.tagName := by
  unfold Same at h
  split at h
  case h_19 => rw [h]
  all_goals rfl

lemma encode_eq_of_same (hv : ∀ u, Occurs u v → KeysOk u) (h : Same v w) :
    v.encodeCanonical = w.encodeCanonical := by
  induction v using OValue.induction generalizing w with
  | h v ih =>
    have hin : ∀ c ∈ v.children, ∀ d, Same c d → c.encodeCanonical = d.encodeCanonical :=
      fun c hc d hcd => ih c hc (fun u hu => hv u (.step hc hu)) hcd
    have hkeys := hv v (.refl v)
    clear ih hv
    rw [encodeCanonical, encodeCanonical, tagName_eq_of_same h]
    congr 2
    unfold Same at h
    split at h
    · rw [encodePayload, encodePayload, encodeItems_eq_of_same h hin]
    · rw [encodePayload, encodePayload, encodeHashMap_eq_of_same hkeys h hin]
    · rw [encodePayload, encodePayload, h.1, encodeItems_eq_of_same h.2 hin]
    · rw [encodePayload, encodePayload, encodeFields_eq_of_same h hin]
    · obtain ⟨gs, hperm, hsame⟩ := h
      have hsorted := sortBy_eq_of_perm
        (hperm.map fun e => (e.1.encodeCanonical, e.2.encodeCanonical))
        fun a _ b _ hab => pairOrder_injective hab
      rw [encodePayload, encodePayload, encodeEntries_eq_of_same hsame hin, encodeEntries_eq,
        encodeEntries_eq, hsorted]
    · rw [encodePayload, encodePayload, encodeItems_eq_of_same h hin]
    · obtain ⟨zs, hperm, hsame⟩ := h
      have hsorted := sortBy_eq_of_perm (hperm.map encodeCanonical)
        fun a _ b _ hab => byteOrder_injective hab
      simp only [encodePayload, encodeItems_eq_of_same hsame hin]
      simp only [encodeItems_eq, hsorted]
    · rw [encodePayload, encodePayload, encodeHashMap_eq_of_same hkeys h hin]
    · rw [encodePayload, encodePayload, h.1, encodeBlob_eq_of_same h.2]
    · rw [encodePayload, encodePayload, h.1, encodeNodes_eq_of_same h.2 hin]
    · have hrehydrate := congrArg ONative.rehydrate h.1.2
      rw [encodePayload, encodePayload, encodeNative_eq_of_same h.1,
        encodeFields_eq_of_same h.2 hin, ← hrehydrate]
    · rw [encodePayload, encodePayload, h.1, encodeItems_eq_of_same h.2.1 hin, h.2.2]
    · rw [encodePayload, encodePayload, h.1, h.2.1, encodeItems_eq_of_same h.2.2 hin]
    · have hsource := hin _ (mem_singleton.2 rfl) _ h.2.1
      rw [encodeCanonical, encodeCanonical] at hsource
      rw [encodePayload, encodePayload, h.1, hsource, h.2.2]
    · rw [encodePayload, encodePayload, h.1, h.2.1, encodeHashMap_eq_of_same hkeys h.2.2 hin]
    · rw [encodePayload, encodePayload, h.1, h.2.1, encodeHashMap_eq_of_same hkeys h.2.2 hin]
    · rw [encodePayload, encodePayload, h.1, encodeItems_eq_of_same h.2.1 hin, h.2.2]
    · rw [encodePayload, encodePayload, h.1, encodeItems_eq_of_same h.2.1 hin, h.2.2]
    · rw [h]

/-! ## Fields can be split off -/

lemma splits_str (s : String) : Splits str Eq s :=
  ((splits_sized (utf8 s)).comap utf8).mono fun _ h => utf8_injective h

lemma splits_name {name : α → String} (hinj : Function.Injective name) (a : α) :
    Splits (fun a => tag (name a)) Eq a :=
  ((splits_str (name a)).comap name).mono fun _ h => hinj h

lemma splits_bigint (v : ℤ) : Splits bigint Eq v :=
  ((splits_str v.repr).comap Int.repr).mono fun _ h => Int.repr_inj.1 h

lemma splits_i64 (v : Int64) : Splits i64 Eq v := by
  refine ((splits_putU64 v.toUInt64).comap Int64.toUInt64).mono ?_
  rintro ⟨w⟩ h
  exact congrArg Int64.ofUInt64 h

lemma splits_bool (v : Bool) : Splits Canonical.bool Eq v := by
  refine splits_of_length (n := 1) (fun _ => rfl) ?_ v
  intro v w h
  cases v <;> cases w <;> first | rfl | cases h

lemma splits_tagged {name : α → String} {body : α → Bytes} {R : α → α → Prop} {a : α}
    (h : ∀ b s t, name a = name b → (body a).length < 2 ^ 64 → (body b).length < 2 ^ 64 →
      body a ++ s = body b ++ t → R a b ∧ s = t) :
    Splits (fun a => tag (name a) ++ body a) R a := by
  intro b s t ha hb heq
  simp only [length_append, append_assoc] at ha hb heq
  obtain ⟨hname, heq⟩ := splits_name Function.injective_id (name a) (name b) _ _
    (lt_of_le_of_lt (Nat.le_add_right _ _) ha) (lt_of_le_of_lt (Nat.le_add_right _ _) hb) heq
  exact h b s t hname (by omega) (by omega) heq

lemma splits_option {field : α → Bytes} (h : ∀ a, Splits field Eq a) (o : Option α) :
    Splits (option field) Eq o := by
  have heq : option field = fun o => tag (if o.isSome then "some" else "none") ++
      o.elim [] field := by
    funext o
    cases o <;> simp [option]
  rw [heq]
  refine splits_tagged fun p s t hname hv hw heq => ?_
  cases o with
  | none =>
    cases p with
    | none => exact ⟨rfl, heq⟩
    | some b => simp at hname
  | some a =>
    cases p with
    | none => simp at hname
    | some b =>
      obtain ⟨rfl, hst⟩ := h a b s t hv hw heq
      exact ⟨rfl, hst⟩

lemma splits_optionName {name : α → String} (hinj : Function.Injective name) (o : Option α) :
    Splits (fun o => option str (o.map name)) Eq o :=
  ((splits_option splits_str (o.map name)).comap (Option.map name)).mono
    fun _ h => Option.map_injective hinj h

lemma number_splits (v : ONumber) : ∀ (w : ONumber) (s t : Bytes), v.tagName = w.tagName →
    v.encodeFields.length < 2 ^ 64 → w.encodeFields.length < 2 ^ 64 →
    v.encodeFields ++ s = w.encodeFields ++ t → v = w ∧ s = t := by
  induction v with
  | int v =>
    intro w s t hname hv hw heq
    cases w with
    | int w =>
      obtain ⟨rfl, hst⟩ := splits_bigint v w s t hv hw heq
      exact ⟨rfl, hst⟩
    | _ => simp [ONumber.tagName] at hname
  | rational num den =>
    intro w s t hname hv hw heq
    cases w with
    | rational num' den' =>
      obtain ⟨⟨rfl, rfl⟩, hst⟩ :=
        ((splits_bigint num).append (splits_bigint den)) (num', den') s t hv hw heq
      exact ⟨rfl, hst⟩
    | _ => simp [ONumber.tagName] at hname
  | decimal coeff exp10 special =>
    intro w s t hname hv hw heq
    cases w with
    | decimal coeff' exp10' special' =>
      obtain ⟨⟨rfl, rfl, rfl⟩, hst⟩ := ((splits_bigint coeff).append ((splits_i64 exp10).append
        (splits_optionName DecimalSpecial.name_injective special))) (coeff', exp10', special')
        s t hv hw heq
      exact ⟨rfl, hst⟩
    | _ => simp [ONumber.tagName] at hname
  | binaryFloat format bits =>
    intro w s t hname hv hw heq
    cases w with
    | binaryFloat format' bits' =>
      obtain ⟨⟨rfl, rfl⟩, hst⟩ := ((splits_name FloatFormat.name_injective format).append
        (splits_sized bits)) (format', bits') s t hv hw heq
      exact ⟨rfl, hst⟩
    | _ => simp [ONumber.tagName] at hname
  | bigFloat mantissa exp2 precision special =>
    intro w s t hname hv hw heq
    cases w with
    | bigFloat mantissa' exp2' precision' special' =>
      obtain ⟨⟨rfl, rfl, rfl, rfl⟩, hst⟩ := ((splits_bigint mantissa).append
        ((splits_i64 exp2).append ((splits_option splits_putU64 precision).append
          (splits_optionName FloatSpecial.name_injective special))))
        (mantissa', exp2', precision', special') s t hv hw heq
      exact ⟨rfl, hst⟩
    | _ => simp [ONumber.tagName] at hname
  | complex re im hre him =>
    intro w s t hname hv hw heq
    cases w with
    | complex re' im' =>
      obtain ⟨⟨rfl, rfl⟩, hst⟩ :=
        ((splits_tagged hre).append (splits_tagged him)) (re', im') s t hv hw heq
      exact ⟨rfl, hst⟩
    | _ => simp [ONumber.tagName] at hname

lemma sized_ne_nil (bytes : Bytes) : sized bytes ≠ [] := by
  intro h
  have := congrArg List.length h
  simp [sized, u64] at this

lemma tag_ne_nil (name : String) : tag name ≠ [] := sized_ne_nil _

/-- A list of fields that are equal when their encodings are. -/
lemma splits_list {field : α → Bytes} (hne : ∀ a, field a ≠ []) (h : ∀ a, Splits field Eq a)
    (l : List α) : Splits (counted field) Eq l :=
  (splits_counted hne fun a _ => h a).mono fun m hm => by rwa [forall₂_eq_eq_eq] at hm

lemma splits_envId (v : UInt32) : Splits (fun v => u64 v.toUInt64) Eq v :=
  ((splits_putU64 v.toUInt64).comap UInt32.toUInt64).mono fun _ h => UInt32.toUInt64_inj.1 h

lemma splits_kind (kind : RequestKind) : Splits RequestKind.encodeCanonical Eq kind := by
  refine splits_tagged fun kind' s t hname hv hw heq => ?_
  cases kind with
  | instantiate =>
    cases kind' with
    | instantiate => exact ⟨rfl, heq⟩
    | _ => simp [RequestKind.tagName] at hname
  | realise =>
    cases kind' with
    | realise => exact ⟨rfl, heq⟩
    | _ => simp [RequestKind.tagName] at hname
  | eval lang envId cacheable authority permissions =>
    cases kind' with
    | eval lang' envId' cacheable' authority' permissions' =>
      obtain ⟨⟨rfl, rfl, rfl, rfl, rfl⟩, hst⟩ := ((splits_str lang).append
        ((splits_envId envId).append ((splits_bool cacheable).append
          ((splits_option splits_str authority).append (splits_list (fun a => tag_ne_nil _)
            (splits_name BackendAuthority.name_injective) permissions)))))
        (lang', envId', cacheable', authority', permissions') s t hv hw heq
      exact ⟨rfl, hst⟩
    | _ => simp [RequestKind.tagName] at hname
  | activate profile dryRun authority =>
    cases kind' with
    | activate profile' dryRun' authority' =>
      obtain ⟨⟨rfl, rfl, rfl⟩, hst⟩ := ((splits_str profile).append ((splits_bool dryRun).append
        (splits_option splits_str authority))) (profile', dryRun', authority') s t hv hw heq
      exact ⟨rfl, hst⟩
    | _ => simp [RequestKind.tagName] at hname

lemma splits_bytes (v : OBytes) : Splits OBytes.encodeCanonical Eq v := by
  rintro ⟨bytes', mediaType'⟩ s t hv hw heq
  obtain ⟨⟨rfl, rfl⟩, hst⟩ := ((splits_option splits_str v.mediaType).append (splits_sized v.bytes))
    (mediaType', bytes') s t hv hw heq
  exact ⟨rfl, hst⟩

lemma splits_capabilities (l : List CapabilityKind) :
    Splits (fun l => counted (fun kind => tag kind.name)
      (sortBy (fun kind => textOrder kind.name) l)) List.Perm l := by
  refine ((splits_list (fun a => tag_ne_nil _) (splits_name name_injective)
    (sortBy (fun kind => textOrder kind.name) l)).comap _).mono fun m h => ?_
  exact (perm_sortBy _ l).symm.trans (h ▸ perm_sortBy _ m)

/-- The fields before the metadata leave open the order of capabilities and what follows them. -/
lemma splits_native (v : ONative) :
    Splits ONative.encodeFields (fun v w => v.capabilities.Perm w.capabilities ∧
      { v with capabilities := w.capabilities, rehydrate := w.rehydrate } = w) v := by
  obtain ⟨lang, implementation, version, typeName, ⟨stable, live⟩, codec, payload, boundary, safety,
    capabilities, rehydrate⟩ := v
  rintro ⟨lang', implementation', version', typeName', ⟨stable', live'⟩, codec', payload',
    boundary', safety', capabilities', rehydrate'⟩ s t hv hw heq
  obtain ⟨⟨rfl, rfl, rfl, rfl, rfl, rfl, rfl, rfl, rfl, rfl, hperm⟩, hst⟩ :=
    ((splits_str lang).append ((splits_option splits_str implementation).append
      ((splits_option splits_str version).append ((splits_str typeName).append
        ((splits_option splits_str stable).append ((splits_option splits_str live).append
          ((splits_str codec).append ((splits_option splits_bytes payload).append
            ((splits_name NativeBoundary.name_injective boundary).append
              ((splits_name NativeCodecSafety.name_injective safety).append
                (splits_capabilities capabilities)))))))))))
    (lang', implementation', version', typeName', stable', live', codec', payload', boundary',
      safety', capabilities') s t hv hw heq
  exact ⟨⟨hperm, rfl⟩, hst⟩

/-- A base64 text is told by the bytes it stands for, or by itself when it stands for none. -/
lemma splits_base64 (v : String) :
    Splits (fun v => match Base64.decode v with
      | some data => tag "base64:decoded" ++ sized data
      | none => tag "base64:invalid" ++ str v) SameBlob v := by
  have henc : (fun v => match Base64.decode v with
      | some data => tag "base64:decoded" ++ sized data
      | none => tag "base64:invalid" ++ str v) =
      fun v => tag (if (Base64.decode v).isSome then "base64:decoded" else "base64:invalid") ++
        match Base64.decode v with
          | some data => sized data
          | none => str v := by
    funext v
    cases Base64.decode v <;> rfl
  rw [henc]
  refine splits_tagged fun w s t hname hv hw heq => ?_
  cases hdv : Base64.decode v with
  | none =>
    cases hdw : Base64.decode w with
    | none =>
      simp only [hdv, hdw] at hv hw heq
      obtain ⟨rfl, hst⟩ := splits_str v w s t hv hw heq
      exact ⟨.inl rfl, hst⟩
    | some data => simp [hdv, hdw] at hname
  | some data =>
    cases hdw : Base64.decode w with
    | none => simp [hdv, hdw] at hname
    | some data' =>
      simp only [hdv, hdw] at hv hw heq
      obtain ⟨rfl, hst⟩ := splits_sized data data' s t hv hw heq
      exact ⟨.inr ⟨data, hdv, hdw⟩, hst⟩

lemma encodeCanonical_ne_nil (v : OValue) : v.encodeCanonical ≠ [] :=
  append_ne_nil_of_left_ne_nil (tag_ne_nil _) _

lemma counted_map (f : α → β) (field : β → Bytes) (l : List α) :
    counted field (l.map f) = counted (fun a => field (f a)) l := by
  rw [counted, counted, length_map, flatMap_map]

lemma splits_items (h : ∀ x ∈ xs, Splits encodeCanonical Same x) :
    Splits (fun xs => counted id (encodeItems xs)) SameItems xs := by
  have henc : (fun xs => counted id (encodeItems xs)) = counted encodeCanonical := by
    funext xs
    rw [encodeItems_eq, counted_map]
    rfl
  rw [henc]
  exact (splits_counted encodeCanonical_ne_nil h).mono fun ys => sameItems_iff.2

lemma splits_field {e : String × OValue} (h : Splits encodeCanonical Same e.2) :
    Splits (fun e : String × OValue => encodeField (e.1, e.2.encodeCanonical)) SameField e :=
  (splits_str e.1).append h

lemma encodeField_ne_nil (field : String × Bytes) : encodeField field ≠ [] :=
  append_ne_nil_of_left_ne_nil (tag_ne_nil _) _

lemma splits_fields (h : ∀ x ∈ es.map Prod.snd, Splits encodeCanonical Same x) :
    Splits (fun es => counted encodeField (encodeFields es)) SameFields es := by
  have henc : (fun es => counted encodeField (encodeFields es)) =
      counted fun e : String × OValue => encodeField (e.1, e.2.encodeCanonical) := by
    funext es
    rw [encodeFields_eq, counted_map]
  rw [henc]
  refine (splits_counted (fun e => encodeField_ne_nil _) fun e he => ?_).mono
    fun fs => sameFields_iff.2
  exact splits_field (h e.2 (mem_map_of_mem he))

lemma splits_hashMap (h : ∀ x ∈ es.map Prod.snd, Splits encodeCanonical Same x) :
    Splits (fun es => encodeHashMap (encodeFields es))
      (fun es fs => ∃ gs, gs.Perm fs ∧ SameFields es gs) es := by
  have henc : (fun es => encodeHashMap (encodeFields es)) = fun es : List (String × OValue) =>
      counted (fun e => encodeField (e.1, e.2.encodeCanonical))
        (sortBy (fun e => textOrder e.1) es) := by
    funext es
    rw [encodeHashMap, encodeFields_eq,
      ← map_sortBy (fun e : String × OValue => (e.1, e.2.encodeCanonical)), counted_map]
  have hsorted : Splits (counted fun e : String × OValue =>
      encodeField (e.1, e.2.encodeCanonical)) (List.Forall₂ SameField)
      (sortBy (fun e => textOrder e.1) es) := by
    refine splits_counted (fun e => encodeField_ne_nil _) fun e he => ?_
    exact splits_field (h e.2 (mem_map_of_mem (mem_sortBy.1 he)))
  rw [henc]
  refine Splits.mono (Splits.comap (sortBy fun e : String × OValue => textOrder e.1) hsorted)
    fun fs hfs => ?_
  obtain ⟨gs, hgs, hperm⟩ := perm_comp_forall₂ (perm_sortBy _ es).symm hfs
  exact ⟨gs, hperm.trans (perm_sortBy _ fs), sameFields_iff.2 hgs⟩

lemma encodeNode_ne_nil (n : GraphNode OValue) : encodeNode n ≠ [] := by
  cases n <;> exact append_ne_nil_of_left_ne_nil (tag_ne_nil _) _

def nodeTag : GraphNode OValue → String
  | .value _ => "graph_node:value"
  | .ref _ => "graph_node:ref"

def nodeBody : GraphNode OValue → Bytes
  | .value v => v.encodeCanonical
  | .ref target => u64 target

lemma splits_node {n : GraphNode OValue} (h : ∀ x ∈ n.values, Splits encodeCanonical Same x) :
    Splits encodeNode SameNode n := by
  have henc : encodeNode = fun n => tag (nodeTag n) ++ nodeBody n := by
    funext n
    cases n <;> rfl
  rw [henc]
  refine splits_tagged fun m s t hname hv hw heq => ?_
  cases n with
  | value x =>
    cases m with
    | value y => exact h x (mem_singleton.2 rfl) y s t hv hw heq
    | ref u => simp [nodeTag] at hname
  | ref target =>
    cases m with
    | value y => simp [nodeTag] at hname
    | ref u => exact splits_putU64 target u s t hv hw heq

lemma splits_nodes {xs : List (GraphNode OValue)}
    (h : ∀ x ∈ xs.flatMap GraphNode.values, Splits encodeCanonical Same x) :
    Splits (fun xs => counted id (encodeNodes xs)) SameNodes xs := by
  have henc : (fun xs => counted id (encodeNodes xs)) = counted encodeNode := by
    funext xs
    rw [encodeNodes_eq, counted_map]
    rfl
  rw [henc]
  refine (splits_counted encodeNode_ne_nil fun n hn => splits_node fun x hx => ?_).mono
    fun ys => sameNodes_iff.2
  exact h x (mem_flatMap.2 ⟨n, hn, hx⟩)

lemma length_le_of_mem_counted {field : α → Bytes} {l : List α} {a : α} (h : a ∈ l) :
    (field a).length ≤ (counted field l).length := by
  have hsub := (sublist_flatten_of_mem (mem_map_of_mem (f := field) h)).length_le
  rw [← flatMap_def] at hsub
  rw [counted, length_append]
  omega

/-- Encodings that are sorted before they are written tell the list up to its order. -/
lemma splits_sorted {κ : Type} [LinearOrder κ] {enc : α → β} {field : β → Bytes} {key : β → κ}
    {R : α → α → Prop} {xs : List α} (hne : ∀ b, field b ≠ []) (hfield : ∀ b, Splits field Eq b)
    (h : ∀ x ∈ xs, ∀ y, (field (enc x)).length < 2 ^ 64 → (field (enc y)).length < 2 ^ 64 →
      enc x = enc y → R x y) :
    Splits (fun xs => counted field (sortBy key (xs.map enc)))
      (fun xs ys => ∃ zs, zs.Perm ys ∧ List.Forall₂ R xs zs) xs := by
  intro ys s t hx hy heq
  obtain ⟨hsorted, hst⟩ := splits_list hne hfield _ _ s t hx hy heq
  have hperm : (xs.map enc).Perm (ys.map enc) :=
    (perm_sortBy key _).symm.trans (hsorted ▸ perm_sortBy key _)
  have hys : List.Forall₂ (fun b y => b = enc y) (ys.map enc) ys :=
    forall₂_map_left_iff.2 (forall₂_same.2 fun _ _ => rfl)
  obtain ⟨zs, hzs, hzy⟩ := perm_comp_forall₂ hperm hys
  have hmap : xs.map enc = zs.map enc :=
    map_eq_of_forall₂ (forall₂_map_left_iff.1 hzs) fun _ _ _ _ hxz => hxz
  refine ⟨⟨zs, hzy, forall₂_of_map_eq hmap fun x hxs z hz hxz => ?_⟩, hst⟩
  have hlen : ∀ {l : List α} {a : α}, a ∈ l →
      (field (enc a)).length ≤ (counted field (sortBy key (l.map enc))).length :=
    fun ha => length_le_of_mem_counted (mem_sortBy.2 (mem_map_of_mem ha))
  exact h x hxs z ((hlen hxs).trans_lt hx) ((hlen (hzy.mem_iff.1 hz)).trans_lt hy) hxz

lemma length_le_sized (bytes : Bytes) : bytes.length ≤ (sized bytes).length := by
  rw [sized, length_append]
  omega

lemma splits_of_eq {enc : α → Bytes} {R : α → α → Prop} {a b : α} (h : Splits enc R a)
    (ha : (sized (enc a)).length < 2 ^ 64) (hb : (sized (enc b)).length < 2 ^ 64)
    (heq : enc a = enc b) : R a b :=
  (h b [] [] ((length_le_sized _).trans_lt ha) ((length_le_sized _).trans_lt hb) (by rw [heq])).1

lemma splits_set (h : ∀ x ∈ xs, Splits encodeCanonical Same x) :
    Splits (fun xs => counted sized (sortBy byteOrder (encodeItems xs)))
      (fun xs ys => ∃ zs, zs.Perm ys ∧ SameItems xs zs) xs := by
  have henc : (fun xs => counted sized (sortBy byteOrder (encodeItems xs))) =
      fun xs => counted sized (sortBy byteOrder (xs.map encodeCanonical)) := by
    funext xs
    rw [encodeItems_eq]
  rw [henc]
  refine (splits_sorted (R := Same) sized_ne_nil splits_sized fun x hx y hxl hyl hxy => ?_).mono ?_
  · exact splits_of_eq (h x hx) hxl hyl hxy
  · rintro ys ⟨zs, hperm, hzs⟩
    exact ⟨zs, hperm, sameItems_iff.2 hzs⟩

lemma splits_orderedSet (h : ∀ x ∈ xs, Splits encodeCanonical Same x) :
    Splits (fun xs => counted sized (encodeItems xs)) SameItems xs := by
  have henc : (fun xs => counted sized (encodeItems xs)) =
      counted fun x => sized (encodeCanonical x) := by
    funext xs
    rw [encodeItems_eq, counted_map]
  rw [henc]
  refine (splits_counted (fun x => sized_ne_nil _) fun x hx => ?_).mono fun ys => sameItems_iff.2
  intro y s t hxl hyl heq
  obtain ⟨hxy, hst⟩ := splits_sized _ _ s t hxl hyl heq
  exact ⟨splits_of_eq (h x hx) hxl hyl hxy, hst⟩

lemma splits_entries {es : List (OValue × OValue)}
    (h : ∀ x ∈ es.flatMap fun e => [e.1, e.2], Splits encodeCanonical Same x) :
    Splits (fun es => counted (fun e => sized e.1 ++ sized e.2)
        (sortBy pairOrder (encodeEntries es)))
      (fun es fs => ∃ gs, gs.Perm fs ∧ SameEntries es gs) es := by
  have henc : (fun es => counted (fun e => sized e.1 ++ sized e.2)
      (sortBy pairOrder (encodeEntries es))) = fun es => counted (fun e => sized e.1 ++ sized e.2)
        (sortBy pairOrder (es.map fun e => (e.1.encodeCanonical, e.2.encodeCanonical))) := by
    funext es
    rw [encodeEntries_eq]
  rw [henc]
  have hpair : ∀ p : Bytes × Bytes, Splits (fun e : Bytes × Bytes => sized e.1 ++ sized e.2) Eq p :=
    fun p => ((splits_sized p.1).append (splits_sized p.2)).mono fun q hq => Prod.ext hq.1 hq.2
  refine (splits_sorted (R := SameEntry)
    (fun e => append_ne_nil_of_left_ne_nil (sized_ne_nil _) _) hpair
    fun x hx y hxl hyl hxy => ?_).mono ?_
  · simp only [length_append] at hxl hyl
    obtain ⟨hkey, hvalue⟩ := Prod.mk.inj hxy
    have hmem : ∀ c ∈ [x.1, x.2], c ∈ es.flatMap fun e => [e.1, e.2] :=
      fun c hc => mem_flatMap.2 ⟨x, hx, hc⟩
    exact ⟨splits_of_eq (h x.1 (hmem _ (by simp))) (by omega) (by omega) hkey,
      splits_of_eq (h x.2 (hmem _ (by simp))) (by omega) (by omega) hvalue⟩
  · rintro fs ⟨gs, hperm, hgs⟩
    exact ⟨gs, hperm, sameEntries_iff.2 hgs⟩

/-- The constructor that a tag belongs to. -/
def tagIndex : String → ℕ
  | "null" => 0
  | "bool" => 1
  | "text" => 3
  | "char" => 4
  | "html" => 5
  | "store_path" => 6
  | "expr" => 7
  | "list" => 8
  | "map" => 9
  | "seq" => 10
  | "object" => 11
  | "entries_map" => 12
  | "set" => 13
  | "symbol" => 14
  | "keyword" => 15
  | "scope" => 16
  | "blob" => 17
  | "bytes" => 18
  | "graph" => 19
  | "native" => 20
  | "nix_expr" => 21
  | "derivation" => 22
  | "request" => 23
  | "system" => 24
  | "capability" => 25
  | "snapshot" => 26
  | "thunk" => 27
  | "group" => 28
  | "error" => 29
  | _ => 2

lemma tagIndex_tagName (v : OValue) : tagIndex v.tagName = v.ctorIdx := by
  cases v with
  | number v => cases v <;> rfl
  | _ => rfl

lemma ctorIdx_eq_of_tagName_eq (h : v.tagName = w.tagName) : w.ctorIdx = v.ctorIdx := by
  rw [← tagIndex_tagName, ← tagIndex_tagName, h]

lemma splits_text (v : OText) : Splits (fun v => str v.utf8 ++ option str v.encoding) Eq v := by
  rintro ⟨utf8', encoding'⟩ s t hv hw heq
  obtain ⟨⟨rfl, rfl⟩, hst⟩ := ((splits_str v.utf8).append (splits_option splits_str v.encoding))
    (utf8', encoding') s t hv hw heq
  exact ⟨rfl, hst⟩

lemma splits_char (c : Char) : Splits (fun c => u64 c.val.toUInt64) Eq c :=
  ((splits_putU64 c.val.toUInt64).comap fun c => c.val.toUInt64).mono
    fun _ h => Char.ext (UInt32.toUInt64_inj.1 h)

lemma payload_splits (hin : ∀ c ∈ v.children, Splits encodeCanonical Same c)
    (hname : v.tagName = w.tagName) {s t : Bytes} (hv : v.encodePayload.length < 2 ^ 64)
    (hw : w.encodePayload.length < 2 ^ 64) (heq : v.encodePayload ++ s = w.encodePayload ++ t) :
    Same v w ∧ s = t := by
  have hidx := ctorIdx_eq_of_tagName_eq hname
  revert hname hw heq
  cases v with
  | null =>
    refine OValue.null.elim w hidx fun _ _ heq => ?_
    exact ⟨by simp only [Same], heq⟩
  | bool v =>
    refine OValue.bool.elim w hidx fun v' _ hw heq => ?_
    obtain ⟨rfl, hst⟩ := splits_bool v v' s t hv hw heq
    exact ⟨by simp only [Same], hst⟩
  | number v =>
    refine OValue.number.elim w hidx fun v' hname hw heq => ?_
    obtain ⟨rfl, hst⟩ := number_splits v v' s t hname hv hw heq
    exact ⟨by simp only [Same], hst⟩
  | text v =>
    refine OValue.text.elim w hidx fun v' _ hw heq => ?_
    obtain ⟨rfl, hst⟩ := splits_text v v' s t hv hw heq
    exact ⟨by simp only [Same], hst⟩
  | char scalar =>
    refine OValue.char.elim w hidx fun scalar' _ hw heq => ?_
    obtain ⟨rfl, hst⟩ := splits_char scalar scalar' s t hv hw heq
    exact ⟨by simp only [Same], hst⟩
  | html v =>
    refine OValue.html.elim w hidx fun v' _ hw heq => ?_
    obtain ⟨rfl, hst⟩ := splits_str v v' s t hv hw heq
    exact ⟨by simp only [Same], hst⟩
  | storePath path =>
    refine OValue.storePath.elim w hidx fun path' _ hw heq => ?_
    obtain ⟨rfl, hst⟩ := splits_str path path' s t hv hw heq
    exact ⟨by simp only [Same], hst⟩
  | expr src =>
    refine OValue.expr.elim w hidx fun src' _ hw heq => ?_
    obtain ⟨rfl, hst⟩ := splits_str src src' s t hv hw heq
    exact ⟨by simp only [Same], hst⟩
  | list v =>
    refine OValue.list.elim w hidx fun v' _ hw heq => ?_
    rw [Same]
    exact splits_items hin v' s t hv hw heq
  | map v =>
    refine OValue.map.elim w hidx fun v' _ hw heq => ?_
    rw [Same]
    exact splits_hashMap hin v' s t hv hw heq
  | seq kind items =>
    refine OValue.seq.elim w hidx fun kind' items' _ hw heq => ?_
    rw [Same]
    exact ((splits_name SeqKind.name_injective kind).append (splits_items hin)) (kind', items')
      s t hv hw heq
  | object fields =>
    refine OValue.object.elim w hidx fun fields' _ hw heq => ?_
    rw [Same]
    exact splits_fields hin fields' s t hv hw heq
  | entriesMap entries =>
    refine OValue.entriesMap.elim w hidx fun entries' _ hw heq => ?_
    rw [Same]
    exact splits_entries hin entries' s t hv hw heq
  | set kind items =>
    refine OValue.set.elim w hidx fun kind' items' _ hw heq => ?_
    simp only [encodePayload, length_append, append_assoc] at hv hw heq
    obtain ⟨rfl, heq⟩ := splits_name SetKind.name_injective kind kind' _ _
      ((Nat.le_add_right _ _).trans_lt hv) ((Nat.le_add_right _ _).trans_lt hw) heq
    replace hv := (Nat.le_add_left _ _).trans_lt hv
    replace hw := (Nat.le_add_left _ _).trans_lt hw
    cases kind with
    | ordered =>
      rw [Same]
      exact splits_orderedSet hin items' s t hv hw heq
    | unordered =>
      rw [Same]
      exact splits_set hin items' s t hv hw heq
  | symbol v =>
    refine OValue.symbol.elim w hidx fun v' _ hw heq => ?_
    obtain ⟨⟨hns, hname⟩, hst⟩ := ((splits_option splits_str v.ns).append (splits_str v.name))
      (v'.ns, v'.name) s t hv hw heq
    obtain rfl : v = v' := OSymbol.ext hns hname
    exact ⟨by simp only [Same], hst⟩
  | keyword v =>
    refine OValue.keyword.elim w hidx fun v' _ hw heq => ?_
    obtain ⟨⟨hns, hname⟩, hst⟩ := ((splits_option splits_str v.ns).append (splits_str v.name))
      (v'.ns, v'.name) s t hv hw heq
    obtain rfl : v = v' := OKeyword.ext hns hname
    exact ⟨by simp only [Same], hst⟩
  | scope bindings =>
    refine OValue.scope.elim w hidx fun bindings' _ hw heq => ?_
    rw [Same]
    exact splits_hashMap hin bindings' s t hv hw heq
  | blob v mime =>
    refine OValue.blob.elim w hidx fun v' mime' _ hw heq => ?_
    rw [Same]
    exact ((splits_str mime).append (splits_base64 v)) (mime', v') s t hv hw heq
  | bytes v =>
    refine OValue.bytes.elim w hidx fun v' _ hw heq => ?_
    obtain ⟨rfl, hst⟩ := splits_bytes v v' s t hv hw heq
    exact ⟨by simp only [Same], hst⟩
  | graph root nodes =>
    refine OValue.graph.elim w hidx fun root' nodes' _ hw heq => ?_
    rw [Same]
    exact ((splits_putU64 root).append (splits_nodes hin)) (root', nodes') s t hv hw heq
  | native v metadata =>
    refine OValue.native.elim w hidx fun v' metadata' _ hw heq => ?_
    obtain ⟨⟨⟨hperm, hrest⟩, hmetadata, hrehydrate⟩, hst⟩ :=
      ((splits_native v).append ((splits_fields hin).append
        (splits_name RehydratePolicy.name_injective v.rehydrate)))
        (v', metadata', v'.rehydrate) s t hv hw heq
    rw [Same]
    dsimp only at hrest hrehydrate
    rw [← hrehydrate] at hrest
    exact ⟨⟨⟨hperm, hrest⟩, hmetadata⟩, hst⟩
  | nixExpr body deps fingerprint =>
    refine OValue.nixExpr.elim w hidx fun body' deps' fingerprint' _ hw heq => ?_
    rw [Same]
    exact ((splits_str body).append ((splits_items hin).append (splits_str fingerprint)))
      (body', deps', fingerprint') s t hv hw heq
  | derivation drvPath outputs deps =>
    refine OValue.derivation.elim w hidx fun drvPath' outputs' deps' _ hw heq => ?_
    rw [Same]
    exact ((splits_str drvPath).append
      ((splits_list (fun _ => tag_ne_nil _) splits_str outputs).append (splits_items hin)))
      (drvPath', outputs', deps') s t hv hw heq
  | request kind source fingerprint =>
    refine OValue.request.elim w hidx fun kind' source' fingerprint' _ hw heq => ?_
    rw [Same]
    exact ((splits_kind kind).append ((hin source (mem_singleton.2 rfl)).append
      (splits_str fingerprint))) (kind', source', fingerprint') s t hv hw heq
  | system profilePath =>
    refine OValue.system.elim w hidx fun profilePath' _ hw heq => ?_
    obtain ⟨rfl, hst⟩ := splits_str profilePath profilePath' s t hv hw heq
    exact ⟨by simp only [Same], hst⟩
  | capability kind identity metadata =>
    refine OValue.capability.elim w hidx fun kind' identity' metadata' _ hw heq => ?_
    rw [Same]
    exact ((splits_name name_injective kind).append ((splits_str identity).append
      (splits_hashMap hin))) (kind', identity', metadata') s t hv hw heq
  | snapshot kind identity state =>
    refine OValue.snapshot.elim w hidx fun kind' identity' state' _ hw heq => ?_
    rw [Same]
    exact ((splits_name SnapshotKind.name_injective kind).append ((splits_str identity).append
      (splits_hashMap hin))) (kind', identity', state') s t hv hw heq
  | thunk body deps fingerprint =>
    refine OValue.thunk.elim w hidx fun body' deps' fingerprint' _ hw heq => ?_
    rw [Same]
    exact ((splits_str body).append ((splits_items hin).append (splits_str fingerprint)))
      (body', deps', fingerprint') s t hv hw heq
  | group mode members fingerprint =>
    refine OValue.group.elim w hidx fun mode' members' fingerprint' _ hw heq => ?_
    rw [Same]
    exact ((splits_name GroupMode.name_injective mode).append ((splits_items hin).append
      (splits_str fingerprint))) (mode', members', fingerprint') s t hv hw heq
  | error msg =>
    refine OValue.error.elim w hidx fun msg' _ hw heq => ?_
    obtain ⟨rfl, hst⟩ := splits_str msg msg' s t hv hw heq
    exact ⟨by simp only [Same], hst⟩

/-- The canonical bytes of a value can be split off the front of a longer string. -/
lemma splits_encodeCanonical (v : OValue) : Splits encodeCanonical Same v := by
  induction v using OValue.induction with
  | h v ih =>
    have hinner : Splits (fun v : OValue => tag v.tagName ++ v.encodePayload) Same v :=
      splits_tagged fun w s t hname hv hw heq => payload_splits ih hname hv hw heq
    intro w s t hv hw heq
    simp only [encodeCanonical, append_assoc] at heq
    rw [encodeCanonical, length_append] at hv hw
    exact hinner w s t ((Nat.le_add_left _ _).trans_lt hv) ((Nat.le_add_left _ _).trans_lt hw)
      (by simpa only [append_assoc] using append_cancel_left heq)

/-- Two values have the same canonical bytes exactly when they are equivalent. -/
theorem canonicalBytes_eq_iff (a b : InMemory) :
    a.value.canonicalBytes = b.value.canonicalBytes ↔ Same a.value b.value := by
  constructor
  · intro h
    exact (splits_encodeCanonical a.value b.value [] [] a.fits b.fits (congrArg (· ++ []) h)).1
  · exact encode_eq_of_same a.keys

def flagsMap (flags : List (String × Bool)) : OValue := .map (flags.map fun e => (e.1, .bool e.2))

lemma keysOk_flagsMap {flags : List (String × Bool)} (h : (flags.map Prod.fst).Nodup) (w : OValue)
    (hw : Occurs w (flagsMap flags)) : KeysOk w := by
  cases hw with
  | refl => simpa [flagsMap, KeysOk, Function.comp_def] using h
  | step hc hw =>
    simp only [flagsMap, children, map_map, mem_map, Function.comp_apply] at hc
    obtain ⟨flag, -, rfl⟩ := hc
    cases hw with
    | refl => trivial
    | step hc hw => cases hc

theorem canonicalBytes_eq_iff_reordered :
    (flagsMap [("a", true), ("b", false)]).canonicalBytes =
      (flagsMap [("b", false), ("a", true)]).canonicalBytes :=
  (canonicalBytes_eq_iff ⟨_, keysOk_flagsMap (by decide), by decide +kernel⟩
    ⟨_, keysOk_flagsMap (by decide), by decide +kernel⟩).2
    (by simpa [flagsMap, Same] using ⟨_, .swap _ _ _, by simp [SameFields, Same]⟩)

end Ostadix.OValue
