import Ostadix.OValueCanonical

/-! Resolution of a group: requests without an evaluator run on threads, and the mode weighs the
outcomes. -/

namespace Ostadix.Evaluator

open List

abbrev Result := Except String

/-- What requests come to, and the order in which threads finish. Places list positions inside out.
-/
structure Outcomes where
  forceRequest : List ℕ → OValue → Result OValue
  execNixKind : List ℕ → RequestKind → OValue → Result OValue
  parallelism : ℕ
  arrival : List ℕ → ℕ → List (ℕ × Result OValue) → List (ℕ × Result OValue)
  arrival_perm : ∀ place chunk l, (arrival place chunk l).Perm l

/-- A member at its position, and what resolving it on the evaluator gives. -/
structure Member where
  index : ℕ
  value : OValue
  resolved : Result OValue

abbrev Thread := ℕ × RequestKind × OValue

def isThreadableMember : OValue → Bool
  | .request .instantiate _ _ => true
  | .request .realise _ _ => true
  | .request (.activate _ true none) _ _ => true
  | _ => false

variable (o : Outcomes) (place : List ℕ)

/-- Only threadable members are passed here, so that the last case does not occur. -/
def preResolveNixRequest : OValue → Result (RequestKind × OValue)
  | .request kind source _ => do
    let resolved ← match source with
      | .request .. => o.forceRequest (0 :: place) source
      | concrete => .ok concrete
    return (kind, resolved)
  | _ => .error "pre_resolve_nix_request: expected a Nix-family Request"

def runThread (thread : Thread) : ℕ × Result OValue :=
  (thread.1, o.execNixKind (thread.1 :: place) thread.2.1 thread.2.2)

/-! ## Batch and all -/

/-- A member is settled before any thread starts, or left to a thread. -/
def classify (m : Member) : Result OValue ⊕ Thread :=
  if isThreadableMember m.value then
    match preResolveNixRequest o (m.index :: place) m.value with
    | .ok (kind, source) => .inr (m.index, kind, source)
    | .error e => .inl (.error e)
  else .inl m.resolved

/-- Chunks of `cap` elements; there are at most as many as elements. -/
def chunks {α : Type} (cap : ℕ) : ℕ → List α → List (List α)
  | 0, _ => []
  | _ + 1, [] => []
  | fuel + 1, l => l.take cap :: chunks cap fuel (l.drop cap)

def arrivals (threads : List Thread) : List (ℕ × Result OValue) :=
  (chunks (max o.parallelism 1) threads.length threads).zipIdx.flatMap fun (chunk, c) =>
    o.arrival place c (chunk.map (runThread o place))

def fill (slots : List (Option (Result OValue))) (results : List (ℕ × Result OValue)) :
    List (Option (Result OValue)) :=
  results.foldl (fun slots (i, result) => slots.set i (some result)) slots

def assemble (mode : GroupMode) : ℕ → List (Option (Result OValue)) → Result (List OValue)
  | _, [] => .ok []
  | _, none :: _ => .error "every member slot must be filled after phases 1-3"
  | i, some result :: slots => do
    let value ← match result, mode with
      | .ok v, _ => .ok v
      | .error e, .batch => .ok (.error s!"member {i}: {e}")
      | .error _, _ => .error (mode.name ++ s!"(...) group: member {i} failed")
    return value :: (← assemble mode (i + 1) slots)

def resolveCollectAllConcurrent (mode : GroupMode) (members : List Member) : Result OValue := do
  let classified := members.map (classify o place)
  let results := arrivals o place (classified.filterMap Sum.getRight?)
  return .list (← assemble mode 0 (fill (classified.map Sum.getLeft?) results))

/-! ## Any and race -/

inductive Walk where
  | settled (result : Result OValue)
  | dispatched (threads : List Thread)

/-- Members on the evaluator are tried in order; a source that fails ends the group. -/
def walk (mode : GroupMode) : List Member → List Thread → Walk
  | [], threads => .dispatched threads
  | m :: members, threads =>
    if isThreadableMember m.value then
      match preResolveNixRequest o (m.index :: place) m.value with
      | .ok (kind, source) => walk mode members (threads ++ [(m.index, kind, source)])
      | .error e => .settled (.error e)
    else match mode, m.resolved with
      | .any, .error _ => walk mode members threads
      | .any, .ok v => .settled (.ok v)
      | _, _ => .settled (m.resolved.mapError fun _ => "race(...) group: lead member failed")

def firstOk (memberCount : ℕ) : List (Result OValue) → Result OValue
  | [] => .error s!"any(...) group: all {memberCount} members failed"
  | .ok v :: _ => .ok v
  | .error _ :: results => firstOk memberCount results

def resolveFirstWinsConcurrent (mode : GroupMode) (members : List Member) : Result OValue :=
  match walk o place mode members [] with
  | .settled result => result
  | .dispatched [] =>
    .error (mode.name ++ "(...) group: all " ++ toString members.length ++ " members failed")
  | .dispatched threads =>
    let finished := (o.arrival place 0 (threads.map (runThread o place))).map Prod.snd
    match mode with
    | .any => firstOk members.length finished
    | _ => (finished.head?.getD (.error "race(...) group: no results received")).mapError
        fun _ => "race(...) group: winner"

/-! ## Groups -/

def resolveGroup (mode : GroupMode) (members : List Member) : Result OValue :=
  match members with
  | [] => .error (mode.name ++ "(...) group has no members to resolve")
  | lead :: _ =>
    if members.any fun m => isThreadableMember m.value then
      match mode with
      | .batch | .all => resolveCollectAllConcurrent o place mode members
      | .any | .race => resolveFirstWinsConcurrent o place mode members
    else match mode with
      | .batch => .ok (.list (members.map fun m => match m.resolved with
          | .ok v => v
          | .error e => .error e))
      | .all => do return .list (← members.mapM Member.resolved)
      | .any => firstOk members.length (members.map Member.resolved)
      | .race => lead.resolved.mapError fun _ => "race(...) group: lead member failed"

mutual

def resolveMember (place : List ℕ) : OValue → Result OValue
  | .request kind source fingerprint => o.forceRequest place (.request kind source fingerprint)
  | .group mode members _ => resolveGroup o place mode (resolveMembers place 0 members)
  | v => .ok v

def resolveMembers (place : List ℕ) (i : ℕ) : List OValue → List Member
  | [] => []
  | m :: members => ⟨i, m, resolveMember (i :: place) m⟩ :: resolveMembers place (i + 1) members

end

/-! ## What the members come to -/

/-- The outcome of one member: a request needs its source and then its own operation. -/
def outcome (m : Member) : Result OValue :=
  if isThreadableMember m.value then do
    let (kind, source) ← preResolveNixRequest o (m.index :: place) m.value
    o.execNixKind (m.index :: place) kind source
  else m.resolved

/-- A request whose source fails stands before every success on the evaluator. -/
def SourceFailsFirst : List Member → Prop
  | [] => False
  | m :: members =>
    if isThreadableMember m.value then
      match preResolveNixRequest o (m.index :: place) m.value with
      | .ok _ => SourceFailsFirst members
      | .error _ => True
    else match m.resolved with
      | .ok _ => False
      | .error _ => SourceFailsFirst members

def Slot : Result OValue → OValue → Prop
  | .ok v, slot => slot = v
  | .error _, slot => ∃ text, slot = .error text

/-! ### What the modes promise about the members of a group -/

def BatchPromised (members : List Member) : Prop :=
  ∃ slots, resolveGroup o place .batch members = .ok (.list slots) ∧
    List.Forall₂ Slot (members.map (outcome o place)) slots

def AllPromised (members : List Member) : Prop :=
  ∀ r, resolveGroup o place .all members = .ok r ↔
    ∃ values, members.map (outcome o place) = values.map .ok ∧ r = .list values

structure AnyPromised (members : List Member) : Prop where
  found : (∃ v, resolveGroup o place .any members = .ok v) ↔
    ∃ v, .ok v ∈ members.map (outcome o place)
  winner : ∀ v, resolveGroup o place .any members = .ok v → .ok v ∈ members.map (outcome o place)

variable {o place} {members : List Member} {threads : List Thread}
  {slots : List (Option (Result OValue))} {results : List (ℕ × Result OValue)}
  {outs : List (Result OValue)}

/-! ### Threads fill the slots -/

lemma mem_chunks {α : Type} {cap : ℕ} (hcap : 1 ≤ cap) (fuel : ℕ) (l : List α)
    (hfuel : l.length ≤ fuel) (a : α) : (∃ chunk ∈ chunks cap fuel l, a ∈ chunk) ↔ a ∈ l := by
  induction fuel generalizing l with
  | zero =>
    obtain rfl := length_eq_zero_iff.1 (Nat.le_zero.1 hfuel)
    simp [chunks]
  | succ fuel ih =>
    cases l with
    | nil => simp [chunks]
    | cons b l =>
      have hrest : ((b :: l).drop cap).length ≤ fuel := by
        rw [length_drop]
        omega
      have hsplit : a ∈ b :: l ↔ a ∈ (b :: l).take cap ∨ a ∈ (b :: l).drop cap := by
        rw [← mem_append, take_append_drop]
      have hstep : chunks cap (fuel + 1) (b :: l) =
          (b :: l).take cap :: chunks cap fuel ((b :: l).drop cap) := rfl
      rw [hstep, hsplit, ← ih _ hrest]
      simp only [mem_cons, exists_eq_or_imp]

lemma mem_arrivals {result : ℕ × Result OValue} :
    result ∈ arrivals o place threads ↔ ∃ thread ∈ threads, runThread o place thread = result := by
  have hchunks := mem_chunks (le_max_right o.parallelism 1) threads.length threads le_rfl
  simp only [arrivals, mem_flatMap, (o.arrival_perm place _ _).mem_iff, mem_map]
  constructor
  · rintro ⟨⟨chunk, c⟩, hchunk, thread, hthread, rfl⟩
    exact ⟨thread, (hchunks thread).1 ⟨chunk, fst_mem_of_mem_zipIdx hchunk, hthread⟩, rfl⟩
  · rintro ⟨thread, hthread, rfl⟩
    obtain ⟨chunk, hchunk, hthread⟩ := (hchunks thread).2 hthread
    obtain ⟨c, hc⟩ := getElem?_of_mem hchunk
    exact ⟨(chunk, c), mem_zipIdx_iff_getElem?.2 hc, thread, hthread, rfl⟩

/-- Results that agree with the outcomes and reach every open slot fill the slots with them. -/
lemma fill_eq (hlen : slots.length = outs.length)
    (hslots : ∀ (j : ℕ) result, slots[j]? = some (some result) → outs[j]? = some result)
    (hresults : ∀ (j : ℕ) result, (j, result) ∈ results → outs[j]? = some result)
    (hopen : ∀ j : ℕ, slots[j]? = some none → ∃ result, (j, result) ∈ results) :
    fill slots results = outs.map some := by
  induction results generalizing slots with
  | nil =>
    apply ext_getElem?
    intro j
    change slots[j]? = _
    rw [getElem?_map]
    cases hslot : slots[j]? with
    | none =>
      rw [getElem?_eq_none_iff, hlen] at hslot
      rw [getElem?_eq_none_iff.2 hslot, Option.map_none]
    | some slot =>
      cases slot with
      | none => exact absurd (hopen j hslot).choose_spec not_mem_nil
      | some result => rw [hslots j result hslot, Option.map_some]
  | cons first results ih =>
    obtain ⟨k, result⟩ := first
    have hk := hresults k result mem_cons_self
    have hset : ∀ j slot, (slots.set k (some result))[j]? = some slot →
        k = j ∧ some result = slot ∨ k ≠ j ∧ slots[j]? = some slot := by
      intro j slot hj
      by_cases hkj : k = j
      · subst hkj
        rw [List.getElem?_set_self (hlen ▸ (List.getElem?_eq_some_iff.1 hk).1)] at hj
        exact .inl ⟨rfl, Option.some.inj hj⟩
      · rw [getElem?_set_ne hkj] at hj
        exact .inr ⟨hkj, hj⟩
    refine @ih (slots.set k (some result)) (by rw [length_set, hlen])
      (fun j r hj => ?_) (fun j r hj => hresults j r (mem_cons_of_mem _ hj)) fun j hj => ?_
    · rcases hset j _ hj with ⟨rfl, heq⟩ | ⟨-, hj⟩
      · cases heq
        exact hk
      · exact hslots j r hj
    rcases hset j _ hj with ⟨-, heq⟩ | ⟨hkj, hj⟩
    · cases heq
    · obtain ⟨r, hr⟩ := hopen j hj
      exact ⟨r, (mem_cons.1 hr).resolve_left fun heq => hkj (congrArg Prod.fst heq).symm⟩

lemma classify_spec (m : Member) : match classify o place m with
    | .inl result => outcome o place m = result
    | .inr thread => runThread o place thread = (m.index, outcome o place m) := by
  unfold classify outcome
  by_cases h : isThreadableMember m.value
  · rw [if_pos h, if_pos h]
    rcases preResolveNixRequest o (m.index :: place) m.value with e | ⟨kind, source⟩ <;> rfl
  · rw [if_neg h, if_neg h]

/-- However the threads finish, every slot ends up with the outcome of its member. -/
lemma fill_arrivals (hindex : ∀ (j : ℕ) m, members[j]? = some m → m.index = j) :
    fill ((members.map (classify o place)).map Sum.getLeft?)
        (arrivals o place ((members.map (classify o place)).filterMap Sum.getRight?)) =
      (members.map (outcome o place)).map some := by
  have hslot : ∀ (j : ℕ) slot,
      ((members.map (classify o place)).map Sum.getLeft?)[j]? = some slot →
        ∃ m, members[j]? = some m ∧ (classify o place m).getLeft? = slot := by
    intro j slot hj
    simpa using hj
  refine fill_eq (by simp) (fun j result hj => ?_) (fun j result hj => ?_) fun j hj => ?_
  · obtain ⟨m, hm, hleft⟩ := hslot j _ hj
    have hspec := @classify_spec o place m
    rw [Sum.getLeft?_eq_some_iff.1 hleft] at hspec
    rw [getElem?_map, hm, Option.map_some, hspec]
  · obtain ⟨thread, hthread, hrun⟩ := mem_arrivals.1 hj
    obtain ⟨_, hclass, hright⟩ := mem_filterMap.1 hthread
    obtain ⟨m, hm, rfl⟩ := mem_map.1 hclass
    have hspec := @classify_spec o place m
    rw [Sum.getRight?_eq_some_iff.1 hright] at hspec
    obtain ⟨rfl, rfl⟩ := Prod.mk.inj (hspec.symm.trans hrun)
    obtain ⟨k, hk⟩ := getElem?_of_mem hm
    rw [getElem?_map, hindex k m hk, hk, Option.map_some]
  · obtain ⟨m, hm, hleft⟩ := hslot j _ hj
    obtain ⟨thread, hthread⟩ := Sum.isRight_iff.1 (Sum.getLeft?_eq_none_iff.1 hleft)
    have hspec := @classify_spec o place m
    rw [hthread] at hspec
    refine ⟨outcome o place m, mem_arrivals.2 ⟨thread, mem_filterMap.2 ⟨.inr thread, ?_, rfl⟩, ?_⟩⟩
    · rw [← hthread]
      exact mem_map_of_mem (mem_of_getElem? hm)
    · rw [← hindex j m hm]
      exact hspec

lemma assemble_batch (outs : List (Result OValue)) : ∀ i, ∃ slots,
    assemble .batch i (outs.map some) = .ok slots ∧ List.Forall₂ Slot outs slots := by
  induction outs with
  | nil => exact fun i => ⟨[], rfl, .nil⟩
  | cons result outs ih =>
    intro i
    obtain ⟨slots, hslots, hforall⟩ := ih (i + 1)
    cases result with
    | ok v => exact ⟨v :: slots, by simp [assemble, hslots]; rfl, .cons rfl hforall⟩
    | error e => exact ⟨_ :: slots, by simp [assemble, hslots]; rfl, .cons ⟨_, rfl⟩ hforall⟩

lemma assemble_all (outs : List (Result OValue)) : ∀ i values,
    assemble .all i (outs.map some) = .ok values ↔ outs = values.map .ok := by
  induction outs with
  | nil =>
    intro i values
    cases values <;> simp [assemble]
  | cons result outs ih =>
    intro i values
    cases result with
    | ok v =>
      simp only [map_cons, assemble, bind_eq_ok, ih]
      cases values with
      | nil => simp [pure, Except.pure]
      | cons w values => simp [pure, Except.pure, and_comm]
    | error e => cases values <;> simp [assemble, bind, Except.bind]

/-! ### The first success -/

lemma firstOk_mem {n : ℕ} {v : OValue} {l : List (Result OValue)} (h : firstOk n l = .ok v) :
    .ok v ∈ l := by
  induction l with
  | nil => cases h
  | cons result l ih =>
    cases result with
    | ok w =>
      cases h
      exact mem_cons_self
    | error e => exact mem_cons_of_mem _ (ih h)

lemma firstOk_isOk {n : ℕ} {v : OValue} {l : List (Result OValue)} (h : .ok v ∈ l) :
    ∃ w, firstOk n l = .ok w := by
  induction l with
  | nil => cases h
  | cons result l ih =>
    cases result with
    | ok w => exact ⟨w, rfl⟩
    | error e => exact ih ((mem_cons.1 h).resolve_left nofun)

variable (o place) in
/-- What a walk over the members says about them and the threads it started with. -/
def Walked (members : List Member) (threads : List Thread) : Walk → Prop
  | .settled (.ok v) => ¬SourceFailsFirst o place members ∧ .ok v ∈ members.map (outcome o place)
  | .settled (.error _) => SourceFailsFirst o place members
  | .dispatched threads' => ¬SourceFailsFirst o place members ∧
    ∀ v, (∃ t ∈ threads', (runThread o place t).2 = .ok v) ↔
      (∃ t ∈ threads, (runThread o place t).2 = .ok v) ∨ .ok v ∈ members.map (outcome o place)

lemma walk_any (members : List Member) :
    ∀ threads, Walked o place members threads (walk o place .any members threads) := by
  induction members with
  | nil => exact fun threads => ⟨id, fun v => by simp⟩
  | cons m members ih =>
    intro threads
    -- a member that settles nothing hands its own success to the threads, if it has one
    have hnext : ∀ threads', (SourceFailsFirst o place (m :: members) =
          SourceFailsFirst o place members) →
        (∀ v, (∃ t ∈ threads', (runThread o place t).2 = .ok v) ↔
          (∃ t ∈ threads, (runThread o place t).2 = .ok v) ∨ outcome o place m = .ok v) →
        Walked o place (m :: members) threads (walk o place .any members threads') := by
      intro threads' hfails hthreads
      have hwalk := ih threads'
      unfold Walked at hwalk ⊢
      split at hwalk
      · exact ⟨hfails ▸ hwalk.1, mem_cons_of_mem _ hwalk.2⟩
      · exact hfails ▸ hwalk
      · refine ⟨hfails ▸ hwalk.1, fun v => ?_⟩
        rw [hwalk.2 v, hthreads v, map_cons, mem_cons, or_assoc, eq_comm]
    unfold walk
    split
    · next hthreadable =>
      split
      · next kind source hpre =>
        refine hnext _ (by simp [SourceFailsFirst, hthreadable, hpre]) fun v => ?_
        simp [outcome, hthreadable, hpre, runThread, or_and_right, exists_or, bind, Except.bind]
      · next e hpre => simp [Walked, SourceFailsFirst, hthreadable, hpre]
    · next hserial =>
      cases hresolved : m.resolved with
      | error e =>
        refine hnext _ (by simp [SourceFailsFirst, hserial, hresolved]) fun v => ?_
        simp [outcome, hserial, hresolved]
      | ok v => simp [Walked, SourceFailsFirst, hserial, outcome, hresolved]

/-! ### Groups -/

lemma serial (members : List Member)
    (h : ¬members.any fun m => isThreadableMember m.value) :
    members.map (outcome o place) = members.map Member.resolved ∧
      ¬SourceFailsFirst o place members := by
  induction members with
  | nil => exact ⟨rfl, id⟩
  | cons m members ih =>
    rw [any_cons, Bool.or_eq_true, not_or] at h
    obtain ⟨houts, hfails⟩ := ih h.2
    refine ⟨by simp [outcome, h.1, houts], ?_⟩
    cases hresolved : m.resolved <;> simp [SourceFailsFirst, h.1, hresolved, hfails]

/-- Any gives a success, and gives one where there is one unless a failing source comes first. -/
lemma resolveGroup_any (members : List Member) :
    (∀ v, resolveGroup o place .any members = .ok v → ¬SourceFailsFirst o place members ∧
      .ok v ∈ members.map (outcome o place)) ∧
    (¬SourceFailsFirst o place members → ∀ v, .ok v ∈ members.map (outcome o place) →
      ∃ w, resolveGroup o place .any members = .ok w) := by
  unfold resolveGroup
  split
  · exact ⟨nofun, nofun⟩
  rename_i lead rest
  split
  · have hwalk := @walk_any o place (lead :: rest) []
    unfold resolveFirstWinsConcurrent
    unfold Walked at hwalk
    split at hwalk
    · next v hsettled =>
      rw [hsettled]
      exact ⟨fun w hw => by cases hw; exact hwalk, fun _ _ _ => ⟨v, rfl⟩⟩
    · next hsettled =>
      rw [hsettled]
      exact ⟨nofun, fun hfails => absurd hwalk hfails⟩
    rename_i threads hdispatched
    rw [hdispatched]
    have hmem : ∀ v, .ok v ∈ (o.arrival place 0 (threads.map (runThread o place))).map Prod.snd ↔
        .ok v ∈ (lead :: rest).map (outcome o place) := by
      intro v
      rw [((o.arrival_perm place _ _).map _).mem_iff, map_map, mem_map]
      exact (hwalk.2 v).trans (by simp)
    cases threads with
    | nil =>
      refine ⟨nofun, fun _ v hv => ?_⟩
      simpa using (hwalk.2 v).2 (.inr hv)
    | cons thread threads =>
      exact ⟨fun v hv => ⟨hwalk.1, (hmem v).1 (firstOk_mem hv)⟩,
        fun _ v hv => firstOk_isOk ((hmem v).2 hv)⟩
  · next hserial =>
    obtain ⟨houts, hfails⟩ := @serial o place _ hserial
    rw [houts]
    exact ⟨fun v hv => ⟨hfails, firstOk_mem hv⟩, fun _ v hv => firstOk_isOk hv⟩

lemma resolveGroup_batch (hne : members ≠ [])
    (hindex : ∀ (j : ℕ) m, members[j]? = some m → m.index = j) :
    BatchPromised o place members := by
  unfold BatchPromised resolveGroup
  split
  · exact absurd rfl hne
  rename_i lead rest
  split
  · obtain ⟨slots, hslots, hforall⟩ := assemble_batch ((lead :: rest).map (outcome o place)) 0
    refine ⟨slots, ?_, hforall⟩
    simp only [resolveCollectAllConcurrent, fill_arrivals hindex, hslots]
    rfl
  rename_i hserial
  rw [(serial _ hserial).1]
  refine ⟨_, rfl, ?_⟩
  rw [forall₂_map_left_iff, forall₂_map_right_iff]
  refine forall₂_same.2 fun m _ => ?_
  cases m.resolved with
  | error e => exact ⟨e, rfl⟩
  | ok v => rfl

lemma resolveGroup_all (hne : members ≠ [])
    (hindex : ∀ (j : ℕ) m, members[j]? = some m → m.index = j) : AllPromised o place members := by
  intro r
  unfold resolveGroup
  split
  · exact absurd rfl hne
  split
  · simp only [resolveCollectAllConcurrent, fill_arrivals hindex, bind_eq_ok, assemble_all, pure,
      Except.pure, Except.ok.injEq, eq_comm (a := r)]
  rename_i hserial
  rw [(serial _ hserial).1]
  simp only [bind_eq_ok, mapM_eq_ok, pure, Except.pure, Except.ok.injEq, eq_comm (a := r)]
  refine exists_congr fun values => and_congr_left fun _ => ?_
  rw [← forall₂_eq_eq_eq, forall₂_map_left_iff, forall₂_map_right_iff]

lemma index_resolveMembers (values : List OValue) : ∀ (i j : ℕ) m,
    (resolveMembers o place i values)[j]? = some m → m.index = i + j := by
  induction values with
  | nil => exact fun i j m h => by cases h
  | cons v values ih =>
    intro i j m h
    cases j with
    | zero =>
      cases h
      rfl
    | succ j => exact (ih (i + 1) j m h).trans (by omega)

/-- Batch and All keep their promises for every group with members. Any keeps its promise where no
failing source hides a success. -/
theorem resolveGroup_promised_iff (values : List OValue) :
    let members := resolveMembers o place 0 values
    (BatchPromised o place members ↔ values ≠ []) ∧ (AllPromised o place members ↔ values ≠ []) ∧
      (AnyPromised o place members ↔
        (SourceFailsFirst o place members → ∀ v, .ok v ∉ members.map (outcome o place))) := by
  intro members
  have hindex : ∀ (j : ℕ) m, members[j]? = some m → m.index = j :=
    fun j m hm => (index_resolveMembers values 0 j m hm).trans (Nat.zero_add j)
  have hne : values ≠ [] → members ≠ [] := by
    intro hvalues hmembers
    cases values with
    | nil => exact hvalues rfl
    | cons v values => exact cons_ne_nil _ _ hmembers
  obtain ⟨hwinner, hfound⟩ := @resolveGroup_any o place members
  refine ⟨⟨?_, fun h => resolveGroup_batch (hne h) hindex⟩,
    ⟨?_, fun h => resolveGroup_all (hne h) hindex⟩, ?_, ?_⟩
  · rintro ⟨slots, hslots, -⟩ rfl
    cases hslots
  · rintro h rfl
    cases (h (.list [])).2 ⟨[], rfl, rfl⟩
  · intro h hfails v hv
    obtain ⟨w, hw⟩ := h.found.2 ⟨v, hv⟩
    exact (hwinner w hw).1 hfails
  · intro hfails
    refine ⟨⟨?_, ?_⟩, fun v hv => (hwinner v hv).2⟩
    · rintro ⟨v, hv⟩
      exact ⟨v, (hwinner v hv).2⟩
    · rintro ⟨v, hv⟩
      exact hfound (fun hfirst => hfails hfirst v hv) v hv

def withoutSources : Outcomes where
  forceRequest _ _ := .error "no source"
  execNixKind _ _ source := .ok source
  parallelism := 1
  arrival _ _ l := l
  arrival_perm _ _ _ := .refl _

def hiddenSuccess : List OValue :=
  [.request .realise (.request .instantiate .null "") "", .bool true]

/-- The second member succeeds, but any gives the failure of the first one's source. -/
theorem any_hides_success :
    resolveGroup withoutSources [] .any (resolveMembers withoutSources [] 0 hiddenSuccess) =
        .error "no source" ∧
      (resolveMembers withoutSources [] 0 hiddenSuccess).map (outcome withoutSources []) =
        [.error "no source", .ok (.bool true)] :=
  ⟨rfl, rfl⟩

/-- With the members exchanged the success comes first. -/
theorem promised_of_success_first :
    AnyPromised withoutSources [] (resolveMembers withoutSources [] 0 hiddenSuccess.reverse) :=
  (resolveGroup_promised_iff _).2.2.2 False.elim

end Ostadix.Evaluator
