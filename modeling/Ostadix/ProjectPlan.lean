import Ostadix.Project
import Mathlib.Data.List.Perm.Subperm
import Mathlib.Logic.Relation

/-! What a project plan contains. Prerequisites have lower rank, which bounds the recursion, and are
appended first. -/

namespace Ostadix.Project

open List ProjectPlanOperation

variable {bundle : ProjectBundle}

def Prerequisite (bundle : ProjectBundle) (r p : String) : Prop :=
  ∃ route, bundle.route r = some route ∧ p ∈ route.prerequisites

/-- `x` is `r` or one of its direct or indirect prerequisites. -/
def Requires (bundle : ProjectBundle) : String → String → Prop :=
  Relation.ReflTransGen (Prerequisite bundle)

variable {r : String} {routes visited visiting : List String}
  {operations : List ProjectPlanOperation} {branch : ℕ} {places : List (Option ℕ × ExecutableOp)}

lemma mem_ids_of_route {route : RouteSpec} (h : bundle.route r = some route) :
    r ∈ bundle.routes.map RouteSpec.id := by
  have hid : route.id = r := by simpa using find?_some h
  exact mem_map.2 ⟨route, mem_of_find?_eq_some h, hid⟩

/-! ## The search for cycles -/

def Visited (bundle : ProjectBundle) (visited : List String) : Prop :=
  ∀ later r before, visited = later ++ r :: before →
    ∀ p, Prerequisite bundle r p → p ∈ before

lemma Visited.cons {visited : List String} (h : Visited bundle visited) {r : String}
    (hr : ∀ p, Prerequisite bundle r p → p ∈ visited) : Visited bundle (r :: visited) := by
  intro later x before hsplit p hp
  cases later with
  | nil =>
    cases hsplit
    exact hr p hp
  | cons y later =>
    rw [cons_append, List.cons.injEq] at hsplit
    exact h later x before hsplit.2 p hp

/-- What a search that starts below `visiting` adds to what was visited. -/
structure Extends (bundle : ProjectBundle) (visiting visited visited' : List String) : Prop where
  suffix : visited <:+ visited'
  closed : Visited bundle visited → Visited bundle visited'
  nodup : visited.Nodup → (∀ v ∈ visiting, v ∉ visited) →
    visited'.Nodup ∧ ∀ v ∈ visiting, v ∉ visited'
  exist : ∀ v ∈ visited', v ∈ visited ∨ v ∈ bundle.routes.map RouteSpec.id

lemma Extends.refl (visiting visited : List String) : Extends bundle visiting visited visited :=
  ⟨suffix_refl _, id, fun h h' => ⟨h, h'⟩, fun _ => .inl⟩

lemma Extends.trans {a b c : List String} (h : Extends bundle visiting a b)
    (h' : Extends bundle visiting b c) : Extends bundle visiting a c := by
  refine ⟨h.suffix.trans h'.suffix, h'.closed ∘ h.closed, fun hnodup hnew => ?_, fun v hv => ?_⟩
  · obtain ⟨hnodup, hnew⟩ := h.nodup hnodup hnew
    exact h'.nodup hnodup hnew
  · rcases h'.exist v hv with hv | hv
    · exact h.exist v hv
    · exact .inr hv

/-- A loop of searches visits everything it is given. -/
lemma extends_of_foldlM {search : List String → String → Except ProjectError (List String)}
    (step : ∀ visited r visited', search visited r = .ok visited' →
      Extends bundle visiting visited visited' ∧ r ∈ visited') {l visited' : List String}
    (h : l.foldlM search visited = .ok visited') :
    Extends bundle visiting visited visited' ∧ ∀ r ∈ l, r ∈ visited' := by
  induction l generalizing visited with
  | nil =>
    cases h
    exact ⟨.refl _ _, nofun⟩
  | cons r l ih =>
    rw [foldlM_cons] at h
    obtain ⟨middle, hfirst, hrest⟩ := bind_eq_ok.1 h
    obtain ⟨hextends, hr⟩ := step _ _ _ hfirst
    obtain ⟨hextends', hl⟩ := ih hrest
    exact ⟨hextends.trans hextends', forall_mem_cons.2 ⟨hextends'.suffix.subset hr, hl⟩⟩

variable {fuel : ℕ}

lemma extends_of_visit {visited' : List String}
    (h : visit bundle fuel visiting visited r = .ok visited') :
    Extends bundle visiting visited visited' ∧ r ∈ visited' := by
  induction fuel generalizing visiting visited visited' r with
  | zero => cases h
  | succ fuel ih =>
    rw [visit] at h
    split at h
    · next hmem =>
      cases h
      exact ⟨.refl _ _, hmem⟩
    simp only [bind_eq_ok, ensure_eq_ok, orError_eq_ok] at h
    obtain ⟨⟨⟩, hnot, route, hroute, inner, hinner, hvisited⟩ := h
    cases hvisited
    obtain ⟨hextends, hall⟩ := extends_of_foldlM (fun _ _ _ => ih) hinner
    refine ⟨⟨hextends.suffix.trans (suffix_cons _ _), fun hclosed => ?_,
      fun hnodup hnew => ?_, fun v hv => ?_⟩, mem_cons_self⟩
    · apply (hextends.closed hclosed).cons
      rintro p ⟨route', hroute', hp⟩
      cases hroute.symm.trans hroute'
      exact hall p hp
    · next hr =>
      obtain ⟨hnodup', hnew'⟩ := hextends.nodup hnodup (forall_mem_cons.2 ⟨hr, hnew⟩)
      obtain ⟨hr', hnew'⟩ := forall_mem_cons.1 hnew'
      refine ⟨nodup_cons.2 ⟨hr', hnodup'⟩, fun v hv hmem => ?_⟩
      rcases mem_cons.1 hmem with rfl | hmem
      · exact hnot hv
      · exact hnew' v hv hmem
    · rcases mem_cons.1 hv with rfl | hv
      · exact .inr (mem_ids_of_route hroute)
      · exact hextends.exist v hv

section Errors

variable {ε δ α β : Type} {e : ε}

lemma pure_ne_error {a : α} : (pure a : Except ε α) ≠ .error e := by
  rintro ⟨⟩

lemma bind_ne_error {x : Except ε α} {f : α → Except ε β} (hx : x ≠ .error e)
    (hf : ∀ a, x = .ok a → f a ≠ .error e) : x >>= f ≠ .error e := by
  rw [Ne, bind_eq_error]
  rintro (h | ⟨a, ha, h⟩)
  · exact hx h
  · exact hf a ha h

lemma foldlM_ne_error {f : β → α → Except ε β} {l : List α} {b : β}
    (h : ∀ a ∈ l, ∀ b, f b a ≠ .error e) : l.foldlM f b ≠ .error e := by
  induction l generalizing b with
  | nil => exact pure_ne_error
  | cons a l ih =>
    rw [foldlM_cons]
    exact bind_ne_error (h a mem_cons_self b) fun b' _ =>
      ih fun a' ha' => h a' (mem_cons_of_mem a ha')

lemma orError_ne_error {e' : ε} {o : Option α} (hne : e' ≠ e) : orError e' o ≠ .error e := by
  cases o with
  | none => exact fun h => hne (Except.error.inj h)
  | some a => exact pure_ne_error

lemma mapError_ne_error {x : Except δ α} {f : δ → ε} (hne : ∀ d, f d ≠ e) :
    x.mapError f ≠ .error e := by
  rw [Ne, mapError_eq_error]
  rintro ⟨d, -, hd⟩
  exact hne d hd

end Errors

/-- The routes on the way are distinct, so the search has fuel for all of them. -/
lemma visit_ne_diverges (hnodup : visiting.Nodup)
    (hexist : visiting ⊆ bundle.routes.map RouteSpec.id)
    (hfuel : bundle.routes.length < fuel + visiting.length) :
    visit bundle fuel visiting visited r ≠ .error .diverges := by
  induction fuel generalizing visiting visited r with
  | zero =>
    have hle := (subperm_of_subset hnodup hexist).length_le
    rw [length_map] at hle
    omega
  | succ fuel ih =>
    rw [visit]
    split
    · simp
    refine bind_ne_error (by simp) fun _ hok => bind_ne_error (orError_ne_error (by simp))
      fun route hroute => bind_ne_error (foldlM_ne_error fun p _ visited => ?_)
        fun _ _ => pure_ne_error
    apply ih
    · exact nodup_cons.2 ⟨ensure_eq_ok.1 hok, hnodup⟩
    · exact cons_subset.2 ⟨mem_ids_of_route (orError_eq_ok.1 hroute), hexist⟩
    · rw [length_cons]
      omega

/-! ## Ranks -/

/-- Prerequisites rank lower, and no route ranks above the number of routes. -/
structure Ranked (bundle : ProjectBundle) (rank : String → ℕ) : Prop where
  lower : ∀ r p, Prerequisite bundle r p → rank p < rank r
  bound : ∀ r, rank r ≤ bundle.routes.length

lemma exists_ranked_of_visited (h : Visited bundle visited) (hnodup : visited.Nodup)
    (hexist : visited ⊆ bundle.routes.map RouteSpec.id)
    (hall : ∀ r p, Prerequisite bundle r p → r ∈ visited) : ∃ rank, Ranked bundle rank := by
  -- A route ranks at its place in the order of the visits.
  refine ⟨fun r => visited.reverse.idxOf r, fun r p hp => ?_, fun r => ?_⟩
  · obtain ⟨before, later, hsplit, hnot⟩ :=
      eq_append_cons_of_mem (mem_reverse.2 (hall r p hp))
    have hvisited : visited = later.reverse ++ r :: before.reverse := by
      rw [← reverse_reverse visited, hsplit]
      simp
    have hbefore : p ∈ before := mem_reverse.1 (h _ r _ hvisited p hp)
    rw [hsplit, idxOf_append_of_mem hbefore, idxOf_append_of_notMem hnot,
      idxOf_cons_self, Nat.add_zero]
    exact idxOf_lt_length_iff.2 hbefore
  · have hle := (subperm_of_subset hnodup hexist).length_le
    rw [length_map] at hle
    have hidx := idxOf_le_length (a := r) (l := visited.reverse)
    rw [length_reverse] at hidx
    exact hidx.trans hle

lemma exists_ranked {u : Unit} (h : validateBundleStructure bundle = .ok u) :
    ∃ rank, Ranked bundle rank := by
  simp only [validateBundleStructure, validatePrerequisiteAcyclicity, bind_eq_ok] at h
  obtain ⟨-, -, ⟨⟩, -, -, -, ⟨⟩, -, visited, hvisited, -⟩ := h
  obtain ⟨hextends, hall⟩ := extends_of_foldlM (fun _ _ _ => extends_of_visit) hvisited
  have hclosed : Visited bundle visited := by
    apply hextends.closed
    intro later r before hsplit
    simp at hsplit
  refine exists_ranked_of_visited hclosed (hextends.nodup nodup_nil nofun).1 ?_ ?_
  · intro v hv
    exact (hextends.exist v hv).resolve_left not_mem_nil
  · rintro r p ⟨route, hroute, -⟩
    exact hall r (mem_ids_of_route hroute)

variable {rank : String → ℕ}

lemma Ranked.requires (h : Ranked bundle rank) {x : String}
    (hx : Requires bundle r x) : rank x ≤ rank r := by
  induction hx with
  | refl => exact le_rfl
  | tail _ hp ih => exact (h.lower _ _ hp).le.trans ih

/-! ## One branch -/

def buildOperation (branch : ℕ) (materialize : PlanNodeId) (route : RouteSpec) (r : String)
    (id : PlanNodeId) : ProjectPlanOperation :=
  ⟨id, .buildRoute r, [.value materialize], .pure, some branch, some (.fromRoute route)⟩

def runOperation (branch : ℕ) (route : RouteSpec) (r : String) (effects : EffectSummary)
    (prerequisiteResults : List PlanNodeId) (build : PlanNodeId) : ProjectPlanOperation :=
  ⟨build + 1, .runRoute r, .value build :: prerequisiteResults.map .success, effects, some branch,
    some (.fromRoute route)⟩

lemma pushRoute_eq (branch : ℕ) (materialize : PlanNodeId) (route : RouteSpec) (r : String)
    (effects : EffectSummary) (prerequisiteResults : List PlanNodeId) (s : Planning) :
    pushRoute branch materialize route r effects prerequisiteResults s =
      (⟨s.operations ++ [buildOperation branch materialize route r s.operations.length,
          runOperation branch route r effects prerequisiteResults s.operations.length],
        s.memo.insert r (s.operations.length + 1)⟩, s.operations.length + 1) := by
  simp [pushRoute, push, buildOperation, runOperation]

def runId (start : PlanNodeId) (routes : List String) (r : String) : PlanNodeId :=
  start + 2 * routes.idxOf r + 1

lemma runId_append {start : PlanNodeId} (hr : r ∈ routes) (news : List String) :
    runId start (routes ++ news) r = runId start routes r := by
  rw [runId, runId, idxOf_append_of_mem hr]

/-- The operations of a branch for the given routes, each once and after its prerequisites. -/
inductive Segment (bundle : ProjectBundle) (branch : ℕ) (materialize start : PlanNodeId) :
    List String → List ProjectPlanOperation → Prop
  | nil : Segment bundle branch materialize start [] []
  | snoc {routes : List String} {operations : List ProjectPlanOperation} {r : String}
      {route : RouteSpec} {effects : EffectSummary} :
      Segment bundle branch materialize start routes operations → r ∉ routes →
      bundle.route r = some route → (∀ p ∈ route.prerequisites, p ∈ routes) →
      routeEffects route = .ok effects →
      Segment bundle branch materialize start (routes ++ [r]) (operations ++
        [buildOperation branch materialize route r (start + operations.length),
          runOperation branch route r effects (route.prerequisites.map (runId start routes))
            (start + operations.length)])

/-- The branch has planned these routes, and remembers where they run. -/
structure Planned (bundle : ProjectBundle) (branch : ℕ) (materialize : PlanNodeId)
    (base : List ProjectPlanOperation) (routes : List String) (s : Planning) : Prop where
  segment : ∃ operations, s.operations = base ++ operations ∧
    Segment bundle branch materialize base.length routes operations
  memo : ∀ r, s.memo.lookup r = if r ∈ routes then some (runId base.length routes r) else none

section Branch

variable {branch : ℕ} {materialize start : PlanNodeId} {base : List ProjectPlanOperation}
  {routes : List String} {operations : List ProjectPlanOperation}

lemma Segment.length_eq (h : Segment bundle branch materialize start routes operations) :
    operations.length = 2 * routes.length := by
  induction h with
  | nil => rfl
  | snoc _ _ _ _ _ ih =>
    simp only [length_append, length_cons, length_nil, ih]
    omega

variable {s s' : Planning} {r : String}

/-- Planning a route whose prerequisites have been planned adds it at the end. -/
lemma Planned.pushRoute (h : Planned bundle branch materialize base routes s) {route : RouteSpec}
    {effects : EffectSummary} (hr : r ∉ routes) (hroute : bundle.route r = some route)
    (hall : ∀ p ∈ route.prerequisites, p ∈ routes) (heffects : routeEffects route = .ok effects)
    {run : PlanNodeId} (hpush : Project.pushRoute branch materialize route r effects
      (route.prerequisites.map (runId base.length routes)) s = (s', run)) :
    Planned bundle branch materialize base (routes ++ [r]) s' ∧
      run = runId base.length (routes ++ [r]) r := by
  obtain ⟨operations, hoperations, hsegment⟩ := h.segment
  have hlength : s.operations.length = base.length + operations.length := by
    rw [hoperations, length_append]
  have hrun : runId base.length (routes ++ [r]) r = s.operations.length + 1 := by
    rw [runId, idxOf_append_of_notMem hr, idxOf_cons_self, hlength, hsegment.length_eq]
    rfl
  rw [pushRoute_eq, Prod.mk.injEq] at hpush
  obtain ⟨rfl, rfl⟩ := hpush
  refine ⟨⟨⟨_, ?_, hsegment.snoc hr hroute hall heffects⟩, fun x => ?_⟩, hrun.symm⟩
  · rw [hoperations, append_assoc, length_append]
  rw [Table.lookup_insert_eq_ite]
  by_cases hx : x = r
  · subst hx
    simp [hrun]
  rw [if_neg hx, h.memo]
  by_cases hmem : x ∈ routes
  · simp [hmem, runId_append hmem]
  · simp [hmem, hx]

/-- What planning a route, or a list of them, adds to a branch. -/
structure Adds (bundle : ProjectBundle) (branch : ℕ) (materialize : PlanNodeId)
    (base : List ProjectPlanOperation) (wanted routes routes' : List String) (s' : Planning) :
    Prop where
  planned : Planned bundle branch materialize base routes' s'
  grows : routes <+: routes'
  done : ∀ r ∈ wanted, r ∈ routes'
  needed : ∀ x ∈ routes', x ∈ routes ∨ ∃ r ∈ wanted, Requires bundle r x

lemma runId_of_isPrefix {routes' : List String} (h : routes <+: routes') (hr : r ∈ routes) :
    runId start routes' r = runId start routes r := by
  obtain ⟨news, rfl⟩ := h
  exact runId_append hr news

/-- A loop of planning steps plans everything it is given. -/
lemma adds_of_foldlM {plan : Planning → String → Except ProjectError (Planning × PlanNodeId)}
    {l : List String}
    (step : ∀ r ∈ l, ∀ routes s s' run, Planned bundle branch materialize base routes s →
      plan s r = .ok (s', run) → ∃ routes',
        Adds bundle branch materialize base [r] routes routes' s' ∧
          run = runId base.length routes' r) {results results' : List PlanNodeId}
    (hplanned : Planned bundle branch materialize base routes s) (h : l.foldlM (fun acc r => do
      let (s, result) ← plan acc.1 r
      return (s, acc.2 ++ [result])) (s, results) = .ok (s', results')) :
    ∃ routes', Adds bundle branch materialize base l routes routes' s' ∧
      results' = results ++ l.map (runId base.length routes') := by
  induction l generalizing routes s results with
  | nil =>
    cases h
    exact ⟨routes, ⟨hplanned, prefix_rfl, nofun, fun _ => .inl⟩, by simp⟩
  | cons r l ih =>
    rw [foldlM_cons] at h
    simp only [bind_eq_ok] at h
    obtain ⟨acc, ⟨⟨s₁, run⟩, hrun, hacc⟩, hrest⟩ := h
    cases hacc
    obtain ⟨routes₁, hadds, rfl⟩ := step r mem_cons_self _ _ _ _ hplanned hrun
    obtain ⟨routes', hadds', rfl⟩ :=
      ih (fun x hx => step x (mem_cons_of_mem r hx)) hadds.planned hrest
    have hr : r ∈ routes₁ := hadds.done r (mem_singleton_self r)
    refine ⟨routes', ⟨hadds'.planned, hadds.grows.trans hadds'.grows, ?_, fun x hx => ?_⟩, ?_⟩
    · exact forall_mem_cons.2 ⟨hadds'.grows.subset hr, hadds'.done⟩
    · rcases hadds'.needed x hx with hx | ⟨y, hy, hx⟩
      · rcases hadds.needed x hx with hx | ⟨y, hy, hx⟩
        · exact .inl hx
        · exact .inr ⟨y, mem_cons.2 (.inl (mem_singleton.1 hy)), hx⟩
      · exact .inr ⟨y, mem_cons_of_mem r hy, hx⟩
    · rw [map_cons, runId_of_isPrefix hadds'.grows hr, append_assoc, singleton_append]

/-- Planning a route adds what it requires and nothing else, and the route itself last. -/
lemma adds_of_planRoute (hranked : Ranked bundle rank)
    {run : PlanNodeId} (hplanned : Planned bundle branch materialize base routes s)
    (h : planRoute bundle branch materialize fuel s r = .ok (s', run)) :
    ∃ routes', Adds bundle branch materialize base [r] routes routes' s' ∧
      run = runId base.length routes' r ∧ (r ∉ routes → routes'.getLast? = some r) := by
  induction fuel generalizing routes s s' r run with
  | zero => cases h
  | succ fuel ih =>
    rw [planRoute] at h
    split at h
    · next existing hmemo =>
      cases h
      rw [hplanned.memo] at hmemo
      split at hmemo
      · next hr =>
        cases hmemo
        refine ⟨routes, ⟨hplanned, prefix_rfl, ?_, fun _ => .inl⟩, rfl, fun hnew => absurd hr hnew⟩
        exact forall_mem_singleton.2 hr
      · cases hmemo
    · next hmemo =>
      have hnew : r ∉ routes := by
        intro hr
        rw [hplanned.memo, if_pos hr] at hmemo
        cases hmemo
      simp only [bind_eq_ok, orError_eq_ok, mapError_eq_ok] at h
      obtain ⟨route, hroute, ⟨s₁, results⟩, hloop, effects, heffects, hpush⟩ := h
      obtain ⟨routes₁, hadds, rfl⟩ := adds_of_foldlM (fun _ _ _ _ _ _ hs hplan => by
        obtain ⟨routes', hadds, hrun, -⟩ := ih hs hplan
        exact ⟨routes', hadds, hrun⟩) hplanned hloop
      rw [nil_append] at hpush
      -- A route is not among its own prerequisites, because those rank lower.
      have hr : r ∉ routes₁ := by
        intro hmem
        rcases hadds.needed r hmem with hmem | ⟨p, hp, hreq⟩
        · exact hnew hmem
        · have hle := hranked.requires hreq
          have hlt := hranked.lower r p ⟨route, hroute, hp⟩
          omega
      obtain ⟨hplanned', hrun⟩ :=
        hadds.planned.pushRoute hr hroute hadds.done heffects (Except.ok.inj hpush)
      refine ⟨routes₁ ++ [r], ⟨hplanned', hadds.grows.trans (prefix_append _ _), ?_,
        fun x hx => ?_⟩, hrun, fun _ => by simp⟩
      · exact forall_mem_singleton.2 (mem_append_right _ (mem_singleton_self r))
      rcases mem_append.1 hx with hx | hx
      · rcases hadds.needed x hx with hx | ⟨p, hp, hreq⟩
        · exact .inl hx
        · exact .inr ⟨r, mem_singleton_self r, hreq.head ⟨route, hroute, hp⟩⟩
      · rw [mem_singleton] at hx
        subst hx
        exact .inr ⟨x, mem_singleton_self x, .refl⟩

/-- Ranks bound the recursion of the planner. -/
lemma planRoute_ne_diverges (hranked : Ranked bundle rank) (hfuel : rank r < fuel) :
    planRoute bundle branch materialize fuel s r ≠ .error .diverges := by
  induction fuel generalizing s r with
  | zero => omega
  | succ fuel ih =>
    rw [planRoute]
    split
    · simp
    refine bind_ne_error (orError_ne_error (by simp)) fun route hroute =>
      bind_ne_error (foldlM_ne_error fun p hp acc => ?_) fun _ _ =>
        bind_ne_error (mapError_ne_error (by simp)) fun _ _ => pure_ne_error
    have hlt := hranked.lower r p ⟨route, orError_eq_ok.1 hroute, hp⟩
    exact bind_ne_error (ih (by omega)) fun _ _ => pure_ne_error

lemma Segment.nodup (h : Segment bundle branch materialize start routes operations) :
    routes.Nodup := by
  induction h with
  | nil => exact nodup_nil
  | snoc _ hr _ _ _ ih =>
    rw [← concat_eq_append]
    exact ih.concat hr

/-- A route stands after its prerequisites. -/
lemma Segment.ordered (h : Segment bundle branch materialize start routes operations) {i : ℕ}
    {p : String} (hr : routes[i]? = some r) (hp : Prerequisite bundle r p) :
    ∃ j, j < i ∧ routes[j]? = some p := by
  induction h with
  | nil => simp at hr
  | snoc _ _ hroute hall _ ih =>
    rcases lt_or_ge i _ with hlt | hge
    · rw [getElem?_append_left hlt] at hr
      obtain ⟨j, hj, hget⟩ := ih hr
      exact ⟨j, hj, by rw [getElem?_append_left (hj.trans hlt), hget]⟩
    rw [getElem?_append_right hge, getElem?_singleton] at hr
    split at hr
    · cases hr
      obtain ⟨route', hroute', hp⟩ := hp
      cases hroute.symm.trans hroute'
      obtain ⟨j, hj, hget⟩ := mem_iff_getElem.1 (hall p hp)
      refine ⟨j, by omega, ?_⟩
      rw [getElem?_append_left hj, getElem?_eq_getElem hj, hget]
    · cases hr

end Branch

/-! ## Places -/

/-- Operations are identified by their places. -/
def Indexed (operations : List ProjectPlanOperation) : Prop :=
  ∀ (i : ℕ) (o : ProjectPlanOperation), operations[i]? = some o → o.id = i

lemma Indexed.concat (h : Indexed operations) {o : ProjectPlanOperation}
    (ho : o.id = operations.length) :
    Indexed (operations ++ [o]) := by
  intro i x hx
  rcases lt_or_ge i operations.length with hlt | hge
  · rw [getElem?_append_left hlt] at hx
    exact h i x hx
  rw [getElem?_append_right hge, getElem?_singleton] at hx
  split at hx
  · next hlast =>
    have hi : i = operations.length := by omega
    cases hx
    rw [ho, hi]
  · cases hx

lemma Segment.indexed {materialize : PlanNodeId} {base : List ProjectPlanOperation}
    (h : Segment bundle branch materialize base.length routes operations) (hbase : Indexed base) :
    Indexed (base ++ operations) := by
  induction h with
  | nil => simpa using hbase
  | snoc _ _ _ _ _ ih =>
    rw [← append_assoc, append_cons]
    refine (ih.concat ?_).concat ?_
    · rw [length_append]
      rfl
    · rw [length_append, length_append]
      rfl

def ProjectPlanOperation.place (o : ProjectPlanOperation) : Option ℕ × ExecutableOp :=
  (o.branch, o.op)

/-- The `i`-th operation belongs to the branch and is of the given kind. -/
def Holds (operations : List ProjectPlanOperation) (i branch : ℕ)
    (op : ExecutableOp) : Prop :=
  ∃ o, operations[i]? = some o ∧ o.branch = some branch ∧ o.op = op

lemma holds_iff {i : ℕ} {op : ExecutableOp} : Holds operations i branch op ↔
      (operations.map place)[i]? = some (some branch, op) := by
  simp only [Holds, getElem?_map, Option.map_eq_some_iff, place, Prod.mk.injEq]

def routePlaces (branch : ℕ) (r : String) : List (Option ℕ × ExecutableOp) :=
  [(some branch, .buildRoute r), (some branch, .runRoute r)]

lemma Segment.map_place {materialize start : PlanNodeId}
    (h : Segment bundle branch materialize start routes operations) :
    operations.map place = routes.flatMap (routePlaces branch) := by
  induction h with
  | nil => rfl
  | snoc _ _ _ _ _ ih =>
    rw [map_append, ih, flatMap_append]
    rfl

lemma getElem?_flatMap_routePlaces (branch : ℕ) (routes : List String) (i : ℕ) :
    (routes.flatMap (routePlaces branch))[2 * i]? =
        (routes[i]?).map (fun r => (some branch, .buildRoute r)) ∧
      (routes.flatMap (routePlaces branch))[2 * i + 1]? =
        (routes[i]?).map (fun r => (some branch, .runRoute r)) := by
  induction routes generalizing i with
  | nil => simp
  | cons r routes ih =>
    rw [flatMap_cons]
    cases i with
    | zero => exact ⟨rfl, rfl⟩
    | succ i =>
      rw [show 2 * (i + 1) = 2 * i + 2 by omega, show 2 * i + 2 + 1 = 2 * i + 1 + 2 by omega]
      exact ih i

/-- The list holds the alternative and all it requires, each once and after its prerequisites. -/
structure BranchRoutes (bundle : ProjectBundle) (alternative : String) (routes : List String) :
    Prop where
  exact : ∀ x, x ∈ routes ↔ Requires bundle alternative x
  nodup : routes.Nodup
  ordered : ∀ (i : ℕ) r p, routes[i]? = some r → Prerequisite bundle r p →
    ∃ j, j < i ∧ routes[j]? = some p

/-- The branch first materializes its workspace, then prepares and runs these routes. -/
def BranchPlan (bundle : ProjectBundle) (branch : ℕ) (alternative : String)
    (places : List (Option ℕ × ExecutableOp)) : Prop :=
  ∃ (before after : List (Option ℕ × ExecutableOp)) (routes : List String),
    places = before ++ (some branch, .materializeProject) ::
      (routes.flatMap (routePlaces branch) ++ after) ∧
    (∀ x ∈ before, x.1 ≠ some branch) ∧ (∀ x ∈ after, x.1 ≠ some branch) ∧
    BranchRoutes bundle alternative routes

lemma BranchPlan.append {alternative : String} {more : List (Option ℕ × ExecutableOp)}
    (h : BranchPlan bundle branch alternative places) (hmore : ∀ x ∈ more, x.1 ≠ some branch) :
    BranchPlan bundle branch alternative (places ++ more) := by
  obtain ⟨before, after, routes, rfl, hbefore, hafter, hroutes⟩ := h
  refine ⟨before, after ++ more, routes, by simp, hbefore, fun x hx => ?_, hroutes⟩
  rcases mem_append.1 hx with hx | hx
  · exact hafter x hx
  · exact hmore x hx

lemma BranchPlan.getElem? {alternative : String} (h : BranchPlan bundle branch alternative places) :
    ∃ (start : ℕ) (routes : List String),
      (∀ j r, places[j]? = some (some branch, .buildRoute r) ↔
        ∃ i, routes[i]? = some r ∧ j = start + 2 * i) ∧
      (∀ j r, places[j]? = some (some branch, .runRoute r) ↔
        ∃ i, routes[i]? = some r ∧ j = start + 2 * i + 1) ∧
      BranchRoutes bundle alternative routes := by
  obtain ⟨before, after, routes, rfl, hbefore, hafter, hroutes⟩ := h
  -- An operation of the branch other than its first stands among the routes.
  have hwhere : ∀ j op, op ≠ .materializeProject →
      ((before ++ (some branch, .materializeProject) ::
        (routes.flatMap (routePlaces branch) ++ after))[j]? = some (some branch, op) ↔
      ∃ n, j = before.length + 1 + n ∧
        (routes.flatMap (routePlaces branch))[n]? = some (some branch, op)) := by
    intro j op hop
    constructor
    · intro hget
      rcases lt_or_ge j before.length with hlt | hge
      · rw [getElem?_append_left hlt] at hget
        exact absurd rfl (hbefore _ (mem_of_getElem? hget))
      rw [getElem?_append_right hge] at hget
      obtain ⟨n, rfl⟩ := Nat.exists_eq_add_of_le hge
      rw [Nat.add_sub_cancel_left] at hget
      cases n with
      | zero =>
        rw [getElem?_cons_zero, Option.some.injEq, Prod.mk.injEq] at hget
        exact absurd hget.2.symm hop
      | succ n =>
        rw [getElem?_cons_succ] at hget
        refine ⟨n, by omega, ?_⟩
        rcases lt_or_ge n (routes.flatMap (routePlaces branch)).length with hlt | hge
        · rwa [getElem?_append_left hlt] at hget
        · rw [getElem?_append_right hge] at hget
          exact absurd rfl (hafter _ (mem_of_getElem? hget))
    · rintro ⟨n, rfl, hget⟩
      have hlt : n < (routes.flatMap (routePlaces branch)).length :=
        (List.getElem?_eq_some_iff.1 hget).1
      rw [getElem?_append_right (by omega),
        show before.length + 1 + n - before.length = n + 1 by omega, getElem?_cons_succ,
        getElem?_append_left hlt, hget]
  refine ⟨before.length + 1, routes, fun j r => ?_, fun j r => ?_, hroutes⟩
  · rw [hwhere j (.buildRoute r) nofun]
    constructor
    · rintro ⟨n, rfl, hget⟩
      rcases Nat.even_or_odd' n with ⟨i, rfl | rfl⟩
      · rw [(getElem?_flatMap_routePlaces branch routes i).1] at hget
        obtain ⟨r', hr', heq⟩ := Option.map_eq_some_iff.1 hget
        cases heq
        exact ⟨i, hr', rfl⟩
      · rw [(getElem?_flatMap_routePlaces branch routes i).2] at hget
        obtain ⟨r', hr', heq⟩ := Option.map_eq_some_iff.1 hget
        cases heq
    · rintro ⟨i, hi, rfl⟩
      exact ⟨2 * i, rfl, by simp [getElem?_flatMap_routePlaces, hi]⟩
  · rw [hwhere j (.runRoute r) nofun]
    constructor
    · rintro ⟨n, rfl, hget⟩
      rcases Nat.even_or_odd' n with ⟨i, rfl | rfl⟩
      · rw [(getElem?_flatMap_routePlaces branch routes i).1] at hget
        obtain ⟨r', hr', heq⟩ := Option.map_eq_some_iff.1 hget
        cases heq
      rw [(getElem?_flatMap_routePlaces branch routes i).2] at hget
      obtain ⟨r', hr', heq⟩ := Option.map_eq_some_iff.1 hget
      cases heq
      exact ⟨i, hr', by omega⟩
    · rintro ⟨i, hi, rfl⟩
      exact ⟨2 * i + 1, by omega, by simp [getElem?_flatMap_routePlaces, hi]⟩

end Ostadix.Project
