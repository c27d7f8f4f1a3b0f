import Ostadix.ProjectPlan

/-! The branches of a project plan, one per alternative, and the operations that compare and select.
-/

namespace Ostadix.Project

open List ProjectPlanOperation

variable {bundle : ProjectBundle}

def materializeOperation (branch : ℕ) (id : PlanNodeId) : ProjectPlanOperation :=
  ⟨id, .materializeProject, [], .unknownWork, some branch, none⟩

/-- The operations of the branches of these alternatives, and where their results are. -/
inductive Branches (bundle : ProjectBundle) :
    List String → List ProjectPlanOperation → List PlanNodeId → Prop
  | nil : Branches bundle [] [] []
  | snoc {alternatives : List String} {base operations : List ProjectPlanOperation}
      {terminals : List PlanNodeId} {alternative : String} {routes : List String} :
      Branches bundle alternatives base terminals →
      Segment bundle alternatives.length base.length (base.length + 1) routes operations →
      (∀ x, x ∈ routes ↔ Requires bundle alternative x) →
      routes.getLast? = some alternative →
      Branches bundle (alternatives ++ [alternative])
        (base ++ materializeOperation alternatives.length base.length :: operations)
        (terminals ++ [runId (base.length + 1) routes alternative])

lemma planned_empty (branch : ℕ) (materialize : PlanNodeId) (base : List ProjectPlanOperation) :
    Planned bundle branch materialize base [] ⟨base, ∅⟩ :=
  ⟨⟨[], by simp, .nil⟩, fun r => by simp⟩

variable {rank : String → ℕ} {alternatives : List String} {alternative : String}
  {operations : List ProjectPlanOperation} {terminals : List PlanNodeId} {o : ProjectPlanOperation}
  {contract : ProjectSchedulingContract} {plan : ProjectExecutionPlan}

lemma Branches.planBranch (hranked : Ranked bundle rank)
    {state state' : List ProjectPlanOperation × List PlanNodeId}
    (h : Branches bundle alternatives state.1 state.2)
    (hplan : Project.planBranch bundle state (alternative, alternatives.length) = .ok state') :
    Branches bundle (alternatives ++ [alternative]) state'.1 state'.2 := by
  simp only [Project.planBranch, push, bind_eq_ok] at hplan
  obtain ⟨⟨s, terminal⟩, hroute, hstate⟩ := hplan
  cases hstate
  obtain ⟨routes, hadds, rfl, hlast⟩ :=
    adds_of_planRoute hranked (planned_empty _ _ _) hroute
  obtain ⟨operations, hoperations, hsegment⟩ := hadds.planned.segment
  rw [length_append, length_singleton] at hsegment ⊢
  have hlayout : s.operations =
      state.1 ++ materializeOperation alternatives.length state.1.length :: operations := by
    rw [hoperations, append_assoc]
    rfl
  rw [hlayout]
  refine h.snoc hsegment (fun x => ⟨fun hx => ?_, fun hx => ?_⟩) (hlast not_mem_nil)
  · rcases hadds.needed x hx with hx | ⟨r, hr, hreq⟩
    · cases hx
    · rwa [mem_singleton.1 hr] at hreq
  -- The routes are closed under prerequisites and hold the alternative.
  induction hx with
  | refl => exact hadds.done alternative (mem_singleton_self _)
  | tail _ hp ih =>
    obtain ⟨i, hi⟩ := mem_iff_getElem?.1 ih
    obtain ⟨j, -, hj⟩ := hsegment.ordered hi hp
    exact mem_of_getElem? hj

lemma branches_of_foldlM (hranked : Ranked bundle rank)
    (h : alternatives.zipIdx.foldlM (planBranch bundle) ([], []) = .ok (operations, terminals)) :
    Branches bundle alternatives operations terminals := by
  induction alternatives using List.reverseRecOn generalizing operations terminals with
  | nil =>
    cases h
    exact .nil
  | append_singleton alternatives alternative ih =>
    rw [zipIdx_append, foldlM_append, bind_eq_ok] at h
    obtain ⟨⟨base, results⟩, hbase, hlast⟩ := h
    simp only [zipIdx_singleton, foldlM_cons, foldlM_nil, bind_pure, Nat.zero_add] at hlast
    exact Branches.planBranch hranked (ih hbase) hlast

lemma Branches.indexed (h : Branches bundle alternatives operations terminals) :
    Indexed operations := by
  induction h with
  | nil =>
    intro i o ho
    cases ho
  | @snoc alternatives base operations _ _ routes _ hsegment _ _ ih =>
    have hbase : Indexed (base ++ [materializeOperation alternatives.length base.length]) :=
      ih.concat rfl
    rw [append_cons]
    refine Segment.indexed (?_ : Segment bundle alternatives.length base.length _ routes _)
      hbase
    rw [length_append, length_singleton]
    exact hsegment

lemma Segment.branch_eq {branch : ℕ} {materialize start : PlanNodeId} {routes : List String}
    (h : Segment bundle branch materialize start routes operations) (ho : o ∈ operations) :
    o.branch = some branch := by
  induction h with
  | nil => cases ho
  | snoc _ _ _ _ _ ih =>
    rcases mem_append.1 ho with ho | ho
    · exact ih ho
    rcases mem_cons.1 ho with rfl | ho
    · rfl
    · obtain rfl := mem_singleton.1 ho
      rfl

lemma Branches.branch_lt (h : Branches bundle alternatives operations terminals)
    (ho : o ∈ operations) : ∃ k < alternatives.length, o.branch = some k := by
  induction h with
  | nil => cases ho
  | snoc _ hsegment _ _ ih =>
    rw [length_append, length_singleton]
    rcases mem_append.1 ho with ho | ho
    · obtain ⟨k, hk, hbranch⟩ := ih ho
      exact ⟨k, hk.trans (Nat.lt_succ_self _), hbranch⟩
    · rcases mem_cons.1 ho with rfl | ho
      · exact ⟨_, Nat.lt_succ_self _, rfl⟩
      · exact ⟨_, Nat.lt_succ_self _, hsegment.branch_eq ho⟩

lemma Branches.branchPlan (h : Branches bundle alternatives operations terminals) {k : ℕ}
    (hk : alternatives[k]? = some alternative) :
    BranchPlan bundle k alternative (operations.map place) := by
  induction h with
  | nil => simp at hk
  | @snoc alternatives base operations _ last routes hbase hsegment hroutes _ ih =>
    rw [map_append]
    rcases lt_or_ge k alternatives.length with hlt | hge
    · rw [getElem?_append_left hlt] at hk
      refine (ih hk).append fun x hx => ?_
      -- The last branch is another one.
      obtain ⟨o, ho, rfl⟩ := mem_map.1 hx
      have hbranch : o.branch = some alternatives.length := by
        rcases mem_cons.1 ho with rfl | ho
        · rfl
        · exact hsegment.branch_eq ho
      rw [place, hbranch]
      simpa using hlt.ne'
    · rw [getElem?_append_right hge, getElem?_singleton] at hk
      split at hk
      · next hlast =>
        have hk' : k = alternatives.length := by omega
        subst hk'
        obtain rfl := Option.some.inj hk
        have hbranch : BranchRoutes bundle last routes :=
          ⟨hroutes, hsegment.nodup, fun i r p => hsegment.ordered⟩
        refine ⟨base.map place, [], routes, ?_, fun x hx => ?_, ?_, hbranch⟩
        · rw [append_nil, ← hsegment.map_place]
          rfl
        · obtain ⟨o, ho, rfl⟩ := mem_map.1 hx
          obtain ⟨k, hk, hbranch⟩ := hbase.branch_lt ho
          rw [place, hbranch]
          simpa using hk.ne
        · exact fun x hx => absurd hx not_mem_nil
      · cases hk

/-! ## Whole plans -/

lemma place_scopeOperation (o : ProjectPlanOperation) : (scopeOperation o).place = o.place := by
  unfold scopeOperation
  split <;> rfl

lemma id_scopeOperation (o : ProjectPlanOperation) : (scopeOperation o).id = o.id := by
  unfold scopeOperation
  split <;> rfl

lemma map_place_scopeOperations (contract : ProjectSchedulingContract)
    (operations : List ProjectPlanOperation) :
    (scopeOperations contract operations).map place =
      operations.map place := by
  cases contract with
  | serialHostWorldV1 => rfl
  | concurrentBranchesV1 =>
    rw [scopeOperations, map_map]
    exact map_congr_left fun o _ => place_scopeOperation o

lemma Indexed.scopeOperations {operations : List ProjectPlanOperation}
    (h : Indexed operations) (contract : ProjectSchedulingContract) :
    Indexed (scopeOperations contract operations) := by
  cases contract with
  | serialHostWorldV1 => exact h
  | concurrentBranchesV1 =>
    intro i o ho
    rw [Project.scopeOperations, getElem?_map] at ho
    obtain ⟨o', ho', rfl⟩ := Option.map_eq_some_iff.1 ho
    rw [id_scopeOperation]
    exact h i o' ho'

lemma exists_of_planSelection (hranked : Ranked bundle rank) {selection : ResolvedSelection}
    {digest : String} (h : planSelection bundle selection contract digest = .ok plan) :
    ∃ operations terminals, Branches bundle plan.alternatives operations terminals ∧
      Indexed plan.operations ∧
      ∃ more, plan.operations.map place =
        operations.map place ++ more ∧ ∀ x ∈ more, x.1 = none := by
  simp only [planSelection, bind_eq_ok] at h
  obtain ⟨⟨operations, terminals⟩, hbranches, hplan⟩ := h
  have hbranches := branches_of_foldlM hranked hbranches
  cases hplan
  refine ⟨operations, terminals, hbranches, ?_, ?_⟩
  · simp only [push]
    refine Indexed.concat (Indexed.scopeOperations ?_ contract) rfl
    unfold pushComparison
    split
    · exact hbranches.indexed.concat rfl
    · exact hbranches.indexed
  · simp only [push, map_append, map_place_scopeOperations]
    unfold pushComparison
    split
    · refine ⟨[(none, .compareRouteResults), (none, .selectRoute selection.policy.token)], ?_, ?_⟩
      · simp [push, place]
      · simp
    · exact ⟨[(none, .selectRoute selection.policy.token)], rfl, by simp⟩

/-- A branch prepares and runs what its alternative requires, once and after its prerequisites. -/
structure ClosedBranch (bundle : ProjectBundle) (operations : List ProjectPlanOperation)
    (branch : ℕ) (alternative : String) : Prop where
  build : ∀ r, Requires bundle alternative r → ∃! i, Holds operations i branch (.buildRoute r)
  run : ∀ r, Requires bundle alternative r → ∃! i, Holds operations i branch (.runRoute r)
  build_only : ∀ i r, Holds operations i branch (.buildRoute r) → Requires bundle alternative r
  run_only : ∀ i r, Holds operations i branch (.runRoute r) → Requires bundle alternative r
  build_before : ∀ i j r, Holds operations i branch (.buildRoute r) →
    Holds operations j branch (.runRoute r) → i < j
  ordered : ∀ i j r p, Prerequisite bundle r p → Holds operations i branch (.runRoute p) →
    Holds operations j branch (.buildRoute r) → i < j

lemma existsUnique_place {routes : List String} (hnodup : routes.Nodup) {r : String}
    (hr : r ∈ routes) {P : ℕ → Prop} {f : ℕ → ℕ}
    (hP : ∀ j, P j ↔ ∃ i, routes[i]? = some r ∧ j = f i) :
    ∃! j, P j := by
  obtain ⟨i, hi⟩ := mem_iff_getElem?.1 hr
  refine ⟨f i, (hP _).2 ⟨i, hi, rfl⟩, fun j hj => ?_⟩
  obtain ⟨i', hi', rfl⟩ := (hP j).1 hj
  have hlt : i < routes.length := (List.getElem?_eq_some_iff.1 hi).1
  rw [(getElem?_inj hlt hnodup).1 (hi.trans hi'.symm)]

lemma BranchPlan.closedBranch {branch : ℕ}
    (h : BranchPlan bundle branch alternative (operations.map place)) :
    ClosedBranch bundle operations branch alternative := by
  obtain ⟨start, routes, hbuild, hrun, hroutes⟩ := h.getElem?
  simp only [← holds_iff] at hbuild hrun
  refine ⟨fun r hr => ?_, fun r hr => ?_, fun i r hi => ?_, fun i r hi => ?_,
    fun i j r hi hj => ?_, fun i j r p hp hi hj => ?_⟩
  · exact existsUnique_place hroutes.nodup ((hroutes.exact r).2 hr) (hbuild · r)
  · exact existsUnique_place hroutes.nodup ((hroutes.exact r).2 hr) (hrun · r)
  · obtain ⟨n, hn, -⟩ := (hbuild i r).1 hi
    exact (hroutes.exact r).1 (mem_of_getElem? hn)
  · obtain ⟨n, hn, -⟩ := (hrun i r).1 hi
    exact (hroutes.exact r).1 (mem_of_getElem? hn)
  · obtain ⟨n, hn, rfl⟩ := (hbuild i r).1 hi
    obtain ⟨m, hm, rfl⟩ := (hrun j r).1 hj
    have hlt : n < routes.length := (List.getElem?_eq_some_iff.1 hn).1
    have heq := (getElem?_inj hlt hroutes.nodup).1 (hn.trans hm.symm)
    omega
  · obtain ⟨n, hn, rfl⟩ := (hrun i p).1 hi
    obtain ⟨m, hm, rfl⟩ := (hbuild j r).1 hj
    obtain ⟨n', hn', hget⟩ := hroutes.ordered m r p hm hp
    have hlt : n < routes.length := (List.getElem?_eq_some_iff.1 hn).1
    have heq := (getElem?_inj hlt hroutes.nodup).1 (hn.trans hget.symm)
    omega

lemma closedBranch_of_fromBundle {checks : Checks} {target : Option String}
    {policyOverride : Option RoutePolicy}
    (h : fromBundleWithScheduling checks bundle target policyOverride contract = .ok plan) :
    Indexed plan.operations ∧ ∀ k alternative, plan.alternatives[k]? = some alternative →
      ClosedBranch bundle plan.operations k alternative := by
  simp only [fromBundleWithScheduling, bind_eq_ok, mapError_eq_ok] at h
  obtain ⟨⟨⟩, hstructure, selection, -, digest, -, plan', hplan, ⟨⟩, -, heq⟩ := h
  cases heq
  obtain ⟨rank, hranked⟩ := exists_ranked hstructure
  obtain ⟨operations, terminals, hbranches, hindexed, more, hplaces, hmore⟩ :=
    exists_of_planSelection hranked hplan
  refine ⟨hindexed, fun k alternative hk => ?_⟩
  apply BranchPlan.closedBranch
  rw [hplaces]
  apply (hbranches.branchPlan hk).append
  intro x hx
  rw [hmore x hx]
  rintro ⟨⟩

/-- Planning always ends: the fuel of the model is enough for every bundle. -/
theorem fromBundleWithScheduling_ne_diverges (checks : Checks) (target : Option String)
    (policyOverride : Option RoutePolicy) (contract : ProjectSchedulingContract) :
    fromBundleWithScheduling checks bundle target policyOverride contract ≠
      .error .diverges := by
  have hrefused : ∀ {α : Type} {x : Except String α},
      x.mapError ProjectError.refused ≠ .error .diverges := mapError_ne_error (by simp)
  have hends : validateBundleStructure bundle ≠ .error .diverges := by
    refine bind_ne_error hrefused fun ids _ => bind_ne_error hrefused fun _ _ =>
      bind_ne_error hrefused fun _ _ => bind_ne_error (fun h => ?_) fun _ _ =>
        bind_ne_error (foldlM_ne_error fun r _ visited => ?_) fun _ _ => pure_ne_error
    · obtain ⟨route, -, h⟩ := forM_eq_error h
      obtain ⟨prerequisite, -, h⟩ := forM_eq_error h
      cases (ensure_eq_error.1 h).2
    · exact visit_ne_diverges nodup_nil (nil_subset _) (by simp)
  refine bind_ne_error hends fun _ hstructure => ?_
  obtain ⟨rank, hranked⟩ := exists_ranked hstructure
  refine bind_ne_error (mapError_ne_error fun error => ?_) fun selection _ =>
    bind_ne_error hrefused fun digest _ => bind_ne_error ?_ fun plan _ =>
      bind_ne_error hrefused fun _ _ => pure_ne_error
  · rintro ⟨⟩
  · refine bind_ne_error (foldlM_ne_error fun alternative _ state => ?_) fun _ _ => pure_ne_error
    exact bind_ne_error (planRoute_ne_diverges hranked (Nat.lt_succ_of_le (hranked.bound _)))
      fun _ _ => pure_ne_error

end Ostadix.Project
