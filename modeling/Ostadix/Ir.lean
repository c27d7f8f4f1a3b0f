import Ostadix.Basic
import Ostadix.Forest
import Mathlib.Data.List.AList

/-! The lowered instruction tree and the execution plan over its instructions, numbered in preorder.
-/

namespace Ostadix

open Forest List

/-! ## Instructions -/

inductive GroupMode where
  | batch | all | any | race
  deriving DecidableEq, Repr

inductive InvokeMode where
  | eager | lazy | autonomous
  | group (mode : GroupMode)
  deriving DecidableEq, Repr

inductive ExecutionMode where
  | inlineAst | inlineValue | shim
  deriving DecidableEq, Repr

/-- The part of a backend's catalogue entry that planning and scheduling read. -/
structure BackendInterface where
  canonical : String
  pure : Bool
  execution : ExecutionMode
  deriving DecidableEq, Repr

def BackendInterface.isQuote (backend : BackendInterface) : Bool :=
  backend.execution = .inlineAst && backend.canonical = "quote"

inductive OIr where
  | text (text : String)
  | load (name : String)
  | store (name : String) (expr : OIr)
  | invoke (fnName : String) (mode : InvokeMode) (args : List OIr)
  | exec (lang : String) (envId : UInt32) (attr : Option String) (backend : BackendInterface)
      (body : List OIr)

structure OIrProgram where
  nodes : List OIr

mutual

/-- The executable instructions of a tree in preorder; a quoted body is data, not code. -/
def flattenNodeForPlan : OIr → List OIr
  | .text s => [.text s]
  | .load name => [.load name]
  | .store name expr => .store name expr :: flattenNodeForPlan expr
  | .invoke fnName mode args => .invoke fnName mode args :: flattenNodesForPlan args
  | .exec lang envId attr backend body =>
    .exec lang envId attr backend body ::
      if backend.isQuote then [] else flattenNodesForPlan body

def flattenNodesForPlan : List OIr → List OIr
  | [] => []
  | node :: nodes => flattenNodeForPlan node ++ flattenNodesForPlan nodes

end

def OIrProgram.flattenForPlan (program : OIrProgram) : List OIr :=
  flattenNodesForPlan program.nodes

def OIr.children : OIr → List OIr
  | .text _ => []
  | .load _ => []
  | .store _ expr => [expr]
  | .invoke _ _ args => args
  | .exec _ _ _ backend body => if backend.isQuote then [] else body

mutual

def OIr.nested : OIr → Forest OIr
  | .text _ => .nil
  | .load _ => .nil
  | .store _ expr => .cons expr expr.nested .nil
  | .invoke _ _ args => forestOf args
  | .exec _ _ _ backend body => if backend.isQuote then .nil else forestOf body

def forestOf : List OIr → Forest OIr
  | [] => .nil
  | node :: nodes => .cons node node.nested (forestOf nodes)

end

def OIrProgram.forest (program : OIrProgram) : Forest OIr := forestOf program.nodes

lemma OIr.nested_eq (ir : OIr) : ir.nested = forestOf ir.children := by
  cases ir with
  | exec lang envId attr backend body =>
    rw [nested, children]
    split <;> simp [forestOf]
  | _ => simp [nested, children, forestOf]

mutual

lemma flattenNode_eq : ∀ node : OIr, flattenNodeForPlan node = node :: node.nested.preorder
  | .text _ => by simp [flattenNodeForPlan, OIr.nested, preorder]
  | .load _ => by simp [flattenNodeForPlan, OIr.nested, preorder]
  | .store _ expr => by
    simp [flattenNodeForPlan, OIr.nested, preorder, flattenNode_eq expr]
  | .invoke _ _ args => by simp [flattenNodeForPlan, OIr.nested, flattenNodes_eq args]
  | .exec _ _ _ backend body => by
    cases hq : backend.isQuote <;>
      simp [flattenNodeForPlan, OIr.nested, hq, preorder, flattenNodes_eq body]

lemma flattenNodes_eq : ∀ nodes : List OIr,
    flattenNodesForPlan nodes = (forestOf nodes).preorder
  | [] => by simp [flattenNodesForPlan, forestOf, preorder]
  | node :: nodes => by
    simp [flattenNodesForPlan, forestOf, preorder, flattenNode_eq node, flattenNodes_eq nodes]

end

/-- The program's forest lists the flattened instructions in preorder. -/
lemma OIrProgram.flattenForPlan_eq (program : OIrProgram) :
    program.flattenForPlan = program.forest.preorder :=
  flattenNodes_eq program.nodes

/-! ## Execution plans -/

abbrev PlanNodeId := ℕ

inductive PlanEdgeKind where
  | structural | sequence | data
  deriving DecidableEq, Repr

inductive PlanRequestKind where
  | instantiate | realise | dryActivate | activate
  deriving DecidableEq, Repr

inductive PlanScheduleKind where
  | force | lazy | autonomous
  deriving DecidableEq, Repr

/-- An edge from `source` to `target`: the target waits for the source. -/
structure PlanEdge where
  (source target : PlanNodeId)
  kind : PlanEdgeKind
  deriving DecidableEq, Repr

inductive PlanNodeKind where
  | text
  | load (name : String)
  | store (name : String)
  | call (fnName : String) (mode : InvokeMode) (argCount : ℕ)
  | request (fnName : String) (kind : PlanRequestKind) (argCount : ℕ)
  | group (mode : GroupMode) (memberCount : ℕ)
  | schedule (fnName : String) (kind : PlanScheduleKind) (argCount : ℕ)
  | exec (lang : String) (envId : UInt32) (attr : Option String) (backend : BackendInterface)
  deriving DecidableEq, Repr

structure PlanNode where
  id : PlanNodeId
  kind : PlanNodeKind
  deriving DecidableEq, Repr

structure ExecutionPlan where
  roots : List PlanNodeId
  nodes : List PlanNode
  edges : List PlanEdge
  deriving DecidableEq, Repr

inductive PlanError where
  | rootCount (roots rootCount : ℕ)
  | nodeIdentity (index got : ℕ)
  | rootOutOfBounds (root : ℕ)
  | rootDuplicated (root : ℕ)
  | edgeOutOfBounds (source target : ℕ)
  | cycle
  | rootsUnscheduled
  | parentOutOfBounds (parent : ℕ)
  deriving DecidableEq, Repr

namespace ExecutionPlan

variable (plan : ExecutionPlan)

def edgePairs : List (PlanNodeId × PlanNodeId) :=
  plan.edges.map (fun e => (e.source, e.target))

/-- Stable topological order, least ready identifier first. `validate` has checked the edges. -/
def topologicalOrder : Except PlanError (List PlanNodeId) :=
  let order := Kahn.order (List.range plan.nodes.length) plan.edgePairs
  if order.length = plan.nodes.length then .ok order else .error .cycle

/-- Where a root stands among the roots; of two equal roots the map keeps the later one. -/
def rootPosition (id : PlanNodeId) : Option ℕ :=
  (plan.roots.zipIdx.reverse.find? (fun root => root.1 = id)).map Prod.snd

def rootSchedule : Except PlanError (List ℕ) := do
  let schedule := (← plan.topologicalOrder).filterMap plan.rootPosition
  if schedule.length = plan.roots.length then .ok schedule else .error .rootsUnscheduled

def structuralChildren (parent : PlanNodeId) : OrdSet PlanNodeId :=
  OrdSet.ofList (plan.edges.filterMap fun e =>
    if e.kind = .structural ∧ e.target = parent then some e.source else none)

def childSchedule (parent : PlanNodeId) : Except PlanError (List PlanNodeId) := do
  ensure (parent < plan.nodes.length) (.parentOutOfBounds parent)
  let children := plan.structuralChildren parent
  return (← plan.topologicalOrder).filter (fun id => id ∈ children)

/-- Every root is in bounds and none occurs twice; `seen` holds the earlier ones. -/
def checkRoots (count : ℕ) : List PlanNodeId → OrdSet PlanNodeId → Except PlanError Unit
  | [], _ => .ok ()
  | root :: roots, seen => do
    ensure (root < count) (.rootOutOfBounds root)
    ensure (root ∉ seen) (.rootDuplicated root)
    checkRoots count roots (seen.insert root)

def validate (rootCount : ℕ) : Except PlanError Unit := do
  ensure (plan.roots.length = rootCount) (.rootCount plan.roots.length rootCount)
  plan.nodes.zipIdx.forM fun (node, index) =>
    ensure (node.id = index) (.nodeIdentity index node.id)
  checkRoots plan.nodes.length plan.roots ∅
  plan.edges.forM fun e =>
    ensure (e.source < plan.nodes.length ∧ e.target < plan.nodes.length)
      (.edgeOutOfBounds e.source e.target)
  let _ ← plan.topologicalOrder
  let _ ← plan.rootSchedule
  return ()

variable {plan : ExecutionPlan} {id : PlanNodeId}

lemma rootPosition_eq (hnodup : plan.roots.Nodup) (hmem : id ∈ plan.roots) :
    plan.rootPosition id = some (plan.roots.idxOf id) := by
  have hsome : (plan.roots.zipIdx.reverse.find? (fun root => root.1 = id)).isSome := by
    obtain ⟨i, hi⟩ := mem_iff_getElem?.1 hmem
    refine find?_isSome.2 ⟨(id, i), ?_, by simp⟩
    exact mem_reverse.2 (mem_zipIdx_iff_getElem?.2 hi)
  obtain ⟨root, hroot⟩ := Option.isSome_iff_exists.1 hsome
  have hid : root.1 = id := by simpa using find?_some hroot
  have hget := mem_zipIdx_iff_getElem?.1 (mem_reverse.1 (mem_of_find?_eq_some hroot))
  obtain ⟨hlt, hat⟩ := List.getElem?_eq_some_iff.1 hget
  rw [rootPosition, hroot, Option.map_some, ← hid, ← hat, hnodup.idxOf_getElem]

lemma rootPosition_eq_none (h : id ∉ plan.roots) : plan.rootPosition id = none := by
  rw [rootPosition, Option.map_eq_none_iff, find?_eq_none]
  intro root hroot heq
  have hget := mem_zipIdx_iff_getElem?.1 (mem_reverse.1 hroot)
  exact h (mem_iff_getElem?.2 ⟨root.2, by simpa using (of_decide_eq_true heq) ▸ hget⟩)

/-- When an order lists the roots as the plan does, their positions count up from zero. -/
lemma filterMap_rootPosition (hnodup : plan.roots.Nodup) {order : List PlanNodeId}
    (horder : order.filter (fun id => id ∈ plan.roots) = plan.roots) :
    order.filterMap plan.rootPosition = List.range plan.roots.length := by
  have hfilter : order.filterMap plan.rootPosition =
      (order.filter (fun id => id ∈ plan.roots)).filterMap plan.rootPosition := by
    rw [filterMap_filter]
    refine filterMap_congr fun id _ => ?_
    by_cases hid : id ∈ plan.roots
    · simp [hid]
    · simp [hid, rootPosition_eq_none hid]
  have hroots : plan.roots.filterMap plan.rootPosition =
      plan.roots.map (fun id => plan.roots.idxOf id) := by
    rw [← filterMap_eq_map']
    exact filterMap_congr fun id hid => rootPosition_eq hnodup hid
  rw [hfilter, horder, hroots]
  refine ext_getElem (by simp) fun i _ hi => ?_
  simp [hnodup.idxOf_getElem]

lemma checkRoots_eq_ok {count : ℕ} {roots : List PlanNodeId} {seen : OrdSet PlanNodeId} {u : Unit} :
    checkRoots count roots seen = .ok u ↔
      (∀ root ∈ roots, root < count ∧ root ∉ seen) ∧ roots.Nodup := by
  induction roots generalizing seen with
  | nil => simp [checkRoots]
  | cons root roots ih =>
    simp only [checkRoots, bind_eq_ok, ensure_eq_ok, ih, OrdSet.mem_insert, nodup_cons,
      mem_cons, forall_eq_or_imp]
    constructor
    · rintro ⟨-, hlt, -, hnew, hrest, hnodup⟩
      exact ⟨⟨⟨hlt, hnew⟩, fun r hr => ⟨(hrest r hr).1, fun h => (hrest r hr).2 (.inr h)⟩⟩,
        fun h => (hrest root h).2 (.inl rfl), hnodup⟩
    · rintro ⟨⟨⟨hlt, hnew⟩, hrest⟩, hroot, hnodup⟩
      refine ⟨(), hlt, (), hnew, fun r hr => ⟨(hrest r hr).1, ?_⟩, hnodup⟩
      rintro (rfl | h)
      · exact hroot hr
      · exact (hrest r hr).2 h

lemma validate_eq_ok {rootCount : ℕ} {u : Unit} :
    plan.validate rootCount = .ok u ↔
      plan.roots.length = rootCount ∧ (∀ x ∈ plan.nodes.zipIdx, x.1.id = x.2) ∧
      (∀ root ∈ plan.roots, root < plan.nodes.length) ∧ plan.roots.Nodup ∧
      (∀ e ∈ plan.edges, e.source < plan.nodes.length ∧ e.target < plan.nodes.length) ∧
      (∃ order, plan.topologicalOrder = .ok order) ∧
        ∃ schedule, plan.rootSchedule = .ok schedule := by
  simp only [validate, bind_eq_ok, ensure_eq_ok, forM_eq_ok, checkRoots_eq_ok, OrdSet.notMem_empty,
    not_false_eq_true, and_true]
  constructor
  · rintro ⟨-, hcount, -, hids, -, ⟨hroots, hnodup⟩, -, hedges, order, horder, schedule, hsched, -⟩
    exact ⟨hcount, hids, hroots, hnodup, hedges, ⟨order, horder⟩, ⟨schedule, hsched⟩⟩
  · rintro ⟨hcount, hids, hroots, hnodup, hedges, ⟨order, horder⟩, ⟨schedule, hsched⟩⟩
    exact ⟨(), hcount, (), hids, (), ⟨hroots, hnodup⟩, (), hedges, order, horder, schedule, hsched,
      rfl⟩

end ExecutionPlan

end Ostadix
