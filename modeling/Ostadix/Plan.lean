import Ostadix.Ir
import Mathlib.Data.List.Sort

/-! Building the execution plan: one pass that numbers the instructions and records the edges. -/

namespace Ostadix

open List Forest OIr ExecutionPlan

/-! ## The builder -/

/-- A lexical scope: the store that last bound each name. -/
abbrev Scope := AList (fun _ : String => PlanNodeId)

/-- The builder together with the scope stack it threads; the innermost scope comes first. -/
structure PlanBuilder where
  nodes : List PlanNode
  edges : List PlanEdge
  scopeStack : List Scope

def lookupBinding (scopeStack : List Scope) (name : String) : Option PlanNodeId :=
  scopeStack.findSome? (fun scope => scope.lookup name)

/-- The stores visible from a scope stack. The second argument holds the names already seen. -/
def visibleSources : List (Sigma fun _ : String => PlanNodeId) → List String → List PlanNodeId
  | [], _ => []
  | ⟨name, source⟩ :: rest, seen =>
    if name ∈ seen then visibleSources rest seen else source :: visibleSources rest (name :: seen)

def visibleScopeSources (scopeStack : List Scope) : List PlanNodeId :=
  (visibleSources (scopeStack.flatMap (·.entries)) []).insertionSort (· ≤ ·)

/-- The name bound by the first nonempty `cap=` entry of an attribute. -/
def attrCapabilityBinding (attr : Option String) : Option String :=
  (Text.entries attr).findSome? fun entry =>
    (Text.after? "cap=" entry).filter (fun name => name ≠ "")

def planKind : OIr → PlanNodeKind
  | .text _ => .text
  | .load name => .load name
  | .store name _ => .store name
  | .invoke _ (.group mode) args => .group mode args.length
  | .invoke fnName .lazy args => .schedule fnName .lazy args.length
  | .invoke fnName .autonomous args => .schedule fnName .autonomous args.length
  | .invoke fnName .eager args =>
    if fnName = "instantiate" then .request fnName .instantiate args.length
    else if fnName = "realise" then .request fnName .realise args.length
    else if fnName = "dry_activate" then .request fnName .dryActivate args.length
    else if fnName = "activate" then .request fnName .activate args.length
    else if fnName = "now" then .schedule fnName .force args.length
    else .call fnName .eager args.length
  | .exec lang envId attr backend _ => .exec lang envId attr backend

namespace PlanBuilder

def new : PlanBuilder := ⟨[], [], [∅]⟩

variable (b : PlanBuilder)

def addEdge (source target : PlanNodeId) (kind : PlanEdgeKind) : PlanBuilder :=
  if b.edges.any (fun e => e.source = source && e.target = target && e.kind = kind) then b
  else { b with edges := b.edges ++ [⟨source, target, kind⟩] }

def addOptionalEdge (source target : Option PlanNodeId) (kind : PlanEdgeKind) : PlanBuilder :=
  match source, target with
  | some source, some target => b.addEdge source target kind
  | _, _ => b

def addDataEdges (sources : List PlanNodeId) (target : PlanNodeId) : PlanBuilder :=
  sources.foldl (fun b source => b.addEdge source target .data) b

/-- Allocate the next node and connect it to its parent and to its previous sibling. -/
def openNode (kind : PlanNodeKind) (parent previous : Option PlanNodeId) : PlanBuilder :=
  let id := b.nodes.length
  let pushed : PlanBuilder := { b with nodes := b.nodes ++ [⟨id, kind⟩] }
  (pushed.addOptionalEdge (some id) parent .structural).addOptionalEdge previous (some id) .sequence

def pushScope : PlanBuilder := { b with scopeStack := ∅ :: b.scopeStack }

def popScope : PlanBuilder := { b with scopeStack := b.scopeStack.tail }

def bindName (name : String) (id : PlanNodeId) : PlanBuilder :=
  match b.scopeStack with
  | [] => b
  | scope :: rest => { b with scopeStack := scope.insert name id :: rest }

mutual

/-- Add an instruction and everything below it; its identifier is the number of nodes before. -/
def addNode (parent previous : Option PlanNodeId) : OIr → PlanBuilder → PlanBuilder
  | .text s, b => b.openNode (planKind (.text s)) parent previous
  | .load name, b =>
    let opened := b.openNode (planKind (.load name)) parent previous
    opened.addOptionalEdge (lookupBinding opened.scopeStack name) (some b.nodes.length) .data
  | .store name expr, b =>
    let opened := b.openNode (planKind (.store name expr)) parent previous
    (addNode (some b.nodes.length) none expr opened.pushScope).popScope.bindName name
      b.nodes.length
  | .invoke fnName mode args, b =>
    let opened := b.openNode (planKind (.invoke fnName mode args)) parent previous
    let opened :=
      if fnName = "scope" then
        opened.addDataEdges (visibleScopeSources opened.scopeStack) b.nodes.length
      else opened
    (addNodes (some b.nodes.length) none args opened.pushScope).popScope
  | .exec lang envId attr backend body, b =>
    let opened := b.openNode (planKind (.exec lang envId attr backend body)) parent previous
    let opened :=
      if backend.execution = .shim then
        opened.addDataEdges (visibleScopeSources opened.scopeStack) b.nodes.length
      else opened
    let opened := opened.addOptionalEdge
      ((attrCapabilityBinding attr).bind (lookupBinding opened.scopeStack))
      (some b.nodes.length) .data
    if backend.isQuote then opened
    else (addNodes (some b.nodes.length) none body opened.pushScope).popScope

def addNodes (parent previous : Option PlanNodeId) : List OIr → PlanBuilder → PlanBuilder
  | [], b => b
  | node :: nodes, b =>
    addNodes parent (some b.nodes.length) nodes (addNode parent previous node b)

end

end PlanBuilder

/-- The identifiers of the roots, as the loop over the top-level instructions collects them. -/
def addRoots (previous : Option PlanNodeId) : List OIr → PlanBuilder → List PlanNodeId
  | [], _ => []
  | node :: nodes, b =>
    b.nodes.length ::
      addRoots (some b.nodes.length) nodes (b.addNode none previous node)

def OIrProgram.plan (program : OIrProgram) : ExecutionPlan :=
  let built := PlanBuilder.new.addNodes none none program.nodes
  ⟨addRoots none program.nodes .new, built.nodes, built.edges⟩

/-! ## What the builder records -/

/-- What each kind of edge says about the preorder numbers of its ends. -/
def EdgeSound (F : Forest OIr) (e : PlanEdge) : Prop :=
  e.source < F.size ∧ e.target < F.size ∧
    match e.kind with
    | .structural => e.source ∈ F.childrenOf e.target
    | .sequence => F.stop e.source = e.target
    | .data => F.stop e.source ≤ e.target

/-- A builder that has numbered the first instructions of `F`. -/
structure Built (F : Forest OIr) (b : PlanBuilder) : Prop where
  nodes : ∀ i < b.nodes.length, b.nodes[i]? = F.preorder[i]?.map (fun ir => ⟨i, planKind ir⟩)
  edges : ∀ e ∈ b.edges, EdgeSound F e
  scopes : ∀ scope ∈ b.scopeStack, ∀ x ∈ scope.entries,
    x.2 < F.size ∧ F.stop x.2 ≤ b.nodes.length

/-- `b'` comes from `b` by adding the forest `G` below `parent`. -/
structure Extends (F : Forest OIr) (parent : Option PlanNodeId) (G : Forest OIr)
    (b b' : PlanBuilder) : Prop where
  built : Built F b'
  length : b'.nodes.length = b.nodes.length + G.size
  edges : ∀ e ∈ b.edges, e ∈ b'.edges
  linked : ∀ p r, b.nodes.length ≤ p → p < b'.nodes.length → r ∈ F.childrenOf p →
    ⟨r, p, .structural⟩ ∈ b'.edges
  adopted : ∀ p, parent = some p → ∀ r ∈ G.roots b.nodes.length, ⟨r, p, .structural⟩ ∈ b'.edges

namespace PlanBuilder

@[simp] lemma addEdge_nodes (b : PlanBuilder) (u v : PlanNodeId) (k : PlanEdgeKind) :
    (b.addEdge u v k).nodes = b.nodes := by
  unfold addEdge
  split <;> rfl

@[simp] lemma addEdge_scopeStack (b : PlanBuilder) (u v : PlanNodeId) (k : PlanEdgeKind) :
    (b.addEdge u v k).scopeStack = b.scopeStack := by
  unfold addEdge
  split <;> rfl

variable {u v : PlanNodeId} {k : PlanEdgeKind} {b' o : PlanBuilder} {parent : Option PlanNodeId}
  {ir : OIr} {c s : Forest OIr}

@[simp] lemma mem_addEdge {b : PlanBuilder} {e : PlanEdge} :
    e ∈ (b.addEdge u v k).edges ↔ e ∈ b.edges ∨ e = ⟨u, v, k⟩ := by
  unfold addEdge
  split
  · next h =>
    simp only [any_eq_true, Bool.and_eq_true, decide_eq_true_eq] at h
    obtain ⟨⟨u', v', k'⟩, hmem, ⟨rfl, rfl⟩, rfl⟩ := h
    refine ⟨.inl, ?_⟩
    rintro (h | rfl)
    · exact h
    · exact hmem
  · simp

variable {F : Forest OIr} {b : PlanBuilder}

lemma built_addEdge (h : Built F b) (he : EdgeSound F ⟨u, v, k⟩) : Built F (b.addEdge u v k) := by
  refine ⟨by simpa using h.nodes, fun e hmem => ?_, by simpa using h.scopes⟩
  rcases mem_addEdge.1 hmem with hmem | rfl
  · exact h.edges e hmem
  · exact he

/-- Every state that differs from `b` by sound edges only. -/
structure MoreEdges (F : Forest OIr) (b b' : PlanBuilder) : Prop where
  built : Built F b'
  nodes : b'.nodes = b.nodes
  scopeStack : b'.scopeStack = b.scopeStack
  edges : ∀ e ∈ b.edges, e ∈ b'.edges

lemma MoreEdges.refl (h : Built F b) : MoreEdges F b b := ⟨h, rfl, rfl, fun _ he => he⟩

lemma MoreEdges.trans {b'' : PlanBuilder} (h : MoreEdges F b b') (h' : MoreEdges F b' b'') :
    MoreEdges F b b'' :=
  ⟨h'.built, h'.nodes.trans h.nodes, h'.scopeStack.trans h.scopeStack,
    fun e he => h'.edges e (h.edges e he)⟩

lemma moreEdges_addEdge (h : Built F b) (he : EdgeSound F ⟨u, v, k⟩) :
    MoreEdges F b (b.addEdge u v k) :=
  ⟨built_addEdge h he, addEdge_nodes b u v k, addEdge_scopeStack b u v k,
    fun _ hmem => mem_addEdge.2 (.inl hmem)⟩

lemma moreEdges_addOptionalEdge (h : Built F b) {u v : Option PlanNodeId}
    (he : ∀ x y, u = some x → v = some y → EdgeSound F ⟨x, y, k⟩) :
    MoreEdges F b (b.addOptionalEdge u v k) := by
  unfold addOptionalEdge
  split
  · exact moreEdges_addEdge h (he _ _ rfl rfl)
  · exact .refl h

lemma moreEdges_addDataEdges (h : Built F b) {sources : List PlanNodeId}
    (he : ∀ u ∈ sources, EdgeSound F ⟨u, v, .data⟩) :
    MoreEdges F b (b.addDataEdges sources v) := by
  induction sources generalizing b with
  | nil => exact .refl h
  | cons u sources ih =>
    have hstep := moreEdges_addEdge h (he u mem_cons_self)
    exact hstep.trans (ih hstep.built fun w hw => he w (mem_cons_of_mem u hw))

variable {scopeStack : List Scope}

lemma mem_lookupBinding {name : String} (h : lookupBinding scopeStack name = some u) :
    ∃ scope ∈ scopeStack, ∃ x ∈ scope.entries, x.2 = u := by
  obtain ⟨scope, hscope, hlookup⟩ := exists_of_findSome?_eq_some h
  exact ⟨scope, hscope, ⟨name, u⟩, AList.mem_lookup_iff.1 hlookup, rfl⟩

lemma mem_visibleSources {l : List (Sigma fun _ : String => PlanNodeId)} {seen : List String}
    (h : u ∈ visibleSources l seen) : ∃ x ∈ l, x.2 = u := by
  induction l generalizing seen with
  | nil => simp [visibleSources] at h
  | cons x l ih =>
    obtain ⟨name, source⟩ := x
    rw [visibleSources] at h
    split at h
    · obtain ⟨y, hy, hu⟩ := ih h
      exact ⟨y, mem_cons_of_mem _ hy, hu⟩
    rcases mem_cons.1 h with rfl | h
    · exact ⟨_, mem_cons_self, rfl⟩
    · obtain ⟨y, hy, hu⟩ := ih h
      exact ⟨y, mem_cons_of_mem _ hy, hu⟩

lemma mem_visibleScopeSources (h : u ∈ visibleScopeSources scopeStack) :
    ∃ scope ∈ scopeStack, ∃ x ∈ scope.entries, x.2 = u := by
  obtain ⟨x, hx, hu⟩ := mem_visibleSources ((mem_insertionSort _).1 h)
  obtain ⟨scope, hscope, hmem⟩ := mem_flatMap.1 hx
  exact ⟨scope, hscope, x, hmem, hu⟩

/-- The node of an instruction has been allocated and connected, its body not yet visited. -/
structure Opened (F : Forest OIr) (parent : Option PlanNodeId) (b o : PlanBuilder) : Prop where
  built : Built F o
  length : o.nodes.length = b.nodes.length + 1
  scopeStack : o.scopeStack = b.scopeStack
  edges : ∀ e ∈ b.edges, e ∈ o.edges
  adopted : ∀ p, parent = some p → ⟨b.nodes.length, p, .structural⟩ ∈ o.edges

lemma Opened.moreEdges {o' : PlanBuilder} (h : Opened F parent b o) (h' : MoreEdges F o o') :
    Opened F parent b o' :=
  ⟨h'.built, h'.nodes ▸ h.length, h'.scopeStack.trans h.scopeStack,
    fun e he => h'.edges e (h.edges e he), fun p hp => h'.edges _ (h.adopted p hp)⟩

lemma built_pushNode (h : Built F b) (hlabel : F.preorder[b.nodes.length]? = some ir) :
    Built F { b with nodes := b.nodes ++ [⟨b.nodes.length, planKind ir⟩] } := by
  refine ⟨fun i hi => ?_, h.edges, fun scope hscope x hx => ?_⟩
  · simp only [length_append, length_singleton] at hi
    rcases Nat.lt_succ_iff_lt_or_eq.1 hi with hi | rfl
    · simpa [getElem?_append_left hi] using h.nodes i hi
    · simp [hlabel]
  · obtain ⟨hlt, hstop⟩ := h.scopes scope hscope x hx
    exact ⟨hlt, hstop.trans (by simp)⟩

lemma opened_openNode {previous : Option PlanNodeId} (h : Built F b)
    (hsits : F.Sits b.nodes.length (.cons ir c s))
    (hparent : ∀ p, parent = some p → b.nodes.length ∈ F.childrenOf p)
    (hprevious : ∀ q, previous = some q → q < F.size ∧ F.stop q = b.nodes.length) :
    Opened F parent b (b.openNode (planKind ir) parent previous) := by
  have hn := hsits.lt_size
  have hpush := built_pushNode h hsits.label
  have hstruct := moreEdges_addOptionalEdge (u := some b.nodes.length) (v := parent)
    (k := .structural) hpush fun x p hx hp => by
      cases hx
      exact ⟨hn, (mem_childrenOf (hparent p hp)).1, hparent p hp⟩
  have hseq := moreEdges_addOptionalEdge (u := previous) (v := some b.nodes.length)
    (k := .sequence) hstruct.built fun q y hq hy => by
      cases hy
      exact ⟨(hprevious q hq).1, hn, (hprevious q hq).2⟩
  have hall := hstruct.trans hseq
  refine ⟨hall.built, ?_, hall.scopeStack, hall.edges, ?_⟩
  · exact (congrArg List.length hall.nodes).trans (by simp)
  · rintro p rfl
    exact hseq.edges _ (mem_addEdge.2 (.inr rfl))

lemma edgeSound_of_binding (h : Built F b) (hn : b.nodes.length < F.size)
    (hu : ∃ scope ∈ b.scopeStack, ∃ x ∈ scope.entries, x.2 = u) :
    EdgeSound F ⟨u, b.nodes.length, .data⟩ := by
  obtain ⟨scope, hscope, x, hx, rfl⟩ := hu
  exact ⟨(h.scopes scope hscope x hx).1, hn, (h.scopes scope hscope x hx).2⟩

lemma Opened.addBinding (ho : Opened F parent b o) (h : Built F b) (hn : b.nodes.length < F.size)
    (source : Option PlanNodeId)
    (hsource : ∀ u, source = some u → ∃ name, lookupBinding o.scopeStack name = some u) :
    Opened F parent b (o.addOptionalEdge source (some b.nodes.length) .data) := by
  refine ho.moreEdges (moreEdges_addOptionalEdge ho.built fun u v hu hv => ?_)
  cases hv
  obtain ⟨name, hlookup⟩ := hsource u hu
  exact edgeSound_of_binding h hn (mem_lookupBinding (ho.scopeStack ▸ hlookup))

lemma Opened.addVisible (ho : Opened F parent b o) (h : Built F b) (hn : b.nodes.length < F.size)
    (c : Prop) [Decidable c] :
    Opened F parent b (if c then o.addDataEdges (visibleScopeSources o.scopeStack) b.nodes.length
      else o) := by
  split
  · exact ho.moreEdges (moreEdges_addDataEdges ho.built fun u hu =>
      edgeSound_of_binding h hn (mem_visibleScopeSources (ho.scopeStack ▸ hu)))
  · exact ho

lemma built_pushScope (h : Built F b) : Built F b.pushScope := by
  refine ⟨h.nodes, h.edges, fun scope hscope x hx => ?_⟩
  rcases mem_cons.1 hscope with rfl | hscope
  · exact absurd hx (by simp)
  · exact h.scopes scope hscope x hx

lemma built_popScope (h : Built F b) : Built F b.popScope :=
  ⟨h.nodes, h.edges, fun scope hscope => h.scopes scope (mem_of_mem_tail hscope)⟩

lemma built_bindName (h : Built F b) (name : String) {id : PlanNodeId} (hid : id < F.size)
    (hstop : F.stop id ≤ b.nodes.length) : Built F (b.bindName name id) := by
  unfold bindName
  split
  · exact h
  rename_i scope rest hstack
  refine ⟨h.nodes, h.edges, fun scope' hscope x hx => ?_⟩
  have hold : ∀ sc ∈ scope :: rest, ∀ y ∈ sc.entries,
      y.2 < F.size ∧ F.stop y.2 ≤ b.nodes.length := hstack ▸ h.scopes
  rcases mem_cons.1 hscope with rfl | hscope
  · rw [AList.entries_insert] at hx
    rcases mem_cons.1 hx with rfl | hx
    · exact ⟨hid, hstop⟩
    · exact hold scope mem_cons_self x ((kerase_sublist name scope.entries).subset hx)
  · exact hold scope' (mem_cons_of_mem _ hscope) x hx

@[simp] lemma bindName_nodes (b : PlanBuilder) (name : String) (id : PlanNodeId) :
    (b.bindName name id).nodes = b.nodes := by
  unfold bindName
  split <;> rfl

@[simp] lemma bindName_edges (b : PlanBuilder) (name : String) (id : PlanNodeId) :
    (b.bindName name id).edges = b.edges := by
  unfold bindName
  split <;> rfl

/-- Nothing to add below a leaf or a quoted body. -/
lemma extends_nil (h : Built F b) : Extends F parent .nil b b :=
  ⟨h, rfl, fun _ he => he, fun p r hle hlt => absurd hle (not_le.2 hlt),
    fun p _ r hr => by simp [Forest.roots] at hr⟩

/-- An opened node whose body has been added is a finished tree. -/
lemma Opened.finish (ho : Opened F parent b o) (hsits : F.Sits b.nodes.length (.cons ir c s))
    (hbody : Extends F (some b.nodes.length) c o b') :
    Extends F parent (.cons ir c .nil) b b' := by
  have hlen := hbody.length.trans (congrArg (· + c.size) ho.length)
  refine ⟨hbody.built, by rw [hlen, Forest.size, Forest.size]; omega,
    fun e he => hbody.edges e (ho.edges e he), fun p r hle hlt hr => ?_, fun p hp r hr => ?_⟩
  · rcases Nat.eq_or_lt_of_le hle with rfl | hle
    · rw [childrenOf, hsits.subforest] at hr
      exact hbody.adopted _ rfl r (ho.length ▸ hr)
    · exact hbody.linked p r (ho.length ▸ hle) hlt hr
  · obtain rfl : r = b.nodes.length := by simpa [Forest.roots] using hr
    exact hbody.edges _ (ho.adopted p hp)

lemma childrenOf_eq {n : ℕ} (h : F.Sits n (.cons ir c s)) : F.childrenOf n = c.roots (n + 1) := by
  rw [childrenOf, h.subforest]

lemma extends_inScope {G : Forest OIr} (h : Extends F parent G b.pushScope b') :
    Extends F parent G b b'.popScope :=
  ⟨built_popScope h.built, h.length, h.edges, h.linked, h.adopted⟩

lemma extends_append {b₁ b₂ : PlanBuilder} (h₁ : Extends F parent (.cons ir c .nil) b b₁)
    (h₂ : Extends F parent s b₁ b₂) : Extends F parent (.cons ir c s) b b₂ := by
  have hlen : b₁.nodes.length = b.nodes.length + 1 + c.size := by
    rw [h₁.length, Forest.size, Forest.size]
    omega
  refine ⟨h₂.built, by rw [h₂.length, hlen, Forest.size]; omega,
    fun e he => h₂.edges e (h₁.edges e he), fun p r hle hlt hr => ?_, fun p hp r hr => ?_⟩
  · by_cases hp : p < b₁.nodes.length
    · exact h₂.edges _ (h₁.linked p r hle hp hr)
    · exact h₂.linked p r (not_lt.1 hp) hlt hr
  · rcases mem_cons.1 hr with rfl | hr
    · exact h₂.edges _ (h₁.adopted p hp _ (by simp [Forest.roots]))
    · exact h₂.adopted p hp r (hlen ▸ hr)

mutual

/-- Adding an instruction numbers its tree in preorder and links every node to its children. -/
lemma addNode_extends : ∀ (ir : OIr) (parent previous : Option PlanNodeId) {b : PlanBuilder}
    {s : Forest OIr}, Built F b →
    F.Sits b.nodes.length (.cons ir ir.nested s) →
    (∀ p, parent = some p → b.nodes.length ∈ F.childrenOf p) →
    (∀ q, previous = some q → q < F.size ∧ F.stop q = b.nodes.length) →
    Extends F parent (.cons ir ir.nested .nil) b (b.addNode parent previous ir)
  | .text s, parent, previous, b, _, h, hsits, hparent, hprevious => by
    have ho := opened_openNode h hsits hparent hprevious
    rw [nested] at hsits ⊢
    exact ho.finish hsits (extends_nil ho.built)
  | .load name, parent, previous, b, _, h, hsits, hparent, hprevious => by
    have ho := (opened_openNode h hsits hparent hprevious).addBinding h hsits.lt_size _
      (fun u hu => ⟨name, hu⟩)
    rw [nested] at hsits ⊢
    exact ho.finish hsits (extends_nil ho.built)
  | .store name expr, parent, previous, b, _, h, hsits, hparent, hprevious => by
    have ho := opened_openNode h hsits hparent hprevious
    have hchildren := childrenOf_eq hsits
    have hstop := stop_eq hsits.subforest
    rw [nested] at hsits hchildren hstop ⊢
    have hbody := extends_inScope (addNode_extends expr (some b.nodes.length) none
      (built_pushScope ho.built)
      (ho.length ▸ hsits.children)
      (fun p hp => by
        cases hp
        rw [hchildren, show (pushScope _).nodes.length = b.nodes.length + 1 from ho.length]
        exact mem_cons_self)
      (fun q hq => absurd hq (by simp)))
    have hfin := ho.finish hsits hbody
    have hbind := built_bindName hfin.built name hsits.lt_size (by
      rw [hstop, hfin.length, Forest.size]
      simp only [Forest.size]
      omega)
    exact ⟨hbind, by simpa [addNode] using hfin.length, by simpa [addNode] using hfin.edges,
      by simpa [addNode] using hfin.linked, by simpa [addNode] using hfin.adopted⟩
  | .invoke fnName mode args, parent, previous, b, _, h, hsits, hparent, hprevious => by
    have ho := (opened_openNode h hsits hparent hprevious).addVisible h hsits.lt_size
      (fnName = "scope")
    have hchildren := childrenOf_eq hsits
    rw [nested] at hsits hchildren ⊢
    refine ho.finish hsits (extends_inScope (addNodes_extends args _ none (built_pushScope ho.built)
      (ho.length ▸ hsits.children) (fun p hp r hr => ?_) (fun q hq => absurd hq (by simp))))
    cases hp
    rw [hchildren]
    exact ho.length ▸ hr
  | .exec lang envId attr backend body, parent, previous, b, _, h, hsits, hparent, hprevious => by
    have ho := ((opened_openNode h hsits hparent hprevious).addVisible h hsits.lt_size
      (backend.execution = .shim)).addBinding h hsits.lt_size
        ((attrCapabilityBinding attr).bind (lookupBinding _))
        (fun u hu => by
          obtain ⟨name, -, hlookup⟩ := Option.bind_eq_some_iff.1 hu
          exact ⟨name, hlookup⟩)
    have hchildren := childrenOf_eq hsits
    rw [addNode]
    rw [nested] at hsits hchildren ⊢
    by_cases hquote : backend.isQuote = true
    · rw [if_pos hquote] at hsits ⊢
      simp only [if_pos hquote]
      exact ho.finish hsits (extends_nil ho.built)
    rw [if_neg hquote] at hsits hchildren ⊢
    simp only [if_neg hquote]
    refine ho.finish hsits (extends_inScope (addNodes_extends body _ none (built_pushScope ho.built)
      (ho.length ▸ hsits.children) (fun p hp r hr => ?_) (fun q hq => absurd hq (by simp))))
    cases hp
    rw [hchildren]
    exact ho.length ▸ hr

lemma addNodes_extends : ∀ (nodes : List OIr) (parent previous : Option PlanNodeId)
    {b : PlanBuilder}, Built F b →
    F.Sits b.nodes.length (forestOf nodes) →
    (∀ p, parent = some p → ∀ r ∈ (forestOf nodes).roots b.nodes.length, r ∈ F.childrenOf p) →
    (∀ q, previous = some q → q < F.size ∧ F.stop q = b.nodes.length) →
    Extends F parent (forestOf nodes) b (b.addNodes parent previous nodes)
  | [], _, _, b, h, _, _, _ => by
    rw [forestOf, addNodes]
    exact extends_nil h
  | node :: nodes, parent, previous, b, h, hsits, hparent, hprevious => by
    rw [forestOf] at hsits hparent ⊢
    have hfirst := addNode_extends node parent previous h hsits
      (fun p hp => hparent p hp _ mem_cons_self) hprevious
    have hlen : (b.addNode parent previous node).nodes.length
        = b.nodes.length + 1 + node.nested.size := by
      rw [hfirst.length, Forest.size, Forest.size]
      omega
    have hrest := addNodes_extends nodes parent (some b.nodes.length) hfirst.built
      (hlen ▸ hsits.siblings)
      (fun p hp r hr => hparent p hp r (mem_cons_of_mem _ (hlen ▸ hr)))
      (fun q hq => by
        cases hq
        exact ⟨hsits.lt_size, (stop_eq hsits.subforest).trans hlen.symm⟩)
    rw [addNodes]
    exact extends_append hfirst hrest

end

end PlanBuilder

/-! ## The plan of a program -/

lemma length_roots_forestOf (nodes : List OIr) (n : ℕ) :
    ((forestOf nodes).roots n).length = nodes.length := by
  induction nodes generalizing n with
  | nil => simp [forestOf, Forest.roots]
  | cons node nodes ih => simp [forestOf, Forest.roots, ih]

variable {F : Forest OIr}

/-- The roots of a forest of instructions are those instructions. -/
lemma Forest.Sits.map_roots : ∀ {nodes : List OIr} {n : ℕ},
    F.Sits n (forestOf nodes) →
    ((forestOf nodes).roots n).map (fun i => F.preorder[i]?) = nodes.map some
  | [], _, _ => by simp [forestOf, Forest.roots]
  | node :: nodes, n, h => by
    rw [forestOf] at h
    simp [forestOf, Forest.roots, h.label, h.siblings.map_roots]

mutual

lemma subforests_nested : ∀ ir : OIr,
    ir.nested.subforests = ir.nested.preorder.map nested
  | .text _ => by simp [nested, subforests, preorder]
  | .load _ => by simp [nested, subforests, preorder]
  | .store _ expr => by
    simp [nested, subforests, preorder, subforests_nested expr]
  | .invoke _ _ args => by
    rw [nested]
    exact subforests_forestOf args
  | .exec _ _ _ backend body => by
    rw [nested]
    split
    · rfl
    · exact subforests_forestOf body

lemma subforests_forestOf : ∀ nodes : List OIr,
    (forestOf nodes).subforests = (forestOf nodes).preorder.map nested
  | [] => by simp [forestOf, subforests, preorder]
  | node :: nodes => by
    simp [forestOf, subforests, preorder, subforests_nested node, subforests_forestOf nodes]

end

namespace OIrProgram

variable (program : OIrProgram)

lemma built_new : Built program.forest .new :=
  ⟨by simp [PlanBuilder.new], by simp [PlanBuilder.new], by simp [PlanBuilder.new]⟩

lemma plan_extends : Extends program.forest none program.forest .new
    (PlanBuilder.new.addNodes none none program.nodes) :=
  PlanBuilder.addNodes_extends program.nodes none none program.built_new
    program.forest.sits_self (by simp) (by simp)

lemma plan_nodes_length : program.plan.nodes.length = program.forest.size := by
  exact program.plan_extends.length.trans (Nat.zero_add _)

lemma plan_nodes :
    program.plan.nodes = program.forest.preorder.mapIdx (fun i ir => ⟨i, planKind ir⟩) := by
  refine ext_getElem? fun i => ?_
  rw [getElem?_mapIdx]
  by_cases hi : i < program.plan.nodes.length
  · exact program.plan_extends.built.nodes i hi
  · have hlen := program.plan_nodes_length
    rw [getElem?_eq_none (not_lt.1 hi), getElem?_eq_none (by simp; omega)]
    rfl

variable {e : PlanEdge} {p parent r : PlanNodeId}

lemma plan_edge_sound (he : e ∈ program.plan.edges) : EdgeSound program.forest e :=
  program.plan_extends.built.edges e he

lemma mem_plan_structural :
    ⟨r, p, .structural⟩ ∈ program.plan.edges ↔ r ∈ program.forest.childrenOf p := by
  refine ⟨fun h => (program.plan_edge_sound h).2.2, fun h => ?_⟩
  have hlt : p < program.plan.nodes.length :=
    program.plan_nodes_length ▸ (mem_childrenOf h).1
  exact program.plan_extends.linked p r (Nat.zero_le p) hlt h

lemma addRoots_eq {F : Forest OIr} : ∀ (nodes : List OIr) (previous : Option PlanNodeId)
    {b : PlanBuilder}, Built F b → F.Sits b.nodes.length (forestOf nodes) →
    (∀ q, previous = some q → q < F.size ∧ F.stop q = b.nodes.length) →
    addRoots previous nodes b = (forestOf nodes).roots b.nodes.length
  | [], _, _, _, _, _ => by simp [addRoots, forestOf, Forest.roots]
  | node :: nodes, previous, b, h, hsits, hprevious => by
    rw [forestOf] at hsits ⊢
    have hfirst := PlanBuilder.addNode_extends node none previous h hsits (by simp) hprevious
    have hlen : (b.addNode none previous node).nodes.length
        = b.nodes.length + 1 + node.nested.size := by
      rw [hfirst.length, Forest.size, Forest.size]
      omega
    rw [addRoots, Forest.roots, addRoots_eq nodes _ hfirst.built (hlen ▸ hsits.siblings)
      (fun q hq => by
        cases hq
        exact ⟨hsits.lt_size, (stop_eq hsits.subforest).trans hlen.symm⟩), hlen]

lemma plan_roots : program.plan.roots = program.forest.roots 0 :=
  addRoots_eq program.nodes none program.built_new program.forest.sits_self (by simp)

lemma lt_size_of_root {root : PlanNodeId} (h : root ∈ program.plan.roots) :
    root < program.forest.size := by
  rw [plan_roots] at h
  simpa using (mem_roots h).2

lemma closes_of_plan_edge (he : e ∈ program.plan.edges) :
    program.forest.Closes e.source e.target := by
  obtain ⟨hsource, htarget, hkind⟩ := program.plan_edge_sound he
  obtain ⟨u, v, kind⟩ := e
  cases kind with
  | structural =>
    obtain ⟨hv, hlt, hstop⟩ := mem_childrenOf hkind
    exact closes_of_inside hv hlt hstop
  | sequence => exact closes_of_stop_le (le_of_eq hkind)
  | data => exact closes_of_stop_le hkind

/-- Scheduling the least ready identifier walks the program in post-order. -/
lemma plan_order :
    Kahn.order (List.range program.plan.nodes.length) program.plan.edgePairs
      = program.forest.postOrder 0 := by
  rw [plan_nodes_length]
  apply kahn_eq_postOrder
  · intro e he
    obtain ⟨edge, hedge, rfl⟩ := mem_map.1 he
    exact ⟨(program.plan_edge_sound hedge).1, (program.plan_edge_sound hedge).2.1⟩
  · intro e he
    obtain ⟨edge, hedge, rfl⟩ := mem_map.1 he
    exact program.closes_of_plan_edge hedge
  · intro p r hr
    exact mem_map.2 ⟨_, program.mem_plan_structural.2 hr, rfl⟩

lemma plan_topologicalOrder : program.plan.topologicalOrder = .ok (program.forest.postOrder 0) := by
  rw [topologicalOrder, plan_order, length_postOrder, plan_nodes_length]
  simp

lemma plan_rootSchedule : program.plan.rootSchedule = .ok (List.range program.nodes.length) := by
  have hpairwise : program.plan.roots.Pairwise program.forest.Closes :=
    program.plan_roots ▸ program.forest.sits_self.roots_pairwise
  have hnodup : program.plan.roots.Nodup := hpairwise.imp fun {u v} h => by
    rintro rfl
    exact h.asymm h
  have hfilter := program.forest.filter_postOrder program.plan.roots hpairwise fun v hv =>
    program.lt_size_of_root hv
  have hlen : program.plan.roots.length = program.nodes.length := by
    rw [plan_roots]
    exact length_roots_forestOf program.nodes 0
  rw [rootSchedule, plan_topologicalOrder]
  simp [bind, Except.bind, filterMap_rootPosition hnodup hfilter, hlen]

lemma plan_validate (rootCount : ℕ) :
    program.plan.validate rootCount = .ok () ↔ rootCount = program.nodes.length := by
  have hlen : program.plan.roots.length = program.nodes.length := by
    rw [plan_roots]
    exact length_roots_forestOf program.nodes 0
  rw [validate_eq_ok, hlen]
  refine ⟨fun h => h.1.symm, fun h => ⟨h.symm, ?_, ?_, ?_, ?_, ⟨_, program.plan_topologicalOrder⟩,
    ⟨_, program.plan_rootSchedule⟩⟩⟩
  · intro x hx
    have hget := mem_zipIdx_iff_getElem?.1 hx
    rw [plan_nodes, getElem?_mapIdx, Option.map_eq_some_iff] at hget
    obtain ⟨ir, -, hir⟩ := hget
    rw [← hir]
  · intro root hroot
    rw [plan_nodes_length]
    exact program.lt_size_of_root hroot
  · rw [plan_roots]
    exact program.forest.sits_self.roots_pairwise.imp fun {u v} h => by
      rintro rfl
      exact h.asymm h
  · intro e he
    rw [plan_nodes_length]
    exact ⟨(program.plan_edge_sound he).1, (program.plan_edge_sound he).2.1⟩

lemma mem_structuralChildren :
    r ∈ program.plan.structuralChildren p ↔ r ∈ program.forest.childrenOf p := by
  rw [← mem_plan_structural, structuralChildren, OrdSet.mem_ofList, mem_filterMap]
  constructor
  · rintro ⟨⟨u, v, kind⟩, he, hr⟩
    split at hr
    · next hcond =>
      obtain ⟨rfl, rfl⟩ : kind = .structural ∧ v = p := hcond
      cases hr
      exact he
    · simp at hr
  · intro he
    exact ⟨_, he, by simp⟩

lemma plan_childSchedule (h : parent < program.forest.size) :
    program.plan.childSchedule parent = .ok (program.forest.childrenOf parent) := by
  have hfilter := program.forest.filter_postOrder _ (program.forest.childrenOf_pairwise parent)
    fun v hv => (mem_childrenOf hv).2.2.trans_le (stop_le_size h)
  rw [childSchedule, plan_topologicalOrder, plan_nodes_length]
  simp only [ensure, if_pos h, bind, Except.bind, pure, Except.pure, mem_structuralChildren]
  rw [hfilter]

lemma map_childrenOf {ir : OIr} (h : program.flattenForPlan[parent]? = some ir) :
    (program.forest.childrenOf parent).map (fun i => program.flattenForPlan[i]?)
      = ir.children.map some := by
  rw [flattenForPlan_eq] at h ⊢
  have hsub : program.forest.subforests[parent]? = some (forestOf ir.children) := by
    rw [forest] at h ⊢
    rw [subforests_forestOf, getElem?_map, h, Option.map_some, nested_eq]
  rw [childrenOf, hsub]
  exact (sits_of_subforest hsub).map_roots

/-- A plan is accepted exactly for its number of top-level instructions. Its topological order is
the left-to-right post-order of the instruction tree, with roots and direct children in source
order. -/
theorem plan_schedules (program : OIrProgram) :
    (∀ rootCount, program.plan.validate rootCount = .ok () ↔ rootCount = program.nodes.length) ∧
    program.plan.topologicalOrder = .ok (program.forest.postOrder 0) ∧
    program.plan.rootSchedule = .ok (List.range program.nodes.length) ∧
    program.plan.roots.map (fun i => program.flattenForPlan[i]?) = program.nodes.map some ∧
    ∀ parent ir, program.flattenForPlan[parent]? = some ir →
      program.plan.childSchedule parent = .ok (program.forest.childrenOf parent) ∧
      (program.forest.childrenOf parent).map (fun i => program.flattenForPlan[i]?)
        = ir.children.map some := by
  refine ⟨program.plan_validate, program.plan_topologicalOrder, program.plan_rootSchedule, ?_, ?_⟩
  · rw [plan_roots, flattenForPlan_eq]
    exact program.forest.sits_self.map_roots
  intro parent ir h
  refine ⟨program.plan_childSchedule ?_, program.map_childrenOf h⟩
  rw [flattenForPlan_eq] at h
  simpa using (List.getElem?_eq_some_iff.1 h).1

end OIrProgram

/-- One store has two flattened instructions and one root. -/
theorem validate_flattened_count_fails :
    (OIrProgram.mk [.store "x" (.text "1")]).plan.validate
      (OIrProgram.mk [.store "x" (.text "1")]).flattenForPlan.length = .error (.rootCount 1 2) := by
  decide

end Ostadix
