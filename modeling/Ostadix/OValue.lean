import Ostadix.Ir
import Ostadix.Value

/-! The values of the runtime: everything that crosses a language boundary. -/

namespace Ostadix

open Wire List

/-! ## Kinds -/

inductive SeqKind where
  | list | tuple | vector
  deriving DecidableEq, Repr

inductive SetKind where
  | ordered | unordered
  deriving DecidableEq, Repr

@[ext] structure OSymbol where
  ns : Option String
  name : String
  deriving DecidableEq, Repr

@[ext] structure OKeyword where
  ns : Option String
  name : String
  deriving DecidableEq, Repr

inductive CapabilityKind where
  | file | memoryRegion | device | clock | networkEndpoint | process | service
  | systemActivation | backendExecution
  deriving DecidableEq, Repr

inductive BackendAuthority where
  | fileRead | fileWrite | network | process
  deriving DecidableEq, Repr

inductive SnapshotKind where
  | system | service | filesystem | device
  deriving DecidableEq, Repr

inductive RequestKind where
  | instantiate
  | realise
  | eval (lang : String) (envId : UInt32) (cacheable : Bool) (authority : Option String)
      (permissions : List BackendAuthority)
  | activate (profile : String) (dryRun : Bool) (authority : Option String)
  deriving DecidableEq, Repr

inductive NativeCodecSafety where
  | dataOnly | sourceBacked | unsafeOpaque | liveHandle
  deriving DecidableEq, Repr

inductive NativeBoundary where
  | pure | referential | effectful
  deriving DecidableEq, Repr

inductive RehydratePolicy where
  | portable | sameBackend | sameProcess | never
  deriving DecidableEq, Repr

structure NativeIdentity where
  (stable live : Option String)
  deriving DecidableEq, Repr

/-- A native capsule without its metadata, which the value holds beside it. -/
structure ONative where
  lang : String
  (implementation version : Option String)
  typeName : String
  identity : NativeIdentity
  codec : String
  payload : Option OBytes
  boundary : NativeBoundary
  safety : NativeCodecSafety
  capabilities : List CapabilityKind
  rehydrate : RehydratePolicy
  deriving DecidableEq, Repr

inductive GraphNode (α : Type) where
  | value (value : α)
  | ref (target : UInt64)

/-! ## Values -/

/-- A hash map lists its entries in the order of iteration, a sorted map in the order of keys. -/
inductive OValue where
  | null
  | bool (v : Bool)
  | number (v : ONumber)
  | text (v : OText)
  | char (scalar : Char)
  | html (v : String)
  | storePath (path : String)
  | expr (src : String)
  | list (v : List OValue)
  | map (v : List (String × OValue))
  | seq (kind : SeqKind) (items : List OValue)
  | object (fields : List (String × OValue))
  | entriesMap (entries : List (OValue × OValue))
  | set (kind : SetKind) (items : List OValue)
  | symbol (v : OSymbol)
  | keyword (v : OKeyword)
  | scope (bindings : List (String × OValue))
  | blob (v mime : String)
  | bytes (v : OBytes)
  | graph (root : UInt64) (nodes : List (GraphNode OValue))
  | native (v : ONative) (metadata : List (String × OValue))
  | nixExpr (body : String) (deps : List OValue) (fingerprint : String)
  | derivation (drvPath : String) (outputs : List String) (deps : List OValue)
  | request (kind : RequestKind) (source : OValue) (fingerprint : String)
  | system (profilePath : String)
  | capability (kind : CapabilityKind) (identity : String) (metadata : List (String × OValue))
  | snapshot (kind : SnapshotKind) (identity : String) (state : List (String × OValue))
  | thunk (body : String) (deps : List OValue) (fingerprint : String)
  | group (mode : GroupMode) (members : List OValue) (fingerprint : String)
  | error (msg : String)

def GraphNode.values {α : Type} : GraphNode α → List α
  | .value v => [v]
  | .ref _ => []

variable {c : OValue} {inside : OValue → List OValue}

namespace OValue

def children : OValue → List OValue
  | .list v => v
  | .map v => v.map Prod.snd
  | .seq _ items => items
  | .object fields => fields.map Prod.snd
  | .entriesMap entries => entries.flatMap fun e => [e.1, e.2]
  | .set _ items => items
  | .scope bindings => bindings.map Prod.snd
  | .graph _ nodes => nodes.flatMap GraphNode.values
  | .native _ metadata => metadata.map Prod.snd
  | .nixExpr _ deps _ => deps
  | .derivation _ _ deps => deps
  | .request _ source _ => [source]
  | .capability _ _ metadata => metadata.map Prod.snd
  | .snapshot _ _ state => state.map Prod.snd
  | .thunk _ deps _ => deps
  | .group _ members _ => members
  | _ => []

lemma sizeOf_lt_of_mem_fields {fields : List (String × OValue)}
    (h : c ∈ fields.map Prod.snd) : sizeOf c < sizeOf fields := by
  obtain ⟨⟨key, v⟩, he, rfl⟩ := mem_map.1 h
  have hlt := sizeOf_lt_of_mem he
  rw [Prod.mk.sizeOf_spec] at hlt
  dsimp only
  omega

lemma sizeOf_lt_of_mem_entries {entries : List (OValue × OValue)}
    (h : c ∈ entries.flatMap fun e => [e.1, e.2]) : sizeOf c < sizeOf entries := by
  obtain ⟨⟨key, v⟩, he, hc⟩ := mem_flatMap.1 h
  have hlt := sizeOf_lt_of_mem he
  rw [Prod.mk.sizeOf_spec] at hlt
  rcases mem_pair.1 hc with rfl | rfl <;> omega

lemma sizeOf_lt_of_mem_nodes {nodes : List (GraphNode OValue)}
    (h : c ∈ nodes.flatMap GraphNode.values) : sizeOf c < sizeOf nodes := by
  obtain ⟨n, hn, hc⟩ := mem_flatMap.1 h
  have hlt := sizeOf_lt_of_mem hn
  cases n with
  | value v =>
    obtain rfl := mem_singleton.1 hc
    rw [GraphNode.value.sizeOf_spec] at hlt
    omega
  | ref target => exact absurd hc not_mem_nil

lemma sizeOf_lt_of_mem_children {v : OValue} (h : c ∈ v.children) : sizeOf c < sizeOf v := by
  cases v with
  | list v | seq _ v | set _ v | nixExpr _ v _ | derivation _ _ v | thunk _ v _ | group _ v _ =>
    have hlt := sizeOf_lt_of_mem (show c ∈ v from h)
    simp only [list.sizeOf_spec, seq.sizeOf_spec, set.sizeOf_spec, nixExpr.sizeOf_spec,
      derivation.sizeOf_spec, thunk.sizeOf_spec, group.sizeOf_spec]
    omega
  | map v | object v | scope v | native _ v | capability _ _ v | snapshot _ _ v =>
    have hlt := sizeOf_lt_of_mem_fields (show c ∈ v.map Prod.snd from h)
    simp only [map.sizeOf_spec, object.sizeOf_spec, scope.sizeOf_spec, native.sizeOf_spec,
      capability.sizeOf_spec, snapshot.sizeOf_spec]
    omega
  | entriesMap entries =>
    have hlt := sizeOf_lt_of_mem_entries h
    rw [entriesMap.sizeOf_spec]
    omega
  | graph root nodes =>
    have hlt := sizeOf_lt_of_mem_nodes h
    rw [graph.sizeOf_spec]
    omega
  | request kind source fingerprint =>
    obtain rfl := mem_singleton.1 h
    rw [request.sizeOf_spec]
    omega
  | _ => exact absurd h not_mem_nil

/-- What passes from the values inside a value to the value itself holds of every value. -/
@[elab_as_elim]
lemma induction {P : OValue → Prop} (h : ∀ v, (∀ c ∈ v.children, P c) → P v) (v : OValue) : P v :=
  h v fun c _ => induction h c
termination_by sizeOf v
decreasing_by exact sizeOf_lt_of_mem_children (by assumption)

/-! ## Occurrences -/

/-- The first value is reached from the second one by going into values along `inside`. -/
inductive Reach (inside : OValue → List OValue) : OValue → OValue → Prop where
  | refl (v : OValue) : Reach inside v v
  | step {w c v : OValue} (hc : c ∈ inside v) (h : Reach inside w c) : Reach inside w v

abbrev Occurs : OValue → OValue → Prop := Reach children

lemma Reach.trans {u w v : OValue} (huw : Reach inside u w)
    (hwv : Reach inside w v) : Reach inside u v := by
  induction hwv with
  | refl => exact huw
  | step hc _ ih => exact .step hc ih

lemma Reach.iff {w v : OValue} : Reach inside w v ↔ w = v ∨ ∃ c ∈ inside v, Reach inside w c := by
  constructor
  · intro h
    cases h with
    | refl => exact .inl rfl
    | step hc h => exact .inr ⟨_, hc, h⟩
  · rintro (rfl | ⟨c, hc, h⟩)
    · exact .refl w
    · exact .step hc h

end OValue

end Ostadix
