import Ostadix.PageFrames

/-! Memory objects own one frame, count their references, and are charged to a CSpace. -/

namespace Ostadix.Capability.Capabilities

def cspaceIsLive (t : Capabilities) (handle : UInt64) : Bool := (t.checkedCspace handle).isSome

def cspaceIsValidOwner (t : Capabilities) (handle : UInt64) : Bool :=
  (t.checkedCspaceOwner handle).isSome

def hasFreeSlotForOwner (t : Capabilities) (cspaceHandle : UInt64) : Bool :=
  match t.checkedCspace cspaceHandle with
  | none => false
  | some i =>
    match (t.cspaces i).firstEmpty with
    | none => false
    | some s => ((t.cspaces i).slots s).Allocatable

end Ostadix.Capability.Capabilities

namespace Ostadix.MemoryObject

open TaggedHandle Capability PageFrames

def memoryAnonymous : UInt64 := 1
def memoryShared : UInt64 := 2
def memoryExecutable : UInt64 := 3

inductive Status where
  | ok | invalidKind | quotaExceeded | noMemory | noSlot | invariantFailure | denied
  deriving DecidableEq, Repr

abbrev maxMemoryObjects : ℕ := 64
def memoryHandleTag : UInt64 := 0xa1000000

inductive ObjectState where
  | empty | live | retired
  deriving DecidableEq, Repr

structure Object where
  state : ObjectState
  (kind owner frame : UInt64)
  (references generation : UInt32)
  deriving DecidableEq, Repr

/-- A quota belongs to a CSpace generation, not to the slot that is used again. -/
structure Quota where
  owner : UInt64
  (limit used : ℕ)
  deriving DecidableEq, Repr

structure Memory where
  objects : Fin maxMemoryObjects → Object
  quotas : Fin maxCspaces → Quota
  (initialized failAfterObjectPublish : Bool)

/-- The memory objects with the tables they draw on. -/
structure Store where
  caps : Capabilities
  frames : Frames
  memory : Memory

def ValidMemoryKind (kind : UInt64) : Prop :=
  kind = memoryAnonymous ∨ kind = memoryShared ∨ kind = memoryExecutable

instance (kind : UInt64) : Decidable (ValidMemoryKind kind) := inferInstanceAs (Decidable (_ ∨ _))

def frameKindFor (kind : UInt64) : UInt64 :=
  if kind = memoryAnonymous then frameKindAnonymous
  else if kind = memoryShared then frameKindShared
  else if kind = memoryExecutable then frameKindExecutable
  else 0

namespace Store

variable (k : Store)

def object (o : Fin maxMemoryObjects) : Object := k.memory.objects o

def quota (i : Fin maxCspaces) : Quota := k.memory.quotas i

def setObject (o : Fin maxMemoryObjects) (object : Object) : Store :=
  { k with memory := { k.memory with objects := Function.update k.memory.objects o object } }

def setQuotaEntry (i : Fin maxCspaces) (quota : Quota) : Store :=
  { k with memory := { k.memory with quotas := Function.update k.memory.quotas i quota } }

def makeObjectHandle (o : Fin maxMemoryObjects) : UInt64 :=
  make memoryHandleTag (k.object o).generation o

def checkedObject (handle expectedKind : UInt64) : Option (Fin maxMemoryObjects) :=
  if h : index handle < maxMemoryObjects then
    let object := k.object ⟨index handle, h⟩
    if tagOf handle = memoryHandleTag ∧ object.state = .live ∧
        object.generation = generation handle ∧
        (expectedKind = 0 ∨ object.kind = expectedKind) then
      some ⟨index handle, h⟩
    else none
  else none

/-- The quota of an owner. A fresh generation takes over the slot with a limit of zero. -/
def quotaSlotForOwner (owner : UInt64) : Option (Fin maxCspaces) × Store :=
  match k.caps.checkedCspaceOwner owner with
  | none => (none, k)
  | some i =>
    if (k.quota i).owner ≠ owner then
      if (k.quota i).used ≠ 0 then (none, k)
      else (some i, k.setQuotaEntry i { k.quota i with owner, limit := 0 })
    else (some i, k)

def init : UInt64 × Store :=
  if k.memory.initialized ∨ ∃ i : Fin maxCspaces, k.caps.cspaceHandleForSlot i = 0 then (0, k)
  else
    (1, { k with memory :=
      { objects := fun _ => ⟨.empty, 0, 0, 0, 0, 1⟩
        quotas := fun i => ⟨k.caps.cspaceHandleForSlot i, 0, 0⟩
        initialized := true, failAfterObjectPublish := false } })

def injectFailureAfterObjectPublishOnce : Store :=
  { k with memory := { k.memory with failAfterObjectPublish := true } }

def setQuotaForOwner (owner : UInt64) (limit : ℕ) : UInt64 × Store :=
  if k.memory.initialized = false ∨ k.caps.cspaceIsLive owner = false ∨
      limit > maxMemoryObjects then (0, k)
  else match k.quotaSlotForOwner owner with
    | (none, k) => (0, k)
    | (some i, k) =>
      if (k.quota i).used > limit then (0, k)
      else (1, k.setQuotaEntry i { k.quota i with limit })

def setQuota (cspaceId limit : ℕ) : UInt64 × Store :=
  if cspaceId < maxCspaces then k.setQuotaForOwner (k.caps.cspaceHandleForSlot cspaceId) limit
  else (0, k)

/-! ## The invariant that the code checks -/

def ObjectValid (object : Object) : Prop :=
  match object.state with
  | .empty =>
    object.kind = 0 ∧ object.owner = 0 ∧ object.frame = 0 ∧ object.references = 0 ∧
      object.generation ≠ 0
  | .live =>
    (∃ i, k.caps.checkedCspaceOwner object.owner = some i ∧ (k.quota i).owner = object.owner) ∧
      ValidMemoryKind object.kind ∧ object.references ≠ 0 ∧ object.generation ≠ 0 ∧
      k.frames.frameAddress object.frame (frameKindFor object.kind) ≠ 0
  | .retired =>
    object.kind = 0 ∧ object.owner = 0 ∧ object.frame = 0 ∧ object.references = 0 ∧
      object.generation = 0xffffffff

instance (k : Store) (object : Object) : Decidable (k.ObjectValid object) := by
  unfold ObjectValid
  split <;> infer_instance

def observed (i : Fin maxCspaces) : ℕ :=
  ∑ o, if (k.object o).state = .live ∧
    k.caps.checkedCspaceOwner (k.object o).owner = some i then 1 else 0

def QuotaValid (i : Fin maxCspaces) : Prop :=
  k.observed i = (k.quota i).used ∧ (k.quota i).used ≤ (k.quota i).limit ∧
    ((k.quota i).used ≠ 0 → k.caps.checkedCspaceOwner (k.quota i).owner = some i ∧
      k.observed i ≤ (k.caps.cspaceChildRefs (k.quota i).owner).toNat)

instance (k : Store) (i : Fin maxCspaces) : Decidable (k.QuotaValid i) :=
  inferInstanceAs (Decidable (_ ∧ _))

def InvariantsHold (k : Store) : Prop :=
  k.memory.initialized ∧ k.frames.InvariantsHold ∧ (∀ o, k.ObjectValid (k.object o)) ∧
    ∀ i, k.QuotaValid i

instance (k : Store) : Decidable k.InvariantsHold := inferInstanceAs (Decidable (_ ∧ _))

/-! ## References -/

def objectKind (handle : UInt64) : UInt64 :=
  match k.checkedObject handle 0 with
  | none => 0
  | some o => (k.object o).kind

def retain (o : Fin maxMemoryObjects) : Store :=
  k.setObject o { k.object o with references := (k.object o).references + 1 }

def retainObject (handle : UInt64) : UInt64 × Store :=
  match k.checkedObject handle 0 with
  | none => (0, k)
  | some o => if (k.object o).references = 0xffffffff then (0, k) else (1, k.retain o)

def retainForMapping (handle expectedKind : UInt64) : (UInt64 × ℕ) × Store :=
  if ¬ValidMemoryKind expectedKind then ((0, 0), k)
  else match k.checkedObject handle expectedKind with
    | none => ((0, 0), k)
    | some o =>
      if (k.object o).references = 0xffffffff then ((0, 0), k)
      else
        let address := k.frames.frameAddress (k.object o).frame (frameKindFor expectedKind)
        if address = 0 then ((0, 0), k) else ((1, address), k.retain o)

def Object.advanced (object : Object) : Object :=
  if object.generation = 0xffffffff then ⟨.retired, 0, 0, 0, 0, object.generation⟩
  else ⟨.empty, 0, 0, 0, 0, object.generation + 1⟩

def releaseObject (handle : UInt64) : UInt64 × Store :=
  match k.checkedObject handle 0 with
  | none => (0, k)
  | some o =>
    let object := k.object o
    if object.references = 0 then (0, k)
    else if object.references > 1 then
      (1, k.setObject o { object with references := object.references - 1 })
    else match k.quotaSlotForOwner object.owner with
      | (none, k) => (0, k)
      | (some i, k) =>
        if (k.quota i).used = 0 ∨ k.caps.cspaceChildRefs object.owner = 0 then (0, k)
        else
          let frames := k.frames.releaseFrame object.frame (frameKindFor object.kind)
          let caps := k.caps.releaseCspace object.owner
          if frames.1 = 0 then (0, { k with frames := frames.2 })
          else if caps.1 = 0 then (0, { k with frames := frames.2, caps := caps.2 })
          else
            (1, ({ k with frames := frames.2, caps := caps.2 }.setQuotaEntry i
              { k.quota i with used := (k.quota i).used - 1 }).setObject o
                (Object.advanced object))

def releaseMapping (handle expectedKind : UInt64) : UInt64 × Store :=
  match k.checkedObject handle expectedKind with
  | none => (0, k)
  | some _ => k.releaseObject handle

/-! ## Allocating -/

def firstEmptyObject : Option (Fin maxMemoryObjects) :=
  (List.finRange maxMemoryObjects).find? fun o => (k.object o).state = .empty

def allocateOwnedObject (owner kind : UInt64) : (Status × UInt64) × Store :=
  if ¬ValidMemoryKind kind then ((.invalidKind, 0), k)
  else match k.quotaSlotForOwner owner with
    | (none, k) => ((.denied, 0), k)
    | (some i, k) =>
      if (k.quota i).used ≥ (k.quota i).limit then ((.quotaExceeded, 0), k)
      else match k.firstEmptyObject with
        | none => ((.noSlot, 0), k)
        | some o =>
          let frameKind := frameKindFor kind
          let frame := k.frames.allocFrame frameKind
          let k : Store := { k with frames := frame.2 }
          if frame.1 = 0 then ((.noMemory, 0), k)
          else
            let lease := k.caps.retainCspace owner
            let k : Store := { k with caps := lease.2 }
            if lease.1 = 0 then
              let undone : UInt64 × Frames := k.frames.releaseFrame frame.1 frameKind
              let k : Store := { k with frames := undone.2 }
              if undone.1 = 0 then ((.invariantFailure, 0), k) else ((.denied, 0), k)
            else if k.memory.failAfterObjectPublish then
              -- the object is published and taken back before anyone sees it
              let k : Store :=
                { k with memory := { k.memory with failAfterObjectPublish := false } }
              let undone : UInt64 × Frames := k.frames.releaseFrame frame.1 frameKind
              let k : Store := { k with frames := undone.2 }
              if undone.1 = 0 then ((.invariantFailure, 0), k)
              else
                let unleased := k.caps.releaseCspace owner
                let k : Store := { k with caps := unleased.2 }
                if unleased.1 = 0 then ((.invariantFailure, 0), k) else ((.noMemory, 0), k)
            else
              let k := (k.setObject o
                ⟨.live, kind, owner, frame.1, 1, (k.object o).generation⟩).setQuotaEntry i
                  { k.quota i with used := (k.quota i).used + 1 }
              ((.ok, k.makeObjectHandle o), k)

def allocateCapabilityForOwner (owner kind : UInt64) : (Status × UInt64) × Store :=
  if ¬k.InvariantsHold then ((.invariantFailure, 0), k)
  else if k.caps.cspaceIsLive owner = false ∨ ¬ValidMemoryKind kind then ((.invalidKind, 0), k)
  else if k.caps.hasFreeSlotForOwner owner = false then ((.noSlot, 0), k)
  else match k.allocateOwnedObject owner kind with
    | ((.ok, handle), k) =>
      let rights := if kind = memoryShared then rightMemoryUse ||| rightTransfer
        else rightMemoryUse
      let installed := k.caps.installFirstFreeForOwner owner ⟨handle, objectMemory, rights⟩
      let k : Store := { k with caps := installed.2 }
      if installed.1 = 0 then ((.invariantFailure, 0), (k.releaseObject handle).2)
      else ((.ok, installed.1), k)
    | ((status, _), k) => ((status, 0), k)

def allocateCapability (cspaceId : ℕ) (kind : UInt64) : (Status × UInt64) × Store :=
  if cspaceId < maxCspaces then
    k.allocateCapabilityForOwner (k.caps.cspaceHandleForSlot cspaceId) kind
  else ((.invalidKind, 0), k)

def allocateKernelObjectForOwner (owner kind : UInt64) : UInt64 × Store :=
  if ¬k.InvariantsHold ∨ k.caps.cspaceIsLive owner = false then (0, k)
  else match k.allocateOwnedObject owner kind with
    | ((.ok, handle), k) => (handle, k)
    | (_, k) => (0, k)

def allocateKernelObject (cspaceSlot : ℕ) (kind : UInt64) : UInt64 × Store :=
  if cspaceSlot < maxCspaces then
    k.allocateKernelObjectForOwner (k.caps.cspaceHandleForSlot cspaceSlot) kind
  else (0, k)

/-! ## Closing -/

def closeCapabilityForOwner (owner capability : UInt64) : Status × Store :=
  if ¬k.InvariantsHold then (.invariantFailure, k)
  else if k.caps.cspaceIsValidOwner owner = false then (.denied, k)
  else
    let handle := k.caps.validateForOwner owner capability objectMemory 0
    if owner = 0 ∨ (k.checkedObject handle 0).isNone then (.denied, k)
    else
      let closed := k.caps.closeForOwner owner capability
      let k : Store := { k with caps := closed.2 }
      if closed.1 = 0 then (.invariantFailure, k)
      else
        let released := k.releaseObject handle
        if released.1 = 0 ∨ ¬released.2.InvariantsHold then (.invariantFailure, released.2)
        else (.ok, released.2)

def closeCapability (cspaceId : ℕ) (capability : UInt64) : Status × Store :=
  if cspaceId < maxCspaces then
    k.closeCapabilityForOwner (k.caps.cspaceHandleForSlot cspaceId) capability
  else (.denied, k)

end Store

end Ostadix.MemoryObject
