import Ostadix.MemoryObject

/-! The registry of the mappings that address spaces hold of memory objects. -/

namespace Ostadix.MemoryMapping

open TaggedHandle PageFrames MemoryObject

abbrev maxMappings : ℕ := 32
def mappingHandleTag : UInt64 := 0xa3000000

def mapUser : UInt64 := 1
def mapRead : UInt64 := 2
def mapWrite : UInt64 := 4
def mapExec : UInt64 := 8
def mapStack : UInt64 := 16

inductive MappingState where
  | empty | live | retired
  deriving DecidableEq, Repr

/-- What a mapping ties together; all zero where there is none. -/
structure Extent where
  (addressSpace object kind virtualAddress length flags : UInt64)
  physicalAddress : ℕ
  deriving DecidableEq, Repr

def Extent.none : Extent := ⟨0, 0, 0, 0, 0, 0, 0⟩

structure Mapping where
  state : MappingState
  generation : UInt32
  extent : Extent
  deriving DecidableEq, Repr

structure Mappings where
  slots : Fin maxMappings → Mapping
  initialized : Bool

def ValidExtent (virtualAddress length flags : UInt64) : Prop :=
  virtualAddress ≠ 0 ∧ length ≠ 0 ∧ virtualAddress &&& 4095 = 0 ∧ length &&& 4095 = 0 ∧
    virtualAddress < virtualAddress + length ∧ flags ≠ 0 ∧
    flags ≤ mapUser ||| mapRead ||| mapWrite ||| mapExec ||| mapStack ∧
    flags &&& mapUser ≠ 0 ∧ flags &&& mapRead ≠ 0 ∧
    ¬(flags &&& mapWrite ≠ 0 ∧ flags &&& mapExec ≠ 0)

instance (virtualAddress length flags : UInt64) :
    Decidable (ValidExtent virtualAddress length flags) :=
  inferInstanceAs (Decidable (_ ∧ _))

namespace Mappings

def set (m : Mappings) (s : Fin maxMappings) (mapping : Mapping) : Mappings :=
  { m with slots := Function.update m.slots s mapping }

def init (m : Mappings) : UInt64 × Mappings :=
  if m.initialized then (0, m) else (1, ⟨fun _ => ⟨.empty, 1, .none⟩, true⟩)

def checkedSlot (m : Mappings) (handle : UInt64) : Option (Fin maxMappings) :=
  if h : index handle < maxMappings then
    let mapping := m.slots ⟨index handle, h⟩
    if tagOf handle = mappingHandleTag ∧ mapping.state = .live ∧
        mapping.generation = generation handle then
      some ⟨index handle, h⟩
    else none
  else none

def firstEmpty (m : Mappings) : Option (Fin maxMappings) :=
  (List.finRange maxMappings).find? fun s => (m.slots s).state = .empty

/-- The second result is the physical address. -/
def createOwned (m : Mappings) (k : Store) (addressSpace object kind virtualAddress length
    flags : UInt64) : (UInt64 × ℕ) × Mappings × Store :=
  if m.initialized = false ∨ addressSpace = 0 ∨ object = 0 ∨ k.objectKind object ≠ kind ∨
      ¬ValidExtent virtualAddress length flags then ((0, 0), m, k)
  else match m.firstEmpty with
    | none => ((0, 0), m, k)
    | some s =>
      match k.retainForMapping object kind with
      | ((retained, physical), k) =>
        if retained = 0 then ((0, 0), m, k)
        else if physical = 0 ∨ physical % pageSize ≠ 0 then
          ((0, 0), m, (k.releaseMapping object kind).2)
        else
          ((make mappingHandleTag (m.slots s).generation s, physical),
            m.set s ⟨.live, (m.slots s).generation,
              ⟨addressSpace, object, kind, virtualAddress, length, flags, physical⟩⟩, k)

def Mapping.advanced (mapping : Mapping) : Mapping :=
  if mapping.generation = 0xffffffff then ⟨.retired, mapping.generation, .none⟩
  else ⟨.empty, mapping.generation + 1, .none⟩

def destroyForOwner (m : Mappings) (k : Store) (handle addressSpace object : UInt64) :
    UInt64 × Mappings × Store :=
  match m.checkedSlot handle with
  | none => (0, m, k)
  | some s =>
    let extent := (m.slots s).extent
    if extent.addressSpace ≠ addressSpace ∨ extent.object ≠ object ∨
        k.objectKind object ≠ extent.kind then (0, m, k)
    else match k.releaseMapping object extent.kind with
      | (released, k) =>
        if released = 0 then (0, m, k) else (1, m.set s (Mapping.advanced (m.slots s)), k)

end Mappings

end Ostadix.MemoryMapping
