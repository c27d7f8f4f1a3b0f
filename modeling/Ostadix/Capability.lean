import Ostadix.TaggedHandle
import Mathlib.Algebra.BigOperators.Fin
import Mathlib.Data.Fintype.BigOperators
import Mathlib.Data.Fintype.Pi
import Mathlib.Logic.Function.Basic

/-! The capability tables: four CSpaces of sixty-four slots, named by handles with a generation. -/

namespace Ostadix.Capability

open TaggedHandle

abbrev maxCspaces : ℕ := 4
abbrev capabilitiesPerCspace : ℕ := 64

def cspaceHandleTag : UInt64 := 0xc1000000
def reservationHandleTag : UInt64 := 0xb1000000

/-! ## Generations -/

def generationInvalid : UInt32 := 0
def generationLastLive : UInt32 := 0xfffffffe
def generationRetired : UInt32 := 0xffffffff

def GenerationIsLive (generation : UInt32) : Prop :=
  generation > generationInvalid ∧ generation ≤ generationLastLive

instance (generation : UInt32) : Decidable (GenerationIsLive generation) :=
  inferInstanceAs (Decidable (_ ∧ _))

def advanceGenerationWithBounds (generation lastLive retired : UInt32) : UInt32 :=
  if lastLive = generationInvalid ∨ retired ≤ lastLive ∨ retired - 1 ≠ lastLive then
    generationInvalid
  else if generation = retired then retired
  else if generation = generationInvalid ∨ generation > lastLive then generationInvalid
  else if generation = lastLive then retired
  else generation + 1

def retireOrAdvance (generation : UInt32) : UInt32 :=
  advanceGenerationWithBounds generation generationLastLive generationRetired

/-! ## Rights -/

def rightDebugWrite : UInt64 := 1
def rightPageAlloc : UInt64 := 2
def rightTransfer : UInt64 := 4
def rightMemoryUse : UInt64 := 8
def rightEndpointSend : UInt64 := 16
def rightEndpointReceive : UInt64 := 32
def rightEndpointCancel : UInt64 := 64
def rightControl : UInt64 := 128
def rightPersonalityReply : UInt64 := 256
def rightPersonalitySupervise : UInt64 := 512
def rightPersonalityCall : UInt64 := 1024
def rightMemoryViewRead : UInt64 := 2048
def rightMemoryViewWrite : UInt64 := 4096
def rightMemoryViewCommit : UInt64 := 8192
def rightDelegatedResourceUse : UInt64 := 16384
def rightKernelWorldStatus : UInt64 := 32768
def rightKernelWorldResetRequest : UInt64 := 65536

def objectDebug : UInt64 := 1
def objectPagePool : UInt64 := 2
def objectMemory : UInt64 := 3
def objectEndpoint : UInt64 := 4
def objectControl : UInt64 := 5
def objectPersonalityReply : UInt64 := 6
def objectPersonalitySupervision : UInt64 := 7
def objectPersonalityCall : UInt64 := 8
def objectPersonalityMemoryView : UInt64 := 9
def objectDelegatedResource : UInt64 := 10
def objectKernelWorldExport : UInt64 := 11

def allowedRights (objectType : UInt64) : UInt64 :=
  if objectType = objectDebug then rightDebugWrite ||| rightTransfer
  else if objectType = objectPagePool then rightPageAlloc ||| rightTransfer
  else if objectType = objectMemory then rightMemoryUse ||| rightTransfer
  else if objectType = objectEndpoint then
    rightEndpointSend ||| rightEndpointReceive ||| rightEndpointCancel ||| rightTransfer
  else if objectType = objectControl then rightControl
  else if objectType = objectPersonalityReply then rightPersonalityReply
  else if objectType = objectPersonalitySupervision then rightPersonalitySupervise
  else if objectType = objectPersonalityCall then rightPersonalityCall
  else if objectType = objectPersonalityMemoryView then
    rightMemoryViewRead ||| rightMemoryViewWrite ||| rightMemoryViewCommit
  else if objectType = objectDelegatedResource then rightDelegatedResourceUse
  else if objectType = objectKernelWorldExport then
    rightKernelWorldStatus ||| rightKernelWorldResetRequest
  else 0

/-! ## Tables -/

inductive CspaceState where
  | empty | live | retired | draining
  deriving DecidableEq, Repr

inductive SlotState where
  | empty | live | retired | reserved | closing
  deriving DecidableEq, Repr

def CspaceState.code : CspaceState → ℕ
  | .empty => 0
  | .live => 1
  | .retired => 2
  | .draining => 3

def SlotState.code : SlotState → ℕ
  | .empty => 0
  | .live => 1
  | .retired => 2
  | .reserved => 3
  | .closing => 4

structure Metadata where
  (objectId objectType rights : UInt64)
  deriving DecidableEq, Repr

def Metadata.none : Metadata := ⟨0, 0, 0⟩

@[ext]
structure Slot where
  metadata : Metadata
  generation : UInt32
  occupied : SlotState
  deriving DecidableEq, Repr

@[ext]
structure Cspace where
  state : CspaceState
  (generation childRefs leaseRefs : UInt32)
  slots : Fin capabilitiesPerCspace → Slot

structure Capabilities where
  cspaces : Fin maxCspaces → Cspace
  (initialized selfTestRan : Bool)

def cspaceSlotMasks (cspaceState : ℕ) : ℕ :=
  [0x05, 0x1f, 0x04, 0x17].getD cspaceState 0

def cspaceSlotStateAllowed (cspaceState slotState : ℕ) : Bool :=
  if cspaceState > 3 ∨ slotState > 4 then false
  else (cspaceSlotMasks cspaceState).testBit slotState

def cspaceHeaderValid (state : ℕ) (generation childRefs : UInt32) : Bool :=
  if state = 0 then GenerationIsLive generation ∧ childRefs = 0
  else if state = 1 ∨ state = 3 then GenerationIsLive generation
  else if state = 2 then generation = generationRetired ∧ childRefs = 0
  else false

namespace Slot

def Allocatable (slot : Slot) : Prop :=
  slot.occupied = .empty ∧ GenerationIsLive slot.generation ∧ slot.metadata = .none

instance (slot : Slot) : Decidable slot.Allocatable := inferInstanceAs (Decidable (_ ∧ _))

def clearAndAdvance (slot : Slot) : Option Slot :=
  let next := retireOrAdvance slot.generation
  if next = generationInvalid then none
  else some ⟨.none, next, if next = generationRetired then .retired else .empty⟩

def ShapeValid (slot : Slot) : Prop :=
  match slot.occupied with
  | .empty | .reserved => GenerationIsLive slot.generation ∧ slot.metadata = .none
  | .live | .closing =>
    GenerationIsLive slot.generation ∧ slot.metadata.objectId ≠ 0 ∧
      allowedRights slot.metadata.objectType ≠ 0 ∧ slot.metadata.rights ≠ 0 ∧
      slot.metadata.rights &&& allowedRights slot.metadata.objectType = slot.metadata.rights
  | .retired => slot.generation = generationRetired ∧ slot.metadata = .none

instance (slot : Slot) : Decidable slot.ShapeValid := by
  unfold ShapeValid
  split <;> infer_instance

/-- A reservation or an open close, which counts as a child of the CSpace. -/
def transaction (slot : Slot) : ℕ :=
  if slot.occupied = .reserved ∨ slot.occupied = .closing then 1 else 0

end Slot

namespace Cspace

def transactionRefs (c : Cspace) : ℕ := ∑ s, (c.slots s).transaction

def InvariantsHold (c : Cspace) : Prop :=
  cspaceHeaderValid c.state.code c.generation c.childRefs ∧
    (∀ s, cspaceSlotStateAllowed c.state.code (c.slots s).occupied.code ∧
      (c.slots s).ShapeValid) ∧
    c.leaseRefs ≤ c.childRefs ∧ (c.childRefs - c.leaseRefs).toNat = c.transactionRefs

instance (c : Cspace) : Decidable c.InvariantsHold := inferInstanceAs (Decidable (_ ∧ _))

def setSlot (c : Cspace) (s : Fin capabilitiesPerCspace) (slot : Slot) : Cspace :=
  { c with slots := Function.update c.slots s slot }

def firstEmpty (c : Cspace) : Option (Fin capabilitiesPerCspace) :=
  (List.finRange capabilitiesPerCspace).find? fun s => (c.slots s).occupied = .empty

def liveSlots (c : Cspace) : ℕ := ∑ s, if (c.slots s).occupied = .live then 1 else 0

def destroySlots (retires : Bool) : List (Fin capabilitiesPerCspace) → Cspace → Bool × Cspace
  | [], c => (true, c)
  | s :: rest, c =>
    if retires then destroySlots retires rest (c.setSlot s ⟨.none, generationRetired, .retired⟩)
    else match (c.slots s).clearAndAdvance with
      | none => (false, c)
      | some slot => destroySlots retires rest (c.setSlot s slot)

end Cspace

namespace Capabilities

def InvariantsHold (t : Capabilities) : Prop :=
  t.initialized ∧ ∀ i, (t.cspaces i).InvariantsHold

instance (t : Capabilities) : Decidable t.InvariantsHold := inferInstanceAs (Decidable (_ ∧ _))

variable (t : Capabilities)

def setCspace (i : Fin maxCspaces) (c : Cspace) : Capabilities :=
  { t with cspaces := Function.update t.cspaces i c }

/-! ## Handles -/

def makeCspaceHandle (i : Fin maxCspaces) : UInt64 :=
  if GenerationIsLive (t.cspaces i).generation then
    make cspaceHandleTag (t.cspaces i).generation i
  else 0

def checkedState (admits : CspaceState → Bool) (t : Capabilities) (handle : UInt64) :
    Option (Fin maxCspaces) :=
  if t.initialized ∧ tagOf handle = cspaceHandleTag then
    if h : index handle < maxCspaces then
      if admits (t.cspaces ⟨index handle, h⟩).state ∧
          GenerationIsLive (t.cspaces ⟨index handle, h⟩).generation ∧
          (t.cspaces ⟨index handle, h⟩).generation = generation handle then
        some ⟨index handle, h⟩
      else none
    else none
  else none

def checkedCspace : Capabilities → UInt64 → Option (Fin maxCspaces) :=
  checkedState fun state => state = .live

def checkedCspaceOwner : Capabilities → UInt64 → Option (Fin maxCspaces) :=
  checkedState fun state => state = .live || state = .draining

def checkedDrainingCspace : Capabilities → UInt64 → Option (Fin maxCspaces) :=
  checkedState fun state => state = .draining

def cspaceHandleForSlot (slot : ℕ) : UInt64 :=
  if h : slot < maxCspaces then
    if t.initialized ∧ (t.cspaces ⟨slot, h⟩).state = .live ∧
        GenerationIsLive (t.cspaces ⟨slot, h⟩).generation then
      t.makeCspaceHandle ⟨slot, h⟩
    else 0
  else 0

variable (cspace : Option (Fin maxCspaces))

def lookup (state : SlotState) (handle : UInt64) :
    Option (Fin maxCspaces × Fin capabilitiesPerCspace) :=
  match cspace with
  | none => none
  | some i =>
    if h : TaggedHandle.slot handle < capabilitiesPerCspace then
      let slot := (t.cspaces i).slots ⟨TaggedHandle.slot handle, h⟩
      if slot.occupied = state ∧ GenerationIsLive slot.generation ∧
          slot.generation = generation handle then
        some (i, ⟨TaggedHandle.slot handle, h⟩)
      else none
    else none

def lookupReserved (reservation : UInt64) : Option (Fin maxCspaces × Fin capabilitiesPerCspace) :=
  match cspace with
  | none => none
  | some i =>
    if tagOf reservation = reservationHandleTag then
      if h : index reservation < capabilitiesPerCspace then
        let slot := (t.cspaces i).slots ⟨index reservation, h⟩
        if slot.occupied = .reserved ∧ GenerationIsLive slot.generation ∧
            slot.generation = generation reservation then
          some (i, ⟨index reservation, h⟩)
        else none
      else none
    else none

def slotAt (i : Fin maxCspaces) (s : Fin capabilitiesPerCspace) : Slot :=
  (t.cspaces i).slots s

/-! ## CSpaces -/

def createCspace (slot : ℕ) : UInt64 × Capabilities :=
  if h : slot < maxCspaces then
    let c := t.cspaces ⟨slot, h⟩
    if t.initialized ∧ c.state = .empty ∧ GenerationIsLive c.generation ∧ c.childRefs = 0 ∧
        c.leaseRefs = 0 ∧ t.InvariantsHold then
      (t.makeCspaceHandle ⟨slot, h⟩, t.setCspace ⟨slot, h⟩ { c with state := .live })
    else (0, t)
  else (0, t)

def retainCspace (handle : UInt64) : UInt64 × Capabilities :=
  match t.checkedCspace handle with
  | none => (0, t)
  | some i =>
    let c := t.cspaces i
    if c.childRefs = 0xffffffff ∨ c.leaseRefs = 0xffffffff then (0, t)
    else (1, t.setCspace i
      { c with childRefs := c.childRefs + 1, leaseRefs := c.leaseRefs + 1 })

def releaseCspace (handle : UInt64) : UInt64 × Capabilities :=
  match t.checkedCspaceOwner handle with
  | none => (0, t)
  | some i =>
    let c := t.cspaces i
    if c.childRefs = 0 ∨ c.leaseRefs = 0 then (0, t)
    else (1, t.setCspace i
      { c with childRefs := c.childRefs - 1, leaseRefs := c.leaseRefs - 1 })

def cspaceChildRefs (handle : UInt64) : UInt32 :=
  match t.checkedCspaceOwner handle with
  | none => 0
  | some i => (t.cspaces i).childRefs

def beginCspaceDrain (handle : UInt64) : UInt64 × Capabilities :=
  match t.checkedCspace handle with
  | none => (0, t)
  | some i =>
    let c := t.cspaces i
    if ¬t.InvariantsHold ∨ ∃ s, (c.slots s).occupied = .reserved then (0, t)
    else (1, t.setCspace i { c with state := .draining })

def destroyCspace (handle : UInt64) : UInt64 × Capabilities :=
  match t.checkedCspaceOwner handle with
  | none => (0, t)
  | some i =>
    let c := t.cspaces i
    if c.childRefs ≠ 0 ∨ c.liveSlots ≠ 0 ∨ ¬t.InvariantsHold then (0, t)
    else
      let next := retireOrAdvance c.generation
      if next = generationInvalid then (0, t)
      else
        let retires := next = generationRetired
        let loop := Cspace.destroySlots retires (List.finRange capabilitiesPerCspace)
          { c with state := .draining }
        if loop.1 then
          (1, t.setCspace i ⟨if retires then .retired else .empty, next, 0, 0, loop.2.slots⟩)
        else (0, t.setCspace i loop.2)

/-! ## Reservations -/

variable (cspaceHandle : UInt64)

def reserveFirstFreeForOwner : UInt64 × Capabilities :=
  match t.checkedCspace cspaceHandle with
  | none => (0, t)
  | some i =>
    let c := t.cspaces i
    if c.childRefs = 0xffffffff then (0, t)
    else match c.firstEmpty with
      | none => (0, t)
      | some s =>
        if (c.slots s).Allocatable then
          (make reservationHandleTag (c.slots s).generation s,
            t.setCspace i { c.setSlot s { c.slots s with occupied := .reserved } with
              childRefs := c.childRefs + 1 })
        else (0, t)

def publishReservedForOwner (cspaceHandle reservation : UInt64) (metadata : Metadata) :
    UInt64 × Capabilities :=
  match t.lookupReserved (t.checkedCspace cspaceHandle) reservation with
  | none => (0, t)
  | some (i, s) =>
    let c := t.cspaces i
    let permitted := allowedRights metadata.objectType
    if metadata.objectId = 0 ∨ metadata.objectType = 0 ∨ metadata.rights = 0 ∨ permitted = 0 ∨
        metadata.rights &&& permitted ≠ metadata.rights ∨ c.childRefs ≤ c.leaseRefs then (0, t)
    else
      (make 0 (c.slots s).generation s,
        t.setCspace i { c.setSlot s ⟨metadata, (c.slots s).generation, .live⟩ with
          childRefs := c.childRefs - 1 })

def abortReservedForOwner (cspaceHandle reservation : UInt64) : UInt64 × Capabilities :=
  match t.lookupReserved (t.checkedCspace cspaceHandle) reservation with
  | none => (0, t)
  | some (i, s) =>
    let c := t.cspaces i
    if c.childRefs ≤ c.leaseRefs then (0, t)
    else match (c.slots s).clearAndAdvance with
      | none => (0, t)
      | some slot => (1, t.setCspace i { c.setSlot s slot with childRefs := c.childRefs - 1 })

def reservationIsLive (cspaceHandle reservation : UInt64) : Bool :=
  (t.lookupReserved (t.checkedCspace cspaceHandle) reservation).isSome

/-! ## Installing -/

def installForOwner (capabilitySlot : ℕ) (metadata : Metadata) : UInt64 × Capabilities :=
  match t.checkedCspace cspaceHandle with
  | none => (0, t)
  | some i =>
    if h : capabilitySlot < capabilitiesPerCspace then
      let c := t.cspaces i
      let s : Fin capabilitiesPerCspace := ⟨capabilitySlot, h⟩
      let permitted := allowedRights metadata.objectType
      if metadata.objectId = 0 ∨ metadata.objectType = 0 ∨ metadata.rights = 0 ∨ permitted = 0 ∨
          metadata.rights &&& permitted ≠ metadata.rights ∨ ¬(c.slots s).Allocatable then (0, t)
      else
        (make 0 (c.slots s).generation s,
          t.setCspace i (c.setSlot s ⟨metadata, (c.slots s).generation, .live⟩))
    else (0, t)

def installFirstFreeForOwner (metadata : Metadata) : UInt64 × Capabilities :=
  match t.checkedCspace cspaceHandle with
  | none => (0, t)
  | some i =>
    match (t.cspaces i).firstEmpty with
    | none => (0, t)
    | some s =>
      if ((t.cspaces i).slots s).Allocatable then t.installForOwner cspaceHandle s metadata
      else (0, t)

def installInCspace (cspaceId capabilitySlot : ℕ) (metadata : Metadata) : UInt64 × Capabilities :=
  t.installForOwner (t.cspaceHandleForSlot cspaceId) capabilitySlot metadata

def installFirstFreeInCspace (cspaceId : ℕ) (metadata : Metadata) : UInt64 × Capabilities :=
  t.installFirstFreeForOwner (t.cspaceHandleForSlot cspaceId) metadata

/-! ## Validating -/

def validate (handle expectedObjectType requiredRights : UInt64) : UInt64 :=
  match t.lookup cspace .live handle with
  | none => 0
  | some (i, s) =>
    let metadata := (t.slotAt i s).metadata
    if metadata.objectType ≠ expectedObjectType then 0
    else if metadata.rights &&& requiredRights ≠ requiredRights then 0
    else metadata.objectId

def validateForOwner : UInt64 → UInt64 → UInt64 → UInt64 :=
  t.validate (t.checkedCspace cspaceHandle)

def validateDuringDrain : UInt64 → UInt64 → UInt64 → UInt64 :=
  t.validate (t.checkedDrainingCspace cspaceHandle)

/-! ## Closing -/

/-- The three outputs are addresses, which must not be null. What they receive is returned. -/
def beginCloseForOwner (cspaceHandle handle : UInt64) (objectId objectType rights : UInt64) :
    (UInt64 × Metadata) × Capabilities :=
  if objectId = 0 ∨ objectType = 0 ∨ rights = 0 then ((0, .none), t)
  else match t.lookup (t.checkedCspace cspaceHandle) .live handle with
    | none => ((0, .none), t)
    | some (i, s) =>
      let c := t.cspaces i
      if c.childRefs = 0xffffffff then ((0, .none), t)
      else ((1, (c.slots s).metadata),
        t.setCspace i { c.setSlot s { c.slots s with occupied := .closing } with
          childRefs := c.childRefs + 1 })

def abortCloseForOwner (cspaceHandle handle : UInt64) : UInt64 × Capabilities :=
  match t.lookup (t.checkedCspaceOwner cspaceHandle) .closing handle with
  | none => (0, t)
  | some (i, s) =>
    let c := t.cspaces i
    if c.childRefs ≤ c.leaseRefs then (0, t)
    else (1, t.setCspace i { c.setSlot s { c.slots s with occupied := .live } with
      childRefs := c.childRefs - 1 })

def commitCloseForOwner (cspaceHandle handle : UInt64) : UInt64 × Capabilities :=
  match t.lookup (t.checkedCspaceOwner cspaceHandle) .closing handle with
  | none => (0, t)
  | some (i, s) =>
    let c := t.cspaces i
    if c.childRefs ≤ c.leaseRefs then (0, t)
    else match (c.slots s).clearAndAdvance with
      | none => (0, t)
      | some slot => (1, t.setCspace i { c.setSlot s slot with childRefs := c.childRefs - 1 })

def close (handle : UInt64) : UInt64 × Capabilities :=
  match t.lookup cspace .live handle with
  | none => (0, t)
  | some (i, s) =>
    match (t.slotAt i s).clearAndAdvance with
    | none => (0, t)
    | some slot => (1, t.setCspace i ((t.cspaces i).setSlot s slot))

def closeForOwner : UInt64 → UInt64 × Capabilities :=
  t.close (t.checkedCspace cspaceHandle)

def closeDuringDrain : UInt64 → UInt64 × Capabilities :=
  t.close (t.checkedDrainingCspace cspaceHandle)

def closeInCspace (cspaceId : ℕ) (handle : UInt64) : UInt64 × Capabilities :=
  if t.cspaceHandleForSlot cspaceId = 0 then (0, t)
  else t.closeForOwner (t.cspaceHandleForSlot cspaceId) handle

/-! ## Initialization -/

def createAll : List ℕ → Capabilities → UInt64 × Capabilities
  | [], t => (1, t)
  | slot :: rest, t =>
    if (t.createCspace slot).1 = 0 then (0, (t.createCspace slot).2)
    else createAll rest (t.createCspace slot).2

def init : UInt64 × Capabilities :=
  if t.initialized then (0, t)
  else createAll (List.range maxCspaces)
    ⟨fun _ => ⟨.empty, 1, 0, 0, fun _ => ⟨.none, 1, .empty⟩⟩, true, false⟩

end Capabilities

end Ostadix.Capability
