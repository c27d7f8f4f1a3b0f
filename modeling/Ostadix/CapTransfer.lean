import Ostadix.MemoryObject

/-! Transfer of memory capabilities: an open ticket holds a slot of the destination and a reference.
-/

namespace Ostadix.Capability.Capabilities

/-- The metadata of a live capability with the required rights; a type of zero asks for none. -/
def inspectForOwner (t : Capabilities) (cspaceHandle handle expectedObjectType
    requiredRights : UInt64) : Metadata :=
  match t.lookup (t.checkedCspace cspaceHandle) .live handle with
  | none => .none
  | some (i, s) =>
    let metadata := (t.slotAt i s).metadata
    if (expectedObjectType ≠ 0 ∧ metadata.objectType ≠ expectedObjectType) ∨
        metadata.rights &&& requiredRights ≠ requiredRights then .none
    else metadata

end Ostadix.Capability.Capabilities

namespace Ostadix.CapTransfer

open TaggedHandle Capability MemoryObject

abbrev maxTransferTickets : ℕ := 16
def ticketHandleTag : UInt64 := 0xb2000000
def memoryTransferRights : UInt64 := 12
def cancelOwnerFailure : UInt64 := 0xffffffffffffffff

inductive TicketState where
  | empty | prepared | retired
  deriving DecidableEq, Repr

/-- What a ticket holds; all zero where there is none. -/
structure Escrow where
  (source destination object rights reservation ownerProcess : UInt64)
  deriving DecidableEq, Repr

def Escrow.none : Escrow := ⟨0, 0, 0, 0, 0, 0⟩

structure Ticket where
  state : TicketState
  generation : UInt32
  escrow : Escrow
  deriving DecidableEq, Repr

structure Tickets where
  slots : Fin maxTransferTickets → Ticket
  (initialized poisoned : Bool)

/-- What the process table answers at the time of a call. -/
structure Processes where
  cspaceFor : UInt64 → UInt64
  canIssueOperations : UInt64 → Bool

def Ticket.advanced (ticket : Ticket) : Ticket :=
  if ticket.generation = 0xffffffff then ⟨.retired, ticket.generation, .none⟩
  else ⟨.empty, ticket.generation + 1, .none⟩

namespace Tickets

variable (r : Tickets)

def set (s : Fin maxTransferTickets) (ticket : Ticket) : Tickets :=
  { r with slots := Function.update r.slots s ticket }

def poison : Tickets := { r with poisoned := true }

def init : UInt64 × Tickets :=
  if r.initialized then (0, r) else (1, ⟨fun _ => ⟨.empty, 1, .none⟩, true, false⟩)

def makeHandle (s : Fin maxTransferTickets) : UInt64 :=
  make ticketHandleTag (r.slots s).generation s

def checkedTicket (handle : UInt64) : Option (Fin maxTransferTickets) :=
  if h : index handle < maxTransferTickets then
    let ticket := r.slots ⟨index handle, h⟩
    if r.initialized ∧ r.poisoned = false ∧ tagOf handle = ticketHandleTag ∧
        ticket.state = .prepared ∧ ticket.generation = generation handle then
      some ⟨index handle, h⟩
    else none
  else none

/-! ## The invariants that the code checks -/

variable (k : Store)

def PreparedSlotStorageInvariantsHold (s : Fin maxTransferTickets) : Prop :=
  let ticket := r.slots s
  let escrow := ticket.escrow
  ticket.state = .prepared ∧ ticket.generation ≠ 0 ∧ escrow.source ≠ 0 ∧
    escrow.destination ≠ 0 ∧ escrow.object ≠ 0 ∧ escrow.rights ≠ 0 ∧
    escrow.rights &&& memoryTransferRights = escrow.rights ∧ escrow.reservation ≠ 0 ∧
    escrow.ownerProcess ≠ 0 ∧ k.caps.cspaceIsLive escrow.destination = true ∧
    k.objectKind escrow.object = memoryShared ∧
    k.caps.reservationIsLive escrow.destination escrow.reservation = true ∧
    ∀ other, ¬(other ≠ s ∧ (r.slots other).state = .prepared ∧
      (r.slots other).escrow.destination = escrow.destination ∧
      (r.slots other).escrow.reservation = escrow.reservation)

instance (r : Tickets) (k : Store) (s : Fin maxTransferTickets) :
    Decidable (r.PreparedSlotStorageInvariantsHold k s) :=
  inferInstanceAs (Decidable (_ ∧ _))

def PreparedSlotInvariantsHold (p : Processes) (s : Fin maxTransferTickets) : Prop :=
  r.PreparedSlotStorageInvariantsHold k s ∧
    k.caps.cspaceIsLive (r.slots s).escrow.source = true ∧
    p.canIssueOperations (r.slots s).escrow.ownerProcess = true ∧
    p.cspaceFor (r.slots s).escrow.ownerProcess = (r.slots s).escrow.source

instance (r : Tickets) (k : Store) (p : Processes) (s : Fin maxTransferTickets) :
    Decidable (r.PreparedSlotInvariantsHold k p s) :=
  inferInstanceAs (Decidable (_ ∧ _))

def TicketValid (s : Fin maxTransferTickets) : Prop :=
  match (r.slots s).state with
  | .empty => (r.slots s).generation ≠ 0 ∧ (r.slots s).escrow = .none
  | .prepared => r.PreparedSlotStorageInvariantsHold k s
  | .retired => (r.slots s).generation = 0xffffffff ∧ (r.slots s).escrow = .none

instance (r : Tickets) (k : Store) (s : Fin maxTransferTickets) :
    Decidable (r.TicketValid k s) := by
  unfold TicketValid
  split <;> infer_instance

def RegistryStorageInvariantsHold : Prop :=
  r.initialized ∧ r.poisoned = false ∧ ∀ s, r.TicketValid k s

instance (r : Tickets) (k : Store) : Decidable (r.RegistryStorageInvariantsHold k) :=
  inferInstanceAs (Decidable (_ ∧ _))

/-- What commit, abort and cancel check of all three modules. -/
def StorageInvariantsHold : Prop :=
  k.caps.InvariantsHold ∧ k.InvariantsHold ∧ r.RegistryStorageInvariantsHold k

instance (r : Tickets) (k : Store) : Decidable (r.StorageInvariantsHold k) :=
  inferInstanceAs (Decidable (_ ∧ _))

def InvariantsHold (p : Processes) : Prop :=
  r.StorageInvariantsHold k ∧
    ∀ s, (r.slots s).state = .prepared → r.PreparedSlotInvariantsHold k p s

instance (r : Tickets) (k : Store) (p : Processes) : Decidable (r.InvariantsHold k p) :=
  inferInstanceAs (Decidable (_ ∧ _))

/-! ## Calls -/

def firstEmpty : Option (Fin maxTransferTickets) :=
  (List.finRange maxTransferTickets).find? fun s => (r.slots s).state = .empty

def prepareCopy (p : Processes) (source destination capability rights ownerProcess : UInt64) :
    UInt64 × Tickets × Store :=
  if r.initialized = false ∨ r.poisoned ∨ source = 0 ∨ destination = 0 ∨ capability = 0 ∨
      rights = 0 ∨ ownerProcess = 0 ∨ k.caps.cspaceIsLive source = false ∨
      k.caps.cspaceIsLive destination = false ∨ p.canIssueOperations ownerProcess = false ∨
      p.cspaceFor ownerProcess ≠ source ∨ ¬r.InvariantsHold k p then (0, r, k)
  else match r.firstEmpty with
    | none => (0, r, k)
    | some s =>
      let found := k.caps.inspectForOwner source capability objectMemory rightTransfer
      if (r.slots s).generation = 0 ∨ found.objectType ≠ objectMemory ∨ found.objectId = 0 ∨
          k.objectKind found.objectId ≠ memoryShared ∨ rights &&& found.rights ≠ rights ∨
          rights &&& memoryTransferRights ≠ rights then (0, r, k)
      else
        let reserved := k.caps.reserveFirstFreeForOwner destination
        if reserved.1 = 0 then (0, r, { k with caps := reserved.2 })
        else match ({ k with caps := reserved.2 } : Store).retainObject found.objectId with
          | (retained, k) =>
            if retained = 0 then
              let undone := k.caps.abortReservedForOwner destination reserved.1
              (0, if undone.1 = 0 then r.poison else r, { k with caps := undone.2 })
            else
              (r.makeHandle s, r.set s ⟨.prepared, (r.slots s).generation,
                ⟨source, destination, found.objectId, rights, reserved.1, ownerProcess⟩⟩, k)

/-- The second result is the capability in the destination. -/
def commitCopy (p : Processes) (ticket : UInt64) : (UInt64 × UInt64) × Tickets × Store :=
  match r.checkedTicket ticket with
  | none => ((0, 0), r, k)
  | some s =>
    if ¬r.StorageInvariantsHold k then ((0, 0), r.poison, k)
    else if ¬r.PreparedSlotInvariantsHold k p s then ((0, 0), r, k)
    else
      let escrow := (r.slots s).escrow
      let published := k.caps.publishReservedForOwner escrow.destination escrow.reservation
        ⟨escrow.object, objectMemory, escrow.rights⟩
      let k : Store := { k with caps := published.2 }
      if published.1 = 0 then ((0, 0), r, k)
      else ((1, published.1), r.set s (Ticket.advanced (r.slots s)), k)

def commitCopyForOwner (p : Processes) (ticket ownerProcess expectedDestination : UInt64) :
    (UInt64 × UInt64) × Tickets × Store :=
  match r.checkedTicket ticket with
  | none => ((0, 0), r, k)
  | some s =>
    if ownerProcess = 0 ∨ expectedDestination = 0 ∨
        (r.slots s).escrow.ownerProcess ≠ ownerProcess ∨
        (r.slots s).escrow.destination ≠ expectedDestination then ((0, 0), r, k)
    else r.commitCopy k p ticket

def abortCopy (ticket : UInt64) : UInt64 × Tickets × Store :=
  match r.checkedTicket ticket with
  | none => (0, r, k)
  | some s =>
    if ¬r.StorageInvariantsHold k ∨ ¬r.PreparedSlotStorageInvariantsHold k s then
      (0, r.poison, k)
    else
      let escrow := (r.slots s).escrow
      let withdrawn := k.caps.abortReservedForOwner escrow.destination escrow.reservation
      let k : Store := { k with caps := withdrawn.2 }
      if withdrawn.1 = 0 then (0, r.poison, k)
      else match k.releaseObject escrow.object with
        | (released, k) =>
          if released = 0 then (0, r.poison, k)
          else (1, r.set s (Ticket.advanced (r.slots s)), k)

def abortCopyForOwner (p : Processes) (ticket ownerProcess : UInt64) : UInt64 × Tickets × Store :=
  match r.checkedTicket ticket with
  | none => (0, r, k)
  | some s =>
    if ownerProcess = 0 ∨ (r.slots s).escrow.ownerProcess ≠ ownerProcess ∨
        ¬r.PreparedSlotInvariantsHold k p s then (0, r, k)
    else r.abortCopy k ticket

def copyAtomic (p : Processes) (source destination capability rights ownerProcess : UInt64) :
    (UInt64 × UInt64) × Tickets × Store :=
  match r.prepareCopy k p source destination capability rights ownerProcess with
  | (ticket, r, k) =>
    if ticket = 0 then ((0, 0), r, k)
    else match r.commitCopy k p ticket with
      | ((committed, published), r, k) =>
        if committed = 0 then
          if r.poisoned then ((0, 0), r, k)
          else match r.abortCopy k ticket with
            | (aborted, r, k) => ((0, 0), if aborted = 0 then r.poison else r, k)
        else ((1, published), r, k)

def cancelLoop (ownerProcess : UInt64) :
    List (Fin maxTransferTickets) → UInt64 → Tickets → Store → UInt64 × Tickets × Store
  | [], cancelled, r, k => (cancelled, r, k)
  | s :: rest, cancelled, r, k =>
    if (r.slots s).state = .prepared ∧ (r.slots s).escrow.ownerProcess = ownerProcess then
      match r.abortCopy k (r.makeHandle s) with
      | (aborted, r, k) =>
        if aborted = 0 then (cancelOwnerFailure, r, k)
        else cancelLoop ownerProcess rest (cancelled + 1) r k
    else cancelLoop ownerProcess rest cancelled r k

def cancelOwner (ownerProcess : UInt64) : UInt64 × Tickets × Store :=
  if r.initialized = false ∨ r.poisoned ∨ ownerProcess = 0 ∨ ¬r.StorageInvariantsHold k then
    (cancelOwnerFailure, r, k)
  else if ∃ s, (r.slots s).state = .prepared ∧ (r.slots s).escrow.ownerProcess = ownerProcess ∧
      ¬r.PreparedSlotStorageInvariantsHold k s then (cancelOwnerFailure, r.poison, k)
  else cancelLoop ownerProcess (List.finRange maxTransferTickets) 0 r k

end Tickets

end Ostadix.CapTransfer
