import Ostadix.MemoryConservation

/-! Histories of the calls that move references to memory objects. -/

namespace Ostadix.MemoryObject

open TaggedHandle Capability PageFrames CapTransfer MemoryMapping Store Finset Capabilities

/-! ## Mappings -/

def mappingWeight (handle : UInt64) (mapping : Mapping) : ℕ :=
  if mapping.state = .live ∧ mapping.extent.object = handle then 1 else 0

def mappingRefs (m : Mappings) (handle : UInt64) : ℕ := ∑ s, mappingWeight handle (m.slots s)

lemma mappingRefs_set (m : Mappings) (s : Fin maxMappings) (mapping : Mapping) (x : UInt64) :
    mappingRefs (m.set s mapping) x + mappingWeight x (m.slots s) =
      mappingRefs m x + mappingWeight x mapping :=
  sum_update (mappingWeight x) m.slots s mapping

variable {mapping : Mapping} {m : Mappings} {k : Store} {rest : UInt64 → ℕ} {ticket : Ticket}
  {r : Tickets} {s : Fin maxTransferTickets}

lemma mappingWeight_of_not_live (h : mapping.state ≠ .live) (x : UInt64) :
    mappingWeight x mapping = 0 :=
  if_neg fun hlive => h hlive.1

lemma mappingWeight_of_live (h : mapping.state = .live) (x : UInt64) :
    mappingWeight x mapping = unit mapping.extent.object x := by
  unfold mappingWeight unit
  simp only [h, true_and, eq_comm]

lemma createOwned_balanced (h : k.Balanced fun x => mappingRefs m x + rest x)
    (addressSpace object kind virtualAddress length flags : UInt64) :
    let outcome := m.createOwned k addressSpace object kind virtualAddress length flags
    (outcome.2.2.Balanced fun x => mappingRefs outcome.2.1 x + rest x) ∧
      Progress k outcome.2.2 := by
  unfold Mappings.createOwned
  split
  · exact ⟨h, (Quiet.refl k).progress⟩
  split
  · exact ⟨h, (Quiet.refl k).progress⟩
  rename_i s hs
  have hempty : (m.slots s).state ≠ .live := by
    have hfound := List.find?_some hs
    have hstate : (m.slots s).state = .empty := by simpa using hfound
    rw [hstate]
    exact nofun
  have hretain := h.retainForMapping object kind
  generalize k.retainForMapping object kind = outcome at hretain ⊢
  rcases outcome with ⟨⟨retained, physical⟩, k₁⟩
  dsimp only at hretain ⊢
  rcases hretain with ⟨hzero, rfl⟩ | ⟨hne, hquiet, hchecked, hbalanced⟩
  · rw [if_pos hzero]
    exact ⟨h, (Quiet.refl k₁).progress⟩
  rw [if_neg hne]
  split
  · have hheld : mappingRefs m object + rest object + unit object object ≠ 0 := by
      simp [unit]
    rcases hbalanced.releaseMapping hheld (fun x => rfl) with
      ⟨-, -, hnone⟩ | ⟨-, hsettles, hback⟩
    · exact absurd hnone hchecked
    · exact ⟨hback, k₁, hquiet, hsettles⟩
  · refine ⟨hbalanced.congr fun x => ?_, hquiet.progress⟩
    have hset := mappingRefs_set m s ⟨.live, (m.slots s).generation,
      ⟨addressSpace, object, kind, virtualAddress, length, flags, physical⟩⟩ x
    rw [mappingWeight_of_not_live hempty, mappingWeight_of_live rfl] at hset
    dsimp only at hset ⊢
    omega

lemma advanced_mapping_state (mapping : Mapping) :
    (Mappings.Mapping.advanced mapping).state ≠ .live := by
  unfold Mappings.Mapping.advanced
  split <;> exact nofun

lemma destroyForOwner_balanced (h : k.Balanced fun x => mappingRefs m x + rest x)
    (handle addressSpace object : UInt64) :
    let outcome := m.destroyForOwner k handle addressSpace object
    (outcome.2.2.Balanced fun x => mappingRefs outcome.2.1 x + rest x) ∧
      Progress k outcome.2.2 := by
  unfold Mappings.destroyForOwner
  split
  · exact ⟨h, (Quiet.refl k).progress⟩
  rename_i s hs
  have hlive : (m.slots s).state = .live := by
    unfold Mappings.checkedSlot at hs
    split at hs
    · dsimp only at hs
      split at hs
      · next hchecks =>
        cases hs
        exact hchecks.2.1
      · cases hs
    · cases hs
  dsimp only
  split
  · exact ⟨h, (Quiet.refl k).progress⟩
  rename_i hchecks
  push Not at hchecks
  obtain ⟨-, hobject, -⟩ := hchecks
  have hset := mappingRefs_set m s (Mappings.Mapping.advanced (m.slots s))
  have hweight : ∀ x, mappingRefs (m.set s (Mappings.Mapping.advanced (m.slots s))) x +
      unit object x = mappingRefs m x := by
    intro x
    have hx := hset x
    rw [mappingWeight_of_live hlive, hobject,
      mappingWeight_of_not_live (advanced_mapping_state _)] at hx
    omega
  have hheld : mappingRefs m object + rest object ≠ 0 := by
    have hx := hweight object
    have hone : unit object object = 1 := if_pos rfl
    omega
  have hrest : ∀ x, mappingRefs (m.set s (Mappings.Mapping.advanced (m.slots s))) x + rest x +
      unit object x = mappingRefs m x + rest x := by
    intro x
    have hx := hweight x
    omega
  have hrelease := @Balanced.releaseMapping object
    (fun x => mappingRefs (m.set s (Mappings.Mapping.advanced (m.slots s))) x + rest x)
    (m.slots s).extent.kind k _ h hheld hrest
  generalize k.releaseMapping object (m.slots s).extent.kind = outcome at hrelease ⊢
  rcases outcome with ⟨released, k₁⟩
  rcases hrelease with ⟨hzero, rfl, -⟩ | ⟨hne, hsettles, hback⟩
  · rw [if_pos hzero]
    exact ⟨h, (Quiet.refl k₁).progress⟩
  · rw [if_neg hne]
    exact ⟨hback, hsettles.progress⟩

/-! ## Tickets -/

def ticketWeight (handle : UInt64) (ticket : Ticket) : ℕ :=
  if ticket.state = .prepared ∧ ticket.escrow.object = handle then 1 else 0

def ticketRefs (r : Tickets) (handle : UInt64) : ℕ := ∑ s, ticketWeight handle (r.slots s)

lemma ticketRefs_set (r : Tickets) (s : Fin maxTransferTickets) (ticket : Ticket) (x : UInt64) :
    ticketRefs (r.set s ticket) x + ticketWeight x (r.slots s) =
      ticketRefs r x + ticketWeight x ticket :=
  sum_update (ticketWeight x) r.slots s ticket

lemma ticketWeight_of_not_prepared (h : ticket.state ≠ .prepared) (x : UInt64) :
    ticketWeight x ticket = 0 :=
  if_neg fun hprepared => h hprepared.1

lemma ticketWeight_of_prepared (h : ticket.state = .prepared) (x : UInt64) :
    ticketWeight x ticket = unit ticket.escrow.object x := by
  unfold ticketWeight unit
  simp only [h, true_and, eq_comm]

lemma advanced_ticket_state (ticket : Ticket) : (Ticket.advanced ticket).state ≠ .prepared := by
  unfold Ticket.advanced
  split <;> exact nofun

lemma prepared_of_checkedTicket {handle : UInt64} (h : r.checkedTicket handle = some s) :
    (r.slots s).state = .prepared := by
  unfold Tickets.checkedTicket at h
  split at h
  · dsimp only at h
    split at h
    · next hchecks =>
      cases h
      exact hchecks.2.2.2.1
    · cases h
  · cases h

/-- A ticket that is given up gives back one reference. -/
lemma ticketRefs_advanced (h : (r.slots s).state = .prepared) (x : UInt64) :
    ticketRefs (r.set s (Ticket.advanced (r.slots s))) x + unit (r.slots s).escrow.object x =
      ticketRefs r x := by
  have hset := ticketRefs_set r s (Ticket.advanced (r.slots s)) x
  rw [ticketWeight_of_prepared h, ticketWeight_of_not_prepared (advanced_ticket_state _)] at hset
  omega

/-- The references of the tickets and of the rest, beside those of the capabilities. -/
def TicketsBalanced (r : Tickets) (k : Store) (rest : UInt64 → ℕ) : Prop :=
  k.Balanced fun x => ticketRefs r x + rest x

section TicketCalls

variable {r : Tickets} {k : Store} {rest : UInt64 → ℕ}

section

variable (h : TicketsBalanced r k rest)

include h

lemma prepareCopy_balanced (p : Processes)
    (source destination capability rights ownerProcess : UInt64) :
    let outcome := r.prepareCopy k p source destination capability rights ownerProcess
    TicketsBalanced outcome.2.1 outcome.2.2 rest ∧ Quiet k outcome.2.2 := by
  unfold Tickets.prepareCopy
  split
  · exact ⟨h, Quiet.refl k⟩
  split
  · exact ⟨h, Quiet.refl k⟩
  rename_i s hs
  have hempty : (r.slots s).state ≠ .prepared := by
    have hfound := List.find?_some hs
    have hstate : (r.slots s).state = .empty := by simpa using hfound
    rw [hstate]
    exact nofun
  dsimp only
  generalize k.caps.inspectForOwner source capability objectMemory rightTransfer = found
  split
  · exact ⟨h, Quiet.refl k⟩
  obtain ⟨metadata, ⟨hzero, hsame⟩ | ⟨hne, hstep⟩⟩ :=
    reserveFirstFreeForOwner_slot h.caps destination
  · rw [if_pos hzero, hsame]
    exact ⟨h, Quiet.refl k⟩
  rw [if_neg hne]
  generalize k.caps.reserveFirstFreeForOwner destination = reserved at hne hstep ⊢
  have hreserved : TicketsBalanced r { k with caps := reserved.2 } rest :=
    Balanced.setCaps h hstep fun x => rfl
  have hretain := Balanced.retainObject hreserved found.objectId
  have hbefore : Quiet k { k with caps := reserved.2 } := quiet_of_objects rfl
  generalize ({ k with caps := reserved.2 } : Store).retainObject found.objectId = outcome
    at hretain ⊢
  rcases outcome with ⟨retained, k₁⟩
  rcases hretain with ⟨hzero, rfl⟩ | ⟨hretained, hquiet, hbalanced⟩
  · rw [if_pos hzero]
    rcases abortReservedForOwner_slot hreserved.caps destination reserved.1 with
      ⟨hrefused, hsame⟩ | ⟨hwithdrawn, hback⟩
    · rw [if_pos hrefused, hsame]
      exact ⟨hreserved, hbefore⟩
    · rw [if_neg hwithdrawn]
      exact ⟨Balanced.setCaps hreserved hback fun x => rfl, quiet_of_objects rfl⟩
  · rw [if_neg hretained]
    refine ⟨hbalanced.congr fun x => ?_, hbefore.trans hquiet⟩
    have hset := ticketRefs_set r s ⟨.prepared, (r.slots s).generation,
      ⟨source, destination, found.objectId, rights, reserved.1, ownerProcess⟩⟩ x
    rw [ticketWeight_of_not_prepared hempty, ticketWeight_of_prepared rfl] at hset
    dsimp only at hset ⊢
    omega

lemma commitCopy_balanced (p : Processes) (ticket : UInt64) :
    let outcome := r.commitCopy k p ticket
    TicketsBalanced outcome.2.1 outcome.2.2 rest ∧ Settles k outcome.2.2 := by
  unfold Tickets.commitCopy
  split
  · exact ⟨h, Settles.refl k⟩
  rename_i s hs
  have hprepared := prepared_of_checkedTicket hs
  split
  · exact ⟨h, Settles.refl k⟩
  split
  · exact ⟨h, Settles.refl k⟩
  rcases slotCall_issued h.caps (publishReservedForOwner_outcome (r.slots s).escrow.destination
    (r.slots s).escrow.reservation
    ⟨(r.slots s).escrow.object, objectMemory, (r.slots s).escrow.rights⟩) with
    ⟨hzero, hsame⟩ | ⟨hne, hstep⟩
  · rw [if_pos hzero, hsame]
    exact ⟨h, Settles.refl k⟩
  rw [if_neg hne]
  refine ⟨Balanced.setCaps h hstep fun x => ?_, settles_setCaps _⟩
  have hticket := ticketRefs_advanced hprepared x
  rw [names_memory, names_none]
  dsimp only
  omega

lemma abortCopy_balanced (ticket : UInt64) :
    let outcome := r.abortCopy k ticket
    TicketsBalanced outcome.2.1 outcome.2.2 rest ∧ Settles k outcome.2.2 := by
  unfold Tickets.abortCopy
  split
  · exact ⟨h, Settles.refl k⟩
  rename_i s hs
  have hprepared := prepared_of_checkedTicket hs
  split
  · exact ⟨h, Settles.refl k⟩
  rcases abortReservedForOwner_slot h.caps (r.slots s).escrow.destination
    (r.slots s).escrow.reservation with ⟨hzero, hsame⟩ | ⟨hne, hstep⟩
  · rw [if_pos hzero, hsame]
    exact ⟨h, Settles.refl k⟩
  rw [if_neg hne]
  have hwithdrawn : TicketsBalanced r { k with caps := (k.caps.abortReservedForOwner
      (r.slots s).escrow.destination (r.slots s).escrow.reservation).2 } rest :=
    Balanced.setCaps h hstep fun x => rfl
  have hticket := ticketRefs_advanced hprepared
  have hheld : ticketRefs r (r.slots s).escrow.object +
      rest (r.slots s).escrow.object ≠ 0 := by
    have hx := hticket (r.slots s).escrow.object
    have hone : unit (r.slots s).escrow.object (r.slots s).escrow.object = 1 := if_pos rfl
    omega
  have hrest : ∀ x, ticketRefs (r.set s (Ticket.advanced (r.slots s))) x + rest x +
      unit (r.slots s).escrow.object x = ticketRefs r x + rest x := by
    intro x
    have hx := hticket x
    omega
  obtain ⟨hone, hback, hsettles⟩ := Balanced.releaseObject hwithdrawn hheld hrest
  have hall := (settles_setCaps _).trans hsettles
  generalize ({ k with caps := (k.caps.abortReservedForOwner (r.slots s).escrow.destination
    (r.slots s).escrow.reservation).2 } : Store).releaseObject (r.slots s).escrow.object =
    outcome at hone hback hall ⊢
  rcases outcome with ⟨released, k₁⟩
  dsimp only at hone hback hall ⊢
  rw [if_neg (by rw [hone]; decide)]
  exact ⟨hback, hall⟩

lemma copyAtomic_balanced (p : Processes)
    (source destination capability rights ownerProcess : UInt64) :
    let outcome := r.copyAtomic k p source destination capability rights ownerProcess
    TicketsBalanced outcome.2.1 outcome.2.2 rest ∧ Progress k outcome.2.2 := by
  unfold Tickets.copyAtomic
  obtain ⟨hprepared, hquiet⟩ :=
    prepareCopy_balanced h p source destination capability rights ownerProcess
  generalize r.prepareCopy k p source destination capability rights ownerProcess = prepared
    at hprepared hquiet ⊢
  rcases prepared with ⟨ticket, r₁, k₁⟩
  dsimp only at hprepared hquiet ⊢
  split
  · exact ⟨hprepared, hquiet.progress⟩
  obtain ⟨hcommitted, hsettles⟩ := commitCopy_balanced hprepared p ticket
  generalize r₁.commitCopy k₁ p ticket = committed at hcommitted hsettles ⊢
  rcases committed with ⟨⟨result, published⟩, r₂, k₂⟩
  split
  · split
    · exact ⟨hcommitted, k₁, hquiet, hsettles⟩
    obtain ⟨haborted, hsettles'⟩ := abortCopy_balanced hcommitted ticket
    generalize r₂.abortCopy k₂ ticket = aborted at haborted hsettles' ⊢
    rcases aborted with ⟨result', r₃, k₃⟩
    refine ⟨?_, k₁, hquiet, hsettles.trans hsettles'⟩
    split
    · exact haborted
    · exact haborted
  · exact ⟨hcommitted, k₁, hquiet, hsettles⟩

end

end TicketCalls

lemma cancelLoop_balanced {rest : UInt64 → ℕ} (ownerProcess : UInt64) :
    ∀ (l : List (Fin maxTransferTickets)) (cancelled : UInt64) {r : Tickets} {k : Store},
      TicketsBalanced r k rest →
      TicketsBalanced (Tickets.cancelLoop ownerProcess l cancelled r k).2.1
        (Tickets.cancelLoop ownerProcess l cancelled r k).2.2 rest ∧
      Settles k (Tickets.cancelLoop ownerProcess l cancelled r k).2.2
  | [], _, _, k, h => ⟨h, Settles.refl k⟩
  | s :: l, cancelled, r, k, h => by
    rw [Tickets.cancelLoop]
    split
    · obtain ⟨haborted, hsettles⟩ := abortCopy_balanced h (r.makeHandle s)
      generalize r.abortCopy k (r.makeHandle s) = aborted at haborted hsettles ⊢
      rcases aborted with ⟨result, r₁, k₁⟩
      dsimp only at haborted hsettles ⊢
      split
      · exact ⟨haborted, hsettles⟩
      · obtain ⟨hrest, hsettles'⟩ := cancelLoop_balanced ownerProcess l (cancelled + 1) haborted
        exact ⟨hrest, hsettles.trans hsettles'⟩
    · exact cancelLoop_balanced ownerProcess l cancelled h

lemma cancelOwner_balanced (h : TicketsBalanced r k rest) (ownerProcess : UInt64) :
    let outcome := r.cancelOwner k ownerProcess
    TicketsBalanced outcome.2.1 outcome.2.2 rest ∧ Settles k outcome.2.2 := by
  unfold Tickets.cancelOwner
  split
  · exact ⟨h, Settles.refl k⟩
  · split
    · exact ⟨h, Settles.refl k⟩
    · exact cancelLoop_balanced ownerProcess _ 0 h

/-! ## Histories -/

structure Kernel where
  store : Store
  mappings : Mappings
  tickets : Tickets

/-- The calls that move references. Those of the transfer module ask the process table. -/
inductive KernelCall where
  | setQuotaForOwner (owner : UInt64) (limit : ℕ)
  | setQuota (cspaceId limit : ℕ)
  | injectFailureAfterObjectPublishOnce
  | allocateCapabilityForOwner (owner kind : UInt64)
  | allocateCapability (cspaceId : ℕ) (kind : UInt64)
  | allocateKernelObjectForOwner (owner kind : UInt64)
  | allocateKernelObject (cspaceSlot : ℕ) (kind : UInt64)
  | releaseObject (handle : UInt64)
  | closeCapabilityForOwner (owner capability : UInt64)
  | closeCapability (cspaceId : ℕ) (capability : UInt64)
  | createOwned (addressSpace object kind virtualAddress length flags : UInt64)
  | destroyForOwner (handle addressSpace object : UInt64)
  | prepareCopy (p : Processes) (source destination capability rights ownerProcess : UInt64)
  | commitCopy (p : Processes) (ticket : UInt64)
  | commitCopyForOwner (p : Processes) (ticket ownerProcess expectedDestination : UInt64)
  | abortCopy (ticket : UInt64)
  | abortCopyForOwner (p : Processes) (ticket ownerProcess : UInt64)
  | copyAtomic (p : Processes) (source destination capability rights ownerProcess : UInt64)
  | cancelOwner (ownerProcess : UInt64)

namespace Kernel

def withStore (k : Kernel) (store : Store) : Kernel := { k with store }

def withMappings (k : Kernel) (outcome : Mappings × Store) : Kernel :=
  { k with mappings := outcome.1, store := outcome.2 }

def withTickets (k : Kernel) (outcome : Tickets × Store) : Kernel :=
  { k with tickets := outcome.1, store := outcome.2 }

def perform (k : Kernel) : KernelCall → Kernel
  | .setQuotaForOwner owner limit => k.withStore (k.store.setQuotaForOwner owner limit).2
  | .setQuota cspaceId limit => k.withStore (k.store.setQuota cspaceId limit).2
  | .injectFailureAfterObjectPublishOnce =>
    k.withStore k.store.injectFailureAfterObjectPublishOnce
  | .allocateCapabilityForOwner owner kind =>
    k.withStore (k.store.allocateCapabilityForOwner owner kind).2
  | .allocateCapability cspaceId kind => k.withStore (k.store.allocateCapability cspaceId kind).2
  | .allocateKernelObjectForOwner owner kind =>
    k.withStore (k.store.allocateKernelObjectForOwner owner kind).2
  | .allocateKernelObject cspaceSlot kind =>
    k.withStore (k.store.allocateKernelObject cspaceSlot kind).2
  | .releaseObject handle => k.withStore (k.store.releaseObject handle).2
  | .closeCapabilityForOwner owner capability =>
    k.withStore (k.store.closeCapabilityForOwner owner capability).2
  | .closeCapability cspaceId capability =>
    k.withStore (k.store.closeCapability cspaceId capability).2
  | .createOwned addressSpace object kind virtualAddress length flags =>
    k.withMappings
      (k.mappings.createOwned k.store addressSpace object kind virtualAddress length flags).2
  | .destroyForOwner handle addressSpace object =>
    k.withMappings (k.mappings.destroyForOwner k.store handle addressSpace object).2
  | .prepareCopy p source destination capability rights ownerProcess =>
    k.withTickets
      (k.tickets.prepareCopy k.store p source destination capability rights ownerProcess).2
  | .commitCopy p ticket => k.withTickets (k.tickets.commitCopy k.store p ticket).2
  | .commitCopyForOwner p ticket ownerProcess expectedDestination =>
    k.withTickets
      (k.tickets.commitCopyForOwner k.store p ticket ownerProcess expectedDestination).2
  | .abortCopy ticket => k.withTickets (k.tickets.abortCopy k.store ticket).2
  | .abortCopyForOwner p ticket ownerProcess =>
    k.withTickets (k.tickets.abortCopyForOwner k.store p ticket ownerProcess).2
  | .copyAtomic p source destination capability rights ownerProcess =>
    k.withTickets
      (k.tickets.copyAtomic k.store p source destination capability rights ownerProcess).2
  | .cancelOwner ownerProcess => k.withTickets (k.tickets.cancelOwner k.store ownerProcess).2

end Kernel

/-- A kernel owner holds the object that it was given, if any. -/
def acquired (owned : UInt64 → ℕ) (handle : UInt64) : UInt64 → ℕ :=
  if handle = 0 then owned else fun x => owned x + unit handle x

/-- The references of kernel owners after a call. -/
def KernelCall.owned (k : Kernel) (owned : UInt64 → ℕ) : KernelCall → UInt64 → ℕ
  | .allocateKernelObjectForOwner owner kind =>
    acquired owned (k.store.allocateKernelObjectForOwner owner kind).1
  | .allocateKernelObject cspaceSlot kind =>
    acquired owned (k.store.allocateKernelObject cspaceSlot kind).1
  | .releaseObject handle => fun x => owned x - unit handle x
  | _ => owned

/-- Kernel owners only give back what they hold. -/
def KernelCall.Permitted (owned : UInt64 → ℕ) : KernelCall → Prop
  | .releaseObject handle => owned handle ≠ 0
  | _ => True

inductive History (start : Kernel) : Kernel → (UInt64 → ℕ) → Prop where
  | start : History start start fun _ => 0
  | step {k : Kernel} {owned : UInt64 → ℕ} (call : KernelCall) : History start k owned →
    call.Permitted owned → History start (k.perform call) (call.owned k owned)

def Kernel.holders (k : Kernel) (owned : UInt64 → ℕ) (handle : UInt64) : ℕ :=
  capabilityRefs k.store.caps handle + ticketRefs k.tickets handle +
    mappingRefs k.mappings handle + owned handle

def Kernel.Consistent (k : Kernel) (owned : UInt64 → ℕ) : Prop :=
  k.store.Accounted (k.holders owned)

section Steps

variable {k : Kernel} {owned : UInt64 → ℕ}

lemma Kernel.Consistent.balanced (h : k.Consistent owned) :
    k.store.Balanced fun x => ticketRefs k.tickets x + mappingRefs k.mappings x + owned x :=
  Store.Accounted.congr h fun x => by
    unfold Kernel.holders
    dsimp only
    omega

lemma Kernel.Consistent.tickets (h : k.Consistent owned) :
    TicketsBalanced k.tickets k.store fun x => mappingRefs k.mappings x + owned x :=
  Store.Accounted.congr h fun x => by
    unfold Kernel.holders
    dsimp only
    omega

lemma Kernel.Consistent.mappings (h : k.Consistent owned) :
    k.store.Balanced fun x => mappingRefs k.mappings x + (ticketRefs k.tickets x + owned x) :=
  Store.Accounted.congr h fun x => by
    unfold Kernel.holders
    dsimp only
    omega

lemma consistent_withStore {store : Store} {owned' : UInt64 → ℕ}
    (h : store.Balanced fun x => ticketRefs k.tickets x + mappingRefs k.mappings x + owned' x) :
    (k.withStore store).Consistent owned' :=
  Store.Accounted.congr h fun x => by
    unfold Kernel.holders Kernel.withStore
    dsimp only
    omega

lemma consistent_withTickets {outcome : Tickets × Store}
    (h : TicketsBalanced outcome.1 outcome.2 fun x => mappingRefs k.mappings x + owned x) :
    (k.withTickets outcome).Consistent owned :=
  Store.Accounted.congr h fun x => by
    unfold Kernel.holders Kernel.withTickets
    dsimp only
    omega

lemma consistent_withMappings {outcome : Mappings × Store}
    (h : outcome.2.Balanced fun x => mappingRefs outcome.1 x + (ticketRefs k.tickets x + owned x)) :
    (k.withMappings outcome).Consistent owned :=
  Store.Accounted.congr h fun x => by
    unfold Kernel.holders Kernel.withMappings
    dsimp only
    omega

lemma allocateKernelObject_consistent (h : k.Consistent owned) (owner kind : UInt64) :
    (k.withStore (k.store.allocateKernelObjectForOwner owner kind).2).Consistent
      (acquired owned (k.store.allocateKernelObjectForOwner owner kind).1) := by
  obtain ⟨-, ⟨hzero, hbalanced⟩ | hbalanced⟩ :=
    h.balanced.allocateKernelObjectForOwner owner kind
  · rw [acquired, if_pos hzero]
    exact consistent_withStore hbalanced
  generalize k.store.allocateKernelObjectForOwner owner kind = outcome at hbalanced ⊢
  -- a handle that is held names a live object, so it is not zero
  have hheld : capabilityRefs outcome.2.caps outcome.1 +
      (ticketRefs k.tickets outcome.1 + mappingRefs k.mappings outcome.1 + owned outcome.1 +
        unit outcome.1 outcome.1) ≠ 0 := by
    simp [unit]
  obtain ⟨o, ho, hhandle⟩ := hbalanced.named outcome.1 hheld
  have hchecked : outcome.2.checkedObject outcome.1 0 = some o :=
    checkedObject_eq_some.2 ⟨hhandle.symm, ho, .inl rfl⟩
  have hne : outcome.1 ≠ 0 := ne_zero_of_checkedObject (by rw [hchecked]; rfl)
  rw [acquired, if_neg hne]
  exact consistent_withStore (Store.Accounted.congr hbalanced fun x => by dsimp only; omega)

lemma perform_consistent (h : k.Consistent owned) (call : KernelCall)
    (hpermitted : call.Permitted owned) :
    (k.perform call).Consistent (call.owned k owned) ∧ Progress k.store (k.perform call).store := by
  cases call with
  | setQuotaForOwner owner limit =>
    obtain ⟨hbalanced, hquiet⟩ := h.balanced.setQuotaForOwner owner limit
    exact ⟨consistent_withStore hbalanced, hquiet.progress⟩
  | setQuota cspaceId limit =>
    unfold Kernel.perform Store.setQuota
    dsimp only
    split
    · obtain ⟨hbalanced, hquiet⟩ := h.balanced.setQuotaForOwner _ limit
      exact ⟨consistent_withStore hbalanced, hquiet.progress⟩
    · exact ⟨consistent_withStore h.balanced, (Quiet.refl _).progress⟩
  | injectFailureAfterObjectPublishOnce =>
    have hquiet : Quiet k.store k.store.injectFailureAfterObjectPublishOnce := quiet_of_objects rfl
    refine ⟨?_, hquiet.progress⟩
    exact { h with }
  | allocateCapabilityForOwner owner kind =>
    obtain ⟨hbalanced, hprogress⟩ := h.balanced.allocateCapabilityForOwner owner kind
    exact ⟨consistent_withStore hbalanced, hprogress⟩
  | allocateCapability cspaceId kind =>
    unfold Kernel.perform Store.allocateCapability
    dsimp only
    split
    · obtain ⟨hbalanced, hprogress⟩ := h.balanced.allocateCapabilityForOwner _ kind
      exact ⟨consistent_withStore hbalanced, hprogress⟩
    · exact ⟨consistent_withStore h.balanced, (Quiet.refl _).progress⟩
  | allocateKernelObjectForOwner owner kind =>
    exact ⟨allocateKernelObject_consistent h owner kind,
      (h.balanced.allocateKernelObjectForOwner owner kind).1.progress⟩
  | allocateKernelObject cspaceSlot kind =>
    unfold Kernel.perform KernelCall.owned Store.allocateKernelObject
    dsimp only
    split
    · exact ⟨allocateKernelObject_consistent h _ kind,
        (h.balanced.allocateKernelObjectForOwner _ kind).1.progress⟩
    · exact ⟨consistent_withStore h.balanced, (Quiet.refl _).progress⟩
  | releaseObject handle =>
    have hne : owned handle ≠ 0 := hpermitted
    have hheld : ticketRefs k.tickets handle + mappingRefs k.mappings handle +
        owned handle ≠ 0 := by
      omega
    have hrest : ∀ x, ticketRefs k.tickets x + mappingRefs k.mappings x +
        (owned x - unit handle x) + unit handle x =
        ticketRefs k.tickets x + mappingRefs k.mappings x + owned x := by
      intro x
      unfold unit
      split
      · next hx =>
        rw [hx]
        omega
      · omega
    obtain ⟨-, hbalanced, hsettles⟩ := h.balanced.releaseObject hheld hrest
    exact ⟨consistent_withStore hbalanced, hsettles.progress⟩
  | closeCapabilityForOwner owner capability =>
    obtain ⟨hbalanced, hsettles⟩ := h.balanced.closeCapabilityForOwner owner capability
    exact ⟨consistent_withStore hbalanced, hsettles.progress⟩
  | closeCapability cspaceId capability =>
    unfold Kernel.perform Store.closeCapability
    dsimp only
    split
    · obtain ⟨hbalanced, hsettles⟩ := h.balanced.closeCapabilityForOwner _ capability
      exact ⟨consistent_withStore hbalanced, hsettles.progress⟩
    · exact ⟨consistent_withStore h.balanced, (Quiet.refl _).progress⟩
  | createOwned addressSpace object kind virtualAddress length flags =>
    obtain ⟨hbalanced, hprogress⟩ :=
      createOwned_balanced h.mappings addressSpace object kind virtualAddress length flags
    exact ⟨consistent_withMappings hbalanced, hprogress⟩
  | destroyForOwner handle addressSpace object =>
    obtain ⟨hbalanced, hprogress⟩ :=
      destroyForOwner_balanced h.mappings handle addressSpace object
    exact ⟨consistent_withMappings hbalanced, hprogress⟩
  | prepareCopy p source destination capability rights ownerProcess =>
    obtain ⟨hbalanced, hquiet⟩ :=
      prepareCopy_balanced h.tickets p source destination capability rights ownerProcess
    exact ⟨consistent_withTickets hbalanced, hquiet.progress⟩
  | commitCopy p ticket =>
    obtain ⟨hbalanced, hsettles⟩ := commitCopy_balanced h.tickets p ticket
    exact ⟨consistent_withTickets hbalanced, hsettles.progress⟩
  | commitCopyForOwner p ticket ownerProcess expectedDestination =>
    unfold Kernel.perform Tickets.commitCopyForOwner
    dsimp only
    split
    · exact ⟨consistent_withTickets h.tickets, (Quiet.refl _).progress⟩
    split
    · exact ⟨consistent_withTickets h.tickets, (Quiet.refl _).progress⟩
    · obtain ⟨hbalanced, hsettles⟩ := commitCopy_balanced h.tickets p ticket
      exact ⟨consistent_withTickets hbalanced, hsettles.progress⟩
  | abortCopy ticket =>
    obtain ⟨hbalanced, hsettles⟩ := abortCopy_balanced h.tickets ticket
    exact ⟨consistent_withTickets hbalanced, hsettles.progress⟩
  | abortCopyForOwner p ticket ownerProcess =>
    unfold Kernel.perform Tickets.abortCopyForOwner
    dsimp only
    split
    · exact ⟨consistent_withTickets h.tickets, (Quiet.refl _).progress⟩
    split
    · exact ⟨consistent_withTickets h.tickets, (Quiet.refl _).progress⟩
    · obtain ⟨hbalanced, hsettles⟩ := abortCopy_balanced h.tickets ticket
      exact ⟨consistent_withTickets hbalanced, hsettles.progress⟩
  | copyAtomic p source destination capability rights ownerProcess =>
    obtain ⟨hbalanced, hprogress⟩ :=
      copyAtomic_balanced h.tickets p source destination capability rights ownerProcess
    exact ⟨consistent_withTickets hbalanced, hprogress⟩
  | cancelOwner ownerProcess =>
    obtain ⟨hbalanced, hsettles⟩ := cancelOwner_balanced h.tickets ownerProcess
    exact ⟨consistent_withTickets hbalanced, hsettles.progress⟩

end Steps

/-! ## From the start -/

def zeroed (caps : Capabilities) : Kernel :=
  { store :=
      { caps
        frames := ⟨0, 0, 0, 0, 0, 0, false, false, fun _ => ⟨.unused, 0, 0, 0, 0⟩, fun _ => 0⟩
        memory := ⟨fun _ => ⟨.empty, 0, 0, 0, 0, 0⟩, fun _ => ⟨0, 0, 0⟩, false, false⟩ }
    mappings := ⟨fun _ => ⟨.empty, 0, .none⟩, false⟩
    tickets := ⟨fun _ => ⟨.empty, 0, .none⟩, false, false⟩ }

/-- The four modules are initialized one after the other; one failure fails all. -/
def boot (caps : Capabilities) (start stop : ℕ) : UInt64 × Kernel :=
  let frames := (zeroed caps).store.frames.init start stop
  let store := ({ (zeroed caps).store with frames := frames.2 } : Store).init
  let mappings := (zeroed caps).mappings.init
  let tickets := (zeroed caps).tickets.init
  (if frames.1 = 1 ∧ store.1 = 1 ∧ mappings.1 = 1 ∧ tickets.1 = 1 then 1 else 0,
    ⟨store.2, mappings.2, tickets.2⟩)

lemma boot_consistent {caps : Capabilities} {start stop : ℕ} (hcaps : caps.InvariantsHold)
    (hnone : ∀ i s, (caps.slotAt i s).metadata.objectType ≠ objectMemory)
    (hboot : (boot caps start stop).1 = 1) :
    (boot caps start stop).2.Consistent fun _ => 0 := by
  unfold boot at hboot
  dsimp only at hboot
  split at hboot
  · next hall =>
    obtain ⟨hframes, hstore, -, -⟩ := hall
    have hvalid := Frames.invariantsHold_init hframes
    unfold Kernel.Consistent boot
    dsimp only
    unfold Store.init at hstore ⊢
    split at hstore
    · cases hstore
    rename_i hguard
    rw [if_neg hguard]
    refine ⟨hcaps, hvalid, nofun, nofun, nofun, fun i => ?_, fun i => Nat.le_refl _,
      fun i => Nat.zero_le _, nofun, nofun, fun handle hne => absurd ?_ hne⟩
    · exact sum_eq_zero fun o _ => if_neg fun hlive => nomatch hlive.1
    have hcapabilities : capabilityRefs caps handle = 0 :=
      sum_eq_zero fun i _ => sum_eq_zero fun s _ =>
        if_neg fun hnamed => hnone i s hnamed.1
    have htickets : ticketRefs (zeroed caps).tickets.init.2 handle = 0 :=
      sum_eq_zero fun s _ => if_neg fun hprepared => nomatch hprepared.1
    have hmappings : mappingRefs (zeroed caps).mappings.init.2 handle = 0 :=
      sum_eq_zero fun s _ => if_neg fun hlive => nomatch hlive.1
    change capabilityRefs caps handle + ticketRefs (zeroed caps).tickets.init.2 handle +
      mappingRefs (zeroed caps).mappings.init.2 handle + 0 = 0
    omega
  · cases hboot

variable {owned : UInt64 → ℕ}

lemma History.consistent {start k : Kernel} (h : History start k owned)
    (hstart : start.Consistent fun _ => 0) : k.Consistent owned := by
  induction h with
  | start => exact hstart
  | step call _ hpermitted ih => exact (perform_consistent ih call hpermitted).1

structure Conserved (k : Kernel) (owned : UInt64 → ℕ) : Prop where
  references : ∀ o, k.store.Live o → (k.store.object o).references.toNat =
    k.holders owned (k.store.makeObjectHandle o)
  frame : ∀ o, k.store.Live o → (k.store.frames.checkedIndex (k.store.object o).frame
    (frameKindFor (k.store.object o).kind)).isSome
  alone : ∀ o o', k.store.Live o → k.store.Live o' →
    (k.store.object o).frame = (k.store.object o').frame → o = o'
  quota : ∀ i, k.store.observed i = (k.store.quota i).used ∧
    (k.store.quota i).used ≤ (k.store.quota i).limit
  charged : ∀ o, k.store.Live o → ∃ i,
    k.store.caps.checkedCspaceOwner (k.store.object o).owner = some i ∧
      (k.store.quota i).owner = (k.store.object o).owner

lemma Kernel.Consistent.conserved {k : Kernel} (h : k.Consistent owned) : Conserved k owned := by
  refine ⟨h.counted, fun o ho => ?_, h.apart, fun i => ⟨h.used i, h.limit i⟩, h.owner⟩
  obtain ⟨i, hi⟩ := h.frame o ho
  rw [hi.checked]
  rfl

/-- A live object after a call is held and keeps its frame, or no one holds it and the frame is
free. -/
def FreedWithLast (k k' : Kernel) (owned' : UInt64 → ℕ) (o : Fin maxMemoryObjects) : Prop :=
  (k'.holders owned' (k.store.makeObjectHandle o) ≠ 0 ∧
      (∃ n, k'.store.object o = { k.store.object o with references := n }) ∧
      (k'.store.frames.checkedIndex (k.store.object o).frame
        (frameKindFor (k.store.object o).kind)).isSome) ∨
    (k'.holders owned' (k.store.makeObjectHandle o) = 0 ∧
      ∀ kind, k'.store.frames.checkedIndex (k.store.object o).frame kind = none)

lemma freedWithLast_perform {k : Kernel} (h : k.Consistent owned)
    {call : KernelCall} (hpermitted : call.Permitted owned) {o : Fin maxMemoryObjects}
    (ho : k.store.Live o) : FreedWithLast k (k.perform call) (call.owned k owned) o := by
  obtain ⟨hafter, m, hquiet, hsettles⟩ := perform_consistent h call hpermitted
  obtain ⟨n, hn⟩ := hquiet o ho
  rcases hsettles.objects_of_same hn ho with ⟨n, hn⟩ | ⟨hgone, hfreed⟩
  · have hlive := live_of_same hn ho
    have hcount := hafter.counted o hlive
    rw [handle_of_same hn] at hcount
    refine .inl ⟨fun hzero => ?_, ⟨n, hn⟩, ?_⟩
    · rw [hzero] at hcount
      exact hafter.positive o hlive (UInt32.toNat_inj.1 hcount)
    · have hframe := hafter.conserved.frame o hlive
      rw [hn] at hframe
      exact hframe
  · refine .inr ⟨?_, hfreed⟩
    by_contra hne
    obtain ⟨o', hlive, hhandle⟩ := hafter.named _ hne
    have hchecked := checkedObject_eq_some.2
      ⟨hhandle.symm, hlive, .inl (rfl : (0 : UInt64) = 0)⟩
    rw [hgone 0] at hchecked
    cases hchecked

/-- After every history, the references of a live object are those of the capabilities, tickets,
mappings and kernel owners that hold it, its frame is its own, quotas count the live objects, and
the next call releases a frame exactly when it takes the last reference. -/
theorem references_conserved (caps : Capabilities) (start stop : ℕ) (hcaps : caps.InvariantsHold)
    (hnone : ∀ i s, (caps.slotAt i s).metadata.objectType ≠ objectMemory)
    (hboot : (boot caps start stop).1 = 1) (k : Kernel) (owned : UInt64 → ℕ)
    (h : History (boot caps start stop).2 k owned) :
    Conserved k owned ∧ ∀ call : KernelCall, call.Permitted owned → ∀ o, k.store.Live o →
      FreedWithLast k (k.perform call) (call.owned k owned) o := by
  have hconsistent := h.consistent (boot_consistent hcaps hnone hboot)
  exact ⟨hconsistent.conserved, fun call hpermitted o ho =>
    freedWithLast_perform hconsistent hpermitted ho⟩

/-- A process that runs in the CSpace at slot 1. -/
def sampleProcesses : Processes := ⟨fun _ => 0x1c1000001, fun _ => true⟩

/-- A quota is set for a CSpace of a fresh kernel. A shared object is allocated in it, mapped, and
offered to the next CSpace, so that it has three references. -/
def sharedKernel : Kernel :=
  ((((boot booted 4096 12288).2.perform (.setQuota 1 2)).perform
    (.allocateCapability 1 memoryShared)).perform
    (.createOwned 9 0x1a1000000 memoryShared 4096 4096 (mapUser ||| mapRead))).perform
    (.prepareCopy sampleProcesses 0x1c1000001 0x1c1000002 0x100000000 rightTransfer 7)

theorem references_conserved_shared :
    (boot booted 4096 12288).1 = 1 ∧ Conserved sharedKernel (fun _ => 0) ∧
      ∀ ticket, ∀ o, sharedKernel.store.Live o →
        FreedWithLast sharedKernel (sharedKernel.perform (.abortCopy ticket)) (fun _ => 0) o := by
  have hboot : (boot booted 4096 12288).1 = 1 := by decide +kernel
  have hquota : History (boot booted 4096 12288).2 _ _ := .step (.setQuota 1 2) .start trivial
  have hallocated := hquota.step (.allocateCapability 1 memoryShared) trivial
  have hhistory : History (boot booted 4096 12288).2 sharedKernel (fun _ => 0) :=
    .step (.prepareCopy _ _ _ _ _ _) (.step (.createOwned _ _ _ _ _ _) hallocated trivial) trivial
  obtain ⟨hconserved, hfreed⟩ := references_conserved booted 4096 12288 (by decide +kernel)
    (by decide +kernel) hboot _ _ hhistory
  exact ⟨hboot, hconserved, fun ticket => hfreed (.abortCopy ticket) trivial⟩

end Ostadix.MemoryObject
