import Ostadix.Ledger

/-! What the mutations of the ledger do to an entry, and that they keep a body valid. -/

namespace Ostadix.Ledger

open Wire Entry LedgerState StoredTerminal AttemptBinding List

variable {protocol : Protocol}

/-! ## Valid entries -/

def Material (protocol : Protocol) (entry : Entry) : Prop :=
  match entry.state with
  | .terminalCandidate => ∃ terminal candidate, entry.terminal = some terminal ∧
      terminal.validate protocol = .ok () ∧
      terminal.decodeTerminalCandidate protocol = .ok candidate ∧
      validateTerminalBinding protocol entry.binding candidate = .ok () ∧
      entry.reasonCode = none ∧ entry.reasonMessage = none
  | .rejected | .abandoned => entry.terminal = none ∧ ∃ code message,
      entry.reasonCode = some code ∧ entry.reasonMessage = some message ∧
      validateReason code message = .ok ()
  | _ => entry.terminal = none ∧ entry.reasonCode = none ∧ entry.reasonMessage = none

structure ValidEntry (protocol : Protocol) (entry : Entry) : Prop where
  schema : entry.schema = entrySchema
  binding : entry.binding.validate = .ok ()
  sequence : entry.transitionSequence ≠ 0
  material : Material protocol entry

@[simp] lemma present_eq_ok {α : Type} {message : String} {x : Option α} {a : α} :
    present message x = .ok a ↔ x = some a := by
  cases x <;> simp [present]

variable {u : Unit} {a b : AttemptBinding}

variable {entry : Entry}

lemma Entry.validateMaterial_eq_ok :
    entry.validateMaterial protocol = .ok u ↔ Material protocol entry := by
  obtain ⟨schema, binding, state, sequence, terminal, code, message⟩ := entry
  cases state with
  | terminalCandidate =>
    simp only [validateMaterial, Material, bind_eq_ok, present_eq_ok, ensure_eq_ok]
    constructor
    · rintro ⟨t, rfl, _, hvalid, candidate, hcandidate, _, hbinding, hreason⟩
      exact ⟨t, candidate, rfl, hvalid, hcandidate, hbinding, hreason⟩
    · rintro ⟨t, candidate, rfl, hvalid, hcandidate, hbinding, hreason⟩
      exact ⟨t, rfl, (), hvalid, candidate, hcandidate, (), hbinding, hreason⟩
  | rejected | abandoned =>
    simp only [validateMaterial, Material, bind_eq_ok, present_eq_ok, ensure_eq_ok, exists_const,
      exists_and_left]
  | received | validated | accepted | running =>
    simp only [validateMaterial, Material, ensure_eq_ok]

lemma Entry.validate_eq_ok : entry.validate protocol = .ok u ↔ ValidEntry protocol entry := by
  simp only [Entry.validate, bind_eq_ok, ensure_eq_ok, exists_const, validateMaterial_eq_ok]
  constructor
  · rintro ⟨hschema, _, hbinding, hsequence, hmaterial⟩
    exact ⟨hschema, hbinding, hsequence, hmaterial⟩
  · intro h
    exact ⟨h.schema, (), h.binding, h.sequence, h.material⟩

/-! ## Changes of an entry -/

def LedgerState.rank : LedgerState → ℕ
  | .received => 0
  | .validated => 1
  | .accepted => 2
  | .running => 3
  | .terminalCandidate | .rejected | .abandoned => 4

/-- One change of an entry: it was not ended, it moves forward and is counted. -/
structure Advance (entry next : Entry) : Prop where
  binding : next.binding = entry.binding
  incomplete : entry.state.isIncomplete
  forward : entry.state.rank < next.state.rank
  sequence : next.transitionSequence.toNat = entry.transitionSequence.toNat + 1

lemma LedgerState.rank_of_incomplete {state : LedgerState} (h : state.isIncomplete) :
    state.rank < 4 := by
  cases state <;> simp_all [isIncomplete, rank]

variable {reason : ReasonState}

section Changes

variable {entry next : Entry} {state : LedgerState} {code message : String}

lemma Entry.setState_eq_ok : entry.setState state = .ok next ↔
    entry.transitionSequence.toNat + 1 < 2 ^ 64 ∧
      { entry with
        state
        transitionSequence := entry.transitionSequence + 1
        terminal := none
        reasonCode := none
        reasonMessage := none } = next := by
  simp only [setState, bind_eq_ok, ensure_eq_ok, exists_const]
  simp [pure, Except.pure]

lemma sequence_succ {n : UInt64} (h : n.toNat + 1 < 2 ^ 64) : (n + 1).toNat = n.toNat + 1 := by
  rw [UInt64.toNat_add]
  exact Nat.mod_eq_of_lt h

lemma advance_of_setState (h : entry.setState state = .ok next)
    (hincomplete : entry.state.isIncomplete) (hforward : entry.state.rank < state.rank) :
    Advance entry next := by
  obtain ⟨hsequence, rfl⟩ := setState_eq_ok.1 h
  exact ⟨rfl, hincomplete, hforward, sequence_succ hsequence⟩

/-- The parts that every change leaves valid. -/
lemma validEntry_of_setState (h : entry.setState state = .ok next)
    (hvalid : ValidEntry protocol entry) (terminal : Option StoredTerminal)
    (reasonCode reasonMessage : Option String)
    (hmaterial : Material protocol { next with terminal, reasonCode, reasonMessage }) :
    ValidEntry protocol { next with terminal, reasonCode, reasonMessage } := by
  obtain ⟨hsequence, rfl⟩ := setState_eq_ok.1 h
  refine ⟨hvalid.schema, hvalid.binding, ?_, hmaterial⟩
  intro hzero
  have := congrArg UInt64.toNat hzero
  rw [sequence_succ hsequence] at this
  simp at this

lemma setState_sound (h : entry.setState state = .ok next)
    (hstate : state.isIncomplete) (hforward : entry.state.rank < state.rank) :
    Advance entry next ∧ (ValidEntry protocol entry → ValidEntry protocol next) := by
  have hincomplete : entry.state.isIncomplete := by
    have := rank_of_incomplete hstate
    cases hentry : entry.state <;>
      simp_all [isIncomplete, rank] <;> omega
  refine ⟨advance_of_setState h hincomplete hforward, fun hvalid => ?_⟩
  have hnext : next =
      { next with terminal := none, reasonCode := none, reasonMessage := none } := by
    obtain ⟨-, rfl⟩ := setState_eq_ok.1 h
    rfl
  rw [hnext]
  apply validEntry_of_setState h hvalid
  obtain ⟨-, rfl⟩ := setState_eq_ok.1 h
  cases state <;> simp_all [Material, isIncomplete]

lemma setReason_sound (h : entry.setReason reason.state code message = .ok next)
    (hincomplete : entry.state.isIncomplete) :
    Advance entry next ∧ (ValidEntry protocol entry → ValidEntry protocol next) := by
  simp only [setReason, bind_eq_ok] at h
  obtain ⟨_, hreason, changed, hchanged, h⟩ := h
  cases h
  have hforward : entry.state.rank < reason.state.rank := by
    have := rank_of_incomplete hincomplete
    cases reason <;> exact this
  obtain ⟨hbinding, hinc, hfwd, hseq⟩ := advance_of_setState hchanged hincomplete hforward
  refine ⟨⟨hbinding, hinc, hfwd, hseq⟩, fun hvalid => ?_⟩
  obtain ⟨-, rfl⟩ := setState_eq_ok.1 hchanged
  apply validEntry_of_setState hchanged hvalid
  cases reason <;> exact ⟨rfl, code, message, rfl, rfl, hreason⟩

variable {candidate : protocol.TerminalCandidate} {terminal : StoredTerminal}

/-- The codec reads the candidate back from what it wrote. -/
def Protocol.ReadsBack (protocol : Protocol) (candidate : protocol.TerminalCandidate) : Prop :=
  ∀ header payload, protocol.encodeResponse candidate = .ok (header, payload) →
    protocol.decodeResponse header payload = .ok candidate

lemma fromCandidate_sound (hreads : protocol.ReadsBack candidate)
    (h : fromCandidate protocol candidate = .ok terminal) :
    terminal.validate protocol = .ok () ∧
      terminal.decodeTerminalCandidate protocol = .ok candidate := by
  simp only [fromCandidate, bind_eq_ok, mapError_eq_ok] at h
  obtain ⟨_, -, ⟨header, payload⟩, hencode, hnew⟩ := h
  have hstored := hnew
  simp only [newExact, bind_eq_ok] at hstored
  obtain ⟨_, -, _, -, hstored⟩ := hstored
  cases hstored
  have hdecode : (⟨header, payload, protocol.terminalPartsSha256 header payload⟩ :
      StoredTerminal).decodeTerminalCandidate protocol = .ok candidate :=
    mapError_eq_ok.2 (hreads header payload hencode)
  refine ⟨?_, hdecode⟩
  simp only [StoredTerminal.validate, bind_eq_ok, ensure_eq_ok]
  refine ⟨_, hnew, (), rfl, ?_⟩
  rw [hdecode]
  rfl

lemma setTerminal_sound {binding : AttemptBinding}
    (hterminal : fromCandidate protocol candidate = .ok terminal)
    (hbinding : validateTerminalBinding protocol binding candidate = .ok ())
    (h : entry.setTerminal terminal = .ok next) (hentry : entry.binding = binding)
    (hstate : entry.state = .running) : Advance entry next ∧
      (protocol.ReadsBack candidate → ValidEntry protocol entry → ValidEntry protocol next) := by
  simp only [setTerminal, bind_eq_ok] at h
  obtain ⟨changed, hchanged, h⟩ := h
  cases h
  obtain ⟨hb, hinc, hfwd, hseq⟩ :=
    advance_of_setState hchanged (by rw [hstate]; rfl) (by rw [hstate]; decide)
  refine ⟨⟨hb, hinc, hfwd, hseq⟩, fun hreads hvalid => ?_⟩
  obtain ⟨-, rfl⟩ := setState_eq_ok.1 hchanged
  obtain ⟨hstored, hdecode⟩ := fromCandidate_sound hreads hterminal
  apply validEntry_of_setState hchanged hvalid
  refine ⟨terminal, candidate, rfl, hstored, hdecode, ?_, rfl, rfl⟩
  exact hentry ▸ hbinding

end Changes

/-! ## Valid bodies -/

def Fresh (a b : AttemptBinding) : Prop := a.sameNonce b = false ∧ a.sameAttempt b = false

lemma sameNonce_comm (a b : AttemptBinding) : a.sameNonce b = b.sameNonce a := by
  simp only [sameNonce, eq_comm]

lemma sameAttempt_comm (a b : AttemptBinding) : a.sameAttempt b = b.sameAttempt a := by
  simp only [sameAttempt, eq_comm]

lemma Fresh.symm (h : Fresh a b) : Fresh b a := by
  rwa [Fresh, sameNonce_comm, sameAttempt_comm]

lemma not_fresh_self (a : AttemptBinding) : ¬Fresh a a := by
  simp [Fresh, sameNonce]

structure ValidBody (protocol : Protocol) (body : Body) : Prop where
  count : body.entries.length ≤ maxEntries
  entries : ∀ entry ∈ body.entries, ValidEntry protocol entry
  incarnation : ∀ entry ∈ body.entries,
    entry.binding.executionCellIncarnation.val ≤ body.executionCellIncarnation.val
  ordered : (body.entries.map Entry.binding).Pairwise fun a b => a.key < b.key
  fresh : (body.entries.map Entry.binding).Pairwise Fresh

lemma checkOrder_eq_ok {entries : List Entry} : checkOrder entries = .ok u ↔
    (entries.map Entry.binding).Pairwise fun a b => a.key < b.key := by
  induction entries with
  | nil => simp [checkOrder]
  | cons left entries ih =>
    cases entries with
    | nil => simp [checkOrder]
    | cons right entries =>
      have : IsTrans AttemptBinding (fun a b => a.key < b.key) := ⟨fun _ _ _ => lt_trans⟩
      simp only [checkOrder, bind_eq_ok, ensure_eq_ok, exists_const, ih, map_cons,
        pairwise_cons_cons_iff_of_trans]

lemma checkReplays_eq_ok {entries : List Entry} : checkReplays entries = .ok u ↔
    (entries.map Entry.binding).Pairwise Fresh := by
  induction entries with
  | nil => simp [checkReplays]
  | cons left entries ih =>
    simp only [checkReplays, bind_eq_ok, forM_eq_ok, ih, checkReplay, ensure_eq_ok, exists_const,
      map_cons, pairwise_cons, forall_mem_map, Fresh]

lemma validateBody_eq_ok {body : Body} :
    validateBody protocol body = .ok u ↔ ValidBody protocol body := by
  simp only [validateBody, bind_eq_ok, ensure_eq_ok, exists_const, forM_eq_ok, checkOrder_eq_ok,
    checkReplays_eq_ok, validate_eq_ok, checkIncarnation]
  constructor
  · rintro ⟨hcount, hentries, hordered, hfresh⟩
    exact ⟨hcount, fun e he => (hentries e he).1, fun e he => (hentries e he).2, hordered, hfresh⟩
  · intro h
    exact ⟨h.count, fun e he => ⟨h.entries e he, h.incarnation e he⟩, h.ordered, h.fresh⟩

/-! ## Lookup -/

section Lookup

variable {requested : AttemptBinding} {entries : List Entry}

lemma locateBinding_exact {index : ℕ} (h : locateBinding requested entries = .exact index) :
    ∃ entry, entries[index]? = some entry ∧ entry.binding = requested := by
  induction entries generalizing index with
  | nil => cases h
  | cons entry entries ih =>
    unfold locateBinding at h
    split at h
    · next heq =>
      cases h
      exact ⟨entry, rfl, heq⟩
    split at h
    · cases h
    split at h
    · cases h
    split at h
    · next heq =>
      cases h
      exact ih heq
    · next hne => exact absurd h (hne _)

lemma locateBinding_unknown (h : locateBinding requested entries = .unknown) :
    ∀ entry ∈ entries, Fresh entry.binding requested := by
  induction entries with
  | nil => nofun
  | cons entry entries ih =>
    unfold locateBinding at h
    split at h
    · cases h
    split at h
    · cases h
    split at h
    · cases h
    next hnonce hattempt =>
    have hrest : locateBinding requested entries = .unknown := by
      split at h
      · cases h
      · exact h
    have hhead : Fresh entry.binding requested := ⟨by simpa using hnonce, by simpa using hattempt⟩
    simpa using ⟨hhead, ih hrest⟩

/-- A mutation treats the entry of its binding, or a binding that shares no replay key with any. -/
lemma atBinding_eq_ok {body : Body} {found : ℕ → Entry → Result Mutation}
    {unknown : Result Mutation} {m : Mutation}
    (h : atBinding body requested found unknown = .ok m) :
    (∃ index entry, body.entries[index]? = some entry ∧ entry.binding = requested ∧
      found index entry = .ok m) ∨
    (∀ entry ∈ body.entries, Fresh entry.binding requested) ∧ unknown = .ok m := by
  unfold atBinding at h
  split at h
  · next index hindex =>
    obtain ⟨entry, hentry, hbinding⟩ := locateBinding_exact hindex
    rw [hentry] at h
    exact .inl ⟨index, entry, hentry, hbinding, h⟩
  · cases h
  · next hunknown => exact .inr ⟨locateBinding_unknown hunknown, h⟩

end Lookup

/-! ## Mutations -/

/-- A terminal candidate that is recorded can be read back. -/
def Call.ReadsBack : Call protocol → Prop
  | .recordTerminalCandidate _ candidate => protocol.ReadsBack candidate
  | _ => True

/-- A call advances one entry or inserts a new one. Only an entry that advances from validated to
accepted may be executed. -/
inductive Changes (call : Call protocol) (body : Body) : Reply → Body → Prop where
  | advance {index : ℕ} {entry next : Entry} {reply : Reply}
    (hentry : body.entries[index]? = some entry)
    (hadvance : Advance entry next)
    (hnext : call.ReadsBack → ValidEntry protocol entry → ValidEntry protocol next)
    (hreply : reply = .applied next ∨
      reply = .acceptance next true ∧ entry.state = .validated ∧ next.state = .accepted) :
    Changes call body reply (body.replace index next)
  | insert {entry : Entry} (hfresh : ∀ e ∈ body.entries, Fresh e.binding entry.binding)
    (hincarnation : entry.binding.executionCellIncarnation = body.executionCellIncarnation)
    (hcount : body.entries.length < maxEntries) (hvalid : ValidEntry protocol entry) :
    Changes call body (.applied entry)
      { body with entries := sortBy (fun e => e.binding.key) (body.entries ++ [entry]) }

def Lawful (call : Call protocol) (body : Body) : Mutation → Prop
  | .changed reply next => Changes call body reply next
  | .unchanged reply => ∀ entry, reply ≠ .acceptance entry true

section Mutations

variable {call : Call protocol} {body : Body} {binding : ValidBinding} {m : Mutation}

lemma lawful_insertNew (h : insertNew body entry = .ok m)
    (hfresh : ∀ e ∈ body.entries, Fresh e.binding entry.binding)
    (hvalid : ValidEntry protocol entry) : Lawful call body m := by
  simp only [insertNew, requireCurrentIncarnation, bind_eq_ok, ensure_eq_ok, exists_const] at h
  obtain ⟨hincarnation, hcount, h⟩ := h
  cases h
  exact .insert hfresh hincarnation hcount hvalid

lemma lawful_transitionExact {transition : Entry → Result (Option Entry)}
    (h : transitionExact binding transition body = .ok m)
    (hsound : ∀ entry next, entry.binding = binding.value → transition entry = .ok (some next) →
      Advance entry next ∧
        (call.ReadsBack → ValidEntry protocol entry → ValidEntry protocol next)) :
    Lawful call body m := by
  rcases atBinding_eq_ok h with ⟨index, entry, hentry, hbinding, h⟩ | ⟨-, h⟩
  · obtain ⟨changed, hchanged, h⟩ := bind_eq_ok.1 h
    cases changed with
    | some next =>
      cases h
      obtain ⟨hadvance, hnext⟩ := hsound entry next hbinding hchanged
      exact .advance hentry hadvance hnext (.inl rfl)
    | none =>
      cases h
      nofun
  · cases h

lemma map_some_eq_ok {α : Type} {x : Result α} {a : α} (h : some <$> x = .ok (some a)) :
    x = .ok a := by
  cases x with
  | error e => cases h
  | ok b =>
    cases h
    rfl

lemma lawful_recordReceived (h : recordReceived binding body = .ok m) : Lawful call body m := by
  rcases atBinding_eq_ok h with ⟨index, entry, hentry, hbinding, h⟩ | ⟨hfresh, h⟩
  · cases h
    nofun
  · exact lawful_insertNew h hfresh ⟨rfl, binding.valid, by simp, rfl, rfl, rfl⟩

lemma lawful_recordValidated (h : recordValidated binding body = .ok m) :
    Lawful call body m := by
  apply lawful_transitionExact h
  intro entry next _ h
  split at h
  · next hstate =>
    exact (setState_sound (map_some_eq_ok h) rfl (by rw [hstate]; decide)).imp_right fun h _ => h
  · cases h

lemma lawful_consumeAndAccept (h : consumeAndAccept binding body = .ok m) :
    Lawful call body m := by
  rcases atBinding_eq_ok h with ⟨index, entry, hentry, hbinding, h⟩ | ⟨-, h⟩
  · split at h
    · next hstate =>
      simp only [bind_eq_ok] at h
      obtain ⟨_, -, next, hnext, h⟩ := h
      cases h
      obtain ⟨hadvance, hvalid⟩ := setState_sound hnext rfl (by rw [hstate]; decide)
      refine .advance hentry hadvance (fun _ => hvalid) (.inr ⟨rfl, hstate, ?_⟩)
      obtain ⟨-, rfl⟩ := setState_eq_ok.1 hnext
      rfl
    · cases h
      intro e he
      cases he
  · cases h

lemma lawful_markRunning (h : markRunning binding body = .ok m) : Lawful call body m := by
  apply lawful_transitionExact h
  intro entry next _ h
  split at h
  · next hstate =>
    exact (setState_sound (map_some_eq_ok h) rfl (by rw [hstate]; decide)).imp_right fun h _ => h
  · cases h
  · cases h
  · cases h

lemma lawful_recordTerminalCandidate {candidate : protocol.TerminalCandidate}
    {terminal : StoredTerminal}
    (hterminal : fromCandidate protocol candidate = .ok terminal)
    (hbound : validateTerminalBinding protocol binding.value candidate = .ok ())
    (h : recordTerminalCandidate binding terminal body = .ok m) :
    Lawful (.recordTerminalCandidate binding candidate) body m := by
  apply lawful_transitionExact h
  intro entry next hbinding h
  split at h
  · next hstate => exact setTerminal_sound hterminal hbound (map_some_eq_ok h) hbinding hstate
  · obtain ⟨_, -, h⟩ := bind_eq_ok.1 h
    cases h
  · cases h

variable {code message : String}

section

variable (hreason : validateReason code message = .ok ())

include hreason

lemma validEntry_newWithReason :
    ValidEntry protocol (newWithReason binding.value reason code message) := by
  refine ⟨rfl, binding.valid, by simp [newWithReason], ?_⟩
  cases reason <;> exact ⟨rfl, code, message, rfl, rfl, hreason⟩

lemma lawful_recordReasonTerminal
    (h : recordReasonTerminal binding reason code message body = .ok m) :
    Lawful call body m := by
  rcases atBinding_eq_ok h with ⟨index, entry, hentry, hbinding, h⟩ | ⟨hfresh, h⟩
  · split at h
    · obtain ⟨_, -, h⟩ := bind_eq_ok.1 h
      cases h
      rintro _ ⟨⟩
    · simp only [bind_eq_ok, ensure_eq_ok, exists_const] at h
      obtain ⟨hincomplete, next, hnext, h⟩ := h
      cases h
      obtain ⟨hadvance, hvalid⟩ := setReason_sound hnext hincomplete
      exact .advance hentry hadvance (fun _ => hvalid) (.inl rfl)
  · exact lawful_insertNew h hfresh (validEntry_newWithReason hreason)

lemma lawful_recordPreacceptRejected
    (h : recordPreacceptRejected binding code message body = .ok m) :
    Lawful call body m := by
  rcases atBinding_eq_ok h with ⟨index, entry, hentry, hbinding, h⟩ | ⟨hfresh, h⟩
  · have hreject : entry.state.isIncomplete → (do
          let next ← entry.setReason .rejected code message
          return .changed (.applied next) (body.replace index next) : Result Mutation) = .ok m →
        Lawful call body m := by
      intro hincomplete h
      obtain ⟨next, hnext, h⟩ := bind_eq_ok.1 h
      cases h
      rw [show LedgerState.rejected = ReasonState.rejected.state from rfl] at hnext
      obtain ⟨hadvance, hvalid⟩ := setReason_sound hnext hincomplete
      exact .advance hentry hadvance (fun _ => hvalid) (.inl rfl)
    split at h
    · next hstate => exact hreject (by rw [hstate]; rfl) h
    · next hstate => exact hreject (by rw [hstate]; rfl) h
    · cases h
      nofun
  · exact lawful_insertNew h hfresh (validEntry_newWithReason hreason)

end

lemma lawful_of_mutation {mutate : Body → Result Mutation}
    (hcall : call.mutation protocol = .ok mutate) (h : mutate body = .ok m) :
    Lawful call body m := by
  cases call with
  | recordReceived binding =>
    cases hcall
    exact lawful_recordReceived h
  | recordValidated binding =>
    cases hcall
    exact lawful_recordValidated h
  | consumeAndAccept binding =>
    cases hcall
    exact lawful_consumeAndAccept h
  | markRunning binding =>
    cases hcall
    exact lawful_markRunning h
  | recordTerminalCandidate binding candidate =>
    simp only [Call.mutation, bind_eq_ok] at hcall
    obtain ⟨terminal, hterminal, _, hbound, hcall⟩ := hcall
    cases hcall
    exact lawful_recordTerminalCandidate hterminal hbound h
  | recordRejected binding code message =>
    obtain ⟨_, hreason, hcall⟩ := bind_eq_ok.1 hcall
    cases hcall
    exact lawful_recordReasonTerminal hreason h
  | recordPreacceptRejected binding code message =>
    obtain ⟨_, hreason, hcall⟩ := bind_eq_ok.1 hcall
    cases hcall
    exact lawful_recordPreacceptRejected hreason h
  | recordAbandoned binding code message =>
    obtain ⟨_, hreason, hcall⟩ := bind_eq_ok.1 hcall
    cases hcall
    exact lawful_recordReasonTerminal hreason h

end Mutations

/-! ## Bodies over time -/

/-- Every entry of the first body is found in the second, as it was or after one change. -/
def Grows (body next : Body) : Prop :=
  ∀ entry ∈ body.entries, ∃ e ∈ next.entries, e = entry ∨ Advance entry e

/-- Every entry of the first body is found in the second, after some changes. -/
def Evolves (body next : Body) : Prop :=
  ∀ entry ∈ body.entries, ∃ e ∈ next.entries, Relation.ReflTransGen Advance entry e

lemma Evolves.refl (body : Body) : Evolves body body := fun entry h => ⟨entry, h, .refl⟩

lemma Evolves.grows {a b c : Body} (hab : Evolves a b) (hbc : Grows b c) : Evolves a c := by
  intro entry hentry
  obtain ⟨e, he, hadvance⟩ := hab entry hentry
  obtain ⟨e', he', rfl | hlast⟩ := hbc e he
  · exact ⟨e', he', hadvance⟩
  · exact ⟨e', he', hadvance.tail hlast⟩

/-- A key tells the issuer and the nonce of a binding. -/
lemma sameNonce_of_key_eq (h : a.key = b.key) : a.sameNonce b = true := by
  have hbytes : ∀ x y : SemanticDigest,
      (utf8 x.value).map UInt8.toNat = (utf8 y.value).map UInt8.toNat → x = y := by
    intro x y hxy
    have hinj : Function.Injective UInt8.toNat := fun _ _ => UInt8.toNat_inj.1
    exact Checked.ext (utf8_injective (map_injective_iff.2 hinj hxy))
  simp only [AttemptBinding.key, EmbeddingLike.apply_eq_iff_eq, Prod.mk.injEq] at h
  obtain ⟨hissuer, -, -, -, hnonce⟩ := h
  simp [sameNonce, hbytes _ _ hissuer, hbytes _ _ hnonce]

section Bodies

variable {call : Call protocol} {body next : Body} {reply : Reply}

lemma ValidBody.changes (hvalid : ValidBody protocol body) (hreads : call.ReadsBack)
    (h : Changes call body reply next) : ValidBody protocol next := by
  cases h with
  | @advance index entry changed _ hentry hadvance hnext hreply =>
    have hmem := mem_of_getElem? hentry
    have hchanged := hnext hreads (hvalid.entries entry hmem)
    have hbindings : (body.replace index changed).entries.map Entry.binding =
        body.entries.map Entry.binding := map_set_of_eq hentry hadvance.binding
    have hset : ∀ e ∈ (body.replace index changed).entries, e ∈ body.entries ∨ e = changed :=
      fun e he => mem_or_eq_of_mem_set he
    refine ⟨?_, ?_, ?_, hbindings ▸ hvalid.ordered, hbindings ▸ hvalid.fresh⟩
    · simpa [Body.replace] using hvalid.count
    · intro e he
      rcases hset e he with he | rfl
      · exact hvalid.entries e he
      · exact hchanged
    intro e he
    rcases hset e he with he | rfl
    · exact hvalid.incarnation e he
    · rw [hadvance.binding]
      exact hvalid.incarnation entry hmem
  | @insert entry hfresh hincarnation hcount hentry =>
    -- The new entry shares no replay key with the others, so the keys stay apart.
    have hperm : (sortBy (fun e => e.binding.key) (body.entries ++ [entry])).Perm
        (entry :: body.entries) := (perm_sortBy _ _).trans (perm_append_singleton _ _)
    have hfreshAll : ((sortBy (fun e => e.binding.key) (body.entries ++ [entry])).map
        Entry.binding).Pairwise Fresh := by
      refine ((hperm.map Entry.binding).pairwise_iff fun h => h.symm).2 ?_
      refine pairwise_cons.2 ⟨?_, hvalid.fresh⟩
      intro b hb
      obtain ⟨e, he, rfl⟩ := mem_map.1 hb
      exact (hfresh e he).symm
    refine ⟨?_, ?_, ?_, ?_, hfreshAll⟩
    · simpa using hcount
    · intro e he
      rcases mem_cons.1 (hperm.mem_iff.1 he) with rfl | he
      · exact hentry
      · exact hvalid.entries e he
    · intro e he
      rcases mem_cons.1 (hperm.mem_iff.1 he) with rfl | he
      · rw [hincarnation]
        exact UInt64.le_refl _
      · exact hvalid.incarnation e he
    · have hle : ((sortBy (fun e => e.binding.key) (body.entries ++ [entry])).map
          Entry.binding).Pairwise fun a b => a.key ≤ b.key :=
        pairwise_map.2 (pairwise_sortBy _ _)
      refine (hle.and hfreshAll).imp ?_
      rintro a b ⟨hab, hne⟩
      refine lt_of_le_of_ne hab fun heq => ?_
      exact Bool.noConfusion (hne.1.symm.trans (sameNonce_of_key_eq heq))

lemma grows_of_changes (h : Changes call body reply next) : Grows body next := by
  cases h with
  | @advance index entry changed _ hentry hadvance hnext hreply =>
    obtain ⟨hlt, rfl⟩ := List.getElem?_eq_some_iff.1 hentry
    intro e he
    obtain ⟨j, hj, rfl⟩ := mem_iff_getElem.1 he
    by_cases hij : index = j
    · subst hij
      exact ⟨changed, mem_set hlt changed, .inr hadvance⟩
    refine ⟨_, ?_, .inl rfl⟩
    have hget : (body.replace index changed).entries[j]? = some body.entries[j] := by
      simp [Body.replace, getElem?_set_ne hij, getElem?_eq_getElem hj]
    exact mem_of_getElem? hget
  | @insert entry hfresh hincarnation hcount hentry =>
    intro e he
    exact ⟨e, by simp [he], .inl rfl⟩

lemma abandonIncomplete_sound {changed : Entry} (h : abandonIncomplete entry = .ok changed)
    (hvalid : ValidEntry protocol entry) : changed.binding = entry.binding ∧
      ValidEntry protocol changed ∧ (changed = entry ∨ Advance entry changed) := by
  unfold abandonIncomplete at h
  split at h
  · next hincomplete =>
    rw [show LedgerState.abandoned = ReasonState.abandoned.state from rfl] at h
    obtain ⟨hadvance, hchanged⟩ := setReason_sound h hincomplete
    exact ⟨hadvance.binding, hchanged hvalid, .inr hadvance⟩
  · cases h
    exact ⟨rfl, hvalid, .inl rfl⟩

lemma reopen_some (h : reopen (some body) = .ok next) (hvalid : ValidBody protocol body) :
    ValidBody protocol next ∧ Grows body next := by
  simp only [reopen] at h
  split at h
  · next hnext =>
    obtain ⟨entries, hentries, h⟩ := bind_eq_ok.1 h
    cases h
    have hsound : List.Forall₂ (fun e e' => e'.binding = e.binding ∧ ValidEntry protocol e' ∧
        (e' = e ∨ Advance e e')) body.entries entries := by
      refine ((forall₂_and_left _ _).2 ⟨hvalid.entries, mapM_eq_ok.1 hentries⟩).imp ?_
      rintro e e' ⟨he, h⟩
      exact abandonIncomplete_sound h he
    have hbindings : entries.map Entry.binding = body.entries.map Entry.binding :=
      (map_eq_of_forall₂ (hsound.imp fun _ _ h => h.1.symm)).symm
    obtain ⟨hentries', -⟩ := (forall₂_and_left _ _).1 (hsound.flip.imp fun _ _ h => h.2)
    refine ⟨⟨?_, hentries', ?_, hbindings ▸ hvalid.ordered, hbindings ▸ hvalid.fresh⟩, ?_⟩
    · exact hsound.length_eq ▸ hvalid.count
    · intro e' he'
      have hmem : e'.binding ∈ body.entries.map Entry.binding :=
        hbindings ▸ mem_map_of_mem he'
      obtain ⟨e, he, heq⟩ := mem_map.1 hmem
      rw [← heq]
      refine UInt64.le_trans (hvalid.incarnation e he) ?_
      rw [UInt64.le_iff_toNat_le, sequence_succ hnext.1]
      exact Nat.le_succ _
    · intro e he
      obtain ⟨i, hi⟩ := mem_iff_getElem?.1 he
      obtain ⟨e', he', h⟩ := forall₂_getElem? hsound hi
      exact ⟨e', mem_of_getElem? he', h.2.2⟩
  · cases h

end Bodies

end Ostadix.Ledger
