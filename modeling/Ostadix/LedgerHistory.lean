import Ostadix.DurableFile
import Ostadix.LedgerValid

/-! Histories of the attempt ledger: calls, crashes while a snapshot is published, and reopening. -/

namespace Ostadix.Ledger

open DurableFile

variable (protocol : Protocol)

/-! ## The ledger and its file -/

structure Environment where
  /-- The directories, the lock and the snapshot can be read and are where they were. -/
  verified : Bool := true
  publication : Publication := .finished
  /-- The directories and the lock are still there after the snapshot was published. -/
  reverified : Bool := true

/-- An open ledger; all its clones share it. -/
structure Handle where
  body : Body
  poisoned : Bool := false

/-- The process of the provider and its disk. The root lock admits one open ledger. -/
structure Machine where
  file : DurableFile Body := ⟨none, []⟩
  handle : Option Handle := none

/-- The guard is held to the end of a call, so concurrent calls take effect one after another. -/
def withMutation (m : Machine) (call : Call protocol) (env : Environment) :
    Machine × Result Reply :=
  match m.handle with
  | none => (m, .error "no ledger is open")
  | some handle =>
    let poison : Machine := { m with handle := some { handle with poisoned := true } }
    match call.mutation protocol with
    | .error e => (m, .error e)
    | .ok mutate =>
      if handle.poisoned then
        (m, .error "Fabric attempt ledger is poisoned and must be reopened")
      else if ¬(env.verified ∧ m.file.newest = some handle.body) then
        (poison, .error "Fabric attempt ledger changed or became corrupt")
      else
        match mutate handle.body with
        | .error e => (m, .error e)
        | .ok (.unchanged reply) => (m, .ok reply)
        | .ok (.changed reply next) =>
          match validateBody protocol next with
          | .error e => (m, .error e)
          | .ok () =>
            let file := m.file.publish next env.publication
            if env.publication = .finished ∧ env.reverified then
              ({ file, handle := some { body := next } }, .ok reply)
            else
              ({ poison with file }, .error "Fabric attempt-ledger durability became ambiguous")

/-- Every opening starts a new incarnation and abandons what was not finished. -/
def openLedger (m : Machine) (env : Environment) : Machine :=
  if m.handle.isSome ∨ ¬env.verified then m
  else
    match (m.file.newest.toList.forM (validateBody protocol)), reopen m.file.newest with
    | .ok (), .ok next =>
      match validateBody protocol next with
      | .error _ => m
      | .ok () =>
        let file := m.file.publish next env.publication
        if env.publication = .finished then { file, handle := some { body := next } }
        else { m with file }
    | _, _ => m

/-- The process dies: one of the contents that were not synced over is left. -/
def Machine.crash (m : Machine) (pick : ℕ) : Machine := { file := m.file.crash pick }

inductive Event where
  | call (call : Call protocol) (env : Environment)
  | openLedger (env : Environment)
  /-- All clones are dropped. -/
  | close
  | crash (pick : ℕ)
  /-- The process dies inside a call or inside an opening, as far as that has got. -/
  | crashInCall (call : Call protocol) (env : Environment) (pick : ℕ)
  | crashInOpen (env : Environment) (pick : ℕ)

def step (m : Machine) : Event protocol → Machine × Option Reply
  | .call call env =>
    let (m, reply) := withMutation protocol m call env
    (m, reply.toOption)
  | .openLedger env => (openLedger protocol m env, none)
  | .close => ({ m with handle := none }, none)
  | .crash pick => (m.crash pick, none)
  | .crashInCall call env pick => ((withMutation protocol m call env).1.crash pick, none)
  | .crashInOpen env pick => ((openLedger protocol m env).crash pick, none)

def run (m : Machine) (events : List (Event protocol)) : Machine :=
  events.foldl (fun m event => (step protocol m event).1) m

def granted : Event protocol → Option Reply → Option AttemptBinding
  | .call (.consumeAndAccept binding) _, some (.acceptance _ true) => some binding.value
  | _, _ => none

def grants (m : Machine) : List (Event protocol) → List AttemptBinding
  | [] => []
  | event :: events =>
    (granted protocol event (step protocol m event).2).toList ++
      grants (step protocol m event).1 events

variable {protocol}

/-! ## What a step can do -/

/-- A call leaves the state, poisons the ledger, or publishes a lawful change. -/
inductive CallStep (protocol : Protocol) (m : Machine) (call : Call protocol) :
    Machine → Result Reply → Prop where
  | refused {e : String} : CallStep protocol m call m (.error e)
  | poisoned {handle : Handle} {e : String} (hhandle : m.handle = some handle) :
    CallStep protocol m call { m with handle := some { handle with poisoned := true } } (.error e)
  | unchanged {handle : Handle} {reply : Reply} (hhandle : m.handle = some handle)
    (hreply : ∀ entry, reply ≠ .acceptance entry true) : CallStep protocol m call m (.ok reply)
  | failed {handle : Handle} {reply : Reply} {next : Body} {e : String}
    (publication : Publication) (hhandle : m.handle = some handle)
    (hfile : m.file.newest = some handle.body) (hnext : Changes call handle.body reply next)
    (hvalid : ValidBody protocol next) : CallStep protocol m call
      ⟨m.file.publish next publication, some { handle with poisoned := true }⟩ (.error e)
  | published {handle : Handle} {mutate : Body → Result Mutation} {reply : Reply} {next : Body}
    (hhandle : m.handle = some handle) (hhealthy : handle.poisoned = false)
    (hfile : m.file.newest = some handle.body) (hcall : call.mutation protocol = .ok mutate)
    (hnext : mutate handle.body = .ok (.changed reply next)) (hvalid : ValidBody protocol next) :
    CallStep protocol m call ⟨⟨some next, []⟩, some { body := next }⟩ (.ok reply)

lemma callStep_withMutation (m : Machine) (call : Call protocol) (env : Environment) :
    CallStep protocol m call (withMutation protocol m call env).1
      (withMutation protocol m call env).2 := by
  unfold withMutation
  split
  · exact .refused
  next handle hhandle =>
  split
  · exact .refused
  next mutate hmutate =>
  split
  · exact .refused
  next hhealthy =>
  split
  · exact .poisoned hhandle
  next hverified =>
  obtain ⟨-, hfile⟩ := not_not.1 hverified
  split
  · exact .refused
  · next reply hreply =>
    exact .unchanged hhandle (lawful_of_mutation hmutate hreply)
  next reply next hnext =>
  have hchanges : Changes call handle.body reply next := lawful_of_mutation hmutate hnext
  split
  · exact .refused
  next hvalid =>
  have hvalid := validateBody_eq_ok.1 hvalid
  split
  · next hfinished =>
    rw [hfinished.1]
    exact .published hhandle (by simpa using hhealthy) hfile hmutate hnext hvalid
  · exact .failed env.publication hhandle hfile hchanges hvalid

/-- An opening leaves the state or publishes the body of the next incarnation. -/
inductive OpenStep (protocol : Protocol) (m : Machine) : Machine → Prop where
  | refused : OpenStep protocol m m
  | failed {next : Body} (publication : Publication) (hclosed : m.handle = none)
    (hnext : reopen m.file.newest = .ok next) (hvalid : ValidBody protocol next) :
    OpenStep protocol m { m with file := m.file.publish next publication }
  | opened {next : Body} (hclosed : m.handle = none) (hnext : reopen m.file.newest = .ok next)
    (hvalid : ValidBody protocol next) :
    OpenStep protocol m ⟨⟨some next, []⟩, some { body := next }⟩

lemma openStep_openLedger (m : Machine) (env : Environment) :
    OpenStep protocol m (openLedger protocol m env) := by
  unfold openLedger
  split
  · exact .refused
  next hopen =>
  have hclosed : m.handle = none := by
    simp only [not_or] at hopen
    simpa using hopen.1
  split
  · next next hread hnext =>
    split
    · exact .refused
    next hvalid =>
    have hvalid := validateBody_eq_ok.1 hvalid
    split
    · next hfinished =>
      rw [hfinished]
      exact .opened hclosed hnext hvalid
    · exact .failed env.publication hclosed hnext hvalid
  · exact .refused

/-! ## Invariant -/

/-- All bodies are valid, and a ledger that is not poisoned is what is durably stored. -/
structure Sound (protocol : Protocol) (m : Machine) : Prop where
  survivors : ∀ x ∈ m.file.survivors, ∀ body ∈ x, ValidBody protocol body
  handle : ∀ handle ∈ m.handle, ValidBody protocol handle.body
  current : ∀ handle ∈ m.handle, handle.poisoned = false → m.file = ⟨some handle.body, []⟩

section Steps

variable {m m' : Machine} {call : Call protocol} {reply : Result Reply} {body : Body}

lemma sound_new : Sound protocol {} := ⟨by simp [DurableFile.survivors], nofun, nofun⟩

lemma Sound.publish (h : Sound protocol m) (hbody : ValidBody protocol body)
    (publication : Publication) :
    ∀ x ∈ (m.file.publish body publication).survivors, ∀ b ∈ x, ValidBody protocol b := by
  apply forall_survivors_publish h.survivors
  intro b hb
  cases hb
  exact hbody

lemma Sound.opened (hbody : ValidBody protocol body) :
    Sound protocol ⟨⟨some body, []⟩, some { body }⟩ := by
  refine ⟨?_, ?_, ?_⟩
  · simpa [DurableFile.survivors] using hbody
  · simpa using hbody
  · simp

lemma Sound.callStep (h : Sound protocol m) (hstep : CallStep protocol m call m' reply) :
    Sound protocol m' := by
  cases hstep with
  | refused => exact h
  | unchanged => exact h
  | poisoned hhandle => exact ⟨h.survivors, by simpa using h.handle _ hhandle, by simp⟩
  | failed publication hhandle hfile hnext hvalid =>
    exact ⟨h.publish hvalid publication, by simpa using h.handle _ hhandle, by simp⟩
  | published hhandle hhealthy hfile hcall hnext hvalid => exact .opened hvalid

lemma Sound.openStep (h : Sound protocol m) (hstep : OpenStep protocol m m') :
    Sound protocol m' := by
  cases hstep with
  | refused => exact h
  | failed publication hclosed hnext hvalid =>
    exact ⟨h.publish hvalid publication, by simp [hclosed], by simp [hclosed]⟩
  | opened hclosed hnext hvalid => exact .opened hvalid

lemma Sound.crash (h : Sound protocol m) (pick : ℕ) : Sound protocol (m.crash pick) :=
  ⟨forall_survivors_crash h.survivors pick, nofun, nofun⟩

lemma Sound.step (h : Sound protocol m) (event : Event protocol) :
    Sound protocol (step protocol m event).1 := by
  cases event with
  | call call env => exact h.callStep (callStep_withMutation m call env)
  | openLedger env => exact h.openStep (openStep_openLedger m env)
  | close => exact ⟨h.survivors, nofun, nofun⟩
  | crash pick => exact h.crash pick
  | crashInCall call env pick => exact (h.callStep (callStep_withMutation m call env)).crash pick
  | crashInOpen env pick => exact (h.openStep (openStep_openLedger m env)).crash pick

lemma Sound.run (h : Sound protocol m) (events : List (Event protocol)) :
    Sound protocol (run protocol m events) := by
  induction events generalizing m with
  | nil => exact h
  | cons event events ih => exact ih (h.step event)

/-- What the second machine may have on its disk was there, or has grown from the newest content of
the first one by one change of each entry at most. -/
def Follows (m m' : Machine) : Prop :=
  ∀ x ∈ m'.file.survivors, x ∈ m.file.survivors ∨
    ∃ next, x = some next ∧ ∀ body ∈ m.file.newest, Grows body next

lemma Follows.refl (m : Machine) (handle : Option Handle) : Follows m { m with handle } :=
  fun _ hx => .inl hx

lemma Follows.publish {next : Body} (hnext : ∀ body ∈ m.file.newest, Grows body next)
    (publication : Publication) (handle : Option Handle) :
    Follows m ⟨m.file.publish next publication, handle⟩ :=
  forall_survivors_publish (fun _ hx => .inl hx) (.inr ⟨next, rfl, hnext⟩) publication

lemma Follows.crash (h : Follows m m') (pick : ℕ) : Follows m (m'.crash pick) :=
  forall_survivors_crash h pick

lemma follows_callStep (hstep : CallStep protocol m call m' reply) : Follows m m' := by
  have hchanges : ∀ (handle : Handle) (r : Reply) (next : Body),
      m.file.newest = some handle.body → Changes call handle.body r next →
      ∀ body ∈ m.file.newest, Grows body next := by
    intro handle r next hfile hnext body hbody
    obtain rfl := some_unique hfile hbody
    exact grows_of_changes hnext
  cases hstep with
  | refused => exact .refl m _
  | unchanged => exact .refl m _
  | poisoned hhandle => exact .refl m _
  | failed publication hhandle hfile hnext hvalid =>
    exact .publish (hchanges _ _ _ hfile hnext) publication _
  | published hhandle hhealthy hfile hcall hnext hvalid =>
    have hlawful := lawful_of_mutation hcall hnext
    exact .publish (hchanges _ _ _ hfile hlawful) .finished _

section

variable (hsound : Sound protocol m)

include hsound

/-- The next incarnation of a body on the disk is valid, and its entries change once at most. -/
lemma Sound.reopen {next : Body} (hnext : reopen m.file.newest = .ok next) :
    ValidBody protocol next ∧ ∀ body ∈ m.file.newest, Grows body next := by
  cases hfile : m.file.newest with
  | none =>
    rw [hfile] at hnext
    cases hnext
    exact ⟨⟨by simp, nofun, nofun, .nil, .nil⟩, nofun⟩
  | some body =>
    have hvalid := hsound.survivors _ m.file.newest_mem_survivors body hfile
    rw [hfile] at hnext
    simpa using reopen_some hnext hvalid

lemma follows_openStep (hstep : OpenStep protocol m m') : Follows m m' := by
  cases hstep with
  | refused => exact .refl m _
  | failed publication hclosed hnext hvalid => exact .publish (hsound.reopen hnext).2 publication _
  | opened hclosed hnext hvalid => exact .publish (hsound.reopen hnext).2 .finished _

lemma follows_step (event : Event protocol) : Follows m (step protocol m event).1 := by
  cases event with
  | call call env => exact follows_callStep (callStep_withMutation m call env)
  | openLedger env => exact follows_openStep hsound (openStep_openLedger m env)
  | close => exact .refl m _
  | crash pick => exact (Follows.refl m _).crash pick
  | crashInCall call env pick =>
    exact (follows_callStep (callStep_withMutation m call env)).crash pick
  | crashInOpen env pick => exact (follows_openStep hsound (openStep_openLedger m env)).crash pick

end

/-- Whatever a crash leaves has evolved from the body. -/
def Keeps (body : Body) (m : Machine) : Prop :=
  ∀ x ∈ m.file.survivors, ∃ b, x = some b ∧ Evolves body b

lemma Keeps.newest (h : Keeps body m) : ∃ b, m.file.newest = some b ∧ Evolves body b :=
  h _ m.file.newest_mem_survivors

lemma keeps_opened (body : Body) (handle : Option Handle) :
    Keeps body ⟨⟨some body, []⟩, handle⟩ := by
  intro x hx
  obtain rfl : x = some body := by simpa [DurableFile.survivors] using hx
  exact ⟨body, rfl, .refl body⟩

lemma Keeps.follows (h : Keeps body m) (hfollows : Follows m m') : Keeps body m' := by
  intro x hx
  rcases hfollows x hx with hx | ⟨next, rfl, hgrows⟩
  · exact h x hx
  · obtain ⟨b, hb, hevolves⟩ := h.newest
    exact ⟨next, rfl, hevolves.grows (hgrows b hb)⟩

lemma Keeps.run (h : Keeps body m) (hsound : Sound protocol m) (events : List (Event protocol)) :
    Keeps body (run protocol m events) := by
  induction events generalizing m with
  | nil => exact h
  | cons event events ih => exact ih (h.follows (follows_step hsound event)) (hsound.step event)

end Steps

/-! ## Lifecycle -/

/-- What can become of an entry: a number of changes, and none after its end. -/
structure Progress (entry later : Entry) : Prop where
  binding : later.binding = entry.binding
  changes : Relation.ReflTransGen Advance entry later
  ended : entry.state.isIncomplete = false → later = entry

variable {entry : Entry}

lemma progress_of_advances {later : Entry} (h : Relation.ReflTransGen Advance entry later) :
    Progress entry later where
  binding := by
    induction h with
    | refl => rfl
    | tail _ hlast ih => exact hlast.binding.trans ih
  changes := h
  ended := by
    intro hended
    rcases h.cases_head with rfl | ⟨next, hfirst, -⟩
    · rfl
    · exact absurd hfirst.incomplete (by simp [hended])

section Grants

variable {m : Machine}

lemma rank_le_of_advances {later : Entry} (h : Relation.ReflTransGen Advance entry later) :
    entry.state.rank ≤ later.state.rank := by
  induction h with
  | refl => exact le_refl _
  | tail _ hlast ih => exact ih.trans hlast.forward.le

lemma acceptance_of_consumeAndAccept {binding : ValidBinding} {body next : Body}
    (h : consumeAndAccept binding body = .ok (.changed (.acceptance entry true) next)) :
    ∃ before ∈ body.entries, before.binding = binding.value ∧ before.state = .validated ∧
      entry ∈ next.entries ∧ entry.binding = binding.value ∧ entry.state = .accepted := by
  rcases atBinding_eq_ok h with ⟨index, before, hbefore, hbinding, h⟩ | ⟨-, h⟩
  · split at h
    · next hstate =>
      simp only [bind_eq_ok] at h
      obtain ⟨_, -, changed, hchanged, h⟩ := h
      obtain ⟨hreply, rfl⟩ := Mutation.changed.inj (Except.ok.inj h)
      obtain ⟨rfl, -⟩ := Reply.acceptance.inj hreply
      obtain ⟨-, rfl⟩ := Entry.setState_eq_ok.1 hchanged
      refine ⟨before, List.mem_of_getElem? hbefore, hbinding, hstate, ?_, hbinding, rfl⟩
      exact List.mem_set (List.getElem?_eq_some_iff.1 hbefore).1 _
    · cases Except.ok.inj h
  · cases h

/-- A grant starts from an entry that is validated, and leaves it accepted on the disk. -/
lemma grant_step {event : Event protocol} {binding : AttemptBinding}
    (h : granted protocol event (step protocol m event).2 = some binding) :
    ∃ body next before entry, m.file.newest = some body ∧ before ∈ body.entries ∧
      before.binding = binding ∧ before.state = .validated ∧
      (step protocol m event).1.file = ⟨some next, []⟩ ∧
      entry ∈ next.entries ∧ entry.binding = binding ∧ entry.state = .accepted := by
  unfold granted at h
  split at h
  · next _ _ requested env accepted hreply =>
    cases h
    have hstep : CallStep protocol m (.consumeAndAccept requested) _ _ :=
      callStep_withMutation m (.consumeAndAccept requested) env
    have hok : (withMutation protocol m (.consumeAndAccept requested) env).2 =
        .ok (.acceptance accepted true) := by
      cases hresult : (withMutation protocol m (.consumeAndAccept requested) env).2 with
      | error e => simp [step, hresult, Except.toOption] at hreply
      | ok reply => simpa [step, hresult, Except.toOption] using hreply
    rw [hok] at hstep
    simp only [step]
    generalize (withMutation protocol m (.consumeAndAccept requested) env).1 = m' at hstep ⊢
    cases hstep with
    | unchanged hhandle hne => exact absurd rfl (hne accepted)
    | @published handle mutate _ next hhandle hhealthy hfile hcall hnext hvalid =>
      cases hcall
      obtain ⟨before, hbefore, hbinding, hstate, hentry⟩ := acceptance_of_consumeAndAccept hnext
      exact ⟨handle.body, next, before, accepted, hfile, hbefore, hbinding, hstate, rfl, hentry⟩
  · cases h

/-- No grant shares a replay key with an entry that was accepted before. -/
lemma grants_fresh {body : Body} (hsound : Sound protocol m)
    (hkeeps : Keeps body m) (hentry : entry ∈ body.entries) (haccepted : 2 ≤ entry.state.rank)
    (events : List (Event protocol)) :
    ∀ binding ∈ grants protocol m events, Fresh entry.binding binding := by
  induction events generalizing m with
  | nil => nofun
  | cons event events ih =>
    intro binding hbinding
    rcases List.mem_append.1 hbinding with hbinding | hbinding
    · obtain ⟨b, -, before, -, hfile, hbefore, rfl, hstate, -⟩ :=
        grant_step (Option.mem_toList.1 hbinding)
      obtain ⟨b', hb', hevolves⟩ := hkeeps.newest
      obtain rfl := some_unique hfile hb'
      obtain ⟨later, hlater, hadvance⟩ := hevolves entry hentry
      -- The old entry is past the state from which an execution is granted.
      have hne : later ≠ before := by
        rintro rfl
        have := rank_le_of_advances hadvance
        rw [hstate] at this
        exact absurd (haccepted.trans this) (by decide)
      have hfresh := (hsound.survivors _ m.file.newest_mem_survivors b hfile).fresh
      rw [← (progress_of_advances hadvance).binding]
      have : Std.Symm fun a b : Entry => Fresh a.binding b.binding := ⟨fun _ _ h => h.symm⟩
      exact (List.pairwise_map.1 hfresh).forall hlater hbefore hne
    · exact ih (hsound.step event) (hkeeps.follows (follows_step hsound event)) binding hbinding

lemma grants_pairwise_fresh (hsound : Sound protocol m) (events : List (Event protocol)) :
    (grants protocol m events).Pairwise Fresh := by
  induction events generalizing m with
  | nil => exact .nil
  | cons event events ih =>
    have hrest := ih (hsound.step event)
    rw [grants]
    cases hgranted : granted protocol event (step protocol m event).2 with
    | none => exact hrest
    | some binding =>
      refine List.pairwise_cons.2 ⟨fun b hb => ?_, hrest⟩
      obtain ⟨-, next, -, entry, -, -, -, -, hfile, hentry, rfl, hstate⟩ := grant_step hgranted
      have hkeeps : Keeps next (step protocol m event).1 := by
        have := keeps_opened next (step protocol m event).1.handle
        rwa [← hfile] at this
      exact grants_fresh (hsound.step event) hkeeps hentry (by rw [hstate]; decide) events b hb

/-- An execution is allowed at most once for a binding, a nonce of an issuer or an attempt of an
issuer. -/
theorem grants_at_most_once (protocol : Protocol) (events : List (Event protocol)) :
    (grants protocol {} events).Pairwise fun a b => a ≠ b ∧
      ¬(a.issuerKeyId = b.issuerKeyId ∧ a.leaseNonce = b.leaseNonce) ∧
      ¬(a.issuerKeyId = b.issuerKeyId ∧ a.attempt = b.attempt) := by
  refine (grants_pairwise_fresh sound_new events).imp fun {a b} hfresh => ⟨?_, ?_, ?_⟩
  · rintro rfl
    exact not_fresh_self a hfresh
  · rintro ⟨hissuer, hnonce⟩
    simp [Fresh, AttemptBinding.sameNonce, hissuer, hnonce] at hfresh
  · rintro ⟨hissuer, hattempt⟩
    simp [Fresh, AttemptBinding.sameAttempt, hissuer, hattempt] at hfresh

end Grants

/-! ## A sample history -/

def sampleDigest : Sha256Digest := ⟨List.replicate 32 1, rfl⟩

def sampleText : SemanticDigest :=
  ⟨"00000000000000000000000000000000000000000000000000000000000000aa", by decide +kernel⟩

lemma sampleIncarnation_ne_zero : (1 : UInt64) ≠ 0 := UInt64.zero_ne_one.symm

def sampleIncarnation : NonZero := ⟨1, sampleIncarnation_ne_zero⟩

def sampleBinding : ValidBinding where
  value := ⟨sampleText, ⟨⟨sampleDigest, sampleDigest⟩, 1⟩, sampleText, sampleText, sampleDigest,
    sampleDigest, sampleDigest, "node", sampleIncarnation, sampleIncarnation⟩
  valid := by decide +kernel

/-- One candidate, written as one byte for the header and one for the payload. -/
def sampleProtocol : Protocol where
  TerminalCandidate := Unit
  receipt _ := ⟨sampleText, ⟨⟨sampleDigest, sampleDigest⟩, 1⟩, sampleText, sampleDigest,
    sampleDigest, sampleDigest, "node", sampleIncarnation, sampleIncarnation⟩
  validate _ := .ok ()
  encodeResponse _ := .ok ([0], [0])
  decodeResponse _ _ := .ok ()
  terminalPartsSha256 _ _ := sampleDigest

def sampleAccepted : List (Event sampleProtocol) :=
  [.openLedger {}, .call (.recordReceived sampleBinding) {},
    .call (.recordValidated sampleBinding) {}, .call (.consumeAndAccept sampleBinding) {}]

/-- The provider crashes after the acceptance and is asked again. -/
def sampleReplayed : List (Event sampleProtocol) :=
  [.crash 0, .openLedger {}, .call (.consumeAndAccept sampleBinding) {}]

theorem grants_at_most_once_replayed :
    grants sampleProtocol {} (sampleAccepted ++ sampleReplayed) = [sampleBinding.value] ∧
      (grants sampleProtocol {} (sampleAccepted ++ sampleReplayed)).Pairwise (· ≠ ·) :=
  ⟨by decide +kernel, (grants_at_most_once sampleProtocol _).imp And.left⟩

end Ostadix.Ledger
