import Ostadix.Basic
import Mathlib.Data.Finset.Card
import Mathlib.Data.Set.Basic

/-! Chaotic iteration: fallible steps that add knowledge, in passes until one changes nothing. -/

namespace Ostadix.Chaotic

open Finset List

variable {ι S F ε : Type}

/-- Visit the steps of a list in turn; the flag says whether one of them changed the state. -/
def pass (step : ι → S → Except ε (S × Bool)) : List ι → S → Except ε (S × Bool)
  | [], s => .ok (s, false)
  | i :: l, s => do
    let (s₁, changed) ← step i s
    let (s₂, later) ← pass step l s₁
    return (s₂, changed || later)

/-- Passes until one changes nothing. The pass before which `n` are left visits `order n`; the
result says how many are left. -/
def converge (exhausted : ε) (step : ι → S → Except ε (S × Bool)) (order : ℕ → List ι) :
    ℕ → S → Except ε (S × ℕ)
  | 0, _ => .error exhausted
  | left + 1, s => do
    let (s', changed) ← pass step (order (left + 1)) s
    if changed then converge exhausted step order left s' else return (s', left)

/-- Steps of `I` add to what is known. States with `P` are determined by what is known, and every
change adds something of the finite set `U`. -/
structure Learning (step : ι → S → Except ε (S × Bool)) (I : Set ι) (known : S → Set F)
    (P : S → Prop) (U : Finset F) : Prop where
  inj : ∀ s t, P s → P t → known s = known t → s = t
  keeps : ∀ i ∈ I, ∀ s t changed, P s → step i s = .ok (t, changed) → P t ∧ known s ⊆ known t
  still : ∀ i ∈ I, ∀ s t, P s → step i s = .ok (t, false) → t = s
  learns : ∀ i ∈ I, ∀ s t, P s → step i s = .ok (t, true) → ∃ f ∈ U, f ∈ known t ∧ f ∉ known s
  /-- Below a state that the step leaves alone it succeeds and stays below. -/
  below : ∀ i ∈ I, ∀ s t, P s → P t → known s ⊆ known t → step i t = .ok (t, false) →
    ∃ s' changed, step i s = .ok (s', changed) ∧ known s' ⊆ known t

/-- The steps of `I` leave the state alone. -/
def Closed (step : ι → S → Except ε (S × Bool)) (I : Set ι) (s : S) : Prop :=
  ∀ i ∈ I, step i s = .ok (s, false)

def Visits (order : ℕ → List ι) (I : Set ι) : Prop := ∀ n i, i ∈ order n ↔ i ∈ I

open Classical in
noncomputable def missing (known : S → Set F) (U : Finset F) (s : S) : ℕ :=
  (U.filter fun f => f ∉ known s).card

lemma missing_le (known : S → Set F) (U : Finset F) (s : S) : missing known U s ≤ U.card := by
  classical
  exact card_filter_le U fun f => f ∉ known s

variable {s t : S}

lemma missing_lt {known : S → Set F} {U : Finset F} (hle : known s ⊆ known t)
    (hnew : ∃ f ∈ U, f ∈ known t ∧ f ∉ known s) : missing known U t < missing known U s := by
  classical
  obtain ⟨f, hU, ht, hs⟩ := hnew
  apply card_lt_card
  rw [ssubset_iff_of_subset]
  · exact ⟨f, mem_filter.2 ⟨hU, hs⟩, fun hmem => (mem_filter.1 hmem).2 ht⟩
  · intro g hg
    obtain ⟨hgU, hgt⟩ := mem_filter.1 hg
    exact mem_filter.2 ⟨hgU, fun hgs => hgt (hle hgs)⟩

/-! ## Passes -/

variable {l : List ι}

section Pass

variable {step : ι → S → Except ε (S × Bool)}

lemma pass_cons_eq_ok {i : ι} {changed : Bool} : pass step (i :: l) s = .ok (t, changed) ↔
      ∃ s₁ now later, step i s = .ok (s₁, now) ∧ pass step l s₁ = .ok (t, later) ∧
        changed = (now || later) := by
  simp only [pass, bind_eq_ok, Prod.exists]
  constructor
  · rintro ⟨s₁, now, hstep, s₂, later, hrest, heq⟩
    cases heq
    exact ⟨s₁, now, later, hstep, hrest, rfl⟩
  · rintro ⟨s₁, now, later, hstep, hrest, rfl⟩
    exact ⟨s₁, now, hstep, t, later, hrest, rfl⟩

variable {I : Set ι} {known : S → Set F} {P : S → Prop} {U : Finset F}

lemma pass_of_still (hl : ∀ i ∈ l, step i s = .ok (s, false)) : pass step l s = .ok (s, false) := by
  induction l with
  | nil => rfl
  | cons i l ih =>
    obtain ⟨hstep, hl⟩ := forall_mem_cons.1 hl
    exact pass_cons_eq_ok.2 ⟨s, false, false, hstep, ih hl, rfl⟩

variable (h : Learning step I known P U)

include h

lemma pass_keeps (hl : ∀ i ∈ l, i ∈ I) {changed : Bool} (hs : P s)
    (hpass : pass step l s = .ok (t, changed)) : P t ∧ known s ⊆ known t := by
  induction l generalizing s changed with
  | nil =>
    cases hpass
    exact ⟨hs, subset_rfl⟩
  | cons i l ih =>
    obtain ⟨hi, hl⟩ := forall_mem_cons.1 hl
    obtain ⟨s₁, now, later, hstep, hrest, -⟩ := pass_cons_eq_ok.1 hpass
    obtain ⟨hs₁, hle⟩ := h.keeps i hi s s₁ now hs hstep
    obtain ⟨ht, hle'⟩ := ih hl hs₁ hrest
    exact ⟨ht, hle.trans hle'⟩

/-- A pass without a change visited every step at the same state. -/
lemma pass_still (hl : ∀ i ∈ l, i ∈ I) (hs : P s)
    (hpass : pass step l s = .ok (t, false)) : t = s ∧ ∀ i ∈ l, step i s = .ok (s, false) := by
  induction l with
  | nil =>
    cases hpass
    exact ⟨rfl, by simp⟩
  | cons i l ih =>
    obtain ⟨hi, hl⟩ := forall_mem_cons.1 hl
    obtain ⟨s₁, now, later, hstep, hrest, hflag⟩ := pass_cons_eq_ok.1 hpass
    obtain ⟨rfl, rfl⟩ := Bool.or_eq_false_iff.1 hflag.symm
    obtain rfl := h.still i hi s s₁ hs hstep
    obtain ⟨rfl, hstill⟩ := ih hl hrest
    exact ⟨rfl, forall_mem_cons.2 ⟨hstep, hstill⟩⟩

lemma pass_learns (hl : ∀ i ∈ l, i ∈ I) (hs : P s)
    (hpass : pass step l s = .ok (t, true)) : ∃ f ∈ U, f ∈ known t ∧ f ∉ known s := by
  induction l generalizing s with
  | nil => cases hpass
  | cons i l ih =>
    obtain ⟨hi, hl⟩ := forall_mem_cons.1 hl
    obtain ⟨s₁, now, later, hstep, hrest, hflag⟩ := pass_cons_eq_ok.1 hpass
    obtain ⟨hs₁, hle⟩ := h.keeps i hi s s₁ now hs hstep
    cases now with
    | true =>
      obtain ⟨f, hU, hf, hnew⟩ := h.learns i hi s s₁ hs hstep
      exact ⟨f, hU, (pass_keeps h hl hs₁ hrest).2 hf, hnew⟩
    | false =>
      obtain rfl : later = true := hflag.symm
      obtain ⟨f, hU, hf, hnew⟩ := ih hl hs₁ hrest
      exact ⟨f, hU, hf, fun hfs => hnew (hle hfs)⟩

lemma pass_error (hl : ∀ i ∈ l, i ∈ I) {e : ε} (hs : P s) (hpass : pass step l s = .error e) :
    ∃ i ∈ I, ∃ t, P t ∧ step i t = .error e := by
  induction l generalizing s with
  | nil => cases hpass
  | cons i l ih =>
    obtain ⟨hi, hl⟩ := forall_mem_cons.1 hl
    rcases bind_eq_error.1 hpass with hstep | ⟨⟨s₁, now⟩, hstep, hrest⟩
    · exact ⟨i, hi, s, hs, hstep⟩
    · rcases bind_eq_error.1 hrest with hrest | ⟨_, _, hpure⟩
      · exact ih hl (h.keeps i hi s s₁ now hs hstep).1 hrest
      · cases hpure

lemma pass_below (hl : ∀ i ∈ l, i ∈ I) (hs : P s) (ht : P t)
    (hle : known s ⊆ known t) (hstill : ∀ i ∈ l, step i t = .ok (t, false)) :
    ∃ s' changed, pass step l s = .ok (s', changed) ∧ known s' ⊆ known t := by
  induction l generalizing s with
  | nil => exact ⟨s, false, rfl, hle⟩
  | cons i l ih =>
    obtain ⟨hi, hl⟩ := forall_mem_cons.1 hl
    obtain ⟨hstill, hstill'⟩ := forall_mem_cons.1 hstill
    obtain ⟨s₁, now, hstep, hle₁⟩ := h.below i hi s t hs ht hle hstill
    obtain ⟨s₂, later, hrest, hle₂⟩ := ih hl (h.keeps i hi s s₁ now hs hstep).1 hle₁ hstill'
    exact ⟨s₂, now || later, pass_cons_eq_ok.2 ⟨s₁, now, later, hstep, hrest, rfl⟩, hle₂⟩

/-- A step that reads off the state which smaller steps to make, and then makes them. -/
def batch {κ : Type} (steps : κ → S → Except ε (List ι)) (step : ι → S → Except ε (S × Bool))
    (k : κ) (s : S) : Except ε (S × Bool) := do
  pass step (← steps k s) s

/-- The smaller steps of a batch can be read off every state; where more is known they ask no less.
-/
structure Batched {κ : Type} (steps : κ → S → Except ε (List ι))
    (step : ι → S → Except ε (S × Bool)) (I : Set ι) (known : S → Set F) (P : S → Prop) : Prop where
  reads : ∀ k s, P s → ∃ l, steps k s = .ok l ∧ ∀ i ∈ l, i ∈ I
  mono : ∀ k s t l m, P s → P t → known s ⊆ known t → steps k s = .ok l → steps k t = .ok m →
    (∀ i ∈ m, step i t = .ok (t, false)) → ∀ i ∈ l, step i t = .ok (t, false)

omit h in
lemma Learning.batch {κ : Type} {steps : κ → S → Except ε (List ι)}
    (h : Learning step I known P U) (hsteps : Batched steps step I known P) (K : Set κ) :
    Learning (Chaotic.batch steps step) K known P U := by
  have hread : ∀ k s r, P s → Chaotic.batch steps step k s = .ok r →
      ∃ l, steps k s = .ok l ∧ (∀ i ∈ l, i ∈ I) ∧ pass step l s = .ok r := by
    intro k s r hs hbatch
    obtain ⟨l, hl, hpass⟩ := bind_eq_ok.1 hbatch
    obtain ⟨l', hl', hmem⟩ := hsteps.reads k s hs
    cases hl.symm.trans hl'
    exact ⟨l, hl, hmem, hpass⟩
  refine ⟨h.inj, ?_, ?_, ?_, ?_⟩
  · intro k _ s t changed hs hbatch
    obtain ⟨l, -, hmem, hpass⟩ := hread k s _ hs hbatch
    exact pass_keeps h hmem hs hpass
  · intro k _ s t hs hbatch
    obtain ⟨l, -, hmem, hpass⟩ := hread k s _ hs hbatch
    exact (pass_still h hmem hs hpass).1
  · intro k _ s t hs hbatch
    obtain ⟨l, -, hmem, hpass⟩ := hread k s _ hs hbatch
    exact pass_learns h hmem hs hpass
  · intro k _ s t hs ht hle hbatch
    obtain ⟨m, hm, hmem, hpass⟩ := hread k t _ ht hbatch
    obtain ⟨l, hl, hmem'⟩ := hsteps.reads k s hs
    have hstill := hsteps.mono k s t l m hs ht hle hl hm (pass_still h hmem ht hpass).2
    obtain ⟨s', changed, hpass', hle'⟩ := pass_below h hmem' hs ht hle hstill
    exact ⟨s', changed, bind_eq_ok.2 ⟨l, hl, hpass'⟩, hle'⟩

end Pass

/-! ## Convergence -/

variable {n : ℕ}

section Converge

variable {step : ι → S → Except ε (S × Bool)} {known : S → Set F} {P : S → Prop} {U : Finset F}
  {exhausted : ε} {I : Set ι} {order order' : ℕ → List ι}

lemma converge_succ_eq_ok {left left' : ℕ} :
    converge exhausted step order (left + 1) s = .ok (t, left') ↔
      (pass step (order (left + 1)) s = .ok (t, false) ∧ left' = left) ∨
        ∃ s', pass step (order (left + 1)) s = .ok (s', true) ∧
          converge exhausted step order left s' = .ok (t, left') := by
  simp only [converge, bind_eq_ok, Prod.exists, Bool.exists_bool]
  constructor
  · rintro ⟨s', ⟨hpass, hrest⟩ | ⟨hpass, hrest⟩⟩
    · cases hrest
      exact .inl ⟨hpass, rfl⟩
    · exact .inr ⟨s', hpass, hrest⟩
  · rintro (⟨hpass, rfl⟩ | ⟨s', hpass, hrest⟩)
    · exact ⟨t, .inl ⟨hpass, rfl⟩⟩
    · exact ⟨s', .inr ⟨hpass, hrest⟩⟩

lemma converge_closed (hvisits : Visits order I) (hclosed : Closed step I s) :
    converge exhausted step order (n + 1) s = .ok (s, n) :=
  converge_succ_eq_ok.2
    (.inl ⟨pass_of_still fun i hi => hclosed i ((hvisits (n + 1) i).1 hi), rfl⟩)

variable (h : Learning step I known P U) (hvisits : Visits order I)

include h hvisits

/-- The result is closed, and every pass but the last one learned something. -/
lemma converge_ok {n' : ℕ} (hs : P s) (hrun : converge exhausted step order n s = .ok (t, n')) :
    P t ∧ known s ⊆ known t ∧ Closed step I t ∧
      n + missing known U t ≤ n' + 1 + missing known U s := by
  induction n generalizing s with
  | zero => cases hrun
  | succ n ih =>
    have hmem : ∀ i ∈ order (n + 1), i ∈ I := fun i hi => (hvisits _ i).1 hi
    rcases converge_succ_eq_ok.1 hrun with ⟨hpass, rfl⟩ | ⟨s', hpass, hrest⟩
    · obtain ⟨rfl, hl⟩ := pass_still h hmem hs hpass
      exact ⟨hs, subset_rfl, fun i hi => hl i ((hvisits _ i).2 hi), le_rfl⟩
    obtain ⟨hs', hle⟩ := pass_keeps h hmem hs hpass
    have hlt := missing_lt hle (pass_learns h hmem hs hpass)
    obtain ⟨ht, hle', hclosed, hcount⟩ := ih hs' hrest
    exact ⟨ht, hle.trans hle', hclosed, by omega⟩

/-- With more passes than there is to learn, only a step can fail. -/
lemma converge_error {e : ε} (hs : P s) (hn : missing known U s < n)
    (hrun : converge exhausted step order n s = .error e) :
    ∃ i ∈ I, ∃ t, P t ∧ step i t = .error e := by
  induction n generalizing s with
  | zero => omega
  | succ n ih =>
    have hmem : ∀ i ∈ order (n + 1), i ∈ I := fun i hi => (hvisits _ i).1 hi
    rcases bind_eq_error.1 hrun with hpass | ⟨⟨s', changed⟩, hpass, hrest⟩
    · exact pass_error h hmem hs hpass
    cases changed with
    | false => cases hrest
    | true =>
      obtain ⟨hs', hle⟩ := pass_keeps h hmem hs hpass
      have hlt := missing_lt hle (pass_learns h hmem hs hpass)
      exact ih hs' (by omega) hrest

/-- Below a closed state the iteration cannot fail. -/
lemma converge_below (hs : P s) (ht : P t) (hle : known s ⊆ known t)
    (hclosed : Closed step I t) (hn : missing known U s < n) :
    ∃ s' n', converge exhausted step order n s = .ok (s', n') ∧ known s' ⊆ known t := by
  induction n generalizing s with
  | zero => omega
  | succ n ih =>
    have hmem : ∀ i ∈ order (n + 1), i ∈ I := fun i hi => (hvisits _ i).1 hi
    obtain ⟨s', changed, hpass, hle'⟩ :=
      pass_below h hmem hs ht hle fun i hi => hclosed i (hmem i hi)
    cases changed with
    | false => exact ⟨s', n, converge_succ_eq_ok.2 (.inl ⟨hpass, rfl⟩), hle'⟩
    | true =>
      obtain ⟨hs', hgrow⟩ := pass_keeps h hmem hs hpass
      have hlt := missing_lt hgrow (pass_learns h hmem hs hpass)
      obtain ⟨r, n', hrest, hr⟩ := ih hs' hle' (by omega)
      exact ⟨r, n', converge_succ_eq_ok.2 (.inr ⟨s', hpass, hrest⟩), hr⟩

/-- Whatever the order of the visits, the result is the least closed state above the start. -/
lemma converge_unique (hvisits' : Visits order' I) {t : S} {n' m : ℕ} (hs : P s)
    (hn : missing known U s < n) (hm : missing known U s < m)
    (hrun : converge exhausted step order n s = .ok (t, n')) :
    ∃ m', converge exhausted step order' m s = .ok (t, m') := by
  obtain ⟨ht, hle, hclosed, -⟩ := converge_ok h hvisits hs hrun
  obtain ⟨r, m', hrun', hrt⟩ := converge_below h hvisits' hs ht hle hclosed hm
  obtain ⟨hr, hle', hclosed', -⟩ := converge_ok h hvisits' hs hrun'
  obtain ⟨t', k, hagain, htr⟩ : ∃ t' k, converge exhausted step order n s = .ok (t', k) ∧
      known t' ⊆ known r := converge_below h hvisits hs hr hle' hclosed' hn
  -- The first run is deterministic, so both results lie below each other.
  cases hrun.symm.trans hagain
  obtain rfl := h.inj r t hr ht (hrt.antisymm htr)
  exact ⟨m', hrun'⟩

end Converge

end Ostadix.Chaotic
