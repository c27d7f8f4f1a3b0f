import Mathlib
import Ostadix.OrdSet

/-! Kahn's algorithm over finite lists, taking the least ready vertex in every round. -/

namespace Ostadix.Kahn

open OrdSet List

variable {V : Type*} [LinearOrder V]

def indegree (es : List (V × V)) (v : V) : ℕ := es.countP (fun e => e.2 = v)

def successors (es : List (V × V)) (v : V) : List V := (es.filter (fun e => e.1 = v)).map Prod.snd

/-- Lower the indegree of each listed vertex; one that reaches zero becomes ready. -/
def release : List V → (V → ℕ) → OrdSet V → (V → ℕ) × OrdSet V
  | [], deg, ready => (deg, ready)
  | v :: vs, deg, ready =>
    release vs (Function.update deg v (deg v - 1))
      (if deg v - 1 = 0 then ready.insert v else ready)

/-- Every round retires one vertex, so the number of vertices is enough fuel. -/
def loop (es : List (V × V)) : ℕ → (V → ℕ) → OrdSet V → List V
  | 0, _, _ => []
  | fuel + 1, deg, ready =>
    match ready.first? with
    | none => []
    | some v =>
      let next := release (successors es v) deg (ready.erase v)
      v :: loop es fuel next.1 next.2

def order (vs : List V) (es : List (V × V)) : List V :=
  loop es vs.length (indegree es) (ofList (vs.filter (fun v => indegree es v = 0)))

lemma release_deg (ss : List V) (deg : V → ℕ) (ready : OrdSet V) (v : V) :
    (release ss deg ready).1 v = deg v - ss.count v := by
  induction ss generalizing deg ready with
  | nil => simp [release]
  | cons s ss ih =>
    rw [release, ih]
    by_cases hv : s = v
    · subst hv
      rw [Function.update_self, count_cons_self]
      omega
    · rw [Function.update_of_ne (Ne.symm hv), count_cons_of_ne hv]

lemma mem_release (ss : List V) (deg : V → ℕ) (ready : OrdSet V) (v : V) :
    v ∈ (release ss deg ready).2 ↔ v ∈ ready ∨ v ∈ ss ∧ deg v - ss.count v = 0 := by
  induction ss generalizing deg ready with
  | nil => simp [release]
  | cons s ss ih =>
    rw [release, ih]
    by_cases hv : s = v
    · subst hv
      rw [Function.update_self, count_cons_self]
      have hmem : s ∈ (if deg s - 1 = 0 then ready.insert s else ready) ↔
          s ∈ ready ∨ deg s - 1 = 0 := by
        split_ifs with h <;> simp [h]
      have hcount : s ∈ ss ∨ ss.count s = 0 := by
        by_cases hs : s ∈ ss
        · exact .inl hs
        · exact .inr (count_eq_zero.2 hs)
      rw [hmem]
      simp only [mem_cons_self, true_and]
      constructor
      · rintro ((h | h) | ⟨-, h⟩)
        · exact .inl h
        · exact .inr (by omega)
        · exact .inr (by omega)
      · rintro (h | h)
        · exact .inl (.inl h)
        · rcases hcount with hs | hs
          · exact .inr ⟨hs, by omega⟩
          · exact .inl (.inr (by omega))
    · have hmem : v ∈ (if deg s - 1 = 0 then ready.insert s else ready) ↔ v ∈ ready := by
        split_ifs
        · simp [Ne.symm hv]
        · rfl
      rw [hmem, Function.update_of_ne (Ne.symm hv), count_cons_of_ne hv]
      simp [Ne.symm hv]

/-! ## The loop invariant -/

/-- The retired vertices in order: none repeats, and the source of every edge into one precedes it.
-/
structure Retired (vs : List V) (es : List (V × V)) (done : List V) : Prop where
  nodup : done.Nodup
  subset : ∀ v ∈ done, v ∈ vs
  before : ∀ pre v suf, done = pre ++ v :: suf → ∀ e ∈ es, e.2 = v → e.1 ∈ pre

local instance lawfulBEq : LawfulBEq V := inferInstance

def pending (es : List (V × V)) (done : List V) (v : V) : ℕ :=
  es.countP (fun e => decide (e.2 = v) && !decide (e.1 ∈ done))

structure Inv (vs : List V) (es : List (V × V)) (done : List V) (deg : V → ℕ)
    (ready : OrdSet V) : Prop where
  deg_eq : ∀ v, deg v = pending es done v
  mem_ready : ∀ v, v ∈ ready ↔ v ∈ vs ∧ v ∉ done ∧ pending es done v = 0

lemma pending_nil (es : List (V × V)) (v : V) : pending es [] v = indegree es v := by
  simp [pending, indegree]

variable {es : List (V × V)} {v : V} {done : List V}

lemma pending_eq_zero : pending es done v = 0 ↔ ∀ e ∈ es, e.2 = v → e.1 ∈ done := by
  simp [pending, countP_eq_zero]

lemma count_successors (es : List (V × V)) (v w : V) :
    (successors es v).count w = es.countP (fun e => decide (e.2 = w) && decide (e.1 = v)) := by
  rw [successors, List.count, countP_map, countP_filter]
  apply countP_congr
  simp

lemma pending_add (es : List (V × V)) (hv : v ∉ done) (w : V) :
    pending es (done ++ [v]) w + (successors es v).count w = pending es done w := by
  rw [count_successors, pending, pending]
  induction es with
  | nil => simp
  | cons e es ih =>
    simp only [countP_cons]
    by_cases hw : e.2 = w <;> by_cases he : e.1 = v <;> simp_all <;> omega

lemma mem_successors {w : V} : w ∈ successors es v ↔ (v, w) ∈ es := by
  simp [successors]

omit [LinearOrder V] in
lemma Retired.closed {vs : List V} (h : Retired vs es done)
    {e : V × V} (he : e ∈ es) (hmem : e.2 ∈ done) : e.1 ∈ done := by
  obtain ⟨pre, suf, hsplit⟩ := append_of_mem hmem
  rw [hsplit]
  exact mem_append_left _ (h.before pre e.2 suf hsplit e he rfl)

omit [LinearOrder V] in
lemma retired_nil (vs : List V) (es : List (V × V)) : Retired vs es [] :=
  ⟨nodup_nil, by simp, by simp⟩

lemma inv_init (vs : List V) (es : List (V × V)) :
    Inv vs es [] (indegree es) (ofList (vs.filter (fun v => indegree es v = 0))) :=
  ⟨fun v => (pending_nil es v).symm, fun v => by simp [pending_nil]⟩

variable {vs : List V} {es : List (V × V)} {done : List V} {deg : V → ℕ} {ready : OrdSet V}

/-- Retiring a ready vertex keeps what is known of the retired ones. -/
lemma Retired.step (h : Retired vs es done) (hi : Inv vs es done deg ready)
    (hv : v ∈ ready) : Retired vs es (done ++ [v]) := by
  obtain ⟨hvs, hnew, hpend⟩ := (hi.mem_ready v).1 hv
  refine ⟨?_, ?_, ?_⟩
  · rw [nodup_append]
    refine ⟨h.nodup, nodup_singleton v, fun a ha b hb => ?_⟩
    rw [List.mem_singleton.1 hb]
    exact fun hab => hnew (hab ▸ ha)
  · intro w hw
    rcases mem_append.1 hw with hw | hw
    · exact h.subset w hw
    · exact List.mem_singleton.1 hw ▸ hvs
  intro pre w suf hsplit e he hew
  rcases append_eq_append_iff.1 hsplit with ⟨mid, hpre, hmid⟩ | ⟨mid, hdone, hmid⟩
  · cases mid with
    | nil =>
      obtain ⟨rfl, -⟩ := List.cons.inj hmid
      rw [hpre, append_nil]
      exact pending_eq_zero.1 hpend e he hew
    | cons a mid =>
      obtain ⟨-, hnil⟩ := List.cons.inj hmid
      simp at hnil
  · cases mid with
    | nil =>
      obtain ⟨rfl, -⟩ := List.cons.inj (hmid : w :: suf = [v])
      rw [append_nil] at hdone
      exact hdone ▸ pending_eq_zero.1 hpend e he hew
    | cons a mid =>
      obtain ⟨rfl, -⟩ := List.cons.inj hmid
      exact h.before pre w mid hdone e he hew

section

variable (hes : ∀ e ∈ es, e.2 ∈ vs)

include hes

lemma Inv.step (h : Retired vs es done) (hi : Inv vs es done deg ready) (hv : v ∈ ready) :
    Inv vs es (done ++ [v]) (release (successors es v) deg (ready.erase v)).1
      (release (successors es v) deg (ready.erase v)).2 := by
  obtain ⟨hvs, hnew, hpend⟩ := (hi.mem_ready v).1 hv
  have hdeg : ∀ w, deg w - (successors es v).count w = pending es (done ++ [v]) w := by
    intro w
    rw [hi.deg_eq, ← pending_add es hnew w, Nat.add_sub_cancel]
  refine ⟨fun w => by rw [release_deg, hdeg], fun w => ?_⟩
  rw [mem_release, hdeg, mem_erase, hi.mem_ready]
  have hadd := pending_add es hnew w
  simp only [mem_append, List.mem_singleton, not_or]
  constructor
  · rintro (⟨⟨hw, hwd, hwp⟩, hne⟩ | ⟨hsucc, hzero⟩)
    · exact ⟨hw, ⟨hwd, hne⟩, by omega⟩
    · have hedge := mem_successors.1 hsucc
      refine ⟨hes _ hedge, ⟨fun hwd => hnew (h.closed hedge hwd), ?_⟩, hzero⟩
      rintro rfl
      exact hnew (pending_eq_zero.1 hpend _ hedge rfl)
  · rintro ⟨hw, ⟨hwd, hne⟩, hzero⟩
    by_cases hcount : (successors es v).count w = 0
    · exact .inl ⟨⟨hw, hwd, by omega⟩, hne⟩
    · exact .inr ⟨count_pos_iff.1 (Nat.pos_of_ne_zero hcount), hzero⟩

/-! ## What a run yields -/

lemma loop_retired (fuel : ℕ) (h : Retired vs es done)
    (hi : Inv vs es done deg ready) : Retired vs es (done ++ loop es fuel deg ready) := by
  induction fuel generalizing done deg ready with
  | zero => simpa [loop] using h
  | succ fuel ih =>
    rw [loop]
    split
    · simpa using h
    rename_i v hfirst
    have hv := (first?_eq_some.1 hfirst).1
    have hrec := ih (h.step hi hv) (hi.step hes h hv)
    simpa using hrec

/-- Whatever the graph, the vertices retired form a topologically sorted prefix. -/
lemma order_retired : Retired vs es (order vs es) := by
  have hrun := loop_retired hes vs.length (retired_nil vs es) (inv_init vs es)
  rwa [nil_append] at hrun

lemma loop_greedy (rest : List V)
    (hperm : ∀ v, v ∈ vs ↔ v ∈ done ∨ v ∈ rest) (hnodup : (done ++ rest).Nodup)
    (hbefore : ∀ pre v suf, rest = pre ++ v :: suf → ∀ e ∈ es, e.2 = v → e.1 ∈ done ++ pre)
    (hleast : ∀ pre v suf, rest = pre ++ v :: suf → ∀ w ∈ suf, w < v →
      ∃ e ∈ es, e.2 = w ∧ e.1 ∈ v :: suf)
    (h : Retired vs es done) (hi : Inv vs es done deg ready) :
    loop es rest.length deg ready = rest := by
  induction rest generalizing done deg ready with
  | nil => rfl
  | cons v rest ih =>
    have hdisj : ∀ w ∈ v :: rest, w ∉ done := fun w hw hd =>
      (nodup_append.1 hnodup).2.2 w hd w hw rfl
    have hpend : pending es done v = 0 := pending_eq_zero.2 fun e he hev => by
      simpa using hbefore [] v rest rfl e he hev
    have hv : v ∈ ready := (hi.mem_ready v).2
      ⟨(hperm v).2 (.inr mem_cons_self), hdisj v mem_cons_self, hpend⟩
    -- a smaller ready vertex would still wait for `v` or for a later vertex
    have hmin : ∀ w ∈ ready, v ≤ w := by
      intro w hw
      obtain ⟨hwvs, hwd, hwp⟩ := (hi.mem_ready w).1 hw
      by_contra hlt
      have hwrest : w ∈ rest := by
        rcases (hperm w).1 hwvs with hw' | hw'
        · exact absurd hw' hwd
        · rcases mem_cons.1 hw' with rfl | hw'
          · exact absurd le_rfl hlt
          · exact hw'
      obtain ⟨e, he, hew, hsrc⟩ := hleast [] v rest rfl w hwrest (not_le.1 hlt)
      exact hdisj e.1 hsrc (pending_eq_zero.1 hwp e he hew)
    rw [length_cons, loop, first?_eq_some.2 ⟨hv, hmin⟩]
    refine congrArg (v :: ·) (ih ?_ ?_ ?_ ?_ (h.step hi hv) (hi.step hes h hv))
    · intro w
      rw [hperm w]
      simp [or_assoc]
    · simpa using hnodup
    · intro pre w suf hsplit e he hew
      simpa using hbefore (v :: pre) w suf (by rw [hsplit]; rfl) e he hew
    · intro pre w suf hsplit
      exact hleast (v :: pre) w suf (by rw [hsplit]; rfl)

end

/-- A list of all vertices is the order found if edges go forward in it and every later, smaller
vertex still waits for an edge. -/
lemma order_eq_of_greedy (l : List V) (hlen : l.length = vs.length)
    (hes : ∀ e ∈ es, e.2 ∈ vs) (hperm : ∀ v, v ∈ vs ↔ v ∈ l) (hnodup : l.Nodup)
    (hbefore : ∀ pre v suf, l = pre ++ v :: suf → ∀ e ∈ es, e.2 = v → e.1 ∈ pre)
    (hleast : ∀ pre v suf, l = pre ++ v :: suf → ∀ w ∈ suf, w < v →
      ∃ e ∈ es, e.2 = w ∧ e.1 ∈ v :: suf) :
    order vs es = l := by
  rw [order, ← hlen]
  exact loop_greedy hes l (by simpa using hperm) (by simpa using hnodup) (by simpa using hbefore)
    hleast (retired_nil vs es) (inv_init vs es)

lemma Retired.idxOf_lt (h : Retired vs es done) {u : V} (he : (u, v) ∈ es)
    (hv : v ∈ done) : done.idxOf u < done.idxOf v := by
  obtain ⟨pre, suf, hsplit, hnew⟩ := eq_append_cons_of_mem hv
  have hu : u ∈ pre := h.before pre v suf hsplit (u, v) he rfl
  rw [hsplit, idxOf_append_of_mem hu, idxOf_append_of_notMem hnew]
  exact Nat.lt_add_right _ (idxOf_lt_length_iff.2 hu)

/-- When as many vertices are retired as there are, all of them are. -/
lemma mem_order_of_length (hes : ∀ e ∈ es, e.2 ∈ vs) (hlen : (order vs es).length = vs.length) :
    ∀ v ∈ vs, v ∈ order vs es := by
  have hretired := order_retired hes
  have hsub : (order vs es).Subperm vs := subperm_of_subset hretired.nodup hretired.subset
  exact fun v hv => (hsub.perm_of_length_le hlen.ge).mem_iff.2 hv

/-- When every vertex is retired, its position ranks it after everything it depends on. -/
lemma exists_rank (hes : ∀ e ∈ es, e.2 ∈ vs) (hlen : (order vs es).length = vs.length) :
    ∃ rank : V → ℕ, ∀ e ∈ es, rank e.1 < rank e.2 := by
  refine ⟨fun v => (order vs es).idxOf v, fun e he => ?_⟩
  exact (order_retired hes).idxOf_lt he (mem_order_of_length hes hlen _ (hes e he))

end Ostadix.Kahn
