import Ostadix.Kahn
import Mathlib.Data.List.Range
import Mathlib.Tactic.Linarith

/-! Ordered forests numbered in preorder. Subtrees are intervals, and post-order is the order in
which they close. -/

namespace Ostadix

open List

/-- A forest is empty, or a first tree with its label and children, and the trees after it. -/
inductive Forest (α : Type*) where
  | nil
  | cons (label : α) (children siblings : Forest α)

namespace Forest

variable {α : Type*}

def size : Forest α → ℕ
  | nil => 0
  | cons _ c s => c.size + 1 + s.size

def preorder : Forest α → List α
  | nil => []
  | cons a c s => a :: (c.preorder ++ s.preorder)

def subforests : Forest α → List (Forest α)
  | nil => []
  | cons _ c s => c :: (c.subforests ++ s.subforests)

def roots (n : ℕ) : Forest α → List ℕ
  | nil => []
  | cons _ c s => n :: roots (n + 1 + c.size) s

/-- Left-to-right post-order of the forest numbered from `n` on. -/
def postOrder (n : ℕ) : Forest α → List ℕ
  | nil => []
  | cons _ c s => postOrder (n + 1) c ++ n :: postOrder (n + 1 + c.size) s

def childrenOf (F : Forest α) (p : ℕ) : List ℕ :=
  match F.subforests[p]? with
  | some c => roots (p + 1) c
  | none => []

def stop (F : Forest α) (p : ℕ) : ℕ :=
  match F.subforests[p]? with
  | some c => p + 1 + c.size
  | none => p + 1

@[simp] lemma length_preorder (F : Forest α) : F.preorder.length = F.size := by
  induction F with
  | nil => rfl
  | cons a c s ihc ihs => simp [preorder, size, ihc, ihs]; omega

@[simp] lemma length_subforests (F : Forest α) : F.subforests.length = F.size := by
  induction F with
  | nil => rfl
  | cons a c s ihc ihs => simp [subforests, size, ihc, ihs]; omega

@[simp] lemma length_postOrder (n : ℕ) (F : Forest α) : (F.postOrder n).length = F.size := by
  induction F generalizing n with
  | nil => rfl
  | cons a c s ihc ihs => simp [postOrder, size, ihc, ihs]; omega

variable {n p u v : ℕ}

lemma mem_postOrder {F : Forest α} : v ∈ F.postOrder n ↔ n ≤ v ∧ v < n + F.size := by
  induction F generalizing n with
  | nil => simp [postOrder, size]
  | cons a c s ihc ihs =>
    simp only [postOrder, size, mem_append, mem_cons, ihc, ihs]
    omega

/-! ## Subtrees as intervals -/

/-- `G` sits in `F` with its first node numbered `n`. -/
def Sits (F : Forest α) (n : ℕ) (G : Forest α) : Prop :=
  (∃ rest, F.subforests.drop n = G.subforests ++ rest) ∧
    ∃ rest, F.preorder.drop n = G.preorder ++ rest

lemma Sits.of_children {d G : Forest α} (h : d.Sits n G) (hn : n ≤ d.size) (a : α) (s : Forest α) :
    (cons a d s).Sits (n + 1) G := by
  obtain ⟨⟨rest, hrest⟩, ⟨rest', hrest'⟩⟩ := h
  refine ⟨⟨rest ++ s.subforests, ?_⟩, ⟨rest' ++ s.preorder, ?_⟩⟩
  · rw [subforests, drop_succ_cons, drop_append_of_le_length (by simpa using hn), hrest,
      append_assoc]
  · rw [preorder, drop_succ_cons, drop_append_of_le_length (by simpa using hn), hrest',
      append_assoc]

lemma Sits.of_siblings {s G : Forest α} (h : s.Sits n G) (a : α) (d : Forest α) :
    (cons a d s).Sits (d.size + n + 1) G := by
  obtain ⟨⟨rest, hrest⟩, ⟨rest', hrest'⟩⟩ := h
  refine ⟨⟨rest, ?_⟩, ⟨rest', ?_⟩⟩
  · rw [subforests, drop_succ_cons, ← length_subforests d, ← drop_drop, drop_left, hrest]
  · rw [preorder, drop_succ_cons, ← length_preorder d, ← drop_drop, drop_left, hrest']

/-- What follows a node in preorder starts with the nodes below it. -/
lemma sits_of_subforest {F : Forest α} {c : Forest α} (h : F.subforests[p]? = some c) :
    F.Sits (p + 1) c := by
  induction F generalizing p with
  | nil => simp [subforests] at h
  | cons a d s ihd ihs =>
    cases p with
    | zero =>
      obtain rfl : d = c := by simpa [subforests] using h
      exact ⟨⟨s.subforests, by simp [subforests]⟩, ⟨s.preorder, by simp [preorder]⟩⟩
    | succ q =>
      rw [subforests, getElem?_cons_succ] at h
      by_cases hq : q < d.size
      · rw [getElem?_append_left (by simpa using hq)] at h
        exact (ihd h).of_children hq a s
      · rw [getElem?_append_right (by simpa using hq), length_subforests] at h
        have := (ihs h).of_siblings a d
        rwa [show d.size + (q - d.size + 1) + 1 = q + 1 + 1 by omega] at this

variable {F c : Forest α}

lemma subforests_inside (h : F.subforests[p]? = some c) (hv : p < v) (hlt : v < p + 1 + c.size) :
    F.subforests[v]? = c.subforests[v - (p + 1)]? := by
  obtain ⟨⟨rest, hrest⟩, -⟩ := sits_of_subforest h
  have hget : (F.subforests.drop (p + 1))[v - (p + 1)]? = F.subforests[v]? := by
    rw [getElem?_drop, show p + 1 + (v - (p + 1)) = v by omega]
  rw [← hget, hrest, getElem?_append_left (by rw [length_subforests]; omega)]

lemma stop_eq (h : F.subforests[p]? = some c) : F.stop p = p + 1 + c.size := by
  simp [stop, h]

lemma exists_subforests (h : p < F.size) : ∃ c, F.subforests[p]? = some c :=
  ⟨_, getElem?_eq_getElem (by simpa using h)⟩

lemma lt_size_of_subforests (h : F.subforests[p]? = some c) : p < F.size := by
  simpa using (List.getElem?_eq_some_iff.1 h).1

lemma lt_stop (F : Forest α) (p : ℕ) : p < F.stop p := by
  unfold stop
  split <;> omega

lemma subforests_size_le (h : F.subforests[p]? = some c) : p + 1 + c.size ≤ F.size := by
  obtain ⟨⟨rest, hrest⟩, -⟩ := sits_of_subforest h
  have hp := lt_size_of_subforests h
  have hlen := congrArg List.length hrest
  rw [length_drop, length_append, length_subforests, length_subforests] at hlen
  omega

lemma stop_le_size (h : p < F.size) : F.stop p ≤ F.size := by
  obtain ⟨c, hc⟩ := exists_subforests h
  rw [stop_eq hc]
  exact subforests_size_le hc

/-- Subtrees are nested or disjoint. -/
lemma stop_le_stop (hp : p < F.size) (hv : p ≤ v) (hlt : v < F.stop p) : F.stop v ≤ F.stop p := by
  obtain ⟨c, hc⟩ := exists_subforests hp
  rcases Nat.eq_or_lt_of_le hv with rfl | hv
  · exact le_rfl
  rw [stop_eq hc] at hlt ⊢
  obtain ⟨d, hd⟩ := exists_subforests (F := c) (p := v - (p + 1)) (by omega)
  have hin := (subforests_inside hc hv hlt).trans hd
  rw [stop_eq hin]
  have := subforests_size_le hd
  omega

lemma sits_self (F : Forest α) : F.Sits 0 F := ⟨⟨[], by simp⟩, ⟨[], by simp⟩⟩

section Sits

variable {F c s : Forest α} {n : ℕ} {a : α}

section

variable (h : F.Sits n (cons a c s))

include h

lemma Sits.subforest : F.subforests[n]? = some c := by
  obtain ⟨⟨rest, hrest⟩, -⟩ := h
  have := congrArg (fun l => l[0]?) hrest
  simpa [subforests, getElem?_drop] using this

lemma Sits.label : F.preorder[n]? = some a := by
  obtain ⟨-, ⟨rest, hrest⟩⟩ := h
  have := congrArg (fun l => l[0]?) hrest
  simpa [preorder, getElem?_drop] using this

lemma Sits.children : F.Sits (n + 1) c := by
  obtain ⟨⟨rest, hrest⟩, ⟨rest', hrest'⟩⟩ := h
  refine ⟨⟨s.subforests ++ rest, ?_⟩, ⟨s.preorder ++ rest', ?_⟩⟩
  · rw [← drop_drop, hrest]
    simp [subforests]
  · rw [← drop_drop, hrest']
    simp [preorder]

lemma Sits.siblings : F.Sits (n + 1 + c.size) s := by
  obtain ⟨⟨rest, hrest⟩, ⟨rest', hrest'⟩⟩ := h
  refine ⟨⟨rest, ?_⟩, ⟨rest', ?_⟩⟩
  · rw [← drop_drop, ← drop_drop, hrest, ← length_subforests c]
    simp [subforests]
  · rw [← drop_drop, ← drop_drop, hrest', ← length_preorder c]
    simp [preorder]

lemma Sits.lt_size : n < F.size := by
  simpa using (List.getElem?_eq_some_iff.1 h.subforest).1

end

end Sits

/-! ## Roots and children -/

lemma mem_roots {r : ℕ} {F : Forest α} (h : r ∈ F.roots n) : n ≤ r ∧ r < n + F.size := by
  induction F generalizing n with
  | nil => simp [roots] at h
  | cons a c s _ ihs =>
    rw [size]
    rcases mem_cons.1 h with rfl | h
    · omega
    · have := ihs h
      omega

lemma exists_root {F : Forest α} (hn : n ≤ v) (hlt : v < n + F.size) :
    ∃ r ∈ F.roots n, r ≤ v ∧ ∃ c, F.subforests[r - n]? = some c ∧ v < r + 1 + c.size := by
  induction F generalizing n with
  | nil => simp [size] at hlt; omega
  | cons a c s _ ihs =>
    rw [size] at hlt
    by_cases hv : v < n + 1 + c.size
    · exact ⟨n, mem_cons_self, hn, c, by simp [subforests], hv⟩
    obtain ⟨r, hr, hle, d, hd, hlt'⟩ := ihs (n := n + 1 + c.size) (by omega) (by omega)
    have hr' := mem_roots hr
    refine ⟨r, mem_cons_of_mem _ hr, hle, d, ?_, hlt'⟩
    rw [subforests, show r - n = (r - (n + 1 + c.size) + c.subforests.length) + 1 by
      rw [length_subforests]; omega, getElem?_cons_succ, getElem?_append_right (by omega),
      Nat.add_sub_cancel, hd]

lemma mem_childrenOf {r : ℕ} (h : r ∈ F.childrenOf p) : p < F.size ∧ p < r ∧ r < F.stop p := by
  unfold childrenOf at h
  split at h
  · next c hc =>
    have := mem_roots h
    rw [stop_eq hc]
    exact ⟨lt_size_of_subforests hc, by omega, by omega⟩
  · simp at h

lemma exists_child (hp : p < F.size) (hv : p < v) (hlt : v < F.stop p) :
    ∃ r ∈ F.childrenOf p, r ≤ v ∧ v < F.stop r := by
  obtain ⟨c, hc⟩ := exists_subforests hp
  rw [stop_eq hc] at hlt
  obtain ⟨r, hr, hle, d, hd, hvr⟩ := exists_root (F := c) (n := p + 1) (v := v) hv (by omega)
  have hr' := mem_roots hr
  have hin := (subforests_inside hc (by omega) (by omega)).trans hd
  exact ⟨r, by simpa [childrenOf, hc] using hr, hle, by rw [stop_eq hin]; exact hvr⟩

/-! ## Post-order -/

/-- `u` closes before `v`: its interval ends earlier, or both end together and `u` is deeper. -/
def Closes (F : Forest α) (u v : ℕ) : Prop :=
  F.stop u < F.stop v ∨ F.stop u = F.stop v ∧ v < u

lemma Closes.asymm (h : F.Closes u v) : ¬F.Closes v u := by
  unfold Closes at *
  omega

lemma closes_of_stop_le (h : F.stop u ≤ v) : F.Closes u v := .inl (h.trans_lt (F.lt_stop v))

lemma closes_of_inside (hp : p < F.size) (hv : p < v) (hlt : v < F.stop p) : F.Closes v p := by
  have := stop_le_stop hp hv.le hlt
  unfold Closes
  omega

lemma Sits.postOrder_pairwise {F G : Forest α} (h : F.Sits n G) :
    (G.postOrder n).Pairwise F.Closes := by
  induction G generalizing n with
  | nil => exact List.Pairwise.nil
  | cons a c s ihc ihs =>
    have hn := h.lt_size
    have hstop := stop_eq h.subforest
    rw [postOrder, pairwise_append, pairwise_cons]
    refine ⟨ihc h.children, ⟨fun v hv => ?_, ihs h.siblings⟩, fun u hu v hv => ?_⟩
    · exact closes_of_stop_le (hstop.trans_le (mem_postOrder.1 hv).1)
    have hu' := mem_postOrder.1 hu
    rcases mem_cons.1 hv with rfl | hv
    · exact closes_of_inside hn hu'.1 (hstop ▸ hu'.2)
    · have hle := stop_le_stop hn (by omega : n ≤ u) (hstop ▸ hu'.2)
      exact closes_of_stop_le ((hle.trans_eq hstop).trans (mem_postOrder.1 hv).1)

lemma Sits.roots_pairwise {F G : Forest α} (h : F.Sits n G) : (G.roots n).Pairwise F.Closes := by
  induction G generalizing n with
  | nil => exact List.Pairwise.nil
  | cons a c s _ ihs =>
    refine pairwise_cons.2 ⟨fun v hv => ?_, ihs h.siblings⟩
    exact closes_of_stop_le ((stop_eq h.subforest).trans_le (mem_roots hv).1)

lemma postOrder_pairwise (F : Forest α) : (F.postOrder 0).Pairwise F.Closes :=
  F.sits_self.postOrder_pairwise

lemma postOrder_nodup (F : Forest α) : (F.postOrder 0).Nodup := by
  refine F.postOrder_pairwise.imp fun {u v} h => ?_
  rintro rfl
  exact h.asymm h

lemma childrenOf_pairwise (F : Forest α) (p : ℕ) : (F.childrenOf p).Pairwise F.Closes := by
  unfold childrenOf
  split
  · next c hc =>
    exact (sits_of_subforest hc).roots_pairwise
  · exact List.Pairwise.nil

lemma filter_postOrder (F : Forest α) (l : List ℕ) (hl : l.Pairwise F.Closes)
    (hlt : ∀ v ∈ l, v < F.size) : (F.postOrder 0).filter (fun v => v ∈ l) = l := by
  have hnodup : l.Nodup := hl.imp fun {u v} h => by
    rintro rfl
    exact h.asymm h
  refine List.Perm.eq_of_pairwise (fun u v _ _ huv hvu => absurd hvu huv.asymm)
    (F.postOrder_pairwise.filter _) hl ?_
  refine (perm_ext_iff_of_nodup (F.postOrder_nodup.filter _) hnodup).2 fun v => ?_
  simp only [mem_filter, mem_postOrder, decide_eq_true_eq]
  exact ⟨fun h => h.2, fun h => ⟨⟨Nat.zero_le v, by simpa using hlt v h⟩, h⟩⟩

lemma mem_before {pre suf : List ℕ} (hsplit : F.postOrder 0 = pre ++ v :: suf) (hu : u < F.size)
    (h : F.Closes u v) :
    u ∈ pre := by
  have hmem : u ∈ pre ++ v :: suf := hsplit ▸ mem_postOrder.2 ⟨Nat.zero_le u, by omega⟩
  have hpw := hsplit ▸ F.postOrder_pairwise
  rcases mem_append.1 hmem with hpre | hsuf
  · exact hpre
  · rcases mem_cons.1 hsuf with rfl | hsuf
    · exact absurd h h.asymm
    · exact absurd ((pairwise_cons.1 (pairwise_append.1 hpw).2.1).1 u hsuf) h.asymm

/-- If edges go to nodes that close later and nodes wait for their children, Kahn's algorithm with
the least-number rule walks the forest in post-order. -/
lemma kahn_eq_postOrder (F : Forest α) (es : List (ℕ × ℕ))
    (hrange : ∀ e ∈ es, e.1 < F.size ∧ e.2 < F.size) (hcloses : ∀ e ∈ es, F.Closes e.1 e.2)
    (hchildren : ∀ p r, r ∈ F.childrenOf p → (r, p) ∈ es) :
    Kahn.order (List.range F.size) es = F.postOrder 0 := by
  apply Kahn.order_eq_of_greedy
  · simp
  · exact fun e he => mem_range.2 (hrange e he).2
  · intro v
    simp [mem_postOrder]
  · exact F.postOrder_nodup
  · rintro pre v suf hsplit e he rfl
    exact mem_before hsplit (hrange e he).1 (hcloses e he)
  · -- a smaller node that closes later is an ancestor, and waits for its child on the way down
    intro pre v suf hsplit w hw hlt
    have hpw := pairwise_append.1 (hsplit ▸ F.postOrder_pairwise)
    have hvw : F.Closes v w := (pairwise_cons.1 hpw.2.1).1 w hw
    have hmemw : w ∈ F.postOrder 0 := by rw [hsplit]; simp [hw]
    have hmemv : v ∈ F.postOrder 0 := by rw [hsplit]; simp
    have hwF : w < F.size := by simpa using (mem_postOrder.1 hmemw).2
    have hvF : v < F.size := by simpa using (mem_postOrder.1 hmemv).2
    have hstop : v < F.stop w := by
      have := F.lt_stop v
      unfold Closes at hvw
      omega
    obtain ⟨r, hr, hrv, hvr⟩ := exists_child hwF hlt hstop
    have hr' := mem_childrenOf hr
    refine ⟨(r, w), hchildren w r hr, rfl, ?_⟩
    rcases Nat.eq_or_lt_of_le hrv with rfl | hrv
    · exact mem_cons_self
    have hrF : r < F.size := hr'.2.2.trans_le (stop_le_size hwF)
    have hclose : F.Closes v r := closes_of_inside hrF hrv hvr
    have hmemr : r ∈ pre ++ v :: suf := hsplit ▸ mem_postOrder.2 ⟨Nat.zero_le r, by omega⟩
    rcases mem_append.1 hmemr with hpre | hsuf
    · exact absurd hclose (hpw.2.2 r hpre v mem_cons_self).asymm
    · exact hsuf

end Forest

end Ostadix
