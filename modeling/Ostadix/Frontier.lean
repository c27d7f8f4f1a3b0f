import Mathlib.Data.List.Induction
import Mathlib.Logic.Relation

/-! Readers and writers of one resource: when accesses wait for what they meet at the frontier,
conflicting ones are ordered. -/

namespace Ostadix

open List

inductive Access where
  | read | write
  deriving DecidableEq, Repr

/-- Both access the resource, and at least one of them writes it. -/
def Access.Conflict : Option Access → Option Access → Prop
  | some a, some b => a = .write ∨ b = .write
  | _, _ => False

lemma Access.Conflict.symm {a b : Option Access} (h : Access.Conflict a b) :
    Access.Conflict b a := by
  rcases a with _ | a <;> rcases b with _ | b
  · exact h
  · exact h
  · exact h
  · exact Or.symm h

structure Frontier (Op : Type*) where
  writer : Option Op
  readers : List Op

namespace Frontier

variable {Op : Type*}

def init : Frontier Op := ⟨none, []⟩

def next (f : Frontier Op) (op : Op) : Option Access → Frontier Op
  | none => f
  | some .read => { f with readers := op :: f.readers }
  | some .write => ⟨some op, []⟩

/-- The operations an access has to wait for: the last writer and, to write, the open readers. -/
def needs (f : Frontier Op) : Option Access → List Op
  | none => []
  | some .read => f.writer.toList
  | some .write => f.writer.toList ++ f.readers

/-- The frontier after the given operations, where `access` says how each uses the resource. -/
def after (access : Op → Option Access) (ops : List Op) : Frontier Op :=
  ops.foldl (fun f op => f.next op (access op)) init

variable {access : Op → Option Access} {dep : Op → Op → Prop}

lemma after_append_singleton (ops : List Op) (op : Op) :
    after access (ops ++ [op]) = (after access ops).next op (access op) := by
  simp [after]

/-- The frontier holds operations that were taken, as what they did. -/
lemma mem_after (access : Op → Option Access) (ops : List Op) :
    (∀ w, (after access ops).writer = some w → w ∈ ops ∧ access w = some .write) ∧
      ∀ x ∈ (after access ops).readers, x ∈ ops ∧ access x = some .read := by
  induction ops using List.reverseRecOn with
  | nil => exact ⟨nofun, nofun⟩
  | append_singleton ops op ih =>
    obtain ⟨hwriter, hreaders⟩ := ih
    rw [after_append_singleton]
    have hkeep : ∀ x a, x ∈ ops ∧ access x = some a → x ∈ ops ++ [op] ∧ access x = some a :=
      fun x a h => ⟨mem_append_left _ h.1, h.2⟩
    have hop : op ∈ ops ++ [op] := mem_append_right _ (mem_singleton_self op)
    rcases haccess : access op with _ | a
    · exact ⟨fun w hw => hkeep w _ (hwriter w hw), fun x hx => hkeep x _ (hreaders x hx)⟩
    cases a with
    | read =>
      refine ⟨fun w hw => hkeep w _ (hwriter w hw), fun x hx => ?_⟩
      rcases mem_cons.1 hx with rfl | hx
      · exact ⟨hop, haccess⟩
      · exact hkeep x _ (hreaders x hx)
    | write =>
      refine ⟨fun w hw => ?_, fun x hx => absurd hx not_mem_nil⟩
      cases hw
      exact ⟨hop, haccess⟩

variable {ops : List Op} {a : Option Access} {f : Frontier Op} {later op : Op}

/-- What an access waits for was taken before and conflicts with it. -/
lemma conflict_of_mem_needs {x : Op} (h : x ∈ (after access ops).needs a) :
    x ∈ ops ∧ Access.Conflict (access x) a := by
  obtain ⟨hwriter, hreaders⟩ := mem_after access ops
  rcases a with _ | a
  · cases h
  have hmeets : ∀ b, access x = some b → (b = .write ∨ a = .write) →
      Access.Conflict (access x) (some a) := by
    intro b hb hor
    rw [hb]
    exact hor
  cases a with
  | read =>
    obtain ⟨hmem, hb⟩ := hwriter x (Option.mem_toList.1 h)
    exact ⟨hmem, hmeets _ hb (.inl rfl)⟩
  | write =>
    rcases mem_append.1 h with h | h
    · obtain ⟨hmem, hb⟩ := hwriter x (Option.mem_toList.1 h)
      exact ⟨hmem, hmeets _ hb (.inr rfl)⟩
    · obtain ⟨hmem, hb⟩ := hreaders x h
      exact ⟨hmem, hmeets _ hb (.inr rfl)⟩

/-- An earlier accessor is still met directly, or the last writer waits for it. -/
def Covers (dep : Op → Op → Prop) (f : Frontier Op) (op : Op) : Option Access → Prop
  | none => True
  | some .read => op ∈ f.readers ∨ ∃ w, f.writer = some w ∧ Relation.TransGen dep w op
  | some .write => ∃ w, f.writer = some w ∧ Relation.ReflTransGen dep w op

lemma covers_next_self (f : Frontier Op) (op : Op) (a : Option Access) :
    Covers dep (f.next op a) op a := by
  cases a with
  | none => trivial
  | some a =>
    cases a with
    | read => exact .inl mem_cons_self
    | write => exact ⟨op, rfl, .refl⟩

lemma Covers.waits {b : Option Access} (h : Covers dep f op a) (hconflict : Access.Conflict a b)
    (hneeds : ∀ x ∈ f.needs b, dep later x) : Relation.TransGen dep later op := by
  rcases a with _ | a
  · exact absurd hconflict id
  rcases b with _ | b
  · exact absurd hconflict id
  have hwriter : ∀ w, f.writer = some w → dep later w := by
    intro w hw
    apply hneeds
    cases b <;> simp [needs, hw]
  cases a with
  | write =>
    obtain ⟨w, hw, hreach⟩ := h
    exact .head' (hwriter w hw) hreach
  | read =>
    have hb : b = .write := by simpa [Access.Conflict] using hconflict
    subst hb
    rcases h with hopen | ⟨w, hw, hreach⟩
    · exact .single (hneeds op (mem_append_right _ hopen))
    · exact .head (hwriter w hw) hreach

/-- One more access keeps everything covered, because a writer waits for what it replaces. -/
lemma Covers.next (h : Covers dep f op a) (b : Option Access)
    (hneeds : ∀ x ∈ f.needs b, dep later x) :
    Covers dep (f.next later b) op a := by
  rcases b with _ | b
  · exact h
  cases b with
  | read =>
    rcases a with _ | a
    · trivial
    cases a with
    | read => exact h.imp_left (mem_cons_of_mem _)
    | write => exact h
  | write =>
    rcases a with _ | a
    · trivial
    have hwait : Relation.TransGen dep later op :=
      h.waits (by cases a <;> simp [Access.Conflict]) hneeds
    cases a with
    | read => exact .inr ⟨later, rfl, hwait⟩
    | write => exact ⟨later, rfl, hwait.to_reflTransGen⟩

/-- Every operation waits for the part of the frontier that it meets. -/
def Obeys (access : Op → Option Access) (dep : Op → Op → Prop) (ops : List Op) : Prop :=
  ∀ pre op suf, ops = pre ++ op :: suf → ∀ x ∈ (after access pre).needs (access op), dep op x

lemma Obeys.append_singleton (h : Obeys access dep ops)
    (hneeds : ∀ x ∈ (after access ops).needs (access op), dep op x) :
    Obeys access dep (ops ++ [op]) := by
  intro pre x suf hsplit
  rcases suf.eq_nil_or_concat with rfl | ⟨suf, last, rfl⟩
  · obtain ⟨rfl, hop⟩ := append_inj' hsplit rfl
    cases hop
    exact hneeds
  · rw [concat_eq_append, ← cons_append, ← append_assoc] at hsplit
    exact h pre x suf (append_inj' hsplit rfl).1

lemma covers_after {ops : List Op} (hobeys : Obeys access dep ops) {op : Op} (hop : op ∈ ops) :
    Covers dep (after access ops) op (access op) := by
  induction ops using List.reverseRecOn with
  | nil => cases hop
  | append_singleton ops later ih =>
    have hpre : Obeys access dep ops := by
      intro pre x suf hsplit
      exact hobeys pre x (suf ++ [later]) (by simp [hsplit])
    rw [after_append_singleton]
    rcases mem_append.1 hop with hmem | hmem
    · exact (ih hpre hmem).next _ (hobeys ops later [] rfl)
    · rw [mem_singleton] at hmem
      subst hmem
      exact covers_next_self _ _ _

/-- Of two conflicting accesses the later one waits, at least indirectly, for the earlier one. -/
lemma Obeys.ordered {pre mid suf : List Op} {first second : Op}
    (hobeys : Obeys access dep (pre ++ first :: (mid ++ second :: suf)))
    (hconflict : Access.Conflict (access first) (access second)) :
    Relation.TransGen dep second first := by
  have hsplit : pre ++ first :: (mid ++ second :: suf) =
      (pre ++ first :: mid) ++ second :: suf := by
    simp
  rw [hsplit] at hobeys
  have hpre : Obeys access dep (pre ++ first :: mid) := by
    intro p x s hs
    exact hobeys p x (s ++ second :: suf) (by simp [hs])
  have hcovers := covers_after hpre (mem_append_right pre mem_cons_self)
  exact hcovers.waits hconflict (hobeys _ second suf rfl)

/-- Two conflicting accesses are ordered one way or the other. -/
lemma Obeys.comparable (hobeys : Obeys access dep ops) {a b : Op} (ha : a ∈ ops) (hb : b ∈ ops)
    (hne : a ≠ b) (hconflict : Access.Conflict (access a) (access b)) :
    Relation.TransGen dep a b ∨ Relation.TransGen dep b a := by
  obtain ⟨pre, suf, rfl⟩ := append_of_mem ha
  rcases mem_append.1 hb with hb | hb
  · obtain ⟨pre, mid, rfl⟩ := append_of_mem hb
    rw [append_assoc, cons_append] at hobeys
    exact .inl (hobeys.ordered hconflict.symm)
  · obtain ⟨mid, suf, rfl⟩ := append_of_mem ((mem_cons.1 hb).resolve_left hne.symm)
    exact .inr (hobeys.ordered hconflict)

end Frontier

end Ostadix
