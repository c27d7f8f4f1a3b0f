import Mathlib.Data.List.Basic
import Mathlib.Data.Prod.Lex

/-! Patterns with stars, matched by a loop that only ever takes back its last star. -/

namespace Ostadix.StarPattern

open List

variable {P T : Type}

/-- The texts of a pattern. A star stands for any text, every other part for one element. -/
def Matches (star : P → Bool) (means : P → T → Prop) : List P → List T → Prop
  | [], t => t = []
  | x :: p, t =>
    if star x then ∃ s, s <:+ t ∧ Matches star means p s
    else ∃ c s, t = c :: s ∧ means x c ∧ Matches star means p s

/-- The loop, with the pattern behind the last star and the text at which it was last tried. -/
def loop (star : P → Bool) (one : P → T → Bool) (p : List P) (t : List T)
    (last : Option (List P × List T)) : Bool :=
  match t with
  | [] => p.all star
  | c :: t =>
    if p.head?.any (one · c) then loop star one p.tail t last
    else if p.head?.any star then loop star one p.tail (c :: t) (some (p.tail, c :: t))
    else
      match last with
      | some (q, _ :: s) => loop star one q s (some (q, s))
      | _ => false
termination_by (max p.length (last.elim (p.length + 1) (·.1.length)),
  last.elim 0 (·.2.length), p.length)
decreasing_by
  all_goals simp only [Prod.lex_def]
  · cases p <;> cases last <;> grind
  · cases p <;> cases last <;> grind
  · simp
    omega

/-- The loop compares the part of the pattern with the element of the text. -/
inductive Compares (star : P → Bool) (one : P → T → Bool) :
    List P → List T → Option (List P × List T) → P → T → Prop where
  | here {x : P} {p : List P} {c : T} {t : List T} {last : Option (List P × List T)} :
    Compares star one (x :: p) (c :: t) last x c
  | taken {p : List P} {c : T} {t : List T} {last : Option (List P × List T)} {x : P} {d : T}
    (hone : p.head?.any (one · c)) (h : Compares star one p.tail t last x d) :
    Compares star one p (c :: t) last x d
  | star {p : List P} {c : T} {t : List T} {last : Option (List P × List T)} {x : P} {d : T}
    (hone : ¬p.head?.any (one · c)) (hstar : p.head?.any star)
    (h : Compares star one p.tail (c :: t) (some (p.tail, c :: t)) x d) :
    Compares star one p (c :: t) last x d
  | back {p q : List P} {b c : T} {s t : List T} {x : P} {d : T}
    (hone : ¬p.head?.any (one · c)) (hstar : ¬p.head?.any star)
    (h : Compares star one q s (some (q, s)) x d) :
    Compares star one p (c :: t) (some (q, b :: s)) x d

variable {star : P → Bool} {one : P → T → Bool} {means : P → T → Prop} {p q l : List P}
  {s t : List T} {c : T} {last : Option (List P × List T)}

lemma Compares.mem {x : P} (h : Compares star one p t last x c) :
    x ∈ p ∨ ∃ q s, last = some (q, s) ∧ x ∈ q := by
  induction h with
  | here => exact .inl mem_cons_self
  | taken _ _ ih => exact ih.imp_left mem_of_mem_tail
  | star _ _ _ ih =>
    rcases ih with hx | ⟨_, _, ⟨⟩, hx⟩
    · exact .inl (mem_of_mem_tail hx)
    · exact .inl (mem_of_mem_tail hx)
  | back _ _ _ ih =>
    rcases ih with hx | ⟨_, _, ⟨⟩, hx⟩
    · exact .inr ⟨_, _, rfl, hx⟩
    · exact .inr ⟨_, _, rfl, hx⟩

/-- Every part that is no star takes one element. -/
lemma split_of_matches (hl : ∀ x ∈ l, star x = false) (h : Matches star means (l ++ p) s) :
    ∃ r s', s = r ++ s' ∧ r.length = l.length ∧ Matches star means p s' := by
  induction l generalizing s with
  | nil => exact ⟨[], s, rfl, rfl, h⟩
  | cons x l ih =>
    rw [cons_append, Matches, hl x mem_cons_self] at h
    obtain ⟨c, s, rfl, -, h⟩ := h
    obtain ⟨r, s', rfl, hlen, h⟩ := ih (fun y hy => hl y (mem_cons_of_mem x hy)) h
    exact ⟨c :: r, s', rfl, by simp [hlen], h⟩

/-- A match of the pattern behind the last star at a later place. -/
def Later (star : P → Bool) (means : P → T → Prop) (last : Option (List P × List T)) : Prop :=
  ∃ q s s', last = some (q, s) ∧ s' <:+ s ∧ s' ≠ s ∧ Matches star means q s'

/-- Since the last star only parts that are no stars have been passed. -/
def Since (star : P → Bool) (p : List P) (t : List T) (last : Option (List P × List T)) : Prop :=
  ∀ q s, last = some (q, s) →
    ∃ l r, q = l ++ p ∧ s = r ++ t ∧ l.length = r.length ∧ ∀ x ∈ l, star x = false

lemma Since.here : Since star q s (some (q, s)) := by
  rintro _ _ ⟨⟩
  exact ⟨[], [], by simp⟩

/-- Whatever else the last star could take, the rest of its pattern has to be found further on. -/
lemma Since.rest (h : Since star p t last) (hlater : Later star means last) :
    ∃ s, s <:+ t ∧ s ≠ t ∧ Matches star means p s := by
  obtain ⟨q, s, s', hlast, hs, hne, hmatch⟩ := hlater
  obtain ⟨l, r, rfl, rfl, hlen, hl⟩ := h q s hlast
  obtain ⟨r', s'', rfl, hlen', hmatch⟩ := split_of_matches hl hmatch
  have hle := hs.length_le
  simp only [length_append] at hle
  refine ⟨s'', suffix_of_suffix_length_le ((suffix_append r' s'').trans hs) (suffix_append r t)
    (by omega), ?_, hmatch⟩
  rintro rfl
  exact hne (hs.eq_of_length (by simp [hlen', hlen]))

end Ostadix.StarPattern
