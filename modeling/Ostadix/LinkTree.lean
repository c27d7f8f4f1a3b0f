import Mathlib.Data.List.Basic
import Mathlib.Logic.Function.Basic

/-! File trees with symbolic links, and how a path is followed through them. -/

namespace Ostadix.LinkTree

open List

inductive Part where
  | current
  | parent
  | normal (name : String)
  deriving DecidableEq, Repr

structure PathText where
  absolute : Bool
  parts : List Part
  deriving DecidableEq, Repr

/-- Where an object is: the names of the directories above it, and its own. -/
abbrev Place := List String

inductive Entry where
  | directory
  | file (bytes : List UInt8) (mode : Option ℕ)
  | link (target : PathText)
  deriving DecidableEq, Repr

def Entry.target? : Entry → Option PathText
  | .link target => some target
  | .directory | .file _ _ => none

abbrev Tree := Place → Option Entry

def linkAt (tree : Tree) (place : Place) : Option PathText := (tree place).bind Entry.target?

def names (l : List String) : List Part := l.map .normal

/-- Where the target of a link is followed from, given the directory of the link. -/
def PathText.start (target : PathText) (dir : Place) : Place := if target.absolute then [] else dir

/-- Follow a path in so many steps. A last link is followed on demand, and the end need not exist.
-/
def resolve (tree : Tree) (follow : Bool) : ℕ → Place → List Part → Option Place
  | 0, _, _ => none
  | _ + 1, place, [] => some place
  | n + 1, place, .current :: rest => resolve tree follow n place rest
  | n + 1, place, .parent :: rest => resolve tree follow n place.dropLast rest
  | n + 1, place, .normal name :: rest =>
    match tree (place ++ [name]) with
    | some .directory => resolve tree follow n (place ++ [name]) rest
    | some (.link target) =>
      if rest = [] ∧ follow = false then some (place ++ [name])
      else resolve tree follow n (target.start place) (target.parts ++ rest)
    | some (.file _ _) | none => if rest = [] then some (place ++ [name]) else none

/-- A path can lead to the place if every name on its way stands for what may be there: a link, or
something else that is passed. -/
inductive Leads (may : Place → Option PathText → Prop) : Place → List Part → Place → Prop where
  | done {place : Place} : Leads may place [] place
  | current {place result : Place} {rest : List Part} (h : Leads may place rest result) :
    Leads may place (.current :: rest) result
  | parent {place result : Place} {rest : List Part} (h : Leads may place.dropLast rest result) :
    Leads may place (.parent :: rest) result
  | name {place result : Place} {rest : List Part} {name : String}
    (hmay : may (place ++ [name]) none) (h : Leads may (place ++ [name]) rest result) :
    Leads may place (.normal name :: rest) result
  | link {place result : Place} {rest : List Part} {name : String} {target : PathText}
    (hmay : may (place ++ [name]) (some target))
    (h : Leads may (target.start place) (target.parts ++ rest) result) :
    Leads may place (.normal name :: rest) result

/-- The target of a link in the directory can only lead to places below the root. -/
def StaysBelow (may : Place → Option PathText → Prop) (root dir : Place) (target : PathText) :
    Prop :=
  ∀ result, Leads may (target.start dir) target.parts result → root <+: result

/-- Everything on the way to the place, and the place, is there and is no link. -/
def Canonical (tree : Tree) (place : Place) : Prop :=
  ∀ q, q <+: place → q ≠ [] → tree q ≠ none ∧ linkAt tree q = none

variable {parts : List Part} {place result root : Place} {tree : Tree} {follow : Bool} {n : ℕ}
  {name : String}

lemma leads_of_resolve {may : Place → Option PathText → Prop}
    (hmay : ∀ place, may place (linkAt tree place))
    (h : resolve tree true n place parts = some result) : Leads may place parts result := by
  induction n generalizing place parts with
  | zero => cases h
  | succ n ih =>
    rcases parts with _ | ⟨part, rest⟩
    · cases h
      exact .done
    cases part with
    | current =>
      rw [resolve] at h
      exact .current (ih h)
    | parent =>
      rw [resolve] at h
      exact .parent (ih h)
    | normal name =>
      have hplace := hmay (place ++ [name])
      rw [resolve] at h
      rw [linkAt] at hplace
      split at h
      · next hdir =>
        rw [hdir] at hplace
        exact .name hplace (ih h)
      · next target hlink =>
        rw [hlink] at hplace
        rw [if_neg (by simp)] at h
        exact .link hplace (ih h)
      all_goals
        next hend =>
        rw [hend] at hplace
        split at h
        · next hrest =>
          cases h
          subst hrest
          exact .name hplace .done
        · cases h

/-! ## Canonical places -/

lemma Canonical.mono {q : Place} (h : Canonical tree place) (hq : q <+: place) :
    Canonical tree q :=
  fun r hr => h r (hr.trans hq)

lemma Canonical.concat (h : Canonical tree place) (hsome : tree (place ++ [name]) ≠ none)
    (hlink : linkAt tree (place ++ [name]) = none) : Canonical tree (place ++ [name]) := by
  intro q hq hne
  rcases prefix_concat_iff.1 hq with rfl | hq
  · exact ⟨hsome, hlink⟩
  · exact h q hq hne

lemma canonical_nil : Canonical tree [] := fun _ hq hne => absurd (prefix_nil.1 hq) hne

/-- A path leads through directories, and past a link at its end if that is followed. -/
lemma canonical_of_resolve (hplace : Canonical tree place)
    (h : resolve tree follow n place parts = some result) :
    Canonical tree result.dropLast ∧ (follow = true → result ≠ [] → linkAt tree result = none) := by
  induction n generalizing place parts with
  | zero => cases h
  | succ n ih =>
    have hend : ∀ name, Canonical tree (place ++ [name]).dropLast := by simpa using hplace
    rcases parts with _ | ⟨part, rest⟩
    · cases h
      exact ⟨hplace.mono ( dropLast_prefix _), fun _ hne => (hplace _ prefix_rfl hne).2⟩
    cases part with
    | current =>
      rw [resolve] at h
      exact ih hplace h
    | parent =>
      rw [resolve] at h
      exact ih (hplace.mono ( dropLast_prefix _)) h
    | normal name =>
      rw [resolve] at h
      split at h
      · next hdir =>
        refine ih (hplace.concat (by simp [hdir]) ?_) h
        simp [linkAt, hdir, Entry.target?]
      · next target hlink =>
        split at h
        · next hlast =>
          cases h
          exact ⟨hend name, by simp [hlast.2]⟩
        · refine ih ?_ h
          rw [PathText.start]
          split
          · exact canonical_nil
          · exact hplace
      all_goals
        next hlast =>
        split at h
        · cases h
          exact ⟨hend name, by simp [linkAt, hlast, Entry.target?]⟩
        · cases h

/-! ## Paths without links -/

/-- A path of names without links before its end leads where it says, up to its last name. -/
lemma resolve_names {dir : Place} (hlinks : ∀ q, q <+: place ++ dir → q ≠ [] → linkAt tree q = none)
    (h : resolve tree follow n place (names (dir ++ [name])) = some result) :
    ∃ m, resolve tree follow m (place ++ dir) [.normal name] = some result := by
  induction dir generalizing n place with
  | nil => exact ⟨n, by simpa [names] using h⟩
  | cons next dir ih =>
    rcases n with _ | n
    · cases h
    have hassoc : place ++ [next] ++ dir = place ++ next :: dir := by simp
    change resolve tree follow (n + 1) place (.normal next :: names (dir ++ [name])) = _ at h
    have hne : names (dir ++ [name]) ≠ [] := by simp [names]
    have hnext := hlinks (place ++ [next]) ⟨dir, hassoc⟩ (by simp)
    rw [resolve] at h
    split at h
    · rw [← hassoc] at hlinks ⊢
      exact ih hlinks h
    · next hlink => simp [linkAt, hlink, Entry.target?] at hnext
    all_goals
      rw [if_neg hne] at h
      cases h

/-- The end of such a path is its last name, unless a link stands there that is followed. -/
lemma resolve_concat {dir : Place} (hlinks : ∀ q, q <+: dir → q ≠ [] → linkAt tree q = none)
    (h : resolve tree follow n [] (names (dir ++ [name])) = some result) :
    result = dir ++ [name] ∨ follow = true ∧ ∃ target m, linkAt tree (dir ++ [name]) = some target ∧
      resolve tree follow m (target.start dir) target.parts = some result := by
  obtain ⟨m, h⟩ := resolve_names (by simpa using hlinks) h
  rw [nil_append] at h
  rcases m with _ | m
  · cases h
  rw [resolve] at h
  split at h
  · rcases m with _ | m
    · cases h
    · cases h
      exact .inl rfl
  · next target hlink =>
    split at h
    · cases h
      exact .inl rfl
    · next hfollow =>
      refine .inr ⟨by simpa using hfollow, target, m, by simp [linkAt, hlink, Entry.target?], ?_⟩
      simpa using h
  all_goals
    rw [if_pos rfl] at h
    cases h
    exact .inl rfl

end Ostadix.LinkTree
