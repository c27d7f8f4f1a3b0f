import Mathlib

/-! Sequences of checks that fail with an error, and the string operations of the sources. -/

namespace Ostadix

open List

/-! ## Checks -/

/-- Succeed when `c` holds, fail with `e` otherwise. -/
def ensure {ε : Type} (c : Prop) [Decidable c] (e : ε) : Except ε Unit :=
  if c then .ok () else .error e

variable {α β ε : Type} {u : Unit} {i : ℕ}

variable {e : ε} {x : Except ε α} {f : α → Except ε β} {a : α}

@[simp] lemma ensure_eq_ok {c : Prop} [Decidable c] : ensure c e = .ok u ↔ c := by
  unfold ensure
  split <;> simp_all

lemma some_unique {o : Option α} {b : α} (ha : o = some a) (hb : o = some b) : a = b :=
  Option.some.inj (ha.symm.trans hb)

lemma bind_eq_ok {r : β} : (x >>= f) = .ok r ↔ ∃ a, x = .ok a ∧ f a = .ok r := by
  cases x with
  | error e => simp [bind, Except.bind]
  | ok a => simp [bind, Except.bind]

lemma bind_eq_error : (x >>= f) = .error e ↔ x = .error e ∨ ∃ a, x = .ok a ∧ f a = .error e := by
  cases x with
  | error e' => simp [bind, Except.bind]
  | ok a => simp [bind, Except.bind]

@[simp] lemma ensure_eq_error {c : Prop} [Decidable c] {e' : ε} :
    ensure c e = .error e' ↔ ¬c ∧ e = e' := by
  unfold ensure
  split <;> simp_all

@[simp] lemma mapError_eq_ok {ε' : Type} {f : ε → ε'} : x.mapError f = .ok a ↔ x = .ok a := by
  cases x <;> simp [Except.mapError]

@[simp] lemma mapError_eq_error {ε' : Type} {f : ε → ε'} {e' : ε'} :
    x.mapError f = .error e' ↔ ∃ e, x = .error e ∧ f e = e' := by
  cases x <;> simp [Except.mapError]

variable {l : List α}

lemma forM_eq_ok {f : α → Except ε Unit} : l.forM f = .ok u ↔ ∀ a ∈ l, f a = .ok () := by
  induction l with
  | nil => simp [pure, Except.pure]
  | cons a l ih =>
    rw [forM_eq_forM] at ih ⊢
    simp only [forM_cons, bind_eq_ok, ih, mem_cons, forall_eq_or_imp]
    exact ⟨fun ⟨_, h⟩ => h, fun h => ⟨(), h⟩⟩

lemma forM_eq_error {f : α → Except ε Unit} {e : ε} (h : l.forM f = .error e) :
    ∃ a ∈ l, f a = .error e := by
  induction l with
  | nil => cases h
  | cons a l ih =>
    rcases bind_eq_error.1 h with hhead | ⟨⟨⟩, -, hrest⟩
    · exact ⟨a, mem_cons_self, hhead⟩
    · obtain ⟨b, hb, herror⟩ := ih hrest
      exact ⟨b, mem_cons_of_mem a hb, herror⟩

lemma mapM_eq_ok {f : α → Except ε β} {r : List β} :
    l.mapM f = .ok r ↔ List.Forall₂ (fun a b => f a = .ok b) l r := by
  induction l generalizing r with
  | nil =>
    rw [mapM_nil, forall₂_nil_left_iff]
    constructor
    · intro h
      exact (Except.ok.inj h).symm
    · intro h
      rw [h]
      rfl
  | cons a l ih =>
    rw [mapM_cons]
    simp only [bind_eq_ok, forall₂_cons_left_iff, ih]
    constructor
    · rintro ⟨b, hb, r', hr', h⟩
      exact ⟨b, r', hb, hr', (Except.ok.inj h).symm⟩
    · rintro ⟨b, r', hb, hr', rfl⟩
      exact ⟨b, hb, r', hr', rfl⟩

/-- An element of the left list is related to the element at its place in the right one. -/
lemma forall₂_getElem? {R : α → β → Prop} {m : List β} (h : List.Forall₂ R l m)
    {a : α} (ha : l[i]? = some a) : ∃ b, m[i]? = some b ∧ R a b := by
  induction h generalizing i with
  | nil => simp at ha
  | cons hab _ ih =>
    cases i with
    | zero =>
      rw [getElem?_cons_zero, Option.some.injEq] at ha
      exact ⟨_, rfl, ha ▸ hab⟩
    | succ i => exact ih ha

/-- What holds at the start and is kept by every step of a loop holds at its end. -/
lemma foldlM_invariant {f : β → α → Except ε β} {b r : β} {P : β → Prop}
    (h : l.foldlM f b = .ok r) (hb : P b) (step : ∀ a ∈ l, ∀ b b', f b a = .ok b' → P b → P b') :
    P r := by
  induction l generalizing b with
  | nil => exact Except.ok.inj h ▸ hb
  | cons a l ih =>
    rw [foldlM_cons] at h
    obtain ⟨b', hb', h⟩ := bind_eq_ok.1 h
    apply ih h (step a mem_cons_self b b' hb' hb)
    intro a' ha'
    exact step a' (mem_cons_of_mem a ha')

/-- The same for what relates the state of a loop to the elements it has visited. -/
lemma foldlM_history {ε α β : Type} {f : β → α → Except ε β} {l done : List α} {b r : β}
    {P : List α → β → Prop} (h : l.foldlM f b = .ok r) (hb : P done b)
    (step : ∀ done a b b', f b a = .ok b' → P done b → P (done ++ [a]) b') : P (done ++ l) r := by
  induction l generalizing b done with
  | nil =>
    rw [append_nil]
    exact Except.ok.inj h ▸ hb
  | cons a l ih =>
    rw [foldlM_cons] at h
    obtain ⟨b', hb', h⟩ := bind_eq_ok.1 h
    rw [← singleton_append, ← append_assoc]
    exact ih h (step done a b b' hb' hb)

/-- Check every element of a list and that none occurred before; `seen` holds the earlier ones. -/
def forDistinct {ε α : Type} [DecidableEq α] (repeated : α → ε) (check : α → Except ε Unit) :
    List α → List α → Except ε Unit
  | [], _ => .ok ()
  | a :: l, seen => do
    ensure (a ∉ seen) (repeated a)
    check a
    forDistinct repeated check l (a :: seen)

variable {check : α → Except ε Unit}

lemma forDistinct_eq_ok [DecidableEq α] {repeated : α → ε} {seen : List α} :
    forDistinct repeated check l seen = .ok u ↔
      (∀ a ∈ l, a ∉ seen ∧ check a = .ok ()) ∧ l.Nodup := by
  induction l generalizing seen with
  | nil => simp [forDistinct]
  | cons a l ih =>
    simp only [forDistinct, bind_eq_ok, ensure_eq_ok, ih, mem_cons, forall_eq_or_imp,
      nodup_cons, not_or]
    constructor
    · rintro ⟨⟨⟩, hnew, ⟨⟩, hcheck, hrest, hnodup⟩
      refine ⟨⟨⟨hnew, hcheck⟩, fun b hb => ⟨(hrest b hb).1.2, (hrest b hb).2⟩⟩, ?_, hnodup⟩
      intro hmem
      exact (hrest a hmem).1.1 rfl
    · rintro ⟨⟨⟨hnew, hcheck⟩, hrest⟩, hfresh, hnodup⟩
      refine ⟨(), hnew, (), hcheck, fun b hb => ⟨⟨?_, (hrest b hb).1⟩, (hrest b hb).2⟩, hnodup⟩
      rintro rfl
      exact hfresh hb

def orError {ε α : Type} (e : ε) : Option α → Except ε α
  | none => .error e
  | some a => .ok a

@[simp] lemma orError_eq_ok {o : Option α} : orError e o = .ok a ↔ o = some a := by
  cases o <;> simp [orError]

/-- The first occurrence of every element that was not seen before. -/
def retainNew {α : Type} [DecidableEq α] : List α → List α → List α
  | _, [] => []
  | seen, a :: l => if a ∈ seen then retainNew seen l else a :: retainNew (a :: seen) l

lemma mem_retainNew [DecidableEq α] {a : α} {seen : List α} :
    a ∈ retainNew seen l ↔ a ∈ l ∧ a ∉ seen := by
  induction l generalizing seen with
  | nil => simp [retainNew]
  | cons b l ih =>
    unfold retainNew
    by_cases hb : b ∈ seen <;> by_cases hab : a = b <;> simp_all

/-- An entry of an association list with distinct keys is found under its key. -/
lemma lookup_eq_some_of_mem [BEq α] [LawfulBEq α] {l : List (α × β)} (hl : (l.map Prod.fst).Nodup)
    {e : α × β} (he : e ∈ l) : l.lookup e.1 = some e.2 := by
  induction l with
  | nil => exact absurd he not_mem_nil
  | cons f l ih =>
    rw [map_cons, nodup_cons] at hl
    rcases mem_cons.1 he with rfl | he
    · exact lookup_cons_self
    · have hne : e.1 ≠ f.1 := fun heq => hl.1 (heq ▸ mem_map_of_mem he)
      rw [lookup_cons, beq_false_of_ne hne]
      exact ih hl.2 he

lemma getElem?_of_isPrefix {l' : List α} (h : l <+: l') (hi : l[i]? = some a) :
    l'[i]? = some a := by
  obtain ⟨hlt, rfl⟩ := List.getElem?_eq_some_iff.1 hi
  exact prefix_iff_getElem?.1 h i hlt

lemma mem_of_lookup [BEq α] [LawfulBEq α] {l : List (α × β)} {b : β} (h : l.lookup a = some b) :
    (a, b) ∈ l := by
  obtain ⟨l₁, l₂, rfl, -⟩ := lookup_eq_some_iff.1 h
  simp

/-- Replacing an element by one with the same image keeps the images. -/
lemma map_set_of_eq {f : α → β} {a' : α} (h : l[i]? = some a) (hf : f a' = f a) :
    (l.set i a').map f = l.map f := by
  apply ext_getElem?
  intro j
  rw [getElem?_map, getElem?_map, getElem?_set]
  split
  · next hij =>
    subst hij
    rw [h, if_pos (List.getElem?_eq_some_iff.1 h).1, Option.map_some, Option.map_some, hf]
  · rfl

lemma map_eq_of_forall₂ {γ : Type} {f : α → γ} {g : β → γ} {m : List β}
    (h : List.Forall₂ (fun a b => f a = g b) l m) : l.map f = m.map g := by
  induction h with
  | nil => rfl
  | cons hab _ ih => rw [map_cons, map_cons, hab, ih]

/-- Lists with equal images are related element by element. -/
lemma forall₂_of_map_eq {f : α → β} {R : α → α → Prop} {m : List α} (h : l.map f = m.map f)
    (hR : ∀ a ∈ l, ∀ b ∈ m, f a = f b → R a b) : List.Forall₂ R l m := by
  induction l generalizing m with
  | nil =>
    obtain rfl := map_eq_nil_iff.1 h.symm
    exact .nil
  | cons a l ih =>
    cases m with
    | nil => simp at h
    | cons b m =>
      rw [map_cons, map_cons, List.cons.injEq] at h
      exact .cons (hR a (by simp) b (by simp) h.1)
        (ih h.2 fun c hc d hd => hR c (by simp [hc]) d (by simp [hd]))

/-- A value together with the proof that a check accepted it. -/
@[ext] structure Checked {α ε : Type} (check : α → Except ε Unit) where
  value : α
  valid : check value = .ok ()

instance {α ε : Type} [DecidableEq α] (check : α → Except ε Unit) : DecidableEq (Checked check) :=
  fun x y => decidable_of_iff (x.value = y.value) (by cases x; cases y; simp)

def Checked.new {α ε : Type} (check : α → Except ε Unit) (value : α) : Except ε (Checked check) :=
  match h : check value with
  | .ok () => .ok ⟨value, h⟩
  | .error e => .error e

@[simp] lemma Checked.new_eq_ok {value : α} {c : Checked check} :
    Checked.new check value = .ok c ↔ c.value = value := by
  obtain ⟨v, hv⟩ := c
  unfold Checked.new
  split
  · rw [Except.ok.injEq, Checked.mk.injEq, eq_comm]
  rename_i e h
  constructor
  · intro h'
    exact absurd h' (by simp)
  · rintro rfl
    exact absurd (h.symm.trans hv) (by simp)

/-- A value that a fallible constructor returned. -/
@[ext] structure Constructed {α β ε : Type} (construct : α → Except ε β) where
  value : β
  built : ∃ input, construct input = .ok value

def Constructed.new {α β ε : Type} (construct : α → Except ε β) (input : α) :
    Except ε (Constructed construct) :=
  match h : construct input with
  | .ok value => .ok ⟨value, input, h⟩
  | .error e => .error e

@[simp] lemma Constructed.new_eq_ok {construct : α → Except ε β} {input : α}
    {c : Constructed construct} :
    Constructed.new construct input = .ok c ↔ construct input = .ok c.value := by
  unfold Constructed.new
  split
  · next value h =>
    rw [Except.ok.injEq, Constructed.ext_iff]
    exact ⟨fun hvalue => h.trans (congrArg _ hvalue), fun hc => Except.ok.inj (h.symm.trans hc)⟩
  · next e h => simp [h]

/-! ## Strings -/

namespace Text

/-- The characters with the White_Space property, which `str::trim` removes. -/
def isWhitespace (c : Char) : Bool :=
  let n := c.toNat
  (9 ≤ n && n ≤ 13) || n = 0x20 || n = 0x85 || n = 0xA0 || n = 0x1680 ||
    (0x2000 ≤ n && n ≤ 0x200A) || n = 0x2028 || n = 0x2029 || n = 0x202F || n = 0x205F ||
    n = 0x3000

def trim (s : String) : String :=
  String.ofList ((s.toList.dropWhile isWhitespace).reverse.dropWhile isWhitespace).reverse

def split (c : Char) (s : String) : List String := (s.toList.splitOn c).map String.ofList

/-- The parts of `s` between any of the given characters. -/
def splitAny (cs : List Char) (s : String) : List String :=
  (s.toList.splitOnP (fun c => c ∈ cs)).map String.ofList

/-- The text before and after the first occurrence of `c`. -/
def splitOnce (c : Char) (s : String) : Option (String × String) :=
  if c ∈ s.toList then
    some (String.ofList (s.toList.takeWhile (· ≠ c)),
      String.ofList ((s.toList.dropWhile (· ≠ c)).drop 1))
  else none

def rsplitOnce (c : Char) (s : String) : Option (String × String) :=
  (splitOnce c (String.ofList s.toList.reverse)).map fun (after, before) =>
    (String.ofList before.toList.reverse, String.ofList after.toList.reverse)

def stripLast (c : Char) (s : String) : Option String :=
  if s.toList.getLast? = some c then some (String.ofList s.toList.dropLast) else none

/-- A decimal number below `2 ^ 32`; one leading plus sign is allowed. -/
def parseU32 (s : String) : Option UInt32 :=
  let digits : List Char := match s.toList with
    | '+' :: rest => rest
    | chars => chars
  let value : ℕ := digits.foldl (fun n c => 10 * n + (c.toNat - 48)) 0
  if digits ≠ [] ∧ digits.all Char.isDigit ∧ value < 2 ^ 32 then some (UInt32.ofNat value) else none

def after? (start s : String) : Option String :=
  if start.toList.isPrefixOf s.toList then some (String.ofList (s.toList.drop start.length))
  else none

def entries (attr : Option String) : List String :=
  (attr.toList.flatMap (split ',')).map trim

def hex (width n : ℕ) : String :=
  let digits := Nat.toDigits 16 n
  "0x" ++ String.ofList (List.replicate (width - digits.length) '0' ++ digits)

end Text

end Ostadix
