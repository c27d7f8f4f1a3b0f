import Mathlib.Algebra.Order.BigOperators.Group.Finset
import Ostadix.CapabilityInvariant

/-! Physical frames: a stack of free ones, and handles that carry the frame's generation. -/

namespace Ostadix.PageFrames

open TaggedHandle Capability

def pageSize : ℕ := 4096
def frameKindKernel : UInt64 := 1
def frameKindPageTable : UInt64 := 2
def frameKindExecutable : UInt64 := 3
def frameKindAnonymous : UInt64 := 4
def frameKindShared : UInt64 := 5

abbrev maxFrames : ℕ := 3072
def frameHandleTag : UInt64 := 0xf1000000

inductive FrameState where
  | unused | free | live | retired
  deriving DecidableEq, Repr

structure Frame where
  state : FrameState
  kind : UInt64
  (references generation : UInt32)
  freePosition : ℕ
  deriving DecidableEq, Repr

/-- Only the first entries of the stack are in use, and a free frame knows its own. -/
structure Frames where
  (start stop count freeCount liveCount retiredCount : ℕ)
  (initialized failAfterPop : Bool)
  frames : Fin maxFrames → Frame
  freeStack : ℕ → ℕ

def ValidKind (kind : UInt64) : Prop :=
  kind = frameKindKernel ∨ kind = frameKindPageTable ∨ kind = frameKindExecutable ∨
    kind = frameKindAnonymous ∨ kind = frameKindShared

instance (kind : UInt64) : Decidable (ValidKind kind) := inferInstanceAs (Decidable (_ ∨ _))

namespace Frames

variable (f : Frames)

def checkedIndex (handle expectedKind : UInt64) : Option (Fin maxFrames) :=
  if h : index handle < maxFrames then
    let frame := f.frames ⟨index handle, h⟩
    if tagOf handle = frameHandleTag ∧ f.initialized ∧ index handle < f.count ∧
        frame.state = .live ∧ frame.generation = generation handle ∧ ValidKind expectedKind ∧
        frame.kind = expectedKind then
      some ⟨index handle, h⟩
    else none
  else none

def setFrame (i : Fin maxFrames) (frame : Frame) : Frames :=
  { f with frames := Function.update f.frames i frame }

def init (start stop : ℕ) : UInt64 × Frames :=
  let count := (stop - start) / pageSize
  if f.initialized ∨ stop ≤ start ∨ start % pageSize ≠ 0 ∨ stop % pageSize ≠ 0 ∨ count = 0 ∨
      count > maxFrames then (0, f)
  else
    (1, { start, stop, count, freeCount := count, liveCount := 0
          retiredCount := 0, initialized := true, failAfterPop := false
          frames := fun i =>
            if (i : ℕ) < count then ⟨.free, 0, 0, 1, count - i⟩ else ⟨.unused, 0, 0, 0, 0⟩
          freeStack := fun position => if position < count then count - position - 1 else 0 })

def change (i : Fin maxFrames) (frame : Frame) (free live retired : ℕ) (stack : ℕ → ℕ) : Frames :=
  { f.setFrame i frame with
    freeCount := free, liveCount := live, retiredCount := retired, freeStack := stack }

def top : Option (Fin maxFrames) :=
  if h : f.freeStack (f.freeCount - 1) < maxFrames then some ⟨f.freeStack (f.freeCount - 1), h⟩
  else none

/-- The frame on top of the stack. An injected failure pushes it back at once. -/
def allocFrame (kind : UInt64) : UInt64 × Frames :=
  if f.initialized = false ∨ ¬ValidKind kind ∨ f.freeCount = 0 then (0, f)
  else match f.top with
    | none => (0, f)
    | some i =>
      let frame := f.frames i
      if f.count ≤ (i : ℕ) ∨ frame.state ≠ .free ∨ frame.freePosition ≠ f.freeCount then (0, f)
      else if f.failAfterPop then (0, { f with failAfterPop := false })
      else
        (make frameHandleTag frame.generation i,
          f.change i ⟨.live, kind, 1, frame.generation, 0⟩ (f.freeCount - 1) (f.liveCount + 1)
            f.retiredCount f.freeStack)

def releaseFrame (handle expectedKind : UInt64) : UInt64 × Frames :=
  match f.checkedIndex handle expectedKind with
  | none => (0, f)
  | some i =>
    let frame := f.frames i
    if frame.references = 0 then (0, f)
    else if frame.references > 1 then
      (1, f.setFrame i { frame with references := frame.references - 1 })
    else if f.liveCount = 0 ∨ (frame.generation ≠ 0xffffffff ∧ f.freeCount ≥ f.count) then (0, f)
    else if frame.generation = 0xffffffff then
      (1, f.change i ⟨.retired, 0, 0, frame.generation, frame.freePosition⟩ f.freeCount
        (f.liveCount - 1) (f.retiredCount + 1) f.freeStack)
    else
      (1, f.change i ⟨.free, 0, 0, frame.generation + 1, f.freeCount + 1⟩ (f.freeCount + 1)
        (f.liveCount - 1) f.retiredCount (Function.update f.freeStack f.freeCount i))

def frameAddress (handle expectedKind : UInt64) : ℕ :=
  match f.checkedIndex handle expectedKind with
  | none => 0
  | some i => f.start + i * pageSize

/-! ## The invariant that the code checks -/

def FrameValid (i : Fin maxFrames) (frame : Frame) : Prop :=
  if f.count ≤ (i : ℕ) then
    frame.state = .unused ∧ frame.kind = 0 ∧ frame.references = 0 ∧ frame.generation = 0 ∧
      frame.freePosition = 0
  else match frame.state with
    | .free =>
      frame.kind = 0 ∧ frame.references = 0 ∧ frame.generation ≠ 0 ∧ frame.freePosition ≠ 0 ∧
        frame.freePosition ≤ f.freeCount ∧ f.freeStack (frame.freePosition - 1) = i
    | .live =>
      ValidKind frame.kind ∧ frame.references ≠ 0 ∧ frame.generation ≠ 0 ∧ frame.freePosition = 0
    | .retired =>
      frame.kind = 0 ∧ frame.references = 0 ∧ frame.generation = 0xffffffff ∧
        frame.freePosition = 0
    | .unused => False

instance (f : Frames) (i : Fin maxFrames) (frame : Frame) : Decidable (f.FrameValid i frame) := by
  unfold FrameValid
  split
  · infer_instance
  · split <;> infer_instance

def observed (state : FrameState) : ℕ :=
  ∑ i, if (f.frames i).state = state then 1 else 0

def InvariantsHold : Prop :=
  f.initialized ∧ f.start < f.stop ∧ f.count ≠ 0 ∧ f.count ≤ maxFrames ∧ f.freeCount ≤ f.count ∧
    f.liveCount ≤ f.count ∧ f.stop - f.start = f.count * pageSize ∧
    (∀ i, f.FrameValid i (f.frames i)) ∧ f.observed .free = f.freeCount ∧
    f.observed .live = f.liveCount ∧ f.observed .retired = f.retiredCount ∧
    f.freeCount + f.liveCount + f.retiredCount = f.count

instance (f : Frames) : Decidable f.InvariantsHold := inferInstanceAs (Decidable (_ ∧ _))

/-! ## Reading a handle -/

lemma isTag_frameHandleTag : IsTag frameHandleTag := by decide

lemma frameIndex_lt (i : Fin maxFrames) : (i : ℕ) < 2 ^ 24 := by
  exact Nat.lt_trans i.isLt (by decide)

variable {f : Frames} {handle kind : UInt64} {i : Fin maxFrames}

lemma checkedIndex_eq_some :
    f.checkedIndex handle kind = some i ↔
      handle = make frameHandleTag (f.frames i).generation i ∧ f.initialized ∧ (i : ℕ) < f.count ∧
        (f.frames i).state = .live ∧ ValidKind kind ∧ (f.frames i).kind = kind := by
  unfold checkedIndex
  constructor
  · intro h
    split at h
    · dsimp only at h
      split at h
      · next hchecks =>
        obtain ⟨htag, hinit, hcount, hstate, hgeneration, hkind, heq⟩ := hchecks
        cases h
        refine ⟨?_, hinit, hcount, hstate, hkind, heq⟩
        rw [hgeneration]
        exact eq_make isTag_frameHandleTag htag
      · cases h
    · cases h
  · rintro ⟨rfl, hinit, hcount, hstate, hkind, heq⟩
    have hlt := frameIndex_lt i
    have hindex : index (make frameHandleTag (f.frames i).generation i) = i :=
      index_make isTag_frameHandleTag _ hlt
    have htag := tagOf_make isTag_frameHandleTag (f.frames i).generation hlt
    have hgeneration := generation_make isTag_frameHandleTag (f.frames i).generation hlt
    simp only [hindex, htag, hgeneration]
    rw [dif_pos i.isLt, if_pos]
    exact ⟨trivial, hinit, hcount, hstate, trivial, hkind, heq⟩

/-! ## Allocating and releasing -/

/-- A frame that its holder alone refers to. -/
structure Owns (f : Frames) (handle kind : UInt64) (i : Fin maxFrames) : Prop where
  checked : f.checkedIndex handle kind = some i
  single : (f.frames i).references = 1

structure Elsewhere (f f' : Frames) (i : Fin maxFrames) : Prop where
  count : f'.count = f.count
  initialized : f'.initialized = f.initialized
  others : ∀ j, j ≠ i → f'.frames j = f.frames j

lemma Elsewhere.owns {f' : Frames} {j : Fin maxFrames} (h : Elsewhere f f' i) (hne : j ≠ i)
    (howns : f.Owns handle kind j) : f'.Owns handle kind j := by
  obtain ⟨hchecked, hsingle⟩ := howns
  refine ⟨?_, ?_⟩
  · rw [checkedIndex_eq_some] at hchecked ⊢
    rw [h.count, h.initialized, h.others j hne]
    exact hchecked
  · rw [h.others j hne]
    exact hsingle

lemma observed_setFrame (f : Frames) (i : Fin maxFrames) (frame : Frame) (state : FrameState) :
    (f.setFrame i frame).observed state + (if (f.frames i).state = state then 1 else 0) =
      f.observed state + if frame.state = state then 1 else 0 :=
  sum_update (fun frame : Frame => if frame.state = state then 1 else 0) f.frames i frame

/-- The frames other than a changed one stay valid when the stack below them does. -/
lemma FrameValid.congr {f' : Frames} {frame : Frame} (h : f.FrameValid i frame)
    (hcount : f'.count = f.count)
    (hstack : frame.freePosition ≠ 0 → frame.freePosition ≤ f.freeCount →
      f.freeStack (frame.freePosition - 1) = i → frame.freePosition ≤ f'.freeCount ∧
      f'.freeStack (frame.freePosition - 1) = i) : f'.FrameValid i frame := by
  unfold FrameValid at h ⊢
  rw [hcount]
  split
  · next hout =>
    rw [if_pos hout] at h
    exact h
  rename_i hin
  rw [if_neg hin] at h
  cases hstate : frame.state with
  | free =>
    simp only [hstate] at h ⊢
    obtain ⟨hkind, hrefs, hgen, hpos, hle, hentry⟩ := h
    obtain ⟨hle', hentry'⟩ := hstack hpos hle hentry
    exact ⟨hkind, hrefs, hgen, hpos, hle', hentry'⟩
  | live =>
    simp only [hstate] at h ⊢
    exact h
  | retired =>
    simp only [hstate] at h ⊢
    exact h
  | unused =>
    simp only [hstate] at h

lemma change_frames (f : Frames) (i : Fin maxFrames) (frame : Frame) (free live retired : ℕ)
    (stack : ℕ → ℕ) : (f.change i frame free live retired stack).frames i = frame := by
  simp [change, setFrame]

lemma change_count (f : Frames) (i : Fin maxFrames) (frame : Frame) (free live retired : ℕ)
    (stack : ℕ → ℕ) : (f.change i frame free live retired stack).count = f.count := rfl

lemma elsewhere_change (f : Frames) (i : Fin maxFrames) (frame : Frame) (free live retired : ℕ)
    (stack : ℕ → ℕ) : Elsewhere f (f.change i frame free live retired stack) i :=
  ⟨rfl, rfl, fun _ hj => Function.update_of_ne hj _ _⟩

lemma InvariantsHold.change {f : Frames} (h : f.InvariantsHold) {i : Fin maxFrames}
    {frame : Frame} {free live retired : ℕ} {stack : ℕ → ℕ}
    (hfree : free + (if (f.frames i).state = .free then 1 else 0) =
      f.freeCount + if frame.state = .free then 1 else 0)
    (hlive : live + (if (f.frames i).state = .live then 1 else 0) =
      f.liveCount + if frame.state = .live then 1 else 0)
    (hretired : retired + (if (f.frames i).state = .retired then 1 else 0) =
      f.retiredCount + if frame.state = .retired then 1 else 0)
    (htotal : free + live + retired = f.count)
    (hframe : (f.change i frame free live retired stack).FrameValid i frame)
    (hstack : ∀ j, j ≠ i → (f.frames j).freePosition ≠ 0 → (f.frames j).freePosition ≤ f.freeCount →
      f.freeStack ((f.frames j).freePosition - 1) = j →
      (f.frames j).freePosition ≤ free ∧ stack ((f.frames j).freePosition - 1) = j) :
    (f.change i frame free live retired stack).InvariantsHold := by
  obtain ⟨hinit, hstart, hne, hmax, hfreeLe, hliveLe, hrange, hvalid, hobsFree, hobsLive,
    hobsRetired, -⟩ := h
  have hobs := observed_setFrame f i frame
  refine ⟨hinit, hstart, hne, hmax, ?_, ?_, hrange, fun j => ?_, ?_, ?_, ?_, htotal⟩
  · change free ≤ f.count
    omega
  · change live ≤ f.count
    omega
  · by_cases hj : j = i
    · subst hj
      rw [change_frames]
      exact hframe
    · rw [(elsewhere_change f i frame free live retired stack).others j hj]
      exact (hvalid j).congr rfl (hstack j hj)
  · have hcount := hobs .free
    change (f.setFrame i frame).observed .free = free
    omega
  · have hcount := hobs .live
    change (f.setFrame i frame).observed .live = live
    omega
  · have hcount := hobs .retired
    change (f.setFrame i frame).observed .retired = retired
    omega

lemma allocFrame_cases (h : f.InvariantsHold) (kind : UInt64) :
    ((f.allocFrame kind).1 = 0 ∧ (f.allocFrame kind).2.InvariantsHold ∧
      ∀ i, Elsewhere f (f.allocFrame kind).2 i ∧ (f.allocFrame kind).2.frames i = f.frames i) ∨
    ((f.allocFrame kind).1 ≠ 0 ∧ (f.allocFrame kind).2.InvariantsHold ∧
      ∃ i, (f.frames i).state = .free ∧ Elsewhere f (f.allocFrame kind).2 i ∧
        (f.allocFrame kind).2.Owns (f.allocFrame kind).1 kind i) := by
  have hsame := h
  obtain ⟨hinit, hstart, hne, hmax, hfreeLe, hliveLe, hrange, hvalid, hfree, hlive, hretired,
    htotal⟩ := h
  unfold allocFrame
  split
  · exact .inl ⟨rfl, hsame, fun i => ⟨⟨rfl, rfl, fun _ _ => rfl⟩, rfl⟩⟩
  rename_i hguard
  push Not at hguard
  obtain ⟨-, hkind, hpos⟩ := hguard
  split
  · exact .inl ⟨rfl, hsame, fun i => ⟨⟨rfl, rfl, fun _ _ => rfl⟩, rfl⟩⟩
  rename_i i hi
  have htop : f.freeStack (f.freeCount - 1) = i := by
    unfold top at hi
    split at hi
    · cases hi
      rfl
    · cases hi
  dsimp only
  split
  · exact .inl ⟨rfl, hsame, fun i => ⟨⟨rfl, rfl, fun _ _ => rfl⟩, rfl⟩⟩
  rename_i hchecks
  push Not at hchecks
  obtain ⟨hin, hstate, hposition⟩ := hchecks
  split
  · exact .inl ⟨rfl, ⟨hinit, hstart, hne, hmax, hfreeLe, hliveLe, hrange, hvalid, hfree,
      hlive, hretired, htotal⟩, fun i => ⟨⟨rfl, rfl, fun _ _ => rfl⟩, rfl⟩⟩
  have hvi := hvalid i
  rw [FrameValid, if_neg (Nat.not_le.2 hin), hstate] at hvi
  obtain ⟨-, -, hgen, -, -, -⟩ := hvi
  refine .inr ⟨make_ne_zero isTag_frameHandleTag _ hgen (frameIndex_lt i), ?_, i, hstate,
    elsewhere_change f i _ _ _ _ _, ?_, ?_⟩
  · apply hsame.change
    · simp only [hstate, if_true, reduceCtorEq, if_false]
      omega
    · simp [hstate]
    · simp [hstate]
    · omega
    · rw [FrameValid, change_count, if_neg (Nat.not_le.2 hin)]
      exact ⟨hkind, show (1 : UInt32) ≠ 0 by decide, hgen, rfl⟩
    · intro j hj hpj hlej hentry
      -- the popped entry names the popped frame only
      have hne' : (f.frames j).freePosition ≠ f.freeCount := by
        intro heq
        rw [heq, htop] at hentry
        exact hj (Fin.ext hentry.symm)
      exact ⟨by omega, hentry⟩
  · rw [checkedIndex_eq_some, change_frames]
    exact ⟨rfl, hinit, hin, rfl, hkind, rfl⟩
  · rw [change_frames]

/-- The last reference to a frame is always accepted back, and the frame is then not live. -/
lemma releaseFrame_of_owns (h : f.InvariantsHold) (howns : f.Owns handle kind i) :
    (f.releaseFrame handle kind).1 = 1 ∧ (f.releaseFrame handle kind).2.InvariantsHold ∧
      Elsewhere f (f.releaseFrame handle kind).2 i ∧
      ((f.releaseFrame handle kind).2.frames i).state ≠ .live := by
  have hsame := h
  obtain ⟨hinit, hstart, hne, hmax, hfreeLe, hliveLe, hrange, hvalid, hfree, hlive, hretired,
    htotal⟩ := h
  obtain ⟨-, -, hin, hstate, -, -⟩ := checkedIndex_eq_some.1 howns.checked
  have hvi := hvalid i
  rw [FrameValid, if_neg (Nat.not_le.2 hin), hstate] at hvi
  obtain ⟨-, -, hgen, hpos⟩ := hvi
  have hone : 1 ≤ f.liveCount := by
    rw [← hlive]
    have hle := Finset.single_le_sum
      (fun j _ => Nat.zero_le (if (f.frames j).state = FrameState.live then 1 else 0))
      (Finset.mem_univ i)
    rw [if_pos hstate] at hle
    exact hle
  unfold releaseFrame
  rw [howns.checked]
  dsimp only
  rw [if_neg (by rw [howns.single]; decide), if_neg (by rw [howns.single]; decide),
    if_neg (by push Not; exact ⟨by omega, fun _ => by omega⟩)]
  split
  · next hlast =>
    refine ⟨rfl, ?_, elsewhere_change f i _ f.freeCount _ _ f.freeStack, ?_⟩
    · apply hsame.change
      · simp [hstate]
      · simp only [hstate, if_true, reduceCtorEq, if_false]
        omega
      · simp [hstate]
      · omega
      · rw [FrameValid, change_count, if_neg (Nat.not_le.2 hin)]
        exact ⟨rfl, rfl, hlast, hpos⟩
      · exact fun j _ _ hle hentry => ⟨hle, hentry⟩
    · rw [change_frames]
      exact nofun
  · next hnext =>
    refine ⟨rfl, ?_, elsewhere_change f i _ _ _ f.retiredCount _, ?_⟩
    · apply hsame.change
      · simp [hstate]
      · simp only [hstate, if_true, reduceCtorEq, if_false]
        omega
      · simp [hstate]
      · omega
      · rw [FrameValid, change_count, if_neg (Nat.not_le.2 hin)]
        refine ⟨rfl, rfl, ?_, Nat.succ_ne_zero _, Nat.le_refl _, ?_⟩
        · intro hzero
          have hnat := congrArg UInt32.toNat hzero
          rw [toNat_succ hnext] at hnat
          exact absurd hnat (Nat.succ_ne_zero _)
        · simp [change]
      · intro j _ hpj hle hentry
        refine ⟨by omega, ?_⟩
        rw [Function.update_of_ne (by omega)]
        exact hentry
    · rw [change_frames]
      exact nofun

lemma invariantsHold_init {start stop : ℕ} (h : (f.init start stop).1 = 1) :
    (f.init start stop).2.InvariantsHold := by
  unfold init at h ⊢
  dsimp only at h ⊢
  split at h
  · cases h
  rename_i hguard
  rw [if_neg hguard]
  push Not at hguard
  obtain ⟨-, hlt, hstart, hstop, hne, hmax⟩ := hguard
  generalize hcount : (stop - start) / pageSize = count at hne hmax ⊢
  have hstate : ∀ state, ∀ i : Fin maxFrames,
      (if (if (i : ℕ) < count then (⟨.free, 0, 0, 1, count - i⟩ : Frame)
        else ⟨.unused, 0, 0, 0, 0⟩).state = state then 1 else 0) =
      if (i : ℕ) < count then (if FrameState.free = state then 1 else 0)
        else if FrameState.unused = state then 1 else 0 := by
    intro state i
    split <;> rfl
  have hpages : stop - start = count * pageSize := by
    rw [← hcount]
    simp only [pageSize] at hstart hstop ⊢
    omega
  refine ⟨rfl, hlt, hne, hmax, Nat.le_refl _, Nat.zero_le _, hpages, fun i => ?_, ?_, ?_, ?_, ?_⟩
  · unfold FrameValid
    dsimp only
    by_cases hi : (i : ℕ) < count
    · rw [if_neg (Nat.not_le.2 hi), if_pos hi]
      refine ⟨rfl, rfl, show (1 : UInt32) ≠ 0 by decide, ?_, Nat.sub_le _ _, ?_⟩
      · exact Nat.sub_ne_zero_of_lt hi
      · change (if count - i - 1 < count then count - (count - i - 1) - 1 else 0) = (i : ℕ)
        rw [if_pos (by omega)]
        omega
    · rw [if_pos (Nat.not_lt.1 hi), if_neg hi]
      exact ⟨rfl, rfl, rfl, rfl, rfl⟩
  · change ∑ i : Fin maxFrames, _ = count
    simp only [hstate, if_true, reduceCtorEq, if_false]
    rw [Finset.sum_boole, Nat.cast_id, Fin.card_filter_val_lt]
    exact Nat.min_eq_right hmax
  · change ∑ i : Fin maxFrames, _ = 0
    simp only [hstate, reduceCtorEq, if_false, ite_self, Finset.sum_const_zero]
  · change ∑ i : Fin maxFrames, _ = 0
    simp only [hstate, reduceCtorEq, if_false, ite_self, Finset.sum_const_zero]
  · rfl

end Frames

end Ostadix.PageFrames
