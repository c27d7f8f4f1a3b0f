import Mathlib.Data.List.Basic
import Mathlib.Order.Basic

/-! A file that is replaced by renaming a staged copy over it. -/

namespace Ostadix

/-- What a reader sees of a file, and what a crash may bring back because a rename was not synced.
-/
structure DurableFile (α : Type) where
  newest : Option α
  older : List (Option α) := []

inductive Publication where
  /-- The staged copy is not renamed. -/
  | staged
  /-- The rename is done and the directory is not synced. -/
  | renamed
  /-- The directory is synced, and a later check fails. -/
  | synced
  | finished
  deriving DecidableEq, Repr

namespace DurableFile

variable {α : Type}

/-- The contents that may be found after a crash, the newest first. -/
def survivors (file : DurableFile α) : List (Option α) := file.newest :: file.older

def publish (file : DurableFile α) (content : α) : Publication → DurableFile α
  | .staged => file
  | .renamed => ⟨some content, file.survivors⟩
  | .synced | .finished => ⟨some content, []⟩

/-- After a crash one of the contents is there, for good. -/
def crash (file : DurableFile α) (pick : ℕ) : DurableFile α :=
  ⟨(file.survivors[pick]?).getD file.newest, []⟩

lemma newest_mem_survivors (file : DurableFile α) : file.newest ∈ file.survivors :=
  List.mem_cons_self

lemma crash_newest_mem (file : DurableFile α) (pick : ℕ) :
    (file.crash pick).newest ∈ file.survivors := by
  unfold crash
  cases h : file.survivors[pick]? with
  | none => exact file.newest_mem_survivors
  | some content => exact List.mem_of_getElem? h

/-- What holds of every content that may be found, and of the new one, holds afterwards. -/
lemma forall_survivors_publish {P : Option α → Prop} {file : DurableFile α} {content : α}
    (hfile : ∀ x ∈ file.survivors, P x) (hcontent : P (some content)) (progress : Publication) :
    ∀ x ∈ (file.publish content progress).survivors, P x := by
  cases progress with
  | staged => exact hfile
  | renamed => simpa [publish, survivors] using ⟨hcontent, by simpa [survivors] using hfile⟩
  | synced | finished => simpa [publish, survivors] using hcontent

lemma forall_survivors_crash {P : Option α → Prop} {file : DurableFile α}
    (hfile : ∀ x ∈ file.survivors, P x) (pick : ℕ) : ∀ x ∈ (file.crash pick).survivors, P x := by
  intro x hx
  obtain rfl : x = (file.crash pick).newest := by simpa [survivors, crash] using hx
  exact hfile _ (file.crash_newest_mem pick)

end DurableFile

end Ostadix
