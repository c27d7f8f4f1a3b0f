import Mathlib.Data.List.Induction
import Mathlib.Order.Basic
import Ostadix.LinkTree

/-! The materialization of a project bundle below a destination directory. -/

namespace Ostadix.Materialize

open Function LinkTree List

/-- A stored file; a symbolic link has a target and its bytes are not read. -/
structure ProjectFile where
  path : PathText
  bytes : List UInt8
  executable : Bool
  unixMode : Option ℕ
  symlinkTarget : Option PathText
  deriving DecidableEq, Repr

def ProjectFile.isSymlink (file : ProjectFile) : Bool := file.symlinkTarget.isSome

inductive Error where
  | absolutePath
  | parentComponent
  | emptyPath
  | throughSymlink
  | escapesRoot
  | io
  deriving DecidableEq, Repr

/-- The disk, with the objects a call changed and the links it made. -/
structure Disk where
  tree : Tree
  (touched created : List Place)

/-- A call leaves its writes behind also where it fails. -/
abbrev Outcome := Disk × Option Error

def Outcome.andThen (outcome : Outcome) (next : Disk → Outcome) : Outcome :=
  match outcome.2 with
  | none => next outcome.1
  | some error => (outcome.1, some error)

def Disk.put (disk : Disk) (place : Place) (entry : Entry) : Disk :=
  { disk with
    tree := update disk.tree place (some entry)
    touched := disk.touched ++ [place] }

def Disk.untouched (tree : Tree) : Disk := ⟨tree, [], []⟩

/-- The root directory is always there. -/
def Disk.entryAt (disk : Disk) (place : Place) : Option Entry :=
  if place = [] then some .directory else disk.tree place

/-! ## The checks -/

def normalParts : List Part → Except Error Place
  | [] => .ok []
  | .current :: rest => normalParts rest
  | .parent :: _ => .error .parentComponent
  | .normal name :: rest => do
    let out ← normalParts rest
    return name :: out

def safeRelative (path : PathText) : Except Error Place := do
  if path.absolute then throw .absolutePath
  let out ← normalParts path.parts
  if out = [] then throw .emptyPath
  return out

/-- No directory between the root and the target may be a link; the target itself may. -/
def ensureNoSymlinkEscape (tree : Tree) (root rel : Place) : Bool :=
  (List.range (rel.length - 1)).all fun k => (linkAt tree (root ++ rel.take (k + 1))).isNone

/-- Components are cancelled as text, without a look at the disk. -/
def normalize (base : Place) (path : PathText) : Place :=
  path.parts.foldl
    (fun out part =>
      match part with
      | .current => out
      | .parent => out.dropLast
      | .normal name => out ++ [name])
    (if path.absolute then [] else base)

/-! ## The writes -/

def isDir (limit : ℕ) (path : List Part) (disk : Disk) : Bool :=
  (resolve disk.tree true limit [] path).any fun place => disk.entryAt place = some .directory

def mkdir (limit : ℕ) (path : List Part) (disk : Disk) : Outcome :=
  match resolve disk.tree false limit [] path with
  | none => (disk, some .io)
  | some place =>
    match disk.entryAt place with
    | none => (disk.put place .directory, none)
    | some _ => (disk, some .io)

/-- The path is given from its last component on. A missing parent is made first, and it is no error
if the directory is there. -/
def createDirAll (limit : ℕ) : List Part → Disk → Outcome
  | [], disk => (disk, none)
  | last :: above, disk =>
    let path := (last :: above).reverse
    if isDir limit path disk then (disk, none)
    else
      Outcome.andThen (createDirAll limit above disk) fun disk =>
        if isDir limit path disk then (disk, none) else mkdir limit path disk

def canonicalize (limit : ℕ) (path : List Part) (disk : Disk) : Option Place :=
  (resolve disk.tree true limit [] path).filter fun place => (disk.entryAt place).isSome

/-- Change the file that a path leads to. Links are followed, also one at the end of the path. -/
def changeFile (limit : ℕ) (path : Place) (change : Option Entry → Option Entry) (disk : Disk) :
    Outcome :=
  match resolve disk.tree true limit [] (names path) with
  | none => (disk, some .io)
  | some place =>
    match change (disk.entryAt place) with
    | none => (disk, some .io)
    | some entry => (disk.put place entry, none)

def writeFile (limit : ℕ) (path : Place) (bytes : List UInt8) : Disk → Outcome :=
  changeFile limit path fun
    | none => some (.file bytes none)
    | some (.file _ mode) => some (.file bytes mode)
    | some .directory | some (.link _) => none

def setPermissions (limit : ℕ) (path : Place) (mode : ℕ) : Disk → Outcome :=
  changeFile limit path fun
    | some (.file bytes _) => some (.file bytes (some mode))
    | none | some .directory | some (.link _) => none

def restoreMode (limit : ℕ) (path : Place) (file : ProjectFile) (disk : Disk) : Outcome :=
  match file.unixMode with
  | some mode => setPermissions limit path mode disk
  | none => if file.executable then setPermissions limit path 0o755 disk else (disk, none)

/-- Making a link does not follow one at the end of its path: an existing object is an error. -/
def createSymlink (limit : ℕ) (target : PathText) (path : Place) (disk : Disk) : Outcome :=
  if target.absolute = false ∧ target.parts = [] then (disk, some .io)
  else
    match resolve disk.tree false limit [] (names path) with
    | none => (disk, some .io)
    | some place =>
      match disk.entryAt place with
      | none =>
        ({ disk.put place (.link target) with created := disk.created ++ [place] }, none)
      | some _ => (disk, some .io)

/-- The path of a file below the root, checked and with its directories made. -/
def prepareParent (limit : ℕ) (root : Place) (file : ProjectFile) (disk : Disk)
    (next : Place → Disk → Outcome) : Outcome :=
  match safeRelative file.path with
  | .error error => (disk, some error)
  | .ok rel =>
    if ensureNoSymlinkEscape disk.tree root rel then
      Outcome.andThen (createDirAll limit (names (root ++ rel.dropLast)).reverse disk) (next rel)
    else (disk, some .throughSymlink)

def materializeFile (limit : ℕ) (root : Place) (file : ProjectFile) (disk : Disk) : Outcome :=
  prepareParent limit root file disk fun rel disk =>
    Outcome.andThen (writeFile limit (root ++ rel) file.bytes disk) fun disk =>
      restoreMode limit (root ++ rel) file disk

def materializeSymlink (limit : ℕ) (root : Place) (file : ProjectFile) (disk : Disk) : Outcome :=
  prepareParent limit root file disk fun rel disk =>
    match file.symlinkTarget with
    | none => (disk, none)
    | some target =>
      if root.isPrefixOf (normalize (root ++ rel.dropLast) target) then
        createSymlink limit target (root ++ rel) disk
      else (disk, some .escapesRoot)

def forEach (step : ProjectFile → Disk → Outcome) : List ProjectFile → Disk → Outcome
  | [], disk => (disk, none)
  | file :: rest, disk => Outcome.andThen (step file disk) (forEach step rest)

def regularFiles (files : List ProjectFile) : List ProjectFile :=
  files.filter fun file => !file.isSymlink

def symlinks (files : List ProjectFile) : List ProjectFile := files.filter ProjectFile.isSymlink

/-- The disk once the destination directory has been made. -/
def destination (limit : ℕ) (tree : Tree) (dest : List Part) : Outcome :=
  createDirAll limit dest.reverse (.untouched tree)

/-- Regular files first, then links. A relative destination comes with the working directory before
it. -/
def materialize (limit : ℕ) (tree : Tree) (dest : List Part) (files : List ProjectFile) : Outcome :=
  Outcome.andThen (destination limit tree dest) fun disk =>
    match canonicalize limit dest disk with
    | none => (disk, some .io)
    | some root =>
      Outcome.andThen (forEach (materializeFile limit root) (regularFiles files) disk)
        (forEach (materializeSymlink limit root) (symlinks files))

/-! ## Confinement -/

/-- Everything touched is below the root, and so is whatever a new link leads to. -/
def Confined (root : Place) (disk : Disk) : Prop :=
  (∀ place ∈ disk.touched, root <+: place) ∧
    ∀ place ∈ disk.created, ∀ n result,
      resolve disk.tree true n [] (names place) = some result → root <+: result

/-- The files that a call comes to: those up to the first that fails. -/
def reached (step : ProjectFile → Disk → Outcome) : List ProjectFile → Disk → List ProjectFile
  | [], _ => []
  | file :: rest, disk =>
    file :: if (step file disk).2 = none then reached step rest (step file disk).1 else []

/-- What every write keeps: which links may be there, which have been made, and that no link is at
the places that are to stay plain. -/
structure Safe (may : Place → Option PathText → Prop) (made : Place → PathText → Prop)
    (root : Place) (plain : Place → Prop) (disk : Disk) : Prop where
  canonical : Canonical disk.tree root
  links : ∀ place, may place (linkAt disk.tree place)
  plain : ∀ place, plain place → place ≠ [] → linkAt disk.tree place = none
  touched : ∀ place ∈ disk.touched, root <+: place
  created : ∀ place ∈ disk.created, ∃ dir name target, place = dir ++ [name] ∧
    Canonical disk.tree dir ∧ linkAt disk.tree place = some target ∧ made dir target

section Puts

variable {tree : Tree} {place other root : Place} {entry : Entry} {disk : Disk}
  {may : Place → Option PathText → Prop} {made : Place → PathText → Prop} {plain : Place → Prop}

lemma linkAt_update (hentry : entry.target? = none) (hfree : linkAt tree place = none) :
    linkAt (update tree place (some entry)) = linkAt tree := by
  funext other
  rcases eq_or_ne other place with rfl | hne
  · simp [linkAt, hentry, ← hfree]
  · simp [linkAt, update_of_ne hne]

lemma canonical_update (h : Canonical tree other)
    (hlink : entry.target? = none ∨ tree place = none) :
    Canonical (update tree place (some entry)) other := by
  intro q hq hne
  obtain ⟨hsome, hq⟩ := h q hq hne
  rcases eq_or_ne q place with rfl | hother
  · simpa [linkAt] using hlink.resolve_right hsome
  · simpa only [linkAt, update_of_ne hother] using ⟨hsome, hq⟩

/-- Directories and files may be put anywhere below the root where no link stands. -/
lemma Safe.put (h : Safe may made root plain disk) (hplace : root <+: place)
    (hentry : entry.target? = none) (hfree : linkAt disk.tree place = none) :
    Safe may made root plain (disk.put place entry) := by
  have hlinks : linkAt (disk.put place entry).tree = linkAt disk.tree := linkAt_update hentry hfree
  refine ⟨canonical_update h.canonical (.inl hentry), ?_, ?_, ?_, ?_⟩
  · rw [hlinks]
    exact h.links
  · rw [hlinks]
    exact h.plain
  · simpa [Disk.put, or_imp, forall_and] using ⟨h.touched, hplace⟩
  · intro other hother
    obtain ⟨dir, name, target, rfl, hdir, hlink, hmade⟩ := h.created other hother
    exact ⟨dir, name, target, rfl, canonical_update hdir (.inl hentry), by rwa [hlinks], hmade⟩

lemma Safe.weaken {plain' : Place → Prop} (h : Safe may made root plain disk)
    (himp : ∀ place, plain' place → plain place) : Safe may made root plain' disk :=
  { h with plain := fun place hplace => h.plain place (himp place hplace) }

lemma linkAt_of_entryAt (hplace : place ≠ []) (h : (disk.entryAt place).bind Entry.target? = none) :
    linkAt disk.tree place = none := by
  simpa [Disk.entryAt, hplace, linkAt] using h

end Puts

section Writes

variable {may : Place → Option PathText → Prop} {made : Place → PathText → Prop}
  {root dir place : Place} {name : String} {disk : Disk} {limit : ℕ} {file : ProjectFile}

lemma andThen_cases {P : Disk → Prop} {outcome : Outcome} {next : Disk → Outcome}
    (hstop : P outcome.1) (hnext : outcome.2 = none → P (next outcome.1).1) :
    P (outcome.andThen next).1 := by
  rw [Outcome.andThen]
  split
  · next hnone => exact hnext hnone
  · exact hstop

section

variable (h : Safe may made root (· <+: dir) disk) (hroot : root <+: dir)

include h hroot

lemma Safe.mkdir {above : Place} (hpath : above ++ [name] <+: dir) :
    Safe may made root (· <+: dir) (mkdir limit (names (above ++ [name])) disk).1 := by
  rw [Materialize.mkdir]
  split
  · exact h
  next place hplace =>
  have habove : above <+: dir := (prefix_append _ _).trans hpath
  obtain rfl : place = above ++ [name] := by
    simpa using resolve_concat (fun q hq => h.plain q (hq.trans habove)) hplace
  split
  · next hnone =>
    have hmissing : disk.tree (above ++ [name]) = none := by simpa [Disk.entryAt] using hnone
    -- Everything on the way to the root is there, so the new directory lies below it.
    have hbelow : root <+: above ++ [name] := by
      refine ( prefix_or_prefix_of_prefix hroot hpath).resolve_right fun hle => ?_
      exact (h.canonical _ hle (by simp)).1 hmissing
    exact h.put hbelow rfl (by simp [linkAt, hmissing])
  · exact h

lemma Safe.createDirAll {path : Place} (hpath : path <+: dir) :
    Safe may made root (· <+: dir) (createDirAll limit (names path).reverse disk).1 := by
  induction path using List.reverseRecOn with
  | nil => exact h
  | append_singleton above name ih =>
    have hreverse : (names (above ++ [name])).reverse = .normal name :: (names above).reverse := by
      simp [names]
    have hforward : (Part.normal name :: (names above).reverse).reverse =
        names (above ++ [name]) := by simp [names]
    rw [hreverse, Materialize.createDirAll, hforward]
    split
    · exact h
    have habove := ih ((prefix_append _ _).trans hpath)
    apply andThen_cases
    · exact habove
    intro _
    split
    · exact habove
    · exact habove.mkdir hroot hpath

variable (hstays : ∀ target, may (dir ++ [name]) (some target) → StaysBelow may root dir target)

include hstays

/-- The path of a file leads below the root, if a link at its end does. -/
lemma Safe.below
    (hplace : resolve disk.tree true limit [] (names (dir ++ [name])) = some place) :
    root <+: place := by
  rcases resolve_concat h.plain hplace with rfl | ⟨-, target, m, hlink, hresolve⟩
  · exact hroot.trans (prefix_append _ _)
  · have hmay := h.links (dir ++ [name])
    rw [hlink] at hmay
    exact hstays target hmay place (leads_of_resolve h.links hresolve)

lemma Safe.changeFile {change : Option Entry → Option Entry}
    (hchange : ∀ old entry, change old = some entry →
      entry.target? = none ∧ old ≠ some .directory ∧ old.bind Entry.target? = none) :
    Safe may made root (· <+: dir) (changeFile limit (dir ++ [name]) change disk).1 := by
  rw [Materialize.changeFile]
  split
  · exact h
  next place hplace =>
  split
  · exact h
  next entry hentry =>
  obtain ⟨hplain, hnodir, hnolink⟩ := hchange _ _ hentry
  have hne : place ≠ [] := by
    rintro rfl
    exact hnodir rfl
  exact h.put (h.below hroot hstays hplace) hplain (linkAt_of_entryAt hne hnolink)

lemma Safe.writeFile {bytes : List UInt8} :
    Safe may made root (· <+: dir) (writeFile limit (dir ++ [name]) bytes disk).1 := by
  refine h.changeFile hroot hstays fun old entry hentry => ?_
  rcases old with _ | _ | _ | _ <;> cases hentry
  all_goals simp [Entry.target?]

lemma Safe.restoreMode :
    Safe may made root (· <+: dir) (restoreMode limit (dir ++ [name]) file disk).1 := by
  have hset : ∀ mode, Safe may made root (· <+: dir)
      (Materialize.setPermissions limit (dir ++ [name]) mode disk).1 := by
    refine fun mode => h.changeFile hroot hstays fun old entry hentry => ?_
    rcases old with _ | _ | _ | _ <;> cases hentry
    simp [Entry.target?]
  rw [Materialize.restoreMode]
  split
  · exact hset _
  · split
    · exact hset _
    · exact h

end

/-- A new link is put where nothing stands, in a directory that is there. -/
lemma Safe.createSymlink {target : PathText} (h : Safe may made root (· <+: dir) disk)
    (hroot : root <+: dir) (hmay : may (dir ++ [name]) none → may (dir ++ [name]) (some target))
    (hmade : made dir target) :
    Safe may made root (fun _ => False) (createSymlink limit target (dir ++ [name]) disk).1 := by
  have hsafe : Safe may made root (fun _ => False) disk := h.weaken fun _ hfalse => hfalse.elim
  rw [Materialize.createSymlink]
  split
  · exact hsafe
  split
  · exact hsafe
  next place hplace =>
  obtain ⟨hdir, -⟩ := canonical_of_resolve canonical_nil hplace
  obtain rfl : place = dir ++ [name] := by simpa using resolve_concat h.plain hplace
  rw [dropLast_concat] at hdir
  split
  · next hnone =>
    have hmissing : disk.tree (dir ++ [name]) = none := by simpa [Disk.entryAt] using hnone
    have hfree : linkAt disk.tree (dir ++ [name]) = none := by simp [linkAt, hmissing]
    have hself : linkAt (update disk.tree (dir ++ [name]) (some (.link target))) (dir ++ [name]) =
        some target := by simp [linkAt, Entry.target?]
    have hother : ∀ q, q ≠ dir ++ [name] →
        linkAt (update disk.tree (dir ++ [name]) (some (.link target))) q = linkAt disk.tree q := by
      intro q hne
      simp [linkAt, update_of_ne hne]
    refine ⟨canonical_update h.canonical (.inr hmissing), fun q => ?_, fun _ hfalse => hfalse.elim, ?_,
      ?_⟩
    · rcases eq_or_ne q (dir ++ [name]) with rfl | hne
      · have hnew := hmay (hfree ▸ h.links (dir ++ [name]))
        rwa [← hself] at hnew
      · have hold := h.links q
        rwa [← hother q hne] at hold
    · simpa [Disk.put, or_imp, forall_and] using
        ⟨h.touched, hroot.trans (prefix_append dir [name])⟩
    · intro q hq
      rcases mem_append.1 hq with hold | hnew
      · obtain ⟨dir', name', target', rfl, hdir', hlink, hmade'⟩ := h.created q hold
        have hne : dir' ++ [name'] ≠ dir ++ [name] := by
          intro heq
          rw [heq, hfree] at hlink
          cases hlink
        exact ⟨dir', name', target', rfl, canonical_update hdir' (.inr hmissing),
          (hother _ hne).trans hlink, hmade'⟩
      · obtain rfl := mem_singleton.1 hnew
        exact ⟨dir, name, target, rfl, canonical_update hdir (.inr hmissing), hself, hmade⟩
  · exact hsafe

end Writes

/-! ## Whole calls -/

section Calls

variable {may : Place → Option PathText → Prop} {made : Place → PathText → Prop} {root : Place}
  {disk : Disk} {limit : ℕ} {file : ProjectFile}

lemma concat_of_safeRelative {path : PathText} {rel : Place} (root : Place)
    (h : safeRelative path = .ok rel) :
    ∃ name, root ++ rel = root ++ rel.dropLast ++ [name] := by
  have hne : rel ≠ [] := by
    rintro rfl
    simp only [safeRelative, throw, throwThe, MonadExceptOf.throw, bind, Except.bind, pure,
      Except.pure] at h
    grind
  exact ⟨rel.getLast hne, by rw [append_assoc, dropLast_append_getLast hne]⟩

/-- The checks before a write: its caller may rely on every directory above the file. -/
lemma Safe.prepareParent {next : Place → Disk → Outcome}
    (h : Safe may made root (fun _ => False) disk)
    (hnext : ∀ rel disk', safeRelative file.path = .ok rel →
      Safe may made root (· <+: root ++ rel.dropLast) disk' →
        Safe may made root (fun _ => False) (next rel disk').1) :
    Safe may made root (fun _ => False) (prepareParent limit root file disk next).1 := by
  rw [Materialize.prepareParent]
  split
  · exact h
  next rel hrel =>
  split
  · next hcheck =>
    have hchecked : Safe may made root (· <+: root ++ rel.dropLast) disk := by
      refine { h with plain := fun q hq hne => ?_ }
      rcases prefix_or_prefix_of_prefix hq (prefix_append root rel.dropLast) with hle | ⟨t, rfl⟩
      · exact (h.canonical q hle hne).2
      have ht : t <+: rel.dropLast := (prefix_append_right_inj root).1 hq
      have hlen := ht.length_le
      rw [length_dropLast] at hlen
      rcases t with _ | ⟨first, t⟩
      · rw [append_nil] at hne ⊢
        exact (h.canonical root prefix_rfl hne).2
      · have hlt : t.length < rel.length - 1 := hlen
        have hcheck := all_eq_true.1 hcheck t.length (mem_range.2 hlt)
        rw [prefix_iff_eq_take.1 (ht.trans ( dropLast_prefix rel))]
        simpa using hcheck
    have hdirs : Safe may made root (· <+: root ++ rel.dropLast)
        (Materialize.createDirAll limit (names (root ++ rel.dropLast)).reverse disk).1 :=
      hchecked.createDirAll (prefix_append _ _) prefix_rfl
    apply andThen_cases
    · exact hdirs.weaken fun _ hfalse => hfalse.elim
    · exact fun _ => hnext rel _ hrel hdirs
  · exact h

lemma Safe.materializeFile (h : Safe may made root (fun _ => False) disk)
    (hstays : ∀ rel target, safeRelative file.path = .ok rel → may (root ++ rel) (some target) →
      StaysBelow may root (root ++ rel.dropLast) target) :
    Safe may made root (fun _ => False) (materializeFile limit root file disk).1 := by
  apply h.prepareParent
  intro rel disk' hrel hsafe
  have hroot : root <+: root ++ rel.dropLast := prefix_append _ _
  have htarget : ∀ target, may (root ++ rel) (some target) →
      StaysBelow may root (root ++ rel.dropLast) target := fun target => hstays rel target hrel
  obtain ⟨name, hname⟩ := concat_of_safeRelative root hrel
  rw [hname] at htarget ⊢
  have hwritten : Safe may made root (· <+: root ++ rel.dropLast) (Materialize.writeFile limit
      (root ++ rel.dropLast ++ [name]) file.bytes disk').1 := hsafe.writeFile hroot htarget
  apply andThen_cases
  · exact hwritten.weaken fun _ hfalse => hfalse.elim
  · exact fun _ => (hwritten.restoreMode hroot htarget).weaken fun _ hfalse => hfalse.elim

lemma Safe.materializeSymlink (h : Safe may made root (fun _ => False) disk)
    (hstays : ∀ rel target, safeRelative file.path = .ok rel → file.symlinkTarget = some target →
      (may (root ++ rel) none → may (root ++ rel) (some target)) ∧
        (root <+: normalize (root ++ rel.dropLast) target → made (root ++ rel.dropLast) target)) :
    Safe may made root (fun _ => False) (materializeSymlink limit root file disk).1 := by
  apply h.prepareParent
  intro rel disk' hrel hsafe
  have hweak : Safe may made root (fun _ => False) disk' := hsafe.weaken fun _ hfalse => hfalse.elim
  split
  · exact hweak
  next target htarget =>
  split
  · next htext =>
    obtain ⟨hmay, hbelow⟩ := hstays rel target hrel htarget
    obtain ⟨name, hname⟩ := concat_of_safeRelative root hrel
    rw [hname] at hmay ⊢
    exact hsafe.createSymlink (prefix_append _ _) hmay (hbelow ( isPrefixOf_iff_prefix.1 htext))
  · exact hweak

lemma Safe.forEach {step : ProjectFile → Disk → Outcome} {files : List ProjectFile}
    {plain : Place → Prop} (h : Safe may made root plain disk)
    (hstep : ∀ file ∈ reached step files disk, ∀ disk, Safe may made root plain disk →
      Safe may made root plain (step file disk).1) :
    Safe may made root plain (forEach step files disk).1 := by
  induction files generalizing disk with
  | nil => exact h
  | cons file files ih =>
    have hone := hstep file mem_cons_self disk h
    apply andThen_cases
    · exact hone
    intro hnone
    refine ih hone fun other hother => hstep other ?_
    rw [reached, if_pos hnone]
    exact mem_cons_of_mem file hother

end Calls

end Ostadix.Materialize
