import Mathlib
import Webapp.Files.Posix

namespace Webapp.Files

/-! `FileSystem::MakePath` over a tree of files and directories.  A path is read byte
by byte.
-/

/-- A file, or a directory with its permissions. -/
inductive Kind where
  | file
  | directory (readable writable : Bool)
deriving DecidableEq, Repr

def IsDirectory : Option Kind → Prop
  | some (.directory _ _) => True
  | _ => False

def Readable : Option Kind → Prop
  | some (.directory readable _) => readable = true
  | _ => False

def Writable : Option Kind → Prop
  | some (.directory _ writable) => writable = true
  | _ => False

instance : (kind : Option Kind) → Decidable (IsDirectory kind)
  | some (.directory _ _) => isTrue trivial
  | some .file => isFalse id
  | none => isFalse id

instance : (kind : Option Kind) → Decidable (Readable kind)
  | some (.directory readable _) => inferInstanceAs (Decidable (readable = true))
  | some .file => isFalse id
  | none => isFalse id

instance : (kind : Option Kind) → Decidable (Writable kind)
  | some (.directory _ writable) => inferInstanceAs (Decidable (writable = true))
  | some .file => isFalse id
  | none => isFalse id

theorem Readable.isDirectory {kind : Option Kind} (readable : Readable kind) : IsDirectory kind := by
  match kind, readable with
  | some (.directory _ _), _ => trivial

theorem Writable.isDirectory {kind : Option Kind} (writable : Writable kind) : IsDirectory kind := by
  match kind, writable with
  | some (.directory _ _), _ => trivial

structure Tree where
  kind : Location → Option Kind
  cwd : Location
  root : IsDirectory (kind [])
  parent : ∀ name location, kind (name :: location) ≠ none → IsDirectory (kind location)
  cwd_directory : IsDirectory (kind cwd)

namespace Tree

variable (tree : Tree)

/-- Reading a path: the directory that was reached and the component that was begun. -/
def read : Location × Name → List UInt8 → Option (Location × Name)
  | at_, [] => some at_
  | (location, name), byte :: bytes =>
      if byte = slash then
        if name.length ≤ nameMax ∧ IsDirectory (tree.kind (move location name)) then
          read (move location name, []) bytes
        else none
      else read (location, name ++ [byte]) bytes

def start (path : List UInt8) : Location × Name :=
  (if path.head? = some slash then [] else tree.cwd, [])

/-- The directory that the last component of a path is looked up in, and that
component.  The empty path is refused. -/
def lookup (path : List UInt8) : Option (Location × Name) :=
  if path = [] ∨ pathMax ≤ path.length then none
  else (tree.read (tree.start path) path).filter fun found => found.2.length ≤ nameMax

def opendir (path : List UInt8) : Bool :=
  (tree.lookup path).any fun found => decide (Readable (tree.kind (move found.1 found.2)))

def create (location : Location) (name : Name) (writable : Writable (tree.kind location))
    (missing : tree.kind (name :: location) = none) : Tree where
  kind := Function.update tree.kind (name :: location) (some (.directory true true))
  cwd := tree.cwd
  root := by
    rw [Function.update_of_ne (by simp)]
    exact tree.root
  parent := by
    intro child parent exists_
    by_cases new : parent = name :: location
    · rw [new, Function.update_self]
      trivial
    · rw [Function.update_of_ne new]
      by_cases same : child :: parent = name :: location
      · rw [(List.cons.inj same).2]
        exact writable.isDirectory
      · rw [Function.update_of_ne same] at exists_
        exact tree.parent child parent exists_
  cwd_directory := by
    have present : tree.cwd ≠ name :: location := by
      intro same
      have directory := tree.cwd_directory
      rw [same, missing] at directory
      exact directory
    rw [Function.update_of_ne present]
    exact tree.cwd_directory

/-- `mkdir`.  What ends in a slash, "." or ".." is there already or cannot be made. -/
def mkdir (path : List UInt8) : Option Tree :=
  (tree.lookup path).bind fun found =>
    if makes : Proper found.2 ∧ Writable (tree.kind found.1) ∧ tree.kind (found.2 :: found.1) = none then
      some (tree.create found.1 found.2 makes.2.1 makes.2.2)
    else none

end Tree

/-- `tinydir_todir`: the string with its last slash replaced, and the place of it. -/
def todir (path : List UInt8) : Nat → List UInt8 × Nat
  | 0 => (path, 0)
  | i + 1 => if path[i + 1]? = some slash then (path.set (i + 1) 0, i + 1) else todir path i

/-- A C string ends before the first NUL. -/
def cString (data : List UInt8) : List UInt8 := data.takeWhile fun byte => byte != 0

def makePathLoop : Tree → List UInt8 → List Nat → Bool × Tree × List UInt8
  | tree, data, [] => (true, tree, data)
  | tree, data, i :: rest =>
      if data[i]? = some slash ∨ data[i]? = some 0 then
        let data := data.set i 0
        if tree.opendir (cString data) then makePathLoop tree (data.set i slash) rest
        else
          match tree.mkdir (cString data) with
          | some tree => makePathLoop tree (data.set i slash) rest
          | none => (false, tree, data)
      else makePathLoop tree data rest

/-- `FileSystem::MakePath`: what it returns, the tree, and the string it was given with
its NUL.  The loop ends at `path.len - nFilename`, the place of the last slash. -/
def makePath (tree : Tree) (path : List UInt8) : Bool × Tree × List UInt8 :=
  let (data, last) := todir (path ++ [0]) path.length
  makePathLoop tree data (List.range (last + 1))

/-- The components of a path up to the last, followed without a look at the tree. -/
def reach : Location × Name → List UInt8 → Location × Name
  | at_, [] => at_
  | (location, name), byte :: bytes =>
      if byte = slash then reach (move location name, []) bytes else reach (location, name ++ [byte]) bytes

def Tree.place (tree : Tree) (path : List UInt8) : Location :=
  move (reach (tree.start path) path).1 (reach (tree.start path) path).2

/-- A slash behind a part of the path that is not empty. -/
def Cut (path : List UInt8) (i : Nat) : Prop := 0 < i ∧ path[i]? = some slash

def Tree.Has (tree : Tree) (path : List UInt8) : Prop :=
  ∃ found ∈ tree.lookup path, IsDirectory (tree.kind (move found.1 found.2))

structure MadePath (tree : Tree) (path : List UInt8) : Prop where
  returns : (makePath tree path).1 = true ↔ ∀ i, Cut path i → (makePath tree path).2.1.Has (path.take i)
  creates : ∀ location, (makePath tree path).2.1.kind location ≠ tree.kind location →
    tree.kind location = none ∧ IsDirectory ((makePath tree path).2.1.kind location) ∧
      ∃ i, Cut path i ∧ location = tree.place (path.take i)
  restores : (makePath tree path).2.2 = path ++ [0]

/-- The part of a path before a slash names a directory that can be opened, or
nothing, in a directory that can be written to or is missing itself. -/
structure Creatable (tree : Tree) (path : List UInt8) : Prop where
  path_short : path.length < pathMax
  name_short : (reach (tree.start path) path).2.length ≤ nameMax
  kind : Readable (tree.kind (tree.place path)) ∨ tree.kind (tree.place path) = none ∧
    (tree.kind (reach (tree.start path) path).1 = none ∨ Writable (tree.kind (reach (tree.start path) path).1))

section

variable {tree now later : Tree} {path : List UInt8}

theorem Tree.read_append (state : Location × Name) (first second : List UInt8) :
    tree.read state (first ++ second) = (tree.read state first).bind fun middle => tree.read middle second := by
  induction first generalizing state with
  | nil => rfl
  | cons byte first ih =>
      obtain ⟨location, name⟩ := state
      simp only [List.cons_append, Tree.read]
      split
      · split
        · exact ih _
        · rfl
      · exact ih _

theorem reach_append (state : Location × Name) (first second : List UInt8) :
    reach state (first ++ second) = reach (reach state first) second := by
  induction first generalizing state with
  | nil => rfl
  | cons byte first ih =>
      obtain ⟨location, name⟩ := state
      simp only [List.cons_append, reach]
      split <;> exact ih _

/-- What can be read in a tree can be read in one with more directories. -/
theorem Tree.read_mono (more : ∀ location, IsDirectory (now.kind location) → IsDirectory (later.kind location))
    {state found : Location × Name} {bytes : List UInt8} (read : now.read state bytes = some found) :
    later.read state bytes = some found := by
  induction bytes generalizing state with
  | nil => exact read
  | cons byte bytes ih =>
      obtain ⟨location, name⟩ := state
      simp only [Tree.read] at read ⊢
      split at read
      · rename_i isSlash
        split at read
        · rename_i followed
          rw [if_pos isSlash, if_pos ⟨followed.1, more _ followed.2⟩]
          exact ih read
        · contradiction
      · rename_i other
        rw [if_neg other]
        exact ih read

/-- The tree with directories that were added where they could be. -/
structure Grows (tree now : Tree) : Prop where
  cwd : now.cwd = tree.cwd
  kept : ∀ location, tree.kind location ≠ none → now.kind location = tree.kind location
  made : ∀ location, tree.kind location = none → now.kind location ≠ none →
    now.kind location = some (.directory true true)
  allowed : ∀ name location, tree.kind (name :: location) = none → now.kind (name :: location) ≠ none →
    tree.kind location = none ∨ Writable (tree.kind location)

theorem Grows.refl (tree : Tree) : Grows tree tree where
  cwd := rfl
  kept _ _ := rfl
  made _ missing present := absurd missing present
  allowed _ _ missing present := absurd missing present

theorem Grows.mono (grows : Grows tree now) (location : Location) (directory : IsDirectory (tree.kind location)) :
    IsDirectory (now.kind location) := by
  rw [grows.kept location (by intro missing; rw [missing] at directory; exact directory)]
  exact directory

theorem Tree.create_kind_self {location : Location} {name : Name} (writable : Writable (tree.kind location))
    (missing : tree.kind (name :: location) = none) :
    (tree.create location name writable missing).kind (name :: location) = some (.directory true true) :=
  Function.update_self ..

theorem Tree.create_kind_of_ne {location other : Location} {name : Name} (writable : Writable (tree.kind location))
    (missing : tree.kind (name :: location) = none) (different : other ≠ name :: location) :
    (tree.create location name writable missing).kind other = tree.kind other :=
  Function.update_of_ne different ..

theorem Grows.create (grows : Grows tree now) {location : Location} {name : Name}
    (writable : Writable (now.kind location)) (missing : now.kind (name :: location) = none) :
    Grows tree (now.create location name writable missing) := by
  have absent : tree.kind (name :: location) = none := by
    by_contra present
    exact present ((grows.kept _ present).symm.trans missing)
  refine ⟨grows.cwd, ?_, ?_, ?_⟩
  · intro other present
    have different : other ≠ name :: location := fun same => present (same ▸ absent)
    rw [Tree.create_kind_of_ne writable missing different]
    exact grows.kept other present
  · intro other missingThere present
    by_cases same : other = name :: location
    · rw [same, Tree.create_kind_self]
    · rw [Tree.create_kind_of_ne writable missing same] at present ⊢
      exact grows.made other missingThere present
  · intro other parent missingThere present
    by_cases same : other :: parent = name :: location
    · rw [(List.cons.inj same).2]
      by_cases there : tree.kind location = none
      · exact Or.inl there
      · rw [grows.kept location there] at writable
        exact Or.inr writable
    · rw [Tree.create_kind_of_ne writable missing same] at present
      exact grows.allowed other parent missingThere present

theorem Tree.directory_tail (tree : Tree) {location : Location} (present : tree.kind location ≠ none) :
    IsDirectory (tree.kind location.tail) := by
  cases location with
  | nil => exact tree.root
  | cons name location => exact tree.parent name location present

/-- The step of the loop at one slash. -/
def Tree.ensure (tree : Tree) (path : List UInt8) : Option Tree :=
  if tree.opendir path then some tree else tree.mkdir path

/-- Only a proper name can lead from a directory to nothing. -/
theorem Tree.proper_of_missing (tree : Tree) {location : Location} {name : Name} (there : tree.kind location ≠ none)
    (missing : tree.kind (move location name) = none) : Proper name := by
  by_contra improper
  rcases move_improper location improper with same | above
  · rw [same] at missing
    exact there missing
  · have parent := tree.directory_tail there
    rw [← above, missing] at parent
    exact parent

theorem Grows.creatable_iff (grows : Grows tree now) {location : Location} {name : Name}
    (directory : IsDirectory (now.kind location)) :
    (Readable (tree.kind (move location name)) ∨ tree.kind (move location name) = none ∧
        (tree.kind location = none ∨ Writable (tree.kind location))) ↔
      Readable (now.kind (move location name)) ∨
        (Proper name ∧ Writable (now.kind location) ∧ now.kind (name :: location) = none) := by
  have exists_ : now.kind location ≠ none := by
    intro missing
    rw [missing] at directory
    exact directory
  by_cases present : tree.kind (move location name) = none
  · simp only [present, true_and, Readable, false_or]
    by_cases added : now.kind (move location name) = none
    · have proper := now.proper_of_missing exists_ added
      rw [move_proper proper] at added
      rw [move_proper proper, added]
      simp only [proper, and_true, true_and, false_or]
      by_cases new : tree.kind location = none
      · simp [new, grows.made location new exists_, Writable]
      · simp [new, grows.kept location new]
    · rw [grows.made _ present added]
      simp only [true_or, iff_true]
      by_cases there : tree.kind location = none
      · exact Or.inl there
      · have proper := tree.proper_of_missing there present
        rw [move_proper proper] at present added
        exact grows.allowed name location present added
  · rw [grows.kept _ present]
    simp only [present, false_and, or_false]
    constructor
    · exact Or.inl
    · intro opens
      rcases opens with readable | makes
      · exact readable
      · obtain ⟨proper, _, missing⟩ := makes
        rw [move_proper proper] at present
        exact absurd ((grows.kept _ present).symm.trans missing) present

theorem Grows.start (grows : Grows tree now) (path : List UInt8) : now.start path = tree.start path := by
  rw [Tree.start, Tree.start, grows.cwd]

/-- All components of a path but the last are directories. -/
structure Reads (now : Tree) (path : List UInt8) : Prop where
  read : now.read (now.start path) path = some (reach (now.start path) path)
  directory : IsDirectory (now.kind (reach (now.start path) path).1)

theorem Reads.lookup (reads : Reads now path) (nonempty : path ≠ []) :
    now.lookup path =
      if path.length < pathMax ∧ (reach (now.start path) path).2.length ≤ nameMax
      then some (reach (now.start path) path) else none := by
  rw [Tree.lookup, reads.read]
  by_cases short : path.length < pathMax
  · have accepted : ¬ (path = [] ∨ pathMax ≤ path.length) := by
      simp only [nonempty, false_or, not_le]
      exact short
    rw [if_neg accepted, Option.filter_some]
    simp [short]
  · have refused : path = [] ∨ pathMax ≤ path.length := Or.inr (not_lt.mp short)
    rw [if_pos refused]
    simp [short]

theorem Grows.creatable (grows : Grows tree now) (reads : Reads now path) : Creatable tree path ↔
    (path.length < pathMax ∧ (reach (now.start path) path).2.length ≤ nameMax) ∧
      (Readable (now.kind (tree.place path)) ∨ (Proper (reach (now.start path) path).2 ∧
        Writable (now.kind (reach (now.start path) path).1) ∧
        now.kind ((reach (now.start path) path).2 :: (reach (now.start path) path).1) = none)) := by
  have directory := reads.directory
  rw [grows.start path] at directory ⊢
  rw [Tree.place, ← grows.creatable_iff directory]
  constructor
  · intro creatable
    exact ⟨⟨creatable.path_short, creatable.name_short⟩, creatable.kind⟩
  · intro allowed
    exact ⟨allowed.1.1, allowed.1.2, allowed.2⟩

theorem ensure_none (grows : Grows tree now) (reads : Reads now path) (nonempty : path ≠ [])
    (refused : ¬ Creatable tree path) : now.ensure path = none := by
  rw [grows.creatable reads] at refused
  rw [Tree.ensure, Tree.opendir, Tree.mkdir, reads.lookup nonempty]
  by_cases short : path.length < pathMax ∧ (reach (now.start path) path).2.length ≤ nameMax
  · simp only [short, and_self, true_and, not_or] at refused
    have place : tree.place path = move (reach (now.start path) path).1 (reach (now.start path) path).2 := by
      rw [Tree.place, grows.start path]
    rw [place] at refused
    simp only [short, and_self, if_true, Option.any_some, refused.1, decide_false, Bool.false_eq_true, if_false,
      Option.bind_some]
    rw [dif_neg refused.2]
  · simp [short]

theorem ensure_some (grows : Grows tree now) (reads : Reads now path) (nonempty : path ≠ [])
    (creatable : Creatable tree path) : ∃ later, now.ensure path = some later ∧ Grows tree later ∧
      IsDirectory (later.kind (tree.place path)) ∧
      (∀ location, later.kind location ≠ now.kind location → location = tree.place path) ∧
      ∀ location, IsDirectory (now.kind location) → IsDirectory (later.kind location) := by
  obtain ⟨short, allowed⟩ := (grows.creatable reads).mp creatable
  have place : tree.place path = move (reach (now.start path) path).1 (reach (now.start path) path).2 := by
    rw [Tree.place, grows.start path]
  rw [Tree.ensure, Tree.opendir, Tree.mkdir, reads.lookup nonempty, if_pos short, Option.any_some,
    Option.bind_some, ← place]
  by_cases readable : Readable (now.kind (tree.place path))
  · rw [if_pos (decide_eq_true readable)]
    exact ⟨now, rfl, grows, readable.isDirectory, fun _ changed => absurd rfl changed, fun _ directory => directory⟩
  · have makes := allowed.resolve_left readable
    rw [if_neg (by simpa using readable), dif_pos makes]
    rw [place, move_proper makes.1]
    refine ⟨_, rfl, grows.create makes.2.1 makes.2.2, ?_, ?_, ?_⟩
    · rw [Tree.create_kind_self]
      trivial
    · intro location changed
      by_contra different
      exact changed (Tree.create_kind_of_ne makes.2.1 makes.2.2 different)
    · intro location directory
      have different : location ≠ (reach (now.start path) path).2 :: (reach (now.start path) path).1 := by
        intro same
        rw [same, makes.2.2] at directory
        exact directory
      rw [Tree.create_kind_of_ne makes.2.1 makes.2.2 different]
      exact directory

theorem Reads.mono (reads : Reads now path) (cwd : later.cwd = now.cwd)
    (more : ∀ location, IsDirectory (now.kind location) → IsDirectory (later.kind location)) : Reads later path := by
  have start : later.start path = now.start path := by rw [Tree.start, Tree.start, cwd]
  refine ⟨?_, ?_⟩
  · rw [start]
    exact Tree.read_mono more reads.read
  · rw [start]
    exact more _ reads.directory

theorem Tree.Has.mono (has : now.Has path) (cwd : later.cwd = now.cwd)
    (more : ∀ location, IsDirectory (now.kind location) → IsDirectory (later.kind location)) : later.Has path := by
  obtain ⟨found, looked, directory⟩ := has
  refine ⟨found, ?_, more _ directory⟩
  have start : later.start path = now.start path := by rw [Tree.start, Tree.start, cwd]
  rw [Tree.lookup] at looked ⊢
  split at looked
  · contradiction
  · rename_i accepted
    rw [Option.mem_def, Option.filter_eq_some_iff] at looked
    rw [if_neg accepted, Option.mem_def, Option.filter_eq_some_iff, start]
    exact ⟨Tree.read_mono more looked.1, looked.2⟩

theorem Tree.start_take (relative : path.head? ≠ some slash) (i : Nat) : tree.start (path.take i) = (tree.cwd, []) := by
  have head : (path.take i).head? ≠ some slash := by
    cases path with
    | nil => simp
    | cons byte path => cases i <;> simp_all
  rw [Tree.start, if_neg head]

/-- A relative path is read on by one byte; at a slash the component before it has to
be a directory. -/
theorem Reads.next (relative : path.head? ≠ some slash) {i : Nat} {byte : UInt8} (at_ : path[i]? = some byte)
    (reads : Reads now (path.take i))
    (followed : byte = slash → (reach (now.start (path.take i)) (path.take i)).2.length ≤ nameMax ∧
      IsDirectory (now.kind (now.place (path.take i)))) : Reads now (path.take (i + 1)) := by
  have read := reads.read
  have directory := reads.directory
  have longer : path.take (i + 1) = path.take i ++ [byte] := by
    rw [List.take_add_one, at_]
    rfl
  rw [Tree.place] at followed
  rw [Tree.start_take relative] at read directory followed
  refine ⟨?_, ?_⟩
  · rw [Tree.start_take relative, longer, Tree.read_append, reach_append, read, Option.bind_some]
    by_cases isSlash : byte = slash
    · simp only [Tree.read, reach, if_pos isSlash]
      rw [if_pos (followed isSlash)]
    · simp only [Tree.read, reach, if_neg isSlash]
  · rw [Tree.start_take relative, longer, reach_append]
    by_cases isSlash : byte = slash
    · simp only [reach, if_pos isSlash]
      exact (followed isSlash).2
    · simp only [reach, if_neg isSlash]
      exact directory

theorem cString_set {data : List UInt8} {i : Nat} (inside : i < data.length) (noNul : 0 ∉ data.take i) :
    cString (data.set i 0) = data.take i := by
  have passed : ∀ byte ∈ data.take i, (byte != 0) = true := by
    intro byte member
    rw [bne_iff_ne]
    exact fun nul => noNul (nul ▸ member)
  rw [cString, List.set_eq_take_append_cons_drop, if_pos inside, List.takeWhile_append_of_pos passed,
    List.takeWhile_cons_of_neg (by simp), List.append_nil]

variable {last : Nat}

theorem cString_cut (noNul : 0 ∉ path) (inside : last < path.length) {i : Nat} (before : i ≤ last) :
    cString (((path ++ [0]).set last 0).set i 0) = path.take i := by
  have taken : ((path ++ [0]).set last 0).take i = path.take i := by
    rw [List.take_set_of_le before, List.take_append_of_le_length (by omega)]
  rw [cString_set (by simp; omega) (by rw [taken]; exact fun nul => noNul (List.mem_of_mem_take nul)), taken]

theorem cut_getElem? (noNul : 0 ∉ path) (slashed : path[last]? = some slash) {i : Nat} (before : i ≤ last) :
    (((path ++ [0]).set last 0)[i]? = some slash ∨ ((path ++ [0]).set last 0)[i]? = some 0) ↔
      path[i]? = some slash := by
  have inside := (List.getElem?_eq_some_iff.mp slashed).1
  by_cases same : i = last
  · have there : last < (path ++ [0]).length := by simp; omega
    subst same
    simp [List.getElem?_set_self there, slashed]
  · rw [List.getElem?_set_ne (Ne.symm same), List.getElem?_append_left (by omega)]
    constructor
    · intro found
      rcases found with found | nul
      · exact found
      · exact absurd (List.mem_of_getElem? nul) noNul
    · exact Or.inl

theorem cut_restored (slashed : path[last]? = some slash) {i : Nat} (isSlash : path[i]? = some slash) (before : i ≤ last) :
    ((path ++ [0]).set last 0).set i slash = if i = last then path ++ [0] else (path ++ [0]).set last 0 := by
  have inside := (List.getElem?_eq_some_iff.mp slashed).1
  have whole : (path ++ [0]).set i slash = path ++ [0] := by
    apply List.ext_getElem?
    intro j
    by_cases same : i = j
    · subst same
      rw [List.getElem?_set_self (by simp; omega), List.getElem?_append_left (by omega), isSlash]
    · rw [List.getElem?_set_ne same]
  by_cases same : i = last
  · rw [if_pos same, same, List.set_set, ← same, whole]
  · rw [if_neg same, List.set_comm _ _ (Ne.symm same), whole]

theorem loop_slash (noNul : 0 ∉ path) (slashed : path[last]? = some slash) {i : Nat}
    (isSlash : path[i]? = some slash) (before : i ≤ last) (rest : List Nat) :
    makePathLoop now ((path ++ [0]).set last 0) (i :: rest) =
      match now.ensure (path.take i) with
      | some later => makePathLoop later (if i = last then path ++ [0] else (path ++ [0]).set last 0) rest
      | none => (false, now, ((path ++ [0]).set last 0).set i 0) := by
  have inside := (List.getElem?_eq_some_iff.mp slashed).1
  have restored : (((path ++ [0]).set last 0).set i 0).set i slash =
      if i = last then path ++ [0] else (path ++ [0]).set last 0 := by
    rw [List.set_set]
    exact cut_restored slashed isSlash before
  rw [makePathLoop, if_pos ((cut_getElem? noNul slashed before).mpr isSlash), Tree.ensure]
  dsimp only
  rw [cString_cut noNul inside before, restored]
  split
  · rfl
  · cases now.mkdir (path.take i) <;> rfl

theorem loop_other (noNul : 0 ∉ path) (slashed : path[last]? = some slash) {i : Nat}
    (other : path[i]? ≠ some slash) (before : i ≤ last) (rest : List Nat) :
    makePathLoop now ((path ++ [0]).set last 0) (i :: rest) =
      makePathLoop now ((path ++ [0]).set last 0) rest := by
  rw [makePathLoop, if_neg (fun found => other ((cut_getElem? noNul slashed before).mp found))]

/-- The loop has passed the first `i` bytes of the path. -/
structure Made (tree now : Tree) (path : List UInt8) (i : Nat) : Prop where
  grows : Grows tree now
  reads : Reads now (path.take i)
  only : ∀ location, now.kind location ≠ tree.kind location → ∃ j, Cut path j ∧ location = tree.place (path.take j)
  has : ∀ j < i, Cut path j → now.Has (path.take j)

theorem Made.start (tree : Tree) (path : List UInt8) : Made tree tree path 0 where
  grows := Grows.refl tree
  reads := ⟨rfl, tree.cwd_directory⟩
  only _ changed := absurd rfl changed
  has _ before := absurd before (Nat.not_lt_zero _)

theorem Made.other (relative : path.head? ≠ some slash) {i : Nat} {byte : UInt8} (made : Made tree now path i)
    (at_ : path[i]? = some byte) (notSlash : byte ≠ slash) : Made tree now path (i + 1) where
  grows := made.grows
  reads := made.reads.next relative at_ fun isSlash => absurd isSlash notSlash
  only := made.only
  has := by
    intro j before cut
    have different : j ≠ i := by
      intro same
      rw [same, Cut, at_, Option.some.injEq] at cut
      exact notSlash cut.2
    exact made.has j (by omega) cut

theorem Cut.take_ne_nil {i : Nat} (cut : Cut path i) : path.take i ≠ [] := by
  have inside := (List.getElem?_eq_some_iff.mp cut.2).1
  have positive := cut.1
  intro empty
  have length := congrArg List.length empty
  rw [List.length_take, List.length_nil] at length
  omega

theorem Made.cut (relative : path.head? ≠ some slash) {i : Nat} (made : Made tree now path i)
    (cut : Cut path i) (creatable : Creatable tree (path.take i)) :
    ∃ later, now.ensure (path.take i) = some later ∧ Made tree later path (i + 1) := by
  have nonempty := cut.take_ne_nil
  obtain ⟨later, ensured, grows, directory, changed, more⟩ := ensure_some made.grows made.reads nonempty creatable
  have cwd : later.cwd = now.cwd := grows.cwd.trans made.grows.cwd.symm
  have reads := made.reads.mono cwd more
  have place : later.place (path.take i) = tree.place (path.take i) := by
    rw [Tree.place, Tree.place, grows.start]
  have short : (reach (later.start (path.take i)) (path.take i)).2.length ≤ nameMax := by
    rw [grows.start]
    exact creatable.name_short
  rw [← place] at directory
  refine ⟨later, ensured, grows, reads.next relative cut.2 fun _ => ⟨short, directory⟩, ?_, ?_⟩
  · intro location different
    by_cases now_ : later.kind location = now.kind location
    · rw [now_] at different
      exact made.only location different
    · exact ⟨i, cut, changed location now_⟩
  · intro j before cutThere
    rcases Nat.lt_succ_iff_lt_or_eq.mp before with earlier | same
    · exact (made.has j earlier cutThere).mono cwd more
    · rw [same]
      have found : later.lookup (path.take i) = some (reach (later.start (path.take i)) (path.take i)) := by
        rw [reads.lookup nonempty, if_pos ⟨creatable.path_short, short⟩]
      exact ⟨_, found, directory⟩

theorem cut_of_slash (relative : path.head? ≠ some slash) {i : Nat} (isSlash : path[i]? = some slash) : Cut path i := by
  refine ⟨Nat.pos_of_ne_zero ?_, isSlash⟩
  intro zero
  rw [zero, ← List.head?_eq_getElem?] at isSlash
  exact relative isSlash

/-- The loop passes over one byte, or stops with the string cut at a slash whose
directory cannot be made. -/
theorem Made.step (noNul : 0 ∉ path) (relative : path.head? ≠ some slash) (slashed : path[last]? = some slash)
    {i : Nat} (made : Made tree now path i) (before : i ≤ last) (rest : List Nat) :
    (∃ later, makePathLoop now ((path ++ [0]).set last 0) (i :: rest) =
        makePathLoop later (if i = last then path ++ [0] else (path ++ [0]).set last 0) rest ∧
        Made tree later path (i + 1) ∧ (Cut path i → Creatable tree (path.take i))) ∨
      ∃ after, makePathLoop now ((path ++ [0]).set last 0) (i :: rest) =
        (false, after, ((path ++ [0]).set last 0).set i 0) ∧ Cut path i ∧ ¬ Creatable tree (path.take i) := by
  by_cases isSlash : path[i]? = some slash
  · have cut := cut_of_slash relative isSlash
    rw [loop_slash noNul slashed isSlash before]
    by_cases creatable : Creatable tree (path.take i)
    · obtain ⟨later, ensured, after⟩ := made.cut relative cut creatable
      rw [ensured]
      exact Or.inl ⟨later, rfl, after, fun _ => creatable⟩
    · rw [ensure_none made.grows made.reads cut.take_ne_nil creatable]
      exact Or.inr ⟨now, rfl, cut, creatable⟩
  · have inside := (List.getElem?_eq_some_iff.mp slashed).1
    have at_ : path[i]? = some path[i] := List.getElem?_eq_getElem (before.trans_lt inside)
    have notSlash : path[i] ≠ slash := fun same => isSlash (at_.trans (congrArg some same))
    have different : i ≠ last := fun same => isSlash (same ▸ slashed)
    refine Or.inl ⟨now, ?_, made.other relative at_ notSlash, fun cut => absurd cut.2 isSlash⟩
    rw [loop_other noNul slashed isSlash before, if_neg different]

/-- From a place before the last slash, the loop passes over the slashes whose
directories can be made, and stops with the string cut at the first other one. -/
theorem Made.loop (noNul : 0 ∉ path) (relative : path.head? ≠ some slash) (slashed : path[last]? = some slash)
    {i n : Nat} (made : Made tree now path i) (ends : i + n = last) :
    (∃ after, makePathLoop now ((path ++ [0]).set last 0) (List.range' i (n + 1)) = (true, after, path ++ [0]) ∧
        Made tree after path (last + 1) ∧ ∀ j, i ≤ j → j ≤ last → Cut path j → Creatable tree (path.take j)) ∨
      ∃ after j, makePathLoop now ((path ++ [0]).set last 0) (List.range' i (n + 1)) =
        (false, after, ((path ++ [0]).set last 0).set j 0) ∧ Cut path j ∧ ¬ Creatable tree (path.take j) := by
  induction n generalizing i now with
  | zero =>
      have same : i = last := ends
      subst same
      rw [List.range'_one]
      rcases made.step noNul relative slashed le_rfl [] with passed | stopped
      · obtain ⟨later, ran, after, creatable⟩ := passed
        rw [ran, if_pos rfl]
        refine Or.inl ⟨later, rfl, after, ?_⟩
        intro j above below cut
        obtain rfl := Nat.le_antisymm below above
        exact creatable cut
      · obtain ⟨after, ran, refused⟩ := stopped
        exact Or.inr ⟨after, i, ran, refused⟩
  | succ n ih =>
      have before : i < last := by omega
      rw [List.range'_succ]
      rcases made.step noNul relative slashed before.le (List.range' (i + 1) (n + 1)) with passed | stopped
      · obtain ⟨later, ran, after, creatable⟩ := passed
        rw [ran, if_neg before.ne]
        rcases ih after (by omega) with passed | stopped
        · obtain ⟨reached, ended, last_, each⟩ := passed
          refine Or.inl ⟨reached, ended, last_, ?_⟩
          intro j above below cut
          rcases Nat.eq_or_lt_of_le above with same | above
          · exact same ▸ creatable (same ▸ cut)
          · exact each j above below cut
        · exact Or.inr stopped
      · obtain ⟨after, ran, refused⟩ := stopped
        exact Or.inr ⟨after, i, ran, refused⟩

theorem todir_spec (data : List UInt8) (i : Nat) :
    (∃ last, 0 < last ∧ last ≤ i ∧ data[last]? = some slash ∧ (∀ j, last < j → j ≤ i → data[j]? ≠ some slash) ∧
        todir data i = (data.set last 0, last)) ∨
      ((∀ j, 0 < j → j ≤ i → data[j]? ≠ some slash) ∧ todir data i = (data, 0)) := by
  induction i with
  | zero => exact Or.inr ⟨fun j above below => absurd below (by omega), rfl⟩
  | succ i ih =>
      rw [todir]
      by_cases isSlash : data[i + 1]? = some slash
      · rw [if_pos isSlash]
        exact Or.inl ⟨i + 1, Nat.succ_pos i, le_rfl, isSlash, fun j above below => absurd below (by omega), rfl⟩
      · rw [if_neg isSlash]
        rcases ih with found | none_
        · obtain ⟨last, positive, below, there, rest, same⟩ := found
          refine Or.inl ⟨last, positive, by omega, there, ?_, same⟩
          intro j above upper
          rcases Nat.lt_succ_iff_lt_or_eq.mp (Nat.lt_succ_of_le upper) with lower | equal
          · exact rest j above (by omega)
          · rwa [equal]
        · refine Or.inr ⟨?_, none_.2⟩
          intro j above upper
          rcases Nat.lt_succ_iff_lt_or_eq.mp (Nat.lt_succ_of_le upper) with lower | equal
          · exact none_.1 j above (by omega)
          · rwa [equal]

/-- A slash or a NUL at the beginning leaves the empty path, which is refused. -/
theorem loop_first {data : List UInt8} (first : data[0]? = some slash ∨ data[0]? = some 0) (rest : List Nat) :
    makePathLoop tree data (0 :: rest) = (false, tree, data.set 0 0) := by
  have empty : cString (data.set 0 0) = [] := by
    cases data with
    | nil => simp at first
    | cons byte data => simp [cString]
  have refused : tree.lookup [] = none := by simp [Tree.lookup]
  rw [makePathLoop, if_pos first]
  dsimp only
  rw [empty, Tree.opendir, Tree.mkdir, refused]
  rfl

theorem set_ne_given {data : List UInt8} {j : Nat} (same : data.length = path.length + 1)
    (isSlash : path[j]? = some slash) : data.set j 0 ≠ path ++ [0] := by
  intro restored
  have inside := (List.getElem?_eq_some_iff.mp isSlash).1
  have damaged : (data.set j 0)[j]? = some 0 := List.getElem?_set_self (by omega)
  rw [restored, List.getElem?_append_left inside, isSlash] at damaged
  exact absurd damaged (by decide)

theorem makePath_empty : makePath tree [] = (false, tree, [0]) := by
  rw [makePath]
  exact loop_first (Or.inr rfl) []

theorem makePath_absolute (absolute : path.head? = some slash) : (makePath tree path).2.2 ≠ path ++ [0] := by
  have first : path[0]? = some slash := by rw [← List.head?_eq_getElem?, absolute]
  have inside := (List.getElem?_eq_some_iff.mp first).1
  have there : (path ++ [0])[0]? = some slash := by rw [List.getElem?_append_left inside, first]
  rw [makePath]
  rcases todir_spec (path ++ [0]) path.length with found | none_
  · obtain ⟨last, positive, _, _, _, same⟩ := found
    have cut : ((path ++ [0]).set last 0)[0]? = some slash := by rw [List.getElem?_set_ne (by omega), there]
    rw [same]
    dsimp only
    rw [List.range_eq_range', List.range'_succ, loop_first (Or.inl cut)]
    exact set_ne_given (by simp) first
  · rw [none_.2]
    dsimp only
    rw [List.range_eq_range', List.range'_succ, loop_first (Or.inl there)]
    exact set_ne_given (by simp) first

theorem slash_inside {j : Nat} (isSlash : (path ++ [0])[j]? = some slash) : path[j]? = some slash := by
  rw [List.getElem?_append] at isSlash
  split at isSlash
  · exact isSlash
  · rename_i outside
    rw [List.getElem?_singleton] at isSlash
    split at isSlash
    · exact absurd isSlash (by decide)
    · exact absurd isSlash (by simp)

/-- A relative path is passed over to its last slash, or the string stays cut at the
first directory that cannot be made. -/
theorem makePath_relative (tree : Tree) (noNul : 0 ∉ path) (nonempty : path ≠ []) (relative : path.head? ≠ some slash) :
    (∃ after passed, makePath tree path = (true, after, path ++ [0]) ∧ Made tree after path passed ∧
        ∀ j, Cut path j → j < passed ∧ Creatable tree (path.take j)) ∨
      ((makePath tree path).2.2 ≠ path ++ [0] ∧ ∃ j, Cut path j ∧ ¬ Creatable tree (path.take j)) := by
  rw [makePath]
  rcases todir_spec (path ++ [0]) path.length with found | none_
  · obtain ⟨last, positive, _, there, rest, same⟩ := found
    have slashed := slash_inside there
    have below : ∀ j, Cut path j → j ≤ last := by
      intro j cut
      by_contra above
      have inside := (List.getElem?_eq_some_iff.mp cut.2).1
      refine rest j (by omega) inside.le ?_
      rw [List.getElem?_append_left inside]
      exact cut.2
    rw [same]
    dsimp only
    rw [List.range_eq_range']
    rcases (Made.start tree path).loop noNul relative slashed (Nat.zero_add last) with passed | stopped
    · obtain ⟨after, ran, made, each⟩ := passed
      refine Or.inl ⟨after, last + 1, ran, made, ?_⟩
      intro j cut
      exact ⟨Nat.lt_succ_of_le (below j cut), each j (Nat.zero_le j) (below j cut) cut⟩
    · obtain ⟨after, j, ran, cut, refused⟩ := stopped
      refine Or.inr ⟨?_, j, cut, refused⟩
      rw [ran]
      exact set_ne_given (by simp) cut.2
  · obtain ⟨noSlash, same⟩ := none_
    rw [same]
    refine Or.inl ⟨tree, 0, ?_, Made.start tree path, ?_⟩
    · cases path with
      | nil => exact absurd rfl nonempty
      | cons byte path =>
          have notSlash : byte ≠ slash := by simpa using relative
          have notNul : byte ≠ 0 := fun zero => noNul (zero ▸ List.mem_cons_self)
          simp [List.range_succ, makePathLoop, notSlash, notNul]
    · intro j cut
      have inside := (List.getElem?_eq_some_iff.mp cut.2).1
      refine absurd ?_ (noSlash j cut.1 inside.le)
      rw [List.getElem?_append_left inside]
      exact cut.2

end

/-- `MakePath` does what it is for exactly when the path is relative and not empty,
and every directory that it needs is there or can be made. -/
theorem makePath_iff (tree : Tree) (path : List UInt8) (noNul : 0 ∉ path) :
    MadePath tree path ↔ path ≠ [] ∧ path.head? ≠ some slash ∧ ∀ i, Cut path i → Creatable tree (path.take i) := by
  by_cases empty : path = []
  · rw [empty]
    simp only [ne_eq, not_true_eq_false, false_and, iff_false]
    intro made
    have returned := made.returns.mpr fun i cut => absurd cut.2 (by simp)
    rw [makePath_empty] at returned
    contradiction
  · by_cases absolute : path.head? = some slash
    · simp only [ne_eq, absolute, not_true_eq_false, false_and, and_false, iff_false]
      intro made
      exact makePath_absolute absolute made.restores
    · rcases makePath_relative tree noNul empty absolute with passed | stopped
      · obtain ⟨after, passed, ran, made, each⟩ := passed
        refine iff_of_true ⟨?_, ?_, ?_⟩ ⟨empty, absolute, fun i cut => (each i cut).2⟩
        · rw [ran]
          exact iff_of_true rfl fun i cut => made.has i (each i cut).1 cut
        · rw [ran]
          intro location changed
          have missing : tree.kind location = none := by
            by_contra present
            exact changed (made.grows.kept location present)
          rw [missing] at changed
          refine ⟨missing, ?_, made.only location (missing ▸ changed)⟩
          rw [made.grows.made location missing changed]
          exact trivial
        · rw [ran]
      · obtain ⟨damaged, j, cut, refused⟩ := stopped
        constructor
        · exact fun made => absurd made.restores damaged
        · exact fun allowed => absurd (allowed.2.2 j cut) refused

/-- Only the root, which is the working directory too. -/
def bareRoot : Tree where
  kind location := if location = [] then some (.directory true true) else none
  cwd := []
  root := trivial
  parent name location present := absurd (if_neg (List.cons_ne_nil name location)) present
  cwd_directory := trivial

/-- Of `/a` nothing has to be made, but the call fails and leaves an empty string. -/
theorem makePath_cuts_absolute : (makePath bareRoot [0x2f, 0x61]).1 = false ∧
    (makePath bareRoot [0x2f, 0x61]).2.2 = [0, 0x61, 0] := by
  decide

theorem makePath_iff_bareRoot : MadePath bareRoot [0x61, 0x2f, 0x62] := by
  refine (makePath_iff bareRoot [0x61, 0x2f, 0x62] (by decide)).mpr ⟨by decide, by decide, ?_⟩
  intro i cut
  have inside := (List.getElem?_eq_some_iff.mp cut.2).1
  have one : i = 1 := by
    have bound : i < 3 := inside
    have positive := cut.1
    have notTwo : i ≠ 2 := fun two => absurd (two ▸ cut.2) (by decide)
    omega
  rw [one]
  exact ⟨by decide, by decide, Or.inr ⟨by decide, Or.inr (by decide)⟩⟩

end Webapp.Files
