import Mathlib
import Webapp.Data.Runs
import Webapp.Files.Posix

namespace Webapp.Files

open Webapp.Data

/-! `FileSystem::DeletePath`.  The result `none` stands for the use of a variable that
`tinydir` has not set: `dir` after a path that is empty or too long, `f` after an
entry whose path is too long.
-/

/-- The two lengths that `tinydir_readfile` refuses: `_TINYDIR_PATH_MAX` is `PATH_MAX`,
and `_TINYDIR_FILENAME_MAX` is one more than `NAME_MAX`. -/
def TooLong (path : List UInt8) (name : Name) : Prop :=
  pathMax ≤ path.length + name.length + 1 ∨ nameMax < name.length

instance (path : List UInt8) (name : Name) : Decidable (TooLong path name) := inferInstanceAs (Decidable (_ ∨ _))

inductive SystemCall where
  | opendir
  | stat
  | unlink
  | rmdir
deriving DecidableEq, Repr

/-- What the code does not decide.  A path is met once in a run. -/
structure Environment where
  -- A call fails although the tree allows it, for want of a permission or a resource.
  fails : SystemCall → List UInt8 → Bool
  -- What is found in `f.is_dir` when `stat` has failed and left it unset.
  unset : List UInt8 → Bool
  -- The order in which `readdir` gives the entries.
  order : List UInt8 → List Name → List Name
  order_perm : ∀ path names, (order path names).Perm names

namespace Environment

variable (env : Environment) (cwd : Location)

/-- The entries of the loop: none when `opendir` fails. -/
def listing (fs : Fs) (path : List UInt8) : List Name :=
  match resolve fs.node cwd path with
  | some location =>
      if fs.node location = some .directory ∧ env.fails .opendir path = false then
        env.order path (fs.entries location)
      else []
  | none => []

def isDir (fs : Fs) (path : List UInt8) : Bool :=
  if env.fails .stat path then env.unset path
  else
    match (resolve fs.node cwd path).bind fs.node with
    | some node => node = .directory
    | none => env.unset path

def unlink (fs : Fs) (path : List UInt8) : Fs := if env.fails .unlink path then fs else fs.unlink cwd path

def rmdir (fs : Fs) (path : List UInt8) : Fs := if env.fails .rmdir path then fs else fs.rmdir cwd path

def deleteEntry (recurse : Fs → List UInt8 → Option Fs) (path : List UInt8) (fs : Fs) (name : Name) : Option Fs :=
  if TooLong path name then none
  else if env.isDir cwd fs (join path name) then
    if name.head? = some dot then some fs else recurse fs (join path name)
  else some (env.unlink cwd fs (join path name))

/-- The path grows with each call, so that `room` bounds the depth. -/
def deleteWithin : Nat → Fs → List UInt8 → Option Fs
  | 0, _, _ => none
  | room + 1, fs, path =>
      if path = [] ∨ pathMax ≤ path.length then none
      else
        (run (env.deleteEntry cwd (deleteWithin room) path) fs (env.listing cwd fs path)).map fun fs =>
          env.rmdir cwd fs path

def deletePath (fs : Fs) (path : List UInt8) : Option Fs := env.deleteWithin cwd pathMax fs path

end Environment

/-- No call fails that the tree allows. -/
def undisturbed : Environment where
  fails _ _ := false
  unset _ := false
  order _ names := names
  order_perm _ names := .refl names

section

variable {env : Environment} {cwd location : Location} {fs now after : Fs} {path : List UInt8} {name : Name}

theorem mem_listing (listed : name ∈ env.listing cwd fs path) :
    ∃ location, Opens fs.node cwd path location ∧ name ∈ fs.entries location := by
  rw [Environment.listing] at listed
  split at listed
  next location resolved =>
    split at listed
    next opened =>
      exact ⟨location, ⟨resolved, opened.1⟩, (env.order_perm path _).mem_iff.mp listed⟩
    next => contradiction
  next => contradiction

theorem not_tooLong (listed : name ∈ fs.entries location) (fits : path.length + name.length + 1 < pathMax) :
    ¬ TooLong path name := by
  have short := (fs.entries_valid listed).2
  rw [TooLong]
  omega

/-- What a turn of the loop comes to, with `Stuck` for the use of an unset variable. -/
theorem deleteEntry_elim {recurse : Fs → List UInt8 → Option Fs} {Holds : Fs → Prop} {Stuck : Prop}
    (long : TooLong path name → Stuck) (holds : Holds now)
    (recursed : name.head? ≠ some dot → path.length + name.length + 1 < pathMax →
      (recurse now (join path name)).elim Stuck Holds)
    (unlinked : Holds (env.unlink cwd now (join path name))) :
    (env.deleteEntry cwd recurse path now name).elim Stuck Holds := by
  rw [Environment.deleteEntry]
  split
  next tooLong => exact long tooLong
  next fits =>
    split
    next =>
      split
      next => exact holds
      next notDot => exact recursed notDot (Nat.lt_of_not_le fun tooLong => fits (Or.inl tooLong))
    next => exact unlinked

/-- What has to be shown of the paths that are visited and of the file system. -/
structure Deletes (env : Environment) (cwd : Location) (Visited : List UInt8 → Prop) (Holds : Fs → Prop)
    (Stuck : Prop) : Prop where
  bounds : ∀ path, Visited path → path = [] ∨ pathMax ≤ path.length → Stuck
  long : ∀ fs path name, Visited path → Holds fs → name ∈ env.listing cwd fs path →
    TooLong path name → Stuck
  child : ∀ fs path name, Visited path → path ≠ [] → Holds fs → name ∈ env.listing cwd fs path →
    name.head? ≠ some dot → path.length + name.length + 1 < pathMax → Visited (join path name)
  unlinks : ∀ fs path name now, Visited path → path ≠ [] → Holds fs → name ∈ env.listing cwd fs path → Holds now →
    Holds (env.unlink cwd now (join path name))
  removes : ∀ fs path, Visited path → Holds fs → Holds (env.rmdir cwd fs path)

theorem loop_elim {recurse : Fs → List UInt8 → Option Fs} {Holds : Fs → Prop} {Stuck : Prop}
    (long : ∀ name ∈ env.listing cwd fs path, TooLong path name → Stuck)
    (recursed : ∀ name ∈ env.listing cwd fs path, name.head? ≠ some dot → path.length + name.length + 1 < pathMax →
      ∀ now, Holds now → (recurse now (join path name)).elim Stuck Holds)
    (unlinks : ∀ name ∈ env.listing cwd fs path, ∀ now, Holds now → Holds (env.unlink cwd now (join path name)))
    (holds : Holds fs) :
    (run (env.deleteEntry cwd recurse path) fs (env.listing cwd fs path)).elim Stuck Holds := by
  refine run_elim ?_ holds
  intro name listed now holdsNow
  exact deleteEntry_elim (long name listed) holdsNow (fun notDot fits => recursed name listed notDot fits now holdsNow)
    (unlinks name listed now holdsNow)

theorem length_join (path : List UInt8) (name : Name) : (join path name).length = path.length + name.length + 1 := by
  rw [join, List.length_append, List.length_cons, Nat.add_assoc]

theorem Deletes.within {Visited : List UInt8 → Prop} {Holds : Fs → Prop} {Stuck : Prop}
    (deletes : Deletes env cwd Visited Holds Stuck) {room : Nat} (enough : pathMax ≤ room + path.length)
    (visited : Visited path) (holds : Holds fs) : (env.deleteWithin cwd room fs path).elim Stuck Holds := by
  induction room generalizing path fs with
  | zero => exact deletes.bounds path visited (Or.inr (by omega))
  | succ room ih =>
      rw [Environment.deleteWithin]
      split
      next bad => exact deletes.bounds path visited bad
      next good =>
        have nonempty : path ≠ [] := fun empty => good (Or.inl empty)
        rw [Option.elim_map]
        refine elim_mono (loop_elim ?_ ?_ ?_ holds) (fun reached => deletes.removes reached path visited)
        · intro name listed
          exact deletes.long fs path name visited holds listed
        · intro name listed notDot fits now holdsNow
          refine ih ?_ (deletes.child fs path name visited nonempty holds listed notDot fits) holdsNow
          rw [length_join]
          omega
        · intro name listed now holdsNow
          exact deletes.unlinks fs path name now visited nonempty holds listed holdsNow

theorem Environment.unlink_node (location : Location) :
    (env.unlink cwd fs path).node location = fs.node location ∨
      (env.unlink cwd fs path).node location = none ∧ entry fs.node cwd path = some location ∧
        fs.node location ≠ some .directory := by
  rw [Environment.unlink]
  split
  next => exact Or.inl rfl
  next =>
    rw [Fs.unlink_node]
    split
    next removed => exact Or.inr ⟨rfl, removed⟩
    next => exact Or.inl rfl

theorem Environment.rmdir_node (location : Location) :
    (env.rmdir cwd fs path).node location = fs.node location ∨
      (env.rmdir cwd fs path).node location = none ∧ entry fs.node cwd path = some location ∧
        fs.node location = some .directory ∧ fs.names location = [] := by
  rw [Environment.rmdir]
  split
  next => exact Or.inl rfl
  next =>
    rw [Fs.rmdir_node]
    split
    next removed => exact Or.inr ⟨rfl, removed⟩
    next => exact Or.inl rfl

def Fs.Shrinks (fs now : Fs) : Prop := ∀ location node, now.node location = some node → fs.node location = some node

theorem Fs.Shrinks.of_node (shrinks : fs.Shrinks now)
    (kept : ∀ location, after.node location = now.node location ∨ after.node location = none) : fs.Shrinks after := by
  intro location node found
  rcases kept location with same | gone
  · exact shrinks location node (same ▸ found)
  · rw [gone] at found
    contradiction

theorem Fs.Shrinks.unlink (shrinks : fs.Shrinks now) : fs.Shrinks (env.unlink cwd now path) :=
  shrinks.of_node fun location => (Environment.unlink_node location).imp_right And.left

theorem Fs.Shrinks.rmdir (shrinks : fs.Shrinks now) : fs.Shrinks (env.rmdir cwd now path) :=
  shrinks.of_node fun location => (Environment.rmdir_node location).imp_right And.left

theorem Fs.Shrinks.trans (shrinks : fs.Shrinks now) (further : now.Shrinks after) : fs.Shrinks after :=
  fun location node found => shrinks location node (further location node found)

theorem deleteWithin_shrinks {room : Nat} (enough : pathMax ≤ room + path.length) :
    (env.deleteWithin cwd room fs path).elim True fs.Shrinks := by
  have deletes : Deletes env cwd (fun _ => True) fs.Shrinks True :=
    ⟨fun _ _ _ => trivial, fun _ _ _ _ _ _ _ => trivial, fun _ _ _ _ _ _ _ _ _ => trivial,
      fun _ _ _ _ _ _ _ _ shrinks => shrinks.unlink, fun _ _ _ shrinks => shrinks.rmdir⟩
  exact deletes.within enough trivial fun _ _ found => found

theorem Fs.Shrinks.names (shrinks : fs.Shrinks now) (listed : name ∈ now.names location) : name ∈ fs.names location := by
  obtain ⟨node, found⟩ := Option.ne_none_iff_exists'.mp (now.mem_names.mp listed)
  refine fs.mem_names.mpr ?_
  rw [shrinks _ _ found]
  exact Option.some_ne_none node

theorem Fs.Shrinks.entries (shrinks : fs.Shrinks now) (listed : name ∈ now.entries location) : name ∈ fs.entries location :=
  fs.mem_entries.mpr ((now.mem_entries.mp listed).imp_right shrinks.names)

theorem Fs.Shrinks.gone (shrinks : now.Shrinks after) (gone : now.node location = none) :
    after.node location = none := by
  by_contra present
  obtain ⟨node, found⟩ := Option.ne_none_iff_exists'.mp present
  rw [shrinks _ _ found] at gone
  contradiction

theorem entry_improper (improper : name = [dot] ∨ name = [dot, dot]) (location : Location) (nodes : Nodes) :
    entry nodes cwd (join path name) ≠ some location := by
  intro found
  obtain ⟨names, last, _, split, proper, _⟩ := entry_eq_some_iff.mp found
  have whole : components (join path name) = components path ++ [name] := by
    rcases improper with one | two
    · rw [one]
      exact components_join path (by decide) (by decide)
    · rw [two]
      exact components_join path (by decide) (by decide)
  obtain ⟨_, same⟩ := List.append_inj' (whole.symm.trans split) rfl
  obtain ⟨same, _⟩ := List.cons.inj same
  rcases improper with one | two
  · exact proper.2.1 (same ▸ one)
  · exact proper.2.2 (same ▸ two)

end

/-- The nodes that stay when everything below a place is gone. -/
def emptied (nodes : Nodes) (top : Location) : Nodes := fun location =>
  if top <:+ location ∧ location ≠ top then none else nodes location

/-- The bytes that names and the slashes before them add to a path. -/
def spelled (names : List Name) : Nat := (names.map fun name => name.length + 1).sum

/-- The path leads to a tree of files and directories whose paths are short enough. -/
structure PlainTree (cwd : Location) (fs : Fs) (path : List UInt8) (top : Location) : Prop where
  nonempty : path ≠ []
  opens : Opens fs.node cwd path top
  links : ∀ location target, top <:+ location → fs.node location ≠ some (.link target)
  fits : ∀ names, fs.node (names ++ top) = some .directory →
    ∀ name ∈ fs.entries (names ++ top), path.length + spelled names + name.length + 1 < pathMax

/-- The entries of a directory are gone but for those that the loop has not come to. -/
structure Cleared (fs : Fs) (top : Location) (todo : List Name) (now : Fs) : Prop where
  gone : ∀ name ∈ fs.names top, name ∉ todo → ∀ location, name :: top <:+ location → now.node location = none
  kept : ∀ location, (∀ name ∈ fs.names top, name ∉ todo → ¬ name :: top <:+ location) →
    now.node location = fs.node location

section

variable {env : Environment} {cwd top location : Location} {fs now after : Fs} {path : List UInt8} {name : Name}
  {todo : List Name}

theorem emptied_eq_some_iff {nodes : Nodes} {node : Node} : emptied nodes top location = some node ↔
    nodes location = some node ∧ ∀ name, ¬ name :: top <:+ location := by
  rw [emptied]
  split
  next below =>
    rcases suffix_cases below.1 with same | through
    · exact absurd same below.2
    · obtain ⟨name, through⟩ := through
      exact ⟨fun found => by contradiction, fun found => absurd through (found.2 name)⟩
  next stays =>
    refine ⟨fun found => ⟨found, fun name through => stays ⟨?_, ?_⟩⟩, And.left⟩
    · exact (List.suffix_cons name top).trans through
    · intro same
      exact not_cons_suffix name top (same ▸ through)

theorem Cleared.start (members : ∀ name ∈ fs.names top, name ∈ todo) : Cleared fs top todo fs :=
  ⟨fun name listed notTodo => absurd (members name listed) notTodo, fun _ _ => rfl⟩

theorem Cleared.shrinks (cleared : Cleared fs top todo now) : fs.Shrinks now := by
  intro location node found
  rw [← cleared.kept location, found]
  intro name listed notTodo below
  rw [cleared.gone name listed notTodo location below] at found
  contradiction

theorem Cleared.emptied (cleared : Cleared fs top todo now) (location : Location) (node : Node)
    (found : emptied fs.node top location = some node) : now.node location = some node := by
  obtain ⟨found, notBelow⟩ := emptied_eq_some_iff.mp found
  rw [cleared.kept location fun name _ _ => notBelow name, found]

theorem Cleared.ahead (cleared : Cleared fs top (name :: todo) now) (below : name :: top <:+ location) :
    now.node location = fs.node location := by
  refine cleared.kept location fun other _ notTodo otherBelow => notTodo ?_
  rw [cons_suffix_unique otherBelow below]
  exact List.mem_cons_self

theorem Cleared.pass (cleared : Cleared fs top (name :: todo) now) (notEntry : name ∉ fs.names top)
    (same : after.node = now.node) : Cleared fs top todo after := by
  have different : ∀ other ∈ fs.names top, other ∉ todo → other ∉ name :: todo := by
    intro other listed notTodo member
    rcases List.mem_cons.mp member with here | there
    · exact notEntry (here ▸ listed)
    · exact notTodo there
  constructor
  · intro other listed notTodo location below
    rw [same]
    exact cleared.gone other listed (different other listed notTodo) location below
  · intro location notBelow
    rw [same]
    refine cleared.kept location fun other listed notTodo => notBelow other listed fun member => ?_
    exact notTodo (List.mem_cons_of_mem name member)

theorem Cleared.entry (cleared : Cleared fs top (name :: todo) now) (listed : name ∈ fs.names top)
    (fresh : name ∉ todo) (removed : ∀ location, after.node location =
      if name :: top <:+ location then none else now.node location) : Cleared fs top todo after := by
  constructor
  · intro other otherListed notTodo location below
    rw [removed]
    split
    next => rfl
    next notBelow =>
      refine cleared.gone other otherListed (fun member => ?_) location below
      rcases List.mem_cons.mp member with here | there
      · exact notBelow (here ▸ below)
      · exact notTodo there
  · intro location notBelow
    rw [removed, if_neg (notBelow name listed fresh)]
    refine cleared.kept location fun other otherListed notTodo => notBelow other otherListed fun member => ?_
    exact notTodo (List.mem_cons_of_mem name member)

theorem Environment.isDir_join (calls : ∀ call path, env.fails call path = false) (nonempty : path ≠ [])
    (opens : Opens now.node cwd path top) {node : Node} (found : now.node (name :: top) = some node)
    (real : ∀ target, node ≠ .link target) : env.isDir cwd now (join path name) = decide (node = .directory) := by
  have named := (now.name_valid (now.listed_of_node found)).1
  rw [Environment.isDir, calls, opens.join nonempty named.2 named.1 found real, Option.bind_some, found]
  rfl

theorem deleteEntry_improper {recurse : Fs → List UInt8 → Option Fs} (improper : name = [dot] ∨ name = [dot, dot])
    (fits : ¬ TooLong path name) :
    ∃ after, env.deleteEntry cwd recurse path now name = some after ∧ after.node = now.node := by
  rw [Environment.deleteEntry, if_neg fits, if_pos (head_of_improper improper)]
  split
  next => exact ⟨now, rfl, rfl⟩
  next =>
    refine ⟨_, rfl, funext fun other => ?_⟩
    rcases Environment.unlink_node other with kept | removed
    · exact kept
    · exact absurd removed.2.1 (entry_improper improper other now.node)

theorem deleteEntry_file {recurse : Fs → List UInt8 → Option Fs} (calls : ∀ call path, env.fails call path = false)
    (nonempty : path ≠ []) (opens : Opens now.node cwd path top) {contents : List UInt8}
    (found : now.node (name :: top) = some (.file contents)) (fits : ¬ TooLong path name) :
    ∃ after, env.deleteEntry cwd recurse path now name = some after ∧
      ∀ location, after.node location = if name :: top <:+ location then none else now.node location := by
  have named := (now.name_valid (now.listed_of_node found)).1
  have notDir : ¬ env.isDir cwd now (join path name) = true := by
    rw [Environment.isDir_join calls nonempty opens found (by simp)]
    simp
  rw [Environment.deleteEntry, if_neg fits, if_neg notDir]
  refine ⟨_, rfl, ?_⟩
  intro location
  have there := (entry_join nonempty named.2 named.1).mpr ⟨top, opens, rfl⟩
  rw [Environment.unlink, calls, if_neg Bool.false_ne_true, Fs.unlink_node]
  split
  next removed =>
    obtain rfl := Option.some.inj (there.symm.trans removed.1)
    rw [if_pos List.suffix_rfl]
  next stays =>
    split
    next below =>
      -- Nothing is below a file.
      by_contra present
      obtain ⟨names, same⟩ := below
      by_cases here : names = []
      · rw [here] at same
        have same : name :: top = location := same
        refine stays ⟨same ▸ there, ?_⟩
        rw [← same, found]
        simp
      · rw [← same] at present
        rw [now.ancestor_directory here present] at found
        exact absurd found (by simp)
    next => rfl

theorem spelled_concat (names : List Name) (name : Name) : spelled (names ++ [name]) = spelled names + name.length + 1 := by
  rw [spelled, List.map_append, List.sum_append, spelled]
  simp [Nat.add_assoc]

theorem PlainTree.child (plain : PlainTree cwd fs path top) (shrinks : fs.Shrinks now)
    (opens : Opens now.node cwd path top) (directory : now.node (name :: top) = some .directory) :
    PlainTree cwd now (join path name) (name :: top) := by
  have named := (now.name_valid (now.listed_of_node directory)).1
  refine ⟨?_, ⟨opens.join plain.nonempty named.2 named.1 directory (by simp), directory⟩, ?_, ?_⟩
  · intro empty
    exact absurd (List.append_eq_nil_iff.mp empty).2 (List.cons_ne_nil slash name)
  · intro location target below found
    exact plain.links location target ((List.suffix_cons name top).trans below) (shrinks _ _ found)
  · intro names within other listed
    have split : names ++ name :: top = (names ++ [name]) ++ top := by simp
    rw [split] at within listed
    have fits := plain.fits (names ++ [name]) (shrinks _ _ within) other
    rw [spelled_concat] at fits
    rw [length_join]
    have := fits (shrinks.entries listed)
    omega

theorem PlainTree.loop {recurse : Fs → List UInt8 → Option Fs} (calls : ∀ call path, env.fails call path = false)
    (plain : PlainTree cwd fs path top) (opens : Opens (emptied fs.node top) cwd path top)
    (recursed : ∀ name todo now, name ∈ fs.names top → Cleared fs top (name :: todo) now →
      now.node (name :: top) = some .directory → ∃ after, env.deleteEntry cwd recurse path now name = some after ∧
        ∀ location, after.node location = if name :: top <:+ location then none else now.node location)
    (nodup : todo.Nodup) (members : ∀ name ∈ todo, name ∈ fs.entries top)
    (cleared : Cleared fs top todo now) :
    ∃ after, run (env.deleteEntry cwd recurse path) now todo = some after ∧ Cleared fs top [] after := by
  induction todo generalizing now with
  | nil => exact ⟨now, rfl, cleared⟩
  | cons name todo ih =>
      have fits : ¬ TooLong path name := by
        have listed := members name List.mem_cons_self
        exact not_tooLong listed (plain.fits [] plain.opens.2 name listed)
      have step : ∃ after, env.deleteEntry cwd recurse path now name = some after ∧ Cleared fs top todo after := by
        have listed := members name List.mem_cons_self
        rcases fs.mem_entries.mp listed with improper | listed
        · have passed : ∃ after, env.deleteEntry cwd recurse path now name = some after ∧ after.node = now.node :=
            deleteEntry_improper improper fits
          obtain ⟨after, ran, same⟩ := passed
          refine ⟨after, ran, cleared.pass (fun listed => ?_) same⟩
          have proper := (fs.name_valid listed).1.1
          exact improper.elim proper.2.1 proper.2.2
        · have fresh := (List.nodup_cons.mp nodup).1
          obtain ⟨node, found⟩ := Option.ne_none_iff_exists'.mp (fs.mem_names.mp listed)
          have foundNow : now.node (name :: top) = some node := (cleared.ahead List.suffix_rfl).trans found
          have taken : ∃ after, env.deleteEntry cwd recurse path now name = some after ∧
              ∀ location, after.node location = if name :: top <:+ location then none else now.node location := by
            cases node with
            | file contents =>
                exact deleteEntry_file calls plain.nonempty (opens.mono cleared.emptied) foundNow fits
            | directory => exact recursed name todo now listed cleared foundNow
            | link target => exact absurd found (plain.links _ target (List.suffix_cons name top))
          obtain ⟨after, ran, removed⟩ := taken
          exact ⟨after, ran, cleared.entry listed fresh removed⟩
      obtain ⟨next, ran, clearedNext⟩ := step
      rw [run, ran]
      exact ih (List.nodup_cons.mp nodup).2 (fun other member => members other (List.mem_cons_of_mem name member)) clearedNext

theorem Cleared.own (cleared : Cleared fs top (name :: todo) now) (opens : Opens (Files.emptied fs.node top) cwd path top)
    (nonempty : path ≠ []) (named : Proper name ∧ slash ∉ name) :
    Files.entry (Files.emptied now.node (name :: top)) cwd (join path name) = some (name :: top) := by
  refine (entry_join nonempty named.2 named.1).mpr ⟨top, opens.mono ?_, rfl⟩
  intro location node found
  refine emptied_eq_some_iff.mpr ⟨cleared.emptied location node found, fun other through => ?_⟩
  exact (emptied_eq_some_iff.mp found).2 name ((List.suffix_cons other (name :: top)).trans through)

theorem Cleared.rmdir (cleared : Cleared fs top [] now) (removes : env.fails .rmdir path = false)
    (own : Files.entry (Files.emptied fs.node top) cwd path = some top) (directory : fs.node top = some .directory)
    (location : Location) :
    (env.rmdir cwd now path).node location = if top <:+ location then none else fs.node location := by
  have found : Files.entry now.node cwd path = some top := entry_mono cleared.emptied own
  have same : now.node top = some .directory := by
    rw [cleared.kept top fun name _ _ => not_cons_suffix name top, directory]
  have empty : now.names top = [] := by
    refine List.eq_nil_iff_forall_not_mem.mpr fun name listed => now.mem_names.mp listed ?_
    exact cleared.gone name (cleared.shrinks.names listed) List.not_mem_nil _ List.suffix_rfl
  rw [Environment.rmdir, removes, if_neg Bool.false_ne_true, Fs.rmdir_node]
  split
  next removed =>
    obtain rfl := Option.some.inj (found.symm.trans removed.1)
    rw [if_pos List.suffix_rfl]
  next stays =>
    split
    next below =>
      rcases suffix_cases below with here | through
      · exact absurd (here ▸ ⟨found, same, empty⟩) stays
      · obtain ⟨name, through⟩ := through
        by_cases listed : name ∈ fs.names top
        · exact cleared.gone name listed List.not_mem_nil location through
        · refine cleared.shrinks.gone ?_
          have missing := not_not.mp (mt fs.mem_names.mpr listed)
          exact fs.below_missing missing through
    next outside =>
      refine cleared.kept location fun name _ _ through => outside ?_
      exact (List.suffix_cons name top).trans through

theorem PlainTree.short (plain : PlainTree cwd fs path top) : path.length < pathMax := by
  have fits := plain.fits [] plain.opens.2 [dot] List.mem_cons_self
  omega

theorem Environment.listing_eq (calls : ∀ call path, env.fails call path = false) (opens : Opens fs.node cwd path top) :
    env.listing cwd fs path = env.order path (fs.entries top) := by
  rw [Environment.listing, opens.1]
  exact if_pos ⟨opens.2, calls _ _⟩

/-- When no directory has a name that begins with a dot, everything is removed. -/
theorem PlainTree.clears (calls : ∀ call path, env.fails call path = false) {room : Nat}
    (enough : pathMax ≤ room + path.length) (plain : PlainTree cwd fs path top)
    (dots : ∀ name location, top <:+ location → fs.node (name :: location) = some .directory → name.head? ≠ some dot)
    (own : entry (emptied fs.node top) cwd path = some top) :
    ∃ after, env.deleteWithin cwd room fs path = some after ∧
      ∀ location, after.node location = if top <:+ location then none else fs.node location := by
  induction room generalizing fs path top with
  | zero =>
      have short := plain.short
      omega
  | succ room ih =>
      have short := plain.short
      have directory : emptied fs.node top top = some .directory :=
        emptied_eq_some_iff.mpr ⟨plain.opens.2, fun name => not_cons_suffix name top⟩
      -- The path does not need what is below its end, so it leads there until the end.
      have opens : Opens (emptied fs.node top) cwd path top := ⟨resolve_of_entry own directory (by simp), directory⟩
      have order := env.order_perm path (fs.entries top)
      have looped : ∃ after, run (env.deleteEntry cwd (env.deleteWithin cwd room) path) fs (env.listing cwd fs path) =
          some after ∧ Cleared fs top [] after := by
        rw [Environment.listing_eq calls plain.opens]
        refine plain.loop calls opens ?_ (order.nodup_iff.mpr (fs.entries_nodup top)) (fun name => order.mem_iff.mp)
          (Cleared.start fun name listed => order.mem_iff.mpr (fs.mem_entries.mpr (Or.inr listed)))
        intro name todo now listed cleared found
        have named := (fs.name_valid listed).1
        have opensNow : Opens now.node cwd path top := opens.mono cleared.emptied
        have child := plain.child cleared.shrinks opensNow found
        have fits : ¬ TooLong path name := by
          have listed := fs.mem_entries.mpr (Or.inr listed)
          exact not_tooLong listed (plain.fits [] plain.opens.2 name listed)
        have isDir : env.isDir cwd now (join path name) = true := by
          rw [Environment.isDir_join calls plain.nonempty opensNow found (by simp)]
          rfl
        have notDot := dots name top List.suffix_rfl (cleared.shrinks _ _ found)
        rw [Environment.deleteEntry, if_neg fits, if_pos isDir, if_neg notDot]
        refine ih ?_ child ?_ (cleared.own opens plain.nonempty named)
        · rw [length_join]
          omega
        · intro other location below within
          exact dots other location ((List.suffix_cons name top).trans below) (cleared.shrinks _ _ within)
      obtain ⟨reached, ran, cleared⟩ := looped
      have good : ¬ (path = [] ∨ pathMax ≤ path.length) := by
        rw [not_or]
        exact ⟨plain.nonempty, by omega⟩
      refine ⟨env.rmdir cwd reached path, ?_, cleared.rmdir (calls _ _) own plain.opens.2⟩
      rw [Environment.deleteWithin, if_neg good, ran]
      rfl

theorem deleteWithin_eq_some {room : Nat} (enough : pathMax ≤ room + path.length)
    (ran : env.deleteWithin cwd room fs path = some after) :
    (path ≠ [] ∧ path.length < pathMax) ∧ ∃ room reached, pathMax ≤ room + 1 + path.length ∧
      run (env.deleteEntry cwd (env.deleteWithin cwd room) path) fs (env.listing cwd fs path) = some reached ∧
        env.rmdir cwd reached path = after := by
  cases room with
  | zero => contradiction
  | succ room =>
      rw [Environment.deleteWithin] at ran
      split at ran
      next => contradiction
      next good =>
        obtain ⟨reached, looped, same⟩ := Option.map_eq_some_iff.mp ran
        exact ⟨⟨fun empty => good (Or.inl empty), by omega⟩, room, reached, enough, looped, same⟩

/-- The loop of a path that need not be one of those that the rule is about. -/
theorem Deletes.loop {Visited : List UInt8 → Prop} {Holds : Fs → Prop} (deletes : Deletes env cwd Visited Holds True)
    {room : Nat} (enough : pathMax ≤ room + 1 + path.length) {reached : Fs}
    (child : ∀ name ∈ env.listing cwd fs path, name.head? ≠ some dot → Visited (join path name))
    (unlinks : ∀ name ∈ env.listing cwd fs path, ∀ now, Holds now → Holds (env.unlink cwd now (join path name)))
    (holds : Holds fs)
    (ran : run (env.deleteEntry cwd (env.deleteWithin cwd room) path) fs (env.listing cwd fs path) = some reached) :
    Holds reached := by
  have looped : (run (env.deleteEntry cwd (env.deleteWithin cwd room) path) fs (env.listing cwd fs path)).elim
      True Holds := by
    refine loop_elim (fun _ _ _ => trivial) ?_ unlinks holds
    intro name listed notDot _ now holdsNow
    refine deletes.within ?_ (child name listed notDot) holdsNow
    rw [length_join]
    omega
  rw [ran] at looped
  exact looped

theorem unlink_directory (directory : now.node location = some .directory) :
    (env.unlink cwd now path).node location = some .directory := by
  rcases Environment.unlink_node location with kept | removed
  · rw [kept, directory]
  · exact absurd directory removed.2.2

/-- A directory whose name begins with a dot is not removed by a recursive call. -/
theorem dotted_stays {dotted : Name} (dots : dotted.head? = some dot) (directory : fs.node (dotted :: location) = some .directory)
    (nonempty : path ≠ []) {room : Nat} (enough : pathMax ≤ room + 1 + path.length) {reached : Fs}
    (ran : run (env.deleteEntry cwd (env.deleteWithin cwd room) path) fs (env.listing cwd fs path) = some reached) :
    reached.node (dotted :: location) = some .directory := by
  have visits : ∀ now before name, before ≠ [] → name ∈ env.listing cwd now before → name.head? ≠ some dot →
      ∃ above last, join before name = join above last ∧ above ≠ [] ∧ last.head? ≠ some dot ∧ Proper last ∧ slash ∉ last := by
    intro now before name nonempty listed notDot
    obtain ⟨there, _, member⟩ := mem_listing listed
    have named := (now.name_valid (now.mem_names_of_entries member notDot)).1
    exact ⟨before, name, rfl, nonempty, notDot, named.1, named.2⟩
  have deletes : Deletes env cwd
      (fun visited => ∃ above last, visited = join above last ∧ above ≠ [] ∧ last.head? ≠ some dot ∧ Proper last ∧
        slash ∉ last) (fun now => now.node (dotted :: location) = some .directory) True := by
    refine ⟨fun _ _ _ => trivial, fun _ _ _ _ _ _ _ => trivial, ?_, ?_, ?_⟩
    · intro now before name _ nonempty _ listed notDot _
      exact visits now before name nonempty listed notDot
    · intro _ _ _ now _ _ _ _ holds
      exact unlink_directory holds
    · intro now visited reached holds
      obtain ⟨above, last, same, nonempty, notDot, proper, whole⟩ := reached
      rcases Environment.rmdir_node (dotted :: location) with kept | removed
      · rw [kept, holds]
      · rw [same] at removed
        obtain ⟨parent, _, here⟩ := (entry_join nonempty whole proper).mp removed.2.1
        exact absurd ((List.cons.inj here).1 ▸ dots) notDot
  exact deletes.loop enough (fun name => visits fs path name nonempty) (fun _ _ _ => unlink_directory) directory ran

/-- The place itself is not removed by a recursive call. -/
theorem PlainTree.top_stays (plain : PlainTree cwd fs path top) {room : Nat} (enough : pathMax ≤ room + 1 + path.length)
    {reached : Fs}
    (ran : run (env.deleteEntry cwd (env.deleteWithin cwd room) path) fs (env.listing cwd fs path) = some reached) :
    fs.Shrinks reached ∧ reached.node top = some .directory := by
  have below : ∀ now before name, before ≠ [] → name ∈ env.listing cwd now before → name.head? ≠ some dot →
      (∀ there, Opens fs.node cwd before there → top <:+ there) →
      ∀ there, resolve fs.node cwd (join before name) = some there → ∃ first, first :: top <:+ there := by
    intro now before name nonempty listed notDot under there resolved
    obtain ⟨_, _, member⟩ := mem_listing listed
    have named := (now.name_valid (now.mem_names_of_entries member notDot)).1
    obtain ⟨parent, node, opens, found, same⟩ := resolve_of_join nonempty named.2 named.1 resolved
    have through : top <:+ name :: parent := (under parent opens).trans (List.suffix_cons name parent)
    have here := same fun target link => plain.links _ target through (link ▸ found)
    rcases suffix_cases (under parent opens) with equal | deeper
    · exact ⟨name, by rw [here, equal]⟩
    · obtain ⟨first, deeper⟩ := deeper
      exact ⟨first, here ▸ deeper.trans (List.suffix_cons name parent)⟩
  have deletes : Deletes env cwd
      (fun visited => ∀ there, resolve fs.node cwd visited = some there → ∃ first, first :: top <:+ there)
      (fun now => fs.Shrinks now ∧ now.node top = some .directory) True := by
    refine ⟨fun _ _ _ => trivial, fun _ _ _ _ _ _ _ => trivial, ?_, ?_, ?_⟩
    · intro now before name visited nonempty holds listed notDot _
      refine below now before name nonempty listed notDot fun there opens => ?_
      obtain ⟨first, through⟩ := visited there opens.1
      exact (List.suffix_cons first top).trans through
    · intro _ _ _ now _ _ _ _ holds
      exact ⟨holds.1.unlink, unlink_directory holds.2⟩
    · intro now visited reached holds
      refine ⟨holds.1.rmdir, ?_⟩
      rcases Environment.rmdir_node top with kept | removed
      · rw [kept, holds.2]
      · have resolved := resolve_mono holds.1 (resolve_of_entry removed.2.1 holds.2 (by simp))
        obtain ⟨first, through⟩ := reached top resolved
        exact absurd through (not_cons_suffix first top)
  refine deletes.loop enough ?_ (fun _ _ _ holds => ⟨holds.1.unlink, unlink_directory holds.2⟩)
    ⟨fun _ _ found => found, plain.opens.2⟩ ran
  intro name listed notDot
  refine below fs path name plain.nonempty listed notDot fun there opens => ?_
  rw [opens.eq plain.opens]

end

/-- A tree of files and directories is removed exactly when none of its directories
has a name that begins with a dot, and the path names the entry of the tree, on a
way that does not go through it. -/
theorem deletePath_removes_iff (env : Environment) (calls : ∀ call path, env.fails call path = false) (cwd : Location)
    (fs : Fs) (path : List UInt8) (top : Location) (plain : PlainTree cwd fs path top) :
    (∃ after, env.deletePath cwd fs path = some after ∧ ∀ location, top <:+ location → after.node location = none) ↔
      (∀ name location, top <:+ location → fs.node (name :: location) = some .directory → name.head? ≠ some dot) ∧
        entry (emptied fs.node top) cwd path = some top := by
  constructor
  · intro removed
    obtain ⟨after, ran, gone⟩ := removed
    obtain ⟨⟨nonempty, _⟩, room, reached, enough, looped, same⟩ := deleteWithin_eq_some (by omega) ran
    -- Only the last `rmdir` can have removed the directory, which was empty by then.
    obtain ⟨shrinks, directory⟩ := plain.top_stays enough looped
    subst same
    constructor
    · intro name location below dotted dots
      have stays := dotted_stays dots dotted nonempty enough looped
      rcases Environment.rmdir_node (name :: location) with kept | taken
      · have absent := gone (name :: location) (below.trans (List.suffix_cons name location))
        rw [kept, stays] at absent
        contradiction
      · have resolved := resolve_mono shrinks (resolve_of_entry taken.2.1 stays (by simp))
        have here := Option.some.inj (plain.opens.1.symm.trans resolved)
        exact not_cons_suffix name location (here ▸ below)
    · rcases Environment.rmdir_node top with kept | taken
      · have absent := gone top List.suffix_rfl
        rw [kept, directory] at absent
        contradiction
      · refine entry_mono (fun location node found => ?_) taken.2.1
        refine emptied_eq_some_iff.mpr ⟨shrinks _ _ found, fun name through => ?_⟩
        have missing : reached.node (name :: top) = none := by
          by_contra present
          have listed := reached.mem_names.mpr present
          rw [taken.2.2.2] at listed
          contradiction
        rw [reached.below_missing missing through] at found
        contradiction
  · intro condition
    obtain ⟨after, ran, cleared⟩ := plain.clears calls (Nat.le_add_right pathMax path.length) condition.1 condition.2
    refine ⟨after, ran, fun location below => ?_⟩
    rw [cleared, if_pos below]

/-- `/p` with a directory `.d` in it. -/
def dottedTree : Fs where
  table := List.toAList [⟨[], .directory⟩, ⟨[[0x70]], .directory⟩, ⟨[[dot, 0x64], [0x70]], .directory⟩]
  root := by decide
  parent := by decide
  proper := by decide

theorem deletePath_leaves_dotted :
    (undisturbed.deletePath [] dottedTree [slash, 0x70]).map (fun after =>
      (after.node [[0x70]], after.node [[dot, 0x64], [0x70]])) = some (some .directory, some .directory) := by
  decide

/-- `/p` with the file `f` and the directory `d`, in which there is another file `g`. -/
def nestedNodes : List (Location × Node) :=
  [([], .directory), ([[0x70]], .directory), ([[0x66], [0x70]], .file [0x31]), ([[0x64], [0x70]], .directory),
    ([[0x67], [0x64], [0x70]], .file [])]

def nestedTree : Fs where
  table := List.toAList (nestedNodes.map fun entry => ⟨entry.1, entry.2⟩)
  root := by decide
  parent := by decide
  proper := by decide

theorem nestedTree_node {location : Location} {node : Node} (found : nestedTree.node location = some node) :
    (location, node) ∈ nestedNodes := by
  have member := AList.mem_keys.mp (nestedTree.mem_table.mpr (found ▸ Option.some_ne_none node))
  have listed : ∀ location ∈ nestedTree.table.keys, ∀ node ∈ nestedTree.node location, (location, node) ∈ nestedNodes := by
    decide
  exact listed location member node found

theorem nestedTree_directory {names : List Name} (found : nestedTree.node (names ++ [[0x70]]) = some .directory) :
    names = [] ∨ names = [[0x64]] := by
  have listed := nestedTree_node found
  simp only [nestedNodes, List.mem_cons, List.not_mem_nil, or_false, Prod.mk.injEq, reduceCtorEq, and_true, and_false,
    false_or, List.append_eq_nil_iff, List.cons_ne_nil] at listed
  rcases listed with here | below
  · have same : names ++ [[0x70]] = [] ++ [[0x70]] := here
    exact .inl (List.append_cancel_right same)
  · have same : names ++ [[0x70]] = [[0x64]] ++ [[0x70]] := below
    exact .inr (List.append_cancel_right same)

theorem deletePath_removes_iff_nestedTree :
    nestedTree.node [[0x67], [0x64], [0x70]] = some (.file []) ∧
      ∃ after, undisturbed.deletePath [] nestedTree [slash, 0x70] = some after ∧
        ∀ location, [[0x70]] <:+ location → after.node location = none := by
  refine ⟨by decide, (deletePath_removes_iff undisturbed (fun _ _ => rfl) [] nestedTree [slash, 0x70] [[0x70]]
    ?_).mpr ⟨?_, by decide⟩⟩
  · refine ⟨by decide, ⟨by decide, by decide⟩, ?_, ?_⟩
    · intro location target _ found
      simpa [nestedNodes] using nestedTree_node found
    · intro names found
      rcases nestedTree_directory found with rfl | rfl
      · decide
      · decide
  · intro name location below found
    obtain ⟨names, rfl⟩ := below
    have here : nestedTree.node ((name :: names) ++ [[0x70]]) = some .directory := found
    rcases nestedTree_directory here with none | nested
    · cases none
    · rw [(List.cons.inj nested).1]
      decide

end Webapp.Files
