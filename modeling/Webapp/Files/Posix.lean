import Mathlib

namespace Webapp.Files

/-! Paths and a file system with symbolic links.  A location is the list of names that
leads to it from the root, the last one first.
-/

abbrev Name := List UInt8

abbrev Location := List Name

def slash : UInt8 := 0x2f

def dot : UInt8 := 0x2e

def nameMax : Nat := 255

def pathMax : Nat := 4096

/-- The links that are followed for one path. -/
def linkMax : Nat := 40

/-- A component that is not empty, "." or "..". -/
def Proper (name : Name) : Prop := name ≠ [] ∧ name ≠ [dot] ∧ name ≠ [dot, dot]

instance (name : Name) : Decidable (Proper name) := inferInstanceAs (Decidable (_ ∧ _))

/-- Where a component leads.  The parent of the root is the root. -/
def move (location : Location) (name : Name) : Location :=
  if Proper name then name :: location
  else if name = [dot, dot] then location.tail
  else location

theorem move_proper {location : Location} {name : Name} (proper : Proper name) :
    move location name = name :: location := if_pos proper

theorem move_improper (location : Location) {name : Name} (improper : ¬ Proper name) :
    move location name = location ∨ move location name = location.tail := by
  rw [move, if_neg improper]
  split
  · exact Or.inr rfl
  · exact Or.inl rfl

theorem head_of_improper {name : Name} (improper : name = [dot] ∨ name = [dot, dot]) : name.head? = some dot := by
  rcases improper with one | two
  · rw [one]
    rfl
  · rw [two]
    rfl

/-- What stands between the slashes, with the bytes of the first piece that were read. -/
def pieces : Name → List UInt8 → List Name
  | name, [] => [name]
  | name, byte :: bytes => if byte = slash then name :: pieces [] bytes else pieces (name ++ [byte]) bytes

def join (path : List UInt8) (name : Name) : List UInt8 := path ++ slash :: name

def components (path : List UInt8) : List Name := (pieces [] path).filter fun name => name ≠ []

theorem pieces_append (name : Name) (first second : List UInt8) :
    pieces name (first ++ slash :: second) = pieces name first ++ pieces [] second := by
  induction first generalizing name with
  | nil => simp [pieces]
  | cons byte first ih =>
      rw [List.cons_append, pieces, pieces]
      split
      · rw [ih, List.cons_append]
      · exact ih _

theorem pieces_name (first : Name) {name : Name} (whole : slash ∉ name) : pieces first name = [first ++ name] := by
  induction name generalizing first with
  | nil => simp [pieces]
  | cons byte name ih =>
      have other : byte ≠ slash := fun same => whole (same ▸ List.mem_cons_self)
      rw [pieces, if_neg other, ih _ fun member => whole (List.mem_cons_of_mem _ member)]
      simp

theorem components_join (path : List UInt8) {name : Name} (whole : slash ∉ name) (nonempty : name ≠ []) :
    components (join path name) = components path ++ [name] := by
  rw [components, join, pieces_append, pieces_name [] whole, List.filter_append, components]
  simp [nonempty]

inductive Node where
  | file (contents : List UInt8)
  | directory
  | link (target : List UInt8)
deriving DecidableEq, Repr

abbrev Nodes := Location → Option Node

def start (cwd : Location) (path : List UInt8) : Location :=
  if path.head? = some slash then [] else cwd

/-- The names that a link stands for.  A slash at the end asks for a directory. -/
def linkNames (target : List UInt8) : List Name :=
  components target ++ if target.getLast? = some slash then [[dot]] else []

section

variable (nodes : Nodes)

def walkWith (follow : Location → List Name → Option Location) : Location → List Name → Option Location
  | location, [] => some location
  | location, name :: rest =>
      if nodes location = some .directory then
        if Proper name then
          match nodes (name :: location) with
          | none => none
          | some (.link target) => follow (start location target) (linkNames target ++ rest)
          | some _ => walkWith follow (name :: location) rest
        else walkWith follow (move location name) rest
      else none

/-- Follows the components of a path, and as many links as are allowed. -/
def walk : Nat → Location → List Name → Option Location
  | 0 => walkWith nodes fun _ _ => none
  | links + 1 => walkWith nodes (walk links)

/-- Where a path leads when every link is followed. -/
def resolve (cwd : Location) (path : List UInt8) : Option Location :=
  walk nodes linkMax (start cwd path) (components path)

def Opens (cwd : Location) (path : List UInt8) (location : Location) : Prop :=
  resolve nodes cwd path = some location ∧ nodes location = some .directory

/-- The directory entry that `unlink` and `rmdir` act on: the last component is not followed. -/
def entry (cwd : Location) (path : List UInt8) : Option Location :=
  (components path).getLast?.bind fun name =>
    if Proper name then
      ((walk nodes linkMax (start cwd path) (components path).dropLast).filter fun parent =>
        nodes parent = some .directory).map fun parent => name :: parent
    else none

/-- One clause for each way that a component is taken. -/
inductive Leads : Nat → Location → List Name → Location → Prop
  | stop {links : Nat} {location : Location} : Leads links location [] location
  | relative {links : Nat} {location final : Location} {name : Name} {rest : List Name}
      (directory : nodes location = some .directory) (improper : ¬ Proper name)
      (after : Leads links (move location name) rest final) : Leads links location (name :: rest) final
  | enter {links : Nat} {location final : Location} {name : Name} {rest : List Name} {node : Node}
      (directory : nodes location = some .directory) (proper : Proper name)
      (found : nodes (name :: location) = some node) (real : ∀ target, node ≠ .link target)
      (after : Leads links (name :: location) rest final) : Leads links location (name :: rest) final
  | follow {links : Nat} {location final : Location} {name : Name} {rest : List Name} {target : List UInt8}
      (directory : nodes location = some .directory) (proper : Proper name)
      (found : nodes (name :: location) = some (.link target))
      (after : Leads links (start location target) (linkNames target ++ rest) final) :
      Leads (links + 1) location (name :: rest) final

end

section

variable {nodes more : Nodes} {links : Nat} {location final : Location} {names : List Name} {name : Name}

theorem walkWith_leads {follow : Location → List Name → Option Location}
    (linked : ∀ location name names target, nodes location = some .directory → Proper name →
      nodes (name :: location) = some (.link target) →
      follow (start location target) (linkNames target ++ names) = some final →
      Leads nodes links location (name :: names) final)
    (walked : walkWith nodes follow location names = some final) : Leads nodes links location names final := by
  induction names generalizing location with
  | nil =>
      cases walked
      exact .stop
  | cons name rest ih =>
      rw [walkWith] at walked
      split at walked
      next directory =>
        split at walked
        next proper =>
          split at walked
          next => contradiction
          next target found => exact linked location name rest target directory proper found walked
          next node real found => exact .enter directory proper found (fun target same => real target same) (ih walked)
        next improper => exact .relative directory improper (ih walked)
      next => contradiction

theorem walk_leads (walked : walk nodes links location names = some final) :
    Leads nodes links location names final := by
  induction links generalizing location names with
  | zero =>
      rw [walk] at walked
      exact walkWith_leads (by simp) walked
  | succ links ih =>
      rw [walk] at walked
      refine walkWith_leads ?_ walked
      intro location name names target directory proper found followed
      exact .follow directory proper found (ih followed)

theorem Leads.walks (leads : Leads nodes links location names final) : walk nodes links location names = some final := by
  induction leads with
  | @stop links => cases links <;> rfl
  | @relative links _ _ _ _ directory improper _ ih =>
      cases links <;> simpa [walk, walkWith, directory, improper] using ih
  | @enter links _ _ _ _ node directory proper found real _ ih =>
      cases node with
      | link target => exact absurd rfl (real target)
      | file contents => cases links <;> simpa [walk, walkWith, directory, proper, found] using ih
      | directory => cases links <;> simpa [walk, walkWith, directory, proper, found] using ih
  | follow directory proper found _ ih => simpa [walk, walkWith, directory, proper, found] using ih

theorem Leads.mono (kept : ∀ location node, nodes location = some node → more location = some node)
    (leads : Leads nodes links location names final) : Leads more links location names final := by
  induction leads with
  | stop => exact .stop
  | relative directory improper _ ih => exact .relative (kept _ _ directory) improper ih
  | enter directory proper found real _ ih => exact .enter (kept _ _ directory) proper (kept _ _ found) real ih
  | follow directory proper found _ ih => exact .follow (kept _ _ directory) proper (kept _ _ found) ih

theorem Leads.snoc {node : Node} (leads : Leads nodes links location names final)
    (directory : nodes final = some .directory) (proper : Proper name) (found : nodes (name :: final) = some node)
    (real : ∀ target, node ≠ .link target) : Leads nodes links location (names ++ [name]) (name :: final) := by
  induction leads with
  | stop => exact .enter directory proper found real .stop
  | relative within improper _ ih => exact .relative within improper (ih directory found)
  | enter within properThere foundThere realThere _ ih =>
      exact .enter within properThere foundThere realThere (ih directory found)
  | follow within properThere foundThere _ ih =>
      have after := ih directory found
      rw [List.append_assoc] at after
      exact .follow within properThere foundThere after

theorem Leads.unsnoc (leads : Leads nodes links location (names ++ [name]) final) :
    ∃ parent, Leads nodes links location names parent ∧ nodes parent = some .directory ∧
      (Proper name → ∃ node, nodes (name :: parent) = some node ∧
        ((∀ target, node ≠ .link target) → final = name :: parent)) := by
  generalize whole : names ++ [name] = all at leads
  induction leads generalizing names with
  | stop => exact absurd whole (by simp)
  | @relative links location final first rest directory improper after ih =>
      cases names with
      | nil =>
          obtain ⟨same, _⟩ := List.cons.inj whole
          exact ⟨location, .stop, directory, fun proper => absurd (same ▸ proper) improper⟩
      | cons head names =>
          obtain ⟨same, others⟩ := List.cons.inj whole
          obtain ⟨parent, before, inside, last⟩ := ih others
          exact ⟨parent, .relative directory (same ▸ improper) (same ▸ before), inside, last⟩
  | @enter links location final first rest node directory proper found real after ih =>
      cases names with
      | nil =>
          obtain ⟨same, ended⟩ := List.cons.inj whole
          subst same ended
          refine ⟨location, .stop, directory, fun _ => ⟨node, found, fun _ => ?_⟩⟩
          cases after
          rfl
      | cons head names =>
          obtain ⟨same, others⟩ := List.cons.inj whole
          subst same
          obtain ⟨parent, before, inside, last⟩ := ih others
          exact ⟨parent, .enter directory proper found real before, inside, last⟩
  | @follow links location final first rest target directory proper found after ih =>
      cases names with
      | nil =>
          obtain ⟨same, _⟩ := List.cons.inj whole
          subst same
          exact ⟨location, .stop, directory, fun _ => ⟨_, found, fun real => absurd rfl (real target)⟩⟩
      | cons head names =>
          obtain ⟨same, others⟩ := List.cons.inj whole
          subst same
          -- What the link stands for comes before the rest, so the last name stays last.
          have split : (linkNames target ++ names) ++ [name] = linkNames target ++ rest := by
            rw [← others, List.append_assoc]
            rfl
          obtain ⟨parent, before, inside, last⟩ := ih split
          exact ⟨parent, .follow directory proper found before, inside, last⟩

variable {cwd : Location} {path : List UInt8}

theorem start_join (nonempty : path ≠ []) : start cwd (join path name) = start cwd path := by
  cases path with
  | nil => exact absurd rfl nonempty
  | cons byte path => rfl

theorem resolve_mono (kept : ∀ location node, nodes location = some node → more location = some node)
    (resolved : resolve nodes cwd path = some location) : resolve more cwd path = some location :=
  ((walk_leads resolved).mono kept).walks

theorem Opens.mono (kept : ∀ location node, nodes location = some node → more location = some node)
    (opens : Opens nodes cwd path location) : Opens more cwd path location :=
  ⟨resolve_mono kept opens.1, kept _ _ opens.2⟩

theorem Opens.eq {other : Location} (opens : Opens nodes cwd path location) (there : Opens nodes cwd path other) :
    location = other :=
  Option.some.inj (opens.1.symm.trans there.1)

/-- An entry that is not a link is where its path leads. -/
theorem Opens.join {node : Node} (opens : Opens nodes cwd path location) (nonempty : path ≠ []) (whole : slash ∉ name)
    (proper : Proper name) (found : nodes (name :: location) = some node) (real : ∀ target, node ≠ .link target) :
    resolve nodes cwd (join path name) = some (name :: location) := by
  rw [resolve, components_join path whole proper.1, start_join nonempty]
  exact ((walk_leads opens.1).snoc opens.2 proper found real).walks

theorem resolve_of_join (nonempty : path ≠ []) (whole : slash ∉ name) (proper : Proper name)
    (resolved : resolve nodes cwd (join path name) = some location) :
    ∃ parent node, Opens nodes cwd path parent ∧ nodes (name :: parent) = some node ∧
      ((∀ target, node ≠ .link target) → location = name :: parent) := by
  rw [resolve, components_join path whole proper.1, start_join nonempty] at resolved
  obtain ⟨parent, before, directory, last⟩ := (walk_leads resolved).unsnoc
  obtain ⟨node, found, same⟩ := last proper
  exact ⟨parent, node, ⟨before.walks, directory⟩, found, same⟩

theorem entry_eq_some_iff : entry nodes cwd path = some location ↔ ∃ names name parent,
    components path = names ++ [name] ∧ Proper name ∧ walk nodes linkMax (start cwd path) names = some parent ∧
      nodes parent = some .directory ∧ location = name :: parent := by
  rw [entry, Option.bind_eq_some_iff]
  constructor
  · intro found
    obtain ⟨name, last, found⟩ := found
    split at found
    next proper =>
      obtain ⟨parent, kept, same⟩ := Option.map_eq_some_iff.mp found
      obtain ⟨walked, directory⟩ := Option.filter_eq_some_iff.mp kept
      exact ⟨_, name, parent, (List.dropLast_append_getLast? name last).symm, proper, walked,
        of_decide_eq_true directory, same.symm⟩
    next => contradiction
  · intro found
    obtain ⟨names, name, parent, split, proper, walked, directory, same⟩ := found
    refine ⟨name, by rw [split, List.getLast?_concat], ?_⟩
    rw [if_pos proper, split, List.dropLast_concat, walked, same]
    simp [Option.filter, directory]

theorem entry_mono (kept : ∀ location node, nodes location = some node → more location = some node)
    (found : entry nodes cwd path = some location) : entry more cwd path = some location := by
  obtain ⟨names, name, parent, split, proper, walked, directory, same⟩ := entry_eq_some_iff.mp found
  exact entry_eq_some_iff.mpr
    ⟨names, name, parent, split, proper, ((walk_leads walked).mono kept).walks, kept _ _ directory, same⟩

theorem entry_join (nonempty : path ≠ []) (whole : slash ∉ name) (proper : Proper name) :
    entry nodes cwd (join path name) = some location ↔
      ∃ parent, Opens nodes cwd path parent ∧ location = name :: parent := by
  rw [entry_eq_some_iff, components_join path whole proper.1, start_join nonempty]
  constructor
  · intro found
    obtain ⟨names, last, parent, split, _, walked, directory, same⟩ := found
    obtain ⟨before, final⟩ := List.append_inj' split rfl
    obtain ⟨last_, _⟩ := List.cons.inj final
    subst before last_
    exact ⟨parent, ⟨walked, directory⟩, same⟩
  · intro found
    obtain ⟨parent, opens, same⟩ := found
    exact ⟨components path, name, parent, rfl, proper, opens.1, opens.2, same⟩

theorem resolve_of_entry {node : Node} (found : entry nodes cwd path = some location)
    (there : nodes location = some node) (real : ∀ target, node ≠ .link target) :
    resolve nodes cwd path = some location := by
  obtain ⟨names, name, parent, split, proper, walked, directory, same⟩ := entry_eq_some_iff.mp found
  subst same
  rw [resolve, split]
  exact ((walk_leads walked).snoc directory proper there real).walks

end

/-- What is below a place is the place or below one of its entries. -/
theorem suffix_cases {top location : Location} (below : top <:+ location) :
    location = top ∨ ∃ name, name :: top <:+ location := by
  obtain ⟨names, same⟩ := below
  rcases List.eq_nil_or_concat names with none_ | some_
  · rw [none_] at same
    exact Or.inl same.symm
  · obtain ⟨front, name, split⟩ := some_
    refine Or.inr ⟨name, front, ?_⟩
    rw [← same, split]
    simp

theorem not_cons_suffix (name : Name) (top : Location) : ¬ name :: top <:+ top := by
  intro below
  have := below.length_le
  rw [List.length_cons] at this
  omega

theorem cons_suffix_unique {first second : Name} {top location : Location} (below : first :: top <:+ location)
    (also : second :: top <:+ location) : first = second := by
  have within := List.suffix_of_suffix_length_le below also (by simp)
  exact (List.cons.inj (within.eq_of_length (by simp))).1

/-- Every node but the root has a directory above it. -/
structure Fs where
  table : AList fun _ : Location => Node
  root : table.lookup [] = some .directory
  parent : ∀ location ∈ table.keys, table.lookup location.tail = some .directory
  proper : ∀ location ∈ table.keys, ∀ name ∈ location, (Proper name ∧ slash ∉ name) ∧ name.length ≤ nameMax

namespace Fs

variable (fs : Fs)

def node : Nodes := fun location => fs.table.lookup location

def names (location : Location) : List Name :=
  fs.table.keys.filterMap fun key =>
    match key with
    | [] => none
    | name :: parent => if parent = location then some name else none

/-- What `readdir` gives, in some order. -/
def entries (location : Location) : List Name := [dot] :: [dot, dot] :: fs.names location

theorem mem_table {location : Location} : location ∈ fs.table ↔ fs.node location ≠ none :=
  AList.lookup_isSome.symm.trans Option.isSome_iff_ne_none

theorem mem_names {location : Location} {name : Name} : name ∈ fs.names location ↔ fs.node (name :: location) ≠ none := by
  rw [← mem_table, names, List.mem_filterMap, AList.mem_keys]
  constructor
  · intro found
    obtain ⟨key, member, same⟩ := found
    match key, same with
    | first :: parent, same =>
        obtain ⟨above, here⟩ := Option.ite_none_right_eq_some.mp same
        obtain rfl := Option.some.inj here
        obtain rfl := above
        exact member
  · intro member
    exact ⟨name :: location, member, if_pos rfl⟩

theorem mem_entries {location : Location} {name : Name} :
    name ∈ fs.entries location ↔ (name = [dot] ∨ name = [dot, dot]) ∨ name ∈ fs.names location := by
  rw [entries, List.mem_cons, List.mem_cons, or_assoc]

theorem parent_directory {location : Location} {name : Name} (present : fs.node (name :: location) ≠ none) :
    fs.node location = some .directory :=
  fs.parent (name :: location) (AList.mem_keys.mp (fs.mem_table.mpr present))

theorem name_valid {location : Location} {name : Name} (listed : name ∈ fs.names location) :
    (Proper name ∧ slash ∉ name) ∧ name.length ≤ nameMax :=
  fs.proper (name :: location) (AList.mem_keys.mp (fs.mem_table.mpr (fs.mem_names.mp listed))) name List.mem_cons_self

theorem listed_of_node {location : Location} {name : Name} {node : Node} (found : fs.node (name :: location) = some node) :
    name ∈ fs.names location :=
  fs.mem_names.mpr (found ▸ Option.some_ne_none node)

theorem ancestor_directory {location : Location} {names : List Name} (below : names ≠ [])
    (present : fs.node (names ++ location) ≠ none) : fs.node location = some .directory := by
  induction names with
  | nil => exact absurd rfl below
  | cons name names ih =>
      have directory : fs.node (names ++ location) = some .directory := fs.parent_directory present
      by_cases last : names = []
      · rw [last] at directory
        exact directory
      · refine ih last ?_
        rw [directory]
        exact Option.some_ne_none _

theorem below_missing {location below : Location} (missing : fs.node location = none) (through : location <:+ below) :
    fs.node below = none := by
  obtain ⟨names, same⟩ := through
  by_contra present
  by_cases here : names = []
  · rw [here] at same
    exact present (same ▸ missing)
  · rw [← same] at present
    rw [fs.ancestor_directory here present] at missing
    exact absurd missing (Option.some_ne_none _)

theorem names_nodup (location : Location) : (fs.names location).Nodup := by
  refine List.Nodup.filterMap ?_ fs.table.keys_nodup
  intro first second name inFirst inSecond
  match first, second, inFirst, inSecond with
  | one :: above, two :: other, inFirst, inSecond =>
      obtain ⟨here, same⟩ := Option.ite_none_right_eq_some.mp inFirst
      obtain ⟨there, also⟩ := Option.ite_none_right_eq_some.mp inSecond
      rw [here, there, Option.some.inj same, Option.some.inj also]

theorem entries_valid {location : Location} {name : Name} (listed : name ∈ fs.entries location) :
    slash ∉ name ∧ name.length ≤ nameMax := by
  rcases fs.mem_entries.mp listed with improper | listed
  · rcases improper with one | two
    · rw [one]
      decide
    · rw [two]
      decide
  · have valid := fs.name_valid listed
    exact ⟨valid.1.2, valid.2⟩

theorem mem_names_of_entries {location : Location} {name : Name} (listed : name ∈ fs.entries location)
    (notDot : name.head? ≠ some dot) : name ∈ fs.names location := by
  refine (fs.mem_entries.mp listed).resolve_left fun improper => notDot ?_
  exact head_of_improper improper

theorem entries_nodup (location : Location) : (fs.entries location).Nodup := by
  have improper : ∀ name, ¬ Proper name → name ∉ fs.names location := fun name improper listed =>
    improper (fs.name_valid listed).1.1
  refine List.nodup_cons.mpr ⟨?_, List.nodup_cons.mpr ⟨improper _ (by decide), fs.names_nodup location⟩⟩
  rw [List.mem_cons, not_or]
  exact ⟨by decide, improper _ (by decide)⟩

def remove (location : Location) (notRoot : location ≠ []) (empty : fs.names location = []) : Fs where
  table := fs.table.erase location
  root := by
    rw [AList.lookup_erase_ne notRoot.symm]
    exact fs.root
  parent := by
    intro key member
    rw [← AList.mem_keys, AList.mem_erase] at member
    have different : key.tail ≠ location := by
      intro same
      cases key with
      | nil => exact notRoot same.symm
      | cons name above =>
          have listed := fs.mem_names.mpr (fs.mem_table.mp member.2)
          rw [show above = location from same, empty] at listed
          contradiction
    rw [AList.lookup_erase_ne different]
    exact fs.parent key (AList.mem_keys.mp member.2)
  proper key member := fs.proper key (AList.mem_keys.mp (AList.mem_erase.mp (AList.mem_keys.mpr member)).2)

theorem remove_node (location other : Location) (notRoot : location ≠ []) (empty : fs.names location = []) :
    (fs.remove location notRoot empty).node other = if other = location then none else fs.node other := by
  split
  next same =>
    rw [same]
    exact AList.lookup_erase location fs.table
  next different => exact AList.lookup_erase_ne different

/-- Removes the entry that a path names if its node is as it is asked for and nothing
is below it. -/
def removeEntry (cwd : Location) (path : List UInt8) (removable : Option Node → Bool) : Fs :=
  match entry fs.node cwd path with
  | some (name :: parent) =>
      if removes : removable (fs.node (name :: parent)) ∧ fs.names (name :: parent) = [] then
        fs.remove (name :: parent) (List.cons_ne_nil name parent) removes.2
      else fs
  | _ => fs

def unlink (cwd : Location) (path : List UInt8) : Fs := fs.removeEntry cwd path fun node => node ≠ some .directory

def rmdir (cwd : Location) (path : List UInt8) : Fs := fs.removeEntry cwd path fun node => node = some .directory

theorem removeEntry_node (cwd : Location) (path : List UInt8) (removable : Option Node → Bool) (location : Location) :
    (fs.removeEntry cwd path removable).node location =
      if entry fs.node cwd path = some location ∧ removable (fs.node location) ∧ fs.names location = [] then none
      else fs.node location := by
  rw [removeEntry]
  split
  next name parent found =>
    split
    next removes =>
      simp only [remove_node, found, Option.some.injEq]
      by_cases same : location = name :: parent
      · rw [if_pos same, if_pos ⟨same.symm, same ▸ removes⟩]
      · rw [if_neg same, if_neg fun both => same both.1.symm]
    next stays =>
      rw [if_neg]
      intro both
      obtain rfl := Option.some.inj (found.symm.trans both.1)
      exact stays both.2
  next other =>
    rw [if_neg]
    intro both
    obtain ⟨_, name, parent, _, _, _, _, same⟩ := entry_eq_some_iff.mp both.1
    exact other name parent (both.1.trans (congrArg some same))

theorem names_of_not_directory {location : Location} (other : fs.node location ≠ some .directory) :
    fs.names location = [] := by
  refine List.eq_nil_iff_forall_not_mem.mpr fun name listed => other ?_
  exact fs.parent_directory (fs.mem_names.mp listed)

theorem unlink_node (cwd : Location) (path : List UInt8) (location : Location) :
    (fs.unlink cwd path).node location =
      if entry fs.node cwd path = some location ∧ fs.node location ≠ some .directory then none
      else fs.node location := by
  rw [unlink, removeEntry_node]
  refine if_congr (and_congr_right fun _ => ?_) rfl rfl
  rw [decide_eq_true_eq]
  exact ⟨And.left, fun other => ⟨other, fs.names_of_not_directory other⟩⟩

theorem rmdir_node (cwd : Location) (path : List UInt8) (location : Location) :
    (fs.rmdir cwd path).node location =
      if entry fs.node cwd path = some location ∧ fs.node location = some .directory ∧ fs.names location = [] then none
      else fs.node location := by
  simp only [rmdir, removeEntry_node, decide_eq_true_eq]

end Fs

end Webapp.Files
