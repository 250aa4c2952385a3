import Mathlib
import Webapp.Data.Runs
import Webapp.Databases.Query

namespace Webapp.Databases

open Webapp.Data

/-! The databases of the application, an `unordered_map` from an index to a
`Database`.  A handle is the address of a node of the map; the address of a new
node is the allocator's choice among those that no node has.
-/

/-- A `Database` in the map.  The type of a new one is zero, which is SQLite's. -/
structure Instance where
  dbType : DatabaseType := .sqlite
  dbId : Nat := 0
  sqliteDb : Option Nat := none
  mysqlDb : Option Nat := none
deriving DecidableEq, Repr

/-- `Database::connect` with the connection the library opens, or `NULL`. -/
def Instance.connect (database : Instance) (databaseType : DatabaseType) (opened : Option Nat) : Instance :=
  match databaseType with
  | .sqlite => { database with dbType := .sqlite, sqliteDb := opened }
  | .mysql => { database with dbType := .mysql, mysqlDb := opened }
  | .unknown => { database with dbType := .unknown }

def Instance.destruct (database : Instance) : List (DatabaseType × Nat) :=
  match database.dbType with
  | .sqlite => database.sqliteDb.toList.map fun connection => (.sqlite, connection)
  | .mysql => database.mysqlDb.toList.map fun connection => (.mysql, connection)
  | .unknown => []

structure Node where
  address : Nat
  database : Instance
deriving DecidableEq, Repr

structure Registry where
  databases : Std.ExtTreeMap Nat Node compare
  closed : List (DatabaseType × Nat)

namespace Registry

def find? (registry : Registry) (handle : Nat) : Option (Nat × Node) :=
  registry.databases.toList.find? fun entry => entry.2.address = handle

/-- `emplace` of a default database: an index that is there stays as it is.
An address in use is not an answer of the allocator. -/
def emplace (registry : Registry) (index address : Nat) : Option Registry :=
  match registry.databases[index]? with
  | some _ => some registry
  | none =>
      match registry.find? address with
      | some _ => none
      | none => some { registry with databases := registry.databases.insert index ⟨address, {}⟩ }

def subscript (registry : Registry) (index address : Nat) : Option (Registry × Nat) :=
  (registry.emplace index address).bind fun next =>
    next.databases[index]?.map fun node => (next, node.address)

def databaseCreate (registry : Registry) (address : Nat) : Option (Registry × Nat) :=
  let id := registry.databases.size + 1
  (registry.emplace id address).bind fun next => next.subscript id address

def databaseGet (registry : Registry) (index address : Nat) : Option (Registry × Nat) :=
  registry.subscript index address

/-- `Database_Destroy` erases by the id the database itself holds. -/
def databaseDestroy (registry : Registry) (handle : Nat) : Option Registry :=
  (registry.find? handle).map fun found =>
    let id := found.2.database.dbId
    { databases := registry.databases.erase id
      closed := registry.closed ++ (registry.databases[id]?.map fun node => node.database.destruct).getD [] }

def databaseConnect (registry : Registry) (handle : Nat) (databaseType : DatabaseType) (opened : Option Nat) :
    Option Registry :=
  (registry.find? handle).map fun found =>
    let connected := { found.2 with database := found.2.database.connect databaseType opened }
    { registry with databases := registry.databases.insert found.1 connected }

end Registry

inductive RegistryCall where
  | create (address : Nat)
  | get (index address : Nat)
  | destroy (handle : Nat)
  | connect (handle : Nat) (databaseType : DatabaseType) (opened : Option Nat)

/-- The registry and the handles that were returned and not destroyed since. -/
structure Usage where
  registry : Registry
  held : List Nat

namespace Usage

def start : Usage := ⟨⟨∅, []⟩, []⟩

def step (usage : Usage) : RegistryCall → Option Usage
  | .create address => (usage.registry.databaseCreate address).map fun made => ⟨made.1, made.2 :: usage.held⟩
  | .get index address => (usage.registry.databaseGet index address).map fun got => ⟨got.1, got.2 :: usage.held⟩
  | .destroy handle =>
      (usage.registry.databaseDestroy handle).map fun next => ⟨next, usage.held.filter (· ≠ handle)⟩
  | .connect handle databaseType opened =>
      (usage.registry.databaseConnect handle databaseType opened).map fun next => ⟨next, usage.held⟩

end Usage

namespace Registry

/-- The id is set by no constructor that the map uses, and an address belongs to
one index. -/
structure Sound (registry : Registry) : Prop where
  untagged : ∀ {index : Nat} {node : Node}, registry.databases[index]? = some node → node.database.dbId = 0
  distinct : ∀ {index other : Nat} {node same : Node}, registry.databases[index]? = some node →
    registry.databases[other]? = some same → node.address = same.address → index = other

section

variable {registry next : Registry} {index address handle : Nat} {node : Node}

theorem getElem?_insert (databases : Std.ExtTreeMap Nat Node compare) (index other : Nat) (node : Node) :
    (databases.insert index node)[other]? = if index = other then some node else databases[other]? := by
  rw [Std.ExtTreeMap.getElem?_insert]
  simp only [Std.LawfulEqCmp.compare_eq_iff_eq]

theorem getElem?_erase (databases : Std.ExtTreeMap Nat Node compare) (index other : Nat) :
    (databases.erase index)[other]? = if index = other then none else databases[other]? := by
  rw [Std.ExtTreeMap.getElem?_erase]
  simp only [Std.LawfulEqCmp.compare_eq_iff_eq]

theorem find?_some (found : registry.find? handle = some (index, node)) :
    registry.databases[index]? = some node ∧ node.address = handle := by
  have member := List.mem_of_find?_eq_some found
  have named := List.find?_some found
  exact ⟨Std.ExtTreeMap.mem_toList_iff_getElem?_eq_some.mp member, by simpa using named⟩

theorem find?_none (free : registry.find? handle = none) (stored : registry.databases[index]? = some node) :
    node.address ≠ handle := by
  have absent := List.find?_eq_none.mp free (index, node)
    (Std.ExtTreeMap.mem_toList_iff_getElem?_eq_some.mpr stored)
  simpa using absent

inductive Subscripts (registry : Registry) (index address : Nat) : Registry → Nat → Prop
  | present {node : Node} (stored : registry.databases[index]? = some node) :
      Subscripts registry index address registry node.address
  | inserted (missing : registry.databases[index]? = none)
      (free : ∀ {other : Nat} {node : Node}, registry.databases[other]? = some node → node.address ≠ address) :
      Subscripts registry index address
        { registry with databases := registry.databases.insert index ⟨address, {}⟩ } address

theorem emplace_cases {placed : Registry} (emplaced : registry.emplace index address = some placed) :
    ∃ handle, Subscripts registry index address placed handle ∧
      ∃ node, placed.databases[index]? = some node ∧ node.address = handle := by
  simp only [emplace] at emplaced
  split at emplaced
  · rename_i node stored
    cases emplaced
    exact ⟨_, .present stored, node, stored, rfl⟩
  · rename_i missing
    split at emplaced
    · contradiction
    · rename_i free
      cases emplaced
      refine ⟨address, .inserted missing fun other => find?_none free other, ⟨address, {}⟩, ?_, rfl⟩
      rw [getElem?_insert, if_pos rfl]

theorem subscript_subscripts (returned : registry.subscript index address = some (next, handle)) :
    Subscripts registry index address next handle := by
  obtain ⟨placed, emplaced, returned⟩ := Option.bind_eq_some_iff.mp returned
  obtain ⟨node, stored, same⟩ := Option.map_eq_some_iff.mp returned
  obtain ⟨rfl, rfl⟩ := Prod.mk.inj same
  obtain ⟨_, subscripts, other, found, rfl⟩ := emplace_cases emplaced
  rw [stored] at found
  cases found
  exact subscripts

theorem databaseCreate_subscript (registry : Registry) (address : Nat) :
    registry.databaseCreate address = registry.subscript (registry.databases.size + 1) address := by
  simp only [databaseCreate, subscript]
  cases emplaced : registry.emplace (registry.databases.size + 1) address with
  | none => rfl
  | some placed =>
      obtain ⟨_, _, node, stored, _⟩ := emplace_cases emplaced
      simp [emplace, stored]

inductive Took (usage : Usage) : RegistryCall → Usage → Prop
  | create {address handle : Nat} {next : Registry}
      (made : Subscripts usage.registry (usage.registry.databases.size + 1) address next handle) :
      Took usage (.create address) ⟨next, handle :: usage.held⟩
  | get {index address handle : Nat} {next : Registry}
      (got : Subscripts usage.registry index address next handle) :
      Took usage (.get index address) ⟨next, handle :: usage.held⟩
  | destroy {handle : Nat} {next : Registry} (destroyed : usage.registry.databaseDestroy handle = some next) :
      Took usage (.destroy handle) ⟨next, usage.held.filter (· ≠ handle)⟩
  | connect {handle : Nat} {databaseType : DatabaseType} {opened : Option Nat} {next : Registry}
      (connected : usage.registry.databaseConnect handle databaseType opened = some next) :
      Took usage (.connect handle databaseType opened) ⟨next, usage.held⟩

theorem step_took {usage after : Usage} {call : RegistryCall} (taken : usage.step call = some after) :
    Took usage call after := by
  cases call with
  | create address =>
      obtain ⟨made, created, rfl⟩ := Option.map_eq_some_iff.mp taken
      rw [databaseCreate_subscript] at created
      exact .create (subscript_subscripts created)
  | get index address =>
      obtain ⟨got, returned, rfl⟩ := Option.map_eq_some_iff.mp taken
      exact .get (subscript_subscripts returned)
  | destroy handle =>
      obtain ⟨next, destroyed, rfl⟩ := Option.map_eq_some_iff.mp taken
      exact .destroy destroyed
  | connect handle databaseType opened =>
      obtain ⟨next, connected, rfl⟩ := Option.map_eq_some_iff.mp taken
      exact .connect connected

theorem Sound.start : Sound ⟨∅, []⟩ where
  untagged stored := by simp at stored
  distinct stored := by simp at stored

theorem Sound.subscripts (sound : registry.Sound) (subscripts : Subscripts registry index address next handle) :
    next.Sound := by
  cases subscripts with
  | present stored => exact sound
  | inserted missing free =>
      refine ⟨?_, ?_⟩
      · intro other node stored
        rw [getElem?_insert] at stored
        split at stored
        · cases stored
          rfl
        · exact sound.untagged stored
      · intro first second node same stored found equal
        rw [getElem?_insert] at stored found
        split at stored <;> split at found
        · simp_all
        · cases stored
          exact absurd equal.symm (free found)
        · cases found
          exact absurd equal (free stored)
        · exact sound.distinct stored found equal

theorem Sound.destroy (sound : registry.Sound) (destroyed : registry.databaseDestroy handle = some next) :
    next.Sound := by
  obtain ⟨found, _, rfl⟩ := Option.map_eq_some_iff.mp destroyed
  have kept {other : Nat} {node : Node}
      (stored : (registry.databases.erase found.2.database.dbId)[other]? = some node) :
      registry.databases[other]? = some node := by
    rw [getElem?_erase] at stored
    split at stored
    · contradiction
    · exact stored
  exact ⟨fun stored => sound.untagged (kept stored), fun stored found => sound.distinct (kept stored) (kept found)⟩

theorem Sound.connect (sound : registry.Sound) {databaseType : DatabaseType} {opened : Option Nat}
    (connected : registry.databaseConnect handle databaseType opened = some next) : next.Sound := by
  obtain ⟨⟨index, node⟩, found, rfl⟩ := Option.map_eq_some_iff.mp connected
  obtain ⟨stored, _⟩ := find?_some found
  -- The node keeps its place and its id.
  have before {other : Nat} {after : Node} (stored' : (registry.databases.insert index
      { node with database := node.database.connect databaseType opened })[other]? = some after) :
      ∃ same, registry.databases[other]? = some same ∧ same.address = after.address ∧
        same.database.dbId = after.database.dbId := by
    rw [getElem?_insert] at stored'
    split at stored'
    · rename_i here
      cases stored'
      refine ⟨node, here ▸ stored, rfl, ?_⟩
      cases databaseType <;> rfl
    · exact ⟨after, stored', rfl, rfl⟩
  refine ⟨?_, ?_⟩
  · intro other after stored'
    obtain ⟨same, stored, _, id⟩ := before stored'
    rw [← id]
    exact sound.untagged stored
  · intro first second one two storedOne storedTwo equal
    obtain ⟨same, stored, address, _⟩ := before storedOne
    obtain ⟨twin, found, place, _⟩ := before storedTwo
    exact sound.distinct stored found (address.trans (equal.trans place.symm))

theorem Sound.step {usage after : Usage} {call : RegistryCall} (sound : usage.registry.Sound)
    (taken : usage.step call = some after) : after.registry.Sound := by
  cases step_took taken with
  | create made => exact sound.subscripts made
  | get got => exact sound.subscripts got
  | destroy destroyed => exact sound.destroy destroyed
  | connect connected => exact sound.connect connected

structure Removed (registry next : Registry) (node : Node) : Prop where
  others : ∀ (index : Nat) (other : Node), registry.databases[index]? = some other →
    other.address ≠ node.address → next.databases[index]? = some other
  gone : ∀ (index : Nat) (other : Node), next.databases[index]? = some other → other.address ≠ node.address
  closed : ∀ connection ∈ node.database.destruct, connection ∈ next.closed

theorem find?_address (sound : registry.Sound) (stored : registry.databases[index]? = some node) :
    registry.find? node.address = some (index, node) := by
  cases found : registry.find? node.address with
  | none => exact absurd rfl (find?_none found stored)
  | some entry =>
      obtain ⟨other, same⟩ := entry
      obtain ⟨present, address⟩ := find?_some found
      obtain rfl : other = index := sound.distinct present stored address
      rw [stored] at present
      cases present
      rfl

/-- Every database has the id zero, so that it is the one with that index which
goes. -/
theorem Sound.databaseDestroy_eq (sound : registry.Sound) (stored : registry.databases[index]? = some node) :
    registry.databaseDestroy node.address = some
      { databases := registry.databases.erase 0
        closed := registry.closed ++ (registry.databases[0]?.map fun node => node.database.destruct).getD [] } := by
  rw [databaseDestroy, find?_address sound stored, Option.map_some]
  simp only [sound.untagged stored]

theorem Sound.removed_iff (sound : registry.Sound) (stored : registry.databases[index]? = some node)
    (destroyed : registry.databaseDestroy node.address = some next) : Removed registry next node ↔ index = 0 := by
  rw [sound.databaseDestroy_eq stored] at destroyed
  cases destroyed
  constructor
  · intro removed
    by_contra elsewhere
    have still : (registry.databases.erase 0)[index]? = some node := by
      rw [getElem?_erase, if_neg (Ne.symm elsewhere), stored]
    exact removed.gone index node still rfl
  · intro here
    subst here
    refine ⟨?_, ?_, ?_⟩
    · intro index other found different
      rw [getElem?_erase, if_neg]
      · exact found
      · intro zero
        subst zero
        rw [stored] at found
        cases found
        exact different rfl
    · intro index other found same
      rw [getElem?_erase] at found
      split at found
      · contradiction
      · rename_i nonzero
        exact nonzero (sound.distinct stored found same.symm)
    · intro connection member
      simp [stored, member]

end

end Registry

namespace Usage

/-- A create finds its index free, and a destroy finds no other database than its
own under the index zero. -/
def Orderly (usage : Usage) : RegistryCall → Prop
  | .create _ => usage.registry.databases[usage.registry.databases.size + 1]? = none
  | .destroy handle => ∀ node ∈ usage.registry.databases[0]?, node.address = handle
  | _ => True

instance Orderly.decidable (usage : Usage) : (call : RegistryCall) → Decidable (usage.Orderly call)
  | .create _ => inferInstanceAs (Decidable (usage.registry.databases[usage.registry.databases.size + 1]? = none))
  | .destroy handle => inferInstanceAs (Decidable (∀ node ∈ usage.registry.databases[0]?, node.address = handle))
  | .get _ _ | .connect _ _ _ => isTrue trivial

structure Tracked (usage : Usage) : Prop where
  sound : usage.registry.Sound
  held : ∀ handle ∈ usage.held, ∃ (index : Nat) (node : Node),
    usage.registry.databases[index]? = some node ∧ node.address = handle

section

variable {usage after : Usage} {registry : Registry} {index address handle : Nat}

theorem Tracked.subscripts (tracked : usage.Tracked)
    (subscripts : Registry.Subscripts usage.registry index address registry handle) :
    Tracked ⟨registry, handle :: usage.held⟩ := by
  refine ⟨tracked.sound.subscripts subscripts, ?_⟩
  cases subscripts with
  | present stored => exact List.forall_mem_cons.mpr ⟨⟨index, _, stored, rfl⟩, tracked.held⟩
  | inserted missing free =>
      refine List.forall_mem_cons.mpr ⟨⟨index, ⟨address, {}⟩, ?_, rfl⟩, ?_⟩
      · rw [Registry.getElem?_insert, if_pos rfl]
      · intro other held
        obtain ⟨place, node, stored, same⟩ := tracked.held other held
        refine ⟨place, node, ?_, same⟩
        rw [Registry.getElem?_insert, if_neg]
        · exact stored
        · intro equal
          rw [equal, stored] at missing
          contradiction

theorem Tracked.destroy (tracked : usage.Tracked) (orderly : usage.Orderly (.destroy handle))
    (destroyed : usage.registry.databaseDestroy handle = some registry) :
    Tracked ⟨registry, usage.held.filter (· ≠ handle)⟩ := by
  refine ⟨tracked.sound.destroy destroyed, ?_⟩
  intro other held
  obtain ⟨held, different⟩ := List.mem_filter.mp held
  obtain ⟨place, node, stored, same⟩ := tracked.held other held
  obtain ⟨⟨index, found⟩, present, rfl⟩ := Option.map_eq_some_iff.mp destroyed
  have zero := tracked.sound.untagged (Registry.find?_some present).1
  refine ⟨place, node, ?_, same⟩
  rw [Registry.getElem?_erase, zero, if_neg]
  · exact stored
  · intro here
    have own := orderly node (here ▸ stored)
    simp [← same, own] at different

theorem Tracked.connect (tracked : usage.Tracked) {databaseType : DatabaseType} {opened : Option Nat}
    (connected : usage.registry.databaseConnect handle databaseType opened = some registry) :
    Tracked ⟨registry, usage.held⟩ := by
  refine ⟨tracked.sound.connect connected, ?_⟩
  intro other held
  obtain ⟨place, node, stored, same⟩ := tracked.held other held
  obtain ⟨⟨index, found⟩, present, rfl⟩ := Option.map_eq_some_iff.mp connected
  obtain ⟨atIndex, _⟩ := Registry.find?_some present
  by_cases here : index = place
  · subst here
    rw [stored] at atIndex
    cases atIndex
    refine ⟨index, { node with database := node.database.connect databaseType opened }, ?_, same⟩
    rw [Registry.getElem?_insert, if_pos rfl]
  · refine ⟨place, node, ?_, same⟩
    rw [Registry.getElem?_insert, if_neg here, stored]

theorem Tracked.step {call : RegistryCall} (tracked : usage.Tracked) (orderly : usage.Orderly call)
    (taken : usage.step call = some after) : after.Tracked := by
  cases Registry.step_took taken with
  | create made => exact tracked.subscripts made
  | get got => exact tracked.subscripts got
  | destroy destroyed => exact tracked.destroy orderly destroyed
  | connect connected => exact tracked.connect connected

theorem Tracked.start : Usage.start.Tracked := ⟨.start, fun handle held => by contradiction⟩

end

/-- In an orderly run `Database_Create` returns a handle that nobody holds, of a
database as its constructor leaves it. -/
theorem databaseCreate_new (calls : List RegistryCall) (usage : Usage)
    (orderly : Along step Orderly start calls) (reached : run step start calls = some usage) (address : Nat)
    (free : usage.Orderly (.create address)) (next : Registry) (handle : Nat)
    (created : usage.registry.databaseCreate address = some (next, handle)) :
    handle ∉ usage.held ∧ next.databases[usage.registry.databases.size + 1]? = some ⟨handle, {}⟩ := by
  have tracked : usage.Tracked :=
    run_invariant Tracked.start (fun tracked orderly taken => tracked.step orderly taken) orderly reached
  rw [Registry.databaseCreate_subscript] at created
  cases Registry.subscript_subscripts created with
  | present stored =>
      rw [free] at stored
      contradiction
  | inserted missing unused =>
      refine ⟨?_, ?_⟩
      · intro held
        obtain ⟨index, node, stored, same⟩ := tracked.held address held
        exact unused stored same
      · rw [Registry.getElem?_insert, if_pos rfl]

theorem databaseCreate_new_third :
    ∃ usage next, run step start [.create 10, .get 1 99, .create 20] = some usage ∧
      usage.registry.databaseCreate 30 = some (next, 30) ∧ 30 ∉ usage.held :=
  ⟨_, _, rfl, rfl, (databaseCreate_new [.create 10, .get 1 99, .create 20] _ (by decide) rfl 30 (by decide) _ 30 rfl).1⟩

/-- The index two is taken by a get before the second create asks for it; and a
destroy frees the database under index zero, whose address is used again while
its handle is held. -/
theorem databaseCreate_held :
    (∃ usage next, run step start [.get 2 10] = some usage ∧
      usage.registry.databaseCreate 20 = some (next, 10) ∧ 10 ∈ usage.held) ∧
    ∃ usage next, run step start [.get 0 10, .get 5 20, .destroy 20] = some usage ∧
      usage.registry.databaseCreate 10 = some (next, 10) ∧ 10 ∈ usage.held :=
  ⟨⟨_, _, rfl, rfl, by decide⟩, _, _, rfl, rfl, by decide⟩

/-- `Database_Destroy` removes its argument, and nothing else, exactly if that is
the database with the index zero. -/
theorem databaseDestroy_exact_iff (calls : List RegistryCall) (usage : Usage)
    (reached : run step start calls = some usage) (index : Nat) (node : Node)
    (stored : usage.registry.databases[index]? = some node) :
    ∃ next, usage.registry.databaseDestroy node.address = some next ∧
      (Registry.Removed usage.registry next node ↔ index = 0) := by
  have sound : usage.registry.Sound :=
    @run_preserves _ _ step (fun usage => usage.registry.Sound) start usage calls Registry.Sound.start
      (fun sound taken => sound.step taken) reached
  have destroyed := sound.databaseDestroy_eq stored
  exact ⟨_, destroyed, sound.removed_iff stored destroyed⟩

theorem databaseDestroy_exact_zero :
    ∃ usage next node, run step start [.get 0 10, .create 20] = some usage ∧
      usage.registry.databaseDestroy 10 = some next ∧ Registry.Removed usage.registry next node := by
  obtain ⟨next, destroyed, exactly⟩ := databaseDestroy_exact_iff [.get 0 10, .create 20] _ rfl 0 ⟨10, {}⟩ rfl
  exact ⟨_, next, _, rfl, destroyed, exactly.mpr rfl⟩

/-- The first database that is created stays when it is destroyed, with its
connection open, and another one goes in its place. -/
theorem databaseDestroy_leaves :
    ∃ usage next, run step start [.create 10, .connect 10 .sqlite (some 1), .get 0 20] = some usage ∧
      usage.registry.databaseDestroy 10 = some next ∧ next.databases[1]? = some ⟨10, ⟨.sqlite, 0, some 1, none⟩⟩ ∧
      next.closed = [] ∧ next.databases[0]? = none ∧
      ¬ Registry.Removed usage.registry next ⟨10, ⟨.sqlite, 0, some 1, none⟩⟩ := by
  refine ⟨_, _, rfl, rfl, rfl, rfl, rfl, ?_⟩
  intro removed
  exact removed.gone 1 _ rfl rfl

end Usage

end Webapp.Databases
