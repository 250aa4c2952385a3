import Mathlib
import Webapp.Files.DeletePath

namespace Webapp.Files

open Webapp.Data

/-! What `FileSystem::DeletePath` does outside the tree that it is given: an entry is
classified by `stat`, so that links are followed.
-/

/-- At or below the place that the path really leads to. -/
def Inside (fs : Fs) (cwd : Location) (path : List UInt8) (location : Location) : Prop :=
  ∃ top, resolve fs.node cwd path = some top ∧ top <:+ location

/-- The paths that the recursion can be called with. -/
inductive Reached (fs : Fs) (cwd : Location) (path : List UInt8) : List UInt8 → Prop
  | top : Reached fs cwd path path
  | entry {visited : List UInt8} {location : Location} {name : Name} (before : Reached fs cwd path visited)
      (opens : Opens fs.node cwd visited location) (listed : name ∈ fs.names location)
      (notDot : name.head? ≠ some dot) : Reached fs cwd path (join visited name)

/-- Of the directories that are reached, those outside hold only directories, of which
those that are entered are not empty. -/
structure Confined (fs : Fs) (cwd : Location) (path : List UInt8) : Prop where
  nonempty : path ≠ []
  short : path.length < pathMax
  fits : ∀ visited location, Reached fs cwd path visited → Opens fs.node cwd visited location →
    ∀ name ∈ fs.entries location, visited.length + name.length + 1 < pathMax
  outside : ∀ visited location, Reached fs cwd path visited → Opens fs.node cwd visited location →
    ¬ Inside fs cwd path location → ∀ name ∈ fs.names location, fs.node (name :: location) = some .directory ∧
      (name.head? ≠ some dot → ¬ Inside fs cwd path (name :: location) → fs.names (name :: location) ≠ [])

section

variable {env : Environment} {cwd : Location} {fs now : Fs} {path visited : List UInt8} {location : Location} {name : Name}

theorem Inside.cons (inside : Inside fs cwd path location) (name : Name) : Inside fs cwd path (name :: location) := by
  obtain ⟨top, resolved, below⟩ := inside
  exact ⟨top, resolved, below.trans (List.suffix_cons name location)⟩

theorem Inside.top (inside : Inside fs cwd path (name :: location)) (outside : ¬ Inside fs cwd path location) :
    resolve fs.node cwd path = some (name :: location) := by
  obtain ⟨top, resolved, below⟩ := inside
  rcases List.suffix_cons_iff.mp below with same | above
  · rw [resolved, same]
  · exact absurd ⟨top, resolved, above⟩ outside

structure Spares (fs : Fs) (cwd : Location) (path : List UInt8) (now : Fs) : Prop where
  shrinks : fs.Shrinks now
  same : ∀ location, ¬ Inside fs cwd path location → now.node location = fs.node location

theorem Fs.Shrinks.listing (shrinks : fs.Shrinks now) (listed : name ∈ env.listing cwd now path) :
    ∃ location, Opens fs.node cwd path location ∧ name ∈ fs.entries location := by
  obtain ⟨location, opens, member⟩ := mem_listing listed
  exact ⟨location, opens.mono shrinks, shrinks.entries member⟩

theorem Reached.nonempty (reached : Reached fs cwd path visited) (nonempty : path ≠ []) : visited ≠ [] := by
  cases reached with
  | top => exact nonempty
  | entry => exact fun empty => absurd (List.append_eq_nil_iff.mp empty).2 (List.cons_ne_nil _ _)

theorem Confined.bounds (confined : Confined fs cwd path) (reached : Reached fs cwd path visited) :
    visited ≠ [] ∧ visited.length < pathMax := by
  refine ⟨reached.nonempty confined.nonempty, ?_⟩
  cases reached with
  | top => exact confined.short
  | entry before opens listed _ =>
      have fits := confined.fits _ _ before opens _ (fs.mem_entries.mpr (Or.inr listed))
      rw [join, List.length_append, List.length_cons]
      omega

theorem Spares.unlink (confined : Confined fs cwd path) (reached : Reached fs cwd path visited)
    (opens : Opens fs.node cwd visited location) (listed : name ∈ fs.entries location)
    (spares : Spares fs cwd path now) : Spares fs cwd path (env.unlink cwd now (join visited name)) := by
  refine ⟨spares.shrinks.unlink, ?_⟩
  intro other outside
  rcases Environment.unlink_node other with same | removed
  · exact same.trans (spares.same other outside)
  · obtain ⟨_, found, notDirectory⟩ := removed
    refine absurd ?_ notDirectory
    rcases fs.mem_entries.mp listed with improper | listed
    · exact absurd found (entry_improper improper other now.node)
    · have named := (fs.name_valid listed).1
      obtain ⟨parent, opensNow, same⟩ :=
        (entry_join (reached.nonempty confined.nonempty) named.2 named.1).mp found
      have parent_ : parent = location := (opensNow.mono spares.shrinks).eq opens
      rw [parent_] at same
      rw [same] at outside ⊢
      rw [spares.same _ outside]
      exact (confined.outside visited location reached opens (fun inside => outside (inside.cons name)) name listed).1

/-- A path that is reached goes through the place that the recursion began at. -/
theorem Reached.passes (reached : Reached fs cwd path visited) (nonempty : path ≠ [])
    (opens : Opens now.node cwd visited location) : ∃ top, Opens now.node cwd path top := by
  induction reached generalizing location with
  | top => exact ⟨location, opens⟩
  | entry before opensThere listed notDot ih =>
      have named := (fs.name_valid listed).1
      obtain ⟨parent, _, opensBefore, _⟩ := resolve_of_join (before.nonempty nonempty) named.2 named.1 opens.1
      exact ih opensBefore

theorem Spares.rmdir (confined : Confined fs cwd path) (reached : Reached fs cwd path visited)
    (spares : Spares fs cwd path now) : Spares fs cwd path (env.rmdir cwd now visited) := by
  refine ⟨spares.shrinks.rmdir, ?_⟩
  intro other outside
  rcases Environment.rmdir_node other with same | removed
  · exact same.trans (spares.same other outside)
  · obtain ⟨_, found, directory, empty⟩ := removed
    cases reached with
    | top =>
        have resolved := resolve_of_entry found directory (by simp)
        exact absurd ⟨other, resolve_mono spares.shrinks resolved, List.suffix_rfl⟩ outside
    | @entry visited location name before opens listed notDot =>
        have named := (fs.name_valid listed).1
        obtain ⟨parent, opensNow, same⟩ := (entry_join (before.nonempty confined.nonempty) named.2 named.1).mp found
        have parent_ : parent = location := (opensNow.mono spares.shrinks).eq opens
        rw [parent_] at same
        subst same
        -- Its entry stands: it is outside too, or it is the place that every path goes through.
        have full := (confined.outside visited location before opens (fun inside => outside (inside.cons name)) name
          listed).2 notDot outside
        obtain ⟨child, childListed⟩ := List.exists_mem_of_ne_nil _ full
        refine absurd (now.mem_names.mpr ?_) (empty ▸ List.not_mem_nil : child ∉ now.names (name :: location))
        by_cases inside : Inside fs cwd path (child :: name :: location)
        · obtain ⟨top, opensTop⟩ := before.passes confined.nonempty opensNow
          have here := Option.some.inj ((resolve_mono spares.shrinks opensTop.1).symm.trans (inside.top outside))
          rw [← here, opensTop.2]
          exact Option.some_ne_none _
        · rw [spares.same _ inside]
          exact fs.mem_names.mp childListed

theorem Confined.spares (confined : Confined fs cwd path) (env : Environment) :
    ∃ after, env.deletePath cwd fs path = some after ∧ Spares fs cwd path after := by
  have deletes : Deletes env cwd (Reached fs cwd path) (Spares fs cwd path) False := by
    refine ⟨?_, ?_, ?_, ?_, ?_⟩
    · intro visited reached bad
      have bounds := confined.bounds reached
      exact bad.elim bounds.1 fun long => absurd bounds.2 (by omega)
    · intro before visited name reached spares listed tooLong
      obtain ⟨location, opens, member⟩ := spares.shrinks.listing listed
      exact not_tooLong member (confined.fits visited location reached opens name member) tooLong
    · intro before visited name reached _ spares listed notDot _
      obtain ⟨location, opens, member⟩ := spares.shrinks.listing listed
      exact .entry reached opens (fs.mem_names_of_entries member notDot) notDot
    · intro before visited name now reached _ spares listed sparesNow
      obtain ⟨location, opens, member⟩ := spares.shrinks.listing listed
      exact sparesNow.unlink confined reached opens member
    · intro before visited reached spares
      exact spares.rmdir confined reached
  have ran : (env.deletePath cwd fs path).elim False (Spares fs cwd path) :=
    deletes.within (by omega) .top ⟨fun _ _ found => found, fun _ _ => rfl⟩
  cases result : env.deletePath cwd fs path with
  | none =>
      rw [result] at ran
      contradiction
  | some after =>
      rw [result] at ran
      exact ⟨after, rfl, ran⟩

end

/-- The name is the next one on the way from a path to the target. -/
def OnWay (target path : List UInt8) (name : Name) : Prop := join path name ++ [slash] <+: target ++ [slash]

instance (target path : List UInt8) (name : Name) : Decidable (OnWay target path name) :=
  inferInstanceAs (Decidable (_ <+: _))

/-- `readdir` gives the names on the way to the target first, and `stat` may fail there
with 0 in `f.is_dir`. -/
def toward (target : List UInt8) (fault : Bool) : Environment where
  fails call path := fault && decide (call = .stat ∧ path = target)
  unset _ := false
  order path names := names.filter (fun name => OnWay target path name) ++
    names.filter (fun name => !decide (OnWay target path name))
  order_perm _ names := List.filter_append_perm _ names

section

variable {cwd : Location} {fs now : Fs} {path visited target : List UInt8} {location : Location} {name other : Name}
  {fault : Bool}

theorem OnWay.unique (onWay : OnWay target path name) (otherOnWay : OnWay target path other) (whole : slash ∉ name)
    (otherWhole : slash ∉ other) : name = other := by
  have same : ∀ {first second : Name}, slash ∉ second → join path first ++ [slash] <+: join path second ++ [slash] →
      first = second := by
    intro first second wholeSecond before
    rw [join, join, List.append_assoc, List.append_assoc, List.prefix_append_right_inj, List.cons_append,
      List.cons_append, List.cons_prefix_cons] at before
    rcases List.prefix_concat_iff.mp before.2 with equal | inside
    · exact (List.append_inj' equal rfl).1
    · exact absurd (inside.subset (List.mem_append_right first List.mem_cons_self)) wholeSecond
  rcases List.prefix_or_prefix_of_prefix onWay otherOnWay with shorter | longer
  · exact same otherWhole shorter
  · exact (same whole longer).symm

theorem toward_order {names : List Name} (onWay : OnWay target path name) (listed : name ∈ names)
    (whole : ∀ name ∈ names, slash ∉ name) : ∃ rest, (toward target fault).order path names = name :: rest := by
  have first : name ∈ names.filter fun name => OnWay target path name :=
    List.mem_filter.mpr ⟨listed, decide_eq_true onWay⟩
  cases kept : names.filter fun name => OnWay target path name with
  | nil =>
      rw [kept] at first
      contradiction
  | cons head rest =>
      have member : head ∈ names.filter fun name => OnWay target path name := kept ▸ List.mem_cons_self
      obtain ⟨inNames, headOnWay⟩ := List.mem_filter.mp member
      have same := onWay.unique (of_decide_eq_true headOnWay) (whole name listed) (whole head inNames)
      refine ⟨rest ++ names.filter (fun name => !decide (OnWay target path name)), ?_⟩
      change names.filter _ ++ _ = _
      rw [kept, same, List.cons_append]

theorem deleteWithin_elim {env : Environment} {Holds : Fs → Prop} {room : Nat}
    (enough : pathMax ≤ room + visited.length)
    (looped : ∀ less, pathMax ≤ less + 1 + visited.length →
      (run (env.deleteEntry cwd (env.deleteWithin cwd less) visited) fs (env.listing cwd fs visited)).elim True
        fun now => Holds (env.rmdir cwd now visited)) :
    (env.deleteWithin cwd room fs visited).elim True Holds := by
  cases room with
  | zero => trivial
  | succ room =>
      rw [Environment.deleteWithin]
      split
      next => trivial
      next =>
        rw [Option.elim_map]
        exact looped room enough

/-- What the first turn of the loop removes stays removed. -/
theorem deleteWithin_first {env : Environment} {Bad : Fs → Prop}
    (stays : ∀ now after : Fs, now.Shrinks after → Bad now → Bad after)
    {room : Nat} (enough : pathMax ≤ room + visited.length) {rest : List Name}
    (listing : env.listing cwd fs visited = name :: rest)
    (first : ∀ less, pathMax ≤ less + 1 + visited.length →
      (env.deleteEntry cwd (env.deleteWithin cwd less) visited fs name).elim True Bad) :
    (env.deleteWithin cwd room fs visited).elim True Bad := by
  refine deleteWithin_elim enough fun less enough => ?_
  rw [listing, run]
  refine elim_bind (elim_mono (first less enough) ?_)
  intro next bad
  have looped : (run (env.deleteEntry cwd (env.deleteWithin cwd less) visited) next rest).elim True next.Shrinks := by
    refine run_elim ?_ (fun _ _ found => found)
    intro other _ now shrinks
    refine deleteEntry_elim (fun _ => trivial) shrinks ?_ shrinks.unlink
    intro _ _
    refine elim_mono (deleteWithin_shrinks ?_) fun after => shrinks.trans
    rw [length_join]
    omega
  exact elim_mono looped fun reached shrinks => stays next _ shrinks.rmdir bad

theorem toward_listing (opens : Opens fs.node cwd visited location)
    (listed : name ∈ fs.entries location)
    (onWay : OnWay target visited name) : ∃ rest, (toward target fault).listing cwd fs visited = name :: rest := by
  rw [Environment.listing, opens.1]
  have opened : (toward target fault).fails .opendir visited = false := by
    simp [toward]
  dsimp only
  rw [if_pos ⟨opens.2, opened⟩]
  exact toward_order onWay listed fun other member => (fs.entries_valid member).1

theorem prefix_join (path : List UInt8) (name : Name) : path ++ [slash] <+: join path name ++ [slash] := by
  rw [join, List.append_assoc, List.prefix_append_right_inj]
  exact ⟨name ++ [slash], rfl⟩

/-- With the names on the way first, nothing has changed when the target is met, and
what goes wrong there goes wrong in the whole run. -/
theorem Reached.lead {Bad : Fs → Prop} (stays : ∀ now after : Fs, now.Shrinks after → Bad now → Bad after)
    (reached : Reached fs cwd path visited) (opens : Opens fs.node cwd visited location)
    (way : visited ++ [slash] <+: target ++ [slash]) (clear : fault = true → visited.length < target.length)
    (bad : ∀ room, pathMax ≤ room + visited.length →
      ((toward target fault).deleteWithin cwd room fs visited).elim True Bad)
    {room : Nat} (enough : pathMax ≤ room + path.length) :
    ((toward target fault).deleteWithin cwd room fs path).elim True Bad := by
  induction reached generalizing location with
  | top => exact bad room enough
  | @entry before above name _ opensBefore listed notDot ih =>
      have longer : (join before name).length = before.length + name.length + 1 := by
        rw [join, List.length_append, List.length_cons]
        omega
      refine ih opensBefore ((prefix_join before name).trans way) (fun faulty => by have := clear faulty; omega) ?_
      intro room enough
      obtain ⟨rest, listing⟩ := toward_listing opensBefore (fs.mem_entries.mpr (Or.inr listed)) way
      refine deleteWithin_first stays enough listing ?_
      intro less enough
      have stated : (toward target fault).fails .stat (join before name) = false := by
        cases fault with
        | false => rfl
        | true =>
            have different : join before name ≠ target := by
              intro same
              have shorter := clear rfl
              rw [same] at shorter
              omega
            simp [toward, different]
      have isDir : (toward target fault).isDir cwd fs (join before name) = true := by
        rw [Environment.isDir, stated, opens.1, Option.bind_some, opens.2]
        rfl
      rw [Environment.deleteEntry, if_pos isDir, if_neg notDot]
      split
      next => trivial
      next => exact bad less (by omega)

/-- The call leaves everything outside as it was, whatever the environment does. -/
def Contained (fs : Fs) (cwd : Location) (path : List UInt8) : Prop :=
  ∀ env : Environment, ∃ after, env.deletePath cwd fs path = some after ∧
    ∀ location, ¬ Inside fs cwd path location → after.node location = fs.node location

theorem Contained.fits (contained : Contained fs cwd path) (reached : Reached fs cwd path visited)
    (opens : Opens fs.node cwd visited location) (listed : name ∈ fs.entries location) :
    visited.length + name.length + 1 < pathMax := by
  by_contra tooLong
  obtain ⟨after, ran, _⟩ := contained (toward (join visited name) false)
  have stuck : ((toward (join visited name) false).deletePath cwd fs path).elim True fun _ => False := by
    refine reached.lead (fun _ _ _ => id) opens (prefix_join visited name) (fun faulty => by contradiction) ?_ (by omega)
    intro room enough
    obtain ⟨rest, listing⟩ := toward_listing opens listed List.prefix_rfl
    refine deleteWithin_first (fun _ _ _ => id) enough listing fun less _ => ?_
    have refused : TooLong visited name := Or.inl (by omega)
    rw [Environment.deleteEntry, if_pos refused]
    trivial
  rw [ran] at stuck
  exact stuck

theorem Contained.absurd (contained : Contained fs cwd path) (env : Environment)
    (outside : ¬ Inside fs cwd path location) (present : fs.node location ≠ none)
    (removed : (env.deletePath cwd fs path).elim True fun after => after.node location = none) : False := by
  obtain ⟨after, ran, same⟩ := contained env
  rw [ran] at removed
  exact present ((same location outside).symm.trans removed)

/-- An entry outside that is not a directory is unlinked when `stat` fails for it. -/
theorem Contained.directory (contained : Contained fs cwd path) (nonempty : path ≠ [])
    (reached : Reached fs cwd path visited) (opens : Opens fs.node cwd visited location)
    (outside : ¬ Inside fs cwd path location) (listed : name ∈ fs.names location) :
    fs.node (name :: location) = some .directory := by
  by_contra other
  have named := (fs.name_valid listed).1
  have outsideToo : ¬ Inside fs cwd path (name :: location) := by
    intro inside
    obtain ⟨top, opensTop⟩ := reached.passes nonempty opens
    have here := Option.some.inj (opensTop.1.symm.trans (inside.top outside))
    exact other (here ▸ opensTop.2)
  refine contained.absurd (toward (join visited name) true) outsideToo (fs.mem_names.mp listed) ?_
  refine reached.lead (fun _ _ shrinks => shrinks.gone) opens (prefix_join visited name) ?_ ?_ (by omega)
  · intro _
    rw [length_join]
    omega
  · intro room enough
    obtain ⟨rest, listing⟩ := toward_listing opens (fs.mem_entries.mpr (Or.inr listed)) List.prefix_rfl
    refine deleteWithin_first (fun _ _ shrinks => shrinks.gone) enough listing fun less _ => ?_
    have notDir : ¬ (toward (join visited name) true).isDir cwd fs (join visited name) = true := by
      simp [Environment.isDir, toward]
    rw [Environment.deleteEntry, if_neg notDir]
    split
    next => trivial
    next =>
      have found := (entry_join (reached.nonempty nonempty) named.2 named.1).mpr ⟨location, opens, rfl⟩
      have unlinks : (toward (join visited name) true).fails .unlink (join visited name) = false := by
        simp [toward]
      rw [Environment.unlink, unlinks, Option.elim_some, if_neg Bool.false_ne_true, Fs.unlink_node,
        if_pos ⟨found, other⟩]

theorem deleteWithin_empty {env : Environment} (removes : env.fails .rmdir path = false)
    (found : entry fs.node cwd path = some location) (directory : fs.node location = some .directory)
    (empty : fs.names location = []) {room : Nat} (enough : pathMax ≤ room + path.length) :
    (env.deleteWithin cwd room fs path).elim True fun after => after.node location = none := by
  refine deleteWithin_elim enough fun less _ => ?_
  have looped : (run (env.deleteEntry cwd (env.deleteWithin cwd less) path) fs (env.listing cwd fs path)).elim
      True fun now => now.node = fs.node := by
    refine run_elim ?_ rfl
    intro name listed now same
    obtain ⟨there, opens, member⟩ := mem_listing listed
    have here : there = location :=
      Option.some.inj (opens.1.symm.trans (resolve_of_entry found directory (by simp)))
    have improper : name = [dot] ∨ name = [dot, dot] := by
      refine (fs.mem_entries.mp member).resolve_right ?_
      rw [here, empty]
      exact List.not_mem_nil
    refine deleteEntry_elim (fun _ => trivial) same ?_ ?_
    · intro notDot _
      exact absurd (head_of_improper improper) notDot
    · funext other
      rcases Environment.unlink_node other with kept | removed
      · rw [kept, same]
      · exact absurd removed.2.1 (entry_improper improper other now.node)
  refine elim_mono looped ?_
  intro now same
  have emptyNow : now.names location = [] := by
    refine List.eq_nil_iff_forall_not_mem.mpr fun name listed => ?_
    have member := fs.mem_names.mpr (same ▸ now.mem_names.mp listed)
    rw [empty] at member
    contradiction
  rw [Environment.rmdir, removes, if_neg Bool.false_ne_true, Fs.rmdir_node,
    if_pos ⟨same ▸ found, same ▸ directory, emptyNow⟩]

theorem Contained.entered (contained : Contained fs cwd path) (nonempty : path ≠ [])
    (reached : Reached fs cwd path visited) (opens : Opens fs.node cwd visited location)
    (listed : name ∈ fs.names location) (directory : fs.node (name :: location) = some .directory)
    (notDot : name.head? ≠ some dot) (outside : ¬ Inside fs cwd path (name :: location)) :
    fs.names (name :: location) ≠ [] := by
  intro empty
  have named := (fs.name_valid listed).1
  have opensThere : Opens fs.node cwd (join visited name) (name :: location) :=
    ⟨opens.join (reached.nonempty nonempty) named.2 named.1 directory (by simp), directory⟩
  have found := (entry_join (reached.nonempty nonempty) named.2 named.1).mpr ⟨location, opens, rfl⟩
  refine contained.absurd (toward (join visited name) false) outside (fs.mem_names.mp listed) ?_
  refine (Reached.entry reached opens listed notDot).lead (fun _ _ shrinks => shrinks.gone) opensThere List.prefix_rfl
    (fun faulty => by contradiction) ?_ (by omega)
  intro room enough
  exact deleteWithin_empty rfl found directory empty enough

end

/-- Nothing outside is touched exactly when every directory outside that the path
leads to, through links, is spared by what it holds. -/
theorem deletePath_contained_iff (fs : Fs) (cwd : Location) (path : List UInt8) :
    Contained fs cwd path ↔ Confined fs cwd path := by
  constructor
  · intro contained
    obtain ⟨after, ran, _⟩ := contained (toward path false)
    obtain ⟨⟨nonempty, short⟩, _⟩ := deleteWithin_eq_some (by omega) ran
    refine ⟨nonempty, short, ?_, ?_⟩
    · intro visited location reached opens name listed
      exact contained.fits reached opens listed
    · intro visited location reached opens outside name listed
      have directory := contained.directory nonempty reached opens outside listed
      exact ⟨directory, contained.entered nonempty reached opens listed directory⟩
  · intro confined env
    obtain ⟨after, ran, spares⟩ := confined.spares env
    exact ⟨after, ran, spares.same⟩

/-- A link in `/p` leads to `/o`, where there is a file. -/
def linked : Fs where
  table := List.toAList [⟨[], .directory⟩, ⟨[[0x70]], .directory⟩, ⟨[[0x6c], [0x70]], .link [slash, 0x6f]⟩,
    ⟨[[0x6f]], .directory⟩, ⟨[[0x66], [0x6f]], .file []⟩]
  root := by decide
  parent := by decide
  proper := by decide

/-- The file in `/o` is removed with `/p`, although it lies outside. -/
theorem deletePath_follows_link : linked.node [[0x66], [0x6f]] = some (.file []) ∧
    ¬ Inside linked [] [slash, 0x70] [[0x66], [0x6f]] ∧
    (undisturbed.deletePath [] linked [slash, 0x70]).map (fun after => after.node [[0x66], [0x6f]]) = some none := by
  refine ⟨by decide, ?_, by decide⟩
  intro inside
  obtain ⟨top, resolved, below⟩ := inside
  have here : resolve linked.node [] [slash, 0x70] = some [[0x70]] := by decide
  obtain rfl := Option.some.inj (here.symm.trans resolved)
  exact absurd below (by decide)

end Webapp.Files
