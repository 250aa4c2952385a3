import Mathlib

namespace Webapp.Data

/-! Streams whose elements carry the number of the source they come from. -/

variable {α : Type} {stream : List (Nat × α)} {tag : Nat}

/-- What comes from one source, in order. -/
def ofTag (tag : Nat) (stream : List (Nat × α)) : List α :=
  (stream.filter fun entry => entry.1 == tag).map Prod.snd

def tagged (tag : Nat) (values : List α) : List (Nat × α) := values.map fun value => (tag, value)

@[simp] theorem ofTag_nil : ofTag tag ([] : List (Nat × α)) = [] := rfl

theorem ofTag_append (first second : List (Nat × α)) :
    ofTag tag (first ++ second) = ofTag tag first ++ ofTag tag second := by
  simp [ofTag]

@[simp] theorem ofTag_tagged (values : List α) : ofTag tag (tagged tag values) = values := by
  simp [ofTag, tagged, List.filter_map, Function.comp_def]

theorem ofTag_tagged_other {other : Nat} (different : other ≠ tag) (values : List α) :
    ofTag tag (tagged other values) = [] := by
  simp [ofTag, tagged, List.filter_map, Function.comp_def, different]

theorem ofTag_absent (absent : ∀ entry ∈ stream, entry.1 ≠ tag) : ofTag tag stream = [] := by
  rw [ofTag, List.filter_eq_nil_iff.mpr (by simpa using absent), List.map_nil]

@[simp] theorem map_snd_tagged (values : List α) : (tagged tag values).map Prod.snd = values := by
  simp [tagged, Function.comp_def]

theorem mem_tagged {values : List α} {entry : Nat × α} (member : entry ∈ tagged tag values) : entry.1 = tag := by
  obtain ⟨value, _, rfl⟩ := List.mem_map.mp member
  rfl

/-- Sources beyond the last tag add nothing. -/
theorem flatMap_ofTag_range {count : Nat} (below : ∀ entry ∈ stream, entry.1 ≤ tag) (bound : tag < count) :
    (List.range count).flatMap (fun tag => ofTag tag stream) =
      (List.range tag).flatMap (fun tag => ofTag tag stream) ++ ofTag tag stream := by
  obtain ⟨more, rfl⟩ := Nat.exists_eq_add_of_lt bound
  have beyond : ((List.range more).map (tag + 1 + ·)).flatMap (fun tag => ofTag tag stream) = [] := by
    rw [List.flatMap_eq_nil_iff]
    intro other member
    obtain ⟨index, _, rfl⟩ := List.mem_map.mp member
    apply ofTag_absent
    intro entry listed same
    have upper := below entry listed
    omega
  rw [show tag + more + 1 = tag + 1 + more by omega, List.range_add, List.flatMap_append, beyond, List.append_nil,
    List.range_succ, List.flatMap_append, List.flatMap_singleton]

/-- A stream in which no source comes back after a later one is made of what comes
from the sources, one after the other. -/
theorem map_snd_of_sorted {count : Nat} (sorted : (stream.map Prod.fst).Pairwise (· ≤ ·))
    (bound : ∀ entry ∈ stream, entry.1 < count) :
    stream.map Prod.snd = (List.range count).flatMap fun tag => ofTag tag stream := by
  induction stream using List.reverseRecOn with
  | nil => simp
  | append_singleton stream entry ih =>
      obtain ⟨tag, value⟩ := entry
      rw [List.map_append, List.pairwise_append] at sorted
      obtain ⟨earlier, _, below⟩ := sorted
      have upper : ∀ entry ∈ stream, entry.1 ≤ tag := fun entry member =>
        below entry.1 (List.mem_map_of_mem member) tag (by simp)
      have all : ∀ entry ∈ stream ++ [(tag, value)], entry.1 ≤ tag := by
        simpa [or_imp, forall_and] using upper
      have small : tag < count := bound (tag, value) (by simp)
      have others : (List.range tag).flatMap (fun other => ofTag other (stream ++ [(tag, value)])) =
          (List.range tag).flatMap fun other => ofTag other stream := by
        apply List.flatMap_congr
        intro other member
        have apart : tag ≠ other := Nat.ne_of_gt (List.mem_range.mp member)
        simp [ofTag, apart]
      have rest := ih earlier fun entry member => bound entry (by simp [member])
      rw [flatMap_ofTag_range upper small] at rest
      rw [flatMap_ofTag_range all small, others, ofTag_append, ← List.append_assoc, ← rest]
      simp [ofTag]

theorem flatMap_range_eq_flatten {parts : List (List α)} {part : Nat → List α}
    (same : ∀ index values, parts[index]? = some values → part index = values) :
    (List.range parts.length).flatMap part = parts.flatten := by
  induction parts using List.reverseRecOn with
  | nil => rfl
  | append_singleton parts last ih =>
      have earlier := ih fun index values known => same index values (by
        rw [List.getElem?_append_left (List.getElem?_eq_some_iff.mp known).1, known])
      have final := same parts.length last (by simp)
      rw [List.length_append, List.length_singleton, List.range_succ, List.flatMap_append, List.flatten_append, earlier,
        List.flatMap_singleton, final, List.flatten_singleton]

end Webapp.Data
