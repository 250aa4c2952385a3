import Mathlib

namespace Webapp.Data

open Std

/-! Iterating over an ordered map from a key on.  The order of lists is the
lexicographic one, in which the extensions of a list follow it without a gap.
-/

section Lists

variable {α : Type} [Ord α] [LawfulEqOrd α]

theorem compare_append (first more : List α) : compare first (first ++ more) ≠ .gt := by
  induction first with
  | nil => cases more <;> simp [compare, List.compareLex]
  | cons head first ih =>
      simp only [compare, List.cons_append, List.compareLex_cons_cons] at ih ⊢
      simpa [ReflCmp.compare_self] using ih

/-- What lies between a list and an extension of it is an extension as well. -/
theorem extends_of_between [TransOrd α] {first key later : List α} (lower : compare first key ≠ .gt)
    (upper : compare key later = .lt) (extended : first <+: later) : first <+: key := by
  induction first generalizing key later with
  | nil => exact List.nil_prefix
  | cons head first ih =>
      obtain ⟨more, rfl⟩ := extended
      cases key with
      | nil => simp [compare, List.compareLex] at lower
      | cons other key =>
          simp only [compare, List.cons_append, List.compareLex_cons_cons] at lower upper ih
          cases order : compare head other with
          | lt =>
              rw [OrientedOrd.eq_swap, order] at upper
              simp at upper
          | gt =>
              rw [order] at lower
              simp at lower
          | eq =>
              obtain rfl : head = other := LawfulEqOrd.eq_of_compare order
              simp only [ReflCmp.compare_self] at lower upper
              rw [List.cons_prefix_cons]
              exact ⟨rfl, ih lower upper (List.prefix_append _ _)⟩

end Lists

section Sorted

variable {α : Type} {R : α → α → Prop} {keep : α → Bool} {entries : List α}

theorem fails_after {entry : α} (before : ∀ later ∈ entries, R entry later)
    (closed : ∀ first ∈ entry :: entries, ∀ second ∈ entry :: entries,
      R first second → keep second = true → keep first = true)
    (failed : keep entry = false) : ∀ later ∈ entries, keep later = false := by
  intro later member
  by_contra passed
  have impossible := closed entry List.mem_cons_self later (List.mem_cons_of_mem entry member) (before later member)
    (Bool.eq_true_of_not_eq_false passed)
  rw [failed] at impossible
  contradiction

/-- On a sorted list a test that is never passed again once it was failed
filters. -/
theorem takeWhile_eq_filter (sorted : entries.Pairwise R)
    (closed : ∀ first ∈ entries, ∀ second ∈ entries, R first second → keep second = true → keep first = true) :
    entries.takeWhile keep = entries.filter keep := by
  induction entries with
  | nil => rfl
  | cons entry entries ih =>
      obtain ⟨before, sorted⟩ := List.pairwise_cons.mp sorted
      have rest := ih sorted fun first member second other =>
        closed first (by simp [member]) second (by simp [other])
      cases kept : keep entry with
      | true => rw [List.takeWhile_cons_of_pos kept, List.filter_cons_of_pos kept, rest]
      | false =>
          rw [List.takeWhile_cons_of_neg (by simp [kept]), List.filter_cons_of_neg (by simp [kept])]
          symm
          rw [List.filter_eq_nil_iff]
          intro later member
          rw [fails_after before closed kept later member]
          exact Bool.false_ne_true

theorem dropWhile_eq_filter (sorted : entries.Pairwise R)
    (closed : ∀ first ∈ entries, ∀ second ∈ entries, R first second → keep second = true → keep first = true) :
    entries.dropWhile keep = entries.filter fun entry => !keep entry := by
  induction entries with
  | nil => rfl
  | cons entry entries ih =>
      obtain ⟨before, sorted⟩ := List.pairwise_cons.mp sorted
      have rest := ih sorted fun first member second other =>
        closed first (by simp [member]) second (by simp [other])
      cases kept : keep entry with
      | true =>
          rw [List.dropWhile_cons_of_pos kept, List.filter_cons_of_neg (by simp [kept]), rest]
      | false =>
          rw [List.dropWhile_cons_of_neg (by simp [kept])]
          symm
          rw [List.filter_eq_self]
          intro later member
          rcases List.mem_cons.mp member with same | after
          · rw [same, kept]
            rfl
          · rw [fails_after before closed kept later after]
            rfl

end Sorted

section Iterators

variable {α β : Type} {cmp : α → α → Ordering} [TransCmp cmp]

/-- `Seek`: the entries of a snapshot from the first key on that is not smaller. -/
def seek (entries : ExtTreeMap α β cmp) (key : α) : List (α × β) :=
  entries.toList.dropWhile fun entry => cmp entry.1 key == .lt

theorem seek_ordered (entries : ExtTreeMap α β cmp) (key : α) :
    (seek entries key).Pairwise fun first second => cmp first.1 second.1 = .lt :=
  List.Pairwise.sublist (List.dropWhile_sublist _) ExtTreeMap.ordered_keys_toList

variable [LawfulEqCmp cmp]

theorem mem_seek {entries : ExtTreeMap α β cmp} {key : α} {entry : α × β} :
    entry ∈ seek entries key ↔ entries[entry.1]? = some entry.2 ∧ cmp entry.1 key ≠ .lt := by
  have filtered : seek entries key = entries.toList.filter fun entry => !(cmp entry.1 key == .lt) := by
    apply dropWhile_eq_filter ExtTreeMap.ordered_keys_toList
    intro first _ second _ before smaller
    simp only [beq_iff_eq] at smaller ⊢
    exact TransCmp.lt_trans before smaller
  have listed : entry ∈ entries.toList ↔ entries[entry.1]? = some entry.2 :=
    ExtTreeMap.mem_toList_iff_getElem?_eq_some
  rw [filtered, List.mem_filter, listed]
  simp

/-- Scanning from a key up to the first greater one meets that key and no other. -/
theorem seek_until_greater (entries : ExtTreeMap α β cmp) (key : α) :
    ((seek entries key).takeWhile fun entry => cmp entry.1 key != .gt) =
      (entries[key]?.map fun value => (key, value)).toList := by
  have filtered : ((seek entries key).takeWhile fun entry => cmp entry.1 key != .gt) =
      (seek entries key).filter fun entry => cmp entry.1 key != .gt := by
    apply takeWhile_eq_filter (seek_ordered entries key)
    intro first _ second _ before notGreater
    simp only [bne_iff_ne, ne_eq] at notGreater ⊢
    intro greater
    exact notGreater (TransCmp.gt_trans (OrientedCmp.gt_of_lt before) greater)
  have member (entry : α × β) : (entry ∈ (seek entries key).filter fun entry => cmp entry.1 key != .gt) ↔
      entries[entry.1]? = some entry.2 ∧ entry.1 = key := by
    rw [List.mem_filter, mem_seek]
    constructor
    · intro scanned
      obtain ⟨⟨found, notLess⟩, notGreater⟩ := scanned
      have equal : cmp entry.1 key = .eq := by
        cases order : cmp entry.1 key with
        | lt => exact absurd order notLess
        | eq => rfl
        | gt => simp [order] at notGreater
      exact ⟨found, LawfulEqCmp.eq_of_compare equal⟩
    · intro exactly
      obtain ⟨found, rfl⟩ := exactly
      simp [found, ReflCmp.compare_self]
  have ordered := (seek_ordered entries key).filter fun entry => cmp entry.1 key != .gt
  rw [filtered]
  generalize (seek entries key).filter (fun entry => cmp entry.1 key != .gt) = scanned at member ordered ⊢
  cases scanned with
  | nil =>
      cases found : entries[key]? with
      | none => rfl
      | some value => simpa using (member (key, value)).mpr ⟨found, rfl⟩
  | cons entry rest =>
      obtain ⟨found, same⟩ := (member entry).mp (by simp)
      cases rest with
      | nil =>
          rw [← same, found]
          rfl
      | cons other rest =>
          obtain ⟨_, again⟩ := (member other).mp (by simp)
          have before := (List.pairwise_cons.mp ordered).1 other (by simp)
          simp [same, again, ReflCmp.compare_self] at before

theorem getElem?_foldl_erase (scanned : List (α × β)) (entries : ExtTreeMap α β cmp) (key : α) [DecidableEq α] :
    (scanned.foldl (fun entries entry => entries.erase entry.1) entries)[key]? =
      if key ∈ scanned.map Prod.fst then none else entries[key]? := by
  induction scanned generalizing entries with
  | nil => simp
  | cons entry scanned ih =>
      rw [List.foldl_cons, ih, ExtTreeMap.getElem?_erase]
      by_cases same : entry.1 = key
      · simp [same, ReflCmp.compare_self]
      · have different : cmp entry.1 key ≠ .eq := fun equal => same (LawfulEqCmp.eq_of_compare equal)
        have other : ¬ key = entry.1 := fun equal => same equal.symm
        simp only [if_neg different, List.map_cons, List.mem_cons, other, false_or]

end Iterators

section Lists

variable {α β : Type} [Ord α] [TransOrd α] [LawfulEqOrd α] [DecidableEq α]

theorem seek_extensions_closed {entries : ExtTreeMap (List α) β compare} {first : List α} :
    ∀ earlier ∈ seek entries first, ∀ later ∈ seek entries first, compare earlier.1 later.1 = .lt →
      first.isPrefixOf later.1 = true → first.isPrefixOf earlier.1 = true := by
  intro earlier member later _ before extended
  rw [List.isPrefixOf_iff_prefix] at extended ⊢
  refine extends_of_between ?_ before extended
  intro greater
  exact (mem_seek.mp member).2 (OrientedCmp.lt_of_gt greater)

/-- Scanning from a list on as long as the keys extend it meets every extension. -/
theorem mem_seek_extensions {entries : ExtTreeMap (List α) β compare} {first : List α} {entry : List α × β} :
    (entry ∈ (seek entries first).takeWhile fun entry => first.isPrefixOf entry.1) ↔
      entries[entry.1]? = some entry.2 ∧ first <+: entry.1 := by
  rw [takeWhile_eq_filter (seek_ordered entries first) seek_extensions_closed, List.mem_filter, mem_seek,
    List.isPrefixOf_iff_prefix]
  constructor
  · intro scanned
    obtain ⟨⟨found, _⟩, extended⟩ := scanned
    exact ⟨found, extended⟩
  · intro extension
    obtain ⟨found, more, extended⟩ := extension
    refine ⟨⟨found, ?_⟩, more, extended⟩
    intro less
    rw [← extended] at less
    exact compare_append first more (OrientedCmp.gt_of_lt less)

/-- The extensions of a list stand side by side, from where `Seek` finds it. -/
theorem toList_extensions (entries : ExtTreeMap (List α) β compare) (first : List α) :
    ∃ before after, entries.toList =
        before ++ ((seek entries first).takeWhile (fun entry => first.isPrefixOf entry.1) ++ after) ∧
      seek entries first = (seek entries first).takeWhile (fun entry => first.isPrefixOf entry.1) ++ after ∧
      ∀ entry ∈ before ++ after, ¬ first <+: entry.1 := by
  refine ⟨entries.toList.takeWhile fun entry => compare entry.1 first == .lt,
    (seek entries first).dropWhile fun entry => first.isPrefixOf entry.1, ?_, ?_, ?_⟩
  · rw [List.takeWhile_append_dropWhile, seek, List.takeWhile_append_dropWhile]
  · rw [List.takeWhile_append_dropWhile]
  · intro entry member
    rcases List.mem_append.mp member with smaller | later
    · have less := List.mem_takeWhile_imp smaller
      rw [beq_iff_eq] at less
      intro extended
      obtain ⟨more, extended⟩ := extended
      rw [← extended] at less
      exact compare_append first more (OrientedCmp.gt_of_lt less)
    · rw [dropWhile_eq_filter (seek_ordered entries first) seek_extensions_closed, List.mem_filter] at later
      intro extended
      have kept := later.2
      rw [List.isPrefixOf_iff_prefix.mpr extended] at kept
      contradiction

end Lists

end Webapp.Data
