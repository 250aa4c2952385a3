import Webapp.Strings.Values

namespace Webapp.Strings

open Webapp.Data Webapp.Session

section

variable {scope : Scope} {values : Values} {x : Nat} {lower : UInt8 → UInt8}

@[simp] theorem Values.set_self (values : Values) (x : Nat) (text : Text) : values.set x text x = some text :=
  Function.update_self ..

theorem Values.set_other (values : Values) {y : Nat} (text : Text) (other : y ≠ x) : values.set x text y = values y :=
  Function.update_of_ne other ..

/-- A new variable that owns nothing changes nothing for the others. -/
theorem Scope.Holds.set (holds : scope.Holds values) (free : values x = none) {str : WebappStr} {text : Text}
    (unowned : str.allocated = false)
    (shown : (scope.bind scope.heap x (some str)).Shows (values.set x text) x (some text)) :
    (scope.bind scope.heap x (some str)).Holds (values.set x text) := by
  have unbound := holds.unbound free
  refine ⟨?_, ?_, ?_⟩
  · intro y
    by_cases same : y = x
    · rw [same, Values.set_self]
      exact shown
    · have before := holds.shows y
      rw [Values.set_other values text same]
      have var := bind_other scope scope.heap (some str) same
      cases known : values y with
      | none =>
          rw [known] at before
          exact var.trans before
      | some found =>
          rw [known] at before
          cases found with
          | own bytes =>
              refine ⟨?_, before.2⟩
              rcases before.1 with ⟨null, empty⟩ | ⟨address, block, held, inside, begins⟩
              · exact Or.inl ⟨var.trans null, empty⟩
              · exact Or.inr ⟨address, block, var.trans held, inside, begins⟩
          | view owner =>
              obtain ⟨source, bytes, held, own, shows⟩ := before
              have apart : owner ≠ x := by
                intro here
                rw [here, free] at own
                cases own
              exact ⟨source, bytes, (bind_other scope scope.heap _ apart).trans held,
                (Values.set_other values text apart).trans own, var.trans shows⟩
          | dangling =>
              obtain ⟨data, len, shows⟩ := before
              exact ⟨data, len, var.trans shows⟩
  · intro y z address n k first second
    have known {w : Nat} {m : Int} (held : (scope.bind scope.heap x (some str)).vars w = some ⟨some address, m, true⟩) :
        scope.vars w = some ⟨some address, m, true⟩ := by
      by_cases same : w = x
      · rw [same, bind_self] at held
        cases held
        cases unowned
      · rwa [bind_other _ _ _ same] at held
    exact holds.unique y z address n k (known first) (known second)
  · intro address block found
    obtain ⟨y, n, var⟩ := holds.owned address block found
    refine ⟨y, n, (bind_other scope scope.heap _ ?_).trans var⟩
    intro same
    rw [same, unbound] at var
    cases var

theorem Scope.Holds.pointer (holds : scope.Holds values) (free : values x = none) {other : Nat} {text : Text}
    (known : values other = some text) :
    ∃ str, scope.vars other = some str ∧ (scope.bind scope.heap x (some { str with allocated := false })).Holds
      (values.set x (text.seen other)) := by
  have shown := holds.shows other
  rw [known] at shown
  have apart {y : Nat} (there : values y ≠ none) : y ≠ x := by
    intro same
    exact there (same ▸ free)
  have otherApart := apart (y := other) (by simp [known])
  cases text with
  | own bytes =>
      obtain ⟨str, var, _⟩ := shown.1.chars
      refine ⟨str, var, holds.set free rfl ⟨str, bytes, (bind_other _ _ _ otherApart).trans var, ?_, bind_self ..⟩⟩
      rw [Values.set_other values _ otherApart, known]
  | view owner =>
      obtain ⟨str, bytes, var, own, view⟩ := shown
      have ownerApart := apart (y := owner) (by simp [own])
      refine ⟨_, view, holds.set free rfl ⟨str, bytes, (bind_other _ _ _ ownerApart).trans var, ?_, bind_self ..⟩⟩
      rw [Values.set_other values _ ownerApart, own]
  | dangling =>
      obtain ⟨data, len, var⟩ := shown
      exact ⟨_, var, holds.set free rfl ⟨data, len, bind_self ..⟩⟩

/-- What shows a text has the characters of the variable that owns it. -/
theorem Scope.Holds.owner (holds : scope.Holds values) {bytes : List UInt8} (known : values.text x = some bytes) :
    values (values.owner x) = some (.own bytes) ∧ ∃ str flag, scope.vars (values.owner x) = some str ∧
      scope.vars x = some { str with allocated := flag } := by
  have shown := holds.shows x
  rw [Values.text] at known
  split at known
  · rename_i own found
    cases known
    have here : values.owner x = x := by simp [Values.owner, found]
    rw [found] at shown
    obtain ⟨str, var, _⟩ := shown.1.chars
    rw [here]
    exact ⟨found, str, str.allocated, var, var⟩
  · rename_i owner found
    have there : values.owner x = owner := by simp [Values.owner, found]
    rw [found] at shown
    obtain ⟨str, text, var, own, view⟩ := shown
    rw [own] at known
    cases known
    rw [there]
    exact ⟨own, str, false, var, view⟩
  · cases known

/-- Characters that are changed in place change for the one variable that owns them. -/
theorem Scope.Holds.modify (holds : scope.Holds values) (changed : List UInt8) {bytes block : List UInt8} {address : Nat} {n : Int}
    (own : values x = some (.own bytes)) (var : scope.vars x = some ⟨some address, n, true⟩)
    (found : scope.heap.blocks address = some block) (size : changed.length = bytes.length) :
    ∃ heap, scope.heap.write address (changed ++ block.drop bytes.length) = some heap ∧
      ({ scope with heap := heap } : Scope).Holds (values.set x (.own changed)) := by
  obtain ⟨heap, written, blocks⟩ := Heap.put_found (some (changed ++ block.drop bytes.length)) found
  refine ⟨heap, written, ?_, holds.unique, ?_⟩
  · intro y
    have before := holds.shows y
    by_cases same : y = x
    · subst same
      rw [own] at before
      have length : n = bytes.length := by
        rcases before.1 with ⟨null, _⟩ | ⟨_, _, held, _, _⟩
        · rw [null] at var
          cases var
        · rw [held] at var
          cases var
          rfl
      rw [Values.set_self]
      refine ⟨Or.inr ⟨address, changed ++ block.drop bytes.length, ?_, ?_, List.prefix_append _ _⟩, ?_⟩
      · rw [size, ← length]
        exact var
      · exact (congrFun blocks address).trans (Function.update_self ..)
      · simpa [Values.short, size] using before.2
    · rw [Values.set_other values _ same]
      cases known : values y with
      | none =>
          rw [known] at before
          exact before
      | some text =>
          rw [known] at before
          cases text with
          | own others =>
              refine ⟨?_, before.2⟩
              rcases before.1 with null | ⟨place, there, held, inside, begins⟩
              · exact Or.inl null
              · refine Or.inr ⟨place, there, held, ?_, begins⟩
                have apart : place ≠ address := by
                  intro here
                  rw [here] at held
                  exact same (holds.unique y x address _ _ held var)
                exact (congrFun blocks place).trans ((Function.update_of_ne apart ..).trans inside)
          | view owner =>
              obtain ⟨source, shown, held, owned, view⟩ := before
              by_cases mine : owner = x
              · exact ⟨source, changed, held, by rw [mine, Values.set_self], view⟩
              · exact ⟨source, shown, held, (Values.set_other values _ mine).trans owned, view⟩
          | dangling => exact before
  · intro place there inside
    have before : ∃ old, scope.heap.blocks place = some old := by
      by_cases here : place = address
      · exact ⟨block, here ▸ found⟩
      · exact ⟨there, ((congrFun blocks place).trans (Function.update_of_ne here ..)).symm.trans inside⟩
    obtain ⟨old, inside⟩ := before
    exact holds.owned place old inside

theorem Scope.Holds.toLower (holds : scope.Holds values) {bytes : List UInt8} (known : values.text x = some bytes) :
    ∃ next, scope.step lower (.toLower x) = some next ∧
      next.Holds (values.set (values.owner x) (.own (bytes.map lower))) := by
  obtain ⟨own, source, flag, held, var⟩ := holds.owner known
  obtain ⟨str, same, _, chars, _⟩ := holds.chars known
  rw [var] at same
  cases same
  have shown := holds.shows (values.owner x)
  rw [own] at shown
  rcases shown.1 with ⟨null, empty⟩ | ⟨address, block, owner, found, begins⟩
  · rw [null] at held
    cases held
    subst empty
    refine ⟨scope, by simp [Scope.step, var, chars], ?_⟩
    have unchanged : values.set (values.owner x) (.own ([].map lower)) = values := by
      rw [Values.set, List.map_nil, ← own]
      exact Function.update_eq_self ..
    rw [unchanged]
    exact holds
  · have changed := holds.modify (bytes.map lower) own owner found (List.length_map ..)
    rw [owner] at held
    cases held
    obtain ⟨heap, written, holdsNext⟩ := changed
    refine ⟨_, ?_, holdsNext⟩
    simp [Scope.step, var, chars, found, written]

theorem Values.create_some {next : Values} {bytes : List UInt8} (taken : values.create x bytes = some next) :
    (values x = none ∧ short bytes) ∧ next = values.put x (some bytes) := guarded_step taken

theorem Values.change_some {next : Values} {bytes : List UInt8} (taken : values.change x bytes = some next) :
    (values x ≠ none ∧ short bytes) ∧ next = values.put x (some bytes) := guarded_step taken

theorem Scope.Holds.appendChars (holds : scope.Holds values) {other : WebappStr} {first second : List UInt8}
    (known : values.text x = some first) (len : other.len = second.length)
    (chars : other.chars scope.heap = some second) {next : Values}
    (taken : (if second = [] then some values else values.change x (first ++ second)) = some next) :
    ∃ after, scope.appendChars x other = some after ∧ after.Holds next := by
  obtain ⟨str, var, size, own, _⟩ := holds.chars known
  split at taken
  · rename_i empty
    cases taken
    refine ⟨scope, ?_, holds⟩
    simp [Scope.appendChars, var, len, empty]
  · rename_i nonempty
    obtain ⟨⟨_, short⟩, rfl⟩ := Values.change_some taken
    have positive : 0 < second.length := List.length_pos_iff.mpr nonempty
    have total : int32 (str.len + other.len) = (first ++ second).length := by
      rw [size, len, List.length_append, ← Nat.cast_add]
      exact int32_of_small (by simpa [Values.short] using short)
    obtain ⟨after, replaced, holdsNext⟩ := holds.replace var short (List.prefix_refl (first ++ second))
    refine ⟨after, ?_, holdsNext⟩
    rw [Scope.appendChars, var]
    simp only [Option.bind_eq_bind, Option.bind_some, own, chars, total]
    rw [if_pos (by omega), if_pos (by omega), replaced]

theorem WebappStr.chars_allocate {heap : Heap (List UInt8)} {str : WebappStr} {bytes : List UInt8}
    (chars : str.chars heap = some bytes) (block : List UInt8) : str.chars (heap.allocate block) = some bytes := by
  rw [WebappStr.chars] at chars
  split at chars
  · rename_i zero
    rw [WebappStr.chars, if_pos zero, chars]
  · rename_i nonzero
    obtain ⟨found, inside, read⟩ := Option.bind_eq_some_iff.mp chars
    obtain ⟨address, data, inside⟩ := Option.bind_eq_some_iff.mp inside
    rw [WebappStr.chars, if_neg nonzero, data, Option.bind_some, Heap.allocate_found inside, Option.bind_some, read]

theorem Values.put_put (values : Values) (x : Nat) (first second : Option (List UInt8)) :
    (values.put x first).put x second = values.put x second := by
  funext y
  by_cases same : y = x
  · rw [same, put_self, put_self]
  · rw [put_other _ _ same, put_other _ _ same, put_other _ _ same]
    by_cases view : values y = some (.view x)
    · simp [view]
    · simp [view]

theorem Scope.Holds.plus (holds : scope.Holds values) (free : values x = none) {first second : List UInt8}
    {left right : WebappStr} (size : left.len = first.length) (len : right.len = second.length)
    (chars : right.chars scope.heap = some second) (short : Values.short (first ++ second)) :
    ∃ copied after, scope.construct x first left.len left.len = some copied ∧
      copied.appendChars x right = some after ∧ after.Holds (values.put x (some (first ++ second))) := by
  have shorter : Values.short first := by
    simp only [Values.short, List.length_append] at short ⊢
    omega
  have whole : first <+: first.take (first.length : Int).toNat := by simp
  obtain ⟨copied, built, copies⟩ := holds.construct free shorter (by omega) whole
  have heap : copied.heap = scope.heap.allocate (first.take (first.length : Int).toNat) := by
    obtain ⟨_, rfl⟩ := guarded_step built
    rfl
  have known : (values.put x (some first)).text x = some first := by simp [Values.text, Values.put_self]
  have there : values.put x (some first) x ≠ none := by simp [Values.put_self]
  have result : (if second = [] then some (values.put x (some first))
      else (values.put x (some first)).change x (first ++ second)) = some (values.put x (some (first ++ second))) := by
    split
    · rename_i empty
      rw [empty, List.append_nil]
    · rw [Values.change, if_pos ⟨there, short⟩, Values.put_put]
  obtain ⟨after, appended, holdsNext⟩ := copies.appendChars known len
    (heap ▸ WebappStr.chars_allocate chars _) result
  exact ⟨copied, after, by rw [size, built], appended, holdsNext⟩

/-- Each operation on the values is what the code does, with no access that is not
allowed. -/
theorem Scope.Holds.step (holds : scope.Holds values) {op : StringOp} {next : Values}
    (taken : values.step lower op = some next) :
    ∃ after, scope.step lower op = some after ∧ after.Holds next := by
  cases op with
  | default x =>
      obtain ⟨⟨free, _⟩, rfl⟩ := Values.create_some taken
      exact ⟨_, if_pos (holds.unbound free), holds.default free⟩
  | chars x s | sized x s =>
      obtain ⟨⟨free, short⟩, rfl⟩ := Values.create_some taken
      have len : int32 s.length = s.length := int32_of_small short
      have whole : s <+: s.take (s.length : Int).toNat := by simp
      obtain ⟨after, built, holdsNext⟩ := holds.construct free short (by omega) whole
      exact ⟨after, by rw [Scope.step, len, built], holdsNext⟩
  | cstring x s =>
      simp only [Values.step, Option.ite_none_right_eq_some] at taken
      obtain ⟨room, taken⟩ := taken
      obtain ⟨⟨free, short⟩, rfl⟩ := Values.create_some taken
      have len : int32 s.length = s.length := int32_of_small short
      have whole : s <+: (s ++ [0]).take ((s.length : Int) + 1).toNat := by
        have size : ((s.length : Int) + 1).toNat = (s ++ [0]).length := by simp
        rw [size, List.take_length]
        exact List.prefix_append _ _
      obtain ⟨after, built, holdsNext⟩ := holds.construct free short (by omega) whole
      exact ⟨after, by rw [Scope.step, len, built], holdsNext⟩
  | pointer x other =>
      simp only [Values.step, Option.ite_none_right_eq_some] at taken
      obtain ⟨free, taken⟩ := taken
      obtain ⟨text, known, rfl⟩ := Option.map_eq_some_iff.mp taken
      obtain ⟨str, var, holdsNext⟩ := holds.pointer free known
      exact ⟨_, by simp [Scope.step, var, holds.unbound free], holdsNext⟩
  | copy x other =>
      obtain ⟨bytes, known, taken⟩ := Option.bind_eq_some_iff.mp taken
      obtain ⟨⟨free, short⟩, rfl⟩ := Values.create_some taken
      obtain ⟨str, var, len, chars, _⟩ := holds.chars known
      have whole : bytes <+: bytes.take (bytes.length : Int).toNat := by simp
      obtain ⟨after, built, holdsNext⟩ := holds.construct free short (by omega) whole
      exact ⟨after, by simp [Scope.step, var, chars, len, built], holdsNext⟩
  | append x other =>
      simp only [Values.step, Option.bind_eq_bind] at taken
      obtain ⟨first, known, taken⟩ := Option.bind_eq_some_iff.mp taken
      obtain ⟨second, knownOther, taken⟩ := Option.bind_eq_some_iff.mp taken
      obtain ⟨str, var, len, chars, _⟩ := holds.chars knownOther
      obtain ⟨after, appended, holdsNext⟩ := holds.appendChars known len chars taken
      exact ⟨after, by rw [Scope.step, var, Option.bind_some, appended], holdsNext⟩
  | assign x other =>
      simp only [Values.step] at taken
      split at taken
      · rename_i same
        cases taken
        exact ⟨scope, if_pos same, holds⟩
      · rename_i different
        obtain ⟨bytes, known, taken⟩ := Option.bind_eq_some_iff.mp taken
        obtain ⟨⟨there, short⟩, rfl⟩ := Values.change_some taken
        obtain ⟨str, var⟩ := holds.bound there
        obtain ⟨source, varOther, len, chars, _⟩ := holds.chars known
        obtain ⟨after, replaced, holdsNext⟩ := holds.replace var short (List.prefix_refl bytes)
        exact ⟨after, by simp [Scope.step, different, var, varOther, chars, len, replaced], holdsNext⟩
  | plus x lhs rhs =>
      simp only [Values.step, Option.bind_eq_bind] at taken
      obtain ⟨first, known, taken⟩ := Option.bind_eq_some_iff.mp taken
      obtain ⟨second, knownOther, taken⟩ := Option.bind_eq_some_iff.mp taken
      obtain ⟨⟨free, short⟩, rfl⟩ := Values.create_some taken
      obtain ⟨left, varLeft, size, chars, _⟩ := holds.chars known
      obtain ⟨right, varRight, len, charsRight, _⟩ := holds.chars knownOther
      obtain ⟨copied, after, built, appended, holdsNext⟩ := holds.plus free size len charsRight short
      exact ⟨after, by simp [Scope.step, varLeft, varRight, chars, built, appended], holdsNext⟩
  | fromNumber x num =>
      obtain ⟨⟨there, short⟩, rfl⟩ := Values.change_some taken
      obtain ⟨str, var⟩ := holds.bound there
      obtain ⟨after, released, holdsNext⟩ := holds.renew var short
        (List.prefix_append (fromNumber num) (List.replicate (21 - (fromNumber num).length) 0))
      exact ⟨_, by simp [Scope.step, var, released], holdsNext⟩
  | toLower x =>
      obtain ⟨bytes, known, rfl⟩ := Option.map_eq_some_iff.mp taken
      exact holds.toLower known
  | destroy x =>
      simp only [Values.step, Option.ite_none_left_eq_some, Option.some.injEq] at taken
      obtain ⟨there, rfl⟩ := taken
      obtain ⟨str, var⟩ := holds.bound there
      obtain ⟨after, released, holdsNext⟩ := holds.destroy var
      exact ⟨_, by simp [Scope.step, var, released], holdsNext⟩

end

/-- Whatever is done with strings as values, by any operations on any variables that use
no view after the string it was made from has changed or ended: the code does it
without an access to a deleted block, beyond a block or through a null pointer and
without deleting a block twice, its variables have the same texts, every block belongs
to exactly one of them, and nothing is left when they have all ended. -/
theorem strings_refine (lower : UInt8 → UInt8) (ops : List StringOp) (values : Values)
    (ran : run (Values.step lower) Values.empty ops = some values) :
    ∃ scope, run (Scope.step lower) Scope.empty ops = some scope ∧
      (∀ x bytes, values.text x = some bytes →
        ∃ str, scope.vars x = some str ∧ str.chars scope.heap = some bytes) ∧
      (∀ address block, scope.heap.blocks address = some block →
        ∃! x, ∃ len, scope.vars x = some ⟨some address, len, true⟩) ∧
      ((∀ x, values x = none) → ∀ address, scope.heap.blocks address = none) := by
  obtain ⟨scope, ends, holds⟩ : ∃ scope, run (Scope.step lower) Scope.empty ops = some scope ∧ scope.Holds values :=
    @run_refines _ _ (Values.step lower) _ (Scope.step lower) (fun values scope => scope.Holds values) _ values
      Scope.empty ops Scope.holds_empty (fun _ _ _ _ holds taken => holds.step taken) ran
  refine ⟨scope, ends, ?_, ?_, ?_⟩
  · intro x bytes known
    obtain ⟨str, var, _, chars, _⟩ := holds.chars known
    exact ⟨str, var, chars⟩
  · intro address block found
    obtain ⟨x, n, var⟩ := holds.owned address block found
    refine ⟨x, ⟨n, var⟩, ?_⟩
    intro y other
    obtain ⟨k, held⟩ := other
    exact holds.unique y x address k n held var
  · intro none address
    cases found : scope.heap.blocks address with
    | none => rfl
    | some block =>
        obtain ⟨x, n, var⟩ := holds.owned address block found
        rw [holds.unbound (none x)] at var
        cases var

/-- A text that is joined with itself and changed, a view of it, and a number. -/
def joining : List StringOp :=
  [.chars 0 [0x41, 0x42], .append 0 0, .pointer 1 0, .plus 2 1 0, .toLower 1, .copy 3 1, .fromNumber 1 (-7),
    .assign 0 1, .destroy 3, .destroy 2, .destroy 1]

def lowerAscii (char : UInt8) : UInt8 := if 0x41 ≤ char ∧ char ≤ 0x5a then char + 0x20 else char

theorem strings_refine_joining :
    ∃ scope, run (Scope.step lowerAscii) Scope.empty joining = some scope ∧
      ∃ str, scope.vars 0 = some str ∧ str.chars scope.heap = some [0x2d, 0x37] := by
  have ends : ((run (Values.step lowerAscii) Values.empty joining).map fun values => values.text 0) =
      some (some [0x2d, 0x37]) := by decide
  obtain ⟨values, ran, text⟩ := Option.map_eq_some_iff.mp ends
  obtain ⟨scope, reached, texts, _⟩ := strings_refine lowerAscii joining values ran
  exact ⟨scope, reached, texts 0 _ text⟩

end Webapp.Strings
