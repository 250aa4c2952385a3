import Webapp.Data.Runs
import Webapp.Strings.WebappStr

namespace Webapp.Strings

open Webapp.Data Webapp.Session

/-! What the strings are for: texts that are copied, joined and changed as values.  A
string made from a pointer shows the text of the string it was made from, until that
one gets another text or ends.
-/

inductive Text where
  | own (bytes : List UInt8)
  | view (owner : Nat)
  | dangling
deriving DecidableEq, Repr

/-- What a string shows that is made from a pointer to this one. -/
def Text.seen (other : Nat) : Text → Text
  | .own _ => .view other
  | .view owner => .view owner
  | .dangling => .dangling

def Values := Nat → Option Text

namespace Values

def empty : Values := fun _ => none

def text (values : Values) (x : Nat) : Option (List UInt8) :=
  match values x with
  | some (.own bytes) => some bytes
  | some (.view owner) =>
      match values owner with
      | some (.own bytes) => some bytes
      | _ => none
  | _ => none

/-- The variable whose characters another one shows. -/
def owner (values : Values) (x : Nat) : Nat :=
  match values x with
  | some (.view owner) => owner
  | _ => x

/-- A new text, or none, and no more views of the old one. -/
def put (values : Values) (x : Nat) (bytes : Option (List UInt8)) : Values := fun y =>
  if y = x then bytes.map .own else if values y = some (.view x) then some .dangling else values y

def set (values : Values) (x : Nat) (text : Text) : Values := Function.update values x (some text)

/-- Lengths are kept in an `int32_t`. -/
def short (bytes : List UInt8) : Prop := bytes.length < 2147483648

instance (bytes : List UInt8) : Decidable (short bytes) := inferInstanceAs (Decidable (_ < _))

def create (values : Values) (x : Nat) (bytes : List UInt8) : Option Values :=
  if values x = none ∧ short bytes then some (values.put x (some bytes)) else none

def change (values : Values) (x : Nat) (bytes : List UInt8) : Option Values :=
  if values x ≠ none ∧ short bytes then some (values.put x (some bytes)) else none

def step (lower : UInt8 → UInt8) (values : Values) : StringOp → Option Values
  | .default x => values.create x []
  | .chars x s | .sized x s => values.create x s
  | .cstring x s => if s.length + 1 < 2147483648 then values.create x s else none
  | .pointer x other =>
      if values x = none then (values other).map fun text => values.set x (text.seen other) else none
  | .copy x other => (values.text other).bind (values.create x)
  | .append x other => do
      let first ← values.text x
      let second ← values.text other
      if second = [] then some values else values.change x (first ++ second)
  | .assign x other =>
      if x = other then some values else (values.text other).bind (values.change x)
  | .plus x lhs rhs => do
      let first ← values.text lhs
      let second ← values.text rhs
      values.create x (first ++ second)
  | .fromNumber x num => values.change x (fromNumber num)
  | .toLower x => (values.text x).map fun bytes => values.set (values.owner x) (.own (bytes.map lower))
  | .destroy x => if values x = none then none else some (values.put x none)

end Values

section

variable {scope : Scope} {values : Values} {x : Nat}

/-- An own text is in a block of its own, or there is none and no block. -/
def Scope.Owns (scope : Scope) (x : Nat) (bytes : List UInt8) : Prop :=
  (scope.vars x = some ⟨none, 0, false⟩ ∧ bytes = []) ∨
    ∃ address block, scope.vars x = some ⟨some address, bytes.length, true⟩ ∧
      scope.heap.blocks address = some block ∧ bytes <+: block

def Scope.Shows (scope : Scope) (values : Values) (x : Nat) : Option Text → Prop
  | none => scope.vars x = none
  | some (.own bytes) => scope.Owns x bytes ∧ Values.short bytes
  | some (.view owner) => ∃ str bytes, scope.vars owner = some str ∧ values owner = some (.own bytes) ∧
      scope.vars x = some { str with allocated := false }
  | some .dangling => ∃ data len, scope.vars x = some ⟨data, len, false⟩

/-- The scope holds these values, each block belongs to one variable, and no block is
lost. -/
structure Scope.Holds (scope : Scope) (values : Values) : Prop where
  shows : ∀ x, scope.Shows values x (values x)
  unique : ∀ x y address n k, scope.vars x = some ⟨some address, n, true⟩ →
    scope.vars y = some ⟨some address, k, true⟩ → x = y
  owned : ∀ address block, scope.heap.blocks address = some block →
    ∃ x n, scope.vars x = some ⟨some address, n, true⟩

theorem Scope.holds_empty : Scope.empty.Holds Values.empty := by
  refine ⟨fun x => rfl, ?_, ?_⟩ <;> simp [Scope.empty, Heap.empty]

theorem WebappStr.chars_begins {heap : Heap (List UInt8)} {address : Nat} {block bytes : List UInt8} {flag : Bool}
    (found : heap.blocks address = some block) (begins : bytes <+: block) :
    WebappStr.chars heap ⟨some address, bytes.length, flag⟩ = some bytes := by
  rw [WebappStr.chars]
  split
  · rename_i zero
    have none : bytes = [] := List.length_eq_zero_iff.mp (by simpa using zero)
    rw [none]
  · rename_i nonzero
    have positive : (0 : Int) < bytes.length := by
      simp only at nonzero
      omega
    have short := begins.length_le
    rw [Option.bind_some, found, Option.bind_some, if_pos ⟨positive, by simpa using short⟩]
    simpa using (List.prefix_iff_eq_take.mp begins).symm

theorem Scope.Owns.chars {bytes : List UInt8} (owns : scope.Owns x bytes) :
    ∃ str, scope.vars x = some str ∧ str.len = bytes.length ∧
      ∀ flag, WebappStr.chars scope.heap { str with allocated := flag } = some bytes := by
  rcases owns with ⟨var, rfl⟩ | ⟨address, block, var, found, begins⟩
  · exact ⟨_, var, rfl, fun flag => rfl⟩
  · exact ⟨_, var, rfl, fun flag => WebappStr.chars_begins found begins⟩

/-- What has a text can be read. -/
theorem Scope.Holds.chars (holds : scope.Holds values) {bytes : List UInt8} (known : values.text x = some bytes) :
    ∃ str, scope.vars x = some str ∧ str.len = bytes.length ∧ str.chars scope.heap = some bytes ∧
      Values.short bytes := by
  have shown := holds.shows x
  rw [Values.text] at known
  split at known
  · rename_i own found
    cases known
    rw [found] at shown
    obtain ⟨str, var, len, chars⟩ := shown.1.chars
    exact ⟨str, var, len, chars str.allocated, shown.2⟩
  · rename_i owner found
    rw [found] at shown
    obtain ⟨str, bytes', var, own, view⟩ := shown
    rw [own] at known
    cases known
    have ownerShown := holds.shows owner
    rw [own] at ownerShown
    obtain ⟨str', var', len, chars⟩ := ownerShown.1.chars
    rw [var] at var'
    cases var'
    exact ⟨_, view, len, chars false, ownerShown.2⟩
  · cases known

theorem Values.put_self (values : Values) (x : Nat) (bytes : Option (List UInt8)) :
    values.put x bytes x = bytes.map .own := if_pos rfl

theorem Values.put_other (values : Values) {y : Nat} (bytes : Option (List UInt8)) (other : y ≠ x) :
    values.put x bytes y = if values y = some (.view x) then some .dangling else values y := if_neg other

/-- A string that deletes its block, if it has one, leaves all others. -/
theorem WebappStr.release_spec {heap : Heap (List UInt8)} {str : WebappStr}
    (live : ∀ address, str.allocated = true → str.data = some address → ∃ block, heap.blocks address = some block) :
    ∃ after, str.release heap = some after ∧
      ∀ address, after.blocks address =
        if str.allocated = true ∧ str.data = some address then none else heap.blocks address := by
  obtain ⟨data, len, allocated⟩ := str
  cases allocated with
  | false => exact ⟨heap, rfl, fun address => (if_neg (by simp)).symm⟩
  | true =>
      cases data with
      | none => exact ⟨heap, rfl, fun address => (if_neg (by simp)).symm⟩
      | some address =>
          obtain ⟨block, found⟩ := live address rfl rfl
          obtain ⟨after, freed, blocks⟩ := Heap.put_found none found
          refine ⟨after, freed, fun other => ?_⟩
          rw [blocks]
          by_cases same : other = address
          · simp [same]
          · simp [same, Ne.symm same]

theorem Scope.Holds.live (holds : scope.Holds values) {str : WebappStr} (var : scope.vars x = some str) :
    ∀ address, str.allocated = true → str.data = some address → ∃ block, scope.heap.blocks address = some block := by
  intro address allocated data
  have shown := holds.shows x
  cases known : values x with
  | none =>
      rw [known] at shown
      rw [show scope.vars x = none from shown] at var
      cases var
  | some text =>
      rw [known] at shown
      cases text with
      | own bytes =>
          rcases shown.1 with ⟨null, _⟩ | ⟨found, block, same, inside, _⟩
          · rw [null] at var
            cases var
            cases allocated
          · rw [same] at var
            cases var
            cases data
            exact ⟨block, inside⟩
      | view owner =>
          obtain ⟨source, bytes, _, _, view⟩ := shown
          rw [view] at var
          cases var
          cases allocated
      | dangling =>
          obtain ⟨data', len, view⟩ := shown
          rw [view] at var
          cases var
          cases allocated

/-- Giving a variable a new string, or none, keeps the others: what they own is not
what the variable had, and what showed the old string dangles. -/
theorem Scope.Holds.put (holds : scope.Holds values) {heap : Heap (List UInt8)} {str : Option WebappStr}
    {bytes : Option (List UInt8)}
    (kept : ∀ address block, scope.heap.blocks address = some block →
      (∀ n, scope.vars x ≠ some ⟨some address, n, true⟩) → heap.blocks address = some block)
    (shown : ∀ values', (scope.bind heap x str).Shows values' x (bytes.map .own))
    (unique : ∀ y address n k, y ≠ x → str = some ⟨some address, n, true⟩ →
      scope.vars y ≠ some ⟨some address, k, true⟩)
    (owned : ∀ address block, heap.blocks address = some block →
      (∃ n, str = some ⟨some address, n, true⟩) ∨ ∃ y n, y ≠ x ∧ scope.vars y = some ⟨some address, n, true⟩) :
    (scope.bind heap x str).Holds (values.put x bytes) := by
  refine ⟨?_, ?_, ?_⟩
  · intro y
    by_cases same : y = x
    · subst same
      rw [Values.put_self]
      exact shown _
    · have before := holds.shows y
      rw [Values.put_other values bytes same]
      split
      · rename_i view
        rw [view] at before
        obtain ⟨source, _, _, _, shows⟩ := before
        exact ⟨source.data, source.len, by rw [Scope.bind_other _ _ _ same, shows]⟩
      · rename_i elsewhere
        cases known : values y with
        | none =>
            rw [known] at before
            exact (Scope.bind_other _ _ _ same).trans before
        | some text =>
            rw [known] at before
            cases text with
            | own bytes =>
                refine ⟨?_, before.2⟩
                rcases before.1 with ⟨null, empty⟩ | ⟨address, block, var, found, begins⟩
                · exact Or.inl ⟨by rw [Scope.bind_other _ _ _ same, null], empty⟩
                · refine Or.inr ⟨address, block, by rw [Scope.bind_other _ _ _ same, var], kept _ _ found ?_, begins⟩
                  intro n mine
                  exact same (holds.unique y x address _ n var mine)
            | view owner =>
                obtain ⟨source, text, var, own, shows⟩ := before
                have apart : owner ≠ x := by
                  intro here
                  exact elsewhere (by rw [known, here])
                refine ⟨source, text, by rw [Scope.bind_other _ _ _ apart, var], ?_, by rw [Scope.bind_other _ _ _ same, shows]⟩
                rw [Values.put_other values _ apart, own, if_neg (by simp)]
            | dangling =>
                obtain ⟨data, len, shows⟩ := before
                exact ⟨data, len, by rw [Scope.bind_other _ _ _ same, shows]⟩
  · intro y z address n k first second
    by_cases yx : y = x
    · by_cases zx : z = x
      · rw [yx, zx]
      · rw [yx, Scope.bind_self] at first
        rw [Scope.bind_other _ _ _ zx] at second
        exact absurd second (unique z address n k zx first)
    · by_cases zx : z = x
      · rw [zx, Scope.bind_self] at second
        rw [Scope.bind_other _ _ _ yx] at first
        exact absurd first (unique y address k n yx second)
      · rw [Scope.bind_other _ _ _ yx] at first
        rw [Scope.bind_other _ _ _ zx] at second
        exact holds.unique y z address n k first second
  · intro address block found
    rcases owned address block found with ⟨n, mine⟩ | ⟨y, n, other, theirs⟩
    · exact ⟨x, n, by rw [Scope.bind_self, mine]⟩
    · exact ⟨y, n, by rw [Scope.bind_other _ _ _ other, theirs]⟩

theorem Scope.Holds.unbound (holds : scope.Holds values) (free : values x = none) : scope.vars x = none := by
  have shown := holds.shows x
  rwa [free] at shown

theorem Scope.Holds.bound (holds : scope.Holds values) (known : values x ≠ none) : ∃ str, scope.vars x = some str := by
  have shown := holds.shows x
  cases found : values x with
  | none => exact absurd found known
  | some text =>
      rw [found] at shown
      cases text with
      | own bytes =>
          obtain ⟨str, var, _⟩ := shown.1.chars
          exact ⟨str, var⟩
      | view owner =>
          obtain ⟨_, _, _, _, var⟩ := shown
          exact ⟨_, var⟩
      | dangling =>
          obtain ⟨_, _, var⟩ := shown
          exact ⟨_, var⟩

theorem Scope.owns_hold {heap : Heap (List UInt8)} {bytes block : List UInt8} {address : Nat}
    (found : heap.blocks address = some block) (begins : bytes <+: block) (short : Values.short bytes)
    (values : Values) :
    (scope.bind heap x (some ⟨some address, bytes.length, true⟩)).Shows values x ((some bytes).map .own) :=
  ⟨Or.inr ⟨address, block, bind_self .., found, begins⟩, short⟩

theorem Scope.Holds.default (holds : scope.Holds values) (free : values x = none) :
    (scope.bind scope.heap x (some ⟨none, 0, false⟩)).Holds (values.put x (some [])) := by
  have unbound := holds.unbound free
  refine holds.put (fun _ _ found _ => found) ?_ (by simp) ?_
  · intro values'
    exact ⟨Or.inl ⟨bind_self .., rfl⟩, by simp [Values.short]⟩
  · intro address block found
    obtain ⟨y, n, var⟩ := holds.owned address block found
    refine Or.inr ⟨y, n, ?_, var⟩
    intro same
    rw [same, unbound] at var
    cases var

theorem Scope.Holds.construct (holds : scope.Holds values) (free : values x = none) {bytes s : List UInt8} {size : Int}
    (short : Values.short bytes) (positive : 0 ≤ size) (begins : bytes <+: s.take size.toNat) :
    ∃ next, scope.construct x s bytes.length size = some next ∧ next.Holds (values.put x (some bytes)) := by
  have unbound := holds.unbound free
  refine ⟨_, if_pos ⟨unbound, positive⟩, ?_⟩
  refine holds.put (fun _ _ found _ => Heap.allocate_found found) ?_ ?_ ?_
  · exact fun values' => owns_hold (Heap.allocate_next ..) begins short values'
  · intro y address n k other mine theirs
    cases mine
    obtain ⟨block, found⟩ := holds.live theirs _ rfl rfl
    exact Heap.ne_next found rfl
  · intro address block found
    by_cases new : address = scope.heap.next
    · exact Or.inl ⟨_, by rw [new]⟩
    · rw [Heap.allocate_other _ _ new] at found
      obtain ⟨y, n, var⟩ := holds.owned address block found
      refine Or.inr ⟨y, n, ?_, var⟩
      intro same
      rw [same, unbound] at var
      cases var

theorem WebappStr.released_other {str : WebappStr} {address : Nat}
    (other : ∀ n, some str ≠ some ⟨some address, n, true⟩) : ¬ (str.allocated = true ∧ str.data = some address) := by
  intro mine
  obtain ⟨data, len, allocated⟩ := str
  obtain ⟨rfl, rfl⟩ := mine
  exact other len rfl

theorem WebappStr.released_mine {str : WebappStr} {address : Nat} {n : Int}
    (mine : some str = some ⟨some address, n, true⟩) : str.allocated = true ∧ str.data = some address := by
  cases mine
  exact ⟨rfl, rfl⟩

theorem Scope.Holds.replace (holds : scope.Holds values) {str : WebappStr} (var : scope.vars x = some str)
    {bytes block : List UInt8} (short : Values.short bytes) (begins : bytes <+: block) :
    ∃ next, scope.replace x str block bytes.length = some next ∧ next.Holds (values.put x (some bytes)) := by
  have live : ∀ address, str.allocated = true → str.data = some address →
      ∃ found, (scope.heap.allocate block).blocks address = some found := by
    intro address allocated data
    obtain ⟨found, inside⟩ := holds.live var address allocated data
    exact ⟨found, Heap.allocate_found inside⟩
  obtain ⟨after, released, blocks⟩ := str.release_spec live
  have own_next : ¬ (str.allocated = true ∧ str.data = some scope.heap.next) := by
    intro mine
    obtain ⟨found, inside⟩ := holds.live var _ mine.1 mine.2
    exact Heap.ne_next inside rfl
  refine ⟨_, by rw [Scope.replace, released]; rfl, ?_⟩
  refine holds.put ?_ ?_ ?_ ?_
  · intro address found inside other
    rw [var] at other
    rw [blocks, if_neg (WebappStr.released_other other)]
    exact Heap.allocate_found inside
  · refine fun values' => owns_hold ?_ begins short values'
    rw [blocks, if_neg own_next, Heap.allocate_next]
  · intro y address n k other mine theirs
    cases mine
    obtain ⟨found, inside⟩ := holds.live theirs _ rfl rfl
    exact Heap.ne_next inside rfl
  · intro address found inside
    rw [blocks] at inside
    split at inside
    · cases inside
    · rename_i other
      by_cases new : address = scope.heap.next
      · exact Or.inl ⟨_, by rw [new]⟩
      · rw [Heap.allocate_other _ _ new] at inside
        obtain ⟨y, n, theirs⟩ := holds.owned address found inside
        refine Or.inr ⟨y, n, ?_, theirs⟩
        intro same
        rw [same, var] at theirs
        exact other (WebappStr.released_mine theirs)

theorem Scope.Holds.release (holds : scope.Holds values) {str : WebappStr} (var : scope.vars x = some str) :
    ∃ after, str.release scope.heap = some after ∧
      (∀ address block, scope.heap.blocks address = some block →
        (∀ n, scope.vars x ≠ some ⟨some address, n, true⟩) → after.blocks address = some block) ∧
      ∀ address block, after.blocks address = some block →
        ∃ y n, y ≠ x ∧ scope.vars y = some ⟨some address, n, true⟩ := by
  obtain ⟨after, released, blocks⟩ := str.release_spec (holds.live var)
  refine ⟨after, released, ?_, ?_⟩
  · intro address found inside other
    rw [var] at other
    rw [blocks, if_neg (WebappStr.released_other other), inside]
  · intro address found inside
    rw [blocks] at inside
    split at inside
    · cases inside
    · rename_i other
      obtain ⟨y, n, theirs⟩ := holds.owned address found inside
      refine ⟨y, n, ?_, theirs⟩
      intro same
      rw [same, var] at theirs
      exact other (WebappStr.released_mine theirs)

theorem Scope.Holds.destroy (holds : scope.Holds values) {str : WebappStr} (var : scope.vars x = some str) :
    ∃ after, str.release scope.heap = some after ∧ (scope.bind after x none).Holds (values.put x none) := by
  obtain ⟨after, released, kept, owned⟩ := holds.release var
  refine ⟨after, released, holds.put kept (fun values' => bind_self ..) (by simp) ?_⟩
  exact fun address block found => Or.inr (owned address block found)

/-- `from_number` deletes the old block before it gets the new one. -/
theorem Scope.Holds.renew (holds : scope.Holds values) {str : WebappStr} (var : scope.vars x = some str)
    {bytes block : List UInt8} (short : Values.short bytes) (begins : bytes <+: block) :
    ∃ after, str.release scope.heap = some after ∧
      (scope.bind (after.allocate block) x (some ⟨some after.next, bytes.length, true⟩)).Holds
        (values.put x (some bytes)) := by
  obtain ⟨after, released, kept, owned⟩ := holds.release var
  refine ⟨after, released, holds.put ?_ ?_ ?_ ?_⟩
  · exact fun address found inside other => Heap.allocate_found (kept address found inside other)
  · exact fun values' => owns_hold (Heap.allocate_next ..) begins short values'
  · intro y address n k other mine theirs
    cases mine
    obtain ⟨found, inside⟩ := holds.live theirs _ rfl rfl
    refine Heap.ne_next (kept _ found inside ?_) rfl
    intro n' same
    exact other (holds.unique y x _ _ _ theirs same)
  · intro address found inside
    by_cases new : address = after.next
    · exact Or.inl ⟨_, by rw [new]⟩
    · rw [Heap.allocate_other _ _ new] at inside
      exact Or.inr (owned address found inside)

end

end Webapp.Strings
