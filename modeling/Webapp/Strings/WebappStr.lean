import Webapp.Data.Heap
import Webapp.Data.Words
import Webapp.Session.Store

namespace Webapp.Strings

open Webapp.Data Webapp.Session

/-! `webapp_str_t`: strings that own their characters, and strings made from a pointer
to another one, which only refer to its characters.
-/

structure WebappStr where
  data : Option Nat
  len : Int
  allocated : Bool
deriving DecidableEq, Repr

/-- The variables that hold a string, and the blocks of their characters. -/
structure Scope where
  heap : Heap (List UInt8)
  vars : Nat → Option WebappStr

/-- The constructors name the variable that they construct first. -/
inductive StringOp where
  | default (x : Nat)
  | chars (x : Nat) (s : List UInt8)
  /-- `webapp_str_t(int32_t)`, with what happens to be in the memory. -/
  | sized (x : Nat) (memory : List UInt8)
  | cstring (x : Nat) (s : List UInt8)
  | pointer (x other : Nat)
  | copy (x other : Nat)
  | append (x other : Nat)
  | assign (x other : Nat)
  | plus (x lhs rhs : Nat)
  | fromNumber (x : Nat) (num : Int)
  | toLower (x : Nat)
  | destroy (x : Nat)
deriving DecidableEq, Repr

/-- `memcpy` of the characters of a string; nothing is read through a null pointer,
from a deleted block or behind the end of a block. -/
def WebappStr.chars (heap : Heap (List UInt8)) (str : WebappStr) : Option (List UInt8) :=
  if str.len = 0 then some []
  else (str.data.bind heap.blocks).bind fun block =>
    if 0 < str.len ∧ str.len.toNat ≤ block.length then some (block.take str.len.toNat) else none

/-- `if(allocated) delete[] data;` -/
def WebappStr.release (heap : Heap (List UInt8)) (str : WebappStr) : Option (Heap (List UInt8)) :=
  if str.allocated then
    match str.data with
    | some address => heap.free address
    | none => some heap
  else some heap

namespace Scope

def empty : Scope := ⟨Heap.empty, fun _ => none⟩

def bind (scope : Scope) (heap : Heap (List UInt8)) (x : Nat) (str : Option WebappStr) : Scope :=
  ⟨heap, Function.update scope.vars x str⟩

/-- A variable that owns the block which was allocated last. -/
def hold (scope : Scope) (heap : Heap (List UInt8)) (x : Nat) (len : Int) : Scope :=
  scope.bind heap x (some ⟨some scope.heap.next, len, true⟩)

/-- A constructor that copies `size` characters to a block of its own; a negative size
throws. -/
def construct (scope : Scope) (x : Nat) (s : List UInt8) (len size : Int) : Option Scope :=
  if scope.vars x = none ∧ 0 ≤ size then some (scope.hold (scope.heap.allocate (s.take size.toNat)) x len) else none

/-- `operator+=` and `operator=` get their new block before they delete the old one. -/
def replace (scope : Scope) (x : Nat) (str : WebappStr) (block : List UInt8) (len : Int) : Option Scope :=
  (str.release (scope.heap.allocate block)).map fun heap => scope.hold heap x len

def appendChars (scope : Scope) (x : Nat) (other : WebappStr) : Option Scope := do
  let str ← scope.vars x
  if 0 < other.len then
    let newlen := int32 (str.len + other.len)
    let first ← str.chars scope.heap
    let second ← other.chars scope.heap
    if 0 ≤ newlen then scope.replace x str (first ++ second) newlen else none
  else some scope

def step (lower : UInt8 → UInt8) (scope : Scope) : StringOp → Option Scope
  | .default x =>
      if scope.vars x = none then some (scope.bind scope.heap x (some ⟨none, 0, false⟩)) else none
  | .chars x s => scope.construct x s (int32 s.length) (int32 s.length)
  | .sized x memory => scope.construct x memory (int32 memory.length) (int32 memory.length)
  | .cstring x s => scope.construct x (s ++ [0]) (int32 s.length) (int32 s.length + 1)
  | .pointer x other => do
      let str ← scope.vars other
      if scope.vars x = none then some (scope.bind scope.heap x (some { str with allocated := false })) else none
  | .copy x other => do
      let str ← scope.vars other
      let chars ← str.chars scope.heap
      scope.construct x chars str.len str.len
  | .append x other => (scope.vars other).bind (scope.appendChars x)
  | .assign x other =>
      if x = other then some scope
      else do
        let str ← scope.vars x
        let source ← scope.vars other
        let chars ← source.chars scope.heap
        scope.replace x str chars source.len
  | .plus x lhs rhs => do
      let first ← scope.vars lhs
      let second ← scope.vars rhs
      let chars ← first.chars scope.heap
      let copied ← scope.construct x chars first.len first.len
      copied.appendChars x second
  | .fromNumber x num => do
      let str ← scope.vars x
      let heap ← str.release scope.heap
      let text := fromNumber num
      some (scope.bind (heap.allocate (text ++ List.replicate (21 - text.length) 0)) x
        (some ⟨some heap.next, text.length, true⟩))
  | .toLower x => do
      let str ← scope.vars x
      let chars ← str.chars scope.heap
      match str.data with
      | none => some scope
      | some address => do
          let block ← scope.heap.blocks address
          let heap ← scope.heap.write address (chars.map lower ++ block.drop chars.length)
          some { scope with heap := heap }
  | .destroy x => do
      let str ← scope.vars x
      let heap ← str.release scope.heap
      some (scope.bind heap x none)

@[simp] theorem bind_self (scope : Scope) (heap : Heap (List UInt8)) (x : Nat) (str : Option WebappStr) :
    (scope.bind heap x str).vars x = str := Function.update_self ..

theorem bind_other (scope : Scope) (heap : Heap (List UInt8)) {x y : Nat} (str : Option WebappStr) (other : y ≠ x) :
    (scope.bind heap x str).vars y = scope.vars y := Function.update_of_ne other ..

@[simp] theorem bind_heap (scope : Scope) (heap : Heap (List UInt8)) (x : Nat) (str : Option WebappStr) :
    (scope.bind heap x str).heap = heap := rfl

end Scope

end Webapp.Strings
