import Webapp.Data.Memory

namespace Webapp.Nginx

open Webapp.Data

structure FileRange where
  contents : Memory UInt8
  filePos : Nat
  fileLast : Nat

/-- `ngx_buf_t`: pointers are distances from the beginning of the block they
point into, and `finish` is `end`.  A buffer with a file holds nothing in memory. -/
structure Buf where
  memory : Memory UInt8
  start : Nat
  pos : Nat
  last : Nat
  finish : Nat
  file : Option FileRange

namespace Buf

def content (buf : Buf) : List UInt8 :=
  match buf.file with
  | none => buf.memory.window buf.pos (buf.last - buf.pos)
  | some range => range.contents.window range.filePos (range.fileLast - range.filePos)

/-- `ngx_create_temp_buf` on a block that still holds its old contents. -/
def createTemp (block : Memory UInt8) (size : Nat) : Buf where
  memory := block
  start := 0
  pos := 0
  last := 0
  finish := size
  file := none

def msgpackWrite (buf : Buf) (bytes : List UInt8) : Buf :=
  { buf with
    memory := buf.memory.store buf.last bytes
    last := buf.last + bytes.length }

structure Ordered (buf : Buf) : Prop where
  pos : buf.start ≤ buf.pos
  last : buf.pos ≤ buf.last

theorem writes_last (buf : Buf) (writes : List (List UInt8)) :
    (writes.foldl msgpackWrite buf).last = buf.last + writes.flatten.length := by
  induction writes generalizing buf with
  | nil => simp
  | cons bytes writes ih =>
      rw [List.foldl_cons, ih]
      simp only [msgpackWrite, List.flatten_cons, List.length_append]
      omega

theorem writes_frame (buf : Buf) (writes : List (List UInt8)) :
    (writes.foldl msgpackWrite buf).start = buf.start ∧ (writes.foldl msgpackWrite buf).pos = buf.pos ∧
      (writes.foldl msgpackWrite buf).finish = buf.finish ∧
      (writes.foldl msgpackWrite buf).file = buf.file := by
  induction writes generalizing buf with
  | nil => exact ⟨rfl, rfl, rfl, rfl⟩
  | cons bytes writes ih =>
      obtain ⟨start, pos, finish, file⟩ := ih (buf.msgpackWrite bytes)
      exact ⟨start, pos, finish, file⟩

theorem writes_window (buf : Buf) (writes : List (List UInt8)) {first count : Nat}
    (ends : first + count = buf.last) :
    (writes.foldl msgpackWrite buf).memory.window first (count + writes.flatten.length) =
      buf.memory.window first count ++ writes.flatten := by
  induction writes generalizing buf count with
  | nil => simp
  | cons bytes writes ih =>
      have ended : first + (count + bytes.length) = (buf.msgpackWrite bytes).last := by
        simp only [msgpackWrite]
        omega
      have later := ih (buf.msgpackWrite bytes) ended
      have here : (buf.msgpackWrite bytes).memory.window first (count + bytes.length) =
          buf.memory.window first count ++ bytes := by
        simp only [msgpackWrite, ← ends]
        exact Memory.window_store_append _ _ _ _
      rw [here] at later
      simpa only [List.foldl_cons, List.flatten_cons, List.length_append, List.append_assoc,
        Nat.add_assoc] using later

end Buf

end Webapp.Nginx
