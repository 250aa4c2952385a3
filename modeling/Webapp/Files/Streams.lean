import Webapp.Data.Runs
import Webapp.Data.Words

namespace Webapp.Files

open Webapp.Data

/-! The class `File` over the streams of the C library.  A stream belongs to one
`File` at most, so that the object holds it in place of the pointer.
-/

structure Stream where
  contents : List UInt8
  position : Nat
  reads : Bool
  writes : Bool
  appends : Bool
deriving DecidableEq, Repr

namespace Stream

/-- `fseek` with the offset 0.  `SEEK_CUR` stays, and so does a whence that is
refused. -/
def fseek (stream : Stream) (whence : Int) : Stream :=
  if whence = 0 then { stream with position := 0 }
  else if whence = 2 then { stream with position := stream.contents.length }
  else stream

def fread (stream : Stream) (count : Nat) : List UInt8 × Stream :=
  if stream.reads then
    let bytes := (stream.contents.drop stream.position).take count
    (bytes, { stream with position := stream.position + bytes.length })
  else ([], stream)

/-- Bytes written behind the end leave zeros before them. -/
def overwrite (contents bytes : List UInt8) (position : Nat) : List UInt8 :=
  contents.take position ++ List.replicate (position - contents.length) 0 ++ bytes ++
    contents.drop (position + bytes.length)

def fwrite (stream : Stream) (bytes : List UInt8) : Stream :=
  if stream.writes = true ∧ bytes ≠ [] then
    let position := if stream.appends then stream.contents.length else stream.position
    { stream with
      contents := overwrite stream.contents bytes position
      position := position + bytes.length }
  else stream

end Stream

structure File where
  fileName : List UInt8
  flags : List UInt8
  buffer : List UInt8
  pszFile : Option Stream
  size : Int
  refresh : Bool
deriving DecidableEq, Repr

def File.new : File :=
  { fileName := [], flags := [0, 0], buffer := [], pszFile := none, size := 0, refresh := true }

/-- `File::Size`.  Here and below `none` is a stream function called with a null
pointer. -/
def fileSize (file : File) : Option (Int × File) :=
  if file.refresh then do
    let stream ← file.pszFile
    let old := int32 stream.position
    let stream := stream.fseek 2
    let size : Int := stream.position
    -- the old position is passed as the whence
    let stream := stream.fseek old
    some (size, { file with pszFile := some stream, size := size, refresh := false })
  else some (file.size, file)

/-- `File::Open`, given what `fopen` returned. -/
def fileOpen (file : File) (fileName flags : List UInt8) (tmpFile : Option Stream) : Option (Int × File) := do
  let file := match tmpFile with
    | some stream => { file with fileName := fileName, flags := flags, pszFile := some stream }
    | none => file
  let (_, file) ← fileSize file
  some (if tmpFile.isSome then 1 else 0, file)

/-- `File::Read`.  The count is `none` where `new` throws. -/
def fileRead (file : File) (nBytes : Int) : Option (Option Int × File) := do
  let (size, file) ← fileSize file
  let toRead := int16 (if size < nBytes then size else nBytes)
  let stream ← file.pszFile
  -- rewind
  let stream := stream.fseek 0
  if toRead < 0 then some (none, { file with pszFile := some stream })
  else
    let (buffer, stream) := stream.fread toRead.toNat
    some (some (int16 buffer.length), { file with pszFile := some stream, buffer := buffer })

def fileWrite (file : File) (bytes : List UInt8) : File :=
  { file with pszFile := file.pszFile.map fun stream => stream.fwrite bytes }

def fileRefresh (file : File) : File := { file with refresh := true }

def fileClose (file : File) : File := { file with pszFile := none }

def fileDetach (file : File) : Option Stream × File := (file.pszFile, { file with pszFile := none })

inductive Operation where
  | open (fileName flags : List UInt8) (tmpFile : Option Stream)
  | read (nBytes : Int)
  | write (bytes : List UInt8)
  | size
  | refresh
  | close
  | detach
  | destroy
deriving DecidableEq, Repr

/-- The destructor closes what is open, as `File::Close` does. -/
def operate (file : File) : Operation → Option File
  | .open fileName flags tmpFile => (fileOpen file fileName flags tmpFile).map Prod.snd
  | .read nBytes => (fileRead file nBytes).map Prod.snd
  | .write bytes => some (fileWrite file bytes)
  | .size => (fileSize file).map Prod.snd
  | .refresh => some (fileRefresh file)
  | .close => some (fileClose file)
  | .detach => some (fileDetach file).2
  | .destroy => some (fileClose file)

/-- Where `fileSize` leaves a stream whose size it takes. -/
def Stream.measured (stream : Stream) : Stream :=
  { stream with position := if int32 stream.position = 0 then 0 else stream.contents.length }

section

variable {file : File} {stream : Stream}

theorem fileSize_cached (cached : file.refresh = false) : fileSize file = some (file.size, file) := by
  simp only [fileSize, cached, Bool.false_eq_true, if_false]

theorem fileSize_missing (stale : file.refresh = true) (missing : file.pszFile = none) : fileSize file = none := by
  simp only [fileSize, stale, missing, if_true, Option.bind_eq_bind, Option.bind_none]

theorem fileSize_stale (stale : file.refresh = true) (given : file.pszFile = some stream) :
    fileSize file = some ((stream.contents.length : Int),
      { file with pszFile := some stream.measured, size := stream.contents.length, refresh := false }) := by
  have ended : (stream.fseek 2).fseek (int32 stream.position) = stream.measured := by
    by_cases zero : int32 stream.position = 0
    · simp [Stream.fseek, Stream.measured, zero]
    · by_cases two : int32 stream.position = 2
      · simp [Stream.fseek, Stream.measured, two]
      · simp [Stream.fseek, Stream.measured, zero, two]
  simp only [fileSize, stale, given, if_true, Option.bind_eq_bind, Option.bind_some, ended]
  rfl

theorem fileOpen_some (fileName flags : List UInt8) :
    fileOpen file fileName flags (some stream) =
      (fileSize { file with fileName := fileName, flags := flags, pszFile := some stream }).map
        fun sized => (1, sized.2) := by
  simp only [fileOpen, Option.isSome_some, if_true]
  cases fileSize { file with fileName := fileName, flags := flags, pszFile := some stream } <;> rfl

theorem fileOpen_none (fileName flags : List UInt8) :
    fileOpen file fileName flags none = (fileSize file).map fun sized => (0, sized.2) := by
  simp only [fileOpen, Option.isSome_none, Bool.false_eq_true, if_false]
  cases fileSize file <;> rfl

/-- The bytes that `fileRead` finds, given the size it was told. -/
theorem fileRead_cached {nBytes : Int} (cached : file.refresh = false) (given : file.pszFile = some stream)
    (reads : stream.reads = true) (known : 0 ≤ file.size) (lower : 0 ≤ nBytes) (upper : nBytes < 32768) :
    fileRead file nBytes =
      some (some ((stream.contents.take (min nBytes file.size).toNat).length : Int),
        { file with
          pszFile := some { stream with position := (stream.contents.take (min nBytes file.size).toNat).length }
          buffer := stream.contents.take (min nBytes file.size).toNat }) := by
  have least : (if file.size < nBytes then file.size else nBytes) = min nBytes file.size := by
    split <;> omega
  have converted : int16 (min nBytes file.size) = min nBytes file.size := int16_of_range (by omega) (by omega)
  have positive : ¬ min nBytes file.size < 0 := by omega
  have short : (stream.contents.take (min nBytes file.size).toNat).length < 32768 := by
    rw [List.length_take]
    omega
  have count := int16_of_range (by omega) (Int.ofNat_lt.mpr short)
  simp only [fileRead, fileSize_cached cached, given, least, converted, if_neg positive, Option.bind_eq_bind,
    Option.bind_some, Stream.fread, Stream.fseek, reads, if_true, List.drop_zero, count, Nat.zero_add]

end

def File.contents (file : File) : List UInt8 := (file.pszFile.map Stream.contents).getD []

/-- The calls of a script that knows only `File_Write`, `File_Read` and `File_Size`. -/
def Operation.Scripted : Operation → Prop
  | .write _ | .size => True
  | .read nBytes => 0 ≤ nBytes ∧ nBytes < 32768
  | _ => False

def Reports (file : File) : Operation → Prop
  | .size => ∃ next, fileSize file = some ((file.contents.length : Int), next)
  | .read nBytes => ∃ next, fileRead file nBytes = some (some (min nBytes file.contents.length), next) ∧
      next.buffer = file.contents.take nBytes.toNat
  | _ => True

/-- For a file of the size `opened` when it was opened and `current` now: the
size is asked for while it is the same, and what is read was there then. -/
def Operation.Within (opened current : Nat) : Operation → Prop
  | .size => current = opened
  | .read nBytes => min nBytes current ≤ (opened : Int)
  | _ => True

/-- A file that is open for reading and whose size was taken when it was opened. -/
structure Cached (opened : Nat) (file : File) : Prop where
  cached : file.refresh = false
  size : file.size = opened
  stream : ∃ stream, file.pszFile = some stream ∧ stream.reads = true

section

variable {opened : Nat} {file : File}

theorem Cached.read {nBytes : Int} (cached : Cached opened file) (lower : 0 ≤ nBytes) (upper : nBytes < 32768) :
    ∃ next, fileRead file nBytes = some (some ((file.contents.take (min nBytes opened).toNat).length : Int), next) ∧
      next.buffer = file.contents.take (min nBytes opened).toNat ∧ Cached opened next := by
  obtain ⟨stream, given, reads⟩ := cached.stream
  have known : 0 ≤ file.size := by
    rw [cached.size]
    exact Int.natCast_nonneg opened
  have found := fileRead_cached cached.cached given reads known lower upper
  have contents : file.contents = stream.contents := by
    rw [File.contents, given]
    rfl
  rw [cached.size] at found
  rw [contents]
  exact ⟨_, found, rfl, cached.cached, rfl, _, rfl, reads⟩

theorem Cached.step {operation : Operation} (cached : Cached opened file) (scripted : operation.Scripted) :
    ∃ next, operate file operation = some next ∧ Cached opened next := by
  cases operation with
  | write bytes =>
      obtain ⟨stream, given, reads⟩ := cached.stream
      refine ⟨_, rfl, cached.cached, cached.size, stream.fwrite bytes, ?_, ?_⟩
      · rw [fileWrite, given]
        rfl
      · rw [Stream.fwrite]
        split <;> exact reads
  | size =>
      refine ⟨file, ?_, cached⟩
      rw [operate, fileSize_cached cached.cached]
      rfl
  | read nBytes =>
      obtain ⟨next, found, _, after⟩ := cached.read scripted.1 scripted.2
      refine ⟨next, ?_, after⟩
      rw [operate, found]
      rfl
  | _ => exact scripted.elim

theorem Cached.reports_iff (cached : Cached opened file) {operation : Operation} (scripted : operation.Scripted) :
    Reports file operation ↔ operation.Within opened file.contents.length := by
  cases operation with
  | size =>
      rw [Reports, Operation.Within, fileSize_cached cached.cached, cached.size]
      simp only [Option.some.injEq, Prod.mk.injEq, exists_and_left, exists_eq', and_true]
      omega
  | read nBytes =>
      obtain ⟨lower, upper⟩ := scripted
      obtain ⟨next, found, buffer, _⟩ := cached.read lower upper
      rw [Reports, Operation.Within, found]
      constructor
      · intro told
        obtain ⟨_, same, _⟩ := told
        simp only [Option.some.injEq, Prod.mk.injEq, List.length_take] at same
        omega
      · intro within
        have taken : file.contents.take (min nBytes opened).toNat = file.contents.take nBytes.toNat := by
          rw [List.take_eq_take_iff]
          omega
        refine ⟨next, ?_, buffer.trans taken⟩
        simp only [Option.some.injEq, Prod.mk.injEq, List.length_take, and_true]
        omega
  | _ => exact Iff.rfl

end

/-- After any calls, the next one tells the truth about the file exactly when it
does not need what was written behind the end since the file was opened. -/
theorem file_reports_iff (fileName flags : List UInt8) (stream : Stream) (calls : List Operation)
    (update : stream.reads = true ∧ stream.writes = true) (scripted : ∀ call ∈ calls, call.Scripted) :
    ∃ opened file, fileOpen File.new fileName flags (some stream) = some (1, opened) ∧
      run operate opened calls = some file ∧
      ∀ call : Operation, call.Scripted →
        (Reports file call ↔ call.Within stream.contents.length file.contents.length) := by
  have opening : ∃ opened, fileOpen File.new fileName flags (some stream) = some (1, opened) ∧
      Cached stream.contents.length opened := by
    rw [fileOpen_some, fileSize_stale rfl rfl, Option.map_some]
    refine ⟨_, rfl, rfl, rfl, stream.measured, rfl, ?_⟩
    rw [Stream.measured, update.1]
  obtain ⟨opened, success, cached⟩ := opening
  obtain ⟨file, ran, last⟩ := run_exists_within cached fun call member _ within =>
    within.step (scripted call member)
  exact ⟨opened, file, success, ran, fun call => last.reports_iff⟩

def updateStream (contents : List UInt8) : Stream :=
  { contents := contents, position := 0, reads := true, writes := true, appends := false }

theorem file_reports_iff_emptyFile :
    ((updateStream []).reads = true ∧ (updateStream []).writes = true) ∧
      ∃ opened file, fileOpen File.new [0x61] [0x77, 0x2b] (some (updateStream [])) = some (1, opened) ∧
        run operate opened [.write [0x61, 0x62, 0x63], .size, .read 3] = some file ∧
        ∀ call : Operation, call.Scripted →
          (Reports file call ↔ call.Within (updateStream []).contents.length file.contents.length) :=
  ⟨by decide, file_reports_iff [0x61] [0x77, 0x2b] (updateStream []) [.write [0x61, 0x62, 0x63], .size, .read 3]
    (by decide) (by simp [Operation.Scripted])⟩

/-- Three bytes are written to an empty file, which then has the size 0 and nothing
to read. -/
theorem file_hides_written :
    (do
      let (_, file) ← fileOpen File.new [0x61] [0x77, 0x2b] (some (updateStream []))
      let file := fileWrite file [0x61, 0x62, 0x63]
      let (size, _) ← fileSize file
      let (nRead, read) ← fileRead file 3
      some (file.contents, size, nRead, read.buffer)) = some ([0x61, 0x62, 0x63], 0, some 0, []) := by
  decide

def Operation.Plain : Operation → Prop
  | .write _ | .refresh | .size => True
  | _ => False

/-- A size is not taken anew, or it is taken at the beginning or at the end. -/
def Restores (file : File) : Operation → Prop
  | .size => file.refresh = true → ∀ stream ∈ file.pszFile, stream.position = 0 ∨
      (int32 stream.position ≠ 0 ∧ stream.position = stream.contents.length)
  | _ => True

theorem Stream.measured_eq_iff (stream : Stream) : stream.measured = stream ↔ stream.position = 0 ∨
    (int32 stream.position ≠ 0 ∧ stream.position = stream.contents.length) := by
  have same : stream.measured = stream ↔ stream.measured.position = stream.position := by
    constructor
    · intro equal
      rw [equal]
    · intro equal
      simp only [Stream.measured] at equal ⊢
      rw [equal]
  rw [same]
  simp only [Stream.measured]
  by_cases zero : int32 stream.position = 0
  · simp only [zero, if_true, ne_eq, not_true_eq_false, false_and, or_false]
    exact eq_comm
  · have moved : stream.position ≠ 0 := by
      intro start
      rw [start] at zero
      exact zero (by decide)
    simp only [zero, if_false, moved, ne_eq, not_false_eq_true, true_and, false_or]
    exact eq_comm

def IsOpen (file : File) : Prop := ∃ stream, file.pszFile = some stream

section

variable {file : File} {operation : Operation}

theorem IsOpen.size (isOpen : IsOpen file) : ∃ sized, fileSize file = some sized ∧ IsOpen sized.2 := by
  obtain ⟨stream, given⟩ := isOpen
  cases stale : file.refresh with
  | false => exact ⟨_, fileSize_cached stale, stream, given⟩
  | true => exact ⟨_, fileSize_stale stale given, stream.measured, rfl⟩

theorem IsOpen.step (isOpen : IsOpen file) (plain : operation.Plain) :
    ∃ next, operate file operation = some next ∧ IsOpen next := by
  cases operation with
  | write bytes =>
      obtain ⟨stream, given⟩ := isOpen
      refine ⟨_, rfl, stream.fwrite bytes, ?_⟩
      rw [fileWrite, given]
      rfl
  | refresh => exact ⟨_, rfl, isOpen⟩
  | size =>
      obtain ⟨sized, found, after⟩ := isOpen.size
      refine ⟨sized.2, ?_, after⟩
      rw [operate, found]
      rfl
  | _ => exact plain.elim

theorem size_keeps_iff (isOpen : IsOpen file) :
    (∀ next ∈ operate file .size, next.pszFile = file.pszFile) ↔ Restores file .size := by
  obtain ⟨stream, given⟩ := isOpen
  rw [Restores, operate, given]
  cases stale : file.refresh with
  | false =>
      rw [fileSize_cached stale]
      simp [given]
  | true =>
      rw [fileSize_stale stale given]
      simp only [Option.map_some, Option.mem_some_iff, forall_eq', Option.some.injEq, true_implies]
      exact stream.measured_eq_iff

end

/-- Size calls can be left out exactly when each of them that seeks does so at the
beginning of the file or at its end. -/
theorem size_unnoticed_iff (file : File) (operations : List Operation) (isOpen : IsOpen file)
    (plain : ∀ operation ∈ operations, operation.Plain) :
    Unnoticed operate File.pszFile (fun operation => operation = .size) file file operations ↔
      Throughout operate Restores file operations := by
  have enabled : ∀ operation ∈ operations, ∀ file, IsOpen file →
      ∃ next, operate file operation = some next ∧ IsOpen next :=
    fun operation member file isOpen => isOpen.step (plain operation member)
  have alike : ∀ operation ∈ operations, decide (operation = .size) = false → ∀ first second next other,
      first.pszFile = second.pszFile → operate first operation = some next →
      operate second operation = some other → next.pszFile = other.pszFile := by
    intro operation member visible first second next other same taken takenOther
    cases operation with
    | write bytes =>
        cases taken
        cases takenOther
        rw [fileWrite, fileWrite, same]
    | refresh =>
        cases taken
        cases takenOther
        exact same
    | size => simp at visible
    | _ => exact (plain _ member).elim
  rw [unnoticed_iff enabled alike isOpen isOpen rfl]
  refine throughout_congr_within isOpen ?_ ?_
  · intro operation member file next within taken
    obtain ⟨other, same, after⟩ := enabled operation member file within
    rw [taken, Option.some.injEq] at same
    rw [same]
    exact after
  · intro operation _ file within
    cases operation with
    | size => simpa using size_keeps_iff within
    | _ => simp [Restores]

def askedAtTwo : File :=
  { File.new with
    pszFile := some { updateStream [0x61, 0x62, 0x63, 0x64] with position := 2 }
    size := 4
    refresh := false }

theorem size_unnoticed_iff_askedAtTwo :
    IsOpen askedAtTwo ∧
      (Unnoticed operate File.pszFile (fun operation => operation = .size) askedAtTwo askedAtTwo
          [.write [0x58], .size, .refresh, .write [0x59], .size] ↔
        Throughout operate Restores askedAtTwo [.write [0x58], .size, .refresh, .write [0x59], .size]) :=
  ⟨⟨_, rfl⟩, size_unnoticed_iff askedAtTwo _ ⟨_, rfl⟩ (by simp [Operation.Plain])⟩

/-- In the middle of a file, asking for its size sends the next bytes to the end. -/
theorem size_moves_position :
    (run operate askedAtTwo [.refresh, .size, .write [0x58]]).map File.pszFile =
        some (some { updateStream [0x61, 0x62, 0x63, 0x64, 0x58] with position := 5 }) ∧
      (run operate askedAtTwo [.refresh, .write [0x58]]).map File.pszFile =
        some (some { updateStream [0x61, 0x62, 0x58, 0x64] with position := 3 }) := by
  decide

/-- A `File` in a sequence of calls, with whether its last `Open` has failed or it was
closed or detached since. -/
structure Tracked where
  file : File
  unopened : Bool
deriving DecidableEq, Repr

def Operation.unopened (before : Bool) : Operation → Bool
  | .open _ _ tmpFile => tmpFile.isNone
  | .close | .detach | .destroy => true
  | .read _ | .write _ | .size | .refresh => before

def Tracked.operate (tracked : Tracked) (operation : Operation) : Option Tracked :=
  (Files.operate tracked.file operation).map fun file => ⟨file, operation.unopened tracked.unopened⟩

/-- The call uses no null pointer, and no stream at all while the file is not open. -/
def Tracked.Spares (tracked : Tracked) (operation : Operation) : Prop :=
  ∃ next, Files.operate tracked.file operation = some next ∧
    (tracked.unopened = true → next.pszFile = tracked.file.pszFile)

/-- The call uses no null pointer; if it opens a file that is not there it returns 0
and changes nothing, and if it reads, writes or takes the size after that, or after a
`Close`, it has no effect on a stream. -/
def Guarded (tracked : Tracked) : Operation → Prop
  | .open fileName flags none => ∃ next, fileOpen tracked.file fileName flags none = some (0, next) ∧
      next.fileName = tracked.file.fileName ∧ next.flags = tracked.file.flags ∧
      next.pszFile.isSome = tracked.file.pszFile.isSome ∧ next.size = tracked.file.size
  | .read nBytes => tracked.Spares (.read nBytes)
  | .write bytes => tracked.Spares (.write bytes)
  | .size => tracked.Spares .size
  | operation => ∃ next, operate tracked.file operation = some next

/-- Where a `Read` leaves the stream: behind what it has found from the beginning on. -/
def readEnd (file : File) (stream : Stream) (nBytes : Int) : Nat :=
  let size : Int := if file.refresh then stream.contents.length else file.size
  if stream.reads then min (int16 (if size < nBytes then size else nBytes)).toNat stream.contents.length else 0

def Available (tracked : Tracked) : Operation → Prop
  | .open _ _ none => tracked.file.refresh = true →
      ∃ stream, tracked.file.pszFile = some stream ∧ (stream.contents.length : Int) = tracked.file.size
  | .read nBytes => ∃ stream, tracked.file.pszFile = some stream ∧
      (tracked.unopened = true → stream.position = readEnd tracked.file stream nBytes)
  | .write bytes => tracked.unopened = true → ∀ stream ∈ tracked.file.pszFile, stream.writes = false ∨ bytes = []
  | .size => (tracked.file.refresh = true → IsOpen tracked.file) ∧
      (tracked.unopened = true → Restores tracked.file .size)
  | _ => True

section

variable {file : File} {stream : Stream} {tracked : Tracked}

theorem not_isOpen_iff : ¬ IsOpen file ↔ file.pszFile = none := by
  rw [IsOpen, Option.eq_none_iff_forall_ne_some]
  exact not_exists

/-- Where the size comes from makes no difference to where `Read` then stands. -/
theorem fileSize_rewound (given : file.pszFile = some stream) :
    ∃ sized measured, fileSize file = some sized ∧ sized.2.pszFile = some measured ∧
      measured.fseek 0 = { stream with position := 0 } ∧
      sized.1 = if file.refresh then (stream.contents.length : Int) else file.size := by
  cases stale : file.refresh with
  | false => exact ⟨_, stream, fileSize_cached stale, given, rfl, rfl⟩
  | true =>
      refine ⟨_, stream.measured, fileSize_stale stale given, rfl, ?_, ?_⟩
      · rw [Stream.fseek, if_pos rfl, Stream.measured]
      · rw [if_pos rfl]

theorem read_leaves (given : file.pszFile = some stream) (nBytes : Int) :
    ∃ next, operate file (.read nBytes) = some next ∧
      next.pszFile = some { stream with position := readEnd file stream nBytes } := by
  obtain ⟨sized, measured, found, here, rewound, size⟩ := fileSize_rewound given
  simp only [operate, fileRead, found, Option.bind_eq_bind, Option.bind_some, here, rewound, size, readEnd]
  generalize int16 _ = toRead
  by_cases negative : toRead < 0
  · refine ⟨_, by rw [if_pos negative]; rfl, ?_⟩
    simp [Int.toNat_of_nonpos (Int.le_of_lt negative)]
  · refine ⟨_, by rw [if_neg negative]; rfl, ?_⟩
    cases reads : stream.reads with
    | false => simp [Stream.fread]
    | true => simp [Stream.fread]

theorem Stream.moved_eq_iff (position : Nat) :
    { stream with position := position } = stream ↔ stream.position = position := by
  obtain ⟨contents, old, reads, writes, appends⟩ := stream
  simp [eq_comm]

/-- A write with bytes leaves the stream behind them. -/
theorem fwrite_eq_iff (bytes : List UInt8) : stream.fwrite bytes = stream ↔ stream.writes = false ∨ bytes = [] := by
  rw [Stream.fwrite]
  split
  · rename_i written
    obtain ⟨writes, some⟩ := written
    simp only [writes, some, Bool.true_eq_false, or_self, iff_false]
    intro same
    have contents := congrArg (fun stream => stream.contents.length) same
    have position := congrArg Stream.position same
    have longer := List.length_pos_iff.mpr some
    -- In front of the end the bytes move the position, behind it they make the file longer.
    simp only [Stream.overwrite, List.length_append, List.length_take, List.length_replicate,
      List.length_drop] at contents position
    cases appends : stream.appends with
    | false =>
        rw [appends] at position
        simp only [Bool.false_eq_true, if_false] at position
        omega
    | true =>
        rw [appends] at contents
        simp only [if_true] at contents
        omega
  · rename_i unwritten
    simp only [true_iff]
    by_contra neither
    simp only [not_or, Bool.not_eq_false] at neither
    exact unwritten neither

theorem open_missing_iff (fileName flags : List UInt8) :
    Guarded tracked (.open fileName flags none) ↔ Available tracked (.open fileName flags none) := by
  rw [Guarded, Available, fileOpen_none]
  cases stale : tracked.file.refresh with
  | false =>
      rw [fileSize_cached stale]
      simp
  | true =>
      cases given : tracked.file.pszFile with
      | none =>
          rw [fileSize_missing stale given]
          simp
      | some stream =>
          rw [fileSize_stale stale given]
          simp

theorem size_guarded_iff : Guarded tracked .size ↔ Available tracked .size := by
  rw [Guarded, Tracked.Spares, Available]
  by_cases isOpen : IsOpen tracked.file
  · obtain ⟨sized, found, _⟩ := isOpen.size
    rw [← size_keeps_iff isOpen, operate, found]
    simp [isOpen]
  · have missing := not_isOpen_iff.mp isOpen
    cases stale : tracked.file.refresh with
    | false => simp [operate, fileSize_cached stale, Restores, stale]
    | true => simp [operate, fileSize_missing stale missing, isOpen]

theorem read_guarded_iff (nBytes : Int) : Guarded tracked (.read nBytes) ↔ Available tracked (.read nBytes) := by
  rw [Guarded, Tracked.Spares, Available]
  cases given : tracked.file.pszFile with
  | some stream =>
      obtain ⟨next, found, left⟩ := read_leaves given nBytes
      rw [found]
      simp [left, Stream.moved_eq_iff]
  | none =>
      have undefined : operate tracked.file (.read nBytes) = none := by
        cases stale : tracked.file.refresh with
        | false => simp [operate, fileRead, fileSize_cached stale, given]
        | true => simp [operate, fileRead, fileSize_missing stale given]
      simp [undefined]

theorem write_guarded_iff (bytes : List UInt8) :
    Guarded tracked (.write bytes) ↔ Available tracked (.write bytes) := by
  rw [Guarded, Tracked.Spares, Available]
  cases given : tracked.file.pszFile with
  | some stream => simp [operate, fileWrite, given, fwrite_eq_iff]
  | none => simp [operate, fileWrite, given]

theorem guarded_iff (operation : Operation) : Guarded tracked operation ↔ Available tracked operation := by
  cases operation with
  | «open» fileName flags tmpFile =>
      cases tmpFile with
      | none => exact open_missing_iff fileName flags
      | some stream =>
          have opened : IsOpen { tracked.file with fileName := fileName, flags := flags, pszFile := some stream } :=
            ⟨stream, rfl⟩
          obtain ⟨sized, found, _⟩ := opened.size
          simp [Guarded, Available, operate, fileOpen_some, found]
  | read nBytes => exact read_guarded_iff nBytes
  | write bytes => exact write_guarded_iff bytes
  | size => exact size_guarded_iff
  | refresh => simp [Guarded, Available, operate]
  | close => simp [Guarded, Available, operate]
  | detach => simp [Guarded, Available, operate]
  | destroy => simp [Guarded, Available, operate]

end

def openedEmpty : File :=
  { File.new with fileName := [0x61], flags := [0x77, 0x2b], pszFile := some (updateStream []), refresh := false }

end Webapp.Files
