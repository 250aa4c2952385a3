import Webapp.Data.Runs
import Webapp.Strings.Values

namespace Webapp.Scripts

open Webapp.Data Webapp.Strings

/-! The loop of `Webapp::Start`.  In each cycle a worker of the main thread compiles
`init.lua`, runs it and empties its entry in the map of scripts; then the workers that
`init.lua` created do the same, each in a thread of its own, and run their scripts.  The
map has a lock, but what is done with an entry after it was found is done without it.
-/

/-- What `lua_dump` hands to `lua_writer`: a header at least. -/
structure Bytecode where
  chunks : List (List UInt8)
  nonempty : chunks.flatten ≠ []
  short : chunks.flatten.length < 2147483648

structure WorkerInit where
  script : String
  isInit : Bool
  clientSockets : Bool
deriving DecidableEq, Repr

/-- `WorkerInit init;` for the worker of the main thread. -/
def WorkerInit.default : WorkerInit := ⟨"", true, false⟩

/-- The file of the two calls of `RunScript`. -/
def WorkerInit.file (init : WorkerInit) (own : Bool) : String := if own then init.script else "init.lua"

/-- Where a thread is in `Worker::Execute`.  `RunScript` goes from `find` to `running`,
`*init = webapp_str_t()` from `newBlock` to `storeAllocated`. -/
inductive Stage where
  | created
  | compileInit
  | compileScript
  | find (own : Bool)
  | load (own : Bool)
  | read (own : Bool) (data : Option Nat) (len : Int)
  | running (own : Bool)
  | newBlock
  | readOld (r : Nat)
  | deleteOld (r : Nat) (old : Option Nat)
  | storeData (r : Nat)
  | storeLen
  | storeAllocated
  | finished
deriving DecidableEq, Repr

namespace Stage

/-- `RunScript` returns. -/
def afterRun (own : Bool) : Stage := if own then finished else newBlock

/-- `Cleanup` returns, in the main thread to `Webapp::Start`. -/
def afterCleanup (i : Nat) : Stage := if i = 0 then finished else find true

def isRunning : Stage → Bool
  | running _ => true
  | _ => false

end Stage

/-- What was given to `luaL_loadbuffer`. -/
structure Load where
  worker : Nat
  own : Bool
  file : String
  code : List UInt8
deriving DecidableEq, Repr

inductive Ending where
  /-- A block was used or deleted that had been deleted. -/
  | undefined
  /-- `std::terminate`, when a `std::thread` is destroyed that was not joined. -/
  | terminated
  /-- `Webapp::Start` has returned. -/
  | stopped
deriving DecidableEq, Repr

/-- Worker 0 is that of the main thread.  `compiled` has the keys of `scripts`, with what
was written to them. -/
structure App where
  files : String → Option Bytecode
  heap : Heap (List UInt8)
  scripts : String → Option WebappStr
  compiled : List (String × List UInt8)
  workers : List WorkerInit
  aborted : Bool
  stage : Nat → Stage
  loaded : List Load
  ended : Option Ending

inductive AppEvent where
  /-- A script is changed on the disk; `none` for one that does not compile. -/
  | edit (file : String) (code : Option Bytecode)
  /-- `init.lua` calls `Worker_Create`. -/
  | create (init : WorkerInit)
  /-- `workers.Start()` -/
  | start (i : Nat)
  /-- A running script calls `CompileScript`. -/
  | compile (i : Nat) (file : String)
  /-- A running script calls `Worker_Shutdown`. -/
  | shutdown (i : Nat)
  | advance (i : Nat)
  /-- `workers.Clear()`, `scripts.clear()` and `while(!aborted)`. -/
  | cycle

/-- `lua_writer`: `*dest += src`. -/
def luaWriter (memory : Heap (List UInt8) × WebappStr) (chunk : List UInt8) : Option (Heap (List UInt8) × WebappStr) :=
  let sz := int32 chunk.length
  if 0 < sz then do
    let newlen := int32 (memory.2.len + sz)
    let chars ← memory.2.chars memory.1
    if 0 ≤ newlen then
      let after ← memory.2.release (memory.1.allocate (chars ++ chunk))
      some (after, ⟨some memory.1.next, newlen, true⟩)
    else none
  else some memory

namespace App

def begin (files : String → Option Bytecode) (heap : Heap (List UInt8)) : App where
  files := files
  heap := heap
  scripts := fun _ => none
  compiled := []
  workers := [WorkerInit.default]
  aborted := false
  stage := Function.update (fun _ => .created) 0 .compileInit
  loaded := []
  ended := none

def goto (app : App) (i : Nat) (stage : Stage) : App := { app with stage := Function.update app.stage i stage }

def endWith (app : App) (ending : Ending) : App := { app with ended := some ending }

/-- `scripts.emplace` and `lua_dump`. -/
def emplace (app : App) (file : String) (code : Bytecode) (memory : Heap (List UInt8) × WebappStr) : App :=
  { app with
    heap := memory.1
    scripts := Function.update app.scripts file (some memory.2)
    compiled := app.compiled ++ [(file, code.chunks.flatten)] }

/-- `Worker::CompileScript`, all of it under the lock of the map; whether it returns a
pointer is part of the result. -/
def compileScript (app : App) (file : String) : Option (App × Bool) :=
  match app.scripts file with
  | some _ => some (app, true)
  | none =>
      match app.files file with
      | none => some (app, false)
      | some code =>
          (code.chunks.foldlM luaWriter (app.heap, ⟨none, 0, false⟩)).map fun memory =>
            (app.emplace file code memory, true)

def withEntry (app : App) (entry : WebappStr) : App :=
  { app with scripts := Function.update app.scripts "init.lua" (some entry) }

/-- A store to a member of the entry that `init` points to. -/
def store (app : App) (change : WebappStr → WebappStr) : Option App :=
  (app.scripts "init.lua").map fun entry => app.withEntry (change entry)

def advance (app : App) (i : Nat) (init : WorkerInit) : Option App :=
  match app.stage i with
  | .created | .finished => none
  | .compileInit =>
      some ((app.compileScript "init.lua").elim (app.endWith .undefined) fun result =>
        result.1.goto i (if result.2 then .compileScript else .afterCleanup i))
  | .compileScript =>
      some ((app.compileScript init.script).elim (app.endWith .undefined) fun result =>
        result.1.goto i (if init.isInit then .find false else .newBlock))
  | .find own => some (app.goto i (if (app.scripts (init.file own)).isSome then .load own else .afterRun own))
  | .load own => (app.scripts (init.file own)).map fun entry => app.goto i (.read own entry.data entry.len)
  | .read own data len =>
      some ((WebappStr.chars app.heap ⟨data, len, false⟩).elim (app.endWith .undefined) fun code =>
        { app.goto i (.running own) with loaded := app.loaded ++ [⟨i, own, init.file own, code⟩] })
  | .running own => some (app.goto i (.afterRun own))
  | .newBlock => some ({ app with heap := app.heap.allocate [] }.goto i (.readOld app.heap.next))
  | .readOld r =>
      (app.scripts "init.lua").map fun entry => app.goto i (.deleteOld r (if entry.allocated then entry.data else none))
  | .deleteOld r old =>
      some ((old.elim (some app.heap) app.heap.free).elim (app.endWith .undefined) fun heap =>
        { app with heap := heap }.goto i (.storeData r))
  | .storeData r => (app.store fun entry => { entry with data := some r }).map fun next => next.goto i .storeLen
  | .storeLen => (app.store fun entry => { entry with len := 0 }).map fun next => next.goto i .storeAllocated
  | .storeAllocated =>
      (app.store fun entry => { entry with allocated := true }).map fun next => next.goto i (.afterCleanup i)

/-- `scripts.clear()` -/
def clear (app : App) : Option (Heap (List UInt8)) :=
  app.compiled.foldlM (fun heap entry => (app.scripts entry.1).elim (some heap) fun script => script.release heap) app.heap

/-- The loop ends, with no script and no worker left. -/
def stop (app : App) (heap : Heap (List UInt8)) : App :=
  { (begin app.files heap).goto 0 .finished with aborted := true, ended := some .stopped }

/-- A worker with client sockets is deleted with its `client_socket_thread` still
running: `Worker::Stop` joins only the other two. -/
def nextCycle (app : App) : App :=
  if app.workers.any WorkerInit.clientSockets then app.endWith .terminated
  else app.clear.elim (app.endWith .undefined) fun heap =>
    if app.aborted then app.stop heap else begin app.files heap

def step (app : App) (event : AppEvent) : Option App :=
  if app.ended ≠ none then none
  else
    match event with
    | .edit file code => some { app with files := Function.update app.files file code }
    | .create init =>
        if app.stage 0 = .running false then some { app with workers := app.workers ++ [init] } else none
    | .start i =>
        if 0 < i ∧ i < app.workers.length ∧ app.stage i = .created ∧ app.stage 0 = .finished then
          some (app.goto i .compileInit)
        else none
    | .compile i file =>
        if i < app.workers.length ∧ (app.stage i).isRunning then
          some ((app.compileScript file).elim (app.endWith .undefined) Prod.fst)
        else none
    | .shutdown i =>
        if i < app.workers.length ∧ (app.stage i).isRunning then some { app with aborted := true } else none
    | .advance i => app.workers[i]?.bind (app.advance i)
    | .cycle => if ∀ i < app.workers.length, app.stage i = .finished then some app.nextCycle else none

end App

end Webapp.Scripts
