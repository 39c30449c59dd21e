import Rulisp.DescriptorTable
import Rulisp.TransitionSystem
import Rulisp.WasiOutput

/-!
# The WASI sandbox

`Wasi` and what its guest reaches: the capped streams, the read-only
directories with their counted descriptors, the budget of host time, and the
calls of the host before, during and after the one run.  What a guest asks
for, what the host's files answer and how long that takes are chosen by the
environment.
-/

namespace Rulisp

namespace Wasi

open DescriptorTable

/-! ## Directories and files -/

inductive FileType
  | unknown
  | blockDevice
  | characterDevice
  | directory
  | regularFile
  | socketDgram
  | socketStream
  | symbolicLink
  | pipe
  deriving DecidableEq, Repr

structure OFlags where
  create : Bool
  directory : Bool
  exclusive : Bool
  truncate : Bool
  deriving DecidableEq, Repr

/-- `intersects(CREATE | TRUNCATE | EXCLUSIVE)`. -/
def OFlags.changes (oflags : OFlags) : Bool :=
  oflags.create || oflags.truncate || oflags.exclusive

structure FdFlags where
  append : Bool
  dsync : Bool
  nonblock : Bool
  rsync : Bool
  sync : Bool
  deriving DecidableEq, Repr

/-- A file or a directory of the host, by its name there. -/
inductive OpenResult
  | file (file : ℕ)
  | dir (dir : ℕ)
  deriving DecidableEq, Repr

/-- The calls of a `WasiDir`. -/
inductive DirCall
  | openFile (symlinkFollow : Bool) (path : String) (oflags : OFlags)
      (read write : Bool) (fdflags : FdFlags)
  | createDir (path : String)
  | readdir (cursor : ℕ)
  | symlink (oldPath newPath : String)
  | removeDir (path : String)
  | unlinkFile (path : String)
  | readLink (path : String)
  | getFilestat
  | getPathFilestat (path : String) (followSymlinks : Bool)
  | rename (path : String) (destDir : ℕ) (destPath : String)
  | hardLink (path : String) (targetDir : ℕ) (targetPath : String)
  | setTimes (path : String) (atime mtime : Option ℕ)
      (followSymlinks : Bool)
  deriving DecidableEq, Repr

/-- The call cannot change the directory. -/
def DirCall.readOnly : DirCall → Bool
  | .openFile _ _ oflags _ write _ => !write && !oflags.changes
  | .readdir _ | .readLink _ | .getFilestat | .getPathFilestat _ _ => true
  | _ => false

inductive DirReply
  | opened (result : OpenResult)
  | entries (names : List String)
  | link (path : String)
  | filestat (filetype : FileType)
  deriving DecidableEq, Repr

/-- What a directory of the host answers. -/
structure DirHost where
  openFile : Bool → String → OFlags → Bool → Bool → FdFlags →
    Except Errno OpenResult
  readdir : ℕ → Except Errno (List String)
  readLink : String → Except Errno String
  getFilestat : Except Errno FileType
  getPathFilestat : String → Bool → Except Errno FileType

/-- The calls of a `WasiFile`. -/
inductive FileCall
  | isatty
  | numReadyBytes
  | getFiletype
  | getFdflags
  | setFdflags (flags : FdFlags)
  | getFilestat
  | advise (offset len : ℕ)
  | readVectored (lengths : List ℕ)
  | readVectoredAt (lengths : List ℕ) (offset : ℕ)
  | seek (offset : ℤ)
  | peek (length : ℕ)
  | readable
  | datasync
  | sync
  | setFilestatSize (size : ℕ)
  | setTimes (atime mtime : Option ℕ)
  | writeVectored (bufs : List Bytes)
  | writeVectoredAt (bufs : List Bytes) (offset : ℕ)
  | writable
  deriving DecidableEq, Repr

/-- The call changes nothing of the file; `setFdflags` is about the descriptor,
and `sync` about what others have written. -/
def FileCall.readOnly : FileCall → Bool
  | .setFilestatSize _ | .setTimes _ _ => false
  | .writeVectored _ | .writeVectoredAt _ _ => false
  | _ => true

/-- `CountedFile` passes the call on; the rest are the trait's defaults. -/
def FileCall.delegated : FileCall → Bool
  | .isatty | .numReadyBytes | .getFiletype | .getFdflags => true
  | .setFdflags _ | .getFilestat | .advise _ _ => true
  | .readVectored _ | .readVectoredAt _ _ | .seek _ => true
  | .peek _ | .readable => true
  | _ => false

/-! ## Counted descriptors -/

/-- Descriptors a guest may hold open at once, all preopens together. -/
def OPEN_DESCRIPTORS : ℕ := 256

/-- `fetch_sub` of an `AtomicUsize`, which wraps. -/
def release (live : ℕ) : ℕ := if live = 0 then 2 ^ 64 - 1 else live - 1

/-- `Slot::take`: the count afterwards, and whether there is a slot. -/
def Slot.take (live : ℕ) : ℕ × Except Errno Unit :=
  if OPEN_DESCRIPTORS ≤ live then (release (live + 1), .error .mfile)
  else (live + 1, .ok ())

/-- A call that reached the host, and what an open of it returned. -/
structure DirAsk where
  call : DirCall
  opened : Option OpenResult
  deriving DecidableEq, Repr

structure DirOutcome where
  asked : List DirAsk
  live : ℕ
  answer : Except Errno DirReply

section Directories

variable (host : DirHost) (live : ℕ)

/-- `ReadOnlyDir::open_file`. -/
def ReadOnlyDir.openFile (symlinkFollow : Bool) (path : String)
    (oflags : OFlags) (read write : Bool) (fdflags : FdFlags) :
    DirOutcome :=
  if write || oflags.changes then ⟨[], live, .error .rofs⟩
  else
    let stat : DirAsk := ⟨.getPathFilestat path symlinkFollow, none⟩
    match host.getPathFilestat path symlinkFollow with
    | .error e => ⟨[stat], live, .error e⟩
    | .ok kind =>
        if kind = .regularFile ∨ kind = .directory ∨ kind = .symbolicLink then
          match Slot.take live with
          | (live, .error e) => ⟨[stat], live, .error e⟩
          | (live, .ok ()) =>
              let call :=
                DirCall.openFile symlinkFollow path oflags read false fdflags
              match host.openFile symlinkFollow path oflags read false
                  fdflags with
              -- the slot is dropped on the way out
              | .error e => ⟨[stat, ⟨call, none⟩], release live, .error e⟩
              | .ok result =>
                  ⟨[stat, ⟨call, some result⟩], live, .ok (.opened result)⟩
        else ⟨[stat], live, .error .acces⟩

/-- The calls of a `ReadOnlyDir`. -/
def ReadOnlyDir.call (call : DirCall) : DirOutcome :=
  match call with
  | .openFile symlinkFollow path oflags read write fdflags =>
      ReadOnlyDir.openFile host live symlinkFollow path oflags read write
        fdflags
  | .readdir cursor =>
      ⟨[⟨call, none⟩], live, (host.readdir cursor).map .entries⟩
  | .readLink path =>
      ⟨[⟨call, none⟩], live, (host.readLink path).map .link⟩
  | .getFilestat => ⟨[⟨call, none⟩], live, host.getFilestat.map .filestat⟩
  | .getPathFilestat path followSymlinks =>
      ⟨[⟨call, none⟩], live,
        (host.getPathFilestat path followSymlinks).map .filestat⟩
  | _ => ⟨[], live, .error .rofs⟩

end Directories

/-! ## Host time -/

/-- The largest `Duration`, in nanoseconds. -/
def Duration.max : ℕ := (2 ^ 64 - 1) * 10 ^ 9 + 999999999

/-- Times are in nanoseconds. -/
structure HostTime where
  budget : ℕ
  spent : ℕ
  entered : Option ℕ
  deriving DecidableEq, Repr

/-- `HostTime::for_fuel`. -/
def HostTime.forFuel (fuel : ℕ) : HostTime where
  budget := min Duration.max (10 ^ 9 + fuel * 1000)
  spent := 0
  entered := none

/-- The hook of `CallingHost`. -/
def HostTime.callingHost (time : HostTime) (now : ℕ) : HostTime :=
  { time with entered := some now }

/-- The hook of `ReturningFromHost`, up to the check of the budget. -/
def HostTime.returningFromHost (time : HostTime) (now : ℕ) : HostTime :=
  match time.entered with
  | none => time
  | some entered =>
      { time with
        spent := min Duration.max (time.spent + (now - entered))
        entered := none }

/-! ## The sandbox -/

/-- What a descriptor of the guest stands for. -/
inductive Entry
  | stdin (data : Bytes)
  | stream (stream : Stream)
  | sink
  | dir (inner : ℕ) (slot : Bool)
  | file (inner : ℕ)
  deriving DecidableEq, Repr

/-- The entry holds a `Slot`. -/
def Entry.slot : Entry → Bool
  | .dir _ slot => slot
  | .file _ => true
  | _ => false

/-- The entry that an open through a `ReadOnlyDir` makes. -/
def OpenResult.entry : OpenResult → Entry
  | .file inner => .file inner
  | .dir inner => .dir inner true

/-- A call on an object of the host. -/
inductive HostEvent
  | dir (inner : ℕ) (ask : DirAsk)
  | file (inner : ℕ) (call : FileCall)
  deriving DecidableEq, Repr

inductive WasmError
  | zeroFuel
  | noStart
  | startType
  | module (message : String)
  | startSection (code : ℕ)
  | inProgress (what : String)
  | poisoned (what : String)
  | alreadyRun (what : String)
  | nul (what : String)
  | notAName (key : String)
  | alreadySet (key : String)
  | cannotOpen (hostDir message : String)
  | pushed (message : String)
  | hostTime
  | trap (message : String)
  deriving DecidableEq, Repr

/-- Where the instance is: in its (start) section, refused by `load`, with no
run in progress, in its run, or poisoned by a panic in it. -/
inductive Stage
  | starting
  | failed (error : WasmError)
  | idle
  | running
  | poisoned
  deriving DecidableEq, Repr

/-- One `Wasi`.  `writes`, `asked`, `starts`, `elapsed` and `outcomes` record
what has happened: the writes to the two streams with their answers, the calls
that reached the host's directories and files, the calls of `_start`, the time
of each WASI call, and how the run has ended. -/
structure Sandbox where
  stage : Stage
  ran : Bool
  captured : Captured
  live : ℕ
  time : HostTime
  args : List String
  env : List (String × String)
  envKeys : List String
  preopens : List (ℕ × String)
  table : Table Entry
  writes : List (Stream × List Bytes × Except Errno ℕ)
  asked : List HostEvent
  starts : ℕ
  elapsed : List ℕ
  outcomes : List (Except WasmError ℕ)

/-- The standard descriptors of `fresh_wasi`. -/
def freshTable : Table Entry := [(0, .stdin []), (1, .sink), (2, .sink)]

/-- The sandbox that `load` makes, at its (start) section. -/
def Sandbox.new (fuel memoryLimit : ℕ) : Sandbox where
  stage := .starting
  ran := false
  captured := .new memoryLimit
  live := 0
  time := .forFuel fuel
  args := []
  env := []
  envKeys := []
  preopens := []
  table := put (put freshTable 1 (.stream .stdout)) 2 (.stream .stderr)
  writes := []
  asked := []
  starts := 0
  elapsed := []
  outcomes := []

/-- The type of a function export, by the numbers of its parameters and
results. -/
structure FuncType where
  params : ℕ
  results : ℕ
  deriving DecidableEq, Repr

/-- `Wasi::load` up to the (start) section; `module` is the module file, read
and validated, with the type of its `_start`. -/
def load (module : Except String (Option FuncType))
    (fuel memoryLimit : ℕ) : Except WasmError Sandbox :=
  if fuel = 0 then .error .zeroFuel
  else
    match module with
    | .error message => .error (.module message)
    | .ok none => .error .noStart
    | .ok (some start) =>
        if start.params = 0 ∧ start.results = 0 then
          .ok (.new fuel memoryLimit)
        else .error .startType

/-- The calls on the handle. -/
inductive HostCall
  | arg (arg : String) (pushed : Except String Unit)
  | env (key value : String) (pushed : Except String Unit)
  | preopen (hostDir : String) (opened : Except String ℕ)
      (guestPath : String) (pushed : Except String ℕ)
  | stdin (data : Bytes)
  | run
  | stdout
  | stderr

/-- What the guest does in one WASI call. -/
inductive GuestCall
  | write (fd : ℕ) (bufs : List Bytes)
  | dir (fd : ℕ) (host : DirHost) (call : DirCall) (fresh : ℕ)
  | file (fd : ℕ) (call : FileCall)
  | close (fd : ℕ)
  | renumber (source target : ℕ)
  | other

/-- How the guest's code is left. -/
inductive Ending
  | returns
  | exits (code : ℕ)
  | traps (message : String)

inductive WasiAction
  | guest (call : GuestCall) (before after : ℕ)
  | ends (ending : Ending)
  | panics
  | host (call : HostCall) (contended : Bool)

section Steps

variable (s : Sandbox)

/-- The number of slots given back when entries are dropped. -/
def releases : ℕ → ℕ → ℕ
  | 0, live => live
  | n + 1, live => releases n (release live)

/-- The count once the entry at `fd`, if any, is dropped. -/
def Sandbox.dropAt (fd : ℕ) : ℕ :=
  match find fd s.table with
  | some entry => if entry.slot then release s.live else s.live
  | none => s.live

/-- The table is replaced by that of `fresh_wasi`, and every slot in it is
given back. -/
def Sandbox.freshWasi : Sandbox :=
  { s with
    table := freshTable
    live := releases (held s.table Entry.slot) s.live }

def Ending.outcome : Ending → Except WasmError ℕ
  | .returns => .ok 0
  | .exits code => .ok code
  | .traps message => .error (.trap message)

/-- What `load` says when its (start) section is left. -/
def Ending.startSection : Ending → Stage
  | .returns => .idle
  | .exits code => .failed (.startSection code)
  | .traps message => .failed (.trap message)

/-- The end of the (start) section or of the run. -/
def Sandbox.finish (outcome : Except WasmError ℕ) (started : Stage) :
    Option Sandbox :=
  match s.stage with
  | .starting =>
      match started with
      | .failed error => some { s.freshWasi with stage := .failed error }
      | stage => some { s with stage := stage }
  | .running =>
      some { s.freshWasi with
        stage := .idle, outcomes := s.outcomes ++ [outcome] }
  | _ => none

/-- The effect of a WASI call, its time aside. -/
def Sandbox.serve (call : GuestCall) : Option Sandbox :=
  match call with
  | .write fd bufs =>
      match find fd s.table with
      | some (.stream stream) =>
          let (captured, answer) := s.captured.writeVectored stream bufs
          some { s with
            captured := captured
            writes := s.writes ++ [(stream, bufs, answer)] }
      | _ => none
  | .dir fd host call fresh =>
      match find fd s.table with
      | some (.dir inner _) =>
          let out := ReadOnlyDir.call host s.live call
          let next :=
            { s with
              live := out.live
              asked := s.asked ++ out.asked.map (.dir inner) }
          match out.answer with
          | .ok (.opened result) =>
              match find fresh s.table with
              | some _ => none
              | none =>
                  some { next with
                    table := put s.table fresh result.entry }
          | _ => some next
      | _ => none
  | .file fd call =>
      match find fd s.table with
      | some (.file inner) =>
          some { s with
            asked :=
              if call.delegated then s.asked ++ [.file inner call]
              else s.asked }
      | _ => none
  | .close fd =>
      match find fd s.table with
      | some _ =>
          some { s with table := erase fd s.table, live := s.dropAt fd }
      | none => none
  | .renumber source target =>
      match find source s.table, find target s.table with
      | some entry, some _ =>
          if source = target then some s
          else
            some { s with
              table := put (erase source s.table) target entry
              live := s.dropAt target }
      | _, _ => none
  | .other => some s

/-- A WASI call between the hooks: past the budget it traps. -/
def Sandbox.guest (call : GuestCall) (before after : ℕ) : Option Sandbox :=
  if s.stage = .starting ∨ s.stage = .running then
    match ({ s with time := s.time.callingHost before }).serve call with
    | none => none
    | some served =>
        let time := served.time.returningFromHost after
        let next :=
          { served with
            time := time, elapsed := s.elapsed ++ [after - before] }
        if time.budget < time.spent then
          next.finish (.error .hostTime) (.failed .hostTime)
        else some next
  else none

/-- `Wasi::lock`, by what it answers; `contended` says that another call
holds the lock. -/
def Sandbox.lock (contended : Bool) (what : String) :
    Except WasmError Unit :=
  if s.stage = .running ∨ contended then .error (.inProgress what)
  else if s.stage = .poisoned then .error (.poisoned what)
  else .ok ()

def Sandbox.notRunYet (what : String) : Except WasmError Unit :=
  if s.ran then .error (.alreadyRun what) else .ok ()

def noNul (what s : String) : Except WasmError Unit :=
  if s.contains '\x00' then .error (.nul what) else .ok ()

/-- A call on the handle, by the sandbox it leaves.  That of `run` is at the
call of `_start`. -/
def Sandbox.call (contended : Bool) (call : HostCall) :
    Except WasmError Sandbox :=
  match call with
  | .arg arg pushed => do
      s.lock contended "wasi-arg"
      s.notRunYet "wasi-arg"
      noNul "wasi-arg" arg
      pushed.mapError .pushed
      return { s with args := s.args ++ [arg] }
  | .env key value pushed => do
      s.lock contended "wasi-env"
      s.notRunYet "wasi-env"
      noNul "wasi-env" key
      noNul "wasi-env" value
      if key.isEmpty || key.contains '=' then throw (.notAName key)
      if s.envKeys.any (· == key) then throw (.alreadySet key)
      pushed.mapError .pushed
      return { s with
        env := s.env ++ [(key, value)], envKeys := s.envKeys ++ [key] }
  | .preopen hostDir opened guestPath pushed => do
      s.lock contended "wasi-preopen"
      s.notRunYet "wasi-preopen"
      let dir ← opened.mapError (.cannotOpen hostDir)
      let fd ← pushed.mapError .pushed
      return { s with
        preopens := s.preopens ++ [(dir, guestPath)]
        table := put s.table fd (.dir dir false) }
  | .stdin data => do
      s.lock contended "wasi-stdin"
      s.notRunYet "wasi-stdin"
      return { s with
        table := put s.table 0 (.stdin data), live := s.dropAt 0 }
  | .run => do
      s.lock contended "wasi-run"
      s.notRunYet "wasi-run"
      return { s with stage := .running, ran := true, starts := s.starts + 1 }
  | .stdout => do
      s.lock contended "wasi-stdout"
      return s
  | .stderr => do
      s.lock contended "wasi-stderr"
      return s

/-- The descriptor of a new preopen is a free one. -/
def HostCall.possible : HostCall → Bool
  | .preopen _ _ _ (.ok fd) => (find fd s.table).isNone
  | _ => true

def Sandbox.step : WasiAction → Option Sandbox
  | .guest call before after => s.guest call before after
  | .ends ending => s.finish ending.outcome ending.startSection
  | .panics =>
      match s.stage with
      | .running => some { s with stage := .poisoned }
      | _ => none
  | .host call contended =>
      match s.stage with
      | .starting | .failed _ => none
      | _ =>
          if call.possible s then
            match s.call contended call with
            | .ok next => some next
            | .error _ => some s
          else none

end Steps

/-- A sandbox, its guest and the threads that hold its handle. -/
def wasiSystem : TransitionSystem.System Sandbox WasiAction where
  step := Sandbox.step

end Wasi

end Rulisp
