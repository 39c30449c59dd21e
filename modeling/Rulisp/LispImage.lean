import Rulisp.HandleCell
import Rulisp.Loader

/-!
# A Lisp image with crates, handles and calls

The loader together with everything that goes on beside it: threads that
call wrappers (the current ones or captured ones), handles that are made,
freed and finalized, dump hooks, and restores that end every thread.  The
transcript keeps each foreign call with the session it was made in.
-/

namespace Rulisp

open TransitionSystem

variable [LispCase]

/-- A Rust object made by a constructor; `library` is the code that ran. -/
structure Allocation where
  crate : String
  generation : ℕ
  session : ℕ
  library : Library
  rustType : Option String
  deriving DecidableEq, Repr

/-- An instance of a handle class.  A pointer is the index of the allocation
it points to. -/
structure HandleObject where
  cls : Symbol
  cell : Cell ℕ ForeignPtr
  deriving DecidableEq, Repr

/-- An argument: a handle, or anything else. -/
inductive Arg
  | handle (index : ℕ)
  | other
  deriving DecidableEq, Repr

/-- A handle position of a call whose `cell-begin-call` went through. -/
structure Begun where
  token : Datum
  handle : ℕ
  ptr : ℕ
  deriving DecidableEq, Repr

inductive ForeignCall
  /-- `abi_version` and `manifest` of a library just opened. -/
  | verify (fn : ForeignPtr)
  | export (wrapper : CrateWrapper) (handles : List (Datum × ℕ))
  | lastError (fn : ForeignPtr)
  | dealloc (fn : ForeignPtr)
  | free (fn : ForeignPtr) (ptr : ℕ)
  | onDump (fn : ForeignPtr)
  deriving DecidableEq, Repr

def ForeignCall.fn : ForeignCall → ForeignPtr
  | .verify fn => fn
  | .export wrapper _ => wrapper.fnPtr
  | .lastError fn => fn
  | .dealloc fn => fn
  | .free fn _ => fn
  | .onDump fn => fn

/-- What the image meets when it calls a hook and reads its last error. -/
structure HookAnswer where
  call : LispResult ℤ
  lastError : LispResult (String × String)

inductive DumpWarning
  | failed (name : String) (status : ℤ) (type message : String)
  | signaled (name : String) (condition : LoadCondition)
  deriving DecidableEq, Repr

/-- The foreign calls for one crate, in order, and the warning. -/
structure HookRun where
  crate : String
  calls : List ForeignCall
  warning : Option DumpWarning
  deriving DecidableEq, Repr

/-- `read-crate-last-error`, of a pointer that may be NIL. -/
def readCrateLastError (lastErrorPtr : Option ForeignPtr)
    (answer : LispResult (String × String)) :
    List ForeignCall × LispResult (String × String) :=
  match lastErrorPtr with
  | none => ([], hostError .typeError)
  | some fn => ([.lastError fn], answer)

/-- The body of the loop, in its `handler-case`. -/
def Crate.runDumpHook (crate : Crate) (name : String) (answer : HookAnswer) :
    HookRun :=
  match crate.onDumpPtr, crate.libHandle with
  | some onDumpPtr, some _ =>
      match answer.call with
      | .error e =>
          { crate := name
            calls := [.onDump onDumpPtr]
            warning := some (.signaled name e) }
      | .ok status =>
          if status = 0 then
            { crate := name, calls := [.onDump onDumpPtr], warning := none }
          else
            match readCrateLastError crate.lastErrorPtr answer.lastError with
            | (calls, .error e) =>
                { crate := name
                  calls := .onDump onDumpPtr :: calls
                  warning := some (.signaled name e) }
            | (calls, .ok (type, message)) =>
                { crate := name
                  calls := .onDump onDumpPtr :: calls
                  warning := some (.failed name status type message) }
  | _, _ => { crate := name, calls := [], warning := none }

inductive Frame
  /-- Before the foreign call: the parameters whose checks are ahead, and the
  cells begun so far, the last one first. -/
  | gating (wrapper : CrateWrapper) (pending : List (ParamForm × Arg))
      (begun : List Begun)
  /-- In the export; callbacks run in this frame. -/
  | inside (wrapper : CrateWrapper) (begun : List Begun)
  /-- The `cell-end-call`s that are left. -/
  | unwinding (begun : List Begun)
  /-- A free decided under the cell's lock, `%maybe-foreign-free` is next. -/
  | releasing (handle : ℕ) (target : ℕ × ForeignPtr)
  /-- `%run-crate-dump-hooks`, with the names left. -/
  | dumping (remaining : List String)
  deriving DecidableEq, Repr

structure ImageState (n : ℕ) where
  loader : LoaderState
  handles : List HandleObject
  allocations : List Allocation
  threads : Fin n → List Frame
  transcript : List (ℕ × ForeignCall)

inductive ImageAction (n : ℕ)
  | loader (action : LoaderAction)
  /-- A wrapper is called; any function that was ever published may be. -/
  | enter (thread : Fin n) (wrapper : CrateWrapper) (args : List Arg)
  /-- The next parameter; `refused` is the verdict on one without a handle. -/
  | check (thread : Fin n) (refused : Bool)
  | invoke (thread : Fin n)
  /-- Status 0; `transferred` when a buffer came back. -/
  | returnOk (thread : Fin n) (transferred : Bool)
  | returnStatus (thread : Fin n) (status : ℤ)
  | endCall (thread : Fin n)
  /-- `free` or the finalizer. -/
  | free (thread : Fin n) (handle : ℕ)
  | foreignFree (thread : Fin n)
  | dump (thread : Fin n)
  | dumpHook (thread : Fin n) (status : ℤ)

/-- The calls that `%open-and-verify` makes into the library it opens. -/
def LoadHost.verifyCalls (host : LoadHost) (library : Library)
    (args : LoadArgs) : List ForeignCall :=
  match copyArtifact host args, host.dlopen with
  | .ok copied, .ok image =>
      let pfx := copied.prefixGuess
      if (pfx ++ "abi_version") ∈ image.exports then
        .verify { library := library, symbol := pfx ++ "abi_version" } ::
          if image.abiVersion = abiVersion ∧
            (pfx ++ "manifest") ∈ image.exports then
            [.verify { library := library, symbol := pfx ++ "manifest" }]
          else []
      else []
  | _, _ => []

/-- The foreign calls of a loader step. -/
def LoaderAction.calls (state : LoaderState) : LoaderAction → List ForeignCall
  | .load call host =>
      match call.args state.registry with
      | .ok args => host.verifyCalls state.nextLibrary args
      | .error _ => []
  | .restoreCrate name host =>
      match state.registry.crates name with
      | some crate =>
          host.verifyCalls state.nextLibrary
            (LoaderState.restoreArgs name crate)
      | none => []
  | _ => []

def LoaderAction.endsThreads : LoaderAction → Bool
  | .restore _ => true
  | _ => false

def RegistryLock.isRestoring : RegistryLock → Bool
  | .unlocked => false
  | .loading current => current.restore.isSome
  | .restoring _ => true

namespace ImageState

variable {n : ℕ}

def initial (n : ℕ) (registry : Registry) : ImageState n where
  loader := .initial registry
  handles := []
  allocations := []
  threads := fun _ => []
  transcript := []

/-- Log foreign calls. -/
def logCalls (state : ImageState n) (calls : List ForeignCall) :
    ImageState n :=
  { state with
    transcript := state.transcript ++
      calls.map fun call => (state.loader.session, call) }

def setFrames (state : ImageState n) (thread : Fin n) (frames : List Frame) :
    ImageState n :=
  { state with threads := Function.update state.threads thread frames }

/-- The cell of `object`, the handle at `index`, after a lock-held section. -/
def setCell (state : ImageState n) (index : ℕ) (object : HandleObject)
    (cell : Cell ℕ ForeignPtr) : ImageState n :=
  { state with handles := state.handles.set index { object with cell := cell } }

/-- `%make-crate-handle` on the object that the shim has just made; without a
recorded free shim it signals. -/
def makeCrateHandle (state : ImageState n) (wrapper : CrateWrapper)
    (rustName : Datum) (cls : Symbol) : ImageState n :=
  let allocated : ImageState n :=
    { state with
      allocations := state.allocations ++
        [{ crate := wrapper.crate
           generation := wrapper.ctx.generation
           session := wrapper.ctx.session
           library := wrapper.fnPtr.library
           rustType := rustName.stringDesignator }] }
  match rustName.stringDesignator.bind
    (fun name => wrapper.ctx.freeTable.lookup name) with
  | none => allocated
  | some freePtr =>
      { allocated with
        handles := state.handles ++
          [{ cls := cls
             cell := makeCell state.allocations.length wrapper.ctx.generation
               wrapper.ctx.session freePtr }] }

/-- The value of a successful call. -/
def returnValue (state : ImageState n) (wrapper : CrateWrapper)
    (transferred : Bool) : ImageState n :=
  match wrapper.form.result with
  | .handle rustName cls => state.makeCrateHandle wrapper rustName cls
  | _ => if transferred then state.logCalls [.dealloc wrapper.ctx.deallocPtr]
      else state

/-- `signal-crate-status`: the statuses that read the last error. -/
def returnCondition (state : ImageState n) (wrapper : CrateWrapper)
    (status : ℤ) : ImageState n :=
  if status = 1 ∨ status = 2 ∨ status = 3 then
    state.logCalls [.lastError wrapper.ctx.lastErrorPtr]
  else state

/-- The type gate and `cell-begin-call` of one handle parameter. -/
def gate (state : ImageState n) (wrapper : CrateWrapper) (cls : Symbol) :
    Arg → Option (ℕ × HandleObject)
  | .other => none
  | .handle index =>
      match state.handles[index]? with
      | none => none
      | some object =>
          if object.cls = cls ∧
            (object.cell.beginCall state.loader.session
              wrapper.ctx.generation).1 = none then
            some (index, object)
          else none

/-- One parameter of the wrapper's nest of checks. -/
def checkParam (state : ImageState n) (thread : Fin n) (rest : List Frame)
    (wrapper : CrateWrapper) (param : ParamForm) (arg : Arg) (refused : Bool)
    (pending : List (ParamForm × Arg)) (begun : List Begun) : ImageState n :=
  match param with
  | .handle token cls =>
      match state.gate wrapper cls arg with
      | none => state.setFrames thread (.unwinding begun :: rest)
      | some (index, object) =>
          (state.setCell index object
            (object.cell.beginCall state.loader.session
              wrapper.ctx.generation).2).setFrames thread
            (.gating wrapper pending
              ({ token := token, handle := index, ptr := object.cell.ptr } ::
                begun) :: rest)
  | _ =>
      if refused then state.setFrames thread (.unwinding begun :: rest)
      else state.setFrames thread (.gating wrapper pending begun :: rest)

/-- A deferred or immediate free is run on top of the thread's frames. -/
def release (state : ImageState n) (thread : Fin n) (handle : ℕ)
    (target : Option (ℕ × ForeignPtr)) (rest : List Frame) : ImageState n :=
  match target with
  | none => state.setFrames thread rest
  | some target => state.setFrames thread (.releasing handle target :: rest)

/-- The hook of one crate, and its last error if it fails. -/
def hookCalls (state : ImageState n) (name : String) (status : ℤ) :
    List ForeignCall :=
  match state.loader.registry.crates name with
  | none => []
  | some crate =>
      match crate.onDumpPtr, crate.libHandle with
      | some onDumpPtr, some _ =>
          .onDump onDumpPtr ::
            if status = 0 then []
            else
              match crate.lastErrorPtr with
              | some lastErrorPtr => [.lastError lastErrorPtr]
              | none => []
      | _, _ => []

def step (state : ImageState n) : ImageAction n → Option (ImageState n)
  | .loader action =>
      match state.loader.step action with
      | none => none
      | some loader =>
          let logged := state.logCalls (action.calls state.loader)
          some { logged with
            loader := loader
            threads :=
              if action.endsThreads then fun _ => [] else state.threads }
  | .enter thread wrapper args =>
      if wrapper ∈ state.loader.published ∧
        args.length = wrapper.form.params.length then
        -- the session gate
        if wrapper.ctx.session = state.loader.session then
          some (state.setFrames thread
            (.gating wrapper ((wrapper.form.params.map (·.2)).zip args) [] ::
              state.threads thread))
        else some state
      else none
  | .check thread refused =>
      match state.threads thread with
      | .gating wrapper ((param, arg) :: pending) begun :: rest =>
          some (state.checkParam thread rest wrapper param arg refused pending
            begun)
      | _ => none
  | .invoke thread =>
      match state.threads thread with
      | .gating wrapper [] begun :: rest =>
          some ((state.logCalls [.export wrapper
            (begun.reverse.map fun b => (b.token, b.ptr))]).setFrames thread
              (.inside wrapper begun :: rest))
      | _ => none
  | .returnOk thread transferred =>
      match state.threads thread with
      | .inside wrapper begun :: rest =>
          some ((state.returnValue wrapper transferred).setFrames thread
            (.unwinding begun :: rest))
      | _ => none
  | .returnStatus thread status =>
      match state.threads thread with
      | .inside wrapper begun :: rest =>
          some ((state.returnCondition wrapper status).setFrames thread
            (.unwinding begun :: rest))
      | _ => none
  | .endCall thread =>
      match state.threads thread with
      | .unwinding [] :: rest => some (state.setFrames thread rest)
      | .unwinding (b :: begun) :: rest =>
          match state.handles[b.handle]? with
          | none => none
          | some object =>
              some ((state.setCell b.handle object
                object.cell.endCall.2).release thread b.handle
                  object.cell.endCall.1 (.unwinding begun :: rest))
      | _ => none
  | .free thread handle =>
      match state.handles[handle]? with
      | none => none
      | some object =>
          some ((state.setCell handle object object.cell.free.2.2).release
            thread handle object.cell.free.2.1 (state.threads thread))
  | .foreignFree thread =>
      match state.threads thread with
      | .releasing handle target :: rest =>
          match state.handles[handle]? with
          | none => none
          | some object =>
              match object.cell.maybeForeignFree state.loader.session target with
              | none => some (state.setFrames thread rest)
              | some (ptr, fn) =>
                  some ((state.logCalls [.free fn ptr]).setFrames thread rest)
      | _ => none
  | .dump thread =>
      some (state.setFrames thread
        (.dumping state.loader.registry.crateLoadOrder ::
          state.threads thread))
  | .dumpHook thread status =>
      match state.threads thread with
      | .dumping [] :: rest => some (state.setFrames thread rest)
      | .dumping (name :: remaining) :: rest =>
          -- a dumping image is not one that is still being restored
          if state.loader.lock.isRestoring then none
          else
            some ((state.logCalls (state.hookCalls name status)).setFrames
              thread (.dumping remaining :: rest))
      | _ => none

end ImageState

def imageSystem (n : ℕ) : System (ImageState n) (ImageAction n) where
  step := ImageState.step

/-! ## What a dump hook calls -/

omit [LispCase] in
/-- The calls of a hook run are to the hook and to `last_error`, as the slots
have them. -/
theorem Crate.mem_runDumpHook {crate : Crate} {name : String}
    {answer : HookAnswer} {call : ForeignCall}
    (hcall : call ∈ (crate.runDumpHook name answer).calls) :
    ∃ onDumpPtr, crate.onDumpPtr = some onDumpPtr ∧
      (call = .onDump onDumpPtr ∨
        ∃ lastErrorPtr, crate.lastErrorPtr = some lastErrorPtr ∧
          call = .lastError lastErrorPtr) := by
  unfold Crate.runDumpHook at hcall
  split at hcall
  · rename_i onDumpPtr library honDump hlibrary
    refine ⟨onDumpPtr, honDump, ?_⟩
    cases hanswer : answer.call with
    | error e =>
        simp only [hanswer] at hcall
        exact .inl (List.mem_singleton.mp hcall)
    | ok status =>
        simp only [hanswer] at hcall
        by_cases hstatus : status = 0
        · simp only [if_pos hstatus] at hcall
          exact .inl (List.mem_singleton.mp hcall)
        · simp only [if_neg hstatus, readCrateLastError] at hcall
          cases hlast : crate.lastErrorPtr with
          | none =>
              simp only [hlast, hostError] at hcall
              exact .inl (List.mem_singleton.mp hcall)
          | some lastErrorPtr =>
              simp only [hlast] at hcall
              cases hread : answer.lastError with
              | error e | ok read =>
                  simp only [hread] at hcall
                  rcases List.mem_pair.mp hcall with hhook | herror
                  · exact .inl hhook
                  · exact .inr ⟨lastErrorPtr, rfl, herror⟩
  · cases hcall

namespace ImageState

variable {n : ℕ}

omit [LispCase] in
/-- The calls in the image are those of a hook run. -/
theorem hookCalls_eq_runDumpHook (state : ImageState n) {name : String}
    {crate : Crate} (hcrate : state.loader.registry.crates name = some crate)
    (status : ℤ) (lastError : LispResult (String × String)) :
    state.hookCalls name status =
      (crate.runDumpHook name { call := .ok status, lastError }).calls := by
  unfold hookCalls Crate.runDumpHook readCrateLastError
  rw [hcrate]
  simp only
  cases crate.onDumpPtr with
  | none => rfl
  | some onDumpPtr =>
      cases crate.libHandle with
      | none => rfl
      | some library =>
          by_cases hstatus : status = 0
          · simp [hstatus]
          · simp only [hstatus, if_false]
            cases crate.lastErrorPtr with
            | none => rfl
            | some lastErrorPtr => cases lastError <;> rfl

omit [LispCase] in
/-- So they are to the slots of a crate in the table. -/
theorem mem_hookCalls {state : ImageState n} {name : String} {status : ℤ}
    {call : ForeignCall} (hcall : call ∈ state.hookCalls name status) :
    ∃ crate onDumpPtr, state.loader.registry.crates name = some crate ∧
      crate.onDumpPtr = some onDumpPtr ∧
      (call = .onDump onDumpPtr ∨
        ∃ lastErrorPtr, crate.lastErrorPtr = some lastErrorPtr ∧
          call = .lastError lastErrorPtr) := by
  cases hcrate : state.loader.registry.crates name with
  | none =>
      simp only [hookCalls, hcrate] at hcall
      cases hcall
  | some crate =>
      rw [hookCalls_eq_runDumpHook state hcrate status (.ok ("", ""))] at hcall
      obtain ⟨onDumpPtr, honDump, hslots⟩ := Crate.mem_runDumpHook hcall
      exact ⟨crate, onDumpPtr, rfl, honDump, hslots⟩

/-! ## What a step does -/

inductive Outcome (state : ImageState n) :
    ImageAction n → ImageState n → Prop
  | loader (action : LoaderAction) (loader : LoaderState)
      (hstep : state.loader.step action = some loader) :
      Outcome state (.loader action)
        { state.logCalls (action.calls state.loader) with
          loader := loader
          threads :=
            if action.endsThreads then fun _ => [] else state.threads }
  /-- The session gate refuses. -/
  | refused (action : ImageAction n) : Outcome state action state
  | entered (thread : Fin n) (wrapper : CrateWrapper) (args : List Arg)
      (hpublished : wrapper ∈ state.loader.published)
      (hsession : wrapper.ctx.session = state.loader.session) :
      Outcome state (.enter thread wrapper args)
        (state.setFrames thread
          (.gating wrapper ((wrapper.form.params.map (·.2)).zip args) [] ::
            state.threads thread))
  | unwound (action : ImageAction n) (thread : Fin n)
      (wrapper : CrateWrapper) (pending : List (ParamForm × Arg))
      (begun : List Begun) (rest : List Frame)
      (htop : state.threads thread = .gating wrapper pending begun :: rest) :
      Outcome state action
        (state.setFrames thread (.unwinding begun :: rest))
  | passed (action : ImageAction n) (thread : Fin n)
      (wrapper : CrateWrapper) (param : ParamForm × Arg)
      (pending : List (ParamForm × Arg)) (begun : List Begun)
      (rest : List Frame)
      (htop : state.threads thread =
        .gating wrapper (param :: pending) begun :: rest) :
      Outcome state action
        (state.setFrames thread (.gating wrapper pending begun :: rest))
  | gated (action : ImageAction n) (thread : Fin n)
      (wrapper : CrateWrapper) (token : Datum) (cls : Symbol) (arg : Arg)
      (pending : List (ParamForm × Arg)) (begun : List Begun)
      (rest : List Frame) (index : ℕ) (object : HandleObject)
      (htop : state.threads thread =
        .gating wrapper ((.handle token cls, arg) :: pending) begun :: rest)
      (hobject : state.handles[index]? = some object)
      (hclass : object.cls = cls)
      (hverdict : (object.cell.beginCall state.loader.session
        wrapper.ctx.generation).1 = none) :
      Outcome state action
        ((state.setCell index object
          (object.cell.beginCall state.loader.session
            wrapper.ctx.generation).2).setFrames thread
          (.gating wrapper pending
            ({ token := token, handle := index, ptr := object.cell.ptr } ::
              begun) :: rest))
  | invoked (thread : Fin n) (wrapper : CrateWrapper) (begun : List Begun)
      (rest : List Frame)
      (htop : state.threads thread = .gating wrapper [] begun :: rest) :
      Outcome state (.invoke thread)
        ((state.logCalls [.export wrapper
          (begun.reverse.map fun b => (b.token, b.ptr))]).setFrames thread
            (.inside wrapper begun :: rest))
  | returnedOk (thread : Fin n) (transferred : Bool) (wrapper : CrateWrapper)
      (begun : List Begun) (rest : List Frame)
      (htop : state.threads thread = .inside wrapper begun :: rest) :
      Outcome state (.returnOk thread transferred)
        ((state.returnValue wrapper transferred).setFrames thread
          (.unwinding begun :: rest))
  | returnedStatus (thread : Fin n) (status : ℤ) (wrapper : CrateWrapper)
      (begun : List Begun) (rest : List Frame)
      (htop : state.threads thread = .inside wrapper begun :: rest) :
      Outcome state (.returnStatus thread status)
        ((state.returnCondition wrapper status).setFrames thread
          (.unwinding begun :: rest))
  | left (action : ImageAction n) (thread : Fin n) (frame : Frame)
      (rest : List Frame)
      (htop : state.threads thread = frame :: rest) :
      Outcome state action (state.setFrames thread rest)
  | endedCall (thread : Fin n) (b : Begun) (begun : List Begun)
      (rest : List Frame) (object : HandleObject)
      (htop : state.threads thread = .unwinding (b :: begun) :: rest)
      (hobject : state.handles[b.handle]? = some object) :
      Outcome state (.endCall thread)
        ((state.setCell b.handle object object.cell.endCall.2).release thread
          b.handle object.cell.endCall.1 (.unwinding begun :: rest))
  | freed (thread : Fin n) (handle : ℕ) (object : HandleObject)
      (hobject : state.handles[handle]? = some object) :
      Outcome state (.free thread handle)
        ((state.setCell handle object object.cell.free.2.2).release thread
          handle object.cell.free.2.1 (state.threads thread))
  | released (thread : Fin n) (handle : ℕ) (target : ℕ × ForeignPtr)
      (rest : List Frame) (object : HandleObject)
      (htop : state.threads thread = .releasing handle target :: rest)
      (hobject : state.handles[handle]? = some object)
      (hsession : object.cell.session = state.loader.session) :
      Outcome state (.foreignFree thread)
        ((state.logCalls [.free target.2 target.1]).setFrames thread rest)
  | dumped (thread : Fin n) :
      Outcome state (.dump thread)
        (state.setFrames thread
          (.dumping state.loader.registry.crateLoadOrder ::
            state.threads thread))
  | hookRun (thread : Fin n) (name : String) (status : ℤ)
      (remaining : List String) (rest : List Frame)
      (htop : state.threads thread = .dumping (name :: remaining) :: rest)
      (hlock : state.loader.lock.isRestoring = false) :
      Outcome state (.dumpHook thread status)
        ((state.logCalls (state.hookCalls name status)).setFrames thread
          (.dumping remaining :: rest))

omit [LispCase] in
theorem verifyCalls_fn (host : LoadHost) (library : Library)
    (args : LoadArgs) :
    ∀ call ∈ host.verifyCalls library args,
      ∃ symbol, call = .verify { library := library, symbol := symbol } := by
  intro call hcall
  unfold LoadHost.verifyCalls at hcall
  repeat' split at hcall
  all_goals grind

theorem loaderCalls_fn (action : LoaderAction) (loader : LoaderState) :
    ∀ call ∈ action.calls loader, ∃ symbol,
      call = .verify { library := loader.nextLibrary, symbol := symbol } := by
  intro call hcall
  unfold LoaderAction.calls at hcall
  repeat' split at hcall
  all_goals first
    | exact verifyCalls_fn _ _ _ call hcall
    | cases hcall

omit [LispCase] in
theorem gate_eq_some {state : ImageState n} {wrapper : CrateWrapper}
    {cls : Symbol} {arg : Arg} {index : ℕ} {object : HandleObject}
    (hgate : state.gate wrapper cls arg = some (index, object)) :
    state.handles[index]? = some object ∧ object.cls = cls ∧
      (object.cell.beginCall state.loader.session
        wrapper.ctx.generation).1 = none := by
  cases arg with
  | other => cases hgate
  | handle found =>
      simp only [gate] at hgate
      split at hgate
      · cases hgate
      · rename_i candidate hcandidate
        split at hgate
        · rename_i hpasses
          cases hgate
          exact ⟨hcandidate, hpasses.1, hpasses.2⟩
        · cases hgate

theorem checkParam_outcome {state : ImageState n} {thread : Fin n}
    {rest : List Frame} {wrapper : CrateWrapper} {param : ParamForm}
    {arg : Arg} {pending : List (ParamForm × Arg)} {begun : List Begun}
    (refused : Bool)
    (htop : state.threads thread =
      .gating wrapper ((param, arg) :: pending) begun :: rest) :
    state.Outcome (.check thread refused)
      (state.checkParam thread rest wrapper param arg refused pending
        begun) := by
  cases param with
  | handle token cls =>
      simp only [checkParam]
      split
      · exact .unwound _ thread wrapper _ begun rest htop
      · rename_i index object hgate
        obtain ⟨hobject, hclass, hverdict⟩ := gate_eq_some hgate
        exact .gated _ thread wrapper token cls arg pending begun rest index
          object htop hobject hclass hverdict
  | _ =>
      simp only [checkParam]
      split
      · exact .unwound _ thread wrapper _ begun rest htop
      · exact .passed _ thread wrapper _ pending begun rest htop

theorem step_outcome {state next : ImageState n} {action : ImageAction n}
    (hstep : state.step action = some next) : state.Outcome action next := by
  cases action with
  | loader action =>
      simp only [step] at hstep
      split at hstep
      · cases hstep
      · rename_i loader hloader
        cases hstep
        exact .loader action loader hloader
  | enter thread wrapper args =>
      simp only [step] at hstep
      split at hstep
      · rename_i hcalled
        split at hstep
        · rename_i hsession
          cases hstep
          exact .entered thread wrapper args hcalled.1 hsession
        · cases hstep
          exact .refused _
      · cases hstep
  | check thread refused =>
      simp only [step] at hstep
      split at hstep
      · rename_i htop
        cases hstep
        exact checkParam_outcome refused htop
      · cases hstep
  | invoke thread =>
      simp only [step] at hstep
      split at hstep
      · rename_i htop
        cases hstep
        exact .invoked thread _ _ _ htop
      · cases hstep
  | returnOk thread transferred =>
      simp only [step] at hstep
      split at hstep
      · rename_i htop
        cases hstep
        exact .returnedOk thread transferred _ _ _ htop
      · cases hstep
  | returnStatus thread status =>
      simp only [step] at hstep
      split at hstep
      · rename_i htop
        cases hstep
        exact .returnedStatus thread status _ _ _ htop
      · cases hstep
  | endCall thread =>
      simp only [step] at hstep
      split at hstep
      · rename_i htop
        cases hstep
        exact .left _ thread _ _ htop
      · rename_i htop
        split at hstep
        · cases hstep
        · rename_i object hobject
          cases hstep
          exact .endedCall thread _ _ _ object htop hobject
      · cases hstep
  | free thread handle =>
      simp only [step] at hstep
      split at hstep
      · cases hstep
      · rename_i object hobject
        cases hstep
        exact .freed thread handle object hobject
  | foreignFree thread =>
      simp only [step] at hstep
      split at hstep
      · rename_i htop
        split at hstep
        · cases hstep
        · rename_i object hobject
          unfold Cell.maybeForeignFree at hstep
          split at hstep
          · cases hstep
            exact .left _ thread _ _ htop
          · rename_i hfree
            cases hstep
            split at hfree
            · rename_i hsession
              cases hfree
              exact .released thread _ _ _ object htop hobject hsession
            · cases hfree
      · cases hstep
  | dump thread =>
      simp only [step] at hstep
      cases hstep
      exact .dumped thread
  | dumpHook thread status =>
      simp only [step] at hstep
      split at hstep
      · rename_i htop
        cases hstep
        exact .left _ thread _ _ htop
      · rename_i htop
        split at hstep
        · cases hstep
        · rename_i hlock
          cases hstep
          exact .hookRun thread _ status _ _ htop
            (Bool.eq_false_iff.mpr hlock)
      · cases hstep

end ImageState

end Rulisp
