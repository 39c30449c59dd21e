import Mathlib.Data.Int.Notation
import Mathlib.Logic.Function.Basic
import Mathlib.Data.List.Basic

/-!
# Nested calls, callbacks and the callback tunnel

One Lisp thread runs a tree of wrapper calls: a wrapper enters a generated
shim, the Rust body invokes callbacks, a callback's closure calls further
wrappers.  The module models what the generated code and the wrapper do
around the two free programs (the Rust body and the closure), whose
behaviour is the shape of the tree: `shim` and the tunnel flag of
`rulisp-runtime`, `Callback::call`, the generated shim body of `gen_fn`, the
trampolines and the wrapper of `codegen.lisp`.
-/

namespace Rulisp

/-! ## Status codes and conditions -/

def statusOk : ℤ := 0
def statusErr : ℤ := 1
def statusPanic : ℤ := 2
def statusInvalid : ℤ := 3
def statusCbErr : ℤ := 4

/-- The last-error slot of a library on one thread. -/
structure LastError where
  kind : String
  message : String
  deriving DecidableEq, Repr

/-- What a wrapper signals for a nonzero status. -/
inductive CrateCondition (C : Type)
  /-- `rust-error`, or the class the manifest's `:errors` made for the type. -/
  | rustError (class? : Option String) (rustType message functionName : String)
  | rustPanic (message functionName : String)
  | invalidArgument (message functionName : String)
  /-- `(error stash)`: the very object the closure signaled. -/
  | stashed (condition : C)
  deriving DecidableEq, Repr

def signalCrateStatus {C : Type} (status : ℤ)
    (errorConditions : List (String × String)) (lastError : LastError)
    (functionName : String) (stash : Option C) : CrateCondition C :=
  if status = 1 then
    .rustError (errorConditions.lookup lastError.kind) lastError.kind
      lastError.message functionName
  else if status = 2 then
    .rustPanic lastError.message functionName
  else if status = 3 then
    .invalidArgument (lastError.kind ++ ": " ++ lastError.message) functionName
  else if status = 4 then
    match stash with
    | some condition => .stashed condition
    | none => .rustError none "CallbackError"
        "callback error status without a stashed condition" functionName
  else
    .rustError none "UnknownStatus"
      ("unknown status code " ++ toString status) functionName

/-! ## Trees of calls -/

/-- What a wrapper closes over: its library and its generation's table of
error conditions. -/
structure Wrapper (L : Type) where
  library : L
  functionName : String
  errorConditions : List (String × String)
  deriving DecidableEq, Repr

/-- How the user's Rust function ends. -/
inductive RustOutcome
  | ok
  | err (kind message : String)
  | panic (message : String)
  deriving DecidableEq, Repr

mutual

/-- A wrapper call that enters its shim.  `callback` is the closure of a
borrowed callback parameter, `refusal` an argument that `str_arg` refuses
before the body runs, `body` the callback invocations the Rust function
makes, in order, whatever it does with their results. -/
inductive ShimCall (L C K : Type) : Type
  | mk (wrapper : Wrapper L) (callback : Option K)
      (refusal : Option LastError)
      (body : List (CallbackInvocation L C K)) (outcome : RustOutcome)

/-- One `call` on a borrowed or a stored callback.  The closure makes the
`nested` calls, handling or not what they signal, and then returns or
signals `failure`. -/
inductive CallbackInvocation (L C K : Type) : Type
  | mk (borrowed : Bool) (nested : List (ShimCall L C K))
      (failure : Option C)

end

section Running

variable {L C K : Type}

def ShimCall.wrapper : ShimCall L C K → Wrapper L
  | .mk wrapper _ _ _ _ => wrapper

def ShimCall.callback : ShimCall L C K → Option K
  | .mk _ callback _ _ _ => callback

def ShimCall.refusal : ShimCall L C K → Option LastError
  | .mk _ _ refusal _ _ => refusal

def ShimCall.body : ShimCall L C K → List (CallbackInvocation L C K)
  | .mk _ _ _ body _ => body

def ShimCall.outcome : ShimCall L C K → RustOutcome
  | .mk _ _ _ _ outcome => outcome

/-- The shim has a borrowed callback parameter. -/
def ShimCall.takesCallback (call : ShimCall L C K) : Bool :=
  call.callback.isSome

/-- A borrowed callback that returned nonzero. -/
def CallbackInvocation.failedBorrowed : CallbackInvocation L C K → Bool
  | .mk borrowed _ failure => borrowed && failure.isSome

/-- What one wrapper call observed when its shim had returned. -/
structure CallRecord (L C K : Type) where
  call : ShimCall L C K
  status : ℤ
  lastError : LastError
  /-- The stash as the wrapper passes it to `signal-crate-status`. -/
  stash : Option C
  condition : Option (CrateCondition C)

/-- The thread-locals of each library and the thread's dynamic bindings. -/
structure ThreadState (L C K : Type) where
  tunnel : L → Bool
  lastError : L → LastError
  liveCallback : Option K
  callbackStash : Option C
  log : List (CallRecord L C K)

variable [DecidableEq L]

/-- `set_callback_tunnel` and `clear_callback_tunnel`. -/
def ThreadState.setTunnel (state : ThreadState L C K) (library : L)
    (flag : Bool) : ThreadState L C K :=
  { state with tunnel := Function.update state.tunnel library flag }

def ThreadState.setLastError (state : ThreadState L C K) (library : L)
    (error : LastError) : ThreadState L C K :=
  { state with lastError := Function.update state.lastError library error }

/-- The wrapper's `(let ((*live-callback* ...) (*callback-stash* nil)) ...)`,
present only around a callback-passing call. -/
def ThreadState.bindCallback (state : ThreadState L C K) :
    Option K → ThreadState L C K
  | none => state
  | some closure =>
      { state with liveCallback := some closure, callbackStash := none }

/-- The end of that binding's extent. -/
def ThreadState.unbindCallback (state outer : ThreadState L C K) :
    Option K → ThreadState L C K
  | none => state
  | some _ =>
      { state with
        liveCallback := outer.liveCallback
        callbackStash := outer.callbackStash }

/-- `clear_tunnel`, emitted only for a shim with a borrowed callback. -/
def ThreadState.enterShim (state : ThreadState L C K) (library : L)
    (takesCallback : Bool) : ThreadState L C K :=
  if takesCallback then state.setTunnel library false else state

/-- What the shim does with the user function's result, `shim`'s
`catch_unwind` included. -/
def ThreadState.exitShim (state : ThreadState L C K) (library : L)
    (takesCallback : Bool) : RustOutcome → ThreadState L C K × ℤ
  | .ok => (state, statusOk)
  | .err kind message =>
      if takesCallback && state.tunnel library then
        (state, statusCbErr)
      else
        (state.setLastError library { kind := kind, message := message },
          statusErr)
  | .panic message =>
      (state.setLastError library { kind := "panic", message := message },
        statusPanic)

/-- What the wrapper's status branch sees and signals. -/
def ThreadState.callRecord (state : ThreadState L C K)
    (call : ShimCall L C K) (status : ℤ) : CallRecord L C K :=
  let stash := if call.takesCallback then state.callbackStash else none
  let lastError := state.lastError call.wrapper.library
  { call := call
    status := status
    lastError := lastError
    stash := stash
    condition :=
      if status = 0 then none
      else some (signalCrateStatus status call.wrapper.errorConditions
        lastError call.wrapper.functionName stash) }

def ThreadState.recordCall (state : ThreadState L C K)
    (call : ShimCall L C K) (status : ℤ) : ThreadState L C K :=
  { state with log := state.log ++ [state.callRecord call status] }

/-- What the trampolines and `Callback::call` do once the closure has ended.
A borrowed trampoline stashes the condition and `Callback::call` sets the
tunnel; the stored ones do neither. -/
def ThreadState.endInvocation (state : ThreadState L C K) (library : L)
    (borrowed : Bool) : Option C → ThreadState L C K
  | none => state
  | some condition =>
      if borrowed then
        { state with callbackStash := some condition }.setTunnel library true
      else
        state

mutual

def ShimCall.run : ShimCall L C K → ThreadState L C K → ThreadState L C K
  | .mk wrapper callback refusal body outcome, state =>
      let call := ShimCall.mk wrapper callback refusal body outcome
      let entered := (state.bindCallback callback).enterShim wrapper.library
        callback.isSome
      let (left, status) :=
        match refusal with
        | some error =>
            (entered.setLastError wrapper.library error, statusInvalid)
        | none =>
            (runInvocations wrapper.library body entered).exitShim
              wrapper.library callback.isSome outcome
      (left.recordCall call status).unbindCallback state callback

def CallbackInvocation.run (library : L) :
    CallbackInvocation L C K → ThreadState L C K → ThreadState L C K
  | .mk borrowed nested failure, state =>
      (runCalls nested state).endInvocation library borrowed failure

def runCalls : List (ShimCall L C K) → ThreadState L C K → ThreadState L C K
  | [], state => state
  | call :: rest, state => runCalls rest (call.run state)

def runInvocations (library : L) :
    List (CallbackInvocation L C K) → ThreadState L C K → ThreadState L C K
  | [], state => state
  | invocation :: rest, state =>
      runInvocations library rest (invocation.run library state)

end

end Running

/-! ## The tree read without running it -/

section Events

variable {L C K : Type}

/-- What moves the tunnel flag of a library. -/
inductive TunnelEvent
  /-- A shim with a borrowed callback is entered. -/
  | entered
  /-- A borrowed callback returned nonzero. -/
  | failed
  deriving DecidableEq, Repr

variable [DecidableEq L]

mutual

/-- The tunnel events of `library` during a call, in order. -/
def ShimCall.events (library : L) : ShimCall L C K → List TunnelEvent
  | .mk wrapper callback refusal body _ =>
      (if callback.isSome && decide (wrapper.library = library)
        then [.entered] else []) ++
      (if refusal.isSome then []
        else invocationEvents library wrapper.library body)

/-- `owner` is the library of the shim that makes the invocation. -/
def CallbackInvocation.events (library owner : L) :
    CallbackInvocation L C K → List TunnelEvent
  | .mk borrowed nested failure =>
      callEvents library nested ++
      (if borrowed && failure.isSome && decide (owner = library)
        then [.failed] else [])

def callEvents (library : L) : List (ShimCall L C K) → List TunnelEvent
  | [] => []
  | call :: rest => call.events library ++ callEvents library rest

def invocationEvents (library owner : L) :
    List (CallbackInvocation L C K) → List TunnelEvent
  | [] => []
  | invocation :: rest =>
      invocation.events library owner ++ invocationEvents library owner rest

end

mutual

/-- The shim calls that are made during a call, itself included. -/
def ShimCall.calls : ShimCall L C K → List (ShimCall L C K)
  | .mk wrapper callback refusal body outcome =>
      (if refusal.isSome then [] else invocationCalls body) ++
        [.mk wrapper callback refusal body outcome]

def CallbackInvocation.calls :
    CallbackInvocation L C K → List (ShimCall L C K)
  | .mk _ nested _ => allCalls nested

def allCalls : List (ShimCall L C K) → List (ShimCall L C K)
  | [] => []
  | call :: rest => call.calls ++ allCalls rest

def invocationCalls :
    List (CallbackInvocation L C K) → List (ShimCall L C K)
  | [] => []
  | invocation :: rest => invocation.calls ++ invocationCalls rest

end

end Events

end Rulisp
