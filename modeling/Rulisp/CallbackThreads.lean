import Rulisp.CallbackTunnel
import Rulisp.LoaderOutcome
import Rulisp.StoredCallbacks
import Rulisp.TransitionSystem

/-!
# Wrapper calls, trampolines and threads

The wrapper of `codegen.lisp`, the shim of `gen_fn` around the user's Rust
function, both trampolines and the stored-callback registry, run by any number
of threads.  A thread is a stack of what it is in the middle of; a step is
what one of them does between two points where user code of either language
runs or another thread may step.  The Rust bodies, the closures, the handlers
of what a wrapper signals and the destructors are the choice of the steps.
-/

namespace Rulisp

/-! ## Wrappers -/

/-- A wrapper and where the `last-error-ptr` of its context leads. -/
structure LinkedWrapper (L : Type) extends Wrapper L where
  lastErrorLibrary : L
  /-- The context's pointers and `%fn-ptr` come from one library. -/
  sameLibrary : lastErrorLibrary = library
  deriving DecidableEq, Repr

/-- A wrapper whose context belongs to its own library. -/
def LinkedWrapper.ofWrapper {L : Type} (wrapper : Wrapper L) :
    LinkedWrapper L :=
  { wrapper with
    lastErrorLibrary := wrapper.library
    sameLibrary := rfl }

/-- A wrapper that a load has made. -/
def CrateWrapper.linked [LispCase] (w : CrateWrapper) {generation : Generation}
    (hborn : w.BornOf generation) : LinkedWrapper Library where
  library := w.fnPtr.library
  functionName := w.form.qualified
  errorConditions := w.ctx.errorConditions.map fun (rustType, cls) =>
    (rustType, cls.home ++ "::" ++ cls.name)
  lastErrorLibrary := w.ctx.lastErrorPtr.library
  sameLibrary := hborn.lastErrorPtr.trans hborn.fnPtr.symm

/-! ## What a thread is in the middle of -/

/-- What made a shim call `set_last_error`. -/
inductive ShimError
  /-- `str_arg` refused an argument. -/
  | refusal (message : String)
  /-- The function returned `Err`. -/
  | err (kind message : String)
  | panic (message : String)
  deriving DecidableEq, Repr

def ShimError.lastError : ShimError → LastError
  | .refusal message => ⟨"InvalidUtf8", message⟩
  | .err kind message => ⟨kind, message⟩
  | .panic message => ⟨"panic", message⟩

def ShimError.status : ShimError → ℤ
  | .refusal _ => statusInvalid
  | .err _ _ => statusErr
  | .panic _ => statusPanic

/-- How far a wrapper call has come. -/
inductive ShimPhase
  /-- The wrapper converts its arguments. -/
  | arguments
  /-- The shim converts what it was given. -/
  | preludes
  /-- The user's function runs. -/
  | body
  /-- `__e.to_string()` runs, the tunnel flag being down. -/
  | toString (kind : String)
  /-- The status is decided; what is still to be dropped is dropped. -/
  | dropping (status : ℤ)
  /-- `shim` has caught a panic and drops its payload. -/
  | caught
  /-- The wrapper has the status. -/
  | returned (status : ℤ)
  /-- The wrapper has acted on the status: it converts the result, or the
  handlers of what it signals run. -/
  | settled
  deriving DecidableEq, Repr

/-- A wrapper call that has not been left. -/
structure ActiveCall (L C K : Type) where
  wrapper : LinkedWrapper L
  /-- The closure of its borrowed callback parameter. -/
  callback : Option K
  /-- `*live-callback*` and `*callback-stash*` around the call. -/
  outerLive : Option K
  outerStash : Option C
  /-- What the closure, invoked by this call's shim, has signaled, the latest
  first. -/
  signaled : List C
  /-- What this call's shim has last given to `set_last_error`. -/
  ownError : Option ShimError
  deriving DecidableEq, Repr

inductive CallbackFrame (L C K : Type)
  | wrapper (call : ActiveCall L C K) (phase : ShimPhase)
  /-- The borrowed trampoline runs what `*live-callback*` held; `library` is
  that of the shim that invoked it. -/
  | trampoline (library : L) (closure : Option K)
  /-- The stored trampoline has not looked its id up yet. -/
  | storedLookup (id : UInt64)
  /-- The stored trampoline runs what it has found, or warns. -/
  | stored (id : UInt64) (found : Option K)
  /-- Any other foreign call: a free shim, a dump hook, the code of a thread
  that Rust has started. -/
  | foreign
  deriving DecidableEq, Repr

/-- The thread's dynamic bindings, and the thread-locals of each library. -/
structure ThreadLocals (L C K : Type) where
  frames : List (CallbackFrame L C K)
  /-- `*live-callback*`; without a binding it is `nil`. -/
  liveCallback : Option K
  /-- `*callback-stash*`. -/
  callbackStash : Option C
  tunnel : L → Bool
  lastError : L → LastError

/-- What a wrapper saw when its shim had returned, and what it signaled. -/
structure StatusRecord (L C K : Type) where
  call : ActiveCall L C K
  status : ℤ
  /-- The stash as given to `signal-crate-status`. -/
  stash : Option C
  condition : Option (CrateCondition C)
  deriving DecidableEq, Repr

inductive CallbackEvent (L C K : Type)
  | observed (record : StatusRecord L C K)
  | registered (id : ℕ) (closure : K)
  /-- `unregister-callback` returned `removed`. -/
  | unregistered (id : ℕ) (removed : Bool)
  | finalized (id : ℕ)
  /-- A stored trampoline looked its id up; it calls what it has found. -/
  | lookedUp (id : UInt64) (found : Option K)
  /-- A stored trampoline returned. -/
  | answered (id : UInt64) (ran : Option K) (status : ℤ)
  deriving DecidableEq, Repr

section Stacks

variable {L C K : Type}

def ShimPhase.inLisp : ShimPhase → Bool
  | .arguments | .settled => true
  | _ => false

def ShimPhase.inRust : ShimPhase → Bool
  | .body | .toString _ | .dropping _ | .caught => true
  | _ => false

/-- A panic is still caught by the shim's `catch_unwind`. -/
def ShimPhase.mayPanic : ShimPhase → Bool
  | .preludes | .body | .toString _ | .dropping _ => true
  | _ => false

/-- Lisp code of the user's may run on the thread. -/
def inLisp : List (CallbackFrame L C K) → Bool
  | [] => true
  | .wrapper _ phase :: _ => phase.inLisp
  | .trampoline _ _ :: _ => true
  | .storedLookup _ :: _ => false
  | .stored _ _ :: _ => true
  | .foreign :: _ => false

/-- Rust code of the user's may run on the thread. -/
def inRust : List (CallbackFrame L C K) → Bool
  | .wrapper _ phase :: _ => phase.inRust
  | .foreign :: _ => true
  | _ => false

/-- The innermost active call that was given a callback. -/
def innermostCallback : List (CallbackFrame L C K) → Option (ActiveCall L C K)
  | [] => none
  | .wrapper call _ :: below =>
      if call.callback.isSome then some call else innermostCallback below
  | _ :: below => innermostCallback below

/-- Note what a closure signaled at the call whose shim invoked it. -/
def noteSignal (condition : C) :
    List (CallbackFrame L C K) → List (CallbackFrame L C K)
  | .wrapper call phase :: below =>
      .wrapper { call with signaled := condition :: call.signaled } phase ::
        below
  | frames => frames

end Stacks

/-! ## What a thread does -/

/-- The steps of a thread that leave the registry as it is. -/
inductive ThreadMove (L C K : Type)
  /-- A wrapper is called; `callback` is its borrowed callback argument. -/
  | call (wrapper : LinkedWrapper L) (callback : Option K)
  /-- The wrapper refuses an argument and is left. -/
  | refuseArgument
  | enterShim
  /-- `str_arg` refuses an argument. -/
  | strArg (message : String)
  | runBody
  | bodyOk
  | bodyErr (kind : String)
  | toStringReturn (message : String)
  | panic (message : String)
  | shimReturn
  /-- The wrapper's branch on the status. -/
  | branch
  | leave
  /-- `Callback::call`. -/
  | invoke
  /-- The closure returns, or signals what the trampoline catches. -/
  | trampolineReturn (failure : Option C)
  /-- `StoredCallback::call`. -/
  | invokeStored (id : UInt64)
  | lookup
  /-- The stored trampoline returns; `failed` if it has caught a condition. -/
  | storedReturn (failed : Bool)
  | enterForeign
  | leaveForeign
  deriving DecidableEq, Repr

section Moves

variable {L C K : Type} [DecidableEq L]

/-- What a stored trampoline answers. -/
def storedStatus (found : Option K) (failed : Bool) : ℤ :=
  if failed then 1 else if found.isSome then 0 else 2

namespace ThreadLocals

/-- A thread that has done nothing. -/
def fresh : ThreadLocals L C K where
  frames := []
  liveCallback := none
  callbackStash := none
  tunnel := fun _ => false
  lastError := fun _ => ⟨"", ""⟩

def moveTo (locals : ThreadLocals L C K)
    (frames : List (CallbackFrame L C K)) : ThreadLocals L C K :=
  { locals with frames := frames }

/-- The wrapper's `(let ((*live-callback* ...) (*callback-stash* nil)) ...)`,
there only around a call with a callback. -/
def bindCallback (locals : ThreadLocals L C K) :
    Option K → ThreadLocals L C K
  | none => locals
  | some closure =>
      { locals with liveCallback := some closure, callbackStash := none }

/-- The end of that binding's extent. -/
def unbindCallback (locals : ThreadLocals L C K) (call : ActiveCall L C K) :
    ThreadLocals L C K :=
  match call.callback with
  | none => locals
  | some _ =>
      { locals with
        liveCallback := call.outerLive
        callbackStash := call.outerStash }

/-- The call of a wrapper, bindings made. -/
def beginCall (locals : ThreadLocals L C K) (wrapper : LinkedWrapper L)
    (callback : Option K) : ThreadLocals L C K :=
  (locals.bindCallback callback).moveTo
    (.wrapper
      { wrapper := wrapper
        callback := callback
        outerLive := locals.liveCallback
        outerStash := locals.callbackStash
        signaled := []
        ownError := none } .arguments :: locals.frames)

def setTunnel (locals : ThreadLocals L C K) (library : L) (flag : Bool) :
    ThreadLocals L C K :=
  { locals with tunnel := Function.update locals.tunnel library flag }

/-- `clear_tunnel`, emitted only for a shim with a borrowed callback. -/
def clearTunnel (locals : ThreadLocals L C K) (call : ActiveCall L C K) :
    ThreadLocals L C K :=
  if call.callback.isSome then locals.setTunnel call.wrapper.library false
  else locals

/-- `set_last_error` by the shim of `call`, which goes on to `phase`. -/
def setLastError (locals : ThreadLocals L C K) (call : ActiveCall L C K)
    (error : ShimError) (phase : ShimPhase)
    (below : List (CallbackFrame L C K)) : ThreadLocals L C K :=
  { locals with
    frames := .wrapper { call with ownError := some error } phase :: below
    lastError := Function.update locals.lastError call.wrapper.library
      error.lastError }

/-- What the shim of `call` does with an `Err` before it formats it. -/
def tunnelCheck (locals : ThreadLocals L C K) (call : ActiveCall L C K)
    (kind : String) : ShimPhase :=
  if call.callback.isSome && locals.tunnel call.wrapper.library then
    .dropping statusCbErr
  else
    .toString kind

/-- What the wrapper's branch on the status sees and signals. -/
def statusRecord (locals : ThreadLocals L C K) (call : ActiveCall L C K)
    (status : ℤ) : StatusRecord L C K :=
  let stash := if call.callback.isSome then locals.callbackStash else none
  { call := call
    status := status
    stash := stash
    condition :=
      if status = 0 then none
      else some (signalCrateStatus status call.wrapper.errorConditions
        (locals.lastError call.wrapper.lastErrorLibrary)
        call.wrapper.functionName stash) }

/-- The end of the borrowed trampoline and, with a condition caught, of
`Callback::call`. -/
def endTrampoline (locals : ThreadLocals L C K) (library : L)
    (below : List (CallbackFrame L C K)) : Option C → ThreadLocals L C K
  | none => locals.moveTo below
  | some condition =>
      ({ locals with callbackStash := some condition }.setTunnel library
        true).moveTo (noteSignal condition below)

/-- One step of a thread, and what it adds to the history. -/
def step (stored : StoredCallbacks K) (locals : ThreadLocals L C K) :
    ThreadMove L C K →
      Option (ThreadLocals L C K × List (CallbackEvent L C K))
  | .call wrapper callback =>
      if inLisp locals.frames then
        some (locals.beginCall wrapper callback, [])
      else none
  | .refuseArgument =>
      match locals.frames with
      | .wrapper call .arguments :: below =>
          some ((locals.unbindCallback call).moveTo below, [])
      | _ => none
  | .enterShim =>
      match locals.frames with
      | .wrapper call .arguments :: below =>
          some ((locals.clearTunnel call).moveTo
            (.wrapper call .preludes :: below), [])
      | _ => none
  | .strArg message =>
      match locals.frames with
      | .wrapper call .preludes :: below =>
          some (locals.setLastError call (.refusal message)
            (.dropping statusInvalid) below, [])
      | _ => none
  | .runBody =>
      match locals.frames with
      | .wrapper call .preludes :: below =>
          some (locals.moveTo (.wrapper call .body :: below), [])
      | _ => none
  | .bodyOk =>
      match locals.frames with
      | .wrapper call .body :: below =>
          some (locals.moveTo (.wrapper call (.dropping statusOk) :: below), [])
      | _ => none
  | .bodyErr kind =>
      match locals.frames with
      | .wrapper call .body :: below =>
          some (locals.moveTo
            (.wrapper call (locals.tunnelCheck call kind) :: below), [])
      | _ => none
  | .toStringReturn message =>
      match locals.frames with
      | .wrapper call (.toString kind) :: below =>
          some (locals.setLastError call (.err kind message)
            (.dropping statusErr) below, [])
      | _ => none
  | .panic message =>
      match locals.frames with
      | .wrapper call phase :: below =>
          if phase.mayPanic then
            some (locals.setLastError call (.panic message) .caught below, [])
          else none
      | _ => none
  | .shimReturn =>
      match locals.frames with
      | .wrapper call (.dropping status) :: below =>
          some (locals.moveTo (.wrapper call (.returned status) :: below), [])
      | .wrapper call .caught :: below =>
          some (locals.moveTo
            (.wrapper call (.returned statusPanic) :: below), [])
      | _ => none
  | .branch =>
      match locals.frames with
      | .wrapper call (.returned status) :: below =>
          some (locals.moveTo (.wrapper call .settled :: below),
            [.observed (locals.statusRecord call status)])
      | _ => none
  | .leave =>
      match locals.frames with
      | .wrapper call .settled :: below =>
          some ((locals.unbindCallback call).moveTo below, [])
      | _ => none
  | .invoke =>
      match locals.frames with
      | .wrapper call phase :: below =>
          -- only the shim that was given a `Callback` can call it
          if phase.inRust && call.callback.isSome then
            some (locals.moveTo
              (.trampoline call.wrapper.library locals.liveCallback ::
                .wrapper call phase :: below), [])
          else none
      | _ => none
  | .trampolineReturn failure =>
      match locals.frames with
      | .trampoline library _ :: below =>
          some (locals.endTrampoline library below failure, [])
      | _ => none
  | .invokeStored id =>
      if inRust locals.frames then
        some (locals.moveTo (.storedLookup id :: locals.frames), [])
      else none
  | .lookup =>
      match locals.frames with
      | .storedLookup id :: below =>
          some (locals.moveTo (.stored id (stored.lookup id) :: below),
            [.lookedUp id (stored.lookup id)])
      | _ => none
  | .storedReturn failed =>
      match locals.frames with
      | .stored id found :: below =>
          some (locals.moveTo below,
            [.answered id found (storedStatus found failed)])
      | _ => none
  | .enterForeign =>
      if inLisp locals.frames then
        some (locals.moveTo (.foreign :: locals.frames), [])
      else none
  | .leaveForeign =>
      match locals.frames with
      | .foreign :: below => some (locals.moveTo below, [])
      | _ => none

end ThreadLocals

end Moves

/-! ## What one step can do -/

section Turns

variable {L C K : Type}

/-- The status that a shim, past its `set_last_error`, is about to answer. -/
def ShimPhase.pending : ShimPhase → Option ℤ
  | .dropping status => some status
  | .caught => some statusPanic
  | .returned status => some status
  | _ => none

/-- The steps by which Rust calls into Lisp. -/
def ThreadMove.callsLisp : ThreadMove L C K → Bool
  | .invoke | .invokeStored _ => true
  | _ => false

variable [DecidableEq L]

/-- Every step of a thread is one of these. -/
inductive ThreadLocals.Turn (stored : StoredCallbacks K)
    (locals : ThreadLocals L C K) (move : ThreadMove L C K) :
    ThreadLocals L C K → List (CallbackEvent L C K) → Prop
  | begin (wrapper : LinkedWrapper L) (callback : Option K)
      (hlisp : inLisp locals.frames = true) :
      Turn stored locals move (locals.beginCall wrapper callback) []
  | exit (call : ActiveCall L C K) (phase : ShimPhase)
      (below : List (CallbackFrame L C K))
      (hframes : locals.frames = .wrapper call phase :: below) :
      Turn stored locals move ((locals.unbindCallback call).moveTo below) []
  | proceed (call : ActiveCall L C K) (before after : ShimPhase)
      (below : List (CallbackFrame L C K)) (tunnel : L → Bool)
      (hframes : locals.frames = .wrapper call before :: below)
      (hpending : ∀ status, after.pending = some status →
        before.pending = some status ∨ status = statusOk ∨
          status = statusCbErr) :
      Turn stored locals move
        ({ locals with tunnel := tunnel }.moveTo
          (.wrapper call after :: below)) []
  | fail (call : ActiveCall L C K) (before after : ShimPhase)
      (below : List (CallbackFrame L C K)) (error : ShimError)
      (hframes : locals.frames = .wrapper call before :: below)
      (hpending : after.pending = some error.status) :
      Turn stored locals move (locals.setLastError call error after below) []
  | branch (call : ActiveCall L C K) (status : ℤ)
      (below : List (CallbackFrame L C K))
      (hframes : locals.frames = .wrapper call (.returned status) :: below) :
      Turn stored locals move
        (locals.moveTo (.wrapper call .settled :: below))
        [.observed (locals.statusRecord call status)]
  | invoke (call : ActiveCall L C K) (phase : ShimPhase)
      (below : List (CallbackFrame L C K))
      (hframes : locals.frames = .wrapper call phase :: below)
      (hcallback : call.callback.isSome = true)
      (hcalls : move.callsLisp = true) :
      Turn stored locals move
        (locals.moveTo
          (.trampoline call.wrapper.library locals.liveCallback ::
            locals.frames)) []
  | trampolineReturn (library : L) (closure : Option K)
      (below : List (CallbackFrame L C K)) (failure : Option C)
      (hframes : locals.frames = .trampoline library closure :: below) :
      Turn stored locals move (locals.endTrampoline library below failure) []
  | invokeStored (id : UInt64) (hcalls : move.callsLisp = true) :
      Turn stored locals move
        (locals.moveTo (.storedLookup id :: locals.frames)) []
  | lookup (id : UInt64) (below : List (CallbackFrame L C K))
      (hframes : locals.frames = .storedLookup id :: below) :
      Turn stored locals move
        (locals.moveTo (.stored id (stored.lookup id) :: below))
        [.lookedUp id (stored.lookup id)]
  | storedReturn (id : UInt64) (found : Option K)
      (below : List (CallbackFrame L C K)) (failed : Bool)
      (hframes : locals.frames = .stored id found :: below) :
      Turn stored locals move (locals.moveTo below)
        [.answered id found (storedStatus found failed)]
  | enterForeign (hlisp : inLisp locals.frames = true) :
      Turn stored locals move (locals.moveTo (.foreign :: locals.frames)) []
  | leaveForeign (below : List (CallbackFrame L C K))
      (hframes : locals.frames = .foreign :: below) :
      Turn stored locals move (locals.moveTo below) []

namespace ThreadLocals

variable {stored : StoredCallbacks K} {locals next : ThreadLocals L C K}
  {move : ThreadMove L C K} {events : List (CallbackEvent L C K)}

omit [DecidableEq L] in
theorem pending_tunnelCheck (call : ActiveCall L C K) (kind : String)
    {status : ℤ}
    (hpending : (locals.tunnelCheck call kind).pending = some status) :
    status = statusCbErr := by
  unfold tunnelCheck at hpending
  split at hpending
  · exact (Option.some.inj hpending).symm
  · cases hpending

theorem clearTunnel_eq (locals : ThreadLocals L C K)
    (call : ActiveCall L C K) :
    ∃ tunnel, locals.clearTunnel call = { locals with tunnel := tunnel } := by
  unfold clearTunnel
  split
  · exact ⟨_, rfl⟩
  · exact ⟨locals.tunnel, rfl⟩

/-- The inversion of `step`. -/
theorem turn_of_step (hstep : locals.step stored move = some (next, events)) :
    locals.Turn stored move next events := by
  cases move with
  | call wrapper callback =>
      simp only [step] at hstep
      split at hstep
      · rename_i hlisp
        cases hstep
        exact .begin wrapper callback hlisp
      · cases hstep
  | refuseArgument =>
      simp only [step] at hstep
      split at hstep
      · rename_i call below hframes
        cases hstep
        exact .exit call _ below hframes
      · cases hstep
  | enterShim =>
      simp only [step] at hstep
      split at hstep
      · rename_i call below hframes
        obtain ⟨tunnel, htunnel⟩ := clearTunnel_eq locals call
        rw [htunnel] at hstep
        cases hstep
        exact .proceed call _ .preludes below tunnel hframes
          (fun _ hpending => by cases hpending)
      · cases hstep
  | strArg message =>
      simp only [step] at hstep
      split at hstep
      · rename_i call below hframes
        cases hstep
        exact .fail call _ _ below (.refusal message) hframes rfl
      · cases hstep
  | runBody =>
      simp only [step] at hstep
      split at hstep
      · rename_i call below hframes
        cases hstep
        exact .proceed call _ .body below locals.tunnel hframes
          (fun _ hpending => by cases hpending)
      · cases hstep
  | bodyOk =>
      simp only [step] at hstep
      split at hstep
      · rename_i call below hframes
        cases hstep
        exact .proceed call _ (.dropping statusOk) below locals.tunnel hframes
          (fun _ hpending => .inr (.inl (Option.some.inj hpending).symm))
      · cases hstep
  | bodyErr kind =>
      simp only [step] at hstep
      split at hstep
      · rename_i call below hframes
        cases hstep
        exact .proceed call _ (locals.tunnelCheck call kind) below
          locals.tunnel hframes
          (fun _ hpending => .inr (.inr (pending_tunnelCheck call kind hpending)))
      · cases hstep
  | toStringReturn message =>
      simp only [step] at hstep
      split at hstep
      · rename_i call kind below hframes
        cases hstep
        exact .fail call _ _ below (.err kind message) hframes rfl
      · cases hstep
  | panic message =>
      simp only [step] at hstep
      split at hstep
      · rename_i call phase below hframes
        split at hstep
        · cases hstep
          exact .fail call phase .caught below (.panic message) hframes rfl
        · cases hstep
      · cases hstep
  | shimReturn =>
      simp only [step] at hstep
      split at hstep
      · rename_i call status below hframes
        cases hstep
        exact .proceed call _ (.returned status) below locals.tunnel hframes
          (fun _ hpending => .inl hpending)
      · rename_i call below hframes
        cases hstep
        exact .proceed call _ (.returned statusPanic) below locals.tunnel
          hframes (fun _ hpending => .inl hpending)
      · cases hstep
  | branch =>
      simp only [step] at hstep
      split at hstep
      · rename_i call status below hframes
        cases hstep
        exact .branch call status below hframes
      · cases hstep
  | leave =>
      simp only [step] at hstep
      split at hstep
      · rename_i call below hframes
        cases hstep
        exact .exit call _ below hframes
      · cases hstep
  | invoke =>
      simp only [step] at hstep
      split at hstep
      · rename_i call phase below hframes
        split at hstep
        · rename_i hmay
          rw [Bool.and_eq_true] at hmay
          rw [← hframes] at hstep
          cases hstep
          exact .invoke call phase below hframes hmay.2 rfl
        · cases hstep
      · cases hstep
  | trampolineReturn failure =>
      simp only [step] at hstep
      split at hstep
      · rename_i library closure below hframes
        cases hstep
        exact .trampolineReturn library closure below failure hframes
      · cases hstep
  | invokeStored id =>
      simp only [step] at hstep
      split at hstep
      · cases hstep
        exact .invokeStored id rfl
      · cases hstep
  | lookup =>
      simp only [step] at hstep
      split at hstep
      · rename_i id below hframes
        cases hstep
        exact .lookup id below hframes
      · cases hstep
  | storedReturn failed =>
      simp only [step] at hstep
      split at hstep
      · rename_i id found below hframes
        cases hstep
        exact .storedReturn id found below failed hframes
      · cases hstep
  | enterForeign =>
      simp only [step] at hstep
      split at hstep
      · rename_i hlisp
        cases hstep
        exact .enterForeign hlisp
      · cases hstep
  | leaveForeign =>
      simp only [step] at hstep
      split at hstep
      · rename_i below hframes
        cases hstep
        exact .leaveForeign below hframes
      · cases hstep

end ThreadLocals

end Turns

/-! ## The image -/

structure CallbackState (n : ℕ) (L C K : Type) where
  threads : Fin n → ThreadLocals L C K
  stored : StoredCallbacks K
  /-- The image has been saved and the process is gone. -/
  dumped : Bool
  log : List (CallbackEvent L C K)

inductive CallbackAction (n : ℕ) (L C K : Type)
  | thread (thread : Fin n) (move : ThreadMove L C K)
  /-- `(rulisp:callback closure)`. -/
  | callback (thread : Fin n) (closure : K)
  | unregisterCallback (thread : Fin n) (id : ℕ)
  /-- The garbage collector runs the finalizer of a token. -/
  | finalize (id : ℕ)
  | dump
  | restore
  deriving DecidableEq, Repr

section Image

variable {n : ℕ} {L C K : Type} [DecidableEq L]

namespace CallbackState

def initial (n : ℕ) (L C K : Type) : CallbackState n L C K where
  threads := fun _ => .fresh
  stored := .empty
  dumped := false
  log := []

/-- One thread goes on. -/
def advance (state : CallbackState n L C K) (thread : Fin n)
    (locals : ThreadLocals L C K) (events : List (CallbackEvent L C K)) :
    CallbackState n L C K :=
  { state with
    threads := Function.update state.threads thread locals
    log := state.log ++ events }

/-- One section under `*stored-callbacks-lock*`. -/
def update (state : CallbackState n L C K) (stored : StoredCallbacks K)
    (event : CallbackEvent L C K) : CallbackState n L C K :=
  { state with stored := stored, log := state.log ++ [event] }

def step (state : CallbackState n L C K) :
    CallbackAction n L C K → Option (CallbackState n L C K)
  | .thread thread move =>
      if state.dumped then none
      else
        ((state.threads thread).step state.stored move).map
          fun (locals, events) => state.advance thread locals events
  | .callback thread closure =>
      if !state.dumped && inLisp (state.threads thread).frames then
        let (id, stored) := state.stored.callback closure
        some (state.update stored (.registered id closure))
      else none
  | .unregisterCallback thread id =>
      if !state.dumped && inLisp (state.threads thread).frames then
        if htoken : (state.stored.tokens id).isSome = true then
          let (removed, stored) := state.stored.unregisterCallback id htoken
          some (state.update stored (.unregistered id removed))
        else none
      else none
  | .finalize id =>
      if state.dumped then none
      else if htoken : (state.stored.tokens id).isSome = true then
        some (state.update (state.stored.finalize id htoken) (.finalized id))
      else none
  | .dump => if state.dumped then none else some { state with dumped := true }
  | .restore =>
      -- the registry is part of the image, the threads are not
      if state.dumped then
        some { state with threads := fun _ => .fresh, dumped := false }
      else none

end CallbackState

/-- What a section under the lock does to the registry. -/
inductive LockedSection (stored : StoredCallbacks K) :
    StoredCallbacks K → CallbackEvent L C K → Prop
  | callback (closure : K) :
      LockedSection stored (stored.callback closure).2
        (.registered (stored.nextId + 1) closure)
  | unregister (id : ℕ) (htoken : (stored.tokens id).isSome = true) :
      LockedSection stored (stored.unregisterCallback id htoken).2
        (.unregistered id (stored.table id).isSome)
  | finalize (id : ℕ) (htoken : (stored.tokens id).isSome = true) :
      LockedSection stored (stored.finalize id htoken) (.finalized id)

/-- Every step of the image is one of these. -/
inductive CallbackState.Turn (state : CallbackState n L C K)
    (action : CallbackAction n L C K) : CallbackState n L C K → Prop
  | thread (thread : Fin n) (move : ThreadMove L C K)
      (locals : ThreadLocals L C K) (events : List (CallbackEvent L C K))
      (haction : action = .thread thread move)
      (hturn : (state.threads thread).Turn state.stored move locals events) :
      Turn state action (state.advance thread locals events)
  | locked (stored : StoredCallbacks K) (event : CallbackEvent L C K)
      (hsection : LockedSection state.stored stored event) :
      Turn state action (state.update stored event)
  | dump : Turn state action { state with dumped := true }
  | restore :
      Turn state action
        { state with threads := fun _ => .fresh, dumped := false }

theorem CallbackState.turn_of_step {state next : CallbackState n L C K}
    {action : CallbackAction n L C K} (hstep : state.step action = some next) :
    state.Turn action next := by
  cases action with
  | thread thread move =>
      simp only [step] at hstep
      split at hstep
      · cases hstep
      · obtain ⟨⟨locals, events⟩, hmove, rfl⟩ := Option.map_eq_some_iff.mp hstep
        exact .thread thread move locals events rfl
          (ThreadLocals.turn_of_step hmove)
  | callback thread closure =>
      simp only [step] at hstep
      split at hstep
      · cases hstep
        exact .locked _ _ (.callback closure)
      · cases hstep
  | unregisterCallback thread id =>
      simp only [step] at hstep
      split at hstep
      · split at hstep
        · rename_i htoken
          cases hstep
          exact .locked _ _ (.unregister id htoken)
        · cases hstep
      · cases hstep
  | finalize id =>
      simp only [step] at hstep
      split at hstep
      · cases hstep
      · split at hstep
        · rename_i htoken
          cases hstep
          exact .locked _ _ (.finalize id htoken)
        · cases hstep
  | dump =>
      simp only [step] at hstep
      split at hstep
      · cases hstep
      · cases hstep
        exact .dump
  | restore =>
      simp only [step] at hstep
      split at hstep
      · cases hstep
        exact .restore
      · cases hstep

/-- What a fresh thread has and every turn keeps, every thread has. -/
theorem CallbackState.Turn.threads {state next : CallbackState n L C K}
    {action : CallbackAction n L C K} (hturn : state.Turn action next)
    {inv : ThreadLocals L C K → Prop} (hfresh : inv .fresh)
    (hinv : ∀ thread, inv (state.threads thread))
    (hkeeps : ∀ thread move locals events, action = .thread thread move →
      (state.threads thread).Turn state.stored move locals events →
      inv locals) :
    ∀ thread, inv (next.threads thread) := by
  intro other
  cases hturn with
  | thread thread move locals events haction hturn =>
      by_cases hother : other = thread
      · simpa [advance, hother] using
          hkeeps thread move locals events haction hturn
      · simpa [advance, hother] using hinv other
  | locked stored event hsection => exact hinv other
  | dump => exact hinv other
  | restore => exact hfresh

/-- A record of the history is an earlier one or that of this turn. -/
theorem CallbackState.Turn.observed {state next : CallbackState n L C K}
    {action : CallbackAction n L C K} (hturn : state.Turn action next)
    {record : StatusRecord L C K} (hrecord : .observed record ∈ next.log) :
    .observed record ∈ state.log ∨
      ∃ thread call status below,
        (state.threads thread).frames =
            .wrapper call (.returned status) :: below ∧
          record = (state.threads thread).statusRecord call status := by
  cases hturn with
  | thread thread move locals events haction hturn =>
      rcases List.mem_append.mp hrecord with hearlier | hnow
      · exact .inl hearlier
      · cases hturn with
        | branch call status below hframes =>
            simp only [List.mem_singleton, CallbackEvent.observed.injEq] at hnow
            exact .inr ⟨thread, call, status, below, hframes, hnow⟩
        | lookup id below hframes => simp at hnow
        | storedReturn id found below failed hframes => simp at hnow
        | _ => cases hnow
  | locked stored event hsection =>
      rcases List.mem_append.mp hrecord with hearlier | hnow
      · exact .inl hearlier
      · rw [List.mem_singleton] at hnow
        subst hnow
        cases hsection
  | dump => exact .inl hrecord
  | restore => exact .inl hrecord

/-- What wrappers have signaled, in order. -/
def CallbackState.conditions (state : CallbackState n L C K) :
    List (CrateCondition C) :=
  state.log.filterMap fun
    | .observed record => record.condition
    | _ => none

/-- All interleavings of `n` threads over one image and its restores. -/
def callbackMachine (n : ℕ) (L C K : Type) [DecidableEq L] :
    TransitionSystem.System (CallbackState n L C K)
      (CallbackAction n L C K) where
  step := CallbackState.step

end Image

end Rulisp
