import Rulisp.TransitionSystem

/-!
# A request of `fetch`

One request: the state under its mutex, the semaphore of chunk slots, and the
task.  A step is a section under the lock, an atomic access, or what an await
of the task resolves to.  A thread in `read` holds nothing between its two
accesses but the permit it owes, so the threads are counted, not named, and
there may be any number of them.  Notifications carry no data: a wait may end
at any time, by one of them, by its cap or spuriously.
-/

namespace Rulisp

namespace Fetch

structure HttpError where
  kind : String
  msg : String
  deriving DecidableEq, Repr

def HttpError.usage (msg : String) : HttpError := ⟨"usage", msg⟩

def HttpError.busy (msg : String) : HttpError := ⟨"busy", msg⟩

/-- The error of a failed exchange, as both of its sites build it. -/
def transferError (isTimeout : Bool) (text : String) : HttpError :=
  ⟨if isTimeout then "timeout" else "transport", text⟩

abbrev Bytes := List UInt8

/-- `State`. -/
structure State where
  settled : Bool
  err : Option HttpError
  status : ℕ
  headers : Bytes
  headDone : Bool
  chunks : List Bytes
  buffered : ℕ
  eof : Bool
  deriving DecidableEq, Repr

def State.new : State where
  settled := false
  err := none
  status := 0
  headers := []
  headDone := false
  chunks := []
  buffered := 0
  eof := false

/-! ## Sections under the lock -/

/-- `Shared::settle`. -/
def State.settle (st : State) (err : Option HttpError) : State :=
  if st.settled then st
  else { st with settled := true, err := st.err.or err }

/-- `Req::done`. -/
def State.done (st : State) : Bool :=
  st.settled && st.chunks.isEmpty

/-- What `Req::read` returns; the last two are both `Ok(None)`. -/
inductive ReadResult
  | chunk (bytes : Bytes)
  | error (err : HttpError)
  | endOfBody
  | notReady
  deriving DecidableEq, Repr

/-- `max_bytes`, where 0 stands for `usize::MAX`. -/
def readLimit (maxBytes : ℕ) : ℕ :=
  if maxBytes = 0 then 2 ^ 64 - 1 else maxBytes

/-- The first test of `Req::read`. -/
def State.mustWait (st : State) : Bool :=
  st.chunks.isEmpty && !st.settled

/-- The rest of the locked part of `Req::read`: the result, whether a permit
is to be given back, and the state. -/
def State.read (st : State) (max : ℕ) : ReadResult × Bool × State :=
  match st.chunks with
  | chunk :: chunks =>
      if max < chunk.length then
        (.chunk (chunk.take max), false,
          { st with
            chunks := chunk.drop max :: chunks
            buffered := st.buffered - (chunk.take max).length })
      else
        (.chunk chunk, true,
          { st with
            chunks := chunks
            buffered := st.buffered - chunk.length })
  | [] =>
      if st.settled then
        match st.err with
        | some err => (.error err, false, st)
        | none => (.endOfBody, false, st)
      else (.notReady, false, st)

/-- The body loop queues a chunk. -/
def State.queue (st : State) (bytes : Bytes) : State :=
  { st with
    buffered := st.buffered + bytes.length
    chunks := st.chunks ++ [bytes] }

/-! ## The task -/

/-- Where the constructor and then the task of a request is.  `failed` says
that the error branch of the task has settled the request. -/
inductive TaskPhase
  | admitted
  | identified
  | leaked
  | sending
  | head (length : Option ℕ)
  | creating
  | streaming
  | writing (bytes : Bytes)
  | acquiring (bytes : Bytes)
  | granted (bytes : Bytes)
  | queueing (bytes : Bytes)
  | flushing
  | ending
  | returned (result : Option HttpError)
  | leaving (failed : Bool)
  | dropping (failed cancelled : Bool)
  | released (failed cancelled : Bool)
  | uncounted (failed cancelled : Bool)
  | pushed (failed cancelled : Bool)
  | finished
  deriving DecidableEq, Repr

/-- The task is at an await, where the future can be dropped. -/
def TaskPhase.awaiting : TaskPhase → Bool
  | .sending | .creating | .streaming | .flushing => true
  | .writing _ | .acquiring _ | .granted _ => true
  | _ => false

/-- Chunk permits that the task has acquired and not yet turned into a queued
chunk. -/
def TaskPhase.inTransit : TaskPhase → ℕ
  | .granted _ | .queueing _ => 1
  | _ => 0

/-- The request has been settled by the time the task is here. -/
def TaskPhase.settled : TaskPhase → Bool
  | .leaving failed => failed
  | .dropping failed _ | .released failed _ => failed
  | .uncounted failed _ | .pushed failed _ => failed
  | .finished => true
  | _ => false

/-- The admission permit of the request has been acquired and not returned. -/
def TaskPhase.holdsPermit : TaskPhase → Bool
  | .released _ _ | .uncounted _ _ | .pushed _ _ | .finished => false
  | _ => true

/-- `in_flight` counts the request. -/
def TaskPhase.counted : TaskPhase → Bool
  | .admitted | .identified | .leaked => false
  | .uncounted _ _ | .pushed _ _ | .finished => false
  | _ => true

/-! ## Steps -/

/-- What happens to the bytes of the body, in the order of the lock. -/
inductive BodyEvent
  | queued (bytes : Bytes)
  | read (result : ReadResult)
  deriving DecidableEq, Repr

/-- A request: `Shared`, the task with what its `write_all`s have put into the
file of a sink, and the permits that reads have taken and not yet returned. -/
structure Request where
  id : ℕ
  sink : Bool
  maxBodyBytes : ℕ
  st : State
  received : ℕ
  total : ℤ
  cancelled : Bool
  chunkPermits : ℕ
  phase : TaskPhase
  written : Bytes
  returning : ℕ
  log : List BodyEvent
  deriving DecidableEq, Repr

/-- The request that `Req::start` builds once it is admitted. -/
def Request.start (queueChunks : ℕ) (sink : Bool) (maxBodyBytes : ℕ) :
    Request where
  id := 0
  sink := sink
  maxBodyBytes := maxBodyBytes
  st := State.new
  received := 0
  total := -1
  cancelled := false
  chunkPermits := queueChunks
  phase := .admitted
  written := []
  returning := 0
  log := []

inductive RequestAction
  | identify (id : ℕ)
  | spawn
  | runtimeGone
  | respond (status : ℕ) (headers : Bytes) (length : Option ℕ)
  | sendFailed (isTimeout : Bool) (text : String)
  | storeTotal
  | created
  | createFailed (text : String)
  | arrive (bytes : Bytes)
  | streamFailed (isTimeout : Bool) (text : String)
  | streamEnd
  | written
  | writeFailed (text : String)
  | grant
  | acquired
  | stall
  | queue
  | flushed
  | flushFailed (text : String)
  | markEof
  | finish
  | abandon
  | isCancelled
  | addPermit
  | decrement
  | pushReady
  | settle
  | cancel
  | read (maxBytes : ℕ) (waited : Bool)
  | returnPermit
  deriving DecidableEq, Repr

section Steps

variable (r : Request)

/-- `Req::start`, from the permit to the spawn. -/
def Request.identify (id : ℕ) : Option Request :=
  match r.phase with
  | .admitted => some { r with id := id, phase := .identified }
  | _ => none

def Request.spawn (running : Bool) : Option Request :=
  match r.phase with
  | .identified =>
      some { r with phase := if running then .sending else .leaked }
  | _ => none

/-- The await of the request's head. -/
def Request.respond (status : ℕ) (headers : Bytes) (length : Option ℕ) :
    Option Request :=
  match r.phase with
  | .sending =>
      some { r with
        st := { r.st with
          status := status, headers := headers, headDone := true }
        phase := .head length }
  | _ => none

/-- The task fails where it is, if it is at the given await. -/
def Request.fail (site : TaskPhase) (err : HttpError) : Option Request :=
  if r.phase = site then some { r with phase := .returned (some err) }
  else none

/-- The task moves on, if it is at the given await. -/
def Request.proceed (site next : TaskPhase) : Option Request :=
  if r.phase = site then some { r with phase := next } else none

def Request.storeTotal : Option Request :=
  match r.phase with
  | .head length =>
      some { r with
        total := (length.map fun len => Int.bmod len (2 ^ 64)).getD r.total
        phase := if r.sink then .creating else .streaming }
  | _ => none

/-- A chunk of the body has arrived and is counted. -/
def Request.arrive (bytes : Bytes) : Option Request :=
  match r.phase with
  | .streaming =>
      let total := r.received + bytes.length
      some { r with
        received := total
        phase :=
          if 0 < r.maxBodyBytes ∧ r.maxBodyBytes < total then
            .returned (some ⟨"too-large",
              "body exceeded " ++ toString r.maxBodyBytes ++ " bytes"⟩)
          else if r.sink then .writing bytes
          else .acquiring bytes }
  | _ => none

/-- The await of a chunk's `write_all`; one that fails may have written a part
of it. -/
def Request.write : Option Request :=
  match r.phase with
  | .writing bytes =>
      some { r with written := r.written ++ bytes, phase := .streaming }
  | _ => none

def Request.writeFail (text : String) : Option Request :=
  match r.phase with
  | .writing _ => some { r with phase := .returned (some ⟨"io", text⟩) }
  | _ => none

/-- The semaphore assigns a permit to the waiting task. -/
def Request.grant : Option Request :=
  match r.phase with
  | .acquiring bytes =>
      if r.chunkPermits = 0 then none
      else some { r with
        chunkPermits := r.chunkPermits - 1
        phase := .granted bytes }
  | _ => none

/-- The task finds its permit. -/
def Request.acquired : Option Request :=
  match r.phase with
  | .granted bytes => some { r with phase := .queueing bytes }
  | _ => none

/-- The acquire future is dropped; a permit assigned to it goes back. -/
def Request.dropAcquire : ℕ :=
  match r.phase with
  | .granted _ => r.chunkPermits + 1
  | _ => r.chunkPermits

def Request.stall : Option Request :=
  match r.phase with
  | .acquiring _ | .granted _ =>
      some { r with
        chunkPermits := r.dropAcquire
        phase := .returned (some ⟨"stalled",
          "reader did not drain the buffer in time"⟩) }
  | _ => none

def Request.queue : Option Request :=
  match r.phase with
  | .queueing bytes =>
      some { r with
        st := r.st.queue bytes
        phase := .streaming
        log := r.log ++ [.queued bytes] }
  | _ => none

def Request.markEof : Option Request :=
  match r.phase with
  | .ending =>
      some { r with
        st := { r.st with eof := true }
        phase := .returned none }
  | _ => none

/-- The arm of the select on what `run_request` returned. -/
def Request.finish : Option Request :=
  match r.phase with
  | .returned (some err) =>
      some { r with st := r.st.settle (some err), phase := .leaving true }
  | .returned none => some { r with phase := .leaving false }
  | _ => none

/-- The arm of the select on cancellation; the runtime drops a future at an
await too, and cancels it first. -/
def Request.abandon : Option Request :=
  if r.cancelled ∧ r.phase.awaiting then
    some { r with chunkPermits := r.dropAcquire, phase := .leaving false }
  else none

/-! `TaskGuard::drop`. -/

def Request.isCancelled : Option Request :=
  match r.phase with
  | .leaving failed => some { r with phase := .dropping failed r.cancelled }
  | _ => none

def Request.addPermit : Option Request :=
  match r.phase with
  | .dropping failed cancelled =>
      some { r with phase := .released failed cancelled }
  | _ => none

def Request.decrement : Option Request :=
  match r.phase with
  | .released failed cancelled =>
      some { r with phase := .uncounted failed cancelled }
  | _ => none

def Request.pushReady : Option Request :=
  match r.phase with
  | .uncounted failed cancelled =>
      some { r with phase := .pushed failed cancelled }
  | _ => none

def Request.settle : Option Request :=
  match r.phase with
  | .pushed _ cancelled =>
      let err := if cancelled then
        some ⟨"cancelled", "request cancelled"⟩ else none
      some { r with st := r.st.settle err, phase := .finished }
  | _ => none

/-- The last locked part of a `read`, which has waited or need not. -/
def Request.read (maxBytes : ℕ) (waited : Bool) : Option Request :=
  if waited ∨ r.st.mustWait = false then
    let (result, giveBack, st) := r.st.read (readLimit maxBytes)
    some { r with
      st := st
      returning := if giveBack then r.returning + 1 else r.returning
      log := r.log ++ [.read result] }
  else none

/-- A `read` that took a whole chunk returns its permit. -/
def Request.returnPermit : Option Request :=
  if r.returning = 0 then none
  else some { r with
    returning := r.returning - 1
    chunkPermits := r.chunkPermits + 1 }

def Request.step : RequestAction → Option Request
  | .identify id => r.identify id
  | .spawn => r.spawn true
  | .runtimeGone => r.spawn false
  | .respond status headers length => r.respond status headers length
  | .sendFailed isTimeout text =>
      r.fail .sending (transferError isTimeout text)
  | .storeTotal => r.storeTotal
  | .created => r.proceed .creating .streaming
  | .createFailed text => r.fail .creating ⟨"io", text⟩
  | .arrive bytes => r.arrive bytes
  | .streamFailed isTimeout text =>
      r.fail .streaming (transferError isTimeout text)
  | .streamEnd =>
      r.proceed .streaming (if r.sink then .flushing else .ending)
  | .written => r.write
  | .writeFailed text => r.writeFail text
  | .grant => r.grant
  | .acquired => r.acquired
  | .stall => r.stall
  | .queue => r.queue
  | .flushed => r.proceed .flushing .ending
  | .flushFailed text => r.fail .flushing ⟨"io", text⟩
  | .markEof => r.markEof
  | .finish => r.finish
  | .abandon => r.abandon
  | .isCancelled => r.isCancelled
  | .addPermit => r.addPermit
  | .decrement => r.decrement
  | .pushReady => r.pushReady
  | .settle => r.settle
  | .cancel => some { r with cancelled := true }
  | .read maxBytes waited => r.read maxBytes waited
  | .returnPermit => r.returnPermit

end Steps

/-! ## What a step can do -/

/-- A step that leaves the body and its accounting alone. -/
structure Request.SameBody (r r' : Request) : Prop where
  settled : r'.st.settled = r.st.settled
  chunks : r'.st.chunks = r.st.chunks
  buffered : r'.st.buffered = r.st.buffered
  chunkPermits : r'.chunkPermits = r.chunkPermits
  returning : r'.returning = r.returning
  log : r'.log = r.log
  inTransit : r'.phase.inTransit = r.phase.inTransit
  phaseSettled : r'.phase.settled = r.phase.settled

/-- Every step does one of these. -/
inductive Request.Effect (r : Request) : Request → Prop
  | quiet {r' : Request} (hsame : r.SameBody r') : Effect r r'
  | granted {bytes : Bytes} (hphase : r.phase = .acquiring bytes)
      (hpermit : r.chunkPermits ≠ 0) :
      Effect r { r with
        chunkPermits := r.chunkPermits - 1, phase := .granted bytes }
  | givenBack {bytes : Bytes} {phase : TaskPhase}
      (hphase : r.phase = .granted bytes) (htransit : phase.inTransit = 0)
      (hsettled : phase.settled = false) :
      Effect r { r with chunkPermits := r.chunkPermits + 1, phase := phase }
  | queued {bytes : Bytes} (hphase : r.phase = .queueing bytes) :
      Effect r { r with
        st := r.st.queue bytes
        phase := .streaming
        log := r.log ++ [.queued bytes] }
  | settled {err : Option HttpError} {phase : TaskPhase}
      (htransit : r.phase.inTransit = 0) (htransit' : phase.inTransit = 0)
      (hsettled : phase.settled = true) :
      Effect r { r with st := r.st.settle err, phase := phase }
  | read (max : ℕ) :
      Effect r { r with
        st := (r.st.read max).2.2
        returning := if (r.st.read max).2.1 then r.returning + 1
          else r.returning
        log := r.log ++ [.read (r.st.read max).1] }
  | returned (hreturning : r.returning ≠ 0) :
      Effect r { r with
        returning := r.returning - 1, chunkPermits := r.chunkPermits + 1 }

section Effects

variable {r r' : Request}

/-- A step between two places of the task that settles nothing and holds no
chunk permit. -/
theorem Request.Effect.moved {phase : TaskPhase}
    (htransit : phase.inTransit = r.phase.inTransit)
    (hsettled : phase.settled = r.phase.settled) :
    r.Effect { r with phase := phase } :=
  .quiet ⟨rfl, rfl, rfl, rfl, rfl, rfl, htransit, hsettled⟩

theorem Request.fail_effect {site : TaskPhase} {err : HttpError}
    (hstep : r.fail site err = some r') (htransit : site.inTransit = 0)
    (hsettled : site.settled = false) : r.Effect r' := by
  unfold Request.fail at hstep
  split at hstep
  · rename_i hphase
    cases hstep
    exact .moved (by rw [hphase, htransit]; rfl) (by rw [hphase, hsettled]; rfl)
  · cases hstep

theorem Request.proceed_effect {site next : TaskPhase}
    (hstep : r.proceed site next = some r')
    (htransit : next.inTransit = site.inTransit)
    (hsettled : next.settled = site.settled) : r.Effect r' := by
  unfold Request.proceed at hstep
  split at hstep
  · rename_i hphase
    cases hstep
    exact .moved (by rw [hphase, htransit]) (by rw [hphase, hsettled])
  · cases hstep

theorem Request.arrive_effect {bytes : Bytes}
    (hstep : r.arrive bytes = some r') : r.Effect r' := by
  unfold Request.arrive at hstep
  split at hstep
  · rename_i hphase
    cases hstep
    constructor
    constructor <;> try rfl
    · simp only [hphase]
      split_ifs <;> rfl
    · simp only [hphase]
      split_ifs <;> rfl
  · cases hstep

theorem Request.grant_effect (hstep : r.grant = some r') : r.Effect r' := by
  unfold Request.grant at hstep
  split at hstep
  · rename_i bytes hphase
    split at hstep
    · cases hstep
    · rename_i hpermit
      cases hstep
      exact .granted hphase hpermit
  · cases hstep

/-- The task leaves the await of a permit. -/
theorem Request.dropAcquire_effect {phase : TaskPhase}
    (hawaiting : r.phase.awaiting = true) (htransit : phase.inTransit = 0)
    (hsettled : phase.settled = false) :
    r.Effect { r with chunkPermits := r.dropAcquire, phase := phase } := by
  unfold Request.dropAcquire
  split
  · rename_i bytes hphase
    exact .givenBack hphase htransit hsettled
  · rename_i hgranted
    have hbefore : r.phase.inTransit = 0 ∧ r.phase.settled = false := by
      revert hawaiting hgranted
      cases r.phase <;> simp [TaskPhase.awaiting, TaskPhase.inTransit,
        TaskPhase.settled]
    exact .moved (htransit.trans hbefore.1.symm)
      (hsettled.trans hbefore.2.symm)

theorem Request.stall_effect (hstep : r.stall = some r') : r.Effect r' := by
  unfold Request.stall at hstep
  split at hstep
  · rename_i bytes hphase
    cases hstep
    exact Request.dropAcquire_effect (by rw [hphase]; rfl) rfl rfl
  · rename_i bytes hphase
    cases hstep
    exact Request.dropAcquire_effect (by rw [hphase]; rfl) rfl rfl
  · cases hstep

theorem Request.abandon_effect (hstep : r.abandon = some r') :
    r.Effect r' := by
  unfold Request.abandon at hstep
  split at hstep
  · rename_i hcan
    cases hstep
    exact Request.dropAcquire_effect hcan.2 rfl rfl
  · cases hstep

theorem Request.finish_effect (hstep : r.finish = some r') :
    r.Effect r' := by
  unfold Request.finish at hstep
  split at hstep
  · rename_i err hphase
    cases hstep
    exact .settled (by rw [hphase]; rfl) rfl rfl
  · rename_i hphase
    cases hstep
    exact .moved (by rw [hphase]; rfl) (by rw [hphase]; rfl)
  · cases hstep

theorem Request.settle_effect (hstep : r.settle = some r') :
    r.Effect r' := by
  unfold Request.settle at hstep
  split at hstep
  · rename_i failed cancelled hphase
    cases hstep
    exact .settled (by rw [hphase]; rfl) rfl rfl
  · cases hstep

theorem Request.read_effect {maxBytes : ℕ} {waited : Bool}
    (hstep : r.read maxBytes waited = some r') : r.Effect r' := by
  unfold Request.read at hstep
  split at hstep
  · cases hstep
    exact .read (readLimit maxBytes)
  · cases hstep

theorem Request.returnPermit_effect (hstep : r.returnPermit = some r') :
    r.Effect r' := by
  unfold Request.returnPermit at hstep
  split at hstep
  · cases hstep
  · rename_i hreturning
    cases hstep
    exact .returned hreturning

theorem Request.step_effect {action : RequestAction}
    (hstep : r.step action = some r') : r.Effect r' := by
  cases action with
  | grant => exact Request.grant_effect hstep
  | stall => exact Request.stall_effect hstep
  | abandon => exact Request.abandon_effect hstep
  | finish => exact Request.finish_effect hstep
  | settle => exact Request.settle_effect hstep
  | read maxBytes waited => exact Request.read_effect hstep
  | returnPermit => exact Request.returnPermit_effect hstep
  | arrive bytes => exact Request.arrive_effect hstep
  | sendFailed isTimeout text => exact Request.fail_effect hstep rfl rfl
  | createFailed text => exact Request.fail_effect hstep rfl rfl
  | streamFailed isTimeout text => exact Request.fail_effect hstep rfl rfl
  | flushFailed text => exact Request.fail_effect hstep rfl rfl
  | created => exact Request.proceed_effect hstep rfl rfl
  | flushed => exact Request.proceed_effect hstep rfl rfl
  | streamEnd =>
      exact Request.proceed_effect hstep (by split_ifs <;> rfl)
        (by split_ifs <;> rfl)
  | cancel =>
      cases hstep
      exact .quiet ⟨rfl, rfl, rfl, rfl, rfl, rfl, rfl, rfl⟩
  | queue =>
      simp only [Request.step, Request.queue] at hstep
      split at hstep
      · rename_i bytes hphase
        cases hstep
        exact .queued hphase
      · cases hstep
  | _ =>
      simp only [Request.step, Request.identify, Request.spawn,
        Request.respond, Request.storeTotal, Request.write,
        Request.writeFail, Request.acquired, Request.markEof,
        Request.isCancelled, Request.addPermit, Request.decrement,
        Request.pushReady] at hstep
      split at hstep
      · rename_i hphase
        cases hstep
        constructor
        constructor <;> try rfl
        · simp only [hphase]
          try split_ifs
          all_goals rfl
        · simp only [hphase]
          try split_ifs
          all_goals rfl
      · cases hstep

end Effects

/-- One request and everything that can happen to it. -/
def requestSystem : TransitionSystem.System Request RequestAction where
  step := Request.step

end Fetch

end Rulisp
