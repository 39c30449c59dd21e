import Rulisp.FetchCompletion
import Rulisp.HeaderBlocks
import Rulisp.VeneerErrors

/-!
# An exchange of `http.lisp`

One call of `request`: the loop around `retry-request`, the drain loop, the
look at the settled error before the status is trusted, and the free in
`unwind-protect`.  The task of the request moves between any two of the
calls.  Handlers of a signalled condition choose whether it is retried, and
the thread may be interrupted wherever the handle is held.
-/

namespace Rulisp

namespace Http

open TransitionSystem Fetch
open HeaderBlock (TextHost Designator)

abbrev Headers := List (List ℕ × List ℕ)

/-- The arguments of `request`; a `sink` is the path of a file. -/
structure Call where
  url : String
  headers : List (Designator × HeaderValue)
  sink : Option String
  maxBytes : ℕ
  expectSuccess : Bool
  queueChunks : ℕ

/-- What leaves `request` other than by `return`. -/
inductive Condition
  | httpError (kind detail : String) (status : Option ℕ) (url : Option String)
  | encodingError
  deriving DecidableEq, Repr

inductive Outcome
  | values (body : Option Bytes) (status : ℕ) (headers : Headers)
  | condition (c : Condition)
  | interrupted
  deriving DecidableEq, Repr

/-- Which foreign call the thread makes next. -/
inductive Phase
  | make
  | read
  | addPermit (chunk : Bytes)
  | done
  | readFailed (err : HttpError)
  | errorKind
  | errorMessage (kind : String)
  | errorStatus (kind detail : String)
  | status
  | headers (status : ℕ)
  | signalled (c : Condition)
  | free (outcome : Option Outcome)
  | finished (outcome : Outcome)
  deriving DecidableEq, Repr

/-- Where the thread is once it holds nothing: out of `request`, or in its
loop again. -/
def Phase.leaves : Option Outcome → Phase
  | some outcome => .finished outcome
  | none => .make

/-- The thread in `request`; `made` and `freed` count handles. -/
structure Exchange where
  phase : Phase
  req : Option Request
  held : Bool
  parts : List Bytes
  total : ℕ
  made : ℕ
  freed : ℕ

def Exchange.start : Exchange where
  phase := .make
  req := none
  held := false
  parts := []
  total := 0
  made := 0
  freed := 0

/-- `(replace out p :start1 at)`. -/
def replaceAt (out p : Bytes) (start : ℕ) : Bytes :=
  out.take start ++ p.take (out.length - start) ++ out.drop (start + p.length)

/-- The copy at the end of `%drain`, from the parts in order. -/
def assemble : List Bytes → ℕ → Bytes → Bytes
  | [], _, out => out
  | p :: rest, at_, out =>
      assemble rest (at_ + p.length) (replaceAt out p at_)

/-- `out` of `%drain`; the parts were pushed. -/
def drained (parts : List Bytes) (total : ℕ) : Bytes :=
  assemble parts.reverse 0 (List.replicate total 0)

/-- `%status-or-nil`. -/
def statusOrNil (st : State) : Option ℕ :=
  if 0 < st.status then some st.status else none

/-- `%translating`. -/
def translated (err : HttpError) (status : Option ℕ) (url : String) :
    Condition :=
  let (kind, detail) := Veneer.splitKind (Veneer.display err.kind err.msg)
  .httpError kind detail status (some url)

inductive ExchangeAction
  | make (answer : Except HttpError ℕ)
  | task (action : RequestAction)
  | advance (waited : Bool)
  | restart (retry : Bool)
  | interrupt
  deriving Repr

section Steps

variable (text : TextHost) (call : Call) (x : Exchange)

/-- Where a drain loop starts and goes on after a chunk. -/
def Call.loop : Phase :=
  if call.sink.isSome then .done else .read

/-- The chunk size that the loop asks for; 0 is no limit. -/
def Call.readSize : ℕ :=
  if call.sink.isSome then 0 else 1048576

/-- The request that `MAKE-REQ` returns, with its task spawned. -/
def Call.spawned (id : ℕ) : Request :=
  { Request.start call.queueChunks call.sink.isSome call.maxBytes with
    id := id, phase := .sending }

/-- `MAKE-REQ`, whose answer is that of `Req::start`. -/
def Exchange.make (answer : Except HttpError ℕ) : Option Exchange :=
  match x.phase with
  | .make =>
      match lispEncodeHeaders text call.headers, answer with
      | .error (.httpError kind detail), _ =>
          some { x with phase := .signalled (.httpError kind detail none none) }
      | .error .encodingError, _ =>
          some { x with phase := .signalled .encodingError }
      | .ok _, .error err =>
          some { x with
            phase := .signalled (translated err none call.url) }
      | .ok _, .ok id =>
          some { x with
            phase := call.loop
            req := some (call.spawned id)
            held := true
            parts := []
            total := 0
            made := x.made + 1 }
  | _ => none

/-- A step of the task, or of another thread that shuts the client down; the
handle is this thread's, so nobody else reads. -/
def Exchange.task (action : RequestAction) : Option Exchange :=
  match x.req with
  | none => none
  | some r =>
      if action.ofReader then none
      else (r.step action).map fun r' => { x with req := some r' }

/-- A chunk is pushed, or dropped by the loop of a sink. -/
def Exchange.push (chunk : Bytes) : Exchange :=
  if call.sink.isSome then { x with phase := call.loop }
  else { x with
    phase := call.loop
    parts := chunk :: x.parts
    total := x.total + chunk.length }

/-- `REQ-READ`, as far as its lock; `waited` when its wait is over. -/
def Exchange.read (r : Request) (waited : Bool) : Option Exchange :=
  match r.read call.readSize waited with
  | none => none
  | some r' =>
      let x' := { x with req := some r' }
      match r.st.read (readLimit call.readSize) with
      | (.chunk chunk, true, _) => some { x' with phase := .addPermit chunk }
      | (.chunk chunk, false, _) => some (x'.push call chunk)
      | (.error err, _) => some { x' with phase := .readFailed err }
      | (.endOfBody, _) | (.notReady, _) => some { x' with phase := .done }

/-- The next foreign call of the thread. -/
def Exchange.advance (waited : Bool) : Option Exchange :=
  match x.phase, x.req with
  | .read, some r => x.read call r waited
  | .addPermit chunk, some r =>
      r.returnPermit.map fun r' => { x with req := some r' }.push call chunk
  | .done, some r =>
      some { x with phase := if r.st.done then .errorKind else .read }
  | .readFailed err, some r =>
      some { x with
        phase := .signalled (translated err (statusOrNil r.st) call.url) }
  | .errorKind, some r =>
      some { x with
        phase :=
          match r.st.err with
          | some err => .errorMessage err.kind
          | none => .status }
  | .errorMessage kind, some r =>
      some { x with
        phase := .errorStatus kind
          (match r.st.err with
          | some err => err.msg
          | none => "") }
  | .errorStatus kind detail, some r =>
      some { x with
        phase := .signalled
          (.httpError kind detail (statusOrNil r.st) (some call.url)) }
  | .status, some r => some { x with phase := .headers r.st.status }
  | .headers status, some r =>
      if call.expectSuccess ∧ ¬(200 ≤ status ∧ status ≤ 299) then
        some { x with
          phase := .signalled (.httpError "status"
            ("server returned " ++ toString status) (some status)
            (some call.url)) }
      else
        some { x with
          phase := .free (some (.values
            (if call.sink.isSome then none
              else some (drained x.parts x.total))
            status (lispDecodeHeaders text r.st.headers))) }
  | .free outcome, some r =>
      some { x with
        req := some { r with cancelled := true }
        held := false
        freed := x.freed + 1
        phase := .leaves outcome }
  | _, _ => none

/-- The stack unwinds, through `unwind-protect` where there is a handle. -/
def Exchange.unwind (outcome : Option Outcome) : Exchange :=
  { x with phase := if x.held then .free outcome else .leaves outcome }

/-- A handler takes `retry-request`, or none takes a restart. -/
def Exchange.restart (retry : Bool) : Option Exchange :=
  match x.phase with
  | .signalled c =>
      some (x.unwind (if retry then none else some (.condition c)))
  | _ => none

/-- A non-local exit of the thread, as it comes to a foreign call of the
protected form or to `MAKE-REQ`; neither a foreign call nor the way into the
form and out of its cleanup is interrupted. -/
def Exchange.interrupt : Option Exchange :=
  match x.phase with
  | .addPermit _ | .free _ | .finished _ => none
  | _ => some (x.unwind (some .interrupted))

def Exchange.step : ExchangeAction → Option Exchange
  | .make answer => x.make text call answer
  | .task action => x.task action
  | .advance waited => x.advance text call waited
  | .restart retry => x.restart retry
  | .interrupt => x.interrupt

end Steps

def exchangeSystem (text : TextHost) (call : Call) :
    System Exchange ExchangeAction where
  step := Exchange.step text call

end Http

end Rulisp
