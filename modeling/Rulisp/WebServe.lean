import Rulisp.HttpdAnsweredOnce

/-!
# The pullers of `web.lisp`

`%serve` and `%handle` on any number of threads over one server.  A step of a
puller is one of its foreign calls, or the part of one up to the next access
of the server; between any two of them the tasks of the server and the other
pullers move.  A handler is taken to answer through `respond` and
`respond-file`, on its puller's thread: when and how often it does, how it is
left and which restart is taken is the environment's choice.  One that calls
the substrate's own functions on its request, frees it or hands it to another
thread is not in the model.
-/

namespace Rulisp

namespace Web

open Httpd

/-- Where a puller is.  `failing` says that the call is that of
`%respond-500`, `exits` that the thread leaves `%serve` after the free. -/
inductive PullerPhase
  | top
  | wait
  | prune
  | waiting
  | take
  | pull
  | hold (index : ℕ)
  | handler (index : ℕ)
  | replyTaken (index : ℕ) (failing : Bool)
  | sending (index : ℕ) (failing : Bool)
  | free (index : ℕ) (exits : Bool)
  | dropping (index : ℕ) (exits : Bool)
  | dropped (index : ℕ) (exits : Bool)
  | left
  deriving DecidableEq, Repr

/-- A thread in `%serve`, with its binding of `%*answered*`. -/
structure Puller where
  phase : PullerPhase
  answered : Bool
  deriving DecidableEq, Repr

/-- A server and the threads that serve it.  `stopCell` is the cell that
`stop` sets, and `warned` the requests whose handler is said to have returned
without responding. -/
structure Serving where
  svc : Svc
  stopCell : Bool
  pullers : List Puller
  warned : List ℕ

def Serving.new (cap : ℕ) (handlerWait : Bool) (threads : ℕ) : Serving where
  svc := .new cap handlerWait
  stopCell := false
  pullers := List.replicate threads ⟨.top, false⟩
  warned := []

/-- What a handler does, or what is chosen in its dynamic extent.  Its calls
are those of `web.lisp`, which set `%*answered*`, on its puller's thread. -/
inductive HandlerEvent
  | respond (status : ℕ) (headers : Option Bytes) (body : Bytes)
  | respondFile (built : Except HttpError Response)
  | returns
  | signals
  | respond500
  | retryHandler
  | skipRequest
  | exits

inductive ServeAction
  | server (action : HttpdAction)
  | stop
  | loop (puller : ℕ)
  | handler (puller : ℕ) (event : HandlerEvent)

/-- The accesses that only a call on a request makes.  Nobody but the pullers
makes them. -/
def HttpdAction.ofCall (svc : Svc) : HttpdAction → Bool
  | .take | .hold _ | .leaveInFlight _ | .free _ => true
  | .respond _ _ _ _ | .respondFile _ _ => true
  | .send index =>
      match svc.exchanges[index]? with
      | some x => x.sender ≠ .draining
      | none => true
  | _ => false

section Steps

variable (host : HeaderHost) (debug : Bool) (s : Serving)

/-- The sender's place of a request. -/
def place (svc : Svc) (index : ℕ) : Option SenderPlace :=
  (svc.exchanges[index]?).map fun x => x.sender

def Serving.set (puller : ℕ) (p : Puller) (svc : Svc) : Serving :=
  { s with svc := svc, pullers := s.pullers.set puller p }


/-- A call of `REQUEST-RESPOND` or `REQUEST-RESPOND-FILE`, up to the taking
of the reply.  A refusal is the caller's. -/
def Serving.call (puller : ℕ) (p : Puller) (index : ℕ) (failing : Bool)
    (refused : PullerPhase) (action : HttpdAction) : Option Serving :=
  (s.svc.step host action).map fun svc =>
    s.set puller
      { p with
        phase :=
          match place svc index with
          | some (.responding _) => .replyTaken index failing
          | _ => refused }
      svc

/-- `%respond-500`: the flag is set first, and what the call signals is
ignored. -/
def Serving.respond500 (puller : ℕ) (p : Puller) (index : ℕ) :
    Option Serving :=
  s.call host puller { p with answered := true } index true
    (.free index false) (.respond index 500 none [])

/-- The handler of a puller, or a restart taken in it. -/
def Serving.handle (puller : ℕ) (event : HandlerEvent) : Option Serving :=
  match s.pullers[puller]? with
  | none => none
  | some p =>
      match p.phase with
      | .handler index =>
          match event with
          | .respond status headers body =>
              s.call host puller p index false (.handler index)
                (.respond index status headers body)
          | .respondFile built =>
              s.call host puller p index false (.handler index)
                (.respondFile index built)
          | .returns =>
              some { s.set puller { p with phase := .free index false } s.svc with
                warned :=
                  if p.answered then s.warned else s.warned ++ [index] }
          | .signals =>
              if debug then some s else s.respond500 host puller p index
          | .respond500 => s.respond500 host puller p index
          | .retryHandler => some s
          | .skipRequest =>
              some (s.set puller { p with phase := .free index false } s.svc)
          | .exits =>
              some (s.set puller { p with phase := .free index true } s.svc)
      | _ => none

/-- Where a puller goes once its request is freed. -/
def PullerPhase.afterFree (exits : Bool) : PullerPhase :=
  if exits then .left else .top

/-- Where a puller goes with what it has taken off the queue. -/
def PullerPhase.ofQueue : List ℕ → PullerPhase
  | [] => .top
  | index :: _ => .hold index

/-- The next access of a puller outside its handler. -/
def Serving.loop (puller : ℕ) : Option Serving :=
  match s.pullers[puller]? with
  | none => none
  | some p =>
      let go (phase : PullerPhase) : Option Serving :=
        some (s.set puller { p with phase := phase } s.svc)
      match p.phase with
      | .top => go (if s.stopCell then .left else .wait)
      | .wait => go (if s.svc.down then .left else .prune)
      | .prune =>
          some (s.set puller
            { p with
              phase := if s.svc.prune.queue = [] then .waiting else .take }
            s.svc.prune)
      | .waiting => go (if s.svc.queue = [] then .top else .take)
      | .take => go (if s.svc.down then .left else .pull)
      | .pull =>
          s.svc.take.map fun svc =>
            s.set puller
              { p with phase := .ofQueue s.svc.prune.queue } svc
      | .hold index =>
          (s.svc.step host (.hold index)).map fun svc =>
            s.set puller ⟨.handler index, false⟩ svc
      | .replyTaken index failing =>
          (s.svc.step host (.leaveInFlight index)).map fun svc =>
            s.set puller { p with phase := .sending index failing } svc
      | .sending index failing =>
          (s.svc.step host (.send index)).map fun svc =>
            s.set puller
              { phase := if failing then .free index false
                  else .handler index
                answered := true }
              svc
      | .free index exits =>
          match place s.svc index with
          | some .held =>
              (s.svc.step host (.free index)).map fun svc =>
                s.set puller { p with phase := .dropping index exits } svc
          | _ => go (.afterFree exits)
      | .dropping index exits =>
          (s.svc.step host (.send index)).map fun svc =>
            s.set puller { p with phase := .dropped index exits } svc
      | .dropped index exits =>
          (s.svc.step host (.leaveInFlight index)).map fun svc =>
            s.set puller { p with phase := .afterFree exits } svc
      | .handler _ | .left => none

def Serving.step : ServeAction → Option Serving
  | .server action =>
      if HttpdAction.ofCall s.svc action then none
      else (s.svc.step host action).map fun svc => { s with svc := svc }
  | .stop => some { s with stopCell := true }
  | .loop puller => s.loop host puller
  | .handler puller event => s.handle host debug puller event

end Steps

/-- Any number of pullers on one server. -/
def serveSystem (host : HeaderHost) (debug : Bool) :
    TransitionSystem.System Serving ServeAction where
  step := Serving.step host debug

end Web

end Rulisp
