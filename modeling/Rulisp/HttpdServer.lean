import Rulisp.HttpdResponse
import Rulisp.TransitionSystem

/-!
# The server of `httpd`

A request is an exchange: the task that parks it, the reply channel, and the
calls that pull and answer it.  A step is a section under the queue's lock, an
atomic access, or what an await of the task resolves to.  A call of a Lisp
thread holds nothing between its accesses but the reply sender it has taken,
so the calls are seen in the sender's place, and any number of threads may
make them.  The limits of time and of body slots are the environment's.
-/

namespace Rulisp

namespace Httpd

/-! ## An exchange -/

/-- Where the task that parks a request is. -/
inductive ParkPhase
  | arrived
  | bodySlot
  | readingBody
  | pushing
  | parked
  | answered (response : Response)
  | gone
  deriving DecidableEq, Repr

/-- Where the sender of the reply channel is. -/
inductive SenderPlace
  | none
  | pushing
  | queued
  | taken
  | held
  | responding (response : Response)
  | sending (response : Response)
  | freeing
  | freed
  | draining
  | used (pulled : Bool)
  | dropped
  deriving DecidableEq, Repr

/-- A request has been handed to a puller. -/
def SenderPlace.pulled : SenderPlace → Bool
  | .taken | .held | .responding _ | .sending _ | .freeing | .freed => true
  | .used pulled => pulled
  | _ => false

/-- The sender has been used. -/
def SenderPlace.spent : SenderPlace → Bool
  | .freed | .used _ => true
  | _ => false

/-- `in_flight` counts the request. -/
def SenderPlace.counted : SenderPlace → Bool
  | .held | .responding _ | .freeing | .freed => true
  | _ => false

/-- A `Request` exists and its reply has not been taken.  Before `take`
returns there is none yet. -/
def SenderPlace.unanswered : SenderPlace → Bool
  | .held => true
  | _ => false

/-- A thread is inside `take`, `respond` or a drop of the request. -/
def SenderPlace.busy : SenderPlace → Bool
  | .taken | .responding _ | .sending _ | .freeing | .freed => true
  | _ => false

/-- The exchange of one request.  `parks`, `pulls` and `uses` count what has
happened to it, `answers` is what its client has been sent, and `accepted` the
response that a `respond` has taken the reply for. -/
structure Exchange where
  method : String
  phase : ParkPhase
  sender : SenderPlace
  receiver : Bool
  value : Option Response
  parks : ℕ
  pulls : ℕ
  uses : ℕ
  answers : List Response
  accepted : Option Response
  deriving DecidableEq, Repr

def Exchange.new (method : String) : Exchange where
  method := method
  phase := .arrived
  sender := .none
  receiver := false
  value := none
  parks := 0
  pulls := 0
  uses := 0
  answers := []
  accepted := none

section Exchange

variable (x : Exchange)

/-- The task answers its client; the receiver goes with it. -/
def Exchange.answer (response : Response) : Exchange :=
  { x with
    phase := .answered response
    receiver := false
    answers := x.answers ++ [response] }

/-- The sender is used; the value is lost if the receiver is gone. -/
def Exchange.useSender (response : Response) (place : SenderPlace) :
    Exchange :=
  { x with
    sender := place
    value := if x.receiver then some response else x.value
    uses := x.uses + 1 }

/-- `park`, before the body slot. -/
def Exchange.checkDown (down : Bool) : Option Exchange :=
  match x.phase with
  | .arrived =>
      some (if down then x.answer retryLater
        else { x with phase := .bodySlot })
  | _ => none

/-- `park`, the wait for a body slot. -/
def Exchange.bodySlot (acquired : Bool) : Option Exchange :=
  match x.phase with
  | .bodySlot =>
      some (if acquired then { x with phase := .readingBody }
        else x.answer retryLater)
  | _ => none

/-- `park`, the body: read, or a status that refuses it. -/
def Exchange.readBody (refusal : Option ℕ) : Option Exchange :=
  match x.phase with
  | .readingBody =>
      match refusal with
      | some code => some (x.answer (statusOnly code))
      | none =>
          some { x with
            phase := .pushing, sender := .pushing, receiver := true }
  | _ => none

/-- `push` gives the request back, and `park` answers. -/
def Exchange.refusePush : Option Exchange :=
  match x.phase with
  | .pushing =>
      some { x.answer retryLater with sender := .dropped }
  | _ => none

def Exchange.parked : Exchange :=
  { x with phase := .parked, sender := .queued, parks := x.parks + 1 }

/-- `park`, the wait for the answer. -/
def Exchange.poll : Option Exchange :=
  match x.phase with
  | .parked =>
      match x.value with
      | some response => some (x.answer response)
      | none =>
          if x.sender.spent ∨ x.sender = .dropped then
            some (x.answer (statusOnly 503))
          else none
  | _ => none

/-- `HANDLER-MS` has passed. -/
def Exchange.timeout : Option Exchange :=
  match x.phase with
  | .parked => some (x.answer (statusOnly 504))
  | _ => none

/-- The client leaves, and the task is dropped at an await. -/
def Exchange.disconnect : Option Exchange :=
  match x.phase with
  | .bodySlot | .readingBody | .parked =>
      some { x with phase := .gone, receiver := false }
  | .pushing =>
      some { x with phase := .gone, receiver := false, sender := .dropped }
  | _ => none

/-- `prune` on one entry of the queue. -/
def Exchange.prune : Exchange :=
  if x.sender = .queued ∧ x.receiver = false then
    { x with sender := .dropped }
  else x

/-- `take`, at the front of the queue. -/
def Exchange.take : Exchange :=
  { x with sender := .taken, pulls := x.pulls + 1 }

/-- `take`, after `in_flight`: the `Request` exists. -/
def Exchange.hold : Option Exchange :=
  match x.sender with
  | .taken => some { x with sender := .held }
  | _ => none

/-- `Request::send`, the taking of the reply. -/
def Exchange.takeReply (response : Response) : Option Exchange :=
  match x.sender with
  | .held =>
      some { x with
        sender := .responding response, accepted := some response }
  | _ => none

/-- `Request::send`, after the reply is taken. -/
def Exchange.leaveInFlight : Option Exchange :=
  match x.sender with
  | .responding response => some { x with sender := .sending response }
  | .freed => some { x with sender := .used true }
  | _ => none

def Exchange.send : Option Exchange :=
  match x.sender with
  | .sending response => some (x.useSender response (.used true))
  | .freeing => some (x.useSender (statusOnly 500) .freed)
  | .draining => some (x.useSender retryLater (.used false))
  | _ => none

/-- `Request::drop`, the taking of the reply. -/
def Exchange.free : Option Exchange :=
  match x.sender with
  | .held => some { x with sender := .freeing }
  | _ => none

/-- `drain` on one entry of the queue. -/
def Exchange.drain : Exchange :=
  if x.sender = .queued then { x with sender := .draining } else x

end Exchange

/-! ## The server -/

/-- `Svc`, with the exchanges in the order of their arrival.  `handlerWait`
says that there is one, `drained` that a stop has drained the queue, and
`parkings` counts the requests that have been parked. -/
structure Svc where
  cap : ℕ
  handlerWait : Bool
  queue : List ℕ
  down : Bool
  inFlight : ℕ
  drained : Bool
  parkings : ℕ
  exchanges : List Exchange
  deriving DecidableEq, Repr

def Svc.new (cap : ℕ) (handlerWait : Bool) : Svc where
  cap := cap
  handlerWait := handlerWait
  queue := []
  down := false
  inFlight := 0
  drained := false
  parkings := 0
  exchanges := []

inductive HttpdAction
  | arrive (method : String)
  | checkDown (index : ℕ)
  | bodySlot (index : ℕ) (acquired : Bool)
  | readBody (index : ℕ) (refusal : Option ℕ)
  | push (index : ℕ)
  | pushDeadline (index : ℕ)
  | poll (index : ℕ)
  | timeout (index : ℕ)
  | disconnect (index : ℕ)
  | prune
  | take
  | hold (index : ℕ)
  | respond (index : ℕ) (status : ℕ) (headers : Option Bytes) (body : Bytes)
  | respondFile (index : ℕ) (built : Except HttpError Response)
  | leaveInFlight (index : ℕ)
  | send (index : ℕ)
  | free (index : ℕ)
  | storeDown
  | drain

section Steps

variable (host : HeaderHost) (svc : Svc)

/-- A step of one exchange. -/
def Svc.on (index : ℕ) (f : Exchange → Option Exchange) : Option Svc :=
  match svc.exchanges[index]? with
  | none => none
  | some x =>
      match f x with
      | none => none
      | some x' => some { svc with exchanges := svc.exchanges.set index x' }

/-- The receiver of an entry of the queue is alive. -/
def Svc.live (index : ℕ) : Bool :=
  match svc.exchanges[index]? with
  | some x => x.receiver
  | none => false

/-- `Svc::prune`. -/
def Svc.prune : Svc :=
  { svc with
    queue := svc.queue.filter svc.live
    exchanges := svc.exchanges.map Exchange.prune }

/-- The locked part of `Svc::push`: refused, parked, or still waiting. -/
def Svc.push (index : ℕ) : Option Svc :=
  match svc.exchanges[index]? with
  | none => none
  | some x =>
      match x.phase with
      | .pushing =>
          if svc.down then svc.on index Exchange.refusePush
          else
            let pruned := svc.prune
            if pruned.queue.length < pruned.cap then
              some { pruned with
                queue := pruned.queue ++ [index]
                parkings := pruned.parkings + 1
                exchanges := pruned.exchanges.set index x.parked }
            else some pruned
      | _ => none

/-- `Svc::take`; what `Request::take` has read of `down` before it may be
stale. -/
def Svc.take : Option Svc :=
  let pruned := svc.prune
  match pruned.queue with
  | [] => some pruned
  | index :: queue =>
      match pruned.exchanges[index]? with
      | none => none
      | some x =>
          some { pruned with
            queue := queue
            exchanges := pruned.exchanges.set index x.take }

/-- `fetch_sub` of an `AtomicU64`, which wraps. -/
def fetchSub (n : ℕ) : ℕ := if n = 0 then 2 ^ 64 - 1 else n - 1

/-- A `respond` that has built its response, or has not. -/
def Svc.respond (index : ℕ) (built : Except HttpError Response) : Option Svc :=
  match svc.exchanges[index]? with
  | none => none
  | some x =>
      if x.sender.pulled && x.sender ≠ .taken then
        match built with
        | .error _ => some svc
        | .ok response =>
            match x.takeReply response with
            | none => some svc
            | some x' =>
                some { svc with exchanges := svc.exchanges.set index x' }
      else none

/-- The locked part of `Svc::drain`. -/
def Svc.drain : Svc :=
  { svc with
    queue := []
    drained := true
    exchanges := svc.exchanges.map Exchange.drain }

def Svc.step : HttpdAction → Option Svc
  | .arrive method =>
      some { svc with exchanges := svc.exchanges ++ [.new method] }
  | .checkDown index => svc.on index fun x => x.checkDown svc.down
  | .bodySlot index acquired => svc.on index fun x => x.bodySlot acquired
  | .readBody index refusal => svc.on index fun x => x.readBody refusal
  | .push index => svc.push index
  | .pushDeadline index => svc.on index Exchange.refusePush
  | .poll index => svc.on index Exchange.poll
  | .timeout index =>
      if svc.handlerWait then svc.on index Exchange.timeout else none
  | .disconnect index => svc.on index Exchange.disconnect
  | .prune => some svc.prune
  | .take => svc.take
  | .hold index =>
      (svc.on index Exchange.hold).map fun next =>
        { next with inFlight := next.inFlight + 1 }
  | .respond index status headers body =>
      match svc.exchanges[index]? with
      | none => none
      | some x =>
          svc.respond index (buildResponse host x.method status headers body)
  | .respondFile index built => svc.respond index built
  | .leaveInFlight index =>
      (svc.on index Exchange.leaveInFlight).map fun next =>
        { next with inFlight := fetchSub next.inFlight }
  | .send index => svc.on index Exchange.send
  | .free index => svc.on index Exchange.free
  | .storeDown => some { svc with down := true }
  | .drain => if svc.down then some svc.drain else none

end Steps

/-- The server and everything that can happen to it. -/
def httpdSystem (host : HeaderHost) :
    TransitionSystem.System Svc HttpdAction where
  step := Svc.step host

end Httpd

end Rulisp
