import Rulisp.TransitionSystem

/-!
# The inbox

`inbox.rs`: a bounded queue under one mutex with two condition variables.
Between taking the lock and dropping it (or waiting on it) a thread runs no
user code, so each such section is one atomic step, written as a pure
function on `State<T>`.  The threads, the waits and the notifications, which
are issued after the lock was dropped, are the steps of a transition system.
-/

namespace Rulisp

/-- `WAIT_CAP_MS`. -/
def waitCapMs : ℕ := 100

inductive SendError (T : Type*)
  | full (value : T)
  | closed (value : T)
  deriving DecidableEq, Repr

/-- `SendError::into_inner`. -/
def SendError.intoInner {T : Type*} : SendError T → T
  | .full value => value
  | .closed value => value

/-- `State<T>`. -/
structure InboxState (T : Type*) where
  queue : List T
  closed : Bool
  deriving DecidableEq, Repr

/-- What the lock-held section of a send decided. -/
inductive SendTurn (T : Type*)
  | refused (error : SendError T)
  | sent (state : InboxState T)
  | wait
  deriving DecidableEq, Repr

/-- What the lock-held section of `recv` decided. -/
inductive RecvTurn (T : Type*)
  | got (value : T) (state : InboxState T)
  | closed
  | timedOut
  | wait
  deriving DecidableEq, Repr

section LockHeldSections

variable {T : Type*}

def InboxState.trySend (state : InboxState T) (capacity : ℕ) (value : T) :
    SendTurn T :=
  if state.closed then
    .refused (.closed value)
  else if state.queue.length ≥ capacity then
    .refused (.full value)
  else
    .sent { state with queue := state.queue ++ [value] }

/-- One turn of the loop of `send_timeout`; without a deadline the thread
waits whatever the clock says. -/
def InboxState.sendTimeout (state : InboxState T) (capacity : ℕ) (value : T)
    (deadline : Option ℕ) (now : ℕ) : SendTurn T :=
  if state.closed then
    .refused (.closed value)
  else if state.queue.length < capacity then
    .sent { state with queue := state.queue ++ [value] }
  else
    match deadline with
    | none => .wait
    | some deadline =>
        if now ≥ deadline then .refused (.full value) else .wait

/-- One turn of the loop of `recv`. -/
def InboxState.recv (state : InboxState T) (deadline now : ℕ) : RecvTurn T :=
  match state.queue with
  | value :: rest => .got value { state with queue := rest }
  | [] =>
      if state.closed then .closed
      else if now ≥ deadline then .timedOut
      else .wait

/-- The lock-held statement of `close`. -/
def InboxState.close (state : InboxState T) : InboxState T :=
  { state with closed := true }

/-- Either way of sending appends the value to an open queue with room, or
gives the value back. -/
theorem InboxState.trySend_cases (state : InboxState T) (capacity : ℕ)
    (value : T) :
    (state.trySend capacity value =
        .sent { state with queue := state.queue ++ [value] } ∧
      state.closed = false ∧ state.queue.length < capacity) ∨
    ∃ error, state.trySend capacity value = .refused error ∧
      error.intoInner = value := by
  unfold InboxState.trySend
  by_cases hclosed : state.closed = true
  · exact .inr ⟨_, if_pos hclosed, rfl⟩
  · by_cases hfull : state.queue.length ≥ capacity
    · exact .inr ⟨_, by rw [if_neg hclosed, if_pos hfull], rfl⟩
    · exact .inl ⟨by rw [if_neg hclosed, if_neg hfull],
        by simpa using hclosed, by omega⟩

theorem InboxState.sendTimeout_cases (state : InboxState T) (capacity : ℕ)
    (value : T) (deadline : Option ℕ) (now : ℕ) :
    (state.sendTimeout capacity value deadline now =
        .sent { state with queue := state.queue ++ [value] } ∧
      state.closed = false ∧ state.queue.length < capacity) ∨
    (∃ error, state.sendTimeout capacity value deadline now =
        .refused error ∧ error.intoInner = value) ∨
    state.sendTimeout capacity value deadline now = .wait := by
  unfold InboxState.sendTimeout
  by_cases hclosed : state.closed = true
  · exact .inr (.inl ⟨_, if_pos hclosed, rfl⟩)
  · by_cases hroom : state.queue.length < capacity
    · exact .inl ⟨by rw [if_neg hclosed, if_pos hroom],
        by simpa using hclosed, hroom⟩
    · rw [if_neg hclosed, if_neg hroom]
      cases deadline with
      | none => exact .inr (.inr rfl)
      | some deadline =>
          by_cases hexpired : now ≥ deadline
          · exact .inr (.inl ⟨_, if_pos hexpired, rfl⟩)
          · exact .inr (.inr (if_neg hexpired))

end LockHeldSections

/-! ## Threads -/

/-- A send in progress: which send it is, and its value. -/
structure SendOp (T : Type*) where
  ticket : ℕ
  value : T
  deriving DecidableEq, Repr

/-- Where a thread is, the lock not held.  `notified` says that a
notification, not a timeout or a spurious wake, ended the thread's wait. -/
inductive InboxActivity (T : Type*)
  | idle
  | trySending (op : SendOp T)
  | sending (op : SendOp T) (deadline : Option ℕ) (notified : Bool)
  /-- Blocked in the `not_full` wait. -/
  | awaitingRoom (op : SendOp T) (deadline : Option ℕ)
  | receiving (deadline : ℕ) (notified : Bool)
  /-- Blocked in the `not_empty` wait. -/
  | awaitingValue (deadline : ℕ)
  /-- The value is in; `not_empty.notify_one()` is next, then `Ok(())`. -/
  | notifyingNotEmpty
  /-- The value is out; `not_full.notify_one()` is next, then the value. -/
  | notifyingNotFull (value : T)
  | closing
  | closeNotifyingNotEmpty
  | closeNotifyingNotFull
  deriving DecidableEq, Repr

/-- What the callers of the inbox can observe, at the lock-held section that
decides it. -/
inductive InboxEvent (T : Type*)
  | started (op : SendOp T)
  | accepted (op : SendOp T)
  | refused (ticket : ℕ) (error : SendError T)
  | delivered (value : T)
  | recvTimedOut
  | recvClosed
  | closed
  deriving DecidableEq, Repr

/-- An inbox shared by `n` threads.  `instantLimit` bounds the platform's
clock, `nextTicket` numbers the sends. -/
structure InboxConfig (n : ℕ) (T : Type*) where
  capacity : ℕ
  instantLimit : ℕ
  state : InboxState T
  threads : Fin n → InboxActivity T
  now : ℕ
  nextTicket : ℕ
  transcript : List (InboxEvent T)

inductive InboxAction (n : ℕ) (T : Type*)
  | tick (elapsed : ℕ)
  | trySend (thread : Fin n) (value : T)
  | sendTimeout (thread : Fin n) (value : T) (timeout : ℕ)
  | recv (thread : Fin n) (waitMs : ℕ)
  | close (thread : Fin n)
  /-- The thread takes the lock and runs its next lock-held section. -/
  | lock (thread : Fin n)
  /-- A wait ends by its timeout or spuriously. -/
  | wake (thread : Fin n)
  /-- The thread issues its notification; `target` is the waiter that
  `notify_one` wakes. -/
  | notify (thread : Fin n) (target : Option (Fin n))
  deriving DecidableEq, Repr

section Threads

variable {T : Type*} {n : ℕ}

def InboxActivity.awaitsValue : InboxActivity T → Bool
  | .awaitingValue _ => true
  | _ => false

def InboxActivity.awaitsRoom : InboxActivity T → Bool
  | .awaitingRoom _ _ => true
  | _ => false

/-- A notification on `not_empty` ends the wait. -/
def InboxActivity.wakeForValue : InboxActivity T → InboxActivity T
  | .awaitingValue deadline => .receiving deadline true
  | activity => activity

/-- A notification on `not_full` ends the wait. -/
def InboxActivity.wakeForRoom : InboxActivity T → InboxActivity T
  | .awaitingRoom op deadline => .sending op deadline true
  | activity => activity

/-- `Inbox::new`. -/
def InboxConfig.new (n : ℕ) (T : Type*) (capacity instantLimit : ℕ) :
    InboxConfig n T where
  capacity := max capacity 1
  instantLimit := instantLimit
  state := { queue := [], closed := false }
  threads := fun _ => .idle
  now := 0
  nextTicket := 0
  transcript := []

/-- Move one thread, install a queue state and record events. -/
def InboxConfig.advance (config : InboxConfig n T) (thread : Fin n)
    (state : InboxState T) (activity : InboxActivity T)
    (events : List (InboxEvent T)) : InboxConfig n T :=
  { config with
    state := state
    threads := Function.update config.threads thread activity
    transcript := config.transcript ++ events }

/-- `notify_one`: wakes `target` if it waits there; no waiter is left alone
while one exists. -/
def InboxConfig.notifyOne (config : InboxConfig n T) (thread : Fin n)
    (waits : InboxActivity T → Bool) (wake : InboxActivity T → InboxActivity T)
    (target : Option (Fin n)) : Option (InboxConfig n T) :=
  match target with
  | none =>
      if ∀ other, waits (config.threads other) = false then
        some (config.advance thread config.state .idle [])
      else
        none
  | some target =>
      if waits (config.threads target) = true then
        some { config with
          threads := Function.update
            (Function.update config.threads target
              (wake (config.threads target))) thread .idle }
      else
        none

/-- `notify_all`; the thread goes on with `continuation`. -/
def InboxConfig.notifyAll (config : InboxConfig n T) (thread : Fin n)
    (wake : InboxActivity T → InboxActivity T)
    (continuation : InboxActivity T) : InboxConfig n T :=
  { config with
    threads := Function.update (fun other => wake (config.threads other))
      thread continuation }

def InboxConfig.startSend (config : InboxConfig n T) (thread : Fin n)
    (value : T) (activity : SendOp T → InboxActivity T) : InboxConfig n T :=
  let op : SendOp T := { ticket := config.nextTicket, value := value }
  { config.advance thread config.state (activity op) [.started op] with
    nextTicket := config.nextTicket + 1 }

/-- What follows the lock-held section of a send. -/
def InboxConfig.afterSend (config : InboxConfig n T) (thread : Fin n)
    (op : SendOp T) (waiting : InboxActivity T) :
    SendTurn T → InboxConfig n T
  | .refused error =>
      config.advance thread config.state .idle [.refused op.ticket error]
  | .sent state =>
      config.advance thread state .notifyingNotEmpty [.accepted op]
  | .wait => config.advance thread config.state waiting []

def InboxConfig.step (config : InboxConfig n T) :
    InboxAction n T → Option (InboxConfig n T)
  | .tick elapsed => some { config with now := config.now + elapsed }
  | .trySend thread value =>
      match config.threads thread with
      | .idle => some (config.startSend thread value .trySending)
      | _ => none
  | .sendTimeout thread value timeout =>
      match config.threads thread with
      | .idle =>
          -- checked_add: a timeout that overflows the clock is no deadline
          let deadline :=
            if config.now + timeout ≤ config.instantLimit
              then some (config.now + timeout) else none
          some (config.startSend thread value (.sending · deadline false))
      | _ => none
  | .recv thread waitMs =>
      match config.threads thread with
      | .idle =>
          some (config.advance thread config.state
            (.receiving (config.now + min waitMs waitCapMs) false) [])
      | _ => none
  | .close thread =>
      match config.threads thread with
      | .idle => some (config.advance thread config.state .closing [])
      | _ => none
  | .lock thread =>
      match config.threads thread with
      | .trySending op =>
          some (config.afterSend thread op .idle
            (config.state.trySend config.capacity op.value))
      | .sending op deadline _ =>
          some (config.afterSend thread op (.awaitingRoom op deadline)
            (config.state.sendTimeout config.capacity op.value deadline
              config.now))
      | .receiving deadline _ =>
          match config.state.recv deadline config.now with
          | .got value state =>
              some (config.advance thread state (.notifyingNotFull value)
                [.delivered value])
          | .closed =>
              some (config.advance thread config.state .idle [.recvClosed])
          | .timedOut =>
              some (config.advance thread config.state .idle [.recvTimedOut])
          | .wait =>
              some (config.advance thread config.state
                (.awaitingValue deadline) [])
      | .closing =>
          some (config.advance thread config.state.close
            .closeNotifyingNotEmpty [.closed])
      | _ => none
  | .wake thread =>
      match config.threads thread with
      | .awaitingValue deadline =>
          some (config.advance thread config.state
            (.receiving deadline false) [])
      | .awaitingRoom op deadline =>
          some (config.advance thread config.state
            (.sending op deadline false) [])
      | _ => none
  | .notify thread target =>
      match config.threads thread with
      | .notifyingNotEmpty =>
          config.notifyOne thread InboxActivity.awaitsValue
            InboxActivity.wakeForValue target
      | .notifyingNotFull _ =>
          config.notifyOne thread InboxActivity.awaitsRoom
            InboxActivity.wakeForRoom target
      | .closeNotifyingNotEmpty =>
          some (config.notifyAll thread InboxActivity.wakeForValue
            .closeNotifyingNotFull)
      | .closeNotifyingNotFull =>
          some (config.notifyAll thread InboxActivity.wakeForRoom .idle)
      | _ => none

def inboxSystem (n : ℕ) (T : Type*) :
    TransitionSystem.System (InboxConfig n T) (InboxAction n T) where
  step := InboxConfig.step

end Threads

end Rulisp
