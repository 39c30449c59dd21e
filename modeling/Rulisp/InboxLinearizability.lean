import Rulisp.Inbox

/-!
# Linearizability of the inbox

The lock-held sections, in the order in which they run, are the sequential
history of the queue.  Each event of that history is admitted by the events
before it (`InboxEvent.Admitted`): a delivered value is the oldest accepted
one that is still in, a send is accepted or refused once, `Closed` is
answered only on a closed and drained inbox.
-/

namespace Rulisp

open TransitionSystem

variable {T : Type*} {n : ℕ}

/-- The sends whose value went in, in lock order. -/
def acceptedSends (transcript : List (InboxEvent T)) : List (SendOp T) :=
  transcript.filterMap fun
    | .accepted op => some op
    | _ => none

/-- The values that came out, in lock order. -/
def deliveredValues (transcript : List (InboxEvent T)) : List T :=
  transcript.filterMap fun
    | .delivered value => some value
    | _ => none

def acceptedValues (transcript : List (InboxEvent T)) : List T :=
  (acceptedSends transcript).map SendOp.value

/-- The send has been answered. -/
def Answered (transcript : List (InboxEvent T)) (ticket : ℕ) : Prop :=
  (∃ op, .accepted op ∈ transcript ∧ op.ticket = ticket) ∨
    ∃ error, .refused ticket error ∈ transcript

/-- What the inbox answers, as a condition on the answers before. -/
def InboxEvent.Admitted (before : List (InboxEvent T)) : InboxEvent T → Prop
  | .started op => ∀ earlier, .started earlier ∈ before →
      earlier.ticket ≠ op.ticket
  | .accepted op => .started op ∈ before ∧ ¬Answered before op.ticket ∧
      .closed ∉ before
  | .refused ticket error =>
      .started { ticket := ticket, value := error.intoInner } ∈ before ∧
        ¬Answered before ticket
  | .delivered value =>
      (acceptedValues before)[(deliveredValues before).length]? = some value
  | .recvTimedOut => deliveredValues before = acceptedValues before
  | .recvClosed => .closed ∈ before ∧
      deliveredValues before = acceptedValues before
  | .closed => True

section Transcripts

variable (transcript : List (InboxEvent T))

@[simp] theorem acceptedSends_append (events : List (InboxEvent T)) :
    acceptedSends (transcript ++ events) =
      acceptedSends transcript ++ acceptedSends events := by
  simp [acceptedSends]

@[simp] theorem acceptedValues_append (events : List (InboxEvent T)) :
    acceptedValues (transcript ++ events) =
      acceptedValues transcript ++ acceptedValues events := by
  simp [acceptedValues]

@[simp] theorem deliveredValues_append (events : List (InboxEvent T)) :
    deliveredValues (transcript ++ events) =
      deliveredValues transcript ++ deliveredValues events := by
  simp [deliveredValues]

theorem mem_acceptedSends {op : SendOp T} :
    op ∈ acceptedSends transcript ↔ .accepted op ∈ transcript := by
  unfold acceptedSends
  rw [List.mem_filterMap]
  constructor
  · rintro ⟨event, hmem, hevent⟩
    cases event with
    | accepted other =>
        simp only [Option.some.injEq] at hevent
        exact hevent ▸ hmem
    | _ => simp at hevent
  · intro hmem
    exact ⟨_, hmem, rfl⟩

theorem Answered.append {transcript : List (InboxEvent T)} {ticket : ℕ}
    (hanswered : Answered transcript ticket) (events : List (InboxEvent T)) :
    Answered (transcript ++ events) ticket := by
  rcases hanswered with ⟨op, hmem, hticket⟩ | ⟨error, hmem⟩
  · exact .inl ⟨op, List.mem_append_left _ hmem, hticket⟩
  · exact .inr ⟨error, List.mem_append_left _ hmem⟩

/-- Only an answer to the send itself answers it. -/
theorem not_answered_append_singleton {transcript : List (InboxEvent T)}
    {ticket : ℕ} {event : InboxEvent T}
    (hold : ¬Answered transcript ticket)
    (haccepted : ∀ op, event = .accepted op → op.ticket ≠ ticket)
    (hrefused : ∀ error, event ≠ .refused ticket error) :
    ¬Answered (transcript ++ [event]) ticket := by
  rintro (⟨op, hmem, hticket⟩ | ⟨error, hmem⟩)
  · rcases List.mem_append.mp hmem with hmem | hmem
    · exact hold (.inl ⟨op, hmem, hticket⟩)
    · exact haccepted op (List.mem_singleton.mp hmem).symm hticket
  · rcases List.mem_append.mp hmem with hmem | hmem
    · exact hold (.inr ⟨error, hmem⟩)
    · exact hrefused error (List.mem_singleton.mp hmem).symm

end Transcripts

/-! ## What one step can do -/

/-- The send a thread is in the middle of. -/
def InboxActivity.pendingSend : InboxActivity T → Option (SendOp T)
  | .trySending op => some op
  | .sending op _ _ => some op
  | .awaitingRoom op _ => some op
  | _ => none

@[simp] theorem InboxActivity.pendingSend_wakeForValue
    (activity : InboxActivity T) :
    activity.wakeForValue.pendingSend = activity.pendingSend := by
  cases activity <;> rfl

@[simp] theorem InboxActivity.pendingSend_wakeForRoom
    (activity : InboxActivity T) :
    activity.wakeForRoom.pendingSend = activity.pendingSend := by
  cases activity <;> rfl

/-- The effect of a step on the queue and on the history. -/
inductive InboxConfig.Outcome (config : InboxConfig n T) :
    InboxConfig n T → Prop
  /-- Clock, waits, wakes and notifications. -/
  | quiet (now : ℕ) (threads : Fin n → InboxActivity T)
      (hpending : ∀ other, (threads other).pendingSend =
        (config.threads other).pendingSend) :
      config.Outcome { config with now := now, threads := threads }
  | started (thread : Fin n) (value : T)
      (activity : SendOp T → InboxActivity T)
      (hpending : ∀ op, (activity op).pendingSend = some op) :
      config.Outcome (config.startSend thread value activity)
  | accepted (thread : Fin n) (op : SendOp T)
      (hpending : (config.threads thread).pendingSend = some op)
      (hopen : config.state.closed = false)
      (hroom : config.state.queue.length < config.capacity) :
      config.Outcome (config.advance thread
        { config.state with queue := config.state.queue ++ [op.value] }
        .notifyingNotEmpty [.accepted op])
  | refused (thread : Fin n) (op : SendOp T) (error : SendError T)
      (hpending : (config.threads thread).pendingSend = some op)
      (herror : error.intoInner = op.value) :
      config.Outcome (config.advance thread config.state .idle
        [.refused op.ticket error])
  | delivered (thread : Fin n) (value : T) (rest : List T)
      (hpending : (config.threads thread).pendingSend = none)
      (hqueue : config.state.queue = value :: rest) :
      config.Outcome (config.advance thread
        { config.state with queue := rest }
        (.notifyingNotFull value) [.delivered value])
  | recvClosed (thread : Fin n)
      (hpending : (config.threads thread).pendingSend = none)
      (hqueue : config.state.queue = [])
      (hclosed : config.state.closed = true) :
      config.Outcome (config.advance thread config.state .idle [.recvClosed])
  | recvTimedOut (thread : Fin n)
      (hpending : (config.threads thread).pendingSend = none)
      (hqueue : config.state.queue = []) :
      config.Outcome (config.advance thread config.state .idle
        [.recvTimedOut])
  | closed (thread : Fin n)
      (hpending : (config.threads thread).pendingSend = none) :
      config.Outcome (config.advance thread config.state.close
        .closeNotifyingNotEmpty [.closed])

theorem InboxConfig.quiet_advance {config : InboxConfig n T} {thread : Fin n}
    {activity : InboxActivity T}
    (hpending : activity.pendingSend = (config.threads thread).pendingSend) :
    config.Outcome (config.advance thread config.state activity []) := by
  have hquiet := @InboxConfig.Outcome.quiet _ _ config config.now
    (Function.update config.threads thread activity) (by
      intro other
      by_cases hother : other = thread
      · subst hother
        simpa using hpending
      · simp [hother])
  simpa [InboxConfig.advance] using hquiet

theorem InboxConfig.notifyOne_outcome {config next : InboxConfig n T}
    {thread : Fin n} {waits : InboxActivity T → Bool}
    {wake : InboxActivity T → InboxActivity T} {target : Option (Fin n)}
    (hthread : (config.threads thread).pendingSend = none)
    (hwake : ∀ activity, (wake activity).pendingSend = activity.pendingSend)
    (hstep : config.notifyOne thread waits wake target = some next) :
    config.Outcome next := by
  unfold InboxConfig.notifyOne at hstep
  cases target with
  | none =>
      simp only at hstep
      split at hstep
      · cases hstep
        exact quiet_advance (by rw [hthread]; rfl)
      · cases hstep
  | some target =>
      simp only at hstep
      split at hstep
      · cases hstep
        apply @InboxConfig.Outcome.quiet _ _ config config.now
        intro other
        by_cases hself : other = thread
        · subst hself
          rw [Function.update_self, hthread]
          rfl
        · by_cases htarget : other = target
          · subst htarget
            simp [hself, hwake]
          · simp [hself, htarget]
      · cases hstep

theorem InboxConfig.notifyAll_outcome (config : InboxConfig n T)
    {thread : Fin n} {wake : InboxActivity T → InboxActivity T}
    {continuation : InboxActivity T}
    (hthread : (config.threads thread).pendingSend = none)
    (hwake : ∀ activity, (wake activity).pendingSend = activity.pendingSend)
    (hcontinuation : continuation.pendingSend = none) :
    config.Outcome (config.notifyAll thread wake continuation) := by
  apply @InboxConfig.Outcome.quiet _ _ config config.now
  intro other
  by_cases hself : other = thread
  · subst hself
    simp [hcontinuation, hthread]
  · simp [hself, hwake]

theorem InboxConfig.lock_outcome {config next : InboxConfig n T}
    {thread : Fin n} (hstep : config.step (.lock thread) = some next) :
    config.Outcome next := by
  simp only [InboxConfig.step] at hstep
  cases hthread : config.threads thread with
  | trySending op =>
      simp only [hthread, Option.some.injEq] at hstep
      subst hstep
      have hpending : (config.threads thread).pendingSend = some op := by
        rw [hthread]; rfl
      rcases config.state.trySend_cases config.capacity op.value with
        ⟨hsent, hopen, hroom⟩ | ⟨error, hrefused, herror⟩
      · rw [hsent]
        exact .accepted thread op hpending hopen hroom
      · rw [hrefused]
        exact .refused thread op error hpending herror
  | sending op deadline notified =>
      simp only [hthread, Option.some.injEq] at hstep
      subst hstep
      have hpending : (config.threads thread).pendingSend = some op := by
        rw [hthread]; rfl
      rcases config.state.sendTimeout_cases config.capacity op.value deadline
          config.now with
        ⟨hsent, hopen, hroom⟩ | ⟨error, hrefused, herror⟩ | hwait
      · rw [hsent]
        exact .accepted thread op hpending hopen hroom
      · rw [hrefused]
        exact .refused thread op error hpending herror
      · rw [hwait]
        exact quiet_advance (by rw [hpending]; rfl)
  | receiving deadline notified =>
      have hpending : (config.threads thread).pendingSend = none := by
        rw [hthread]; rfl
      simp only [hthread, InboxState.recv] at hstep
      cases hqueue : config.state.queue with
      | cons value rest =>
          simp only [hqueue, Option.some.injEq] at hstep
          subst hstep
          exact .delivered thread value rest hpending hqueue
      | nil =>
          by_cases hclosed : config.state.closed = true
          · simp only [hqueue, hclosed, if_true, Option.some.injEq] at hstep
            subst hstep
            exact .recvClosed thread hpending hqueue hclosed
          · by_cases hexpired : config.now ≥ deadline
            · simp only [hqueue, if_neg hclosed, if_pos hexpired,
                Option.some.injEq] at hstep
              subst hstep
              exact .recvTimedOut thread hpending hqueue
            · simp only [hqueue, if_neg hclosed, if_neg hexpired,
                Option.some.injEq] at hstep
              subst hstep
              exact quiet_advance (by rw [hpending]; rfl)
  | closing =>
      simp only [hthread, Option.some.injEq] at hstep
      subst hstep
      exact .closed thread (by rw [hthread]; rfl)
  | _ => simp [hthread] at hstep

theorem InboxConfig.step_outcome {config next : InboxConfig n T}
    {action : InboxAction n T} (hstep : config.step action = some next) :
    config.Outcome next := by
  cases action with
  | tick elapsed =>
      simp only [InboxConfig.step, Option.some.injEq] at hstep
      subst hstep
      exact .quiet _ _ fun _ => rfl
  | trySend thread value =>
      simp only [InboxConfig.step] at hstep
      split at hstep
      · cases hstep
        exact .started thread value _ fun _ => rfl
      · cases hstep
  | sendTimeout thread value timeout =>
      simp only [InboxConfig.step] at hstep
      split at hstep
      · cases hstep
        exact .started thread value _ fun _ => rfl
      · cases hstep
  | recv thread waitMs =>
      simp only [InboxConfig.step] at hstep
      split at hstep
      · rename_i hthread
        cases hstep
        exact quiet_advance (by rw [hthread]; rfl)
      · cases hstep
  | close thread =>
      simp only [InboxConfig.step] at hstep
      split at hstep
      · rename_i hthread
        cases hstep
        exact quiet_advance (by rw [hthread]; rfl)
      · cases hstep
  | lock thread => exact lock_outcome hstep
  | wake thread =>
      simp only [InboxConfig.step] at hstep
      split at hstep
      · rename_i deadline hthread
        cases hstep
        exact quiet_advance (by rw [hthread]; rfl)
      · rename_i op deadline hthread
        cases hstep
        exact quiet_advance (by rw [hthread]; rfl)
      · cases hstep
  | notify thread target =>
      simp only [InboxConfig.step] at hstep
      split at hstep
      · rename_i hthread
        exact notifyOne_outcome (by rw [hthread]; rfl)
          InboxActivity.pendingSend_wakeForValue hstep
      · rename_i value hthread
        exact notifyOne_outcome (by rw [hthread]; rfl)
          InboxActivity.pendingSend_wakeForRoom hstep
      · rename_i hthread
        cases hstep
        exact config.notifyAll_outcome (by rw [hthread]; rfl)
          InboxActivity.pendingSend_wakeForValue rfl
      · rename_i hthread
        cases hstep
        exact config.notifyAll_outcome (by rw [hthread]; rfl)
          InboxActivity.pendingSend_wakeForRoom rfl
      · cases hstep

/-! ## The invariant -/

structure InboxConfig.Invariant (config : InboxConfig n T) : Prop where
  fifo : acceptedValues config.transcript =
    deliveredValues config.transcript ++ config.state.queue
  bounded : config.state.queue.length ≤ config.capacity
  closed_iff : config.state.closed = true ↔ .closed ∈ config.transcript
  fresh : ∀ op, .started op ∈ config.transcript →
    op.ticket < config.nextTicket
  answered : ∀ ticket, Answered config.transcript ticket →
    ticket < config.nextTicket
  pendingStarted : ∀ thread op,
    (config.threads thread).pendingSend = some op →
      .started op ∈ config.transcript ∧
        ¬Answered config.transcript op.ticket
  pendingDistinct : ∀ thread other op op',
    (config.threads thread).pendingSend = some op →
      (config.threads other).pendingSend = some op' →
        op.ticket = op'.ticket → thread = other
  guarded : Guarded InboxEvent.Admitted config.transcript

theorem InboxConfig.new_invariant (capacity instantLimit : ℕ) :
    (InboxConfig.new n T capacity instantLimit).Invariant := by
  constructor
  · simp [InboxConfig.new, acceptedValues, acceptedSends, deliveredValues]
  · simp [InboxConfig.new]
  · simp [InboxConfig.new]
  · simp [InboxConfig.new]
  · simp [InboxConfig.new, Answered]
  · simp [InboxConfig.new, InboxActivity.pendingSend]
  · simp [InboxConfig.new, InboxActivity.pendingSend]
  · exact Guarded.nil _

theorem InboxConfig.Invariant.afterQuiet {config : InboxConfig n T}
    (hinv : config.Invariant) (now : ℕ) (threads : Fin n → InboxActivity T)
    (hpending : ∀ other, (threads other).pendingSend =
      (config.threads other).pendingSend) :
    ({ config with now := now, threads := threads } :
      InboxConfig n T).Invariant := by
  constructor
  · exact hinv.fifo
  · exact hinv.bounded
  · exact hinv.closed_iff
  · exact hinv.fresh
  · exact hinv.answered
  · intro thread op hop
    exact hinv.pendingStarted thread op (by rw [← hpending]; exact hop)
  · intro thread other op op' hop hop' hticket
    exact hinv.pendingDistinct thread other op op'
      (by rw [← hpending]; exact hop) (by rw [← hpending]; exact hop') hticket
  · exact hinv.guarded

/-- A step of one thread that answers no other thread's send: what the step
must establish, the rest carries over. -/
theorem InboxConfig.Invariant.afterAdvance {config : InboxConfig n T}
    (hinv : config.Invariant) (thread : Fin n) (state : InboxState T)
    (activity : InboxActivity T) (event : InboxEvent T)
    (hactivity : activity.pendingSend = none)
    (hfifo : acceptedValues (config.transcript ++ [event]) =
      deliveredValues (config.transcript ++ [event]) ++ state.queue)
    (hbounded : state.queue.length ≤ config.capacity)
    (hclosed : state.closed = true ↔ .closed ∈ config.transcript ++ [event])
    (hnotStarted : ∀ op, event ≠ .started op)
    (haccepted : ∀ op, event = .accepted op →
      (config.threads thread).pendingSend = some op)
    (hrefused : ∀ ticket error, event = .refused ticket error →
      ∃ op, (config.threads thread).pendingSend = some op ∧
        op.ticket = ticket)
    (hadmitted : InboxEvent.Admitted config.transcript event) :
    (config.advance thread state activity [event]).Invariant := by
  have hstarted : ∀ op, .started op ∈ config.transcript ++ [event] →
      .started op ∈ config.transcript := by
    intro op hmem
    rcases List.mem_append.mp hmem with hmem | hmem
    · exact hmem
    · exact absurd (List.mem_singleton.mp hmem).symm (hnotStarted op)
  have hother : ∀ other op,
      (Function.update config.threads thread activity other).pendingSend =
        some op →
      other ≠ thread ∧ (config.threads other).pendingSend = some op := by
    intro other op hop
    by_cases heq : other = thread
    · subst heq
      simp [hactivity] at hop
    · exact ⟨heq, by simpa [heq] using hop⟩
  constructor
  · exact hfifo
  · exact hbounded
  · exact hclosed
  · intro op hmem
    exact hinv.fresh op (hstarted op hmem)
  · rintro ticket (⟨op, hmem, hticket⟩ | ⟨error, hmem⟩)
    · rcases List.mem_append.mp hmem with hmem | hmem
      · exact hinv.answered ticket (.inl ⟨op, hmem, hticket⟩)
      · have hop := haccepted op (List.mem_singleton.mp hmem).symm
        exact hticket ▸ hinv.fresh op (hinv.pendingStarted thread op hop).1
    · rcases List.mem_append.mp hmem with hmem | hmem
      · exact hinv.answered ticket (.inr ⟨error, hmem⟩)
      · obtain ⟨op, hop, hticket⟩ :=
          hrefused ticket error (List.mem_singleton.mp hmem).symm
        exact hticket ▸ hinv.fresh op (hinv.pendingStarted thread op hop).1
  · intro other op hop
    obtain ⟨hne, hold⟩ := hother other op hop
    obtain ⟨hmem, hnot⟩ := hinv.pendingStarted other op hold
    refine ⟨List.mem_append_left _ hmem, ?_⟩
    apply not_answered_append_singleton hnot
    · intro answeredOp hevent hticket
      exact hne (hinv.pendingDistinct thread other answeredOp op
        (haccepted answeredOp hevent) hold hticket).symm
    · intro error hevent
      obtain ⟨refusedOp, hrefusedOp, hticket⟩ :=
        hrefused op.ticket error hevent
      exact hne (hinv.pendingDistinct thread other refusedOp op
        hrefusedOp hold hticket).symm
  · intro left right op op' hop hop' hticket
    exact hinv.pendingDistinct left right op op' (hother left op hop).2
      (hother right op' hop').2 hticket
  · exact hinv.guarded.append hadmitted

theorem InboxConfig.Invariant.afterStarted {config : InboxConfig n T}
    (hinv : config.Invariant) (thread : Fin n) (value : T)
    (activity : SendOp T → InboxActivity T)
    (hpending : ∀ op, (activity op).pendingSend = some op) :
    (config.startSend thread value activity).Invariant := by
  have hnotAnswered : ∀ ticket, ¬Answered config.transcript ticket →
      ¬Answered (config.transcript ++
        [.started { ticket := config.nextTicket, value := value }])
          ticket := by
    intro ticket hold
    exact not_answered_append_singleton hold (by simp) (by simp)
  have hnew : ¬Answered config.transcript config.nextTicket := fun hanswered =>
    lt_irrefl _ (hinv.answered _ hanswered)
  have hthread : ∀ other op,
      ((config.startSend thread value activity).threads other).pendingSend =
        some op →
      (other = thread ∧
        op = { ticket := config.nextTicket, value := value }) ∨
      (other ≠ thread ∧ (config.threads other).pendingSend = some op) := by
    intro other op hop
    simp only [InboxConfig.startSend, InboxConfig.advance] at hop
    by_cases heq : other = thread
    · subst heq
      simp only [Function.update_self, hpending, Option.some.injEq] at hop
      exact .inl ⟨rfl, hop.symm⟩
    · exact .inr ⟨heq, by simpa [heq] using hop⟩
  constructor
  · simpa [InboxConfig.startSend, InboxConfig.advance, acceptedValues,
      acceptedSends, deliveredValues] using hinv.fifo
  · exact hinv.bounded
  · simpa [InboxConfig.startSend, InboxConfig.advance] using hinv.closed_iff
  · intro op hmem
    simp only [InboxConfig.startSend, InboxConfig.advance] at hmem ⊢
    rcases List.mem_append.mp hmem with hmem | hmem
    · exact (hinv.fresh op hmem).trans (Nat.lt_succ_self _)
    · simp only [List.mem_singleton, InboxEvent.started.injEq] at hmem
      rw [hmem]
      exact Nat.lt_succ_self _
  · intro ticket hanswered
    by_contra hge
    simp only [InboxConfig.startSend, InboxConfig.advance] at hanswered hge
    refine hnotAnswered ticket (fun hold => ?_) hanswered
    have hlt := hinv.answered ticket hold
    omega
  · intro other op hop
    simp only [InboxConfig.startSend, InboxConfig.advance]
    rcases hthread other op hop with ⟨-, rfl⟩ | ⟨-, hold⟩
    · exact ⟨by simp, hnotAnswered _ hnew⟩
    · obtain ⟨hmem, hnot⟩ := hinv.pendingStarted other op hold
      exact ⟨List.mem_append_left _ hmem, hnotAnswered _ hnot⟩
  · intro left right op op' hop hop' hticket
    rcases hthread left op hop with ⟨rfl, rfl⟩ | ⟨-, hold⟩
    · rcases hthread right op' hop' with ⟨rfl, -⟩ | ⟨-, hold'⟩
      · rfl
      · have hlt := hinv.fresh op' (hinv.pendingStarted right op' hold').1
        simp only at hticket
        omega
    · rcases hthread right op' hop' with ⟨rfl, rfl⟩ | ⟨-, hold'⟩
      · have hlt := hinv.fresh op (hinv.pendingStarted left op hold).1
        simp only at hticket
        omega
      · exact hinv.pendingDistinct left right op op' hold hold' hticket
  · refine hinv.guarded.append ?_
    intro earlier hmem
    exact (hinv.fresh earlier hmem).ne

theorem InboxConfig.Invariant.afterAccepted {config : InboxConfig n T}
    (hinv : config.Invariant) {thread : Fin n} {op : SendOp T}
    (hpending : (config.threads thread).pendingSend = some op)
    (hopen : config.state.closed = false)
    (hroom : config.state.queue.length < config.capacity) :
    (config.advance thread
      { config.state with queue := config.state.queue ++ [op.value] }
      .notifyingNotEmpty [.accepted op]).Invariant := by
  obtain ⟨hstarted, hnotAnswered⟩ := hinv.pendingStarted thread op hpending
  apply hinv.afterAdvance
  · rfl
  · have hfifo := hinv.fifo
    simp only [acceptedValues_append, deliveredValues_append, hfifo]
    simp [acceptedValues, acceptedSends, deliveredValues]
  · simp only [List.length_append, List.length_singleton]
    omega
  · simpa using hinv.closed_iff
  · simp
  · simpa using hpending
  · simp
  · refine ⟨hstarted, hnotAnswered, ?_⟩
    rw [← hinv.closed_iff]
    simp [hopen]

theorem InboxConfig.Invariant.afterRefused {config : InboxConfig n T}
    (hinv : config.Invariant) {thread : Fin n} {op : SendOp T}
    {error : SendError T}
    (hpending : (config.threads thread).pendingSend = some op)
    (herror : error.intoInner = op.value) :
    (config.advance thread config.state .idle
      [.refused op.ticket error]).Invariant := by
  obtain ⟨hstarted, hnotAnswered⟩ := hinv.pendingStarted thread op hpending
  apply hinv.afterAdvance
  · rfl
  · simpa [acceptedValues, acceptedSends, deliveredValues] using hinv.fifo
  · exact hinv.bounded
  · simpa using hinv.closed_iff
  · simp
  · simp
  · intro ticket other hevent
    simp only [InboxEvent.refused.injEq] at hevent
    exact ⟨op, hpending, hevent.1⟩
  · exact ⟨by rw [herror]; exact hstarted, hnotAnswered⟩

theorem InboxConfig.Invariant.afterDelivered {config : InboxConfig n T}
    (hinv : config.Invariant) (thread : Fin n) {value : T} {rest : List T}
    (hqueue : config.state.queue = value :: rest) :
    (config.advance thread { config.state with queue := rest }
      (.notifyingNotFull value) [.delivered value]).Invariant := by
  have hfifo := hinv.fifo
  have hbounded := hinv.bounded
  rw [hqueue] at hfifo hbounded
  apply hinv.afterAdvance
  · rfl
  · simp only [acceptedValues_append, deliveredValues_append, hfifo]
    simp [acceptedValues, acceptedSends, deliveredValues]
  · simp only [List.length_cons] at hbounded
    simp only
    omega
  · simpa using hinv.closed_iff
  · simp
  · simp
  · simp
  · simp only [InboxEvent.Admitted, hfifo]
    simp

/-- An answer of `recv` that takes nothing, on an empty queue. -/
theorem InboxConfig.Invariant.afterEmpty {config : InboxConfig n T}
    (hinv : config.Invariant) (thread : Fin n) {event : InboxEvent T}
    (hqueue : config.state.queue = [])
    (hevent : event = .recvTimedOut ∨
      (event = .recvClosed ∧ config.state.closed = true)) :
    (config.advance thread config.state .idle [event]).Invariant := by
  have hdrained : deliveredValues config.transcript =
      acceptedValues config.transcript := by
    rw [hinv.fifo, hqueue, List.append_nil]
  rcases hevent with rfl | ⟨rfl, hclosed⟩
  · apply hinv.afterAdvance
    · rfl
    · simpa [acceptedValues, acceptedSends, deliveredValues] using hinv.fifo
    · exact hinv.bounded
    · simpa using hinv.closed_iff
    · simp
    · simp
    · simp
    · exact hdrained
  · apply hinv.afterAdvance
    · rfl
    · simpa [acceptedValues, acceptedSends, deliveredValues] using hinv.fifo
    · exact hinv.bounded
    · simpa using hinv.closed_iff
    · simp
    · simp
    · simp
    · exact ⟨hinv.closed_iff.mp hclosed, hdrained⟩

theorem InboxConfig.Invariant.afterClosed {config : InboxConfig n T}
    (hinv : config.Invariant) (thread : Fin n) :
    (config.advance thread config.state.close .closeNotifyingNotEmpty
      [.closed]).Invariant := by
  apply hinv.afterAdvance
  · rfl
  · simpa [acceptedValues, acceptedSends, deliveredValues,
      InboxState.close] using hinv.fifo
  · exact hinv.bounded
  · simp [InboxState.close]
  · simp
  · simp
  · simp
  · trivial

theorem InboxConfig.Invariant.afterOutcome {config next : InboxConfig n T}
    (hinv : config.Invariant) (houtcome : config.Outcome next) :
    next.Invariant := by
  cases houtcome with
  | quiet now threads hpending => exact hinv.afterQuiet now threads hpending
  | started thread value activity hpending =>
      exact hinv.afterStarted thread value activity hpending
  | accepted thread op hpending hopen hroom =>
      exact hinv.afterAccepted hpending hopen hroom
  | refused thread op error hpending herror =>
      exact hinv.afterRefused hpending herror
  | delivered thread value rest hpending hqueue =>
      exact hinv.afterDelivered thread hqueue
  | recvClosed thread hpending hqueue hclosed =>
      exact hinv.afterEmpty thread hqueue (.inr ⟨rfl, hclosed⟩)
  | recvTimedOut thread hpending hqueue =>
      exact hinv.afterEmpty thread hqueue (.inl rfl)
  | closed thread hpending => exact hinv.afterClosed thread

/-! ## The properties of every run -/

structure InboxConfig.Linearizable (config : InboxConfig n T) : Prop where
  /-- What came out is a prefix of what went in; the queue is the rest. -/
  fifo : acceptedValues config.transcript =
    deliveredValues config.transcript ++ config.state.queue
  bounded : config.state.queue.length ≤ config.capacity
  capacity_pos : 1 ≤ config.capacity
  /-- A send is a single send. -/
  startedOnce : ∀ op op', .started op ∈ config.transcript →
    .started op' ∈ config.transcript → op.ticket = op'.ticket → op = op'
  acceptedOnce :
    ((acceptedSends config.transcript).map SendOp.ticket).Nodup
  accepted_started : ∀ op ∈ acceptedSends config.transcript,
    .started op ∈ config.transcript
  /-- A refused send gets its own value back, and it never went in. -/
  givenBack : ∀ ticket error, .refused ticket error ∈ config.transcript →
    .started { ticket := ticket, value := error.intoInner } ∈
        config.transcript ∧
      ticket ∉ (acceptedSends config.transcript).map SendOp.ticket
  closed_drained : ∀ before after,
    config.transcript = before ++ .recvClosed :: after →
      .closed ∈ before ∧
        deliveredValues before = acceptedValues config.transcript
  sealed : ∀ before after,
    config.transcript = before ++ .closed :: after →
      acceptedSends after = []

section GuardedTranscripts

variable {transcript : List (InboxEvent T)}

theorem startedOnce_of_guarded
    (hguarded : Guarded InboxEvent.Admitted transcript)
    {op op' : SendOp T} (hop : .started op ∈ transcript)
    (hop' : .started op' ∈ transcript) (hticket : op.ticket = op'.ticket) :
    op = op' := by
  by_contra hne
  rcases hguarded.ordered hop hop' (by simpa using hne) with
    ⟨before, hmem, hadmitted⟩ | ⟨before, hmem, hadmitted⟩
  · exact hadmitted op' hmem hticket.symm
  · exact hadmitted op hmem hticket

theorem acceptedOnce_of_guarded
    (hguarded : Guarded InboxEvent.Admitted transcript) :
    ((acceptedSends transcript).map SendOp.ticket).Nodup := by
  induction transcript using List.reverseRecOn with
  | nil => simp [acceptedSends]
  | append_singleton before event ih =>
      have hprior := ih hguarded.of_append
      have hadmitted := hguarded before event [] rfl
      cases event with
      | accepted op =>
          obtain ⟨-, hnotAnswered, -⟩ := hadmitted
          rw [acceptedSends_append, List.map_append, List.nodup_append]
          refine ⟨hprior, by simp [acceptedSends], ?_⟩
          intro ticket hticket other hother heq
          obtain ⟨earlier, hearlier, rfl⟩ := List.mem_map.mp hticket
          simp only [acceptedSends, List.filterMap_cons, List.filterMap_nil,
            List.map_cons, List.map_nil, List.mem_singleton] at hother
          exact hnotAnswered (.inl ⟨earlier,
            (mem_acceptedSends before).mp hearlier, heq.trans hother⟩)
      | _ => simpa [acceptedSends] using hprior

theorem accepted_started_of_guarded
    (hguarded : Guarded InboxEvent.Admitted transcript) {op : SendOp T}
    (hop : op ∈ acceptedSends transcript) : .started op ∈ transcript := by
  obtain ⟨before, after, hsplit⟩ :=
    List.append_of_mem ((mem_acceptedSends transcript).mp hop)
  have hstarted := (hguarded before _ after hsplit).1
  rw [hsplit]
  exact List.mem_append_left _ hstarted

theorem givenBack_of_guarded
    (hguarded : Guarded InboxEvent.Admitted transcript)
    {ticket : ℕ} {error : SendError T}
    (hrefused : .refused ticket error ∈ transcript) :
    .started { ticket := ticket, value := error.intoInner } ∈ transcript ∧
      ticket ∉ (acceptedSends transcript).map SendOp.ticket := by
  obtain ⟨before, after, hsplit⟩ := List.append_of_mem hrefused
  have hstarted := (hguarded before _ after hsplit).1
  refine ⟨by rw [hsplit]; exact List.mem_append_left _ hstarted, ?_⟩
  intro hmem
  obtain ⟨op, hop, hticket⟩ := List.mem_map.mp hmem
  have haccepted := (mem_acceptedSends transcript).mp hop
  rcases hguarded.ordered haccepted hrefused (by simp) with
    ⟨earlier, hbefore, hadmitted⟩ | ⟨earlier, hbefore, hadmitted⟩
  · exact hadmitted.2.1 (.inr ⟨error, hticket ▸ hbefore⟩)
  · exact hadmitted.2 (.inl ⟨op, hbefore, hticket⟩)

theorem sealed_of_guarded
    (hguarded : Guarded InboxEvent.Admitted transcript)
    {before after : List (InboxEvent T)}
    (hclosed : .closed ∈ before)
    (hsplit : transcript = before ++ after) :
    acceptedSends after = [] := by
  rw [List.eq_nil_iff_forall_not_mem]
  intro op hop
  obtain ⟨middle, rest, hrest⟩ :=
    List.append_of_mem ((mem_acceptedSends after).mp hop)
  have hadmitted := hguarded (before ++ middle) _ rest
    (by rw [hsplit, hrest, List.append_assoc])
  exact hadmitted.2.2 (List.mem_append_left _ hclosed)

theorem closed_drained_of_guarded
    (hguarded : Guarded InboxEvent.Admitted transcript)
    {before after : List (InboxEvent T)}
    (hsplit : transcript = before ++ .recvClosed :: after) :
    .closed ∈ before ∧
      deliveredValues before = acceptedValues transcript := by
  obtain ⟨hclosed, hdrained⟩ := hguarded before _ after hsplit
  have hnone := sealed_of_guarded hguarded hclosed hsplit
  refine ⟨hclosed, ?_⟩
  rw [hsplit, acceptedValues_append, hdrained]
  simp [acceptedValues, hnone]

end GuardedTranscripts

theorem InboxConfig.invariant_of_reaches {capacity instantLimit : ℕ}
    {config : InboxConfig n T}
    (hreach : (inboxSystem n T).Reaches
      (.new n T capacity instantLimit) config) :
    config.Invariant :=
  hreach.invariant
    (fun _ _ _ hinv hstep => hinv.afterOutcome (step_outcome hstep))
    (new_invariant capacity instantLimit)

theorem InboxConfig.capacity_of_reaches {capacity instantLimit : ℕ}
    {config : InboxConfig n T}
    (hreach : (inboxSystem n T).Reaches
      (.new n T capacity instantLimit) config) :
    config.capacity = max capacity 1 := by
  have hstep : ∀ (config : InboxConfig n T) action next,
      config.capacity = max capacity 1 →
      (inboxSystem n T).step config action = some next →
        next.capacity = max capacity 1 := by
    intro config action next hcapacity hstep
    cases step_outcome hstep <;> exact hcapacity
  exact hreach.invariant hstep rfl

/-- Whatever the capacity, the number of threads and the interleaving of
sends, receives, closes, timeouts and spurious wakes. -/
theorem inbox_linearizable (capacity instantLimit : ℕ)
    {config : InboxConfig n T}
    (hreach : (inboxSystem n T).Reaches
      (.new n T capacity instantLimit) config) :
    config.Linearizable := by
  have hinv := InboxConfig.invariant_of_reaches hreach
  constructor
  · exact hinv.fifo
  · exact hinv.bounded
  · rw [InboxConfig.capacity_of_reaches hreach]
    exact le_max_right capacity 1
  · exact fun op op' => startedOnce_of_guarded hinv.guarded
  · exact acceptedOnce_of_guarded hinv.guarded
  · exact fun op => accepted_started_of_guarded hinv.guarded
  · exact fun ticket error => givenBack_of_guarded hinv.guarded
  · exact fun before after => closed_drained_of_guarded hinv.guarded
  · intro before after hsplit
    have hmem : .closed ∈ before ++ [.closed] := by simp
    exact sealed_of_guarded hinv.guarded hmem (by simp [hsplit])

/-- A sender waits for room, the inbox closes under it, and its value comes
back; the value sent before is still delivered. -/
theorem inbox_linearizable_close_while_waiting :
    ∃ config,
      (inboxSystem 3 ℕ).run (.new 3 ℕ 0 1000)
        [.trySend 0 41, .lock 0, .notify 0 none,
          .sendTimeout 0 42 5000, .lock 0, .close 1, .lock 1,
          .notify 1 none, .notify 1 none, .lock 0,
          .recv 2 60, .lock 2] = some config ∧
      config.Linearizable ∧
      deliveredValues config.transcript = [41] ∧
      .refused 1 (.closed 42) ∈ config.transcript := by
  refine ⟨_, rfl, inbox_linearizable 0 1000
    ⟨[.trySend 0 41, .lock 0, .notify 0 none,
      .sendTimeout 0 42 5000, .lock 0, .close 1, .lock 1,
      .notify 1 none, .notify 1 none, .lock 0,
      .recv 2 60, .lock 2], rfl⟩, rfl, ?_⟩
  decide

end Rulisp
