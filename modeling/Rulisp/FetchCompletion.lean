import Rulisp.FetchReassembly

/-!
# What a request without an error has transferred

A request that settles without an error has queued every byte that arrived
for it and has seen the end of its body; the converse of this is why the
veneer consults the error before it trusts the status.
-/

namespace Rulisp

namespace Fetch

open TransitionSystem

/-! ## Bytes that arrive -/

/-- The bytes that one action hands to the task. -/
def RequestAction.arrival : RequestAction → Bytes
  | .arrive bytes => bytes
  | _ => []

/-- The action is a part of `Req::read`. -/
def RequestAction.ofReader : RequestAction → Bool
  | .read _ _ | .returnPermit => true
  | _ => false

/-- The chunk that the task holds and has not queued. -/
def TaskPhase.pending : TaskPhase → Bytes
  | .acquiring bytes | .granted bytes | .queueing bytes => bytes
  | _ => []

/-- The chunk that the task is writing to the file of a sink. -/
def TaskPhase.toWrite : TaskPhase → Bytes
  | .writing bytes => bytes
  | _ => []

/-- The task has failed or been cancelled, or its guard will say so. -/
def Request.lost (r : Request) : Bool :=
  match r.phase with
  | .returned err => err.isSome
  | .leaving failed => failed || r.cancelled
  | .dropping failed cancelled | .released failed cancelled => failed || cancelled
  | .uncounted failed cancelled | .pushed failed cancelled => failed || cancelled
  | .finished => r.st.err.isSome
  | _ => false

/-- The task has the head of the answer. -/
def TaskPhase.hasHead : TaskPhase → Bool
  | .admitted | .identified | .leaked | .sending => false
  | _ => true

/-- The task has left its body loop. -/
def TaskPhase.pastBody : TaskPhase → Bool
  | .returned _ | .leaving _ | .finished => true
  | .dropping _ _ | .released _ _ | .uncounted _ _ | .pushed _ _ => true
  | _ => false

/-- What holds of a request to whose task `arrived` has been handed. -/
structure Request.Whole (arrived : Bytes) (r : Request) : Prop where
  received : r.received = arrived.length
  failed : r.phase.settled = true → r.phase ≠ .finished →
    r.st.err.isSome = true
  early : r.phase.settled = false → r.st.err = none
  head : r.lost = false → r.phase.hasHead = true → r.st.headDone = true
  eof : r.lost = false → r.phase.pastBody = true → r.st.eof = true
  bytes : r.lost = false → r.sink = false →
    queuedBytes r.log ++ r.phase.pending = arrived
  sunk : r.lost = false → r.sink = true →
    r.written ++ r.phase.toWrite = arrived
  capped : r.lost = false → 0 < r.maxBodyBytes →
    r.received ≤ r.maxBodyBytes

theorem State.done_iff {st : State} :
    st.done = true ↔ st.settled = true ∧ st.chunks = [] := by
  simp [State.done]

/-- A read that returns no chunk found none, and owes no permit. -/
theorem State.read_none (st : State) (max : ℕ)
    (hnone : ∀ chunk, (st.read max).1 ≠ .chunk chunk) :
    (st.read max).2.1 = false ∧ (st.read max).2.2.chunks = [] := by
  unfold State.read at hnone ⊢
  split at hnone
  · split_ifs at hnone <;> exact absurd rfl (hnone _)
  · rename_i hchunks
    split_ifs
    · split <;> exact ⟨rfl, hchunks⟩
    · exact ⟨rfl, hchunks⟩

/-! ## Reads of a settled queue -/

/-- A bound on the chunks that reads of the given size split the queue
into. -/
def readsLeft (size : ℕ) (chunks : List Bytes) : ℕ :=
  (chunks.map fun chunk => chunk.length / readLimit size + 1).sum

theorem readLimit_pos (size : ℕ) : 0 < readLimit size := by
  unfold readLimit
  split_ifs <;> omega

/-- A read of a settled queue that is not empty leaves less of it. -/
theorem State.read_readsLeft (st : State) (size : ℕ) :
    readsLeft size (st.read (readLimit size)).2.2.chunks +
      (if st.chunks = [] then 0 else 1) ≤ readsLeft size st.chunks := by
  have hpos := readLimit_pos size
  unfold State.read
  split
  · rename_i chunk chunks hchunks
    rw [hchunks]
    by_cases hlong : readLimit size < chunk.length
    · have hdiv : (chunk.length - readLimit size) / readLimit size + 1 =
          chunk.length / readLimit size :=
        (Nat.div_eq_sub_div hpos hlong.le).symm
      simp only [if_pos hlong, readsLeft, List.map_cons, List.sum_cons,
        List.length_drop, reduceCtorEq, if_false]
      omega
    · simp only [if_neg hlong, readsLeft, List.map_cons, List.sum_cons,
        reduceCtorEq, if_false]
      generalize chunk.length / readLimit size = reads
      omega
  · rename_i hchunks
    rw [if_pos hchunks]
    by_cases hsettled : st.settled = true
    · rw [if_pos hsettled]
      split <;> exact le_rfl
    · rw [if_neg hsettled]
      exact le_rfl

section Steps

variable {r r' : Request} {arrived : Bytes}

theorem Request.start_whole (queueChunks : ℕ) (sink : Bool)
    (maxBodyBytes : ℕ) :
    (Request.start queueChunks sink maxBodyBytes).Whole [] := by
  constructor <;> simp [Request.start, State.new, TaskPhase.settled,
    TaskPhase.hasHead, TaskPhase.pastBody, TaskPhase.pending,
    TaskPhase.toWrite, queuedBytes]

/-- The task goes from one place to another, and neither what it has lost
nor what it holds changes. -/
structure Request.Moves (r r' : Request) : Prop where
  st : r'.st = r.st
  log : r'.log = r.log
  sink : r'.sink = r.sink
  maxBodyBytes : r'.maxBodyBytes = r.maxBodyBytes
  settled : r'.phase.settled = r.phase.settled
  running : r.phase ≠ .finished
  lost : r'.lost = false → r.lost = false
  head : r'.phase.hasHead = true → r.phase.hasHead = true
  pastBody : r'.lost = false → r'.phase.pastBody = true →
    r.phase.pastBody = true
  pending : r'.lost = false → r'.phase.pending = r.phase.pending
  written : r'.written = r.written
  toWrite : r'.lost = false → r'.phase.toWrite = r.phase.toWrite

theorem Request.Whole.moved (hwhole : r.Whole arrived)
    (hreceived : r'.received = r.received) (hmoves : r.Moves r') :
    r'.Whole arrived := by
  obtain ⟨hst, hlog, hsink, hcap, hsettled, hrunning, hlost, hhead, hbody,
    hpending, hwritten, htoWrite⟩ := hmoves
  constructor
  · rw [hreceived, hwhole.received]
  · intro hphase _
    rw [hst]
    exact hwhole.failed (hsettled ▸ hphase) hrunning
  · intro hphase
    rw [hst]
    exact hwhole.early (hsettled ▸ hphase)
  · intro hkept hphase
    rw [hst]
    exact hwhole.head (hlost hkept) (hhead hphase)
  · intro hkept hphase
    rw [hst]
    exact hwhole.eof (hlost hkept) (hbody hkept hphase)
  · intro hkept hbuffered
    rw [hlog, hpending hkept]
    exact hwhole.bytes (hlost hkept) (hsink ▸ hbuffered)
  · intro hkept hstreamed
    rw [hwritten, htoWrite hkept]
    exact hwhole.sunk (hlost hkept) (hsink ▸ hstreamed)
  · intro hkept hlimit
    rw [hreceived, hcap]
    exact hwhole.capped (hlost hkept) (hcap ▸ hlimit)

theorem Request.Whole.respond (hwhole : r.Whole arrived)
    (hphase : r.phase = .sending) {status : ℕ} {headers : Bytes}
    {length : Option ℕ} :
    ({ r with
      st := { r.st with
        status := status, headers := headers, headDone := true }
      phase := .head length } : Request).Whole arrived := by
  have hkept : r.lost = false := by
    unfold Request.lost
    rw [hphase]
  have hbytes := hwhole.bytes hkept
  have hsunk := hwhole.sunk hkept
  rw [hphase] at hbytes hsunk
  constructor <;> try simp [TaskPhase.settled, TaskPhase.pastBody]
  · exact hwhole.received
  · exact hwhole.early (by rw [hphase]; rfl)
  · exact fun _ => hbytes
  · exact fun _ => hsunk
  · exact fun _ => hwhole.capped hkept

theorem Request.Whole.markEof (hwhole : r.Whole arrived)
    (hphase : r.phase = .ending) :
    ({ r with
      st := { r.st with eof := true }
      phase := .returned none } : Request).Whole arrived := by
  have hkept : r.lost = false := by
    unfold Request.lost
    rw [hphase]
  have hbytes := hwhole.bytes hkept
  have hsunk := hwhole.sunk hkept
  rw [hphase] at hbytes hsunk
  constructor <;> try simp [TaskPhase.settled]
  · exact hwhole.received
  · exact hwhole.early (by rw [hphase]; rfl)
  · exact fun _ _ => hwhole.head hkept (by rw [hphase]; rfl)
  · exact fun _ => hbytes
  · exact fun _ => hsunk
  · exact fun _ => hwhole.capped hkept

/-- The task fails at an await. -/
theorem Request.Whole.fail (hwhole : r.Whole arrived) {site : TaskPhase}
    {err : HttpError} (hstep : r.fail site err = some r')
    (hsettled : site.settled = false) : r'.Whole arrived := by
  unfold Request.fail at hstep
  split at hstep
  · rename_i hphase
    cases hstep
    have hearly := hwhole.early (hphase ▸ hsettled)
    constructor <;> simp [hwhole.received, hearly, Request.lost,
      TaskPhase.settled]
  · cases hstep

theorem Request.Whole.arrive (hwhole : r.Whole arrived) {bytes : Bytes}
    (hstep : r.arrive bytes = some r') : r'.Whole (arrived ++ bytes) := by
  unfold Request.arrive at hstep
  split at hstep
  · rename_i hphase
    cases hstep
    obtain ⟨hreceived, -, hearly, hhead, -, hbytes, hsunk, -⟩ := hwhole
    simp only [Request.lost, hphase, TaskPhase.settled, TaskPhase.hasHead,
      TaskPhase.pending, TaskPhase.toWrite, List.append_nil,
      forall_const] at hearly hhead hbytes hsunk
    by_cases hover : 0 < r.maxBodyBytes ∧
        r.maxBodyBytes < r.received + bytes.length
    · simp only [if_pos hover]
      constructor <;> simp [hreceived, hearly, Request.lost,
        TaskPhase.settled]
    · have hfits : 0 < r.maxBodyBytes →
          arrived.length + bytes.length ≤ r.maxBodyBytes := by omega
      cases hsink : r.sink <;>
        simp only [if_neg hover, if_true, Bool.false_eq_true, if_false] <;>
        constructor <;>
        simp_all [Request.lost, TaskPhase.settled, TaskPhase.pastBody,
          TaskPhase.pending, TaskPhase.toWrite]
  · cases hstep

theorem Request.Whole.write (hwhole : r.Whole arrived)
    (hstep : r.write = some r') : r'.Whole arrived := by
  unfold Request.write at hstep
  split at hstep
  · rename_i bytes hphase
    cases hstep
    obtain ⟨hreceived, -, hearly, hhead, -, hbytes, hsunk, hcapped⟩ := hwhole
    simp only [Request.lost, hphase, TaskPhase.settled, TaskPhase.hasHead,
      TaskPhase.pending, TaskPhase.toWrite, forall_const]
      at hearly hhead hbytes hsunk hcapped
    constructor <;> simp_all [Request.lost, TaskPhase.settled,
      TaskPhase.pastBody, TaskPhase.pending, TaskPhase.toWrite]
  · cases hstep

/-- A write that fails loses the body. -/
theorem Request.Whole.writeFail (hwhole : r.Whole arrived) {text : String}
    (hstep : r.writeFail text = some r') : r'.Whole arrived := by
  unfold Request.writeFail at hstep
  split at hstep
  · rename_i bytes hphase
    cases hstep
    have hearly := hwhole.early (by rw [hphase]; rfl)
    constructor <;> simp [hwhole.received, hearly, Request.lost,
      TaskPhase.settled]
  · cases hstep

theorem Request.Whole.queue (hwhole : r.Whole arrived)
    (hstep : r.queue = some r') : r'.Whole arrived := by
  unfold Request.queue at hstep
  split at hstep
  · rename_i bytes hphase
    cases hstep
    obtain ⟨hreceived, -, hearly, hhead, -, hbytes, hsunk, hcapped⟩ := hwhole
    simp only [Request.lost, hphase, TaskPhase.settled, TaskPhase.hasHead,
      TaskPhase.pending, TaskPhase.toWrite, forall_const]
      at hearly hhead hbytes hsunk hcapped
    constructor <;> simp_all [Request.lost, State.queue, TaskPhase.settled,
      TaskPhase.pastBody, TaskPhase.pending, TaskPhase.toWrite,
      BodyEvent.bytesQueued]
  · cases hstep

theorem Request.Whole.finish (hwhole : r.Whole arrived)
    (hrunning : r.st.settled = r.phase.settled)
    (hstep : r.finish = some r') : r'.Whole arrived := by
  obtain ⟨hreceived, -, hearly, hhead, heof, hbytes, hsunk, hcapped⟩ := hwhole
  unfold Request.finish at hstep
  split at hstep
  · rename_i err hphase
    cases hstep
    simp only [hphase, TaskPhase.settled, forall_const] at hrunning hearly
    constructor <;> simp_all [Request.lost, State.settle, TaskPhase.settled]
  · rename_i hphase
    cases hstep
    simp only [Request.lost, hphase, TaskPhase.settled, TaskPhase.hasHead,
      TaskPhase.pastBody, TaskPhase.pending, TaskPhase.toWrite,
      Option.isSome_none, forall_const]
      at hearly hhead heof hbytes hsunk hcapped
    constructor <;> simp_all [Request.lost, TaskPhase.settled,
      TaskPhase.pending, TaskPhase.toWrite]
  · cases hstep

/-- The guard settles a request that has not failed: with an error exactly
when it was cancelled. -/
theorem Request.Whole.settle (hwhole : r.Whole arrived)
    (hrunning : r.st.settled = r.phase.settled)
    (hstep : r.settle = some r') : r'.Whole arrived := by
  obtain ⟨hreceived, hfailed, hearly, hhead, heof, hbytes, hsunk, hcapped⟩ :=
    hwhole
  unfold Request.settle at hstep
  split at hstep
  · rename_i failed cancelled hphase
    cases hstep
    simp only [Request.lost, hphase, TaskPhase.settled, TaskPhase.hasHead,
      TaskPhase.pastBody, TaskPhase.pending, TaskPhase.toWrite, forall_const]
      at hrunning hfailed hearly hhead heof hbytes hsunk hcapped
    cases failed <;> cases cancelled <;>
      constructor <;>
      simp_all [Request.lost, State.settle, TaskPhase.settled,
        TaskPhase.pending, TaskPhase.toWrite]
  · cases hstep

theorem Request.Whole.read (hwhole : r.Whole arrived) (max : ℕ)
    (returning : ℕ) :
    ({ r with
      st := (r.st.read max).2.2
      returning := returning
      log := r.log ++ [.read (r.st.read max).1] } : Request).Whole
      arrived := by
  have hst : (r.st.read max).2.2.err = r.st.err ∧
      (r.st.read max).2.2.headDone = r.st.headDone ∧
      (r.st.read max).2.2.eof = r.st.eof := by
    unfold State.read
    split
    · split_ifs <;> exact ⟨rfl, rfl, rfl⟩
    · split_ifs
      · split <;> exact ⟨rfl, rfl, rfl⟩
      · exact ⟨rfl, rfl, rfl⟩
  obtain ⟨herr, hhead, heof⟩ := hst
  have hlost : ({ r with
      st := (r.st.read max).2.2
      returning := returning
      log := r.log ++ [.read (r.st.read max).1] } : Request).lost =
      r.lost := by
    unfold Request.lost
    simp only [herr]
  constructor <;> simp only [hlost, herr, hhead, heof]
  · exact hwhole.received
  · exact hwhole.failed
  · exact hwhole.early
  · exact hwhole.head
  · exact hwhole.eof
  · simpa [BodyEvent.bytesQueued] using hwhole.bytes
  · exact hwhole.sunk
  · exact hwhole.capped

theorem Request.Whole.abandon (hwhole : r.Whole arrived)
    (hstep : r.abandon = some r') : r'.Whole arrived := by
  unfold Request.abandon at hstep
  split at hstep
  · rename_i hcan
    cases hstep
    have hbefore : r.phase.settled = false := by
      have hawaiting := hcan.2
      revert hawaiting
      cases r.phase <;> simp [TaskPhase.awaiting, TaskPhase.settled]
    have hearly := hwhole.early hbefore
    constructor <;> simp [hwhole.received, hearly, Request.lost, hcan.1,
      TaskPhase.settled]
  · cases hstep

/-- A cancelled request may yet finish whole: the token is looked at again
only by the guard. -/
theorem Request.Whole.cancel (hwhole : r.Whole arrived) :
    ({ r with cancelled := true } : Request).Whole arrived := by
  have hlost : ({ r with cancelled := true } : Request).lost = false →
      r.lost = false := by
    unfold Request.lost
    cases r.phase <;> simp
  constructor
  · exact hwhole.received
  · exact hwhole.failed
  · exact hwhole.early
  · exact fun hkept => hwhole.head (hlost hkept)
  · exact fun hkept => hwhole.eof (hlost hkept)
  · exact fun hkept => hwhole.bytes (hlost hkept)
  · exact fun hkept => hwhole.sunk (hlost hkept)
  · exact fun hkept => hwhole.capped (hlost hkept)

theorem Request.Whole.returnPermit (hwhole : r.Whole arrived) :
    ({ r with
      returning := r.returning - 1
      chunkPermits := r.chunkPermits + 1 } : Request).Whole arrived :=
  ⟨hwhole.received, hwhole.failed, hwhole.early, hwhole.head, hwhole.eof,
    hwhole.bytes, hwhole.sunk, hwhole.capped⟩

/-- One step keeps the invariant. -/
theorem Request.Whole.step (hwhole : r.Whole arrived)
    (hrunning : r.st.settled = r.phase.settled)
    {action : RequestAction} (hstep : r.step action = some r') :
    r'.Whole (arrived ++ action.arrival) := by
  cases action with
  | arrive bytes => exact hwhole.arrive hstep
  | queue => exact (List.append_nil arrived).symm ▸ hwhole.queue hstep
  | finish => exact (List.append_nil arrived).symm ▸ hwhole.finish hrunning hstep
  | settle => exact (List.append_nil arrived).symm ▸ hwhole.settle hrunning hstep
  | abandon => exact (List.append_nil arrived).symm ▸ hwhole.abandon hstep
  | cancel =>
      cases hstep
      exact (List.append_nil arrived).symm ▸ hwhole.cancel
  | sendFailed isTimeout text | streamFailed isTimeout text =>
      exact (List.append_nil arrived).symm ▸ hwhole.fail hstep rfl
  | written => exact (List.append_nil arrived).symm ▸ hwhole.write hstep
  | writeFailed text =>
      exact (List.append_nil arrived).symm ▸ hwhole.writeFail hstep
  | createFailed text | flushFailed text =>
      exact (List.append_nil arrived).symm ▸ hwhole.fail hstep rfl
  | returnPermit =>
      simp only [Request.step, Request.returnPermit] at hstep
      split at hstep
      · cases hstep
      · cases hstep
        exact (List.append_nil arrived).symm ▸ hwhole.returnPermit
  | read maxBytes waited =>
      simp only [Request.step, Request.read] at hstep
      split at hstep
      · cases hstep
        exact (List.append_nil arrived).symm ▸ hwhole.read _ _
      · cases hstep
  | respond status headers length =>
      simp only [Request.step, Request.respond] at hstep
      split at hstep
      · rename_i hphase
        cases hstep
        exact (List.append_nil arrived).symm ▸ hwhole.respond hphase
      · cases hstep
  | markEof =>
      simp only [Request.step, Request.markEof] at hstep
      split at hstep
      · rename_i hphase
        cases hstep
        exact (List.append_nil arrived).symm ▸ hwhole.markEof hphase
      · cases hstep
  | grant =>
      simp only [Request.step, Request.grant] at hstep
      split at hstep
      · rename_i bytes hphase
        split at hstep
        · cases hstep
        · cases hstep
          refine (List.append_nil arrived).symm ▸ hwhole.moved rfl ?_
          constructor <;> simp [hphase, Request.lost, TaskPhase.settled,
            TaskPhase.hasHead, TaskPhase.pastBody, TaskPhase.pending,
            TaskPhase.toWrite]
      · cases hstep
  | _ =>
      simp only [Request.step, Request.identify, Request.spawn,
        Request.proceed, Request.storeTotal, Request.acquired,
        Request.stall, Request.isCancelled, Request.addPermit,
        Request.decrement, Request.pushReady] at hstep
      split at hstep
      all_goals cases hstep
      all_goals
        rename_i hphase
        refine (List.append_nil arrived).symm ▸ hwhole.moved rfl ?_
        constructor <;> (try split_ifs) <;> simp [hphase, Request.lost,
          TaskPhase.settled, TaskPhase.hasHead, TaskPhase.pastBody,
          TaskPhase.pending, TaskPhase.toWrite]

/-- No step changes what a request was started with, and only the reader
changes what has been read and what it owes. -/
theorem Request.step_config {action : RequestAction}
    (hstep : r.step action = some r') :
    r'.sink = r.sink ∧ r'.maxBodyBytes = r.maxBodyBytes ∧
      (action.ofReader = false → r'.returning = r.returning ∧
        readBytes r'.log = readBytes r.log) := by
  cases action with
  | abandon | read | cancel | returnPermit =>
      simp only [Request.step, Request.abandon, Request.read,
        Request.returnPermit] at hstep
      try split at hstep
      all_goals cases hstep
      all_goals exact ⟨rfl, rfl, by simp [RequestAction.ofReader]⟩
  | _ =>
      simp only [Request.step, Request.identify, Request.spawn,
        Request.fail, Request.proceed, Request.respond, Request.storeTotal,
        Request.arrive, Request.write, Request.writeFail,
        Request.acquired, Request.stall, Request.grant,
        Request.queue, Request.markEof, Request.finish, Request.settle,
        Request.isCancelled, Request.addPermit, Request.decrement,
        Request.pushReady] at hstep
      split at hstep
      all_goals (try split at hstep)
      all_goals cases hstep
      all_goals refine ⟨rfl, rfl, fun _ => ⟨rfl, ?_⟩⟩
      all_goals simp [BodyEvent.bytesRead]

/-- The state of a settled request changes by reads alone. -/
theorem Request.settled_frozen (hphase : r.phase.settled = true)
    (hrunning : r.st.settled = r.phase.settled) {action : RequestAction}
    (hreader : action.ofReader = false)
    (hstep : r.step action = some r') :
    r'.st = r.st ∧ r'.log = r.log ∧ r'.phase.settled = true ∧
      action.arrival = [] := by
  cases action with
  | read maxBytes waited => cases hreader
  | returnPermit => cases hreader
  | abandon =>
      simp only [Request.step, Request.abandon] at hstep
      split at hstep
      · rename_i hcan
        have hawaiting := hcan.2
        revert hawaiting hphase
        cases r.phase <;> simp [TaskPhase.awaiting, TaskPhase.settled]
      · cases hstep
  | settle =>
      simp only [Request.step, Request.settle] at hstep
      split at hstep
      · rename_i failed cancelled hpushed
        cases hstep
        refine ⟨if_pos (hrunning.trans hphase), rfl, rfl, rfl⟩
      · cases hstep
  | cancel =>
      cases hstep
      exact ⟨rfl, rfl, hphase, rfl⟩
  | _ =>
      simp only [Request.step, Request.identify, Request.spawn,
        Request.fail, Request.proceed, Request.respond, Request.storeTotal,
        Request.arrive, Request.write, Request.writeFail,
        Request.acquired, Request.stall, Request.grant,
        Request.queue, Request.markEof, Request.finish, Request.isCancelled,
        Request.addPermit, Request.decrement, Request.pushReady, if_true,
        Bool.false_eq_true, if_false] at hstep
      split at hstep
      all_goals (try split at hstep)
      all_goals cases hstep
      all_goals simp_all [TaskPhase.settled, RequestAction.arrival]

end Steps

end Fetch

end Rulisp
