import Mathlib.Data.List.Induction
import Rulisp.CallbackTunnel

/-!
# Classification of callback errors

The tunnel flag is one thread-local per library, cleared when a shim with a
borrowed callback is entered and read when it fails.  It tells what the last
tunnel event inside the call was, which need not be what the call's own
callbacks did: a nested entry clears a failure of an outer callback, and a
failure that a nested closure handled stays behind.  The results below say
exactly for which trees the classification is right.
-/

namespace Rulisp

variable {L C K : Type} [DecidableEq L]

/-- A callback failed after which no shim with a borrowed callback was
entered. -/
def FailureLast (events : List TunnelEvent) : Prop :=
  ∃ before after, events = before ++ .failed :: after ∧ .entered ∉ after

/-- A callback-taking call whose Rust function returned `Err`. -/
def ShimCall.FailsWith (call : ShimCall L C K) (kind message : String) : Prop :=
  call.takesCallback = true ∧ call.refusal = none ∧
    call.outcome = .err kind message

/-- One of the call's own callback invocations returned nonzero. -/
def ShimCall.OwnCallbackFailed (call : ShimCall L C K) : Prop :=
  ∃ invocation ∈ call.body, invocation.failedBorrowed = true

/-- The tunnel events inside a failing call end with a failure just when one
of the call's own callbacks failed. -/
def ShimCall.TunnelFaithful (call : ShimCall L C K) : Prop :=
  ∀ kind message, call.FailsWith kind message →
    (call.OwnCallbackFailed ↔
      FailureLast (invocationEvents call.wrapper.library
        call.wrapper.library call.body))

/-- The status of a failing call tells whether one of its own callbacks
failed, and status 4 always comes with a stashed condition. -/
def CallRecord.Classified (record : CallRecord L C K) : Prop :=
  (∀ kind message, record.call.FailsWith kind message →
    (record.status = statusCbErr ↔ record.call.OwnCallbackFailed) ∧
    (record.status ≠ statusCbErr → record.status = statusErr ∧
      record.lastError = { kind := kind, message := message })) ∧
  (record.status = statusCbErr → ∃ condition,
    record.stash = some condition ∧
      record.condition = some (.stashed condition))

/-! ## The tunnel flag is the last tunnel event -/

def TunnelEvent.flag : TunnelEvent → Bool
  | .entered => false
  | .failed => true

def flagAfter (flag : Bool) (events : List TunnelEvent) : Bool :=
  events.foldl (fun _ event => event.flag) flag

@[simp] theorem flagAfter_nil (flag : Bool) : flagAfter flag [] = flag := rfl

@[simp] theorem flagAfter_append (flag : Bool)
    (before after : List TunnelEvent) :
    flagAfter flag (before ++ after) =
      flagAfter (flagAfter flag before) after := by
  simp [flagAfter]

@[simp] theorem flagAfter_singleton (flag : Bool) (event : TunnelEvent) :
    flagAfter flag [event] = event.flag := rfl

theorem flagAfter_false_iff (events : List TunnelEvent) :
    flagAfter false events = true ↔ FailureLast events := by
  induction events using List.reverseRecOn with
  | nil => simp [FailureLast]
  | append_singleton events event _ =>
      rw [flagAfter_append, flagAfter_singleton]
      cases event with
      | failed => exact ⟨fun _ => ⟨events, [], rfl, by simp⟩, fun _ => rfl⟩
      | entered =>
          refine ⟨by simp [TunnelEvent.flag], ?_⟩
          rintro ⟨before, after, hsplit, hnone⟩
          rcases List.eq_nil_or_concat after with rfl | ⟨rest, last, rfl⟩
          · have hlast := congrArg List.getLast? hsplit
            simp at hlast
          · have hends : events ++ [TunnelEvent.entered] =
                (before ++ .failed :: rest) ++ [last] := by
              simpa using hsplit
            have hlast := List.append_inj_right' hends rfl
            exact absurd (by simp [List.singleton_inj.mp hlast]) hnone

section Bindings

omit [DecidableEq L]

@[simp] theorem ThreadState.tunnel_bindCallback
    (state : ThreadState L C K) (callback : Option K) :
    (state.bindCallback callback).tunnel = state.tunnel := by
  cases callback <;> rfl

@[simp] theorem ThreadState.tunnel_unbindCallback
    (state outer : ThreadState L C K) (callback : Option K) :
    (state.unbindCallback outer callback).tunnel = state.tunnel := by
  cases callback <;> rfl

@[simp] theorem ThreadState.tunnel_recordCall
    (state : ThreadState L C K) (call : ShimCall L C K) (status : ℤ) :
    (state.recordCall call status).tunnel = state.tunnel := rfl

end Bindings

@[simp] theorem ThreadState.tunnel_setLastError
    (state : ThreadState L C K) (library : L) (error : LastError) :
    (state.setLastError library error).tunnel = state.tunnel := rfl

@[simp] theorem ThreadState.tunnel_exitShim
    (state : ThreadState L C K) (library : L) (takesCallback : Bool)
    (outcome : RustOutcome) :
    (state.exitShim library takesCallback outcome).1.tunnel =
      state.tunnel := by
  cases outcome with
  | ok => rfl
  | err kind message =>
      simp only [ThreadState.exitShim]
      split <;> rfl
  | panic message => rfl

theorem ThreadState.tunnel_enterShim (state : ThreadState L C K)
    (owner : L) (takesCallback : Bool) (library : L) :
    (state.enterShim owner takesCallback).tunnel library =
      flagAfter (state.tunnel library)
        (if takesCallback && decide (owner = library)
          then [.entered] else []) := by
  unfold ThreadState.enterShim
  by_cases howner : owner = library
  · subst howner
    cases takesCallback <;> simp [ThreadState.setTunnel, TunnelEvent.flag]
  · cases takesCallback <;>
      simp [ThreadState.setTunnel, howner, Function.update_of_ne (Ne.symm howner)]

theorem ThreadState.tunnel_endInvocation (state : ThreadState L C K)
    (owner : L) (borrowed : Bool) (failure : Option C) (library : L) :
    (state.endInvocation owner borrowed failure).tunnel library =
      flagAfter (state.tunnel library)
        (if borrowed && failure.isSome && decide (owner = library)
          then [.failed] else []) := by
  cases failure with
  | none => simp [ThreadState.endInvocation]
  | some condition =>
      by_cases howner : owner = library
      · subst howner
        cases borrowed <;>
          simp [ThreadState.endInvocation, ThreadState.setTunnel,
            TunnelEvent.flag]
      · cases borrowed <;>
          simp [ThreadState.endInvocation, ThreadState.setTunnel, howner,
            Function.update_of_ne (Ne.symm howner)]

mutual

/-- Running a call moves a library's flag as the call's events say. -/
theorem ShimCall.tunnel_run (library : L) :
    ∀ (call : ShimCall L C K) (state : ThreadState L C K),
      (call.run state).tunnel library =
        flagAfter (state.tunnel library) (call.events library)
  | .mk wrapper callback refusal body outcome, state => by
      have hentered := (state.bindCallback callback).tunnel_enterShim
        wrapper.library callback.isSome library
      rw [ThreadState.tunnel_bindCallback] at hentered
      have hbody := tunnel_runInvocations library wrapper.library body
        ((state.bindCallback callback).enterShim wrapper.library
          callback.isSome)
      cases refusal with
      | some error => simp [ShimCall.run, ShimCall.events, hentered]
      | none => simp [ShimCall.run, ShimCall.events, hbody, hentered]

theorem CallbackInvocation.tunnel_run (library owner : L) :
    ∀ (invocation : CallbackInvocation L C K) (state : ThreadState L C K),
      (invocation.run owner state).tunnel library =
        flagAfter (state.tunnel library) (invocation.events library owner)
  | .mk borrowed nested failure, state => by
      rw [CallbackInvocation.run, ThreadState.tunnel_endInvocation,
        tunnel_runCalls library nested state, CallbackInvocation.events,
        flagAfter_append]

theorem tunnel_runCalls (library : L) :
    ∀ (calls : List (ShimCall L C K)) (state : ThreadState L C K),
      (runCalls calls state).tunnel library =
        flagAfter (state.tunnel library) (callEvents library calls)
  | [], _ => rfl
  | call :: rest, state => by
      rw [runCalls, tunnel_runCalls library rest, ShimCall.tunnel_run,
        callEvents, flagAfter_append]

theorem tunnel_runInvocations (library owner : L) :
    ∀ (body : List (CallbackInvocation L C K)) (state : ThreadState L C K),
      (runInvocations owner body state).tunnel library =
        flagAfter (state.tunnel library)
          (invocationEvents library owner body)
  | [], _ => rfl
  | invocation :: rest, state => by
      rw [runInvocations, tunnel_runInvocations library owner rest,
        CallbackInvocation.tunnel_run, invocationEvents, flagAfter_append]

end

/-! ## A stash, once filled, stays filled for its wrapper -/

mutual

theorem ShimCall.stash_run :
    ∀ (call : ShimCall L C K) (state : ThreadState L C K),
      state.callbackStash.isSome = true →
        (call.run state).callbackStash.isSome = true
  | .mk wrapper callback refusal body outcome, state => by
      intro hstash
      cases callback with
      | some closure => simpa [ShimCall.run, ThreadState.unbindCallback] using hstash
      | none =>
          have hbody := stash_runInvocations wrapper.library body state hstash
          cases refusal with
          | some error =>
              simpa [ShimCall.run, ThreadState.unbindCallback,
                ThreadState.bindCallback, ThreadState.enterShim,
                ThreadState.recordCall, ThreadState.setLastError] using hstash
          | none =>
              cases outcome <;>
                simpa [ShimCall.run, ThreadState.unbindCallback,
                  ThreadState.bindCallback, ThreadState.enterShim,
                  ThreadState.recordCall, ThreadState.setLastError,
                  ThreadState.exitShim] using hbody

theorem CallbackInvocation.stash_run (owner : L) :
    ∀ (invocation : CallbackInvocation L C K) (state : ThreadState L C K),
      state.callbackStash.isSome = true →
        (invocation.run owner state).callbackStash.isSome = true
  | .mk borrowed nested failure, state => by
      intro hstash
      have hnested := stash_runCalls nested state hstash
      cases failure <;> cases borrowed <;>
        simp [CallbackInvocation.run, ThreadState.endInvocation,
          ThreadState.setTunnel, hnested]

theorem stash_runCalls :
    ∀ (calls : List (ShimCall L C K)) (state : ThreadState L C K),
      state.callbackStash.isSome = true →
        (runCalls calls state).callbackStash.isSome = true
  | [], _ => id
  | call :: rest, state => fun hstash =>
      stash_runCalls rest _ (ShimCall.stash_run call state hstash)

theorem stash_runInvocations (owner : L) :
    ∀ (body : List (CallbackInvocation L C K)) (state : ThreadState L C K),
      state.callbackStash.isSome = true →
        (runInvocations owner body state).callbackStash.isSome = true
  | [], _ => id
  | invocation :: rest, state => fun hstash =>
      stash_runInvocations owner rest _
        (CallbackInvocation.stash_run owner invocation state hstash)

end

/-- A borrowed callback that failed leaves a condition in the stash of the
wrapper whose shim invoked it. -/
theorem stash_of_failedBorrowed (owner : L)
    {body : List (CallbackInvocation L C K)} (state : ThreadState L C K)
    (hfailed : ∃ invocation ∈ body, invocation.failedBorrowed = true) :
    (runInvocations owner body state).callbackStash.isSome = true := by
  induction body generalizing state with
  | nil => simp at hfailed
  | cons invocation rest ih =>
      obtain ⟨failed, hmem, hfailedBorrowed⟩ := hfailed
      rcases List.mem_cons.mp hmem with rfl | hrest
      · rw [runInvocations]
        apply stash_runInvocations
        cases failed with
        | mk borrowed nested failure =>
            cases borrowed with
            | false => exact absurd hfailedBorrowed Bool.false_ne_true
            | true =>
                obtain ⟨condition, rfl⟩ :=
                  Option.isSome_iff_exists.mp hfailedBorrowed
                rfl
      · exact ih _ ⟨failed, hrest, hfailedBorrowed⟩

/-! ## One call -/

section Records

variable {record : CallRecord L C K}

omit [DecidableEq L] in
theorem CallRecord.classified_of_not_failing
    (hfails : ∀ kind message, ¬ record.call.FailsWith kind message)
    (hstatus : record.status ≠ statusCbErr) :
    record.Classified :=
  ⟨fun kind message hcall => absurd hcall (hfails kind message),
    fun htunneled => absurd htunneled hstatus⟩

theorem ShimCall.tunnelFaithful_of_not_failing {call : ShimCall L C K}
    (hfails : ∀ kind message, ¬ call.FailsWith kind message) :
    call.TunnelFaithful :=
  fun kind message hcall => absurd hcall (hfails kind message)

/-- Of a failing call the record is classified exactly when the flag told
the truth: the stash is there whenever an own callback failed. -/
theorem CallRecord.classified_iff {kind message : String}
    (hfails : record.call.FailsWith kind message)
    (hstatus : record.status = statusCbErr ↔
      FailureLast (invocationEvents record.call.wrapper.library
        record.call.wrapper.library record.call.body))
    (hownError : record.status ≠ statusCbErr →
      record.status = statusErr ∧
        record.lastError = { kind := kind, message := message })
    (hstash : record.call.OwnCallbackFailed → record.stash.isSome = true)
    (hcondition : ∀ condition, record.status = statusCbErr →
      record.stash = some condition →
        record.condition = some (.stashed condition)) :
    record.Classified ↔ record.call.TunnelFaithful := by
  constructor
  · intro hclassified kind' message' hfails'
    rw [← hstatus]
    exact (hclassified.1 kind' message' hfails').1.symm
  · intro hfaithful
    have htunneled : record.status = statusCbErr ↔
        record.call.OwnCallbackFailed :=
      hstatus.trans (hfaithful kind message hfails).symm
    refine ⟨?_, ?_⟩
    · intro kind' message' hfails'
      obtain ⟨rfl, rfl⟩ : kind = kind' ∧ message = message' := by
        simpa using hfails.2.2.symm.trans hfails'.2.2
      exact ⟨htunneled, hownError⟩
    · intro hcbErr
      obtain ⟨condition, hsome⟩ :=
        Option.isSome_iff_exists.mp (hstash (htunneled.mp hcbErr))
      exact ⟨condition, hsome, hcondition condition hcbErr hsome⟩

end Records

section Log

variable (state : ThreadState L C K)

omit [DecidableEq L] in
@[simp] theorem ThreadState.log_bindCallback (callback : Option K) :
    (state.bindCallback callback).log = state.log := by
  cases callback <;> rfl

omit [DecidableEq L] in
@[simp] theorem ThreadState.log_unbindCallback (outer : ThreadState L C K)
    (callback : Option K) :
    (state.unbindCallback outer callback).log = state.log := by
  cases callback <;> rfl

@[simp] theorem ThreadState.log_enterShim (library : L)
    (takesCallback : Bool) :
    (state.enterShim library takesCallback).log = state.log := by
  cases takesCallback <;> rfl

@[simp] theorem ThreadState.log_endInvocation (library : L) (borrowed : Bool)
    (failure : Option C) :
    (state.endInvocation library borrowed failure).log = state.log := by
  cases failure <;> cases borrowed <;> rfl

@[simp] theorem ThreadState.log_exitShim (library : L) (takesCallback : Bool)
    (outcome : RustOutcome) :
    (state.exitShim library takesCallback outcome).1.log = state.log := by
  cases outcome with
  | ok => rfl
  | err kind message =>
      simp only [ThreadState.exitShim]
      split <;> rfl
  | panic message => rfl

end Log

/-- A callback-taking call that returns `Err` is tunneled exactly when the
last tunnel event inside it is a failure. -/
theorem ThreadState.exitShim_err (state : ThreadState L C K)
    (wrapper : Wrapper L) (closure : K)
    (body : List (CallbackInvocation L C K)) (kind message : String) :
    let entered := (state.bindCallback (some closure)).enterShim
      wrapper.library true
    let finished := runInvocations wrapper.library body entered
    let events := invocationEvents wrapper.library wrapper.library body
    (FailureLast events ∧
      finished.exitShim wrapper.library true (.err kind message) =
        (finished, statusCbErr)) ∨
    (¬ FailureLast events ∧
      finished.exitShim wrapper.library true (.err kind message) =
        (finished.setLastError wrapper.library
          { kind := kind, message := message }, statusErr)) := by
  intro entered finished events
  have hflag : finished.tunnel wrapper.library = flagAfter false events := by
    have hentered : entered.tunnel wrapper.library = false := by
      simp [entered, ThreadState.enterShim, ThreadState.setTunnel]
    rw [← hentered]
    exact tunnel_runInvocations wrapper.library wrapper.library body entered
  by_cases hlast : FailureLast events
  · left
    rw [← flagAfter_false_iff, ← hflag] at hlast
    exact ⟨(flagAfter_false_iff _).mp (hflag ▸ hlast),
      by simp [ThreadState.exitShim, hlast]⟩
  · right
    rw [← flagAfter_false_iff, ← hflag, Bool.not_eq_true] at hlast
    refine ⟨?_, by simp [ThreadState.exitShim, hlast]⟩
    rw [← flagAfter_false_iff, ← hflag, hlast]
    exact Bool.false_ne_true

theorem statusErr_ne_statusCbErr : statusErr ≠ statusCbErr := by decide

omit [DecidableEq L] in
theorem ThreadState.condition_callRecord_cbErr {call : ShimCall L C K}
    {condition : C} (state : ThreadState L C K)
    (hstash : (state.callRecord call statusCbErr).stash = some condition) :
    (state.callRecord call statusCbErr).condition =
      some (.stashed condition) := by
  simp only [ThreadState.callRecord] at hstash ⊢
  rw [hstash]
  rfl

/-- The record of a call whose body ran is classified exactly when the
tunnel flag told the truth at the shim's exit. -/
theorem ThreadState.classified_exitShim (wrapper : Wrapper L)
    (callback : Option K) (body : List (CallbackInvocation L C K))
    (outcome : RustOutcome) (state : ThreadState L C K) :
    let call := ShimCall.mk wrapper callback none body outcome
    let exited := (runInvocations wrapper.library body
      ((state.bindCallback callback).enterShim wrapper.library
        callback.isSome)).exitShim wrapper.library callback.isSome outcome
    (exited.1.callRecord call exited.2).Classified ↔ call.TunnelFaithful := by
  intro call exited
  by_cases hfails : ∃ kind message, call.FailsWith kind message
  · obtain ⟨kind, message, hcall⟩ := hfails
    obtain ⟨htakes, -, houtcome⟩ := hcall
    obtain ⟨closure, rfl⟩ := Option.isSome_iff_exists.mp htakes
    obtain rfl : outcome = .err kind message := houtcome
    have hstash := fun hown : call.OwnCallbackFailed =>
      stash_of_failedBorrowed wrapper.library
        ((state.bindCallback (some closure)).enterShim wrapper.library true)
        hown
    rcases state.exitShim_err wrapper closure body kind message
      with ⟨hlast, hexit⟩ | ⟨hlast, hexit⟩
    · have hexited : exited = (_, statusCbErr) := hexit
      rw [hexited]
      refine CallRecord.classified_iff ⟨htakes, rfl, rfl⟩
        (iff_of_true rfl hlast) (absurd rfl) hstash ?_
      exact fun condition _ hsome =>
        ThreadState.condition_callRecord_cbErr _ hsome
    · have hexited : exited = (_, statusErr) := hexit
      rw [hexited]
      refine CallRecord.classified_iff ⟨htakes, rfl, rfl⟩
        (iff_of_false statusErr_ne_statusCbErr hlast) ?_ hstash ?_
      · intro _
        exact ⟨rfl, by simp [ThreadState.callRecord, ThreadState.setLastError,
          call, ShimCall.wrapper]⟩
      · intro _ hcbErr
        exact absurd hcbErr statusErr_ne_statusCbErr
  · rw [not_exists] at hfails
    have hfails : ∀ kind message, ¬ call.FailsWith kind message :=
      fun kind message hcall => hfails kind ⟨message, hcall⟩
    refine iff_of_true (CallRecord.classified_of_not_failing hfails ?_)
      (ShimCall.tunnelFaithful_of_not_failing hfails)
    cases outcome with
    | ok => simp [exited, ThreadState.exitShim, ThreadState.callRecord, statusOk, statusCbErr]
    | err kind message =>
        cases callback with
        | none => simp [exited, ThreadState.exitShim, ThreadState.callRecord, statusErr, statusCbErr]
        | some closure => exact absurd ⟨rfl, rfl, rfl⟩ (hfails kind message)
    | panic message => simp [exited, ThreadState.exitShim, ThreadState.callRecord, statusPanic, statusCbErr]

/-- A call appends its own record, after those of the calls it made. -/
theorem ShimCall.log_run (call : ShimCall L C K) (state : ThreadState L C K) :
    ∃ record,
      (call.run state).log =
        (if call.refusal.isSome then state.log
          else (runInvocations call.wrapper.library call.body
            ((state.bindCallback call.callback).enterShim
              call.wrapper.library call.takesCallback)).log) ++ [record] ∧
      record.call = call ∧
      (record.Classified ↔ call.TunnelFaithful) := by
  cases call with
  | mk wrapper callback refusal body outcome =>
      let entered := (state.bindCallback callback).enterShim wrapper.library
        callback.isSome
      cases refusal with
      | some error =>
          have hfails : ∀ kind message,
              ¬ (ShimCall.mk wrapper callback (some error) body
                outcome).FailsWith kind message :=
            fun _ _ hcall => by cases hcall.2.1
          refine ⟨(entered.setLastError wrapper.library error).callRecord _
            statusInvalid, ?_, rfl, ?_⟩
          · simp [ShimCall.run, ThreadState.recordCall, entered,
              ThreadState.setLastError, ShimCall.refusal]
          · exact iff_of_true
              (CallRecord.classified_of_not_failing hfails
                (by simp [ThreadState.callRecord, statusInvalid, statusCbErr]))
              (tunnelFaithful_of_not_failing hfails)
      | none =>
          let finished := runInvocations wrapper.library body entered
          let exited := finished.exitShim wrapper.library callback.isSome
            outcome
          refine ⟨exited.1.callRecord _ exited.2, ?_, rfl, ?_⟩
          · simp [ShimCall.run, ThreadState.recordCall, exited, finished,
              entered, ShimCall.refusal, ShimCall.wrapper, ShimCall.body,
              ShimCall.callback, ShimCall.takesCallback]
          · exact state.classified_exitShim wrapper callback body outcome

/-! ## Whole trees -/

/-- All of the records are classified. -/
def ThreadState.AllClassified (state : ThreadState L C K) : Prop :=
  ∀ record ∈ state.log, record.Classified

omit [DecidableEq L] in
theorem ThreadState.AllClassified.congr {state other : ThreadState L C K}
    (hlog : state.log = other.log) :
    state.AllClassified ↔ other.AllClassified := by
  rw [ThreadState.AllClassified, ThreadState.AllClassified, hlog]

mutual

theorem ShimCall.allClassified_run :
    ∀ (call : ShimCall L C K) (state : ThreadState L C K),
      (call.run state).AllClassified ↔
        state.AllClassified ∧ ∀ made ∈ call.calls, made.TunnelFaithful
  | .mk wrapper callback refusal body outcome, state => by
      obtain ⟨record, hlog, -, hrecord⟩ :=
        (ShimCall.mk wrapper callback refusal body outcome).log_run state
      rw [ThreadState.AllClassified, hlog, List.forall_mem_append,
        List.forall_mem_singleton, hrecord, ShimCall.calls,
        List.forall_mem_append, List.forall_mem_singleton, ← and_assoc]
      refine and_congr_left' ?_
      cases refusal with
      | some error =>
          simp [ShimCall.refusal, ThreadState.AllClassified]
      | none =>
          have hbody := allClassified_runInvocations wrapper.library body
            ((state.bindCallback callback).enterShim wrapper.library
              callback.isSome)
          have hentered : ((state.bindCallback callback).enterShim
              wrapper.library callback.isSome).AllClassified ↔
                state.AllClassified :=
            ThreadState.AllClassified.congr (by simp)
          rw [hentered] at hbody
          exact hbody

theorem CallbackInvocation.allClassified_run (owner : L) :
    ∀ (invocation : CallbackInvocation L C K) (state : ThreadState L C K),
      (invocation.run owner state).AllClassified ↔
        state.AllClassified ∧
          ∀ made ∈ invocation.calls, made.TunnelFaithful
  | .mk borrowed nested failure, state => by
      rw [CallbackInvocation.run, CallbackInvocation.calls,
        ← allClassified_runCalls nested state]
      exact ThreadState.AllClassified.congr (by simp)

theorem allClassified_runCalls :
    ∀ (calls : List (ShimCall L C K)) (state : ThreadState L C K),
      (runCalls calls state).AllClassified ↔
        state.AllClassified ∧ ∀ made ∈ allCalls calls, made.TunnelFaithful
  | [], state => by simp [runCalls, allCalls]
  | call :: rest, state => by
      rw [runCalls, allClassified_runCalls rest,
        ShimCall.allClassified_run call state, allCalls,
        List.forall_mem_append, and_assoc]

theorem allClassified_runInvocations (owner : L) :
    ∀ (body : List (CallbackInvocation L C K)) (state : ThreadState L C K),
      (runInvocations owner body state).AllClassified ↔
        state.AllClassified ∧
          ∀ made ∈ invocationCalls body, made.TunnelFaithful
  | [], state => by simp [runInvocations, invocationCalls]
  | invocation :: rest, state => by
      rw [runInvocations, allClassified_runInvocations owner rest,
        CallbackInvocation.allClassified_run owner invocation state,
        invocationCalls, List.forall_mem_append, and_assoc]

end

/-- Every call of a run is classified rightly if and only if, in every
failing callback-taking call made in it, the last tunnel event is a failure
just when one of that call's own callbacks failed. -/
theorem callback_errors_classified (calls : List (ShimCall L C K))
    (state : ThreadState L C K) :
    (∀ record ∈ (runCalls calls { state with log := [] }).log,
      record.Classified) ↔
    ∀ call ∈ allCalls calls, call.TunnelFaithful := by
  have hruns := allClassified_runCalls calls { state with log := [] }
  have hstart : ThreadState.AllClassified { state with log := [] } := by
    simp [ThreadState.AllClassified]
  exact hruns.trans (and_iff_right hstart)

/-! ## Two runs that are misclassified -/

def rustWrapper (name : String) : Wrapper Unit :=
  { library := (), functionName := name, errorConditions := [] }

/-- An outer closure handles the callback error of an inner call and returns;
the outer body then fails with an error of its own. -/
def handledInnerFailure : ShimCall Unit String Unit :=
  .mk (rustWrapper "outer") (some ()) none
    [.mk true
      [.mk (rustWrapper "inner") (some ()) none
        [.mk true [] (some "inner-condition")]
        (.err "CallbackError" "callback signaled an error")]
      none]
    (.err "OuterError" "own failure")

/-- The outer body swallows a callback failure, a later callback calls
another callback-taking export, and the outer body then fails. -/
def swallowedOwnFailure : ShimCall Unit String Unit :=
  .mk (rustWrapper "outer") (some ()) none
    [.mk true [] (some "outer-condition"),
      .mk true
        [.mk (rustWrapper "inner") (some ()) none [] .ok]
        none]
    (.err "CallbackError" "callback signaled an error")

def idleThread : ThreadState Unit String Unit where
  tunnel := fun _ => false
  lastError := fun _ => { kind := "", message := "" }
  liveCallback := none
  callbackStash := none
  log := []

/-- Status 4 without a stash, and status 1 over an own callback's failure. -/
theorem callback_errors_misclassified :
    (∃ record ∈ (runCalls [handledInnerFailure] idleThread).log,
      record.status = statusCbErr ∧ record.stash = none ∧
        ¬ record.Classified) ∧
    (∃ record ∈ (runCalls [swallowedOwnFailure] idleThread).log,
      record.call.OwnCallbackFailed ∧ record.status = statusErr ∧
        ¬ record.Classified) := by
  refine ⟨⟨_, List.Mem.tail _ (List.Mem.head _), rfl, rfl, ?_⟩,
    ⟨_, List.Mem.tail _ (List.Mem.head _), ?_, rfl, ?_⟩⟩
  · intro hclassified
    obtain ⟨condition, hstash, -⟩ := hclassified.2 rfl
    exact nomatch hstash
  · exact ⟨_, List.Mem.head _, rfl⟩
  · intro hclassified
    have hstatus := (hclassified.1 _ _ ⟨rfl, rfl, rfl⟩).1.mpr
      ⟨_, List.Mem.head _, rfl⟩
    exact absurd hstatus statusErr_ne_statusCbErr

end Rulisp
