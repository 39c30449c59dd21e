import Rulisp.CallbackThreads
import Rulisp.LoaderInvariant

/-!
# Whose error a wrapper reports

The last-error record is one slot for a thread and a library.  Every shim on
the way overwrites it, and the wrapper reads it only after its shim has
returned.  Between a shim's own `set_last_error` and that reading nothing
else of the thread runs, as long as the destructors in between keep out of
Lisp.
-/

namespace Rulisp

/-- The statuses for which `signal-crate-status` reads the last error. -/
def ReportsError (status : ℤ) : Prop :=
  status = statusErr ∨ status = statusPanic ∨ status = statusInvalid

instance (status : ℤ) : Decidable (ReportsError status) :=
  inferInstanceAs (Decidable (_ ∨ _ ∨ _))

theorem not_reportsError_ok : ¬ ReportsError statusOk := by decide

theorem not_reportsError_cbErr : ¬ ReportsError statusCbErr := by decide

section Frames

variable {L C K : Type}

/-- The shim has set its error and not yet been answered for. -/
def CallbackFrame.reporting : CallbackFrame L C K → Bool
  | .wrapper _ phase => phase.pending.any fun status => ReportsError status
  | _ => false

/-- What the wrapper is to signal for an error of its shim. -/
def ShimError.condition (wrapper : LinkedWrapper L) :
    ShimError → CrateCondition C
  | .refusal message =>
      .invalidArgument ("InvalidUtf8" ++ ": " ++ message) wrapper.functionName
  | .err kind message =>
      .rustError (wrapper.errorConditions.lookup kind) kind message
        wrapper.functionName
  | .panic message => .rustPanic message wrapper.functionName

theorem signalCrateStatus_shimError (wrapper : LinkedWrapper L)
    (error : ShimError) (stash : Option C) :
    signalCrateStatus error.status wrapper.errorConditions error.lastError
      wrapper.functionName stash = error.condition wrapper := by
  cases error <;> rfl

theorem reporting_wrapper_iff {call : ActiveCall L C K} {phase : ShimPhase} :
    (CallbackFrame.wrapper call phase).reporting = true ↔
      ∃ status, phase.pending = some status ∧ ReportsError status := by
  simp [CallbackFrame.reporting, Option.any_eq_true]

/-- Where Lisp runs, no shim is answering. -/
theorem not_reporting_of_inLisp {frame : CallbackFrame L C K}
    {below : List (CallbackFrame L C K)}
    (hlisp : inLisp (frame :: below) = true) : frame.reporting = false := by
  cases frame with
  | wrapper call phase =>
      cases phase with
      | arguments => rfl
      | settled => rfl
      | preludes => cases hlisp
      | body => cases hlisp
      | toString kind => cases hlisp
      | dropping status => cases hlisp
      | caught => cases hlisp
      | returned status => cases hlisp
  | trampoline library closure => rfl
  | storedLookup id => rfl
  | stored id found => rfl
  | foreign => rfl

/-- No shim in the stack is answering. -/
def NoneReporting (frames : List (CallbackFrame L C K)) : Prop :=
  ∀ frame ∈ frames, frame.reporting = false

theorem NoneReporting.noteSignal {frames : List (CallbackFrame L C K)}
    (hnone : NoneReporting frames) (condition : C) :
    NoneReporting (noteSignal condition frames) := by
  cases frames with
  | nil => exact hnone
  | cons frame below =>
      obtain ⟨hframe, hbelow⟩ := List.forall_mem_cons.mp hnone
      cases frame with
      | wrapper call phase =>
          exact List.forall_mem_cons.mpr ⟨hframe, hbelow⟩
      | trampoline library closure => exact hnone
      | storedLookup id => exact hnone
      | stored id found => exact hnone
      | foreign => exact hnone

end Frames

section Threads

variable {n : ℕ} {L C K : Type}

/-- Only the innermost shim can be answering, and then the slot of its library
holds its own error. -/
structure ThreadLocals.Attributed (locals : ThreadLocals L C K) : Prop where
  below : NoneReporting locals.frames.tail
  own : ∀ call phase below status,
    locals.frames = .wrapper call phase :: below →
      phase.pending = some status → ReportsError status →
        ∃ error, call.ownError = some error ∧ error.status = status ∧
          locals.lastError call.wrapper.library = error.lastError

/-- A step that calls into Lisp is not made while a shim is answering. -/
def ThreadLocals.quiet (locals : ThreadLocals L C K)
    (move : ThreadMove L C K) : Bool :=
  !(move.callsLisp && locals.frames.head?.any CallbackFrame.reporting)

/-- A stack in which no shim is answering. -/
theorem ThreadLocals.Attributed.of_none {locals : ThreadLocals L C K}
    (hnone : NoneReporting locals.frames) : locals.Attributed where
  below := fun frame hframe => hnone frame (List.mem_of_mem_tail hframe)
  own := by
    intro call phase below status hframes hpending hreports
    have hframe := hnone (.wrapper call phase) (hframes ▸ List.mem_cons_self)
    rw [reporting_wrapper_iff.mpr ⟨status, hpending, hreports⟩] at hframe
    cases hframe

theorem ThreadLocals.Attributed.popped {locals : ThreadLocals L C K}
    (hattributed : locals.Attributed) {frame : CallbackFrame L C K}
    {below : List (CallbackFrame L C K)}
    (hframes : locals.frames = frame :: below) : NoneReporting below := by
  have hbelow := hattributed.below
  rwa [hframes] at hbelow

theorem ThreadLocals.Attributed.inLisp {locals : ThreadLocals L C K}
    (hattributed : locals.Attributed)
    (hlisp : inLisp locals.frames = true) : NoneReporting locals.frames := by
  cases hframes : locals.frames with
  | nil => exact fun _ hframe => by cases hframe
  | cons frame below =>
      rw [hframes] at hlisp
      exact List.forall_mem_cons.mpr
        ⟨not_reporting_of_inLisp hlisp, hattributed.popped hframes⟩

theorem ThreadLocals.Attributed.quiet {locals : ThreadLocals L C K}
    (hattributed : locals.Attributed) {move : ThreadMove L C K}
    (hquiet : locals.quiet move = true) (hcalls : move.callsLisp = true) :
    NoneReporting locals.frames := by
  cases hframes : locals.frames with
  | nil => exact fun _ hframe => by cases hframe
  | cons frame below =>
      have hframe : frame.reporting = false := by
        simpa [ThreadLocals.quiet, hcalls, hframes] using hquiet
      exact List.forall_mem_cons.mpr ⟨hframe, hattributed.popped hframes⟩

variable [DecidableEq L]

theorem ThreadLocals.Turn.attributed {stored : StoredCallbacks K}
    {locals next : ThreadLocals L C K} {move : ThreadMove L C K}
    {events : List (CallbackEvent L C K)}
    (hturn : locals.Turn stored move next events)
    (hquiet : locals.quiet move = true) (hattributed : locals.Attributed) :
    next.Attributed := by
  cases hturn with
  | begin wrapper callback hlisp =>
      apply Attributed.of_none
      exact List.forall_mem_cons.mpr ⟨rfl, hattributed.inLisp hlisp⟩
  | exit call phase below hframes =>
      exact Attributed.of_none (hattributed.popped hframes)
  | proceed call before after below tunnel hframes hpending =>
      refine ⟨hattributed.popped hframes, ?_⟩
      intro call' after' below' status heq hafter hreports
      cases heq
      rcases hpending status hafter with hbefore | rfl | rfl
      · exact hattributed.own call before below status hframes hbefore hreports
      · exact absurd hreports not_reportsError_ok
      · exact absurd hreports not_reportsError_cbErr
  | fail call before after below error hframes hpending =>
      refine ⟨hattributed.popped hframes, ?_⟩
      intro call' after' below' status heq hafter hreports
      cases heq
      rw [hpending, Option.some.injEq] at hafter
      exact ⟨error, rfl, hafter, Function.update_self ..⟩
  | branch call status below hframes =>
      apply Attributed.of_none
      exact List.forall_mem_cons.mpr ⟨rfl, hattributed.popped hframes⟩
  | invoke call phase below hframes hcallback hcalls =>
      apply Attributed.of_none
      exact List.forall_mem_cons.mpr ⟨rfl, hattributed.quiet hquiet hcalls⟩
  | trampolineReturn library closure below failure hframes =>
      have hbelow := hattributed.popped hframes
      cases failure with
      | none => exact Attributed.of_none hbelow
      | some condition =>
          exact Attributed.of_none (hbelow.noteSignal condition)
  | invokeStored id hcalls =>
      apply Attributed.of_none
      exact List.forall_mem_cons.mpr ⟨rfl, hattributed.quiet hquiet hcalls⟩
  | lookup id below hframes =>
      apply Attributed.of_none
      exact List.forall_mem_cons.mpr ⟨rfl, hattributed.popped hframes⟩
  | storedReturn id found below failed hframes =>
      exact Attributed.of_none (hattributed.popped hframes)
  | enterForeign hlisp =>
      apply Attributed.of_none
      exact List.forall_mem_cons.mpr ⟨rfl, hattributed.inLisp hlisp⟩
  | leaveForeign below hframes =>
      exact Attributed.of_none (hattributed.popped hframes)

/-! ## What a wrapper reports -/

/-- For a status that reports an error the condition is made from what the
call's own shim has set, and the status fits it. -/
def StatusRecord.OwnError (record : StatusRecord L C K) : Prop :=
  ReportsError record.status →
    ∃ error, record.call.ownError = some error ∧
      error.status = record.status ∧
      record.condition = some (error.condition record.call.wrapper)

omit [DecidableEq L] in
theorem ThreadLocals.Attributed.ownError {locals : ThreadLocals L C K}
    (hattributed : locals.Attributed) {call : ActiveCall L C K} {status : ℤ}
    {below : List (CallbackFrame L C K)}
    (hframes : locals.frames = .wrapper call (.returned status) :: below) :
    (locals.statusRecord call status).OwnError := by
  intro hreports
  obtain ⟨error, hown, hstatus, hslot⟩ :=
    hattributed.own call _ below status hframes rfl hreports
  refine ⟨error, hown, hstatus, ?_⟩
  have hnonzero : status ≠ 0 := by
    rintro rfl
    exact not_reportsError_ok hreports
  simp only [statusRecord, if_neg hnonzero]
  rw [call.wrapper.sameLibrary, hslot, ← hstatus,
    signalCrateStatus_shimError]

/-! ## Over every run -/

/-- The destructors that run after a shim has set its error make no calls
into Lisp. -/
def CallbackState.destructorsQuiet (state : CallbackState n L C K) :
    CallbackAction n L C K → Bool
  | .thread thread move => (state.threads thread).quiet move
  | _ => true

structure CallbackState.ErrorsAttributed (state : CallbackState n L C K) :
    Prop where
  threads : ∀ thread, (state.threads thread).Attributed
  records : ∀ record, .observed record ∈ state.log → record.OwnError

omit [DecidableEq L] in
theorem ThreadLocals.attributed_fresh :
    (ThreadLocals.fresh : ThreadLocals L C K).Attributed :=
  .of_none fun _ hframe => by cases hframe

theorem CallbackState.errorsAttributed_step {state next : CallbackState n L C K}
    {action : CallbackAction n L C K}
    (hquiet : state.destructorsQuiet action = true)
    (hattributed : state.ErrorsAttributed)
    (hstep : state.step action = some next) : next.ErrorsAttributed := by
  have hturn := turn_of_step hstep
  constructor
  · apply hturn.threads ThreadLocals.attributed_fresh hattributed.threads
    rintro thread move locals events rfl hmove
    exact hmove.attributed hquiet (hattributed.threads thread)
  · intro record hrecord
    rcases hturn.observed hrecord with hearlier |
      ⟨thread, call, status, below, hframes, rfl⟩
    · exact hattributed.records record hearlier
    · exact (hattributed.threads thread).ownError hframes

theorem CallbackState.errorsAttributed_of_run
    {actions : List (CallbackAction n L C K)} {finish : CallbackState n L C K}
    (hquiet : (callbackMachine n L C K).RunMeets
      (fun state action => state.destructorsQuiet action = true)
      (.initial n L C K) actions)
    (hrun : (callbackMachine n L C K).run (.initial n L C K) actions =
      some finish) : finish.ErrorsAttributed :=
  hquiet.invariant
    (fun _ _ _ hcond hinv hstep =>
      CallbackState.errorsAttributed_step hcond hinv hstep)
    hrun
    ⟨fun _ => ThreadLocals.attributed_fresh, fun _ hrecord => by cases hrecord⟩

/-- In every run in which the destructors keep out of Lisp, a wrapper that
sees the status of an error signals the error that its own shim has set. -/
theorem last_error_attribution {actions : List (CallbackAction n L C K)}
    {finish : CallbackState n L C K}
    (hquiet : (callbackMachine n L C K).RunMeets
      (fun state action => state.destructorsQuiet action = true)
      (.initial n L C K) actions)
    (hrun : (callbackMachine n L C K).run (.initial n L C K) actions =
      some finish) :
    ∀ record, .observed record ∈ finish.log →
      ReportsError record.status →
        ∃ error, record.call.ownError = some error ∧
          error.status = record.status ∧
          record.condition = some (error.condition record.call.wrapper) :=
  (CallbackState.errorsAttributed_of_run hquiet hrun).records

end Threads

/-! ## Wrappers of the registry -/

/-- A wrapper that a load has published reads the last error in the library
of its own shim. -/
theorem LoaderState.Invariant.linked [LispCase] {loader : LoaderState}
    (hinv : loader.Invariant) {w : CrateWrapper} (hw : w ∈ loader.published) :
    ∃ g ∈ loader.generations, ∃ hborn : w.BornOf g,
      (w.linked hborn).library = g.library ∧
        (w.linked hborn).lastErrorLibrary = g.library := by
  obtain ⟨g, hg, hborn, -⟩ := hinv.published w hw
  exact ⟨g, hg, hborn, hborn.fnPtr, hborn.lastErrorPtr⟩

/-- So what a published wrapper signals for the status of an error is the
error of its own shim, under its own name, of a class of its own crate. -/
theorem LoaderState.Invariant.errors_attributed [LispCase] {n : ℕ}
    {C K : Type} {loader : LoaderState} (hinv : loader.Invariant)
    {actions : List (CallbackAction n Library C K)}
    {finish : CallbackState n Library C K}
    (hquiet : (callbackMachine n Library C K).RunMeets
      (fun state action => state.destructorsQuiet action = true)
      (.initial n Library C K) actions)
    (hrun : (callbackMachine n Library C K).run (.initial n Library C K)
      actions = some finish)
    {w : CrateWrapper} (hw : w ∈ loader.published) :
    ∃ g ∈ loader.generations, ∃ hborn : w.BornOf g,
      ∀ record, .observed record ∈ finish.log →
        record.call.wrapper = w.linked hborn → ReportsError record.status →
          ∃ error, record.call.ownError = some error ∧
            record.condition = some (error.condition (w.linked hborn)) := by
  obtain ⟨g, hg, hborn, -⟩ := hinv.linked hw
  refine ⟨g, hg, hborn, ?_⟩
  intro record hrecord hwrapper hreports
  have hattributed := CallbackState.errorsAttributed_of_run hquiet hrun
  obtain ⟨error, hown, -, hcondition⟩ :=
    hattributed.records record hrecord hreports
  exact ⟨error, hown, hwrapper ▸ hcondition⟩

/-- An inner call fails in a closure, formatting the outer error invokes a
stored callback that is gone, and another thread panics before the outer
wrapper reads the slot. -/
theorem last_error_attribution_nested :
    let machine := callbackMachine 2 Bool ℕ ℕ
    let wrapper : LinkedWrapper Bool := .ofWrapper ⟨true, "demo:each", []⟩
    let outer : List (ThreadMove Bool ℕ ℕ) :=
      [.call wrapper (some 1), .enterShim, .runBody, .invoke,
        .call wrapper none, .enterShim, .runBody, .bodyErr "Inner",
        .toStringReturn "inner", .shimReturn, .branch, .leave,
        .trampolineReturn none, .bodyErr "Outer", .invokeStored 7, .lookup,
        .storedReturn false, .toStringReturn "outer", .shimReturn]
    let other : List (ThreadMove Bool ℕ ℕ) :=
      [.call wrapper none, .enterShim, .runBody, .panic "other", .shimReturn,
        .branch]
    let actions : List (CallbackAction 2 Bool ℕ ℕ) :=
      outer.map (.thread 0) ++ other.map (.thread 1) ++
        [.thread 0 .branch, .thread 0 .leave]
    ∃ finish, machine.run (.initial 2 Bool ℕ ℕ) actions = some finish ∧
      finish.conditions =
        [.rustError none "Inner" "inner" "demo:each",
          .rustPanic "other" "demo:each",
          .rustError none "Outer" "outer" "demo:each"] ∧
      ∀ record, .observed record ∈ finish.log →
        ReportsError record.status →
          ∃ error, record.call.ownError = some error ∧
            record.condition = some (error.condition record.call.wrapper) := by
  intro machine wrapper outer other actions
  have hrun : (machine.run (.initial 2 Bool ℕ ℕ) actions).map
      CallbackState.conditions =
        some [.rustError none "Inner" "inner" "demo:each",
          .rustPanic "other" "demo:each",
          .rustError none "Outer" "outer" "demo:each"] := by decide +kernel
  have hquiet : machine.RunMeets
      (fun state action => state.destructorsQuiet action = true)
      (.initial 2 Bool ℕ ℕ) actions := by decide +kernel
  obtain ⟨finish, hfinish, hconditions⟩ := Option.map_eq_some_iff.mp hrun
  refine ⟨finish, hfinish, hconditions, ?_⟩
  intro record hrecord hreports
  obtain ⟨error, hown, -, hcondition⟩ :=
    last_error_attribution hquiet hfinish record hrecord hreports
  exact ⟨error, hown, hcondition⟩

end Rulisp
