import Rulisp.CallbackThreads

/-!
# The stash belongs to one call

`*live-callback*` and `*callback-stash*` are dynamic bindings that a wrapper
makes only for a call with a callback.  Whatever is nested in what, they are
those of the innermost such call, and its stash holds nothing but what its
own closure has signaled.
-/

namespace Rulisp

section Bindings

variable {L C K : Type}

/-- The bindings are the ones that the frames, from the innermost outwards,
have made. -/
def BindingsNested :
    List (CallbackFrame L C K) → Option K → Option C → Prop
  | [], live, stash => live = none ∧ stash = none
  | .wrapper call _ :: below, live, stash =>
      match call.callback with
      | none => call.signaled = [] ∧ BindingsNested below live stash
      | some closure =>
          live = some closure ∧ stash = call.signaled.head? ∧
            BindingsNested below call.outerLive call.outerStash
  | .trampoline _ closure :: below, live, stash =>
      closure = live ∧
        (∃ call phase rest, below = .wrapper call phase :: rest ∧
          call.callback.isSome = true) ∧
        BindingsNested below live stash
  | .storedLookup _ :: below, live, stash => BindingsNested below live stash
  | .stored _ _ :: below, live, stash => BindingsNested below live stash
  | .foreign :: below, live, stash => BindingsNested below live stash

theorem bindingsNested_wrapper_none {call : ActiveCall L C K}
    (hcallback : call.callback = none) (phase : ShimPhase)
    (below : List (CallbackFrame L C K)) (live : Option K)
    (stash : Option C) :
    BindingsNested (.wrapper call phase :: below) live stash ↔
      call.signaled = [] ∧ BindingsNested below live stash := by
  rw [BindingsNested, hcallback]

theorem bindingsNested_wrapper_some {call : ActiveCall L C K} {closure : K}
    (hcallback : call.callback = some closure) (phase : ShimPhase)
    (below : List (CallbackFrame L C K)) (live : Option K)
    (stash : Option C) :
    BindingsNested (.wrapper call phase :: below) live stash ↔
      live = some closure ∧ stash = call.signaled.head? ∧
        BindingsNested below call.outerLive call.outerStash := by
  rw [BindingsNested, hcallback]

/-- Only the callback, the saved bindings and what was signaled matter. -/
theorem BindingsNested.congr_call {call other : ActiveCall L C K}
    {phase phase' : ShimPhase} {below : List (CallbackFrame L C K)}
    {live : Option K} {stash : Option C}
    (hnested : BindingsNested (.wrapper call phase :: below) live stash)
    (hcallback : other.callback = call.callback)
    (hlive : other.outerLive = call.outerLive)
    (hstash : other.outerStash = call.outerStash)
    (hsignaled : other.signaled = call.signaled) :
    BindingsNested (.wrapper other phase' :: below) live stash := by
  rw [BindingsNested, hcallback, hlive, hstash, hsignaled]
  rwa [BindingsNested] at hnested

theorem BindingsNested.below {frame : CallbackFrame L C K}
    {below : List (CallbackFrame L C K)} {live : Option K} {stash : Option C}
    (hnested : BindingsNested (frame :: below) live stash) :
    ∃ live' stash', BindingsNested below live' stash' := by
  cases frame with
  | wrapper call phase =>
      cases hcallback : call.callback with
      | none =>
          rw [bindingsNested_wrapper_none hcallback] at hnested
          exact ⟨live, stash, hnested.2⟩
      | some closure =>
          rw [bindingsNested_wrapper_some hcallback] at hnested
          exact ⟨_, _, hnested.2.2⟩
  | trampoline library closure => exact ⟨live, stash, hnested.2.2⟩
  | storedLookup id => exact ⟨live, stash, hnested⟩
  | stored id found => exact ⟨live, stash, hnested⟩
  | foreign => exact ⟨live, stash, hnested⟩

theorem BindingsNested.suffix
    {above below : List (CallbackFrame L C K)} {live : Option K}
    {stash : Option C} (hnested : BindingsNested (above ++ below) live stash) :
    ∃ live' stash', BindingsNested below live' stash' := by
  induction above generalizing live stash with
  | nil => exact ⟨live, stash, hnested⟩
  | cons frame above ih =>
      obtain ⟨live', stash', hbelow⟩ := hnested.below
      exact ih hbelow

/-- The bindings in force are those of the innermost call with a callback. -/
theorem BindingsNested.innermost {frames : List (CallbackFrame L C K)}
    {live : Option K} {stash : Option C}
    (hnested : BindingsNested frames live stash) :
    live = (innermostCallback frames).bind (·.callback) ∧
      stash = (innermostCallback frames).bind (·.signaled.head?) := by
  induction frames generalizing live stash with
  | nil => exact hnested
  | cons frame below ih =>
      cases frame with
      | wrapper call phase =>
          cases hcallback : call.callback with
          | none =>
              rw [bindingsNested_wrapper_none hcallback] at hnested
              simpa [innermostCallback, hcallback] using ih hnested.2
          | some closure =>
              rw [bindingsNested_wrapper_some hcallback] at hnested
              simp [innermostCallback, hcallback, hnested.1, hnested.2.1]
      | trampoline library closure => exact ih hnested.2.2
      | storedLookup id => exact ih hnested
      | stored id found => exact ih hnested
      | foreign => exact ih hnested

/-- A trampoline runs the closure of the innermost call with a callback. -/
theorem BindingsNested.trampoline
    {above below : List (CallbackFrame L C K)} {library : L}
    {closure : Option K} {live : Option K} {stash : Option C}
    (hnested : BindingsNested (above ++ .trampoline library closure :: below)
      live stash) :
    ∃ call running, innermostCallback below = some call ∧
      call.callback = some running ∧ closure = some running := by
  obtain ⟨live', stash', hsuffix⟩ := hnested.suffix
  obtain ⟨hclosure, ⟨call, phase, rest, hbelow, hcallback⟩, hnested'⟩ := hsuffix
  obtain ⟨running, hrunning⟩ := Option.isSome_iff_exists.mp hcallback
  have hinner : innermostCallback below = some call := by
    rw [hbelow, innermostCallback, if_pos hcallback]
  have hlive := hnested'.innermost.1
  rw [hinner] at hlive
  exact ⟨call, running, hinner, hrunning,
    hclosure.trans (hlive.trans hrunning)⟩

end Bindings

/-! ## The bindings of a thread -/

section Threads

variable {n : ℕ} {L C K : Type}

def ThreadLocals.Nested (locals : ThreadLocals L C K) : Prop :=
  BindingsNested locals.frames locals.liveCallback locals.callbackStash

theorem ThreadLocals.nested_beginCall {locals : ThreadLocals L C K}
    (hnested : locals.Nested) (wrapper : LinkedWrapper L)
    (callback : Option K) : (locals.beginCall wrapper callback).Nested := by
  cases callback with
  | none => exact (bindingsNested_wrapper_none rfl ..).mpr ⟨rfl, hnested⟩
  | some closure =>
      exact (bindingsNested_wrapper_some rfl ..).mpr ⟨rfl, rfl, hnested⟩

theorem ThreadLocals.nested_unbindCallback {locals : ThreadLocals L C K}
    {call : ActiveCall L C K} {phase : ShimPhase}
    {below : List (CallbackFrame L C K)}
    (hframes : locals.frames = .wrapper call phase :: below)
    (hnested : locals.Nested) :
    ((locals.unbindCallback call).moveTo below).Nested := by
  unfold Nested at hnested
  rw [hframes] at hnested
  unfold unbindCallback
  cases hcallback : call.callback with
  | none => exact ((bindingsNested_wrapper_none hcallback ..).mp hnested).2
  | some closure =>
      exact ((bindingsNested_wrapper_some hcallback ..).mp hnested).2.2

variable [DecidableEq L]

theorem ThreadLocals.nested_endTrampoline {locals : ThreadLocals L C K}
    {library : L} {closure : Option K} {below : List (CallbackFrame L C K)}
    (hframes : locals.frames = .trampoline library closure :: below)
    (hnested : locals.Nested) (failure : Option C) :
    (locals.endTrampoline library below failure).Nested := by
  unfold Nested at hnested
  rw [hframes] at hnested
  obtain ⟨-, ⟨call, phase, rest, rfl, hcallback⟩, hbelow⟩ := hnested
  cases failure with
  | none => exact hbelow
  | some condition =>
      obtain ⟨running, hrunning⟩ := Option.isSome_iff_exists.mp hcallback
      obtain ⟨hlive, -, houter⟩ :=
        (bindingsNested_wrapper_some hrunning ..).mp hbelow
      have hupdated : ({ call with signaled := condition :: call.signaled } :
          ActiveCall L C K).callback = some running := hrunning
      exact (bindingsNested_wrapper_some hupdated ..).mpr ⟨hlive, rfl, houter⟩

theorem ThreadLocals.Turn.nested {stored : StoredCallbacks K}
    {locals next : ThreadLocals L C K} {move : ThreadMove L C K}
    {events : List (CallbackEvent L C K)}
    (hturn : locals.Turn stored move next events) (hnested : locals.Nested) :
    next.Nested := by
  cases hturn with
  | begin wrapper callback hlisp => exact nested_beginCall hnested _ _
  | exit call phase below hframes =>
      exact nested_unbindCallback hframes hnested
  | proceed call before after below tunnel hframes hpending =>
      unfold Nested at hnested
      rw [hframes] at hnested
      exact hnested.congr_call rfl rfl rfl rfl
  | fail call before after below error hframes hpending =>
      unfold Nested at hnested
      rw [hframes] at hnested
      exact hnested.congr_call rfl rfl rfl rfl
  | branch call status below hframes =>
      unfold Nested at hnested
      rw [hframes] at hnested
      exact hnested.congr_call rfl rfl rfl rfl
  | invoke call phase below hframes hcallback hcalls =>
      exact ⟨rfl, ⟨call, phase, below, hframes, hcallback⟩, hnested⟩
  | trampolineReturn library closure below failure hframes =>
      exact nested_endTrampoline hframes hnested failure
  | invokeStored id hcalls => exact hnested
  | lookup id below hframes =>
      unfold Nested at hnested
      rw [hframes] at hnested
      exact hnested
  | storedReturn id found below failed hframes =>
      unfold Nested at hnested
      rw [hframes] at hnested
      exact hnested
  | enterForeign hlisp => exact hnested
  | leaveForeign below hframes =>
      unfold Nested at hnested
      rw [hframes] at hnested
      exact hnested

/-! ## What a wrapper sees -/

/-- A stashed condition is signaled only for status 4. -/
theorem signalCrateStatus_eq_stashed {status : ℤ}
    {errorConditions : List (String × String)} {lastError : LastError}
    {functionName : String} {stash : Option C} {condition : C}
    (hsignal : signalCrateStatus status errorConditions lastError functionName
      stash = .stashed condition) :
    status = statusCbErr ∧ stash = some condition := by
  unfold signalCrateStatus at hsignal
  split at hsignal
  · cases hsignal
  · split at hsignal
    · cases hsignal
    · split at hsignal
      · cases hsignal
      · split at hsignal
        · rename_i hstatus
          cases stash with
          | none => cases hsignal
          | some stashed =>
              cases hsignal
              exact ⟨hstatus, rfl⟩
        · cases hsignal

/-- The wrapper was given its own call's stash, and re-signals nothing
else. -/
structure StatusRecord.OwnStash (record : StatusRecord L C K) : Prop where
  stash : record.stash = record.call.signaled.head?
  resignaled : ∀ condition, record.condition = some (.stashed condition) →
    record.status = statusCbErr ∧ condition ∈ record.call.signaled

omit [DecidableEq L] in
theorem ThreadLocals.Nested.ownStash {locals : ThreadLocals L C K}
    (hnested : locals.Nested) {call : ActiveCall L C K} {phase : ShimPhase}
    {below : List (CallbackFrame L C K)}
    (hframes : locals.frames = .wrapper call phase :: below) (status : ℤ) :
    (locals.statusRecord call status).OwnStash := by
  have hstash : (locals.statusRecord call status).stash =
      call.signaled.head? := by
    unfold Nested at hnested
    rw [hframes] at hnested
    cases hcallback : call.callback with
    | none =>
        rw [bindingsNested_wrapper_none hcallback] at hnested
        simp [statusRecord, hcallback, hnested.1]
    | some closure =>
        rw [bindingsNested_wrapper_some hcallback] at hnested
        simp [statusRecord, hcallback, hnested.2.1]
  refine ⟨hstash, ?_⟩
  intro condition hcondition
  have hnonzero : status ≠ 0 := by
    rintro rfl
    cases hcondition
  simp only [statusRecord, if_neg hnonzero, Option.some.injEq] at hcondition
  obtain ⟨hstatus, hseen⟩ := signalCrateStatus_eq_stashed hcondition
  exact ⟨hstatus, List.mem_of_mem_head? (hstash.symm.trans hseen)⟩

/-! ## Over every run -/

structure CallbackState.StashesOwned (state : CallbackState n L C K) :
    Prop where
  nested : ∀ thread, (state.threads thread).Nested
  records : ∀ record, .observed record ∈ state.log → record.OwnStash

omit [DecidableEq L] in
theorem CallbackState.stashesOwned_initial :
    (initial n L C K).StashesOwned where
  nested := fun _ => ⟨rfl, rfl⟩
  records := fun _ hrecord => by cases hrecord

theorem CallbackState.stashesOwned_step {state next : CallbackState n L C K}
    {action : CallbackAction n L C K} (howned : state.StashesOwned)
    (hstep : state.step action = some next) : next.StashesOwned := by
  have hturn := turn_of_step hstep
  constructor
  · exact hturn.threads ⟨rfl, rfl⟩ howned.nested
      fun thread _ _ _ _ hmove => hmove.nested (howned.nested thread)
  · intro record hrecord
    rcases hturn.observed hrecord with hearlier |
      ⟨thread, call, status, below, hframes, rfl⟩
    · exact howned.records record hearlier
    · exact (howned.nested thread).ownStash hframes status

theorem CallbackState.stashesOwned_of_reaches {finish : CallbackState n L C K}
    (hreach : (callbackMachine n L C K).Reaches (.initial n L C K) finish) :
    finish.StashesOwned := by
  apply @TransitionSystem.System.Reaches.invariant _ _ _ StashesOwned _ _ _
    hreach stashesOwned_initial
  intro state action next howned hstep
  exact stashesOwned_step howned hstep

/-- In every run a wrapper sees at most what its own closure has signaled,
and signals it again only for status 4; the stash in force is that of the
innermost call with a callback, and so is the closure that a borrowed
trampoline runs. -/
theorem stash_discipline {finish : CallbackState n L C K}
    (hreach : (callbackMachine n L C K).Reaches (.initial n L C K) finish) :
    (∀ record, .observed record ∈ finish.log →
      record.stash = record.call.signaled.head? ∧
        ∀ condition, record.condition = some (.stashed condition) →
          record.status = statusCbErr ∧
            condition ∈ record.call.signaled) ∧
      (∀ thread, (finish.threads thread).callbackStash =
        (innermostCallback (finish.threads thread).frames).bind
          (·.signaled.head?)) ∧
      ∀ thread above library closure below,
        (finish.threads thread).frames =
            above ++ .trampoline library closure :: below →
          ∃ call running, innermostCallback below = some call ∧
            call.callback = some running ∧ closure = some running := by
  have howned := CallbackState.stashesOwned_of_reaches hreach
  refine ⟨?_, ?_, ?_⟩
  · intro record hrecord
    have hown := howned.records record hrecord
    exact ⟨hown.stash, hown.resignaled⟩
  · intro thread
    exact (howned.nested thread).innermost.2
  · intro thread above library closure below hframes
    have hnested := howned.nested thread
    unfold ThreadLocals.Nested at hnested
    rw [hframes] at hnested
    exact hnested.trampoline

end Threads

/-- A closure calls an export of another library with a callback of its own,
handles the condition that comes back, and signals one the next time. -/
theorem stash_discipline_nested :
    let machine := callbackMachine 1 Bool ℕ ℕ
    let wrapper (library : Bool) : LinkedWrapper Bool :=
      .ofWrapper ⟨library, "demo:each", []⟩
    let failing : List (ThreadMove Bool ℕ ℕ) :=
      [.bodyErr "Error", .shimReturn, .branch, .leave]
    let nested : List (ThreadMove Bool ℕ ℕ) :=
      [.call (wrapper false) (some 2), .enterShim, .runBody, .invoke,
        .trampolineReturn (some 20)] ++ failing
    let moves : List (ThreadMove Bool ℕ ℕ) :=
      [.call (wrapper true) (some 1), .enterShim, .runBody, .invoke] ++
        nested ++ [.trampolineReturn none, .invoke,
          .trampolineReturn (some 10)] ++ failing
    ∃ finish, machine.run (.initial 1 Bool ℕ ℕ) (moves.map (.thread 0)) =
        some finish ∧
      finish.conditions = [.stashed 20, .stashed 10] ∧
      ∀ record, .observed record ∈ finish.log →
        record.stash = record.call.signaled.head? := by
  intro machine wrapper failing nested moves
  have hrun : (machine.run (.initial 1 Bool ℕ ℕ)
      (moves.map (.thread 0))).map CallbackState.conditions =
        some [.stashed 20, .stashed 10] := by decide +kernel
  obtain ⟨finish, hfinish, hconditions⟩ := Option.map_eq_some_iff.mp hrun
  refine ⟨finish, hfinish, hconditions, ?_⟩
  intro record hrecord
  exact ((stash_discipline ⟨_, hfinish⟩).1 record hrecord).1

end Rulisp
