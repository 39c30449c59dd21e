import Mathlib.Data.List.Pairwise
import Rulisp.TransitionSystem

/-!
# The handle cell

`handle.lisp`: the lock-held sections of `cell-begin-call`, `cell-end-call`
and `%cell-free`, and the interleaving of any number of threads that use one
cell.  A lock-held section is one atomic step.  Everything the code does with
the lock released (signaling the verdict, calling the free shim, returning)
is a separate step of the thread, so other threads and nested Lisp code run
in between.
-/

namespace Rulisp

/-- `(member :live :free-pending :freed)`. -/
inductive CellState
  | live
  | freePending
  | freed
  deriving DecidableEq, Repr

/-- The slots of `cell` that the protocol reads.  `P` is a handle pointer and
`F` the pointer of a free shim. -/
structure Cell (P F : Type*) where
  ptr : P
  state : CellState
  generation : ℕ
  session : ℕ
  inFlight : ℕ
  freeFn : F
  deriving DecidableEq, Repr

/-- `%make-cell`. -/
def makeCell {P F : Type*}
    (ptr : P) (generation session : ℕ) (freeFn : F) : Cell P F where
  ptr := ptr
  state := .live
  generation := generation
  session := session
  inFlight := 0
  freeFn := freeFn

/-- The verdict that `cell-begin-call` signals once the lock is released. -/
inductive CellProblem
  | freed
  | stale
  deriving DecidableEq, Repr

section LockHeldSections

variable {P F : Type*}

def Cell.beginCall (cell : Cell P F) (session birthGeneration : ℕ) :
    Option CellProblem × Cell P F :=
  if cell.state = .freed ∨ cell.state = .freePending then
    (some .freed, cell)
  else if cell.session ≠ session then
    (some .stale, cell)
  else if cell.generation ≠ birthGeneration then
    (some .stale, cell)
  else
    (none, { cell with inFlight := cell.inFlight + 1 })

/-- The pair returned by the lock-held section of `cell-end-call` is the
pointer and shim of a deferred free that this call has to perform. -/
def Cell.endCall (cell : Cell P F) : Option (P × F) × Cell P F :=
  let cell := { cell with inFlight := cell.inFlight - 1 }
  if cell.state = .freePending ∧ cell.inFlight = 0 then
    (some (cell.ptr, cell.freeFn), { cell with state := .freed })
  else
    (none, cell)

/-- `%maybe-foreign-free`: the foreign call it makes, if any. -/
def Cell.maybeForeignFree (cell : Cell P F) (session : ℕ) (target : P × F) :
    Option (P × F) :=
  if cell.session = session then some target else none

/-- The lock-held section of `%cell-free`: the return value, the free to
perform now, and the new cell. -/
def Cell.free (cell : Cell P F) : Bool × Option (P × F) × Cell P F :=
  match cell.state with
  | .freed => (false, none, cell)
  | .freePending => (false, none, cell)
  | .live =>
      if cell.inFlight = 0 then
        (true, some (cell.ptr, cell.freeFn), { cell with state := .freed })
      else
        (true, none, { cell with state := .freePending })

/-- A call is let in exactly when the cell is live and was made in this
session by this generation. -/
theorem Cell.beginCall_fst_eq_none_iff
    (cell : Cell P F) (session birthGeneration : ℕ) :
    (cell.beginCall session birthGeneration).1 = none ↔
      cell.state = .live ∧ cell.session = session ∧
        cell.generation = birthGeneration := by
  unfold Cell.beginCall
  cases hcase : cell.state with
  | live =>
      by_cases hsession : cell.session = session
      · by_cases hgeneration : cell.generation = birthGeneration
        · simp [hsession, hgeneration]
        · simp [hsession, hgeneration]
      · simp [hsession]
  | freePending => simp
  | freed => simp

theorem Cell.beginCall_snd_of_some {cell : Cell P F}
    {session birthGeneration : ℕ} {problem : CellProblem}
    (hverdict : (cell.beginCall session birthGeneration).1 = some problem) :
    (cell.beginCall session birthGeneration).2 = cell := by
  revert hverdict
  unfold Cell.beginCall
  split_ifs <;> simp

theorem Cell.beginCall_snd_of_none {cell : Cell P F}
    {session birthGeneration : ℕ}
    (hverdict : (cell.beginCall session birthGeneration).1 = none) :
    (cell.beginCall session birthGeneration).2 =
      { cell with inFlight := cell.inFlight + 1 } := by
  revert hverdict
  unfold Cell.beginCall
  split_ifs <;> simp

/-- The slots that no section sets. -/
structure Cell.SameHandle (cell next : Cell P F) : Prop where
  ptr : next.ptr = cell.ptr
  generation : next.generation = cell.generation
  session : next.session = cell.session
  freeFn : next.freeFn = cell.freeFn

theorem Cell.sameHandle_beginCall (cell : Cell P F)
    (session birthGeneration : ℕ) :
    cell.SameHandle (cell.beginCall session birthGeneration).2 := by
  unfold Cell.beginCall
  split_ifs <;> exact ⟨rfl, rfl, rfl, rfl⟩

theorem Cell.sameHandle_endCall (cell : Cell P F) :
    cell.SameHandle cell.endCall.2 := by
  simp only [Cell.endCall]
  split_ifs <;> exact ⟨rfl, rfl, rfl, rfl⟩

theorem Cell.sameHandle_free (cell : Cell P F) :
    cell.SameHandle cell.free.2.2 := by
  unfold Cell.free
  split
  · exact ⟨rfl, rfl, rfl, rfl⟩
  · exact ⟨rfl, rfl, rfl, rfl⟩
  · split_ifs <;> exact ⟨rfl, rfl, rfl, rfl⟩

/-- A free decided by a section is that of the cell's own pointer. -/
theorem Cell.endCall_target {cell : Cell P F} {target : P × F}
    (htarget : cell.endCall.1 = some target) :
    target = (cell.ptr, cell.freeFn) := by
  simp only [Cell.endCall] at htarget
  split_ifs at htarget
  exact (Option.some.inj htarget).symm

theorem Cell.free_target {cell : Cell P F} {target : P × F}
    (htarget : cell.free.2.1 = some target) :
    target = (cell.ptr, cell.freeFn) := by
  unfold Cell.free at htarget
  split at htarget
  · cases htarget
  · cases htarget
  · split_ifs at htarget
    exact (Option.some.inj htarget).symm

end LockHeldSections

/-! ## Threads -/

/-- Who runs `%maybe-foreign-free`: the call that ended last, or `%cell-free`
itself, which goes on to return T. -/
inductive Releaser
  | endCall
  | cellFree
  deriving DecidableEq, Repr

/-- What a thread is in the middle of, with the lock released. -/
inductive Activity (P F : Type*)
  /-- `cell-begin-call` signals its verdict; handlers run in this frame. -/
  | signaling (problem : CellProblem)
  /-- Between a successful `cell-begin-call` and the lock-held section of its
  `cell-end-call`; callbacks run in this frame. -/
  | inCall
  /-- A free was decided under the lock, `%maybe-foreign-free` is next. -/
  | releasing (releaser : Releaser) (target : P × F)
  /-- Inside the free shim; a destructor may call back into Lisp. -/
  | inShim (releaser : Releaser)
  /-- `%cell-free` is about to return. -/
  | returning (ret : Bool)
  deriving DecidableEq, Repr

section Threads

variable {P F : Type*}

@[simp] def Activity.isInCall : Activity P F → Bool
  | .inCall => true
  | _ => false

@[simp] def Activity.isReleasing : Activity P F → Bool
  | .releasing _ _ => true
  | _ => false

@[simp] def Activity.isInShim : Activity P F → Bool
  | .inShim _ => true
  | _ => false

/-- A `%cell-free` that has taken the cell out of `:live` and has yet to
return T. -/
@[simp] def Activity.isWinner : Activity P F → Bool
  | .releasing .cellFree _ => true
  | .inShim .cellFree => true
  | .returning true => true
  | _ => false

/-- A `%cell-free` that found the cell taken and has yet to return NIL. -/
@[simp] def Activity.isLoser : Activity P F → Bool
  | .returning false => true
  | _ => false

/-- Lisp code that may start a call runs under the innermost activity. -/
def Activity.runsLisp : Activity P F → Bool
  | .signaling _ => true
  | .inCall => true
  | .inShim _ => true
  | .releasing _ _ => false
  | .returning _ => false

/-- What the rest of the program can observe of the protocol. -/
inductive CellEvent (P F : Type*)
  | begun
  | refused (problem : CellProblem)
  | ended
  | taken
  | shimCalled (target : P × F)
  | freeReturned (ret : Bool)
  deriving DecidableEq, Repr

@[simp] def CellEvent.isBegun : CellEvent P F → Bool
  | .begun => true
  | _ => false

@[simp] def CellEvent.isTaken : CellEvent P F → Bool
  | .taken => true
  | _ => false

@[simp] def CellEvent.isShimCall : CellEvent P F → Bool
  | .shimCalled _ => true
  | _ => false

@[simp] def CellEvent.isFreeReturn (ret : Bool) : CellEvent P F → Bool
  | .freeReturned value => value == ret
  | _ => false

/-- One cell and `n` threads.  Each thread has a stack of activities, the
innermost first; `transcript` records what happened, the oldest first. -/
structure CellConfig (n : ℕ) (P F : Type*) where
  cell : Cell P F
  session : ℕ
  frames : Fin n → List (Activity P F)
  transcript : List (CellEvent P F)

inductive CellAction (n : ℕ)
  /-- A wrapper of generation `birthGeneration` enters `cell-begin-call`. -/
  | beginCall (thread : Fin n) (birthGeneration : ℕ)
  /-- The signaled verdict unwinds out of the wrapper. -/
  | unwind (thread : Fin n)
  | endCall (thread : Fin n)
  /-- `free`, a finalizer, or a callback enters `%cell-free`; a finalizer may
  interrupt any activity. -/
  | free (thread : Fin n)
  | foreignFree (thread : Fin n)
  | shimReturn (thread : Fin n)
  | freeReturn (thread : Fin n)
  deriving DecidableEq, Repr

variable {n : ℕ}

def CellConfig.initial (ptr : P) (generation session : ℕ) (freeFn : F) :
    CellConfig n P F where
  cell := makeCell ptr generation session freeFn
  session := session
  frames := fun _ => []
  transcript := []

/-- Install a cell and a thread's stack and record events. -/
def CellConfig.advance (config : CellConfig n P F)
    (thread : Fin n) (cell : Cell P F) (stack : List (Activity P F))
    (events : List (CellEvent P F)) : CellConfig n P F :=
  { config with
    cell := cell
    frames := Function.update config.frames thread stack
    transcript := config.transcript ++ events }

/-- What is left of a releasing thread once the shim has returned, or was
not called. -/
def Releaser.continuation : Releaser → List (Activity P F)
  | .endCall => []
  | .cellFree => [.returning true]

def CellConfig.step (config : CellConfig n P F) :
    CellAction n → Option (CellConfig n P F)
  | .beginCall thread birthGeneration =>
      let stack := config.frames thread
      if (stack.head?.map Activity.runsLisp).getD true then
        match config.cell.beginCall config.session birthGeneration with
        | (none, cell) =>
            some (config.advance thread cell (.inCall :: stack) [.begun])
        | (some problem, cell) =>
            some (config.advance thread cell (.signaling problem :: stack)
              [.refused problem])
      else
        none
  | .unwind thread =>
      match config.frames thread with
      | .signaling _ :: stack =>
          some (config.advance thread config.cell stack [])
      | _ => none
  | .endCall thread =>
      match config.frames thread with
      | .inCall :: stack =>
          match config.cell.endCall with
          | (none, cell) =>
              some (config.advance thread cell stack [.ended])
          | (some target, cell) =>
              some (config.advance thread cell
                (.releasing .endCall target :: stack) [.ended])
      | _ => none
  | .free thread =>
      let stack := config.frames thread
      match config.cell.free with
      | (true, some target, cell) =>
          some (config.advance thread cell
            (.releasing .cellFree target :: stack) [.taken])
      | (true, none, cell) =>
          some (config.advance thread cell (.returning true :: stack) [.taken])
      | (false, _, cell) =>
          some (config.advance thread cell (.returning false :: stack) [])
  | .foreignFree thread =>
      match config.frames thread with
      | .releasing releaser target :: stack =>
          match config.cell.maybeForeignFree config.session target with
          | some target =>
              some (config.advance thread config.cell
                (.inShim releaser :: stack) [.shimCalled target])
          | none =>
              some (config.advance thread config.cell
                (releaser.continuation ++ stack) [])
      | _ => none
  | .shimReturn thread =>
      match config.frames thread with
      | .inShim releaser :: stack =>
          some (config.advance thread config.cell
            (releaser.continuation ++ stack) [])
      | _ => none
  | .freeReturn thread =>
      match config.frames thread with
      | .returning ret :: stack =>
          some (config.advance thread config.cell stack [.freeReturned ret])
      | _ => none

def cellSystem (n : ℕ) (P F : Type*) :
    TransitionSystem.System (CellConfig n P F) (CellAction n) where
  step := CellConfig.step

/-- How many activities of a kind are on the threads' stacks. -/
def CellConfig.activityCount (config : CellConfig n P F)
    (kind : Activity P F → Bool) : ℕ :=
  ∑ thread, (config.frames thread).countP kind

def CellConfig.eventCount (config : CellConfig n P F)
    (kind : CellEvent P F → Bool) : ℕ :=
  config.transcript.countP kind

theorem CellConfig.activityCount_advance (config : CellConfig n P F)
    (thread : Fin n) (cell : Cell P F) (stack : List (Activity P F))
    (events : List (CellEvent P F)) (kind : Activity P F → Bool) :
    (config.advance thread cell stack events).activityCount kind +
        (config.frames thread).countP kind =
      config.activityCount kind + stack.countP kind :=
  TransitionSystem.sum_update_add (fun stack => stack.countP kind)
    config.frames thread stack

theorem CellConfig.activityCount_push (config : CellConfig n P F)
    (thread : Fin n) (cell : Cell P F) (activity : Activity P F)
    (events : List (CellEvent P F)) (kind : Activity P F → Bool) :
    (config.advance thread cell (activity :: config.frames thread)
        events).activityCount kind =
      config.activityCount kind + if kind activity then 1 else 0 := by
  have hadvance := config.activityCount_advance thread cell
    (activity :: config.frames thread) events kind
  rw [List.countP_cons] at hadvance
  omega

theorem CellConfig.activityCount_replace {config : CellConfig n P F}
    {thread : Fin n} {old : Activity P F} {rest : List (Activity P F)}
    (hframes : config.frames thread = old :: rest)
    (cell : Cell P F) (new : List (Activity P F))
    (events : List (CellEvent P F)) (kind : Activity P F → Bool) :
    ((config.advance thread cell (new ++ rest) events).activityCount kind +
        if kind old then 1 else 0) =
      config.activityCount kind + new.countP kind := by
  have hadvance := config.activityCount_advance thread cell
    (new ++ rest) events kind
  rw [hframes, List.countP_cons, List.countP_append] at hadvance
  omega

@[simp] theorem CellConfig.advance_cell (config : CellConfig n P F)
    (thread : Fin n) (cell : Cell P F) (stack : List (Activity P F))
    (events : List (CellEvent P F)) :
    (config.advance thread cell stack events).cell = cell := rfl

@[simp] theorem CellConfig.advance_session (config : CellConfig n P F)
    (thread : Fin n) (cell : Cell P F) (stack : List (Activity P F))
    (events : List (CellEvent P F)) :
    (config.advance thread cell stack events).session = config.session := rfl

@[simp] theorem CellConfig.eventCount_advance (config : CellConfig n P F)
    (thread : Fin n) (cell : Cell P F) (stack : List (Activity P F))
    (events : List (CellEvent P F)) (kind : CellEvent P F → Bool) :
    (config.advance thread cell stack events).eventCount kind =
      config.eventCount kind + events.countP kind := by
  simp [CellConfig.eventCount, CellConfig.advance]

/-! ## What one step can do -/

/-- Every way a step can change the configuration, guards included. -/
inductive CellConfig.Outcome (config : CellConfig n P F) :
    CellConfig n P F → Prop
  | begun (thread : Fin n)
      (hlive : config.cell.state = .live) :
      config.Outcome (config.advance thread
        { config.cell with inFlight := config.cell.inFlight + 1 }
        (.inCall :: config.frames thread) [.begun])
  | refused (thread : Fin n) (problem : CellProblem) :
      config.Outcome (config.advance thread config.cell
        (.signaling problem :: config.frames thread) [.refused problem])
  | unwound (thread : Fin n) (problem : CellProblem)
      (rest : List (Activity P F))
      (hframes : config.frames thread = .signaling problem :: rest) :
      config.Outcome (config.advance thread config.cell rest [])
  | ended (thread : Fin n) (rest : List (Activity P F))
      (hframes : config.frames thread = .inCall :: rest)
      (hkeep : ¬(config.cell.state = .freePending ∧
        config.cell.inFlight - 1 = 0)) :
      config.Outcome (config.advance thread
        { config.cell with inFlight := config.cell.inFlight - 1 }
        rest [.ended])
  | endedLast (thread : Fin n) (rest : List (Activity P F))
      (hframes : config.frames thread = .inCall :: rest)
      (hpending : config.cell.state = .freePending)
      (hlast : config.cell.inFlight - 1 = 0) :
      config.Outcome (config.advance thread
        { config.cell with
          state := .freed, inFlight := config.cell.inFlight - 1 }
        (.releasing .endCall (config.cell.ptr, config.cell.freeFn) :: rest)
        [.ended])
  | takenIdle (thread : Fin n)
      (hlive : config.cell.state = .live) (hidle : config.cell.inFlight = 0) :
      config.Outcome (config.advance thread
        { config.cell with state := .freed }
        (.releasing .cellFree (config.cell.ptr, config.cell.freeFn) ::
          config.frames thread) [.taken])
  | takenBusy (thread : Fin n)
      (hlive : config.cell.state = .live) (hbusy : config.cell.inFlight ≠ 0) :
      config.Outcome (config.advance thread
        { config.cell with state := .freePending }
        (.returning true :: config.frames thread) [.taken])
  | lost (thread : Fin n) (hstate : config.cell.state ≠ .live) :
      config.Outcome (config.advance thread config.cell
        (.returning false :: config.frames thread) [])
  | shimCalled (thread : Fin n) (releaser : Releaser) (target : P × F)
      (rest : List (Activity P F))
      (hframes : config.frames thread = .releasing releaser target :: rest)
      (hsession : config.cell.session = config.session) :
      config.Outcome (config.advance thread config.cell
        (.inShim releaser :: rest) [.shimCalled target])
  | shimSkipped (thread : Fin n) (releaser : Releaser) (target : P × F)
      (rest : List (Activity P F))
      (hframes : config.frames thread = .releasing releaser target :: rest)
      (hsession : config.cell.session ≠ config.session) :
      config.Outcome (config.advance thread config.cell
        (releaser.continuation ++ rest) [])
  | shimReturned (thread : Fin n) (releaser : Releaser)
      (rest : List (Activity P F))
      (hframes : config.frames thread = .inShim releaser :: rest) :
      config.Outcome (config.advance thread config.cell
        (releaser.continuation ++ rest) [])
  | freeReturned (thread : Fin n) (ret : Bool)
      (rest : List (Activity P F))
      (hframes : config.frames thread = .returning ret :: rest) :
      config.Outcome (config.advance thread config.cell rest
        [.freeReturned ret])

theorem CellConfig.beginCall_outcome
    {config next : CellConfig n P F} {thread : Fin n} {birthGeneration : ℕ}
    (hstep : config.step (.beginCall thread birthGeneration) = some next) :
    config.Outcome next := by
  simp only [CellConfig.step] at hstep
  split at hstep
  · split at hstep
    · rename_i cell hcell
      have hverdict :
          (config.cell.beginCall config.session birthGeneration).1 = none := by
        rw [hcell]
      have hnew := Cell.beginCall_snd_of_none hverdict
      rw [hcell] at hnew
      simp only [Option.some.injEq] at hstep hnew
      subst hstep hnew
      exact .begun thread
        ((Cell.beginCall_fst_eq_none_iff _ _ _).mp hverdict).1
    · rename_i problem cell hcell
      have hverdict :
          (config.cell.beginCall config.session birthGeneration).1 =
            some problem := by
        rw [hcell]
      have hsame := Cell.beginCall_snd_of_some hverdict
      rw [hcell] at hsame
      simp only [Option.some.injEq] at hstep hsame
      subst hstep hsame
      exact .refused thread problem
  · cases hstep

theorem CellConfig.endCall_outcome
    {config next : CellConfig n P F} {thread : Fin n}
    (hstep : config.step (.endCall thread) = some next) :
    config.Outcome next := by
  simp only [CellConfig.step] at hstep
  split at hstep
  · rename_i rest hframes
    unfold Cell.endCall at hstep
    by_cases hlast :
        config.cell.state = .freePending ∧ config.cell.inFlight - 1 = 0
    · simp only [hlast, and_self, if_true, Option.some.injEq] at hstep
      subst hstep
      simpa [hlast.2] using
        CellConfig.Outcome.endedLast thread rest hframes hlast.1 hlast.2
    · simp only [if_neg hlast, Option.some.injEq] at hstep
      subst hstep
      exact .ended thread rest hframes hlast
  · cases hstep

theorem CellConfig.free_outcome
    {config next : CellConfig n P F} {thread : Fin n}
    (hstep : config.step (.free thread) = some next) :
    config.Outcome next := by
  simp only [CellConfig.step, Cell.free] at hstep
  cases hstate : config.cell.state with
  | live =>
      by_cases hidle : config.cell.inFlight = 0
      · simp only [hstate, hidle, if_true, Option.some.injEq] at hstep
        subst hstep
        simpa [hidle] using
          CellConfig.Outcome.takenIdle thread hstate hidle
      · simp only [hstate, if_neg hidle, Option.some.injEq] at hstep
        subst hstep
        exact .takenBusy thread hstate hidle
  | freePending =>
      simp only [hstate, Option.some.injEq] at hstep
      subst hstep
      exact .lost thread (by simp [hstate])
  | freed =>
      simp only [hstate, Option.some.injEq] at hstep
      subst hstep
      exact .lost thread (by simp [hstate])

theorem CellConfig.step_outcome
    {config next : CellConfig n P F} {action : CellAction n}
    (hstep : config.step action = some next) :
    config.Outcome next := by
  cases action with
  | beginCall thread birthGeneration => exact beginCall_outcome hstep
  | endCall thread => exact endCall_outcome hstep
  | free thread => exact free_outcome hstep
  | unwind thread =>
      simp only [CellConfig.step] at hstep
      split at hstep
      · rename_i problem rest hframes
        cases hstep
        exact .unwound thread problem rest hframes
      · cases hstep
  | foreignFree thread =>
      simp only [CellConfig.step] at hstep
      split at hstep
      · rename_i releaser target rest hframes
        by_cases hsession : config.cell.session = config.session
        · simp only [Cell.maybeForeignFree, if_pos hsession] at hstep
          cases hstep
          exact .shimCalled thread releaser target rest hframes hsession
        · simp only [Cell.maybeForeignFree, if_neg hsession] at hstep
          cases hstep
          exact .shimSkipped thread releaser target rest hframes hsession
      · cases hstep
  | shimReturn thread =>
      simp only [CellConfig.step] at hstep
      split at hstep
      · rename_i releaser rest hframes
        cases hstep
        exact .shimReturned thread releaser rest hframes
      · cases hstep
  | freeReturn thread =>
      simp only [CellConfig.step] at hstep
      split at hstep
      · rename_i ret rest hframes
        cases hstep
        exact .freeReturned thread ret rest hframes
      · cases hstep

end Threads

end Rulisp
