import Rulisp.HandleCell

/-!
# The cell protocol

The invariant ties the in-flight counter, the cell state and the one pending
free together.  It is proved once per outcome of a step, and the protocol
properties (no double free, no free under a running call, no call after a
free) are read off it.
-/

namespace Rulisp

open TransitionSystem

variable {P F : Type*} {n : ℕ}

/-- Frees decided and not yet run, plus frees run. -/
def CellConfig.frees (config : CellConfig n P F) : ℕ :=
  config.activityCount Activity.isReleasing +
    config.eventCount CellEvent.isShimCall

structure CellConfig.Invariant (config : CellConfig n P F) : Prop where
  session : config.cell.session = config.session
  calls : config.cell.inFlight = config.activityCount Activity.isInCall
  live : config.cell.state = .live →
    config.eventCount CellEvent.isTaken = 0 ∧ config.frees = 0 ∧
      config.eventCount (CellEvent.isFreeReturn false) = 0 ∧
      config.activityCount Activity.isLoser = 0
  pending : config.cell.state = .freePending →
    config.eventCount CellEvent.isTaken = 1 ∧ config.frees = 0 ∧
      0 < config.cell.inFlight
  freed : config.cell.state = .freed →
    config.eventCount CellEvent.isTaken = 1 ∧ config.frees = 1 ∧
      config.cell.inFlight = 0
  winners : config.eventCount (CellEvent.isFreeReturn true) +
    config.activityCount Activity.isWinner =
      config.eventCount CellEvent.isTaken
  inShim : config.activityCount Activity.isInShim ≤
    config.eventCount CellEvent.isShimCall
  order : config.transcript.Pairwise fun earlier later =>
    earlier.isTaken = true → later.isBegun = false

theorem CellConfig.initial_invariant
    (ptr : P) (generation : ℕ) (session : ℕ) (freeFn : F) :
    (CellConfig.initial (n := n) ptr generation session freeFn).Invariant := by
  constructor <;>
    simp [CellConfig.initial, makeCell, CellConfig.activityCount,
      CellConfig.eventCount, CellConfig.frees]

/-- Recording an event other than a begun call keeps the transcript ordered;
a begun call needs that nothing was taken before. -/
theorem CellConfig.order_advance {config : CellConfig n P F}
    (horder : config.transcript.Pairwise fun earlier later =>
      earlier.isTaken = true → later.isBegun = false)
    (thread : Fin n) (cell : Cell P F) (stack : List (Activity P F))
    {event : CellEvent P F}
    (hevent : event.isBegun = true →
      config.eventCount CellEvent.isTaken = 0) :
    (config.advance thread cell stack [event]).transcript.Pairwise
      fun earlier later => earlier.isTaken = true → later.isBegun = false := by
  simp only [CellConfig.advance]
  rw [List.pairwise_append]
  refine ⟨horder, List.pairwise_singleton _ _, ?_⟩
  intro earlier hearlier later hlater htaken
  rw [List.mem_singleton] at hlater
  subst hlater
  by_contra hbegun
  have hzero := hevent (by simpa using hbegun)
  unfold CellConfig.eventCount at hzero
  rw [List.countP_eq_zero] at hzero
  exact hzero earlier hearlier htaken

theorem CellConfig.order_advance_nil {config : CellConfig n P F}
    (horder : config.transcript.Pairwise fun earlier later =>
      earlier.isTaken = true → later.isBegun = false)
    (thread : Fin n) (cell : Cell P F) (stack : List (Activity P F)) :
    (config.advance thread cell stack []).transcript.Pairwise
      fun earlier later => earlier.isTaken = true → later.isBegun = false := by
  simpa [CellConfig.advance] using horder

theorem CellConfig.Invariant.afterBegun {config : CellConfig n P F}
    (hinv : config.Invariant) (thread : Fin n)
    (hlive : config.cell.state = .live) :
    (config.advance thread
      { config.cell with inFlight := config.cell.inFlight + 1 }
      (.inCall :: config.frames thread) [.begun]).Invariant := by
  have hidle := hinv.live hlive
  constructor
  · exact hinv.session
  · simpa [CellConfig.activityCount_push] using hinv.calls
  · intro _
    simpa [CellConfig.activityCount_push, CellConfig.frees] using hidle
  · simp [hlive]
  · simp [hlive]
  · simpa [CellConfig.activityCount_push] using hinv.winners
  · simpa [CellConfig.activityCount_push] using hinv.inShim
  · exact config.order_advance hinv.order _ _ _ fun _ => hidle.1

theorem CellConfig.Invariant.afterRefused {config : CellConfig n P F}
    (hinv : config.Invariant) (thread : Fin n) (problem : CellProblem) :
    (config.advance thread config.cell
      (.signaling problem :: config.frames thread)
      [.refused problem]).Invariant := by
  constructor
  · exact hinv.session
  · simpa [CellConfig.activityCount_push] using hinv.calls
  · simpa [CellConfig.activityCount_push, CellConfig.frees] using hinv.live
  · simpa [CellConfig.activityCount_push, CellConfig.frees] using hinv.pending
  · simpa [CellConfig.activityCount_push, CellConfig.frees] using hinv.freed
  · simpa [CellConfig.activityCount_push] using hinv.winners
  · simpa [CellConfig.activityCount_push] using hinv.inShim
  · exact config.order_advance hinv.order _ _ _ (by simp)

theorem CellConfig.Invariant.afterUnwound {config : CellConfig n P F}
    (hinv : config.Invariant) {thread : Fin n} {problem : CellProblem}
    {rest : List (Activity P F)}
    (hframes : config.frames thread = .signaling problem :: rest) :
    (config.advance thread config.cell rest []).Invariant := by
  have hcount := CellConfig.activityCount_replace hframes config.cell [] []
  have hcalls := hcount Activity.isInCall
  have hreleasing := hcount Activity.isReleasing
  have hshim := hcount Activity.isInShim
  have hwinner := hcount Activity.isWinner
  have hloser := hcount Activity.isLoser
  simp at hcalls hreleasing hshim hwinner hloser
  constructor
  · exact hinv.session
  · simpa [hcalls] using hinv.calls
  · simpa [hreleasing, hloser, CellConfig.frees] using hinv.live
  · simpa [hreleasing, CellConfig.frees] using hinv.pending
  · simpa [hreleasing, CellConfig.frees] using hinv.freed
  · simpa [hwinner] using hinv.winners
  · simpa [hshim] using hinv.inShim
  · exact config.order_advance_nil hinv.order _ _ _

theorem CellConfig.Invariant.afterEnded {config : CellConfig n P F}
    (hinv : config.Invariant) {thread : Fin n} {rest : List (Activity P F)}
    (hframes : config.frames thread = .inCall :: rest)
    (hkeep : ¬(config.cell.state = .freePending ∧
      config.cell.inFlight - 1 = 0)) :
    (config.advance thread
      { config.cell with inFlight := config.cell.inFlight - 1 }
      rest [.ended]).Invariant := by
  have hcount := CellConfig.activityCount_replace hframes
    { config.cell with inFlight := config.cell.inFlight - 1 } [] [.ended]
  have hcalls := hcount Activity.isInCall
  have hreleasing := hcount Activity.isReleasing
  have hshim := hcount Activity.isInShim
  have hwinner := hcount Activity.isWinner
  have hloser := hcount Activity.isLoser
  simp at hcalls hreleasing hshim hwinner hloser
  have hold := hinv.calls
  constructor
  · exact hinv.session
  · simp only [advance_cell]
    omega
  · simpa [hreleasing, hloser, CellConfig.frees] using hinv.live
  · intro hpending
    have hprior := hinv.pending hpending
    have hmore : config.cell.inFlight - 1 ≠ 0 := fun hlast =>
      hkeep ⟨hpending, hlast⟩
    simp [hreleasing, CellConfig.frees] at hprior ⊢
    omega
  · intro hfreed
    have hprior := hinv.freed hfreed
    simp [hreleasing, CellConfig.frees] at hprior ⊢
    omega
  · simpa [hwinner] using hinv.winners
  · simpa [hshim] using hinv.inShim
  · exact config.order_advance hinv.order _ _ _ (by simp)

/-- The last call on a cell that waits for its free takes the free over. -/
theorem CellConfig.Invariant.afterEndedLast {config : CellConfig n P F}
    (hinv : config.Invariant) {thread : Fin n} {rest : List (Activity P F)}
    (hframes : config.frames thread = .inCall :: rest)
    (hpending : config.cell.state = .freePending)
    (hlast : config.cell.inFlight - 1 = 0) :
    (config.advance thread
      { config.cell with
        state := .freed, inFlight := config.cell.inFlight - 1 }
      (.releasing .endCall (config.cell.ptr, config.cell.freeFn) :: rest)
      [.ended]).Invariant := by
  have hcount := CellConfig.activityCount_replace hframes
    { config.cell with
      state := .freed, inFlight := config.cell.inFlight - 1 }
    [.releasing .endCall (config.cell.ptr, config.cell.freeFn)] [.ended]
  have hcalls := hcount Activity.isInCall
  have hreleasing := hcount Activity.isReleasing
  have hshim := hcount Activity.isInShim
  have hwinner := hcount Activity.isWinner
  simp at hcalls hreleasing hshim hwinner
  have hold := hinv.calls
  have hprior := hinv.pending hpending
  constructor
  · exact hinv.session
  · simp only [advance_cell]
    omega
  · simp
  · simp
  · intro _
    simp [CellConfig.frees, hreleasing] at hprior ⊢
    omega
  · simpa [hwinner] using hinv.winners
  · simpa [hshim] using hinv.inShim
  · exact config.order_advance hinv.order _ _ _ (by simp)

theorem CellConfig.Invariant.afterTakenIdle {config : CellConfig n P F}
    (hinv : config.Invariant) (thread : Fin n)
    (hlive : config.cell.state = .live) (hidle : config.cell.inFlight = 0) :
    (config.advance thread { config.cell with state := .freed }
      (.releasing .cellFree (config.cell.ptr, config.cell.freeFn) ::
        config.frames thread) [.taken]).Invariant := by
  obtain ⟨htaken, hfrees, -, -⟩ := hinv.live hlive
  have hwinners := hinv.winners
  constructor
  · exact hinv.session
  · simpa [CellConfig.activityCount_push] using hinv.calls
  · simp
  · simp
  · intro _
    simp [CellConfig.activityCount_push, CellConfig.frees] at hfrees ⊢
    omega
  · simp [CellConfig.activityCount_push]
    omega
  · simpa [CellConfig.activityCount_push] using hinv.inShim
  · exact config.order_advance hinv.order _ _ _ (by simp)

theorem CellConfig.Invariant.afterTakenBusy {config : CellConfig n P F}
    (hinv : config.Invariant) (thread : Fin n)
    (hlive : config.cell.state = .live) (hbusy : config.cell.inFlight ≠ 0) :
    (config.advance thread { config.cell with state := .freePending }
      (.returning true :: config.frames thread) [.taken]).Invariant := by
  obtain ⟨htaken, hfrees, -, -⟩ := hinv.live hlive
  have hwinners := hinv.winners
  constructor
  · exact hinv.session
  · simpa [CellConfig.activityCount_push] using hinv.calls
  · simp
  · intro _
    simp [CellConfig.activityCount_push, CellConfig.frees] at hfrees ⊢
    omega
  · simp
  · simp [CellConfig.activityCount_push]
    omega
  · simpa [CellConfig.activityCount_push] using hinv.inShim
  · exact config.order_advance hinv.order _ _ _ (by simp)

theorem CellConfig.Invariant.afterLost {config : CellConfig n P F}
    (hinv : config.Invariant) (thread : Fin n)
    (hstate : config.cell.state ≠ .live) :
    (config.advance thread config.cell
      (.returning false :: config.frames thread) []).Invariant := by
  constructor
  · exact hinv.session
  · simpa [CellConfig.activityCount_push] using hinv.calls
  · exact fun hlive => (hstate hlive).elim
  · simpa [CellConfig.activityCount_push, CellConfig.frees] using hinv.pending
  · simpa [CellConfig.activityCount_push, CellConfig.frees] using hinv.freed
  · simpa [CellConfig.activityCount_push] using hinv.winners
  · simpa [CellConfig.activityCount_push] using hinv.inShim
  · exact config.order_advance_nil hinv.order _ _ _

/-- A decided free exists only on a freed cell. -/
theorem CellConfig.Invariant.freed_of_frees {config : CellConfig n P F}
    (hinv : config.Invariant) (hfrees : 0 < config.frees) :
    config.cell.state = .freed := by
  cases hstate : config.cell.state with
  | live =>
      have hlive := hinv.live hstate
      omega
  | freePending =>
      have hpending := hinv.pending hstate
      omega
  | freed => rfl

theorem CellConfig.Invariant.freed_of_releasing {config : CellConfig n P F}
    (hinv : config.Invariant) {thread : Fin n} {releaser : Releaser}
    {target : P × F} {rest : List (Activity P F)}
    (hframes : config.frames thread = .releasing releaser target :: rest) :
    config.cell.state = .freed := by
  apply hinv.freed_of_frees
  have hle := weight_le_sum (fun stack => stack.countP Activity.isReleasing)
    config.frames thread
  have hone : 0 < (config.frames thread).countP Activity.isReleasing := by
    simp [hframes]
  simp only [CellConfig.frees, CellConfig.activityCount]
  omega

theorem CellConfig.Invariant.afterShimCalled {config : CellConfig n P F}
    (hinv : config.Invariant) {thread : Fin n} {releaser : Releaser}
    {target : P × F} {rest : List (Activity P F)}
    (hframes : config.frames thread = .releasing releaser target :: rest) :
    (config.advance thread config.cell (.inShim releaser :: rest)
      [.shimCalled target]).Invariant := by
  have hcount := CellConfig.activityCount_replace hframes config.cell
    [.inShim releaser] [.shimCalled target]
  have hcalls := hcount Activity.isInCall
  have hreleasing := hcount Activity.isReleasing
  have hshim := hcount Activity.isInShim
  have hwinner := hcount Activity.isWinner
  have hstate := hinv.freed_of_releasing hframes
  have hwinners := hinv.winners
  have hshims := hinv.inShim
  simp at hcalls hreleasing hshim
  constructor
  · exact hinv.session
  · simpa [hcalls] using hinv.calls
  · simp [hstate]
  · simp [hstate]
  · intro hfreed
    have hprior := hinv.freed hfreed
    simp [CellConfig.frees] at hprior ⊢
    omega
  · cases releaser <;> simp at hwinner ⊢ <;> omega
  · simp
    omega
  · exact config.order_advance hinv.order _ _ _ (by simp)

/-- The shim returned: an ended call is done, a `%cell-free` returns T. -/
theorem CellConfig.Invariant.afterShimReturned {config : CellConfig n P F}
    (hinv : config.Invariant) {thread : Fin n} {releaser : Releaser}
    {rest : List (Activity P F)}
    (hframes : config.frames thread = .inShim releaser :: rest) :
    (config.advance thread config.cell
      (releaser.continuation ++ rest) []).Invariant := by
  have hcount := CellConfig.activityCount_replace hframes config.cell
    releaser.continuation []
  have hcalls := hcount Activity.isInCall
  have hreleasing := hcount Activity.isReleasing
  have hshim := hcount Activity.isInShim
  have hwinner := hcount Activity.isWinner
  have hloser := hcount Activity.isLoser
  have hwinners := hinv.winners
  have hshims := hinv.inShim
  have hcontinuation :
      (releaser.continuation : List (Activity P F)).countP
          Activity.isInCall = 0 ∧
        (releaser.continuation : List (Activity P F)).countP
          Activity.isReleasing = 0 ∧
        (releaser.continuation : List (Activity P F)).countP
          Activity.isInShim = 0 ∧
        (releaser.continuation : List (Activity P F)).countP
          Activity.isLoser = 0 := by
    cases releaser <;> simp [Releaser.continuation]
  simp [hcontinuation] at hcalls hreleasing hshim hloser
  constructor
  · exact hinv.session
  · simpa [hcalls] using hinv.calls
  · simpa [hreleasing, hloser, CellConfig.frees] using hinv.live
  · simpa [hreleasing, CellConfig.frees] using hinv.pending
  · simpa [hreleasing, CellConfig.frees] using hinv.freed
  · cases releaser <;> simp [Releaser.continuation] at hwinner ⊢ <;> omega
  · simp
    omega
  · exact config.order_advance_nil hinv.order _ _ _

theorem CellConfig.Invariant.afterFreeReturned {config : CellConfig n P F}
    (hinv : config.Invariant) {thread : Fin n} {ret : Bool}
    {rest : List (Activity P F)}
    (hframes : config.frames thread = .returning ret :: rest) :
    (config.advance thread config.cell rest [.freeReturned ret]).Invariant := by
  have hcount := CellConfig.activityCount_replace hframes config.cell []
    [.freeReturned ret]
  have hcalls := hcount Activity.isInCall
  have hreleasing := hcount Activity.isReleasing
  have hshim := hcount Activity.isInShim
  have hwinner := hcount Activity.isWinner
  have hloser := hcount Activity.isLoser
  have hwinners := hinv.winners
  simp at hcalls hreleasing hshim
  constructor
  · exact hinv.session
  · simpa [hcalls] using hinv.calls
  · intro hlive
    have hprior := hinv.live hlive
    cases ret <;> simp [CellConfig.frees] at hprior hloser hwinner ⊢ <;> omega
  · simpa [hreleasing, CellConfig.frees] using hinv.pending
  · simpa [hreleasing, CellConfig.frees] using hinv.freed
  · cases ret <;> simp at hwinner ⊢ <;> omega
  · simpa [hshim] using hinv.inShim
  · exact config.order_advance hinv.order _ _ _ (by simp)

theorem CellConfig.Invariant.afterOutcome {config next : CellConfig n P F}
    (hinv : config.Invariant) (houtcome : config.Outcome next) :
    next.Invariant := by
  cases houtcome with
  | begun thread hlive => exact hinv.afterBegun thread hlive
  | refused thread problem => exact hinv.afterRefused thread problem
  | unwound thread problem rest hframes => exact hinv.afterUnwound hframes
  | ended thread rest hframes hkeep => exact hinv.afterEnded hframes hkeep
  | endedLast thread rest hframes hpending hlast =>
      exact hinv.afterEndedLast hframes hpending hlast
  | takenIdle thread hlive hidle => exact hinv.afterTakenIdle thread hlive hidle
  | takenBusy thread hlive hbusy => exact hinv.afterTakenBusy thread hlive hbusy
  | lost thread hstate => exact hinv.afterLost thread hstate
  | shimCalled thread releaser target rest hframes hsession =>
      exact hinv.afterShimCalled hframes
  | shimSkipped thread releaser target rest hframes hsession =>
      exact (hsession hinv.session).elim
  | shimReturned thread releaser rest hframes =>
      exact hinv.afterShimReturned hframes
  | freeReturned thread ret rest hframes => exact hinv.afterFreeReturned hframes

theorem CellConfig.invariant_of_reaches
    {ptr : P} {generation session : ℕ} {freeFn : F} {config : CellConfig n P F}
    (hreach : (cellSystem n P F).Reaches
      (.initial ptr generation session freeFn) config) :
    config.Invariant :=
  hreach.invariant
    (fun _ _ _ hinv hstep => hinv.afterOutcome (step_outcome hstep))
    (initial_invariant ptr generation session freeFn)

/-! ## The protocol -/

/-- No thread is inside one of the three operations or a call. -/
def CellConfig.Quiescent (config : CellConfig n P F) : Prop :=
  ∀ thread, config.frames thread = []

def CellConfig.shimCalls (config : CellConfig n P F) : ℕ :=
  config.eventCount CellEvent.isShimCall

/-- Completed `%cell-free` calls that returned T (`true`) or NIL (`false`). -/
def CellConfig.completedFrees (config : CellConfig n P F) (ret : Bool) : ℕ :=
  config.eventCount (CellEvent.isFreeReturn ret)

structure CellConfig.Protocol (config : CellConfig n P F) : Prop where
  shimOnce : config.shimCalls ≤ 1
  /-- A step that calls the shim finds no thread inside a call. -/
  shimAlone : ∀ action next, config.step action = some next →
    next.shimCalls ≠ config.shimCalls →
      ∀ thread, Activity.inCall ∉ config.frames thread
  /-- No thread is inside a call while the shim runs. -/
  shimRunsAlone : ∀ thread releaser,
    Activity.inShim releaser ∈ config.frames thread →
      ∀ caller, Activity.inCall ∉ config.frames caller
  /-- No call begins after the cell was taken out of `:live`. -/
  closed : config.transcript.Pairwise fun earlier later =>
    earlier.isTaken = true → later.isBegun = false
  oneWinner : config.completedFrees true ≤ 1
  /-- Once a `%cell-free` has completed, exactly one has returned T or is
  past its lock-held section with T to return. -/
  decided : 0 < config.completedFrees true + config.completedFrees false →
    config.completedFrees true +
      config.activityCount Activity.isWinner = 1
  settledWinner : config.Quiescent →
    0 < config.completedFrees true + config.completedFrees false →
      config.completedFrees true = 1
  settledShim : config.Quiescent →
    config.shimCalls =
      if 0 < config.completedFrees true + config.completedFrees false
        then 1 else 0

theorem CellConfig.not_mem_of_inFlight_eq_zero {config : CellConfig n P F}
    (hinv : config.Invariant) (hzero : config.cell.inFlight = 0)
    (thread : Fin n) : Activity.inCall ∉ config.frames thread := by
  intro hmem
  have hle := weight_le_sum (fun stack => stack.countP Activity.isInCall)
    config.frames thread
  have hone : 0 < (config.frames thread).countP Activity.isInCall :=
    List.countP_pos_iff.mpr ⟨_, hmem, rfl⟩
  have hcalls := hinv.calls
  simp only [CellConfig.activityCount] at hcalls
  omega

theorem CellConfig.Quiescent.activityCount_eq_zero {config : CellConfig n P F}
    (hquiet : config.Quiescent) (kind : Activity P F → Bool) :
    config.activityCount kind = 0 := by
  unfold CellConfig.activityCount
  exact Finset.sum_eq_zero fun thread _ => by rw [hquiet thread]; rfl

theorem CellConfig.Invariant.taken_le_one {config : CellConfig n P F}
    (hinv : config.Invariant) :
    config.eventCount CellEvent.isTaken ≤ 1 := by
  cases hstate : config.cell.state with
  | live => exact (hinv.live hstate).1.le.trans (Nat.zero_le 1)
  | freePending => exact (hinv.pending hstate).1.le
  | freed => exact (hinv.freed hstate).1.le

theorem CellConfig.Invariant.taken_of_completed {config : CellConfig n P F}
    (hinv : config.Invariant)
    (hsome : 0 < config.completedFrees true + config.completedFrees false) :
    config.eventCount CellEvent.isTaken = 1 := by
  cases hstate : config.cell.state with
  | live =>
      obtain ⟨htaken, -, hlost, -⟩ := hinv.live hstate
      have hwinners := hinv.winners
      unfold CellConfig.completedFrees at hsome
      omega
  | freePending => exact (hinv.pending hstate).1
  | freed => exact (hinv.freed hstate).1

theorem CellConfig.Invariant.shimCalls_le_frees {config : CellConfig n P F}
    (_hinv : config.Invariant) : config.shimCalls ≤ config.frees :=
  Nat.le_add_left _ _

/-- Only a release calls the shim, and a release exists only on a freed
cell, on which no call is in flight. -/
theorem CellConfig.Invariant.idle_of_shim_call {config next : CellConfig n P F}
    (hinv : config.Invariant) (houtcome : config.Outcome next)
    (hshim : next.shimCalls ≠ config.shimCalls) :
    config.cell.inFlight = 0 := by
  cases houtcome with
  | shimCalled thread releaser target rest hframes hsession =>
      exact (hinv.freed (hinv.freed_of_releasing hframes)).2.2
  | _ => simp [CellConfig.shimCalls] at hshim

theorem CellConfig.Invariant.idle_of_inShim {config : CellConfig n P F}
    (hinv : config.Invariant) {thread : Fin n} {releaser : Releaser}
    (hmem : Activity.inShim releaser ∈ config.frames thread) :
    config.cell.inFlight = 0 := by
  have hle := weight_le_sum (fun stack => stack.countP Activity.isInShim)
    config.frames thread
  have hone : 0 < (config.frames thread).countP Activity.isInShim :=
    List.countP_pos_iff.mpr ⟨_, hmem, rfl⟩
  have hshims := hinv.inShim
  have hfreed : config.cell.state = .freed := by
    apply hinv.freed_of_frees
    simp only [CellConfig.frees, CellConfig.activityCount] at hshims ⊢
    omega
  exact (hinv.freed hfreed).2.2

theorem CellConfig.Invariant.settled_shimCalls {config : CellConfig n P F}
    (hinv : config.Invariant) (hquiet : config.Quiescent) :
    config.shimCalls =
      if 0 < config.completedFrees true + config.completedFrees false
        then 1 else 0 := by
  have hcount := hquiet.activityCount_eq_zero
  have hwinners := hinv.winners
  simp only [hcount, Nat.add_zero] at hwinners
  cases hstate : config.cell.state with
  | live =>
      obtain ⟨htaken, hfrees, hlost, -⟩ := hinv.live hstate
      have hle := hinv.shimCalls_le_frees
      rw [if_neg (by simp only [CellConfig.completedFrees]; omega)]
      omega
  | freePending =>
      obtain ⟨-, -, hbusy⟩ := hinv.pending hstate
      have hcalls := hinv.calls
      rw [hcount] at hcalls
      omega
  | freed =>
      obtain ⟨htaken, hfrees, -⟩ := hinv.freed hstate
      rw [if_pos (by simp only [CellConfig.completedFrees]; omega)]
      simpa [CellConfig.frees, CellConfig.shimCalls, hcount] using hfrees

/-- In every state that any interleaving of calls and frees on one live cell
reaches, the cell protocol holds. -/
theorem cell_protocol
    (ptr : P) (generation session : ℕ) (freeFn : F) {config : CellConfig n P F}
    (hreach : (cellSystem n P F).Reaches
      (.initial ptr generation session freeFn) config) :
    config.Protocol := by
  have hinv := CellConfig.invariant_of_reaches hreach
  have hwinners := hinv.winners
  have htaken := hinv.taken_le_one
  constructor
  · refine hinv.shimCalls_le_frees.trans ?_
    cases hstate : config.cell.state with
    | live => exact (hinv.live hstate).2.1.le.trans (Nat.zero_le 1)
    | freePending => exact (hinv.pending hstate).2.1.le.trans (Nat.zero_le 1)
    | freed => exact (hinv.freed hstate).2.1.le
  · intro action next hstep hshim
    exact config.not_mem_of_inFlight_eq_zero hinv
      (hinv.idle_of_shim_call (CellConfig.step_outcome hstep) hshim)
  · intro thread releaser hmem
    exact config.not_mem_of_inFlight_eq_zero hinv (hinv.idle_of_inShim hmem)
  · exact hinv.order
  · simp only [CellConfig.completedFrees]
    omega
  · intro hsome
    have hone := hinv.taken_of_completed hsome
    simp only [CellConfig.completedFrees]
    omega
  · intro hquiet hsome
    have hone := hinv.taken_of_completed hsome
    have hnone := hquiet.activityCount_eq_zero Activity.isWinner
    simp only [CellConfig.completedFrees]
    omega
  · exact hinv.settled_shimCalls

/-- A call in flight, a free that has to wait for it, and a second free: the
ending call runs the shim. -/
theorem cell_protocol_deferred_free :
    ∃ config,
      (cellSystem 2 ℕ ℕ).run (.initial 7 1 0 9)
        [.beginCall 0 1, .free 1, .free 1, .freeReturn 1, .freeReturn 1,
          .endCall 0, .foreignFree 0, .shimReturn 0] = some config ∧
      config.Protocol ∧ config.shimCalls = 1 := by
  refine ⟨_, rfl, cell_protocol 7 1 0 9
    ⟨[.beginCall 0 1, .free 1, .free 1, .freeReturn 1, .freeReturn 1,
      .endCall 0, .foreignFree 0, .shimReturn 0], rfl⟩, rfl⟩

/-- While the free that took the cell is still inside the shim, a second
`%cell-free` has already returned NIL: the completed calls alone need not
contain the one that returns T. -/
theorem completedFrees_true_eq_one_fails :
    ¬∀ config : CellConfig 2 ℕ ℕ,
      (cellSystem 2 ℕ ℕ).Reaches (.initial 7 1 0 9) config →
      0 < config.completedFrees true + config.completedFrees false →
        config.completedFrees true = 1 := by
  intro hclaim
  have hrun := hclaim _
    ⟨[.free 0, .foreignFree 0, .free 1, .freeReturn 1], rfl⟩ (by decide)
  exact absurd hrun (by decide)

end Rulisp
