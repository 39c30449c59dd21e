import Mathlib.Data.List.Nodup
import Rulisp.HttpdServer

/-!
# Every request is answered once

The invariant of an exchange ties its counters to the place of the sender and
the phase of the task; the invariant of the server ties the queue and
`in_flight` to the exchanges.
-/

namespace Rulisp

namespace Httpd

open TransitionSystem

/-! ## The invariant of an exchange -/

def ParkPhase.beforePark : ParkPhase → Bool
  | .arrived | .bodySlot | .readingBody | .pushing => true
  | _ => false

def ParkPhase.answers : ParkPhase → List Response
  | .answered response => [response]
  | _ => []

/-- The sender has not left the task that made it. -/
def SenderPlace.beforePark : SenderPlace → Bool
  | .none | .pushing => true
  | _ => false

/-- A `respond` may have taken the reply. -/
def SenderPlace.mayRespond : SenderPlace → Bool
  | .responding _ | .sending _ | .used _ => true
  | _ => false

/-- The answers that a parked request may get. -/
def Exchange.MayGet (x : Exchange) (response : Response) : Prop :=
  x.accepted = some response ∨ response = statusOnly 500 ∨
    response = statusOnly 503 ∨ response = retryLater ∨
      response = statusOnly 504

structure Exchange.Inv (x : Exchange) : Prop where
  pulls : x.pulls = if x.sender.pulled then 1 else 0
  uses : x.uses = if x.sender.spent then 1 else 0
  answers : x.answers = x.phase.answers
  parks : x.parks ≤ 1
  phaseBefore : x.phase.beforePark = true →
    x.sender.beforePark = true
  senderBefore : x.sender.beforePark = true → x.parks = 0
  receiver : x.phase = .pushing ∨ x.phase = .parked → x.receiver = true
  fresh : x.sender.spent = false → x.value = none
  received : x.receiver = true → x.sender.spent = true →
    x.value.isSome = true
  accepted : ∀ response, x.sender = .responding response ∨
    x.sender = .sending response → x.accepted = some response
  unaccepted : x.sender.mayRespond = false → x.accepted = none
  value : ∀ response, x.value = some response → x.MayGet response
  mayGet : x.parks = 1 → ∀ response ∈ x.answers, x.MayGet response

theorem Exchange.new_inv (method : String) : (Exchange.new method).Inv := by
  constructor <;> simp [Exchange.new, SenderPlace.pulled, SenderPlace.spent,
    ParkPhase.answers, SenderPlace.beforePark]

/-- What a step of one exchange keeps: the invariant, and what the queue and
`in_flight` see of it. -/
structure Exchange.Keeps (x x' : Exchange) : Prop where
  inv : x'.Inv
  queued : x'.sender = .queued ↔ x.sender = .queued
  counted : x'.sender.counted = x.sender.counted

section Exchange

variable {x x' : Exchange}

/-- The task moves; the sender stays where it is. -/
theorem Exchange.Inv.moveTask (hinv : x.Inv) {phase : ParkPhase}
    {receiver : Bool}
    (hbefore : phase.beforePark = true → x.sender.beforePark = true)
    (hreceiver : phase = .pushing ∨ phase = .parked → receiver = true)
    (hkept : receiver = true → x.receiver = true ∨ x.sender.spent = false)
    (hmayGet : x.parks = 1 → ∀ response ∈ phase.answers,
      x.MayGet response) :
    ({ x with
      phase := phase
      receiver := receiver
      answers := phase.answers } : Exchange).Inv where
  pulls := hinv.pulls
  uses := hinv.uses
  answers := rfl
  parks := hinv.parks
  phaseBefore := hbefore
  senderBefore := hinv.senderBefore
  receiver := hreceiver
  fresh := hinv.fresh
  received := by
    intro halive hspent
    rcases hkept halive with hbefore | hunspent
    · exact hinv.received hbefore hspent
    · exact absurd (hunspent.symm.trans hspent) Bool.false_ne_true
  accepted := hinv.accepted
  unaccepted := hinv.unaccepted
  value := hinv.value
  mayGet := hmayGet

/-- The sender moves, to a place that says the same of it. -/
theorem Exchange.Inv.moveSender (hinv : x.Inv) {place : SenderPlace}
    (hpulled : place.pulled = x.sender.pulled)
    (hspent : place.spent = x.sender.spent)
    (hphase : x.phase.beforePark = true → place.beforePark = true)
    (hbefore : place.beforePark = true → x.parks = 0)
    (haccepted : ∀ response, place = .responding response ∨
      place = .sending response → x.accepted = some response)
    (hmayRespond : place.mayRespond = false → x.sender.mayRespond = false) :
    ({ x with sender := place } : Exchange).Inv where
  pulls := by
    rw [hpulled]
    exact hinv.pulls
  uses := by
    rw [hspent]
    exact hinv.uses
  answers := hinv.answers
  parks := hinv.parks
  phaseBefore := hphase
  senderBefore := hbefore
  receiver := hinv.receiver
  fresh := by
    rw [hspent]
    exact hinv.fresh
  received := by
    rw [hspent]
    exact hinv.received
  accepted := haccepted
  unaccepted := fun hplace => hinv.unaccepted (hmayRespond hplace)
  value := hinv.value
  mayGet := hinv.mayGet

/-- The task ends with an answer. -/
theorem Exchange.Inv.end_task (hinv : x.Inv) (response : Response)
    (hmayGet : x.parks = 1 → x.MayGet response) :
    ({ x with
      phase := .answered response
      receiver := false
      answers := [response] } : Exchange).Inv := by
  apply hinv.moveTask
  · exact fun hbefore => absurd hbefore Bool.false_ne_true
  · rintro (hphase | hphase) <;> cases hphase
  · exact fun halive => absurd halive Bool.false_ne_true
  · intro hone other hother
    rw [List.mem_singleton.mp hother]
    exact hmayGet hone

/-- The answer of a task that is still running is its first. -/
theorem Exchange.Inv.answer (hinv : x.Inv) {response : Response}
    (hnone : x.phase.answers = [])
    (hmayGet : x.parks = 1 → x.MayGet response) :
    (x.answer response).Inv := by
  have hended := hinv.end_task response hmayGet
  have hempty : x.answers = [] := hinv.answers.trans hnone
  unfold Exchange.answer
  rw [hempty]
  exact hended

theorem Exchange.Inv.parks_of_beforePark (hinv : x.Inv)
    (hphase : x.phase.beforePark = true) : x.parks = 0 :=
  hinv.senderBefore (hinv.phaseBefore hphase)

/-- An answer that a request which has not been parked gets. -/
theorem Exchange.Inv.refuse (hinv : x.Inv)
    (hphase : x.phase.beforePark = true) (response : Response) :
    (x.answer response).Inv := by
  apply hinv.answer
  · cases hcase : x.phase <;> rw [hcase] at hphase <;>
      first | rfl | cases hphase
  · have hparks := hinv.parks_of_beforePark hphase
    exact fun hone => by omega

/-- The task moves on without an answer. -/
theorem Exchange.Inv.moveOn (hinv : x.Inv) {phase : ParkPhase}
    {receiver : Bool} (hrunning : x.phase.answers = [])
    (hquiet : phase.answers = [])
    (hbefore : phase.beforePark = true → x.sender.beforePark = true)
    (hreceiver : phase = .pushing ∨ phase = .parked → receiver = true)
    (hkept : receiver = true → x.receiver = true ∨ x.sender.spent = false) :
    ({ x with phase := phase, receiver := receiver } : Exchange).Inv := by
  have hmoved := hinv.moveTask hbefore hreceiver hkept
    fun _ response hmem => by
      rw [hquiet] at hmem
      exact absurd hmem List.not_mem_nil
  have hempty : x.answers = [] := hinv.answers.trans hrunning
  rw [hquiet, ← hempty] at hmoved
  exact hmoved

theorem SenderPlace.of_beforePark {place : SenderPlace}
    (hbefore : place.beforePark = true) :
    place = .none ∨ place = .pushing := by
  cases place <;> first | exact .inl rfl | exact .inr rfl | cases hbefore

/-! ### The task -/

theorem Exchange.Inv.checkDown (hinv : x.Inv) {down : Bool}
    (hstep : x.checkDown down = some x') : x.Keeps x' := by
  unfold Exchange.checkDown at hstep
  split at hstep
  · rename_i hphase
    have hbefore : x.phase.beforePark = true := by rw [hphase]; rfl
    cases hstep
    split_ifs
    · exact ⟨hinv.refuse hbefore retryLater, Iff.rfl, rfl⟩
    · refine ⟨hinv.moveOn (by rw [hphase]; rfl) rfl ?_ ?_ .inl, Iff.rfl, rfl⟩
      · exact fun _ => hinv.phaseBefore hbefore
      · rintro (h | h) <;> cases h
  · cases hstep

theorem Exchange.Inv.bodySlot (hinv : x.Inv) {acquired : Bool}
    (hstep : x.bodySlot acquired = some x') : x.Keeps x' := by
  unfold Exchange.bodySlot at hstep
  split at hstep
  · rename_i hphase
    have hbefore : x.phase.beforePark = true := by rw [hphase]; rfl
    cases hstep
    split_ifs
    · refine ⟨hinv.moveOn (by rw [hphase]; rfl) rfl ?_ ?_ .inl, Iff.rfl, rfl⟩
      · exact fun _ => hinv.phaseBefore hbefore
      · rintro (h | h) <;> cases h
    · exact ⟨hinv.refuse hbefore retryLater, Iff.rfl, rfl⟩
  · cases hstep

/-- The channel is made when the body has been read. -/
theorem Exchange.Inv.readBody (hinv : x.Inv) {refusal : Option ℕ}
    (hstep : x.readBody refusal = some x') : x.Keeps x' := by
  unfold Exchange.readBody at hstep
  split at hstep
  · rename_i hphase
    have hbefore : x.phase.beforePark = true := by rw [hphase]; rfl
    have hsender := hinv.phaseBefore hbefore
    have hparks := hinv.senderBefore hsender
    cases refusal with
    | some code =>
        cases hstep
        exact ⟨hinv.refuse hbefore (statusOnly code), Iff.rfl, rfl⟩
    | none =>
        cases hstep
        have hmoved : ({ x with sender := .pushing } : Exchange).Inv := by
          rcases SenderPlace.of_beforePark hsender with hplace | hplace <;>
            apply hinv.moveSender <;>
            simp [hplace, SenderPlace.pulled, SenderPlace.spent,
              SenderPlace.beforePark, SenderPlace.mayRespond, hparks]
        constructor
        · apply hmoved.moveOn
          · simp only [hphase, ParkPhase.answers]
          · rfl
          · exact fun _ => rfl
          · exact fun _ => rfl
          · exact fun _ => .inr rfl
        · rcases SenderPlace.of_beforePark hsender with hplace | hplace <;>
            simp [hplace]
        · rcases SenderPlace.of_beforePark hsender with hplace | hplace <;>
            simp [hplace, SenderPlace.counted]
  · cases hstep

theorem Exchange.Inv.refusePush (hinv : x.Inv)
    (hstep : x.refusePush = some x') : x.Keeps x' := by
  unfold Exchange.refusePush at hstep
  split at hstep
  · rename_i hphase
    have hbefore : x.phase.beforePark = true := by rw [hphase]; rfl
    have hsender := hinv.phaseBefore hbefore
    have hrefused := hinv.refuse hbefore retryLater
    cases hstep
    rcases SenderPlace.of_beforePark hsender with hplace | hplace
    all_goals
      refine ⟨hrefused.moveSender ?_ ?_ ?_ ?_ ?_ ?_, ?_, ?_⟩
      all_goals simp [Exchange.answer, hplace, SenderPlace.pulled,
        SenderPlace.spent, SenderPlace.beforePark, SenderPlace.counted,
        SenderPlace.mayRespond, ParkPhase.beforePark]
  · cases hstep

theorem Exchange.Inv.parked (hinv : x.Inv) (hphase : x.phase = .pushing) :
    x.parked.Inv := by
  have hbefore : x.phase.beforePark = true := by rw [hphase]; rfl
  have hsender := hinv.phaseBefore hbefore
  have hparks := hinv.senderBefore hsender
  have halive := hinv.receiver (.inl hphase)
  have hempty : x.answers = [] := by
    rw [hinv.answers, hphase]
    rfl
  have hplace : x.sender.pulled = false ∧ x.sender.spent = false := by
    rcases SenderPlace.of_beforePark hsender with hplace | hplace <;>
      rw [hplace] <;> exact ⟨rfl, rfl⟩
  constructor
  · have hpulls := hinv.pulls
    rw [hplace.1] at hpulls
    exact hpulls
  · have huses := hinv.uses
    rw [hplace.2] at huses
    exact huses
  · exact hempty
  · simp [Exchange.parked, hparks]
  · exact fun h => absurd h Bool.false_ne_true
  · exact fun h => absurd h Bool.false_ne_true
  · exact fun _ => halive
  · exact fun _ => hinv.fresh hplace.2
  · exact fun _ h => absurd h Bool.false_ne_true
  · rintro response (h | h) <;> cases h
  · have hplace : x.sender.mayRespond = false := by
      rcases SenderPlace.of_beforePark hsender with hplace | hplace <;>
        rw [hplace] <;> rfl
    exact fun _ => hinv.unaccepted hplace
  · exact hinv.value
  · intro _ response hmem
    simp only [Exchange.parked, hempty] at hmem
    exact absurd hmem List.not_mem_nil

theorem Exchange.Inv.poll (hinv : x.Inv) (hstep : x.poll = some x') :
    x.Keeps x' := by
  unfold Exchange.poll at hstep
  split at hstep
  · rename_i hphase
    have hrunning : x.phase.answers = [] := by rw [hphase]; rfl
    split at hstep
    · rename_i response hvalue
      cases hstep
      exact ⟨hinv.answer hrunning fun _ => hinv.value response hvalue,
        Iff.rfl, rfl⟩
    · split_ifs at hstep
      cases hstep
      exact ⟨hinv.answer hrunning fun _ => .inr (.inr (.inl rfl)),
        Iff.rfl, rfl⟩
  · cases hstep

theorem Exchange.Inv.timeout (hinv : x.Inv) (hstep : x.timeout = some x') :
    x.Keeps x' := by
  unfold Exchange.timeout at hstep
  split at hstep
  · rename_i hphase
    have hrunning : x.phase.answers = [] := by rw [hphase]; rfl
    cases hstep
    exact ⟨hinv.answer hrunning fun _ => .inr (.inr (.inr (.inr rfl))),
      Iff.rfl, rfl⟩
  · cases hstep

/-- A task that is dropped has answered nobody. -/
theorem Exchange.Inv.leave (hinv : x.Inv) (hrunning : x.phase.answers = []) :
    ({ x with phase := .gone, receiver := false } : Exchange).Inv := by
  apply hinv.moveOn hrunning rfl
  · exact fun h => absurd h Bool.false_ne_true
  · rintro (h | h) <;> cases h
  · exact fun h => absurd h Bool.false_ne_true

theorem Exchange.Inv.disconnect (hinv : x.Inv)
    (hstep : x.disconnect = some x') : x.Keeps x' := by
  unfold Exchange.disconnect at hstep
  split at hstep
  · rename_i hphase
    cases hstep
    exact ⟨hinv.leave (by rw [hphase]; rfl), Iff.rfl, rfl⟩
  · rename_i hphase
    cases hstep
    exact ⟨hinv.leave (by rw [hphase]; rfl), Iff.rfl, rfl⟩
  · rename_i hphase
    cases hstep
    exact ⟨hinv.leave (by rw [hphase]; rfl), Iff.rfl, rfl⟩
  · rename_i hphase
    have hsender := hinv.phaseBefore (by rw [hphase]; rfl)
    have hleft := hinv.leave (by rw [hphase]; rfl)
    cases hstep
    rcases SenderPlace.of_beforePark hsender with hplace | hplace
    all_goals
      refine ⟨hleft.moveSender ?_ ?_ ?_ ?_ ?_ ?_, ?_, ?_⟩
      all_goals simp [hplace, SenderPlace.pulled, SenderPlace.spent,
        SenderPlace.beforePark, SenderPlace.counted, SenderPlace.mayRespond,
        ParkPhase.beforePark]
  · cases hstep

/-! ### The sender -/

/-- The sender has left the task, and so has the task. -/
theorem Exchange.Inv.phase_not_before (hinv : x.Inv)
    (hsender : x.sender.beforePark = false) :
    x.phase.beforePark = true → False := by
  intro hbefore
  rw [hinv.phaseBefore hbefore] at hsender
  cases hsender

/-- A move of a sender that has left its task. -/
theorem Exchange.Inv.passOn (hinv : x.Inv) {place : SenderPlace}
    (hleft : x.sender.beforePark = false) (hleft' : place.beforePark = false)
    (hpulled : place.pulled = x.sender.pulled)
    (hspent : place.spent = x.sender.spent)
    (haccepted : ∀ response, place = .responding response ∨
      place = .sending response → x.accepted = some response)
    (hmayRespond : place.mayRespond = false → x.sender.mayRespond = false) :
    ({ x with sender := place } : Exchange).Inv := by
  apply hinv.moveSender hpulled hspent
  · exact fun hbefore => absurd hbefore (hinv.phase_not_before hleft)
  · exact fun hbefore => absurd (hleft'.symm.trans hbefore) Bool.false_ne_true
  · exact haccepted
  · exact hmayRespond

/-- The sender is used, for the first time. -/
theorem Exchange.Inv.useSender (hinv : x.Inv) {response : Response}
    {place : SenderPlace} (hleft : x.sender.beforePark = false)
    (hleft' : place.beforePark = false)
    (hpulled : place.pulled = x.sender.pulled)
    (hunspent : x.sender.spent = false) (hspent : place.spent = true)
    (haccepted : ∀ other, place ≠ .responding other ∧ place ≠ .sending other)
    (hmayRespond : place.mayRespond = false → x.sender.mayRespond = false)
    (hmayGet : x.MayGet response) : (x.useSender response place).Inv := by
  have hnone := hinv.fresh hunspent
  constructor
  · have hpulls := hinv.pulls
    simp only [Exchange.useSender, hpulled]
    exact hpulls
  · have huses := hinv.uses
    simp only [Exchange.useSender, hspent, huses, hunspent]
    rfl
  · exact hinv.answers
  · exact hinv.parks
  · exact fun hbefore => absurd hbefore (hinv.phase_not_before hleft)
  · exact fun hbefore =>
      absurd (hleft'.symm.trans hbefore) Bool.false_ne_true
  · exact hinv.receiver
  · exact fun hfresh => absurd (hfresh.symm.trans hspent) Bool.false_ne_true
  · intro halive _
    have hreceiver : x.receiver = true := halive
    simp [Exchange.useSender, hreceiver]
  · rintro other (hplace | hplace)
    · exact absurd hplace (haccepted other).1
    · exact absurd hplace (haccepted other).2
  · exact fun hplace => hinv.unaccepted (hmayRespond hplace)
  · intro other hvalue
    simp only [Exchange.useSender, hnone] at hvalue
    split_ifs at hvalue
    cases hvalue
    exact hmayGet
  · exact hinv.mayGet

theorem Exchange.Inv.prune (hinv : x.Inv) : x.prune.Inv := by
  unfold Exchange.prune
  split_ifs with hdead
  · have hplace := hdead.1
    apply hinv.passOn <;>
      simp [hplace, SenderPlace.beforePark, SenderPlace.pulled,
        SenderPlace.spent, SenderPlace.mayRespond]
  · exact hinv

theorem Exchange.prune_queued (x : Exchange) :
    x.prune.sender = .queued ↔ x.sender = .queued ∧ x.receiver = true := by
  unfold Exchange.prune
  split_ifs with hdead
  · simp [hdead.2]
  · constructor
    · intro hplace
      exact ⟨hplace, by simpa using fun h => hdead ⟨hplace, h⟩⟩
    · exact And.left

theorem Exchange.prune_counted (x : Exchange) :
    x.prune.sender.counted = x.sender.counted := by
  unfold Exchange.prune
  split_ifs with hdead
  · rw [hdead.1]
    rfl
  · rfl

theorem Exchange.Inv.drain (hinv : x.Inv) : x.drain.Inv := by
  unfold Exchange.drain
  split_ifs with hplace
  · apply hinv.passOn <;>
      simp [hplace, SenderPlace.beforePark, SenderPlace.pulled,
        SenderPlace.spent, SenderPlace.mayRespond]
  · exact hinv

theorem Exchange.drain_not_queued (x : Exchange) :
    x.drain.sender ≠ .queued := by
  unfold Exchange.drain
  split_ifs with hplace
  · exact fun h => by cases h
  · exact hplace

theorem Exchange.drain_counted (x : Exchange) :
    x.drain.sender.counted = x.sender.counted := by
  unfold Exchange.drain
  split_ifs with hplace
  · rw [hplace]
    rfl
  · rfl

theorem Exchange.Inv.take (hinv : x.Inv) (hplace : x.sender = .queued) :
    x.take.Inv := by
  have hleft : x.sender.beforePark = false := by rw [hplace]; rfl
  have hunspent : x.sender.spent = false := by rw [hplace]; rfl
  constructor
  · have hpulls := hinv.pulls
    rw [hplace] at hpulls
    simp only [Exchange.take, hpulls]
    rfl
  · have huses := hinv.uses
    rw [hunspent] at huses
    exact huses
  · exact hinv.answers
  · exact hinv.parks
  · exact fun hbefore => absurd hbefore (hinv.phase_not_before hleft)
  · exact fun hbefore => absurd hbefore Bool.false_ne_true
  · exact hinv.receiver
  · exact fun _ => hinv.fresh hunspent
  · exact fun _ hspent => absurd hspent Bool.false_ne_true
  · rintro other (h | h) <;> cases h
  · exact fun _ => hinv.unaccepted (by rw [hplace]; rfl)
  · exact hinv.value
  · exact hinv.mayGet

/-- The `Request` comes to be as `in_flight` counts it. -/
theorem Exchange.Inv.hold (hinv : x.Inv) (hstep : x.hold = some x') :
    x'.Inv ∧ x.sender = .taken ∧ x'.sender = .held := by
  unfold Exchange.hold at hstep
  split at hstep
  · rename_i hplace
    cases hstep
    refine ⟨?_, hplace, rfl⟩
    apply hinv.passOn <;>
      simp [hplace, SenderPlace.beforePark, SenderPlace.pulled,
        SenderPlace.spent, SenderPlace.mayRespond]
  · cases hstep

theorem Exchange.Inv.takeReply (hinv : x.Inv) {response : Response}
    (hstep : x.takeReply response = some x') : x.Keeps x' := by
  unfold Exchange.takeReply at hstep
  split at hstep
  · rename_i hplace
    have hleft : x.sender.beforePark = false := by rw [hplace]; rfl
    have hnone := hinv.fresh (by rw [hplace]; rfl)
    have hpulls := hinv.pulls
    have huses := hinv.uses
    rw [hplace] at hpulls huses
    cases hstep
    refine ⟨?_, by simp [hplace], by rw [hplace]; rfl⟩
    constructor
    · exact hpulls
    · exact huses
    · exact hinv.answers
    · exact hinv.parks
    · exact fun hbefore => absurd hbefore (hinv.phase_not_before hleft)
    · exact fun hbefore => absurd hbefore Bool.false_ne_true
    · exact hinv.receiver
    · exact fun _ => hnone
    · exact fun _ hspent => absurd hspent Bool.false_ne_true
    · rintro other (h | h) <;> cases h
      rfl
    · exact fun hplace => absurd hplace Bool.true_eq_false.mp
    · intro other hvalue
      rw [hnone] at hvalue
      cases hvalue
    · intro hone other hother
      have hnobody := hinv.unaccepted (by rw [hplace]; rfl)
      rcases hinv.mayGet hone other hother with hbefore | hfixed
      · rw [hnobody] at hbefore
        cases hbefore
      · exact .inr hfixed
  · cases hstep

theorem Exchange.Inv.free (hinv : x.Inv) (hstep : x.free = some x') :
    x.Keeps x' := by
  unfold Exchange.free at hstep
  split at hstep
  · rename_i hplace
    cases hstep
    refine ⟨?_, by simp [hplace], by rw [hplace]; rfl⟩
    apply hinv.passOn <;>
      simp [hplace, SenderPlace.beforePark, SenderPlace.pulled,
        SenderPlace.spent, SenderPlace.mayRespond]
  · cases hstep

/-- Each user of the sender has its own response for it. -/
theorem Exchange.Inv.send (hinv : x.Inv) (hstep : x.send = some x') :
    x.Keeps x' := by
  unfold Exchange.send at hstep
  split at hstep
  · rename_i response hplace
    cases hstep
    refine ⟨?_, by simp [hplace, Exchange.useSender], by rw [hplace]; rfl⟩
    refine hinv.useSender ?_ ?_ ?_ ?_ ?_ ?_ ?_
      (.inl (hinv.accepted response (.inr hplace)))
    all_goals simp [hplace, SenderPlace.beforePark, SenderPlace.pulled,
      SenderPlace.spent, SenderPlace.mayRespond]
  · rename_i hplace
    cases hstep
    refine ⟨?_, by simp [hplace, Exchange.useSender], by rw [hplace]; rfl⟩
    refine hinv.useSender ?_ ?_ ?_ ?_ ?_ ?_ ?_
      (.inr (.inl rfl))
    all_goals simp [hplace, SenderPlace.beforePark, SenderPlace.pulled,
      SenderPlace.spent, SenderPlace.mayRespond]
  · rename_i hplace
    cases hstep
    refine ⟨?_, by simp [hplace, Exchange.useSender], by rw [hplace]; rfl⟩
    refine hinv.useSender ?_ ?_ ?_ ?_ ?_ ?_ ?_
      (.inr (.inr (.inr (.inl rfl))))
    all_goals simp [hplace, SenderPlace.beforePark, SenderPlace.pulled,
      SenderPlace.spent, SenderPlace.mayRespond]
  · cases hstep

/-- The request leaves `in_flight`. -/
theorem Exchange.Inv.leaveInFlight (hinv : x.Inv)
    (hstep : x.leaveInFlight = some x') :
    x'.Inv ∧ (x'.sender = .queued ↔ x.sender = .queued) ∧
      x.sender.counted = true ∧ x'.sender.counted = false := by
  unfold Exchange.leaveInFlight at hstep
  split at hstep
  · rename_i response hplace
    cases hstep
    refine ⟨?_, by simp [hplace], by rw [hplace]; rfl, rfl⟩
    have haccepted := hinv.accepted response (.inl hplace)
    apply hinv.passOn <;>
      simp [hplace, SenderPlace.beforePark, SenderPlace.pulled,
        SenderPlace.spent, SenderPlace.mayRespond, haccepted]
  · rename_i hplace
    cases hstep
    refine ⟨?_, by simp [hplace], by rw [hplace]; rfl, rfl⟩
    apply hinv.passOn <;>
      simp [hplace, SenderPlace.beforePark, SenderPlace.pulled,
        SenderPlace.spent, SenderPlace.mayRespond]
  · cases hstep

end Exchange

end Httpd

end Rulisp
