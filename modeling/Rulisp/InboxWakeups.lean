import Rulisp.InboxLinearizability

/-!
# Wakeups of the inbox

A notification is issued after the lock was dropped, so a waiting thread and
a value for it can be there at once.  What covers the value then is a token:
a `notify_one` that is due, or a notified thread that has not taken the lock
again.  Every value has one while a receiver waits, every free slot while a
sender waits on an open inbox.
-/

namespace Rulisp

open TransitionSystem

variable {T : Type*} {n : ℕ}

/-! ## What is counted -/

/-- `not_empty.notify_one()` is due. -/
def InboxActivity.notifiesNotEmpty : InboxActivity T → Bool
  | .notifyingNotEmpty => true
  | _ => false

/-- `not_full.notify_one()` is due. -/
def InboxActivity.notifiesNotFull : InboxActivity T → Bool
  | .notifyingNotFull _ => true
  | _ => false

/-- Woken by a notification on `not_empty`, without the lock yet. -/
def InboxActivity.notifiedForValue : InboxActivity T → Bool
  | .receiving _ notified => notified
  | _ => false

/-- Woken by a notification on `not_full`, without the lock yet. -/
def InboxActivity.notifiedForRoom : InboxActivity T → Bool
  | .sending _ _ notified => notified
  | _ => false

def InboxConfig.count (config : InboxConfig n T)
    (which : InboxActivity T → Bool) : ℕ :=
  (Finset.univ.filter fun thread => which (config.threads thread) = true).card

/-- No wakeup is lost. -/
structure InboxConfig.WakeupsKept (config : InboxConfig n T) : Prop where
  values : ∀ receiver, (config.threads receiver).awaitsValue = true →
    config.state.queue.length ≤
      config.count InboxActivity.notifiesNotEmpty +
        config.count InboxActivity.notifiedForValue
  slots : config.state.closed = false →
    ∀ sender, (config.threads sender).awaitsRoom = true →
      config.capacity - config.state.queue.length ≤
        config.count InboxActivity.notifiesNotFull +
          config.count InboxActivity.notifiedForRoom

/-- No thread is in a wait that nothing has ended. -/
def InboxConfig.NoneAwaiting (config : InboxConfig n T) : Prop :=
  ∀ thread, (config.threads thread).awaitsValue = false ∧
    (config.threads thread).awaitsRoom = false

/-! ## Tokens -/

def InboxActivity.valueTokens (activity : InboxActivity T) : ℕ :=
  activity.notifiesNotEmpty.toNat + activity.notifiedForValue.toNat

def InboxActivity.roomTokens (activity : InboxActivity T) : ℕ :=
  activity.notifiesNotFull.toNat + activity.notifiedForRoom.toNat

theorem InboxConfig.count_eq_sum (config : InboxConfig n T)
    (which : InboxActivity T → Bool) :
    config.count which = ∑ thread, (which (config.threads thread)).toNat := by
  rw [InboxConfig.count, Finset.card_filter]
  apply Finset.sum_congr rfl
  intro thread _
  cases which (config.threads thread) <;> rfl

theorem InboxConfig.valueTokens_eq (config : InboxConfig n T) :
    (∑ thread, (config.threads thread).valueTokens) =
      config.count InboxActivity.notifiesNotEmpty +
        config.count InboxActivity.notifiedForValue := by
  rw [count_eq_sum, count_eq_sum, ← Finset.sum_add_distrib]
  rfl

theorem InboxConfig.roomTokens_eq (config : InboxConfig n T) :
    (∑ thread, (config.threads thread).roomTokens) =
      config.count InboxActivity.notifiesNotFull +
        config.count InboxActivity.notifiedForRoom := by
  rw [count_eq_sum, count_eq_sum, ← Finset.sum_add_distrib]
  rfl

theorem InboxActivity.awaitsValue_wakeForValue (activity : InboxActivity T) :
    activity.wakeForValue.awaitsValue = false := by
  cases activity <;> rfl

theorem InboxActivity.awaitsRoom_wakeForValue (activity : InboxActivity T) :
    activity.wakeForValue.awaitsRoom = activity.awaitsRoom := by
  cases activity <;> rfl

theorem InboxActivity.awaitsRoom_wakeForRoom (activity : InboxActivity T) :
    activity.wakeForRoom.awaitsRoom = false := by
  cases activity <;> rfl

theorem InboxActivity.awaitsValue_wakeForRoom (activity : InboxActivity T) :
    activity.wakeForRoom.awaitsValue = activity.awaitsValue := by
  cases activity <;> rfl

/-! ## What one step does to waits and tokens -/

/-- One thread goes on, by a lock-held section or without the lock. -/
structure InboxConfig.Turn (config : InboxConfig n T) (thread : Fin n)
    (state : InboxState T) (activity : InboxActivity T) : Prop where
  closed : config.state.closed = true → state.closed = true
  awaitsValue : activity.awaitsValue = true →
    state.queue = [] ∧ state.closed = false
  awaitsRoom : activity.awaitsRoom = true →
    config.capacity ≤ state.queue.length ∧ state.closed = false
  values : state.queue = [] ∨
    state.queue.length + (config.threads thread).valueTokens ≤
      config.state.queue.length + activity.valueTokens
  slots : state.closed = true ∨ config.capacity ≤ state.queue.length ∨
    config.state.queue.length + (config.threads thread).roomTokens ≤
      state.queue.length + activity.roomTokens
  closesNotEmpty : activity = .closeNotifyingNotEmpty → state.closed = true
  closesNotFull : activity ≠ .closeNotifyingNotFull

inductive InboxConfig.Change (config : InboxConfig n T) :
    InboxConfig n T → Prop
  | tick (now : ℕ) : config.Change { config with now := now }
  | turn (thread : Fin n) (state : InboxState T) (activity : InboxActivity T)
      (events : List (InboxEvent T)) (nextTicket : ℕ)
      (hturn : config.Turn thread state activity) :
      config.Change
        { config.advance thread state activity events with
          nextTicket := nextTicket }
  /-- `notify_one` on `not_empty`. -/
  | wokeReceiver (thread target : Fin n)
      (hthread : config.threads thread = .notifyingNotEmpty)
      (deadline : ℕ)
      (htarget : config.threads target = .awaitingValue deadline) :
      config.Change { config with
        threads := Function.update
          (Function.update config.threads target (.receiving deadline true))
          thread .idle }
  /-- `notify_one` on `not_full`. -/
  | wokeSender (thread target : Fin n) (value : T)
      (hthread : config.threads thread = .notifyingNotFull value)
      (op : SendOp T) (deadline : Option ℕ)
      (htarget : config.threads target = .awaitingRoom op deadline) :
      config.Change { config with
        threads := Function.update
          (Function.update config.threads target (.sending op deadline true))
          thread .idle }
  | noReceiver (thread : Fin n)
      (hthread : config.threads thread = .notifyingNotEmpty)
      (hnone : ∀ other, (config.threads other).awaitsValue = false) :
      config.Change (config.advance thread config.state .idle [])
  | noSender (thread : Fin n) (value : T)
      (hthread : config.threads thread = .notifyingNotFull value)
      (hnone : ∀ other, (config.threads other).awaitsRoom = false) :
      config.Change (config.advance thread config.state .idle [])
  | wokeReceivers (thread : Fin n)
      (hthread : config.threads thread = .closeNotifyingNotEmpty) :
      config.Change (config.notifyAll thread InboxActivity.wakeForValue
        .closeNotifyingNotFull)
  | wokeSenders (thread : Fin n)
      (hthread : config.threads thread = .closeNotifyingNotFull) :
      config.Change (config.notifyAll thread InboxActivity.wakeForRoom .idle)

namespace InboxConfig

variable {config next : InboxConfig n T}

theorem Change.advance {thread : Fin n} {state : InboxState T}
    {activity : InboxActivity T} (events : List (InboxEvent T))
    (hturn : config.Turn thread state activity) :
    config.Change (config.advance thread state activity events) :=
  .turn thread state activity events config.nextTicket hturn

/-- The queue stays as it is, and the thread neither waits nor holds a token
before or after. -/
theorem Turn.idle {thread : Fin n} {before activity : InboxActivity T}
    (hthread : config.threads thread = before)
    (hvalues : before.valueTokens = 0) (hslots : before.roomTokens = 0)
    (hvalue : activity.awaitsValue = false)
    (hroom : activity.awaitsRoom = false)
    (hclosing : activity ≠ .closeNotifyingNotEmpty)
    (hclosing' : activity ≠ .closeNotifyingNotFull) :
    config.Turn thread config.state activity where
  closed := id
  awaitsValue := by simp [hvalue]
  awaitsRoom := by simp [hroom]
  values := .inr (by rw [hthread, hvalues]; omega)
  slots := .inr (.inr (by rw [hthread, hslots]; omega))
  closesNotEmpty := fun h => absurd h hclosing
  closesNotFull := hclosing'

theorem notifyOne_change {thread : Fin n} {target : Option (Fin n)}
    (hstep : config.step (.notify thread target) = some next) :
    config.Change next := by
  simp only [step] at hstep
  cases hthread : config.threads thread with
  | notifyingNotEmpty =>
      simp only [hthread, notifyOne] at hstep
      cases target with
      | none =>
          simp only at hstep
          split at hstep
          · rename_i hnone
            cases hstep
            exact .noReceiver thread hthread hnone
          · cases hstep
      | some target =>
          simp only at hstep
          split at hstep
          · rename_i hwaits
            cases hstep
            cases htarget : config.threads target with
            | awaitingValue deadline =>
                exact .wokeReceiver thread target hthread deadline htarget
            | _ =>
                rw [htarget] at hwaits
                cases hwaits
          · cases hstep
  | notifyingNotFull value =>
      simp only [hthread, notifyOne] at hstep
      cases target with
      | none =>
          simp only at hstep
          split at hstep
          · rename_i hnone
            cases hstep
            exact .noSender thread value hthread hnone
          · cases hstep
      | some target =>
          simp only at hstep
          split at hstep
          · rename_i hwaits
            cases hstep
            cases htarget : config.threads target with
            | awaitingRoom op deadline =>
                exact .wokeSender thread target value hthread op deadline htarget
            | _ =>
                rw [htarget] at hwaits
                cases hwaits
          · cases hstep
  | closeNotifyingNotEmpty =>
      simp only [hthread] at hstep
      cases hstep
      exact .wokeReceivers thread hthread
  | closeNotifyingNotFull =>
      simp only [hthread] at hstep
      cases hstep
      exact .wokeSenders thread hthread
  | _ => simp [hthread] at hstep

theorem roomTokens_sending (op : SendOp T) (deadline : Option ℕ)
    (notified : Bool) :
    (InboxActivity.sending op deadline notified).roomTokens ≤ 1 := by
  cases notified with
  | false => exact Nat.zero_le 1
  | true => exact Nat.le_refl 1

theorem valueTokens_receiving (deadline : ℕ) (notified : Bool) :
    (InboxActivity.receiving deadline notified : InboxActivity T).valueTokens ≤
      1 := by
  cases notified with
  | false => exact Nat.zero_le 1
  | true => exact Nat.le_refl 1

/-- A new value brings the token that covers it, and a sender's own token is
the slot's that it fills. -/
theorem sent_turn {thread : Fin n} {value : T}
    (hopen : config.state.closed = false)
    (hvalues : (config.threads thread).valueTokens = 0)
    (hslots : (config.threads thread).roomTokens ≤ 1) :
    config.Turn thread
      { config.state with queue := config.state.queue ++ [value] }
      .notifyingNotEmpty where
  closed := fun hclosed => absurd hclosed (by simp [hopen])
  awaitsValue := fun h => by cases h
  awaitsRoom := fun h => by cases h
  values := by
    right
    have htokens : (InboxActivity.notifyingNotEmpty :
        InboxActivity T).valueTokens = 1 := rfl
    rw [hvalues, htokens]
    simp
  slots := by
    right; right
    rw [List.length_append, List.length_singleton]
    omega
  closesNotEmpty := fun h => by cases h
  closesNotFull := fun h => by cases h

/-- A sender that gives up on an open inbox saw it full, so that its token
covered no slot. -/
theorem refused_turn {thread : Fin n}
    (hvalues : (config.threads thread).valueTokens = 0)
    (hfull : config.state.closed = true ∨
      config.capacity ≤ config.state.queue.length) :
    config.Turn thread config.state .idle where
  closed := id
  awaitsValue := fun h => by cases h
  awaitsRoom := fun h => by cases h
  values := .inr (by omega)
  slots := hfull.imp_right .inl
  closesNotEmpty := fun h => by cases h
  closesNotFull := fun h => by cases h

theorem sendTimeout_change {thread : Fin n} {op : SendOp T}
    {deadline : Option ℕ} {notified : Bool}
    (hthread : config.threads thread = .sending op deadline notified) :
    config.Change (config.afterSend thread op (.awaitingRoom op deadline)
      (config.state.sendTimeout config.capacity op.value deadline
        config.now)) := by
  have hvalues : (config.threads thread).valueTokens = 0 := by
    rw [hthread]
    rfl
  have hslots : (config.threads thread).roomTokens ≤ 1 := by
    rw [hthread]
    exact roomTokens_sending op deadline notified
  have hwaiting : config.state.closed = false →
      config.capacity ≤ config.state.queue.length →
        config.Turn thread config.state (.awaitingRoom op deadline) :=
    fun hopen hfull =>
      { closed := id
        awaitsValue := fun h => by cases h
        awaitsRoom := fun _ => ⟨hfull, hopen⟩
        values := .inr (by omega)
        slots := .inr (.inl hfull)
        closesNotEmpty := fun h => by cases h
        closesNotFull := fun h => by cases h }
  unfold InboxState.sendTimeout
  split
  · rename_i hclosed
    exact .advance _ (refused_turn hvalues (.inl hclosed))
  · rename_i hopen
    rw [Bool.not_eq_true] at hopen
    split
    · exact .advance _ (sent_turn hopen hvalues hslots)
    · rename_i hfull
      rw [Nat.not_lt] at hfull
      split
      · exact .advance _ (hwaiting hopen hfull)
      · split
        · exact .advance _ (refused_turn hvalues (.inr hfull))
        · exact .advance _ (hwaiting hopen hfull)

theorem recv_change {thread : Fin n} {deadline : ℕ} {notified : Bool}
    (hthread : config.threads thread = .receiving deadline notified)
    (hstep : config.step (.lock thread) = some next) : config.Change next := by
  have hvalues : (config.threads thread).valueTokens ≤ 1 := by
    rw [hthread]
    exact valueTokens_receiving deadline notified
  have hslots : (config.threads thread).roomTokens = 0 := by
    rw [hthread]
    rfl
  simp only [step, hthread, InboxState.recv] at hstep
  cases hqueue : config.state.queue with
  | cons value rest =>
      simp only [hqueue, Option.some.injEq] at hstep
      subst hstep
      apply Change.advance
      have htokens : (InboxActivity.notifyingNotFull value).roomTokens = 1 := rfl
      exact
        { closed := id
          awaitsValue := fun h => by cases h
          awaitsRoom := fun h => by cases h
          values := .inr (by simp only [hqueue, List.length_cons]; omega)
          slots := .inr (.inr (by
            simp only [hqueue, List.length_cons, hslots, htokens]; omega))
          closesNotEmpty := fun h => by cases h
          closesNotFull := fun h => by cases h }
  | nil =>
      have hempty : ∀ activity : InboxActivity T,
          (activity.awaitsValue = true → config.state.closed = false) →
          activity.awaitsRoom = false → activity ≠ .closeNotifyingNotEmpty →
          activity ≠ .closeNotifyingNotFull →
            config.Turn thread config.state activity :=
        fun activity hvalue hroom hclosing hclosing' =>
          { closed := id
            awaitsValue := fun h => ⟨hqueue, hvalue h⟩
            awaitsRoom := by simp [hroom]
            values := .inl hqueue
            slots := .inr (.inr (by omega))
            closesNotEmpty := fun h => absurd h hclosing
            closesNotFull := hclosing' }
      by_cases hclosed : config.state.closed = true
      · simp only [hqueue, hclosed, if_true, Option.some.injEq] at hstep
        subst hstep
        exact .advance _ (hempty _ (fun h => by cases h) rfl (by simp) (by simp))
      · by_cases hexpired : config.now ≥ deadline
        · simp only [hqueue, if_neg hclosed, if_pos hexpired,
            Option.some.injEq] at hstep
          subst hstep
          exact .advance _
            (hempty _ (fun h => by cases h) rfl (by simp) (by simp))
        · simp only [hqueue, if_neg hclosed, if_neg hexpired,
            Option.some.injEq] at hstep
          subst hstep
          exact .advance _
            (hempty _ (fun _ => by simpa using hclosed) rfl (by simp) (by simp))

theorem lock_change {thread : Fin n}
    (hstep : config.step (.lock thread) = some next) : config.Change next := by
  cases hthread : config.threads thread with
  | trySending op =>
      simp only [step, hthread, Option.some.injEq] at hstep
      subst hstep
      rcases config.state.trySend_cases config.capacity op.value with
        ⟨hsent, hopen, -⟩ | ⟨error, hrefused, -⟩
      · rw [hsent]
        exact .advance _ (sent_turn hopen (by rw [hthread]; rfl)
          (by rw [hthread]; exact Nat.zero_le 1))
      · rw [hrefused]
        exact .advance _ (.idle hthread rfl rfl rfl rfl (by simp) (by simp))
  | sending op deadline notified =>
      simp only [step, hthread, Option.some.injEq] at hstep
      subst hstep
      exact sendTimeout_change hthread
  | receiving deadline notified => exact recv_change hthread hstep
  | closing =>
      simp only [step, hthread, Option.some.injEq] at hstep
      subst hstep
      apply Change.advance
      exact
        { closed := fun _ => rfl
          awaitsValue := fun h => by cases h
          awaitsRoom := fun h => by cases h
          values := .inr (by rw [hthread]; exact Nat.le_refl _)
          slots := .inl rfl
          closesNotEmpty := fun _ => rfl
          closesNotFull := fun h => by cases h }
  | _ => simp [step, hthread] at hstep

theorem step_change {action : InboxAction n T}
    (hstep : config.step action = some next) : config.Change next := by
  cases action with
  | tick elapsed =>
      simp only [step, Option.some.injEq] at hstep
      subst hstep
      exact .tick _
  | trySend thread value =>
      simp only [step] at hstep
      split at hstep
      · rename_i hthread
        cases hstep
        exact .turn _ _ _ _ _ (.idle hthread rfl rfl rfl rfl (by simp) (by simp))
      · cases hstep
  | sendTimeout thread value timeout =>
      simp only [step] at hstep
      split at hstep
      · rename_i hthread
        cases hstep
        exact .turn _ _ _ _ _ (.idle hthread rfl rfl rfl rfl (by simp) (by simp))
      · cases hstep
  | recv thread waitMs =>
      simp only [step] at hstep
      split at hstep
      · rename_i hthread
        cases hstep
        exact .advance _ (.idle hthread rfl rfl rfl rfl (by simp) (by simp))
      · cases hstep
  | close thread =>
      simp only [step] at hstep
      split at hstep
      · rename_i hthread
        cases hstep
        exact .advance _ (.idle hthread rfl rfl rfl rfl (by simp) (by simp))
      · cases hstep
  | lock thread => exact lock_change hstep
  | wake thread =>
      simp only [step] at hstep
      split at hstep
      · rename_i hthread
        cases hstep
        exact .advance _ (.idle hthread rfl rfl rfl rfl (by simp) (by simp))
      · rename_i hthread
        cases hstep
        exact .advance _ (.idle hthread rfl rfl rfl rfl (by simp) (by simp))
      · cases hstep
  | notify thread target => exact notifyOne_change hstep

/-! ## The invariant -/

structure WakeupInvariant (config : InboxConfig n T) : Prop where
  values : ∀ receiver, (config.threads receiver).awaitsValue = true →
    config.state.queue.length ≤
      ∑ thread, (config.threads thread).valueTokens
  slots : config.state.closed = false →
    ∀ sender, (config.threads sender).awaitsRoom = true →
      config.capacity ≤ config.state.queue.length +
        ∑ thread, (config.threads thread).roomTokens
  closing : ∀ thread, config.threads thread = .closeNotifyingNotEmpty →
    config.state.closed = true
  closingNotFull : ∀ thread, config.threads thread = .closeNotifyingNotFull →
    config.state.closed = true ∧
      ∀ other, (config.threads other).awaitsValue = false

/-- An entry of the threads after one of them went on. -/
theorem update_cases (property : InboxActivity T → Prop)
    {threads : Fin n → InboxActivity T} {thread other : Fin n}
    {activity : InboxActivity T}
    (hproperty : property (Function.update threads thread activity other)) :
    (other = thread ∧ property activity) ∨ property (threads other) := by
  by_cases hother : other = thread
  · subst hother
    rw [Function.update_self] at hproperty
    exact .inl ⟨rfl, hproperty⟩
  · rw [Function.update_of_ne hother] at hproperty
    exact .inr hproperty

/-- A receiver that starts to wait saw an open inbox. -/
theorem Turn.awaitsValue_false {thread : Fin n} {state : InboxState T}
    {activity : InboxActivity T} (hturn : config.Turn thread state activity)
    (hclosed : state.closed = true) : activity.awaitsValue = false := by
  rw [Bool.eq_false_iff]
  intro hawaits
  rw [(hturn.awaitsValue hawaits).2] at hclosed
  cases hclosed

namespace WakeupInvariant

theorem afterTurn (hinv : config.WakeupInvariant) {thread : Fin n}
    {state : InboxState T} {activity : InboxActivity T}
    (events : List (InboxEvent T)) (nextTicket : ℕ)
    (hturn : config.Turn thread state activity) :
    WakeupInvariant
      { config.advance thread state activity events with
        nextTicket := nextTicket } := by
  have hvalueTokens := sum_update_add InboxActivity.valueTokens
    config.threads thread activity
  have hroomTokens := sum_update_add InboxActivity.roomTokens
    config.threads thread activity
  constructor
  · intro receiver hreceiver
    simp only [advance] at hreceiver ⊢
    rcases hturn.values with hempty | htokens
    · rw [hempty]
      exact Nat.zero_le _
    · rcases update_cases (fun activity => activity.awaitsValue = true)
        hreceiver with
        ⟨rfl, hnew⟩ | hold
      · rw [(hturn.awaitsValue hnew).1]
        exact Nat.zero_le _
      · have hbound := hinv.values receiver hold
        omega
  · intro hopen sender hsender
    simp only [advance] at hopen hsender ⊢
    rcases hturn.slots with hclosed | hfull | htokens
    · rw [hopen] at hclosed
      cases hclosed
    · exact Nat.le_add_right_of_le hfull
    · rcases update_cases (fun activity => activity.awaitsRoom = true)
        hsender with
        ⟨rfl, hnew⟩ | hold
      · exact Nat.le_add_right_of_le (hturn.awaitsRoom hnew).1
      · have hopen' : config.state.closed = false := by
          rw [Bool.eq_false_iff]
          intro hclosed
          rw [hturn.closed hclosed] at hopen
          cases hopen
        have hbound := hinv.slots hopen' sender hold
        omega
  · intro other hother
    simp only [advance] at hother ⊢
    rcases update_cases (fun activity => activity = .closeNotifyingNotEmpty)
        hother with ⟨-, hnew⟩ | hold
    · exact hturn.closesNotEmpty hnew
    · exact hturn.closed (hinv.closing other hold)
  · intro other hother
    simp only [advance] at hother ⊢
    rcases update_cases (fun activity => activity = .closeNotifyingNotFull)
        hother with ⟨-, hnew⟩ | hold
    · exact absurd hnew hturn.closesNotFull
    · obtain ⟨hclosed, hnone⟩ := hinv.closingNotFull other hold
      refine ⟨hturn.closed hclosed, fun receiver => ?_⟩
      by_cases hreceiver : receiver = thread
      · rw [hreceiver, Function.update_self]
        exact hturn.awaitsValue_false (hturn.closed hclosed)
      · rw [Function.update_of_ne hreceiver]
        exact hnone receiver

/-- Notifications change threads only. -/
theorem afterNotify (hinv : config.WakeupInvariant)
    {threads : Fin n → InboxActivity T}
    (hvalues : ∀ receiver, (threads receiver).awaitsValue = true →
      (config.threads receiver).awaitsValue = true ∧
        ∑ thread, (config.threads thread).valueTokens ≤
          ∑ thread, (threads thread).valueTokens)
    (hslots : config.state.closed = false → ∀ sender,
      (threads sender).awaitsRoom = true →
        (config.threads sender).awaitsRoom = true ∧
          ∑ thread, (config.threads thread).roomTokens ≤
            ∑ thread, (threads thread).roomTokens)
    (hclosing : ∀ thread, threads thread = .closeNotifyingNotEmpty →
      config.threads thread = .closeNotifyingNotEmpty)
    (hclosing' : ∀ thread, threads thread = .closeNotifyingNotFull →
      config.state.closed = true ∧
        ∀ other, (config.threads other).awaitsValue = true →
          (threads other).awaitsValue = false) :
    WakeupInvariant { config with threads := threads } where
  values := by
    intro receiver hreceiver
    obtain ⟨hbefore, htokens⟩ := hvalues receiver hreceiver
    exact (hinv.values receiver hbefore).trans htokens
  slots := by
    intro hopen sender hsender
    obtain ⟨hbefore, htokens⟩ := hslots hopen sender hsender
    have hbound := hinv.slots hopen sender hbefore
    exact hbound.trans (Nat.add_le_add_left htokens _)
  closing := fun thread hthread => hinv.closing thread (hclosing thread hthread)
  closingNotFull := by
    intro thread hthread
    obtain ⟨hclosed, hwoken⟩ := hclosing' thread hthread
    refine ⟨hclosed, fun other => ?_⟩
    rw [Bool.eq_false_iff]
    intro hawaits
    rw [hwoken other (hvalues other hawaits).1] at hawaits
    cases hawaits

/-- `notify_one` passes the token of the due notification to the thread that
it wakes. -/
theorem afterWake (hinv : config.WakeupInvariant) (woken : InboxActivity T)
    {thread target : Fin n} {before waiting : InboxActivity T}
    (hthread : config.threads thread = before)
    (htarget : config.threads target = waiting) (hne : target ≠ thread)
    (hvalues : woken.valueTokens = waiting.valueTokens + before.valueTokens)
    (hslots : woken.roomTokens = waiting.roomTokens + before.roomTokens)
    (hvalue : woken.awaitsValue = false) (hroom : woken.awaitsRoom = false)
    (hclosing : woken ≠ .closeNotifyingNotEmpty)
    (hclosing' : woken ≠ .closeNotifyingNotFull) :
    WakeupInvariant { config with
      threads := Function.update (Function.update config.threads target woken)
        thread .idle } := by
  have hupdated : Function.update config.threads target woken thread =
      before := by
    rw [Function.update_of_ne hne.symm, hthread]
  have hpassed : ∀ weight : InboxActivity T → ℕ, weight .idle = 0 →
      weight woken = weight waiting + weight before →
        ∑ other, weight (Function.update
          (Function.update config.threads target woken) thread .idle other) =
            ∑ other, weight (config.threads other) := by
    intro weight hidle hweight
    have hfirst := sum_update_add weight config.threads target woken
    have hsecond := sum_update_add weight
      (Function.update config.threads target woken) thread .idle
    rw [htarget] at hfirst
    rw [hupdated, hidle] at hsecond
    omega
  have hkept : ∀ other (property : InboxActivity T → Prop),
      ¬property .idle → ¬property woken →
      property (Function.update (Function.update config.threads target woken)
        thread .idle other) → property (config.threads other) := by
    intro other property hidle hwoken hproperty
    rcases update_cases property hproperty with ⟨-, hnew⟩ | hold
    · exact absurd hnew hidle
    · rcases update_cases property hold with ⟨-, hnew⟩ | hold
      · exact absurd hnew hwoken
      · exact hold
  apply hinv.afterNotify
  · intro receiver hreceiver
    exact ⟨hkept receiver (fun activity => activity.awaitsValue = true)
      (by simp [InboxActivity.awaitsValue]) (by simp [hvalue]) hreceiver,
      (hpassed _ rfl hvalues).ge⟩
  · intro _ sender hsender
    exact ⟨hkept sender (fun activity => activity.awaitsRoom = true)
      (by simp [InboxActivity.awaitsRoom]) (by simp [hroom]) hsender,
      (hpassed _ rfl hslots).ge⟩
  · exact fun other hother =>
      hkept other (· = .closeNotifyingNotEmpty) (by simp) hclosing hother
  · intro other hother
    have hbefore :=
      hkept other (· = .closeNotifyingNotFull) (by simp) hclosing' hother
    obtain ⟨hclosed, hnone⟩ := hinv.closingNotFull other hbefore
    refine ⟨hclosed, fun receiver hreceiver => ?_⟩
    rw [hnone receiver] at hreceiver
    cases hreceiver

/-- `notify_one` finds nobody waiting, and its token is dropped. -/
theorem afterDrop (hinv : config.WakeupInvariant) {thread : Fin n}
    {before : InboxActivity T} (hthread : config.threads thread = before)
    (hvalues : before.valueTokens = 0 ∨
      ∀ other, (config.threads other).awaitsValue = false)
    (hslots : before.roomTokens = 0 ∨
      ∀ other, (config.threads other).awaitsRoom = false) :
    WakeupInvariant (config.advance thread config.state .idle []) := by
  have hidle : ∀ (other : Fin n) (property : InboxActivity T → Prop),
      ¬property .idle →
      property (Function.update config.threads thread .idle other) →
        property (config.threads other) := by
    intro other property hno hproperty
    rcases update_cases property hproperty with ⟨-, hnew⟩ | hold
    · exact absurd hnew hno
    · exact hold
  have hvalueTokens := sum_update_add InboxActivity.valueTokens config.threads
    thread .idle
  have hroomTokens := sum_update_add InboxActivity.roomTokens config.threads
    thread .idle
  rw [hthread] at hvalueTokens hroomTokens
  have hadvance : config.advance thread config.state .idle [] =
      { config with threads := Function.update config.threads thread .idle } := by
    simp [advance]
  rw [hadvance]
  apply hinv.afterNotify
  · intro receiver hreceiver
    have hbefore := hidle receiver
      (fun activity => activity.awaitsValue = true)
      (by simp [InboxActivity.awaitsValue]) hreceiver
    refine ⟨hbefore, ?_⟩
    rcases hvalues with hzero | hnone
    · omega
    · rw [hnone receiver] at hbefore
      cases hbefore
  · intro _ sender hsender
    have hbefore := hidle sender
      (fun activity => activity.awaitsRoom = true)
      (by simp [InboxActivity.awaitsRoom]) hsender
    refine ⟨hbefore, ?_⟩
    rcases hslots with hzero | hnone
    · omega
    · rw [hnone sender] at hbefore
      cases hbefore
  · exact fun other hother =>
      hidle other (· = .closeNotifyingNotEmpty) (by simp) hother
  · intro other hother
    have hbefore := hidle other (· = .closeNotifyingNotFull) (by simp) hother
    obtain ⟨hclosed, hnone⟩ := hinv.closingNotFull other hbefore
    refine ⟨hclosed, fun receiver hreceiver => ?_⟩
    rw [hnone receiver] at hreceiver
    cases hreceiver

/-- `notify_all` on `not_empty`, by a `close`. -/
theorem afterWakeReceivers (hinv : config.WakeupInvariant) {thread : Fin n}
    (hthread : config.threads thread = .closeNotifyingNotEmpty) :
    WakeupInvariant (config.notifyAll thread InboxActivity.wakeForValue
      .closeNotifyingNotFull) := by
  have hclosed := hinv.closing thread hthread
  have hnone : ∀ other, (Function.update
      (fun other => (config.threads other).wakeForValue) thread
      .closeNotifyingNotFull other).awaitsValue = false := by
    intro other
    by_cases hother : other = thread
    · rw [hother, Function.update_self]
      rfl
    · rw [Function.update_of_ne hother]
      exact InboxActivity.awaitsValue_wakeForValue _
  constructor
  · intro receiver hreceiver
    exact absurd hreceiver (by simp [notifyAll, hnone receiver])
  · intro hopen
    exact absurd hopen (by simp [notifyAll, hclosed])
  · exact fun _ _ => hclosed
  · exact fun _ _ => ⟨hclosed, hnone⟩

/-- `notify_all` on `not_full`, the last step of a `close`. -/
theorem afterWakeSenders (hinv : config.WakeupInvariant) {thread : Fin n}
    (hthread : config.threads thread = .closeNotifyingNotFull) :
    WakeupInvariant
        (config.notifyAll thread InboxActivity.wakeForRoom .idle) ∧
      (config.notifyAll thread InboxActivity.wakeForRoom .idle).state.closed =
        true ∧
      (config.notifyAll thread InboxActivity.wakeForRoom .idle).NoneAwaiting := by
  obtain ⟨hclosed, hbefore⟩ := hinv.closingNotFull thread hthread
  have hnone : (config.notifyAll thread InboxActivity.wakeForRoom
      .idle).NoneAwaiting := by
    intro other
    by_cases hother : other = thread
    · simp only [notifyAll, hother, Function.update_self]
      exact ⟨rfl, rfl⟩
    · simp only [notifyAll, Function.update_of_ne hother]
      exact ⟨(InboxActivity.awaitsValue_wakeForRoom _).trans (hbefore other),
        InboxActivity.awaitsRoom_wakeForRoom _⟩
  refine ⟨⟨?_, ?_, fun _ _ => hclosed, ?_⟩, hclosed, hnone⟩
  · intro receiver hreceiver
    rw [(hnone receiver).1] at hreceiver
    cases hreceiver
  · intro hopen
    exact absurd hopen (by simp [notifyAll, hclosed])
  · exact fun _ _ => ⟨hclosed, fun other => (hnone other).1⟩

theorem afterChange (hinv : config.WakeupInvariant)
    (hchange : config.Change next) : next.WakeupInvariant := by
  cases hchange with
  | tick now => exact ⟨hinv.values, hinv.slots, hinv.closing, hinv.closingNotFull⟩
  | turn thread state activity events nextTicket hturn =>
      exact hinv.afterTurn events nextTicket hturn
  | wokeReceiver thread target hthread deadline htarget =>
      refine hinv.afterWake (.receiving deadline true) hthread htarget ?_ rfl rfl
        rfl rfl (by simp) (by simp)
      rintro rfl
      rw [hthread] at htarget
      cases htarget
  | wokeSender thread target value hthread op deadline htarget =>
      refine hinv.afterWake (.sending op deadline true) hthread htarget ?_ rfl rfl
        rfl rfl (by simp) (by simp)
      rintro rfl
      rw [hthread] at htarget
      cases htarget
  | noReceiver thread hthread hnone =>
      exact hinv.afterDrop hthread (.inr hnone) (.inl rfl)
  | noSender thread value hthread hnone =>
      exact hinv.afterDrop hthread (.inl rfl) (.inr hnone)
  | wokeReceivers thread hthread => exact hinv.afterWakeReceivers hthread
  | wokeSenders thread hthread => exact (hinv.afterWakeSenders hthread).1

theorem wakeupsKept (hinv : config.WakeupInvariant) : config.WakeupsKept where
  values := by
    intro receiver hreceiver
    rw [← valueTokens_eq]
    exact hinv.values receiver hreceiver
  slots := by
    intro hopen sender hsender
    have hbound := hinv.slots hopen sender hsender
    rw [← roomTokens_eq]
    omega

end WakeupInvariant

theorem new_wakeupInvariant (capacity instantLimit : ℕ) :
    (new n T capacity instantLimit).WakeupInvariant := by
  constructor <;> simp [new, InboxActivity.awaitsValue,
    InboxActivity.awaitsRoom]

/-! ## After a close -/

/-- Nobody starts to wait on a closed inbox. -/
theorem Change.noneAwaiting (hchange : config.Change next)
    (hclosed : config.state.closed = true) (hnone : config.NoneAwaiting) :
    next.state.closed = true ∧ next.NoneAwaiting := by
  have hupdate : ∀ {threads : Fin n → InboxActivity T} {thread : Fin n}
      {activity : InboxActivity T},
      (∀ other, (threads other).awaitsValue = false ∧
        (threads other).awaitsRoom = false) →
      activity.awaitsValue = false → activity.awaitsRoom = false →
        ∀ other,
          (Function.update threads thread activity other).awaitsValue = false ∧
            (Function.update threads thread activity other).awaitsRoom =
              false := by
    intro threads thread activity hthreads hvalue hroom other
    by_cases hother : other = thread
    · rw [hother, Function.update_self]
      exact ⟨hvalue, hroom⟩
    · rw [Function.update_of_ne hother]
      exact hthreads other
  cases hchange with
  | tick now => exact ⟨hclosed, hnone⟩
  | turn thread state activity events nextTicket hturn =>
      have hclosed' := hturn.closed hclosed
      refine ⟨hclosed', hupdate hnone (hturn.awaitsValue_false hclosed') ?_⟩
      rw [Bool.eq_false_iff]
      intro hawaits
      rw [(hturn.awaitsRoom hawaits).2] at hclosed'
      cases hclosed'
  | wokeReceiver thread target hthread deadline htarget =>
      exact ⟨hclosed, hupdate (hupdate hnone rfl rfl) rfl rfl⟩
  | wokeSender thread target value hthread op deadline htarget =>
      exact ⟨hclosed, hupdate (hupdate hnone rfl rfl) rfl rfl⟩
  | noReceiver thread hthread _ => exact ⟨hclosed, hupdate hnone rfl rfl⟩
  | noSender thread value hthread _ => exact ⟨hclosed, hupdate hnone rfl rfl⟩
  | wokeReceivers thread hthread =>
      refine ⟨hclosed, hupdate (fun other => ?_) rfl rfl⟩
      exact ⟨InboxActivity.awaitsValue_wakeForValue _,
        (InboxActivity.awaitsRoom_wakeForValue _).trans (hnone other).2⟩
  | wokeSenders thread hthread =>
      refine ⟨hclosed, hupdate (fun other => ?_) rfl rfl⟩
      exact ⟨(InboxActivity.awaitsValue_wakeForRoom _).trans (hnone other).1,
        InboxActivity.awaitsRoom_wakeForRoom _⟩

end InboxConfig

/-- In every reachable state wakeups are kept, and once a `close` has
returned no thread is left waiting, whatever runs after it. -/
theorem inbox_wakeups (capacity instantLimit : ℕ)
    {config : InboxConfig n T}
    (hreach : (inboxSystem n T).Reaches
      (.new n T capacity instantLimit) config) :
    config.WakeupsKept ∧
      ∀ closer target returned later,
        config.threads closer = .closeNotifyingNotFull →
        config.step (.notify closer target) = some returned →
        (inboxSystem n T).Reaches returned later → later.NoneAwaiting := by
  have hinv : config.WakeupInvariant :=
    hreach.invariant
      (fun _ _ _ hinv hstep => hinv.afterChange (InboxConfig.step_change hstep))
      (InboxConfig.new_wakeupInvariant capacity instantLimit)
  refine ⟨hinv.wakeupsKept, ?_⟩
  intro closer target returned later hcloser hstep hlater
  simp only [InboxConfig.step, hcloser, Option.some.injEq] at hstep
  subst hstep
  obtain ⟨-, hclosed, hnone⟩ := hinv.afterWakeSenders hcloser
  have hquiet : ∀ (config : InboxConfig n T) action next,
      config.state.closed = true ∧ config.NoneAwaiting →
      (inboxSystem n T).step config action = some next →
        next.state.closed = true ∧ next.NoneAwaiting :=
    fun _ _ _ hquiet hstep =>
      (InboxConfig.step_change hstep).noneAwaiting hquiet.1 hquiet.2
  exact (hlater.invariant hquiet ⟨hclosed, hnone⟩).2

/-- A receiver waits, and the value sent to it is covered by the notification
that the sender has yet to issue. -/
theorem inbox_wakeups_due :
    ∃ config,
      (inboxSystem 2 ℕ).run (.new 2 ℕ 1 1000)
        [.recv 0 60, .lock 0, .trySend 1 7, .lock 1] = some config ∧
      config.WakeupsKept ∧
      (config.threads 0).awaitsValue = true ∧ config.state.queue = [7] ∧
      config.count InboxActivity.notifiesNotEmpty = 1 := by
  refine ⟨_, rfl, (inbox_wakeups 1 1000
    ⟨[.recv 0 60, .lock 0, .trySend 1 7, .lock 1], rfl⟩).1, rfl, rfl, ?_⟩
  decide

end Rulisp
