import Rulisp.FetchReassembly
import Rulisp.ListEntries

/-!
# Publication of finished requests

A client of `fetch`: its admission permits, its count of requests in flight,
its ready queue, and its requests, each with its own steps.  Observers ask
from any thread; an observation is recorded with whether the request it found
finished had returned its permit, left `in_flight` and set its flag by then.
-/

namespace Rulisp

namespace Fetch

open TransitionSystem ListEntries

/-! ## The client -/

/-- How an observer learns that a request has finished. -/
inductive Channel
  | settled
  | done
  | wait
  | nextReady
  deriving DecidableEq, Repr

structure Observation where
  request : ℕ
  channel : Channel
  published : Bool
  deriving DecidableEq, Repr

/-- `ClientInner`.  Requests are told apart by the order in which they were
admitted; an entry of `ready` is the id of the request that pushed it. -/
structure Client where
  queueChunks : ℕ
  admission : ℕ
  inFlight : ℕ
  down : Bool
  running : Bool
  nextId : ℕ
  ready : List ℕ
  requests : List Request
  observations : List Observation
  deriving DecidableEq, Repr

def Client.new (maxInFlight queueChunks : ℕ) : Client where
  queueChunks := queueChunks
  admission := maxInFlight
  inFlight := 0
  down := false
  running := true
  nextId := 1
  ready := []
  requests := []
  observations := []

/-- `READY_CAP`. -/
def readyCap : ℕ := 4096

/-- `ReadyQ::push`. -/
def pushReady (ids : List ℕ) (id : ℕ) : List ℕ :=
  (if readyCap ≤ ids.length then ids.drop 1 else ids) ++ [id]

inductive ClientAction
  | start (sink : Bool) (maxBodyBytes : ℕ)
  | request (index : ℕ) (action : RequestAction)
  | storeDown
  | takeRuntime
  | settled (index : ℕ)
  | done (index : ℕ)
  | wait (index : ℕ)
  | nextReady
  deriving DecidableEq, Repr

/-- The permit of the request is back, `in_flight` no longer counts it, and
its flag is set. -/
def Request.published (r : Request) : Bool :=
  !r.phase.holdsPermit && !r.phase.counted && r.st.settled

section Steps

variable (client : Client)

/-- `Req::start` as far as the admission of the request. -/
def Client.start (sink : Bool) (maxBodyBytes : ℕ) :
    Except HttpError Client :=
  if client.down then .error (.usage "client is shut down")
  else if client.admission = 0 then
    .error (.busy "too many requests in flight")
  else .ok { client with
    admission := client.admission - 1
    requests := client.requests ++
      [.start client.queueChunks sink maxBodyBytes] }

/-- What a step of a request needs of its client. -/
def Client.enables : RequestAction → Bool
  | .identify id => id = client.nextId
  | .spawn => client.running
  | .runtimeGone => !client.running
  | _ => true

/-- What a step of a request does to its client. -/
def Client.account (index : ℕ) : RequestAction → Client
  | .identify _ => { client with nextId := client.nextId + 1 }
  | .spawn => { client with inFlight := client.inFlight + 1 }
  | .addPermit => { client with admission := client.admission + 1 }
  | .decrement => { client with inFlight := client.inFlight - 1 }
  | .pushReady => { client with ready := pushReady client.ready index }
  | _ => client

def Client.stepRequest (index : ℕ) (action : RequestAction) :
    Option Client :=
  match client.requests[index]? with
  | none => none
  | some r =>
      match r.step action with
      | none => none
      | some r' =>
          if client.enables action then
            some { client.account index action with
              requests := client.requests.set index r' }
          else none

/-- An observer is told by `channel` whether the request has finished. -/
def Client.observe (index : ℕ) (channel : Channel)
    (finished : Request → Bool) : Option Client :=
  match client.requests[index]? with
  | none => none
  | some r =>
      if finished r then
        some { client with
          observations := client.observations ++
            [⟨index, channel, r.published⟩] }
      else some client

/-- `ReadyQ::pop`, once it has waited or need not. -/
def Client.nextReady : Option Client :=
  match client.ready with
  | [] => some client
  | index :: ready =>
      match client.requests[index]? with
      | none => none
      | some r =>
          some { client with
            ready := ready
            observations := client.observations ++
              [⟨index, .nextReady, r.published⟩] }

def Client.step : ClientAction → Option Client
  | .start sink maxBodyBytes =>
      match client.start sink maxBodyBytes with
      | .ok started => some started
      | .error _ => some client
  | .request index action => client.stepRequest index action
  | .storeDown => some { client with down := true }
  | .takeRuntime => some { client with running := false }
  | .settled index => client.observe index .settled fun r => r.st.settled
  | .done index => client.observe index .done fun r => r.st.done
  | .wait index => client.observe index .wait fun r => r.st.settled
  | .nextReady => client.nextReady

end Steps

def clientSystem : System Client ClientAction where
  step := Client.step

/-! ## When an observer looks too early -/

/-- The error branch has settled the request, and the guard has not yet
taken it out of `in_flight`. -/
def TaskPhase.settledEarly : TaskPhase → Bool
  | .leaving failed | .dropping failed _ | .released failed _ => failed
  | _ => false

/-- The guard has posted the request to the ready queue and not yet settled
it, nor has the error branch. -/
def TaskPhase.postedEarly : TaskPhase → Bool
  | .pushed failed _ => !failed
  | _ => false

/-- The task has posted the request to the ready queue. -/
def TaskPhase.posted : TaskPhase → Bool
  | .pushed _ _ | .finished => true
  | _ => false

/-- No observer looks at a request between the two accesses of its task that
are in the wrong order. -/
def Timely (client : Client) : ClientAction → Prop
  | .settled index | .wait index =>
      ∀ r ∈ client.requests[index]?, r.phase.settledEarly = false
  | .done index =>
      ∀ r ∈ client.requests[index]?, r.phase.settledEarly = true →
        r.st.chunks ≠ []
  | .nextReady =>
      ∀ index ∈ client.ready.head?, ∀ r ∈ client.requests[index]?,
        r.phase.postedEarly = false
  | _ => True

instance (client : Client) : ∀ action, Decidable (Timely client action)
  | .settled index | .wait index =>
      inferInstanceAs (Decidable
        (∀ r ∈ client.requests[index]?, r.phase.settledEarly = false))
  | .done index =>
      inferInstanceAs (Decidable
        (∀ r ∈ client.requests[index]?, r.phase.settledEarly = true →
          r.st.chunks ≠ []))
  | .nextReady =>
      inferInstanceAs (Decidable
        (∀ index ∈ client.ready.head?, ∀ r ∈ client.requests[index]?,
          r.phase.postedEarly = false))
  | .start _ _ | .request _ _ | .storeDown | .takeRuntime =>
      inferInstanceAs (Decidable True)

/-! ## What a step of a request does to the accounts -/

/-- The accounts of the client see no difference. -/
structure Request.SameAccounts (r r' : Request) : Prop where
  holdsPermit : r'.phase.holdsPermit = r.phase.holdsPermit
  counted : r'.phase.counted = r.phase.counted

section Accounts

variable {r r' : Request}

theorem Request.SameAccounts.of_phase {phase phase' : TaskPhase}
    (hphase : r.phase = phase) (hphase' : r'.phase = phase')
    (hholds : phase'.holdsPermit = phase.holdsPermit)
    (hcounted : phase'.counted = phase.counted) : r.SameAccounts r' :=
  ⟨by rw [hphase, hphase', hholds], by rw [hphase, hphase', hcounted]⟩

theorem Request.fail_accounts {site : TaskPhase} {err : HttpError}
    (hstep : r.fail site err = some r') (hholds : site.holdsPermit = true)
    (hcounted : site.counted = true) : r.SameAccounts r' := by
  unfold Request.fail at hstep
  split at hstep
  · rename_i hphase
    cases hstep
    exact .of_phase hphase rfl hholds.symm hcounted.symm
  · cases hstep

theorem Request.proceed_accounts {site next : TaskPhase}
    (hstep : r.proceed site next = some r')
    (hholds : next.holdsPermit = site.holdsPermit)
    (hcounted : next.counted = site.counted) : r.SameAccounts r' := by
  unfold Request.proceed at hstep
  split at hstep
  · rename_i hphase
    cases hstep
    exact .of_phase hphase rfl hholds hcounted
  · cases hstep

theorem Request.step_accounts {action : RequestAction}
    (hstep : r.step action = some r') (hspawn : action ≠ .spawn)
    (haddPermit : action ≠ .addPermit) (hdecrement : action ≠ .decrement) :
    r.SameAccounts r' := by
  cases action with
  | spawn => exact absurd rfl hspawn
  | addPermit => exact absurd rfl haddPermit
  | decrement => exact absurd rfl hdecrement
  | sendFailed isTimeout text => exact Request.fail_accounts hstep rfl rfl
  | createFailed text => exact Request.fail_accounts hstep rfl rfl
  | streamFailed isTimeout text => exact Request.fail_accounts hstep rfl rfl
  | flushFailed text => exact Request.fail_accounts hstep rfl rfl
  | created => exact Request.proceed_accounts hstep rfl rfl
  | flushed => exact Request.proceed_accounts hstep rfl rfl
  | streamEnd =>
      exact Request.proceed_accounts hstep (by split_ifs <;> rfl)
        (by split_ifs <;> rfl)
  | runtimeGone =>
      simp only [Request.step, Request.spawn] at hstep
      split at hstep
      · rename_i hphase
        cases hstep
        exact .of_phase hphase rfl rfl rfl
      · cases hstep
  | cancel =>
      cases hstep
      exact ⟨rfl, rfl⟩
  | read maxBytes waited =>
      simp only [Request.step, Request.read] at hstep
      split at hstep
      · cases hstep
        exact ⟨rfl, rfl⟩
      · cases hstep
  | returnPermit =>
      simp only [Request.step, Request.returnPermit] at hstep
      split at hstep
      · cases hstep
      · cases hstep
        exact ⟨rfl, rfl⟩
  | abandon =>
      simp only [Request.step, Request.abandon] at hstep
      split at hstep
      · rename_i hcan
        cases hstep
        have hawaiting := hcan.2
        constructor
        · revert hawaiting
          cases r.phase <;> simp [TaskPhase.awaiting, TaskPhase.holdsPermit]
        · revert hawaiting
          cases r.phase <;> simp [TaskPhase.awaiting, TaskPhase.counted]
      · cases hstep
  | grant =>
      simp only [Request.step, Request.grant] at hstep
      split at hstep
      · rename_i bytes hphase
        split at hstep
        · cases hstep
        · cases hstep
          exact .of_phase hphase rfl rfl rfl
      · cases hstep
  | finish =>
      simp only [Request.step, Request.finish] at hstep
      split at hstep
      · rename_i err hphase
        cases hstep
        exact .of_phase hphase rfl rfl rfl
      · rename_i hphase
        cases hstep
        exact .of_phase hphase rfl rfl rfl
      · cases hstep
  | stall =>
      simp only [Request.step, Request.stall] at hstep
      split at hstep
      · rename_i bytes hphase
        cases hstep
        exact .of_phase hphase rfl rfl rfl
      · rename_i bytes hphase
        cases hstep
        exact .of_phase hphase rfl rfl rfl
      · cases hstep
  | _ =>
      simp only [Request.step, Request.identify, Request.respond,
        Request.storeTotal, Request.arrive, Request.write,
        Request.writeFail, Request.acquired, Request.queue, Request.markEof,
        Request.isCancelled, Request.pushReady, Request.settle] at hstep
      split at hstep
      · rename_i hphase
        cases hstep
        apply Request.SameAccounts.of_phase hphase rfl
        all_goals
          try split_ifs
          all_goals rfl
      · cases hstep

theorem Request.spawn_accounts (hstep : r.step .spawn = some r') :
    r.phase.holdsPermit = true ∧ r'.phase.holdsPermit = true ∧
      r.phase.counted = false ∧ r'.phase.counted = true := by
  simp only [Request.step, Request.spawn] at hstep
  split at hstep
  · rename_i hphase
    cases hstep
    rw [hphase]
    exact ⟨rfl, rfl, rfl, rfl⟩
  · cases hstep

theorem Request.addPermit_accounts (hstep : r.step .addPermit = some r') :
    r.phase.holdsPermit = true ∧ r'.phase.holdsPermit = false ∧
      r'.phase.counted = r.phase.counted := by
  simp only [Request.step, Request.addPermit] at hstep
  split at hstep
  · rename_i hphase
    cases hstep
    rw [hphase]
    exact ⟨rfl, rfl, rfl⟩
  · cases hstep

theorem Request.decrement_accounts (hstep : r.step .decrement = some r') :
    r.phase.holdsPermit = false ∧ r'.phase.holdsPermit = false ∧
      r.phase.counted = true ∧ r'.phase.counted = false := by
  simp only [Request.step, Request.decrement] at hstep
  split at hstep
  · rename_i hphase
    cases hstep
    rw [hphase]
    exact ⟨rfl, rfl, rfl, rfl⟩
  · cases hstep

/-- What has been published stays so. -/
theorem Request.step_settled {action : RequestAction}
    (hstep : r.step action = some r') (hsettled : r.st.settled = true) :
    r'.st.settled = true := by
  cases Request.step_effect hstep with
  | quiet hsame => exact hsame.settled.trans hsettled
  | settled =>
      have hkept : ∀ err, r.st.settle err = r.st := fun err => if_pos hsettled
      simp only [hkept, hsettled]
  | read max => exact (r.st.read_settled max).trans hsettled
  | _ => exact hsettled

theorem Request.step_published {action : RequestAction}
    (hstep : r.step action = some r') (hpublished : r.published = true) :
    r'.published = true := by
  simp only [Request.published, Bool.and_eq_true, Bool.not_eq_true'] at *
  obtain ⟨⟨hholds, hcounted⟩, hsettled⟩ := hpublished
  refine ⟨?_, Request.step_settled hstep hsettled⟩
  by_cases hspawn : action = .spawn
  · subst hspawn
    rw [(Request.spawn_accounts hstep).1] at hholds
    cases hholds
  by_cases haddPermit : action = .addPermit
  · subst haddPermit
    rw [(Request.addPermit_accounts hstep).1] at hholds
    cases hholds
  by_cases hdecrement : action = .decrement
  · subst hdecrement
    rw [(Request.decrement_accounts hstep).2.2.1] at hcounted
    cases hcounted
  have hsame := Request.step_accounts hstep hspawn haddPermit hdecrement
  exact ⟨hsame.holdsPermit.trans hholds, hsame.counted.trans hcounted⟩

/-- A posted task has only its last step to take. -/
theorem Request.step_posted {action : RequestAction}
    (hstep : r.step action = some r') (hposted : r.phase.posted = true) :
    r'.phase.posted = true := by
  have hphase : (∃ failed cancelled, r.phase = .pushed failed cancelled) ∨
      r.phase = .finished := by
    cases hcase : r.phase with
    | pushed failed cancelled => exact .inl ⟨failed, cancelled, rfl⟩
    | finished => exact .inr rfl
    | _ =>
        rw [hcase] at hposted
        cases hposted
  cases action with
  | settle =>
      simp only [Request.step, Request.settle] at hstep
      split at hstep
      · cases hstep
        rfl
      · cases hstep
  | cancel =>
      cases hstep
      exact hposted
  | read maxBytes waited =>
      simp only [Request.step, Request.read] at hstep
      split at hstep
      · cases hstep
        exact hposted
      · cases hstep
  | returnPermit =>
      simp only [Request.step, Request.returnPermit] at hstep
      split at hstep
      · cases hstep
      · cases hstep
        exact hposted
  | _ =>
      rcases hphase with ⟨failed, cancelled, hphase⟩ | hphase <;>
        simp [Request.step, Request.fail, Request.proceed, Request.identify,
          Request.spawn, Request.respond, Request.storeTotal, Request.arrive,
          Request.write, Request.writeFail, Request.grant, Request.acquired, Request.stall, Request.queue,
          Request.markEof, Request.finish, Request.abandon,
          TaskPhase.awaiting, Request.isCancelled, Request.addPermit,
          Request.decrement, Request.pushReady, hphase] at hstep

end Accounts

/-! ## What an observer finds -/

section Observers

variable {r : Request}

/-- A settled request is published unless the error branch settled it. -/
theorem Request.published_of_settled (hflag : r.st.settled = r.phase.settled)
    (hsettled : r.st.settled = true) :
    r.published = !r.phase.settledEarly := by
  unfold Request.published
  rw [hsettled]
  rw [hsettled] at hflag
  cases hphase : r.phase <;>
    simp_all [TaskPhase.settled, TaskPhase.holdsPermit, TaskPhase.counted,
      TaskPhase.settledEarly]

/-- A posted request is published unless its guard is still to settle it. -/
theorem Request.published_of_posted (hflag : r.st.settled = r.phase.settled)
    (hposted : r.phase.posted = true) :
    r.published = !r.phase.postedEarly := by
  unfold Request.published
  rw [hflag]
  cases hphase : r.phase <;>
    simp_all [TaskPhase.posted, TaskPhase.settled, TaskPhase.holdsPermit,
      TaskPhase.counted, TaskPhase.postedEarly]

theorem Request.settled_of_settledEarly
    (hflag : r.st.settled = r.phase.settled)
    (hearly : r.phase.settledEarly = true) : r.st.settled = true := by
  rw [hflag]
  cases hphase : r.phase <;>
    simp_all [TaskPhase.settled, TaskPhase.settledEarly]

end Observers

/-! ## The invariant -/

/-- The client after any run. -/
structure Client.Inv (maxInFlight : ℕ) (client : Client) : Prop where
  bodies : ∀ r ∈ client.requests, r.BodyInv client.queueChunks
  posted : ∀ index ∈ client.ready, ∃ r, client.requests[index]? = some r ∧
    r.phase.posted = true
  admission : client.admission +
    client.requests.countP (fun r => r.phase.holdsPermit) = maxInFlight
  inFlight : client.inFlight =
    client.requests.countP fun r => r.phase.counted
  observed : ∀ o ∈ client.observations, ∃ r,
    client.requests[o.request]? = some r ∧
      (o.published = true → r.published = true)

theorem Client.new_inv (maxInFlight queueChunks : ℕ) :
    (Client.new maxInFlight queueChunks).Inv maxInFlight where
  bodies _ hr := absurd hr List.not_mem_nil
  posted _ hindex := absurd hindex List.not_mem_nil
  admission := rfl
  inFlight := rfl
  observed _ ho := absurd ho List.not_mem_nil

theorem Client.stepRequest_cases {client next : Client} {index : ℕ}
    {action : RequestAction}
    (hstep : client.stepRequest index action = some next) :
    ∃ r r', client.requests[index]? = some r ∧ r.step action = some r' ∧
      next = { client.account index action with
        requests := client.requests.set index r' } := by
  unfold Client.stepRequest at hstep
  split at hstep
  · cases hstep
  · rename_i r hr
    split at hstep
    · cases hstep
    · rename_i r' hr'
      split at hstep
      · cases hstep
        exact ⟨r, r', hr, hr', rfl⟩
      · cases hstep

@[simp] theorem Client.account_queueChunks (client : Client) (index : ℕ)
    (action : RequestAction) :
    (client.account index action).queueChunks = client.queueChunks := by
  cases action <;> rfl

@[simp] theorem Client.account_observations (client : Client) (index : ℕ)
    (action : RequestAction) :
    (client.account index action).observations = client.observations := by
  cases action <;> rfl

/-- An entry of the ready queue after a step is an old one or the request
that has just pushed itself. -/
theorem Client.account_ready {client : Client} {index other : ℕ}
    {action : RequestAction}
    (hother : other ∈ (client.account index action).ready) :
    other ∈ client.ready ∨ action = .pushReady ∧ other = index := by
  cases action with
  | pushReady =>
      simp only [Client.account, Fetch.pushReady, List.mem_append,
        List.mem_singleton] at hother
      rcases hother with hold | hnew
      · split at hold
        · exact .inl (List.mem_of_mem_drop hold)
        · exact .inl hold
      · exact .inr ⟨rfl, hnew⟩
  | _ => exact .inl hother

section Invariant

variable {maxInFlight : ℕ} {client next : Client}

theorem Client.Inv.stepRequest_admission (hinv : client.Inv maxInFlight)
    {index : ℕ} {action : RequestAction} {r r' : Request}
    (hr : client.requests[index]? = some r)
    (hstep : r.step action = some r') :
    (client.account index action).admission +
      (client.requests.set index r').countP (fun r => r.phase.holdsPermit) =
        maxInFlight := by
  have hadmission := hinv.admission
  have hcount := countP_set_add (fun r => r.phase.holdsPermit) hr r'
  by_cases haddPermit : action = .addPermit
  · subst haddPermit
    obtain ⟨hbefore, hafter, -⟩ := Request.addPermit_accounts hstep
    simp only [hbefore, hafter, if_true, Bool.false_eq_true, if_false] at hcount
    simp only [Client.account]
    omega
  · have hsame : r'.phase.holdsPermit = r.phase.holdsPermit := by
      by_cases hspawn : action = .spawn
      · subst hspawn
        obtain ⟨hbefore, hafter, -⟩ := Request.spawn_accounts hstep
        rw [hbefore, hafter]
      by_cases hdecrement : action = .decrement
      · subst hdecrement
        obtain ⟨hbefore, hafter, -⟩ := Request.decrement_accounts hstep
        rw [hbefore, hafter]
      exact (Request.step_accounts hstep hspawn haddPermit
        hdecrement).holdsPermit
    have haccount : (client.account index action).admission =
        client.admission := by
      cases action <;> first | rfl | exact absurd rfl haddPermit
    simp only [hsame] at hcount
    omega

theorem Client.Inv.stepRequest_inFlight (hinv : client.Inv maxInFlight)
    {index : ℕ} {action : RequestAction} {r r' : Request}
    (hr : client.requests[index]? = some r)
    (hstep : r.step action = some r') :
    (client.account index action).inFlight =
      (client.requests.set index r').countP fun r => r.phase.counted := by
  have hinFlight := hinv.inFlight
  have hcount := countP_set_add (fun r => r.phase.counted) hr r'
  by_cases hspawn : action = .spawn
  · subst hspawn
    obtain ⟨-, -, hbefore, hafter⟩ := Request.spawn_accounts hstep
    simp only [hbefore, hafter, if_true, Bool.false_eq_true, if_false] at hcount
    simp only [Client.account]
    omega
  by_cases hdecrement : action = .decrement
  · subst hdecrement
    obtain ⟨-, -, hbefore, hafter⟩ := Request.decrement_accounts hstep
    simp only [hbefore, hafter, if_true, Bool.false_eq_true, if_false] at hcount
    simp only [Client.account]
    omega
  have hsame : r'.phase.counted = r.phase.counted := by
    by_cases haddPermit : action = .addPermit
    · subst haddPermit
      exact (Request.addPermit_accounts hstep).2.2
    · exact (Request.step_accounts hstep hspawn haddPermit hdecrement).counted
  have haccount : (client.account index action).inFlight =
      client.inFlight := by
    cases action <;>
      first | rfl | exact absurd rfl hspawn | exact absurd rfl hdecrement
  simp only [hsame] at hcount
  omega

theorem Client.Inv.stepRequest (hinv : client.Inv maxInFlight) {index : ℕ}
    {action : RequestAction}
    (hstep : client.stepRequest index action = some next) :
    next.Inv maxInFlight := by
  obtain ⟨r, r', hr, hr', rfl⟩ := Client.stepRequest_cases hstep
  have hmem : r ∈ client.requests := List.mem_of_getElem? hr
  constructor
  · intro other hother
    rw [Client.account_queueChunks]
    rcases List.mem_or_eq_of_mem_set hother with hold | hnew
    · exact hinv.bodies other hold
    · rw [hnew]
      exact (hinv.bodies r hmem).step hr'
  · intro other hother
    rcases Client.account_ready hother with hold | ⟨hpush, hindex⟩
    · exact exists_getElem?_set hr (Request.step_posted hr')
        (hinv.posted other hold)
    · subst hpush hindex
      have hlt := (List.getElem?_eq_some_iff.mp hr).1
      refine ⟨r', List.getElem?_set_self hlt, ?_⟩
      simp only [Request.step, Request.pushReady] at hr'
      split at hr'
      · cases hr'
        rfl
      · cases hr'
  · exact hinv.stepRequest_admission hr hr'
  · exact hinv.stepRequest_inFlight hr hr'
  · intro o ho
    rw [Client.account_observations] at ho
    exact exists_getElem?_set hr
      (fun hkept hpublished =>
        Request.step_published hr' (hkept hpublished))
      (hinv.observed o ho)

theorem Client.Inv.start (hinv : client.Inv maxInFlight) {sink : Bool}
    {maxBodyBytes : ℕ}
    (hstart : client.start sink maxBodyBytes = .ok next) :
    next.Inv maxInFlight := by
  unfold Client.start at hstart
  split_ifs at hstart with hdown hpermits
  cases hstart
  have hadmission := hinv.admission
  constructor
  · intro r hr
    rcases List.mem_append.mp hr with hold | hnew
    · exact hinv.bodies r hold
    · rw [List.mem_singleton.mp hnew]
      exact Request.start_bodyInv _ _ _
  · intro index hindex
    obtain ⟨r, hr, hposted⟩ := hinv.posted index hindex
    have hlt := (List.getElem?_eq_some_iff.mp hr).1
    exact ⟨r, by rw [List.getElem?_append_left hlt, hr], hposted⟩
  · have hholds : (Request.start client.queueChunks sink
        maxBodyBytes).phase.holdsPermit = true := rfl
    simp only [List.countP_append, List.countP_singleton, hholds, if_true]
    omega
  · have hcounted : (Request.start client.queueChunks sink
        maxBodyBytes).phase.counted = false := rfl
    simp only [List.countP_append, List.countP_singleton, hcounted,
      Bool.false_eq_true, if_false, Nat.add_zero]
    exact hinv.inFlight
  · intro o ho
    obtain ⟨r, hr, hkept⟩ := hinv.observed o ho
    have hlt := (List.getElem?_eq_some_iff.mp hr).1
    exact ⟨r, by rw [List.getElem?_append_left hlt, hr], hkept⟩

/-- An observation of a request is recorded with what holds of it. -/
theorem Client.Inv.record (hinv : client.Inv maxInFlight) {index : ℕ}
    {r : Request} (hr : client.requests[index]? = some r)
    (channel : Channel) {ready : List ℕ}
    (hready : ∀ other ∈ ready, other ∈ client.ready) :
    ({ client with
      ready := ready
      observations := client.observations ++
        [⟨index, channel, r.published⟩] } : Client).Inv maxInFlight where
  bodies := hinv.bodies
  posted other hother := hinv.posted other (hready other hother)
  admission := hinv.admission
  inFlight := hinv.inFlight
  observed := by
    intro o ho
    rcases List.mem_append.mp ho with hold | hnew
    · exact hinv.observed o hold
    · rw [List.mem_singleton.mp hnew]
      exact ⟨r, hr, id⟩

theorem Client.Inv.observe (hinv : client.Inv maxInFlight) {index : ℕ}
    {channel : Channel} {finished : Request → Bool}
    (hstep : client.observe index channel finished = some next) :
    next.Inv maxInFlight := by
  unfold Client.observe at hstep
  split at hstep
  · cases hstep
  · rename_i r hr
    split at hstep
    · cases hstep
      exact hinv.record hr channel fun _ => id
    · cases hstep
      exact hinv

theorem Client.Inv.nextReady (hinv : client.Inv maxInFlight)
    (hstep : client.nextReady = some next) : next.Inv maxInFlight := by
  unfold Client.nextReady at hstep
  split at hstep
  · cases hstep
    exact hinv
  · rename_i index ready hready
    split at hstep
    · cases hstep
    · rename_i r hr
      cases hstep
      refine hinv.record hr .nextReady fun other hother => ?_
      rw [hready]
      exact List.mem_cons_of_mem index hother

/-- One step of the client keeps the invariant. -/
theorem Client.Inv.step (hinv : client.Inv maxInFlight)
    {action : ClientAction} (hstep : client.step action = some next) :
    next.Inv maxInFlight := by
  cases action with
  | start sink maxBodyBytes =>
      simp only [Client.step] at hstep
      split at hstep
      · rename_i started hstart
        cases hstep
        exact hinv.start hstart
      · cases hstep
        exact hinv
  | request index action => exact hinv.stepRequest hstep
  | storeDown =>
      cases hstep
      exact ⟨hinv.bodies, hinv.posted, hinv.admission, hinv.inFlight,
        hinv.observed⟩
  | takeRuntime =>
      cases hstep
      exact ⟨hinv.bodies, hinv.posted, hinv.admission, hinv.inFlight,
        hinv.observed⟩
  | settled index => exact hinv.observe hstep
  | done index => exact hinv.observe hstep
  | wait index => exact hinv.observe hstep
  | nextReady => exact hinv.nextReady hstep

/-! ## Which observations are early -/

/-- The step adds at most one observation, and the request was published at
it exactly if the step was timely. -/
def Client.Records (client next : Client) (timely : Prop) : Prop :=
  (next.observations = client.observations ∧ timely) ∨
    ∃ o, next.observations = client.observations ++ [o] ∧
      (o.published = true ↔ timely)

theorem Client.Inv.observe_records (hinv : client.Inv maxInFlight)
    {index : ℕ} {channel : Channel} {finished : Request → Bool}
    (early : Request → Prop)
    (hstep : client.observe index channel finished = some next)
    (hearly : ∀ r, early r → r.st.settled = r.phase.settled →
      finished r = true)
    (hpublished : ∀ r, finished r = true → r.st.settled = r.phase.settled →
      (r.published = true ↔ ¬ early r)) :
    client.Records next (∀ r ∈ client.requests[index]?, ¬ early r) := by
  unfold Client.observe at hstep
  split at hstep
  · cases hstep
  · rename_i r hr
    have hflag := (hinv.bodies r (List.mem_of_getElem? hr)).settled
    have hone : (∀ other ∈ client.requests[index]?, ¬ early other) ↔
        ¬ early r := by
      simp [hr]
    unfold Client.Records
    rw [hone]
    split at hstep
    · rename_i hfinished
      cases hstep
      exact .inr ⟨_, rfl, hpublished r hfinished hflag⟩
    · rename_i hfinished
      cases hstep
      exact .inl ⟨rfl, fun h => hfinished (hearly r h hflag)⟩

theorem Client.Inv.nextReady_records (hinv : client.Inv maxInFlight)
    (hstep : client.nextReady = some next) :
    client.Records next (Timely client .nextReady) := by
  unfold Client.nextReady at hstep
  split at hstep
  · rename_i hready
    cases hstep
    exact .inl ⟨rfl, by simp [Timely, hready]⟩
  · rename_i index ready hready
    obtain ⟨r, hr, hposted⟩ := hinv.posted index (by simp [hready])
    have hflag := (hinv.bodies r (List.mem_of_getElem? hr)).settled
    simp only [hr] at hstep
    cases hstep
    refine .inr ⟨_, rfl, ?_⟩
    simp [Timely, hready, hr, Request.published_of_posted hflag hposted]

theorem Client.Inv.step_records (hinv : client.Inv maxInFlight)
    {action : ClientAction} (hstep : client.step action = some next) :
    client.Records next (Timely client action) := by
  have hsettled : ∀ index channel,
      client.observe index channel (fun r => r.st.settled) = some next →
      client.Records next (Timely client (.settled index)) := by
    intro index channel hobserve
    have hrecords := hinv.observe_records
      (fun r => r.phase.settledEarly = true) hobserve
      (fun r hearly hflag => Request.settled_of_settledEarly hflag hearly)
      (fun r hfinished hflag => by
        rw [Request.published_of_settled hflag hfinished]
        simp)
    simpa [Timely] using hrecords
  cases action with
  | start sink maxBodyBytes =>
      simp only [Client.step] at hstep
      split at hstep
      · rename_i started hstart
        unfold Client.start at hstart
        split_ifs at hstart
        cases hstart
        cases hstep
        exact .inl ⟨rfl, trivial⟩
      · cases hstep
        exact .inl ⟨rfl, trivial⟩
  | request index action =>
      obtain ⟨r, r', -, -, rfl⟩ := Client.stepRequest_cases hstep
      exact .inl ⟨client.account_observations index action, trivial⟩
  | storeDown =>
      cases hstep
      exact .inl ⟨rfl, trivial⟩
  | takeRuntime =>
      cases hstep
      exact .inl ⟨rfl, trivial⟩
  | settled index => exact hsettled index .settled hstep
  | wait index => exact hsettled index .wait hstep
  | done index =>
      have hrecords := hinv.observe_records
        (fun r => r.phase.settledEarly = true ∧ r.st.chunks = []) hstep
        (fun r hearly hflag => by
          have hsettled := Request.settled_of_settledEarly hflag hearly.1
          simp [State.done, hsettled, hearly.2])
        (fun r hfinished hflag => by
          obtain ⟨hsettled, hdrained⟩ : r.st.settled = true ∧
              r.st.chunks = [] := by
            simpa [State.done] using hfinished
          rw [Request.published_of_settled hflag hsettled]
          simp [hdrained])
      simpa [Timely] using hrecords
  | nextReady => exact hinv.nextReady_records hstep

end Invariant

theorem clientSystem_reaches_inv {maxInFlight : ℕ} {client next : Client}
    (hinv : client.Inv maxInFlight)
    (hreach : clientSystem.Reaches client next) : next.Inv maxInFlight :=
  hreach.invariant (fun _ _ _ hinv hstep => hinv.step hstep) hinv

/-- The observations of a run are of published requests exactly if all its
steps were timely. -/
theorem runMeets_timely_iff {maxInFlight : ℕ} {client finish : Client}
    (hinv : client.Inv maxInFlight) {actions : List ClientAction}
    (hrun : clientSystem.run client actions = some finish) :
    (∀ o ∈ finish.observations, o.published = true) ↔
      clientSystem.RunMeets Timely client actions ∧
        ∀ o ∈ client.observations, o.published = true := by
  induction actions generalizing client with
  | nil =>
      cases hrun
      exact ⟨fun h => ⟨trivial, h⟩, And.right⟩
  | cons action rest ih =>
      simp only [System.run] at hrun
      cases hstep : clientSystem.step client action with
      | none => simp [hstep] at hrun
      | some next =>
          rw [hstep] at hrun
          have hrest := ih (hinv.step hstep) hrun
          simp only [System.RunMeets, hstep]
          rw [hrest]
          rcases hinv.step_records hstep with
            ⟨hsame, htimely⟩ | ⟨o, hadded, hiff⟩
          · rw [hsame]
            constructor
            · exact fun h => ⟨⟨htimely, h.1⟩, h.2⟩
            · exact fun h => ⟨h.1.2, h.2⟩
          · rw [hadded, ← hiff]
            simp only [List.mem_append, List.mem_singleton, or_imp,
              forall_and, forall_eq]
            constructor
            · exact fun h => ⟨⟨h.2.2, h.1⟩, h.2.1⟩
            · exact fun h => ⟨h.1.2, h.2, h.1.1⟩

/-! ## The order of publication -/

end Fetch

open Fetch TransitionSystem in
/-- Every request that an observer finds finished was published by then
exactly if no observer looks too early; a request once published neither
holds a permit nor is counted in flight ever after, while every permit that a
refused request missed is held by a request that is not. -/
theorem fetch_publication_order (maxInFlight queueChunks : ℕ)
    (actions : List ClientAction) (client : Client)
    (hrun : clientSystem.run (Client.new maxInFlight queueChunks) actions =
      some client) :
    (clientSystem.RunMeets Timely (Client.new maxInFlight queueChunks)
        actions ↔
      ∀ o ∈ client.observations, o.published = true) ∧
    (∀ o ∈ client.observations, o.published = true →
      ∃ r, client.requests[o.request]? = some r ∧
        r.phase.holdsPermit = false ∧ r.phase.counted = false ∧
        r.st.settled = true) ∧
    client.inFlight = client.requests.countP (fun r => r.phase.counted) ∧
    ∀ sink maxBodyBytes, client.start sink maxBodyBytes =
        .error (.busy "too many requests in flight") →
      client.requests.countP (fun r => r.phase.holdsPermit) =
        maxInFlight := by
  have hnew := Client.new_inv maxInFlight queueChunks
  have hinv := clientSystem_reaches_inv hnew ⟨actions, hrun⟩
  refine ⟨?_, ?_, hinv.inFlight, ?_⟩
  · rw [runMeets_timely_iff hnew hrun]
    exact ⟨fun h => ⟨h, nofun⟩, And.left⟩
  · intro o ho hpublished
    obtain ⟨r, hr, hkept⟩ := hinv.observed o ho
    have hnow := hkept hpublished
    simp only [Request.published, Bool.and_eq_true, Bool.not_eq_true'] at hnow
    exact ⟨r, hr, hnow.1.1, hnow.1.2, hnow.2⟩
  · intro sink maxBodyBytes hrefused
    have hnone : client.admission = 0 := by
      unfold Client.start at hrefused
      split_ifs at hrefused with hdown hpermits
      · simp [HttpError.usage, HttpError.busy] at hrefused
      · exact hpermits
    have hadmission := hinv.admission
    omega

open Fetch in
/-- A request that fails at once, looked at before its guard has run. -/
def refusedAfterFailure : List ClientAction :=
  [.start false 0, .request 0 (.identify 1), .request 0 .spawn,
    .request 0 (.sendFailed false "connection refused"), .request 0 .finish,
    .settled 0]

open Fetch in
/-- A request that succeeds, taken from the ready queue before it is
settled. -/
def readyBeforeSettled : List ClientAction :=
  [.start false 0, .request 0 (.identify 1), .request 0 .spawn,
    .request 0 (.respond 204 [] none), .request 0 .storeTotal,
    .request 0 .streamEnd, .request 0 .markEof, .request 0 .finish,
    .request 0 .isCancelled, .request 0 .addPermit, .request 0 .decrement,
    .request 0 .pushReady, .nextReady]

open Fetch in
/-- An observer finds the failed request settled, and the next request is
refused for want of its permit; and the ready queue names a request whose
flag is not set. -/
theorem fetch_publication_reordered :
    (∃ client, clientSystem.run (Client.new 1 4) refusedAfterFailure =
        some client ∧
      client.observations = [⟨0, .settled, false⟩] ∧
      client.inFlight = 1 ∧
      client.start false 0 =
        .error (.busy "too many requests in flight")) ∧
    ∃ client, clientSystem.run (Client.new 1 4) readyBeforeSettled =
        some client ∧
      client.observations = [⟨0, .nextReady, false⟩] ∧
      client.requests.map (fun r => r.st.settled) = [false] := by
  constructor
  · have hrun : (clientSystem.run (Client.new 1 4) refusedAfterFailure).map
        (fun client => (client.observations, client.inFlight, client.down,
          client.admission)) =
        some ([⟨0, .settled, false⟩], 1, false, 0) := by
      decide +kernel
    obtain ⟨client, hclient, hfields⟩ := Option.map_eq_some_iff.mp hrun
    simp only [Prod.mk.injEq] at hfields
    obtain ⟨hobservations, hinFlight, hdown, hadmission⟩ := hfields
    refine ⟨client, hclient, hobservations, hinFlight, ?_⟩
    simp [Client.start, hdown, hadmission]
  · have hrun : (clientSystem.run (Client.new 1 4) readyBeforeSettled).map
        (fun client => (client.observations,
          client.requests.map fun r => r.st.settled)) =
        some ([⟨0, .nextReady, false⟩], [false]) := by
      decide +kernel
    obtain ⟨client, hclient, hfields⟩ := Option.map_eq_some_iff.mp hrun
    simp only [Prod.mk.injEq] at hfields
    exact ⟨client, hclient, hfields⟩

open Fetch in
/-- The same failed request, looked at once its guard has run. -/
def settledAfterFailure : List ClientAction :=
  [.start false 0, .request 0 (.identify 1), .request 0 .spawn,
    .request 0 (.sendFailed false "connection refused"), .request 0 .finish,
    .request 0 .isCancelled, .request 0 .addPermit, .request 0 .decrement,
    .settled 0]

open Fetch in
theorem fetch_publication_order_settled :
    ∃ client, clientSystem.run (Client.new 1 4) settledAfterFailure =
        some client ∧
      client.observations.length = 1 ∧
      ∀ o ∈ client.observations, o.published = true := by
  have hrun : (clientSystem.run (Client.new 1 4) settledAfterFailure).map
      (fun client => client.observations.length) = some 1 := by
    decide +kernel
  obtain ⟨client, hclient, hone⟩ := Option.map_eq_some_iff.mp hrun
  refine ⟨client, hclient, hone, ?_⟩
  exact (fetch_publication_order 1 4 settledAfterFailure client hclient).1.mp
    (by decide +kernel)

end Rulisp
