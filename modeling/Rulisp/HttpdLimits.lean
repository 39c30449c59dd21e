import Rulisp.HttpdAnsweredOnce
import Rulisp.Permits

/-!
# The limits of `httpd`

The two semaphores of the server: a connection's permit, which the accept loop
takes before it accepts and `ConnGuard` gives back, and a body slot, which
`park` holds from before it reads a body until the request is parked or
refused.  They are charged here beside the server's own steps, and bound what
the server holds for its clients, however many there are.
-/

namespace Rulisp

namespace Httpd

open TransitionSystem ListEntries Permits

/-! ## What is charged -/

/-- Where a task is with regard to its body slot. -/
inductive Slot
  | before
  | inside
  | past
  deriving DecidableEq, Repr

def ParkPhase.slot : ParkPhase → Slot
  | .arrived | .bodySlot => .before
  | .readingBody | .pushing => .inside
  | .parked | .answered _ | .gone => .past

/-- What one request is charged: its body slot, and the bytes of its body
that have been read. -/
structure Charge where
  permit : Bool
  bytes : ℕ
  deriving DecidableEq, Repr

/-- The accept loop, before or after `acquire_owned`, or left. -/
inductive Acceptor
  | waiting
  | permitted
  | stopped
  deriving DecidableEq, Repr

/-- A connection's task, and the two steps of its guard's end. -/
inductive Connection
  | serving
  | dropping
  | closed
  deriving DecidableEq, Repr

/-- The permits in the hands of the accept loop. -/
def Acceptor.permits : Acceptor → ℕ
  | .permitted => 1
  | _ => 0

def Connection.counted : Connection → Bool
  | .serving => true
  | _ => false

/-- Its permit has not been given back. -/
def Connection.guarded : Connection → Bool
  | .serving | .dropping => true
  | .closed => false

/-- The server with its limits; a charge for each exchange. -/
structure Limited where
  svc : Svc
  bodyCap : ℕ
  bodyPermits : ℕ
  charges : List Charge
  maxConnections : ℕ
  connPermits : ℕ
  connections : ℕ
  acceptor : Acceptor
  conns : List Connection
  deriving DecidableEq, Repr

def clamp (low high n : ℕ) : ℕ := max low (min high n)

/-- `Server::bind`, once the address is bound. -/
def Limited.bind (queue maxConnections bodyCap : ℕ) (handlerWait : Bool) :
    Limited where
  svc := .new (clamp 1 65536 queue) handlerWait
  bodyCap := clamp (2 ^ 10) (2 ^ 30) bodyCap
  bodyPermits := clamp 1 65536 queue
  charges := []
  maxConnections := clamp 1 (2 ^ 20) maxConnections
  connPermits := clamp 1 (2 ^ 20) maxConnections
  connections := 0
  acceptor := .waiting
  conns := []

inductive LimitedAction
  | server (action : HttpdAction)
  | chunk (index bytes : ℕ)
  | dropPermit (index : ℕ)
  | acquire
  | accept
  | acceptError
  | stopAccept
  | endConn (index : ℕ)
  | freeConn (index : ℕ)

section Steps

variable (host : HeaderHost) (s : Limited)

/-- A step of the server; a body slot that is taken is charged. -/
def Limited.server (action : HttpdAction) : Option Limited :=
  match s.svc.step host action with
  | none => none
  | some svc =>
      match action with
      | .arrive _ =>
          some { s with
            svc := svc
            charges := s.charges ++ [{ permit := false, bytes := 0 }] }
      | .bodySlot index true =>
          match s.bodyPermits, s.charges[index]? with
          | available + 1, some charge =>
              some { s with
                svc := svc
                bodyPermits := available
                charges := s.charges.set index { charge with permit := true } }
          | _, _ => none
      | _ => some { s with svc := svc }

/-- `to_bytes` gets a part of the body, and refuses what exceeds the limit. -/
def Limited.chunk (index bytes : ℕ) : Option Limited :=
  match s.svc.exchanges[index]?, s.charges[index]? with
  | some x, some charge =>
      if x.phase = .readingBody ∧ charge.bytes + bytes ≤ s.bodyCap then
        some { s with
          charges :=
            s.charges.set index { charge with bytes := charge.bytes + bytes } }
      else none
  | _, _ => none

/-- The permit is dropped once the task has left its body slot: at
`drop(permit)`, at a return, or with the task. -/
def Limited.dropPermit (index : ℕ) : Option Limited :=
  match s.svc.exchanges[index]?, s.charges[index]? with
  | some x, some charge =>
      if charge.permit = true ∧ x.phase.slot = .past then
        some { s with
          bodyPermits := s.bodyPermits + 1
          charges := s.charges.set index { charge with permit := false } }
      else none
  | _, _ => none

/-- `accept_loop`, the wait for a permit. -/
def Limited.acquire : Option Limited :=
  match s.acceptor, s.connPermits with
  | .waiting, available + 1 =>
      some { s with acceptor := .permitted, connPermits := available }
  | _, _ => none

/-- `accept_loop`, a client: counted, and its task spawned with the guard. -/
def Limited.accept : Option Limited :=
  match s.acceptor with
  | .permitted =>
      some { s with
        acceptor := .waiting
        connections := s.connections + 1
        conns := s.conns ++ [.serving] }
  | _ => none

/-- `accept_loop`, an error of `accept`, after its sleep. -/
def Limited.acceptError : Option Limited :=
  match s.acceptor with
  | .permitted =>
      some { s with acceptor := .waiting, connPermits := s.connPermits + 1 }
  | _ => none

/-- `accept_loop` is told to stop. -/
def Limited.stopAccept : Option Limited :=
  match s.acceptor with
  | .waiting => some { s with acceptor := .stopped }
  | .permitted =>
      some { s with acceptor := .stopped, connPermits := s.connPermits + 1 }
  | .stopped => none

/-- A connection's task ends, however it does: `ConnGuard::drop`. -/
def Limited.endConn (index : ℕ) : Option Limited :=
  match s.conns[index]? with
  | some .serving =>
      some { s with
        connections := fetchSub s.connections
        conns := s.conns.set index .dropping }
  | _ => none

/-- The guard's permit is dropped. -/
def Limited.freeConn (index : ℕ) : Option Limited :=
  match s.conns[index]? with
  | some .dropping =>
      some { s with
        connPermits := s.connPermits + 1
        conns := s.conns.set index .closed }
  | _ => none

def Limited.step : LimitedAction → Option Limited
  | .server action => s.server host action
  | .chunk index bytes => s.chunk index bytes
  | .dropPermit index => s.dropPermit index
  | .acquire => s.acquire
  | .accept => s.accept
  | .acceptError => s.acceptError
  | .stopAccept => s.stopAccept
  | .endConn index => s.endConn index
  | .freeConn index => s.freeConn index

end Steps

def limitedSystem (host : HeaderHost) : System Limited LimitedAction where
  step := Limited.step host

/-! ## What the server tells of them -/

/-- `Server::reading`. -/
def Limited.reading (s : Limited) : ℕ := s.svc.cap - s.bodyPermits

def Limited.bytesOf (s : Limited) (index : ℕ) : ℕ :=
  match s.charges[index]? with
  | some charge => charge.bytes
  | none => 0

/-- The bytes of bodies whose requests are not parked yet. -/
def Limited.readingBytes (s : Limited) : ℕ :=
  ((s.charges.filter (·.permit)).map (·.bytes)).sum

/-- The bytes of bodies whose requests are parked and not pulled. -/
def Limited.parkedBytes (s : Limited) : ℕ := (s.svc.queue.map s.bytesOf).sum

/-! ## Tasks and their body slots -/

/-- The same tasks, each where it was with regard to its slot, or past it. -/
structure Quiet (before after : List Exchange) : Prop where
  length : after.length = before.length
  slot : ∀ (index : ℕ) (x' : Exchange), after[index]? = some x' →
    ∃ x, before[index]? = some x ∧
      (x'.phase.slot = x.phase.slot ∨ x'.phase.slot = .past)

section Quiet

variable {svc next : Svc} {xs ys zs : List Exchange}

theorem Quiet.refl (xs : List Exchange) : Quiet xs xs :=
  ⟨rfl, fun _ x hx => ⟨x, hx, .inl rfl⟩⟩

theorem Quiet.trans (hfirst : Quiet xs ys) (hsecond : Quiet ys zs) :
    Quiet xs zs := by
  refine ⟨hsecond.length.trans hfirst.length, fun index z hz => ?_⟩
  obtain ⟨y, hy, hsame | hpast⟩ := hsecond.slot index z hz
  · obtain ⟨x, hx, hslot⟩ := hfirst.slot index y hy
    rw [← hsame] at hslot
    exact ⟨x, hx, hslot⟩
  · obtain ⟨x, hx, -⟩ := hfirst.slot index y hy
    exact ⟨x, hx, .inr hpast⟩

theorem Quiet.set {index : ℕ} {x x' : Exchange} (hx : xs[index]? = some x)
    (hslot : x'.phase.slot = x.phase.slot ∨ x'.phase.slot = .past) :
    Quiet xs (xs.set index x') := by
  refine ⟨List.length_set, fun other y hy => ?_⟩
  rcases getElem?_set_of_some hx hy with ⟨rfl, rfl⟩ | ⟨-, hold⟩
  · exact ⟨x, hx, hslot⟩
  · exact ⟨y, hold, .inl rfl⟩

theorem Quiet.map {f : Exchange → Exchange} (hf : ∀ x, (f x).phase = x.phase)
    (xs : List Exchange) : Quiet xs (xs.map f) := by
  refine ⟨List.length_map f, fun index y hy => ?_⟩
  rw [List.getElem?_map, Option.map_eq_some_iff] at hy
  obtain ⟨x, hx, rfl⟩ := hy
  exact ⟨x, hx, .inl (by rw [hf x])⟩

theorem Quiet.on {index : ℕ} {f : Exchange → Option Exchange}
    (hf : ∀ x x', f x = some x' →
      x'.phase.slot = x.phase.slot ∨ x'.phase.slot = .past)
    (hstep : svc.on index f = some next) :
    Quiet svc.exchanges next.exchanges := by
  obtain ⟨x, x', hx, hx', rfl⟩ := Svc.on_cases hstep
  exact Quiet.set hx (hf x x' hx')

theorem Exchange.prune_phase (x : Exchange) : x.prune.phase = x.phase := by
  unfold Exchange.prune
  split_ifs <;> rfl

theorem Exchange.drain_phase (x : Exchange) : x.drain.phase = x.phase := by
  unfold Exchange.drain
  split_ifs <;> rfl

theorem Quiet.push {index : ℕ} (hstep : svc.push index = some next) :
    Quiet svc.exchanges next.exchanges := by
  unfold Svc.push at hstep
  split at hstep
  · cases hstep
  rename_i x hx
  split at hstep
  · split at hstep
    · refine Quiet.on (fun y y' hy' => ?_) hstep
      unfold Exchange.refusePush at hy'
      split at hy' <;> cases hy'
      exact .inr rfl
    · simp only at hstep
      have hpruned : Quiet svc.exchanges svc.prune.exchanges :=
        Quiet.map Exchange.prune_phase svc.exchanges
      split at hstep
      · cases hstep
        have hx' : svc.prune.exchanges[index]? = some x.prune := by
          simp [Svc.prune, hx]
        exact hpruned.trans (Quiet.set hx' (.inr rfl))
      · cases hstep
        exact hpruned
  · cases hstep

theorem Quiet.take (hstep : svc.take = some next) :
    Quiet svc.exchanges next.exchanges := by
  have hpruned : Quiet svc.exchanges svc.prune.exchanges :=
    Quiet.map Exchange.prune_phase svc.exchanges
  unfold Svc.take at hstep
  simp only at hstep
  split at hstep
  · cases hstep
    exact hpruned
  · split at hstep
    · cases hstep
    · rename_i x hx
      cases hstep
      exact hpruned.trans (Quiet.set hx (.inl rfl))

theorem Quiet.respond {index : ℕ} {built : Except HttpError Response}
    (hstep : svc.respond index built = some next) :
    Quiet svc.exchanges next.exchanges := by
  unfold Svc.respond at hstep
  split at hstep
  · cases hstep
  rename_i x hx
  split at hstep
  · split at hstep
    · cases hstep
      exact .refl _
    · split at hstep
      · cases hstep
        exact .refl _
      · rename_i x' hx'
        cases hstep
        unfold Exchange.takeReply at hx'
        split at hx' <;> cases hx'
        exact Quiet.set hx (.inl rfl)
  · cases hstep

/-- Only `bodySlot` brings a task into its body slot. -/
theorem Quiet.step {host : HeaderHost} {action : HttpdAction}
    (hslot : ∀ index, action ≠ .bodySlot index true)
    (harrive : ∀ method, action ≠ .arrive method)
    (hstep : svc.step host action = some next) :
    Quiet svc.exchanges next.exchanges := by
  cases action with
  | arrive method => exact absurd rfl (harrive method)
  | push index => exact Quiet.push hstep
  | take => exact Quiet.take hstep
  | respondFile index built => exact Quiet.respond hstep
  | respond index status headers body =>
      simp only [Svc.step] at hstep
      split at hstep
      · cases hstep
      · exact Quiet.respond hstep
  | prune =>
      cases hstep
      exact Quiet.map Exchange.prune_phase svc.exchanges
  | storeDown =>
      cases hstep
      exact .refl _
  | drain =>
      simp only [Svc.step] at hstep
      split_ifs at hstep
      cases hstep
      exact Quiet.map Exchange.drain_phase svc.exchanges
  | hold index =>
      obtain ⟨held, hheld, rfl⟩ := Option.map_eq_some_iff.mp hstep
      have hquiet : Quiet svc.exchanges held.exchanges := by
        refine Quiet.on (fun x x' hx' => ?_) hheld
        unfold Exchange.hold at hx'
        split at hx' <;> cases hx'
        exact .inl rfl
      exact hquiet
  | leaveInFlight index =>
      obtain ⟨left, hleft, rfl⟩ := Option.map_eq_some_iff.mp hstep
      have hquiet : Quiet svc.exchanges left.exchanges := by
        refine Quiet.on (fun x x' hx' => ?_) hleft
        unfold Exchange.leaveInFlight at hx'
        split at hx' <;> cases hx' <;> exact .inl rfl
      exact hquiet
  | timeout index =>
      simp only [Svc.step] at hstep
      split_ifs at hstep
      refine Quiet.on (fun x x' hx' => ?_) hstep
      unfold Exchange.timeout at hx'
      split at hx' <;> cases hx'
      exact .inr rfl
  | send index =>
      refine Quiet.on (fun x x' hx' => ?_) hstep
      unfold Exchange.send at hx'
      split at hx' <;> cases hx' <;> exact .inl rfl
  | free index =>
      refine Quiet.on (fun x x' hx' => ?_) hstep
      unfold Exchange.free at hx'
      split at hx' <;> cases hx'
      exact .inl rfl
  | checkDown index =>
      refine Quiet.on (fun x x' hx' => ?_) hstep
      unfold Exchange.checkDown at hx'
      split at hx'
      · rename_i hphase
        cases hx'
        rw [hphase]
        split_ifs
        · exact .inr rfl
        · exact .inl rfl
      · cases hx'
  | bodySlot index acquired =>
      cases acquired with
      | true => exact absurd rfl (hslot index)
      | false =>
          refine Quiet.on (fun x x' hx' => ?_) hstep
          unfold Exchange.bodySlot at hx'
          split at hx' <;> cases hx'
          exact .inr rfl
  | readBody index refusal =>
      refine Quiet.on (fun x x' hx' => ?_) hstep
      unfold Exchange.readBody at hx'
      split at hx'
      · rename_i hphase
        split at hx' <;> cases hx'
        · exact .inr rfl
        · rw [hphase]
          exact .inl rfl
      · cases hx'
  | pushDeadline index =>
      refine Quiet.on (fun x x' hx' => ?_) hstep
      unfold Exchange.refusePush at hx'
      split at hx' <;> cases hx'
      exact .inr rfl
  | poll index =>
      refine Quiet.on (fun x x' hx' => ?_) hstep
      unfold Exchange.poll at hx'
      split at hx'
      · split at hx'
        · cases hx'
          exact .inr rfl
        · split_ifs at hx'
          cases hx'
          exact .inr rfl
      · cases hx'
  | disconnect index =>
      refine Quiet.on (fun x x' hx' => ?_) hstep
      unfold Exchange.disconnect at hx'
      split at hx' <;> cases hx' <;> exact .inr rfl

theorem Svc.bodySlot_cases {host : HeaderHost} {index : ℕ}
    (hstep : svc.step host (.bodySlot index true) = some next) :
    ∃ x, svc.exchanges[index]? = some x ∧ x.phase.slot = .before ∧
      next = { svc with
        exchanges :=
          svc.exchanges.set index { x with phase := .readingBody } } := by
  obtain ⟨x, x', hx, hx', rfl⟩ := Svc.on_cases hstep
  unfold Exchange.bodySlot at hx'
  split at hx'
  · rename_i hphase
    cases hx'
    exact ⟨x, hx, by rw [hphase]; rfl, rfl⟩
  · cases hx'

end Quiet

/-! ## The invariant -/

def Slot.Allows : Slot → Bool → Prop
  | .before, permit => permit = false
  | .inside, permit => permit = true
  | .past, _ => True

/-- Every task is charged as its place says. -/
structure Charged (xs : List Exchange) (charges : List Charge) : Prop where
  length : charges.length = xs.length
  permit : ∀ (index : ℕ) (x : Exchange) (charge : Charge),
    xs[index]? = some x → charges[index]? = some charge →
      x.phase.slot.Allows charge.permit

/-- The server with its limits, after any run. -/
structure Limited.Inv (cap bodyCap maxConnections : ℕ) (s : Limited) :
    Prop where
  svc : s.svc.Inv
  cap_eq : s.svc.cap = cap
  bodyCap_eq : s.bodyCap = bodyCap
  maxConnections_eq : s.maxConnections = maxConnections
  charged : Charged s.svc.exchanges s.charges
  bodies : Balanced (fun charge : Charge => charge.permit) cap s.bodyPermits
    s.charges
  bytes : ∀ charge ∈ s.charges, charge.bytes ≤ bodyCap
  guards : Balanced Connection.guarded maxConnections
    (s.connPermits + s.acceptor.permits) s.conns
  connections : s.connections = s.conns.countP Connection.counted

section Charged

variable {xs ys : List Exchange} {charges : List Charge} {index : ℕ}
  {x x' : Exchange} {charge charge' : Charge}

theorem Charged.quiet (hcharged : Charged xs charges) (hquiet : Quiet xs ys) :
    Charged ys charges := by
  refine ⟨hcharged.length.trans hquiet.length.symm, ?_⟩
  intro index y charge hy hcharge
  obtain ⟨x, hx, hsame | hpast⟩ := hquiet.slot index y hy
  · rw [hsame]
    exact hcharged.permit index x charge hx hcharge
  · rw [hpast]
    trivial

theorem Charged.arrive (hcharged : Charged xs charges) (method : String) :
    Charged (xs ++ [.new method])
      (charges ++ [{ permit := false, bytes := 0 }]) := by
  refine ⟨by simp [hcharged.length], ?_⟩
  intro index x charge hx hcharge
  rw [List.getElem?_append] at hx hcharge
  rw [hcharged.length] at hcharge
  by_cases hlt : index < xs.length
  · rw [if_pos hlt] at hx hcharge
    exact hcharged.permit index x charge hx hcharge
  · rw [if_neg hlt] at hx hcharge
    rw [List.mem_singleton.mp (List.mem_of_getElem? hx),
      List.mem_singleton.mp (List.mem_of_getElem? hcharge)]
    rfl

theorem Charged.set (hcharged : Charged xs charges)
    (hx : xs[index]? = some x) (hcharge : charges[index]? = some charge)
    (hallows : x'.phase.slot.Allows charge'.permit) :
    Charged (xs.set index x') (charges.set index charge') := by
  refine ⟨by simp [hcharged.length], ?_⟩
  intro other y c hy hc
  rcases getElem?_set_of_some hx hy with ⟨hsame, rfl⟩ | ⟨hother, hold⟩
  · rcases getElem?_set_of_some hcharge hc with ⟨-, rfl⟩ | ⟨hother, -⟩
    · exact hallows
    · exact absurd hsame hother
  · rcases getElem?_set_of_some hcharge hc with ⟨hsame, -⟩ | ⟨-, hcold⟩
    · exact absurd hsame hother
    · exact hcharged.permit other y c hold hcold

theorem Charged.set_charge (hcharged : Charged xs charges)
    (hx : xs[index]? = some x) (hcharge : charges[index]? = some charge)
    (hallows : x.phase.slot.Allows charge'.permit) :
    Charged xs (charges.set index charge') := by
  have hset := hcharged.set hx hcharge hallows
  obtain ⟨hlt, rfl⟩ := List.getElem?_eq_some_iff.mp hx
  rwa [List.set_getElem_self] at hset

theorem Charged.inside_le (hcharged : Charged xs charges) :
    xs.countP (fun x => x.phase.slot = .inside) ≤
      charges.countP (fun charge => charge.permit) := by
  apply countP_le_of_entries hcharged.length
  intro index x charge hx hcharge hinside
  have hallows := hcharged.permit index x charge hx hcharge
  rw [of_decide_eq_true hinside] at hallows
  exact hallows

/-- Once the tasks past their slots have dropped their permits, a permit is a
task in its slot. -/
theorem Charged.inside_eq (hcharged : Charged xs charges)
    (hdropped : ∀ (index : ℕ) (x : Exchange) (charge : Charge),
      xs[index]? = some x → charges[index]? = some charge →
        x.phase.slot = .past → charge.permit = false) :
    charges.countP (fun charge => charge.permit) =
      xs.countP (fun x => x.phase.slot = .inside) := by
  refine le_antisymm ?_ hcharged.inside_le
  apply countP_le_of_entries hcharged.length.symm
  intro index charge x hcharge hx hpermit
  have hallows := hcharged.permit index x charge hx hcharge
  cases hslot : x.phase.slot with
  | before =>
      rw [hslot] at hallows
      rw [show charge.permit = false from hallows] at hpermit
      cases hpermit
  | inside => rfl
  | past =>
      rw [hdropped index x charge hx hcharge hslot] at hpermit
      cases hpermit

end Charged

section Steps

variable {host : HeaderHost} {cap bodyCap maxConnections index : ℕ}
  {s next : Limited}

theorem Limited.bind_inv (queue maxConnections bodyCap : ℕ)
    (handlerWait : Bool) :
    (Limited.bind queue maxConnections bodyCap handlerWait).Inv
      (clamp 1 65536 queue) (clamp (2 ^ 10) (2 ^ 30) bodyCap)
      (clamp 1 (2 ^ 20) maxConnections) where
  svc := Svc.new_inv _ handlerWait
  cap_eq := rfl
  bodyCap_eq := rfl
  maxConnections_eq := rfl
  charged := ⟨rfl, fun _ _ _ hx => by cases hx⟩
  bodies := .nil
  bytes _ hmem := absurd hmem List.not_mem_nil
  guards := .nil
  connections := rfl

theorem Limited.Inv.bytes_set (hinv : s.Inv cap bodyCap maxConnections)
    {charge' : Charge} (hle : charge'.bytes ≤ bodyCap) :
    ∀ charge ∈ s.charges.set index charge', charge.bytes ≤ bodyCap := by
  intro charge hmem
  rcases List.mem_or_eq_of_mem_set hmem with hold | hnew
  · exact hinv.bytes charge hold
  · rw [hnew]
    exact hle

theorem Limited.Inv.server (hinv : s.Inv cap bodyCap maxConnections)
    {action : HttpdAction} (hstep : s.server host action = some next) :
    next.Inv cap bodyCap maxConnections := by
  unfold Limited.server at hstep
  split at hstep
  · cases hstep
  rename_i svc hsvc
  have hnext : svc.Inv := hinv.svc.step hsvc
  have hcap : svc.cap = cap := (Svc.step_continues hsvc).cap.trans hinv.cap_eq
  split at hstep
  · rename_i method
    cases hstep
    cases hsvc
    refine { hinv with
      svc := hnext
      cap_eq := hcap
      charged := hinv.charged.arrive method
      bodies := hinv.bodies.append rfl
      bytes := fun charge hmem => ?_ }
    rcases List.mem_append.mp hmem with hold | hnew
    · exact hinv.bytes charge hold
    · rw [List.mem_singleton.mp hnew]
      exact Nat.zero_le bodyCap
  · rename_i index
    split at hstep
    · rename_i available charge hpermits hcharge
      cases hstep
      obtain ⟨x, hx, hslot, rfl⟩ := Svc.bodySlot_cases hsvc
      have hallows := hinv.charged.permit index x charge hx hcharge
      rw [hslot] at hallows
      have hbodies := hinv.bodies
      rw [hpermits] at hbodies
      have hbytes := hinv.bytes charge (List.mem_of_getElem? hcharge)
      exact { hinv with
        svc := hnext
        cap_eq := hcap
        charged := hinv.charged.set hx hcharge rfl
        bodies := hbodies.acquire hcharge hallows rfl
        bytes := hinv.bytes_set hbytes }
    · cases hstep
  · rename_i harrive hslot
    cases hstep
    have hquiet : Quiet s.svc.exchanges svc.exchanges :=
      Quiet.step hslot harrive hsvc
    exact { hinv with
      svc := hnext
      cap_eq := hcap
      charged := hinv.charged.quiet hquiet }

theorem Limited.Inv.chunk (hinv : s.Inv cap bodyCap maxConnections)
    {bytes : ℕ} (hstep : s.chunk index bytes = some next) :
    next.Inv cap bodyCap maxConnections := by
  unfold Limited.chunk at hstep
  split at hstep
  · rename_i x charge hx hcharge
    split_ifs at hstep with hchunk
    cases hstep
    have hle := hchunk.2
    rw [hinv.bodyCap_eq] at hle
    have hallows := hinv.charged.permit index x charge hx hcharge
    exact { hinv with
      charged := hinv.charged.set_charge hx hcharge hallows
      bodies := hinv.bodies.keep hcharge rfl
      bytes := hinv.bytes_set hle }
  · cases hstep

theorem Limited.Inv.dropPermit (hinv : s.Inv cap bodyCap maxConnections)
    (hstep : s.dropPermit index = some next) :
    next.Inv cap bodyCap maxConnections := by
  unfold Limited.dropPermit at hstep
  split at hstep
  · rename_i x charge hx hcharge
    split_ifs at hstep with hdrop
    cases hstep
    obtain ⟨hpermit, hpast⟩ := hdrop
    have hallows : x.phase.slot.Allows false := by
      rw [hpast]
      trivial
    have hbytes := hinv.bytes charge (List.mem_of_getElem? hcharge)
    exact { hinv with
      charged := hinv.charged.set_charge hx hcharge hallows
      bodies := hinv.bodies.release hcharge hpermit rfl
      bytes := hinv.bytes_set hbytes }
  · cases hstep

/-- The accept loop takes a permit, or gives its own back. -/
theorem Limited.Inv.passPermit (hinv : s.Inv cap bodyCap maxConnections)
    {acceptor : Acceptor} {connPermits : ℕ}
    (hsame : s.connPermits + s.acceptor.permits =
      connPermits + acceptor.permits) :
    { s with acceptor := acceptor, connPermits := connPermits }.Inv
      cap bodyCap maxConnections := by
  have hguards := hinv.guards
  rw [hsame] at hguards
  exact { hinv with guards := hguards }

theorem Limited.Inv.acquire (hinv : s.Inv cap bodyCap maxConnections)
    (hstep : s.acquire = some next) :
    next.Inv cap bodyCap maxConnections := by
  unfold Limited.acquire at hstep
  split at hstep
  · rename_i available hacceptor hpermits
    cases hstep
    apply hinv.passPermit
    rw [hacceptor, hpermits]
    rfl
  · cases hstep

theorem Limited.Inv.accept (hinv : s.Inv cap bodyCap maxConnections)
    (hstep : s.accept = some next) : next.Inv cap bodyCap maxConnections := by
  unfold Limited.accept at hstep
  split at hstep
  · rename_i hacceptor
    cases hstep
    have hguards := hinv.guards
    rw [hacceptor] at hguards
    exact { hinv with
      guards := hguards.append_holding rfl
      connections := by
        rw [List.countP_append, hinv.connections]
        rfl }
  · cases hstep

theorem Limited.Inv.acceptError (hinv : s.Inv cap bodyCap maxConnections)
    (hstep : s.acceptError = some next) :
    next.Inv cap bodyCap maxConnections := by
  unfold Limited.acceptError at hstep
  split at hstep
  · rename_i hacceptor
    cases hstep
    apply hinv.passPermit
    rw [hacceptor]
    rfl
  · cases hstep

theorem Limited.Inv.stopAccept (hinv : s.Inv cap bodyCap maxConnections)
    (hstep : s.stopAccept = some next) :
    next.Inv cap bodyCap maxConnections := by
  unfold Limited.stopAccept at hstep
  split at hstep
  · rename_i hacceptor
    cases hstep
    apply hinv.passPermit
    rw [hacceptor]
    rfl
  · rename_i hacceptor
    cases hstep
    apply hinv.passPermit
    rw [hacceptor]
    rfl
  · cases hstep

theorem Limited.Inv.endConn (hinv : s.Inv cap bodyCap maxConnections)
    (hstep : s.endConn index = some next) :
    next.Inv cap bodyCap maxConnections := by
  unfold Limited.endConn at hstep
  split at hstep
  · rename_i hconn
    cases hstep
    have hcount := countP_set_add Connection.counted hconn .dropping
    have hbefore : Connection.counted .serving = true := rfl
    have hafter : Connection.counted .dropping = false := rfl
    rw [hbefore, hafter, if_pos rfl, if_neg Bool.false_ne_true] at hcount
    have hconnections := hinv.connections
    -- the connection is still counted, so nothing wraps
    have hleft : fetchSub s.connections =
        (s.conns.set index .dropping).countP Connection.counted := by
      unfold fetchSub
      rw [if_neg (by omega)]
      omega
    exact { hinv with
      guards := hinv.guards.keep hconn rfl
      connections := hleft }
  · cases hstep

theorem Limited.Inv.freeConn (hinv : s.Inv cap bodyCap maxConnections)
    (hstep : s.freeConn index = some next) :
    next.Inv cap bodyCap maxConnections := by
  unfold Limited.freeConn at hstep
  split at hstep
  · rename_i hconn
    cases hstep
    have hguards := hinv.guards.release hconn (y := .closed) rfl rfl
    have hcount := countP_set_add Connection.counted hconn .closed
    rw [Nat.add_right_comm] at hguards
    exact { hinv with
      guards := hguards
      connections := hinv.connections.trans hcount.symm }
  · cases hstep

theorem Limited.Inv.step (hinv : s.Inv cap bodyCap maxConnections)
    {action : LimitedAction} (hstep : s.step host action = some next) :
    next.Inv cap bodyCap maxConnections := by
  cases action with
  | server action => exact hinv.server hstep
  | chunk index bytes => exact hinv.chunk hstep
  | dropPermit index => exact hinv.dropPermit hstep
  | acquire => exact hinv.acquire hstep
  | accept => exact hinv.accept hstep
  | acceptError => exact hinv.acceptError hstep
  | stopAccept => exact hinv.stopAccept hstep
  | endConn index => exact hinv.endConn hstep
  | freeConn index => exact hinv.freeConn hstep

end Steps

/-! ## What holds in every state -/

section States

variable {cap bodyCap maxConnections : ℕ} {s : Limited}

theorem Connection.guarded_of_counted {conn : Connection}
    (hcounted : conn.counted = true) : conn.guarded = true := by
  cases conn with
  | serving => rfl
  | dropping => cases hcounted
  | closed => cases hcounted

theorem Limited.Inv.connections_le (hinv : s.Inv cap bodyCap maxConnections) :
    s.connections ≤ maxConnections := by
  calc
    s.connections = s.conns.countP Connection.counted := hinv.connections
    _ ≤ s.conns.countP Connection.guarded :=
      List.countP_mono_left fun _ _ => Connection.guarded_of_counted
    _ ≤ maxConnections := hinv.guards.held_le

/-- Connections that are closed leave nothing behind. -/
theorem Limited.Inv.all_closed (hinv : s.Inv cap bodyCap maxConnections)
    (hclosed : ∀ conn ∈ s.conns, conn = .closed) :
    s.connections = 0 ∧
      s.connPermits + s.acceptor.permits = maxConnections := by
  constructor
  · rw [hinv.connections, List.countP_eq_zero]
    intro conn hconn
    rw [hclosed conn hconn]
    exact Bool.false_ne_true
  · apply hinv.guards.all_free
    intro conn hconn
    rw [hclosed conn hconn]
    rfl

theorem Limited.Inv.reading_eq (hinv : s.Inv cap bodyCap maxConnections) :
    s.reading = s.charges.countP fun charge => charge.permit := by
  unfold Limited.reading
  rw [hinv.cap_eq]
  exact hinv.bodies.held_eq

theorem Limited.Inv.bytesOf_le (hinv : s.Inv cap bodyCap maxConnections)
    (index : ℕ) : s.bytesOf index ≤ bodyCap := by
  unfold Limited.bytesOf
  split
  · rename_i charge hcharge
    exact hinv.bytes charge (List.mem_of_getElem? hcharge)
  · exact Nat.zero_le bodyCap

theorem Limited.Inv.parkedBytes_le (hinv : s.Inv cap bodyCap maxConnections) :
    s.parkedBytes ≤ cap * bodyCap := by
  have hqueue : s.svc.queue.length ≤ cap := hinv.cap_eq ▸ hinv.svc.bounded
  calc
    s.parkedBytes ≤ s.svc.queue.length * bodyCap :=
      sum_map_le fun index _ => hinv.bytesOf_le index
    _ ≤ cap * bodyCap := Nat.mul_le_mul_right bodyCap hqueue

end States

end Httpd

open Httpd in
/-- In every run: no more connections are open than allowed, the counter
tells their number, and closed ones leave it at zero and every permit free, but
for one that the accept loop may hold for the next; no more bodies are read
than the queue has places, `reading` does not fall below zero and tells their
number once the permits of those that are past are dropped; and the bodies that are read, and those that are parked, take no more
than a place each of the largest body. -/
theorem httpd_limits (host : HeaderHost) (queue maxConnections bodyCap : ℕ)
    (handlerWait : Bool) (s : Limited)
    (hreach : (limitedSystem host).Reaches
      (Limited.bind queue maxConnections bodyCap handlerWait) s) :
    (s.connections = s.conns.countP Connection.counted ∧
      s.connections ≤ clamp 1 (2 ^ 20) maxConnections ∧
      ((∀ conn ∈ s.conns, conn = .closed) →
        s.connections = 0 ∧
          s.connPermits + s.acceptor.permits =
            clamp 1 (2 ^ 20) maxConnections)) ∧
    (s.bodyPermits ≤ s.svc.cap ∧
      s.reading ≤ clamp 1 65536 queue ∧
      s.svc.exchanges.countP (fun x => x.phase.slot = .inside) ≤ s.reading ∧
      ((∀ (index : ℕ) (x : Exchange) (charge : Charge),
          s.svc.exchanges[index]? = some x →
            s.charges[index]? = some charge →
              x.phase.slot = .past → charge.permit = false) →
        s.reading =
          s.svc.exchanges.countP fun x => x.phase.slot = .inside)) ∧
    ((∀ charge ∈ s.charges,
        charge.bytes ≤ clamp (2 ^ 10) (2 ^ 30) bodyCap) ∧
      s.readingBytes ≤
        clamp 1 65536 queue * clamp (2 ^ 10) (2 ^ 30) bodyCap ∧
      s.parkedBytes ≤
        clamp 1 65536 queue * clamp (2 ^ 10) (2 ^ 30) bodyCap) := by
  have hinv := hreach.invariant (fun _ _ _ hinv hstep => hinv.step hstep)
    (Limited.bind_inv queue maxConnections bodyCap handlerWait)
  have hreading := hinv.reading_eq
  refine ⟨⟨hinv.connections, hinv.connections_le, hinv.all_closed⟩,
    ⟨?_, ?_, ?_, ?_⟩, hinv.bytes, hinv.bodies.weight_le hinv.bytes,
    hinv.parkedBytes_le⟩
  · rw [hinv.cap_eq]
    exact hinv.bodies.available_le
  · rw [hreading]
    exact hinv.bodies.held_le
  · rw [hreading]
    exact hinv.charged.inside_le
  · intro hdropped
    rw [hreading]
    exact hinv.charged.inside_eq hdropped

open Httpd in
/-- One connection, whose request is read and parked, comes and goes. -/
def limitedRun : List LimitedAction :=
  [.acquire, .accept, .server (.arrive "PUT"), .server (.checkDown 0),
    .server (.bodySlot 0 true), .chunk 0 512, .chunk 0 512,
    .server (.readBody 0 none), .server (.push 0), .dropPermit 0, .acquire,
    .endConn 0, .freeConn 0]

open Httpd in
theorem httpd_limits_run :
    ∃ s, (limitedSystem verbatimHost).run (Limited.bind 4 2 0 false)
        limitedRun = some s ∧
      s.reading = 0 ∧ s.connections = 0 ∧ s.parkedBytes = 1024 ∧
      s.parkedBytes ≤ clamp 1 65536 4 * clamp (2 ^ 10) (2 ^ 30) 0 := by
  have hrun : ((limitedSystem verbatimHost).run (Limited.bind 4 2 0 false)
      limitedRun).map (fun s => (s.reading, s.connections, s.parkedBytes)) =
      some (0, 0, 1024) := by
    decide +kernel
  obtain ⟨s, hs, hseen⟩ := Option.map_eq_some_iff.mp hrun
  have hlimits :=
    httpd_limits verbatimHost 4 2 0 false s ⟨limitedRun, hs⟩
  simp only [Prod.mk.injEq] at hseen
  exact ⟨s, hs, hseen.1, hseen.2.1, hseen.2.2, hlimits.2.2.2.2⟩

end Rulisp
