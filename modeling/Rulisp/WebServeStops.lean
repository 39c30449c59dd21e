import Rulisp.WebServeAnswers

/-!
# Stopping the pullers

Once the cell of `stop` is set, or the server is down, a puller leaves
`%serve` after a bounded number of its own steps, and only a handler can hold
it up.
-/

namespace Rulisp

namespace Web

open Httpd TransitionSystem ListEntries

/-- The steps that a puller still takes at most, once it is to stop. -/
def Puller.stepsLeft (stopCell down : Bool) (p : Puller) : ℕ :=
  match p.phase with
  | .left => 0
  | .top => if stopCell then 1 else 2
  | .wait => if down then 1 else 13
  | .prune => 12
  | .waiting => 11
  | .take => 10
  | .pull => 9
  | .hold _ => 8
  | .replyTaken _ _ => 7
  | .sending _ _ => 6
  -- a handler that has answered has no reply left to take
  | .handler _ => if p.answered then 5 else 7
  | .free _ _ => 5
  | .dropping _ _ => 4
  | .dropped _ _ => 3

theorem Puller.stepsLeft_le (stopCell down : Bool) (p : Puller) :
    p.stepsLeft stopCell down ≤ 13 := by
  unfold Puller.stepsLeft
  split
  case h_2 | h_3 | h_11 => split_ifs <;> omega
  all_goals omega

/-- Setting the cell or taking the server down gives a puller no step. -/
theorem Puller.stepsLeft_mono {stopCell stopCell' down down' : Bool}
    (hcell : stopCell = true → stopCell' = true)
    (hdown : down = true → down' = true) (p : Puller) :
    p.stepsLeft stopCell' down' ≤ p.stepsLeft stopCell down := by
  unfold Puller.stepsLeft
  split
  case h_2 => cases stopCell <;> cases stopCell' <;> simp_all
  case h_3 => cases down <;> cases down' <;> simp_all
  all_goals exact Nat.le_refl _

def Serving.stepsLeft (puller : ℕ) (s : Serving) : ℕ :=
  match s.pullers[puller]? with
  | some p => p.stepsLeft s.stopCell s.svc.down
  | none => 0

/-- The pullers are to stop. -/
def Serving.Stopping (s : Serving) : Prop :=
  s.stopCell = true ∨ s.svc.down = true

def ServeAction.isLoop (puller : ℕ) : ServeAction → Bool
  | .loop i => i = puller
  | _ => false

/-! ## A server that is down stays down -/

section Down

variable {svc next : Svc}

theorem Svc.on_down {index : ℕ} {f : Exchange → Option Exchange}
    (hstep : svc.on index f = some next) : next.down = svc.down := by
  obtain ⟨x, x', -, -, rfl⟩ := Svc.on_cases hstep
  rfl

theorem Svc.take_down (hstep : svc.take = some next) :
    next.down = svc.down := by
  unfold Svc.take at hstep
  simp only at hstep
  split at hstep
  · cases hstep
    rfl
  · split at hstep <;> cases hstep
    rfl

theorem Svc.respond_down {index : ℕ} {built : Except HttpError Response}
    (hstep : svc.respond index built = some next) :
    next.down = svc.down := by
  unfold Svc.respond at hstep
  split at hstep
  · cases hstep
  split_ifs at hstep
  split at hstep
  · cases hstep
    rfl
  · split at hstep <;> cases hstep <;> rfl

theorem Svc.push_down {index : ℕ} (hstep : svc.push index = some next) :
    next.down = svc.down := by
  unfold Svc.push at hstep
  split at hstep
  · cases hstep
  split at hstep
  · split_ifs at hstep with hup
    · exact Svc.on_down hstep
    · simp only at hstep
      split_ifs at hstep <;> cases hstep <;> rfl
  · cases hstep

theorem Svc.step_down {host : HeaderHost} {action : HttpdAction}
    (hstep : svc.step host action = some next) (hdown : svc.down = true) :
    next.down = true := by
  cases action with
  | storeDown =>
      cases hstep
      rfl
  | arrive | prune =>
      cases hstep
      exact hdown
  | drain =>
      simp only [Svc.step] at hstep
      split_ifs at hstep
      cases hstep
      exact hdown
  | push index => exact (Svc.push_down hstep).trans hdown
  | take => exact (Svc.take_down hstep).trans hdown
  | respond index status headers body =>
      simp only [Svc.step] at hstep
      split at hstep
      · cases hstep
      · exact (Svc.respond_down hstep).trans hdown
  | respondFile index built => exact (Svc.respond_down hstep).trans hdown
  | timeout index =>
      simp only [Svc.step] at hstep
      split_ifs at hstep
      exact (Svc.on_down hstep).trans hdown
  | hold | leaveInFlight =>
      obtain ⟨svc', hsvc, rfl⟩ := Option.map_eq_some_iff.mp hstep
      exact (Svc.on_down hsvc).trans hdown
  | _ => exact (Svc.on_down hstep).trans hdown

end Down

/-! ## What a step of one puller does to the rest -/

/-- Only the entry of puller `i` is written, and nothing is taken back. -/
structure Serving.StepsAs (i : ℕ) (s next : Serving) : Prop where
  others : ∀ j : ℕ, j ≠ i → next.pullers[j]? = s.pullers[j]?
  cell : next.stopCell = s.stopCell
  down : s.svc.down = true → next.svc.down = true

section Steps

variable {host : HeaderHost} {debug : Bool} {s next : Serving} {i : ℕ}

theorem Serving.StepsAs.refl (i : ℕ) (s : Serving) : s.StepsAs i s :=
  ⟨fun _ _ => rfl, rfl, id⟩

theorem Serving.StepsAs.set (i : ℕ) (p : Puller) {svc : Svc}
    (hdown : s.svc.down = true → svc.down = true) :
    s.StepsAs i (s.set i p svc) where
  others _ hj := List.getElem?_set_ne (Ne.symm hj)
  cell := rfl
  down := hdown

theorem Serving.StepsAs.stepsLeft_le (hsteps : s.StepsAs i next) {j : ℕ}
    (hj : j ≠ i) : next.stepsLeft j ≤ s.stepsLeft j := by
  unfold Serving.stepsLeft
  rw [hsteps.others j hj]
  split
  · exact Puller.stepsLeft_mono (fun hcell => hsteps.cell.trans hcell)
      hsteps.down _
  · exact Nat.le_refl 0

theorem Serving.stepsLeft_set {p p' : Puller} {svc : Svc}
    (hp : s.pullers[i]? = some p) :
    (s.set i p' svc).stepsLeft i = p'.stepsLeft s.stopCell svc.down := by
  have hlt := (List.getElem?_eq_some_iff.mp hp).1
  simp only [Serving.stepsLeft, Serving.set, List.getElem?_set_self hlt]

theorem Serving.stepsLeft_of {p : Puller} (hp : s.pullers[i]? = some p) :
    s.stepsLeft i = p.stepsLeft s.stopCell s.svc.down := by
  simp only [Serving.stepsLeft, hp]

/-- One step of a puller that is to stop is one step less. -/
theorem Serving.loop_stepsLeft (hstopping : s.Stopping)
    (hstep : s.loop host i = some next) :
    s.StepsAs i next ∧ next.stepsLeft i + 1 ≤ s.stepsLeft i := by
  unfold Serving.loop at hstep
  split at hstep
  · cases hstep
  rename_i p hp
  rw [Serving.stepsLeft_of hp]
  have hset : ∀ (p' : Puller) (svc : Svc),
      (s.svc.down = true → svc.down = true) →
      p'.stepsLeft s.stopCell svc.down + 1 ≤
        p.stepsLeft s.stopCell s.svc.down →
      s.StepsAs i (s.set i p' svc) ∧ (s.set i p' svc).stepsLeft i + 1 ≤
        p.stepsLeft s.stopCell s.svc.down := by
    intro p' svc hdown hless
    exact ⟨.set i p' hdown, by rw [Serving.stepsLeft_set hp]; exact hless⟩
  have hafter : ∀ (exits answered down : Bool),
      (Puller.mk (.afterFree exits) answered).stepsLeft s.stopCell down ≤
        2 := by
    intro exits answered down
    cases exits
    · cases hcell : s.stopCell <;>
        simp [PullerPhase.afterFree, Puller.stepsLeft]
    · exact Nat.zero_le 2
  simp only at hstep
  split at hstep
  case h_1 hphase =>
    cases hstep
    apply hset _ _ id
    rcases hstopping with hcell | hdown
    · simp [Puller.stepsLeft, hphase, hcell]
    · cases hcell : s.stopCell <;>
        simp [Puller.stepsLeft, hphase, hdown]
  case h_2 hphase =>
    cases hstep
    apply hset _ _ id
    cases hdown : s.svc.down <;> simp [Puller.stepsLeft, hphase]
  case h_3 hphase =>
    cases hstep
    apply hset _ s.svc.prune id
    split_ifs <;> simp [Puller.stepsLeft, hphase]
  case h_4 hphase =>
    cases hstep
    apply hset _ _ id
    split_ifs <;> simp only [Puller.stepsLeft, hphase]
    · split_ifs <;> omega
    · omega
  case h_5 hphase =>
    cases hstep
    apply hset _ _ id
    split_ifs <;> simp [Puller.stepsLeft, hphase]
  case h_6 hphase =>
    obtain ⟨svc, hsvc, rfl⟩ := Option.map_eq_some_iff.mp hstep
    apply hset _ _ (fun hdown => (Svc.take_down hsvc).trans hdown)
    cases s.svc.prune.queue <;>
      simp only [PullerPhase.ofQueue, Puller.stepsLeft, hphase]
    · split_ifs <;> omega
    · omega
  case h_7 index hphase =>
    obtain ⟨svc, hsvc, rfl⟩ := Option.map_eq_some_iff.mp hstep
    apply hset _ _ (Svc.step_down hsvc)
    simp [Puller.stepsLeft, hphase]
  case h_8 index failing hphase =>
    obtain ⟨svc, hsvc, rfl⟩ := Option.map_eq_some_iff.mp hstep
    apply hset _ _ (Svc.step_down hsvc)
    simp [Puller.stepsLeft, hphase]
  case h_9 index failing hphase =>
    obtain ⟨svc, hsvc, rfl⟩ := Option.map_eq_some_iff.mp hstep
    apply hset _ _ (Svc.step_down hsvc)
    cases failing <;> simp [Puller.stepsLeft, hphase]
  case h_10 index exits hphase =>
    split at hstep
    · obtain ⟨svc, hsvc, rfl⟩ := Option.map_eq_some_iff.mp hstep
      apply hset _ _ (Svc.step_down hsvc)
      simp [Puller.stepsLeft, hphase]
    · cases hstep
      apply hset _ _ id
      have hthen := hafter exits p.answered s.svc.down
      simp only [Puller.stepsLeft, hphase] at hthen ⊢
      omega
  case h_11 index exits hphase =>
    obtain ⟨svc, hsvc, rfl⟩ := Option.map_eq_some_iff.mp hstep
    apply hset _ _ (Svc.step_down hsvc)
    simp [Puller.stepsLeft, hphase]
  case h_12 index exits hphase =>
    obtain ⟨svc, hsvc, rfl⟩ := Option.map_eq_some_iff.mp hstep
    apply hset _ _ (Svc.step_down hsvc)
    have hthen := hafter exits p.answered svc.down
    simp only [Puller.stepsLeft, hphase] at hthen ⊢
    omega
  all_goals cases hstep

/-- A call takes the reply of a handler that has not answered, or is
refused. -/
theorem Serving.call_stepsLeft (hinv : s.Inv) {p₀ p : Puller} {index : ℕ}
    {failing : Bool} {refused : PullerPhase} {action : HttpdAction}
    (hstep : s.call host i p index failing refused action = some next)
    (built : Except HttpError Response) (hp : s.pullers[i]? = some p₀)
    (hphase : p₀.phase = .handler index)
    (hrespond : ∀ svc, s.svc.step host action = some svc →
      s.svc.respond index built = some svc)
    (hrefused : ({ p with phase := refused } : Puller).stepsLeft s.stopCell
      s.svc.down ≤ p₀.stepsLeft s.stopCell s.svc.down) :
    s.StepsAs i next ∧ next.stepsLeft i ≤ s.stepsLeft i := by
  obtain ⟨svc, hsvc, rfl⟩ := Option.map_eq_some_iff.mp hstep
  have hbuilt := hrespond svc hsvc
  have hdown := Svc.respond_down hbuilt
  refine ⟨.set i _ (fun h => hdown.trans h), ?_⟩
  rw [Serving.stepsLeft_set hp, Serving.stepsLeft_of hp, hdown]
  obtain ⟨x, hx, hholds⟩ := hinv.owned i p₀ index hp (by rw [hphase]; rfl)
  unfold Puller.Holds at hholds
  rw [hphase] at hholds
  obtain ⟨y, hy, hcases⟩ := respond_cases hbuilt
  rw [hx] at hy
  cases hy
  rcases hcases with ⟨rfl, -⟩ | ⟨response, hheld, -⟩
  · have hplace : ∀ response, place s.svc index ≠
        some (.responding response) := by
      intro response hsome
      have hsender : x.sender = .responding response := by
        simpa [place, hx] using hsome
      simp only [hsender] at hholds
      split_ifs at hholds
    split
    · rename_i response hsome
      exact absurd hsome (hplace response)
    · exact hrefused
  · have hflag : p₀.answered = false := by
      simp only [hheld] at hholds
      split_ifs at hholds with hflag
      exact Bool.eq_false_iff.mpr hflag
    split
    · simp [Puller.stepsLeft, hphase, hflag]
    · exact hrefused

/-- A handler gives its puller no further step. -/
theorem Serving.handle_stepsLeft (hinv : s.Inv) {event : HandlerEvent}
    (hstep : s.handle host debug i event = some next) :
    s.StepsAs i next ∧ next.stepsLeft i ≤ s.stepsLeft i := by
  unfold Serving.handle at hstep
  split at hstep
  · cases hstep
  rename_i p hp
  split at hstep
  swap
  · cases hstep
  rename_i index hphase
  have hleft : 5 ≤ p.stepsLeft s.stopCell s.svc.down := by
    simp only [Puller.stepsLeft, hphase]
    split_ifs <;> omega
  have hfree : ∀ (exits : Bool) (warned : List ℕ),
      let freed : Serving :=
        { s.set i { p with phase := .free index exits } s.svc with
          warned := warned }
      s.StepsAs i freed ∧ freed.stepsLeft i ≤ s.stepsLeft i := by
    intro exits warned
    obtain ⟨hothers, hcell, hdown⟩ := @Serving.StepsAs.set s i
      { p with phase := .free index exits } s.svc id
    refine ⟨⟨hothers, hcell, hdown⟩, ?_⟩
    rw [Serving.stepsLeft_of hp]
    exact (Serving.stepsLeft_set hp).trans_le hleft
  have hrespond500 : s.respond500 host i p index = some next →
      s.StepsAs i next ∧ next.stepsLeft i ≤ s.stepsLeft i := by
    intro hcall
    obtain ⟨x, hx, -⟩ := hinv.owned i p index hp (by rw [hphase]; rfl)
    let built := buildResponse host x.method 500 none []
    refine Serving.call_stepsLeft hinv hcall built hp hphase
      (fun svc hsvc => ?_) hleft
    simpa [Svc.step, hx] using hsvc
  cases event with
  | respond status headers body =>
      obtain ⟨x, hx, -⟩ := hinv.owned i p index hp (by rw [hphase]; rfl)
      let built := buildResponse host x.method status headers body
      refine Serving.call_stepsLeft hinv hstep built hp hphase
        (fun svc hsvc => ?_) (by rw [← hphase])
      simpa [Svc.step, hx] using hsvc
  | respondFile built =>
      exact Serving.call_stepsLeft hinv hstep built hp hphase
        (fun svc hsvc => hsvc) (by rw [← hphase])
  | returns =>
      cases hstep
      exact hfree false _
  | signals =>
      simp only at hstep
      split at hstep
      · cases hstep
        exact ⟨.refl i s, Nat.le_refl _⟩
      · exact hrespond500 hstep
  | respond500 => exact hrespond500 hstep
  | retryHandler =>
      cases hstep
      exact ⟨.refl i s, Nat.le_refl _⟩
  | skipRequest =>
      cases hstep
      exact hfree false s.warned
  | exits =>
      cases hstep
      exact hfree true s.warned

/-- A step of the run, as puller `j` sees it. -/
theorem Serving.step_stepsLeft (hinv : s.Inv) (hstopping : s.Stopping)
    {action : ServeAction} (hstep : s.step host debug action = some next)
    (j : ℕ) :
    next.Stopping ∧
      next.stepsLeft j + (if action.isLoop j then 1 else 0) ≤
        s.stepsLeft j := by
  have hkept : ∀ {k : ℕ}, s.StepsAs k next → next.Stopping := by
    intro k hsteps
    rcases hstopping with hcell | hdown
    · exact .inl (hsteps.cell.trans hcell)
    · exact .inr (hsteps.down hdown)
  cases action with
  | server action =>
      simp only [Serving.step] at hstep
      split at hstep
      · cases hstep
      obtain ⟨svc, hsvc, rfl⟩ := Option.map_eq_some_iff.mp hstep
      have hdown := Svc.step_down hsvc
      refine ⟨hstopping.imp_right hdown, ?_⟩
      simp only [ServeAction.isLoop, Bool.false_eq_true, if_false,
        Nat.add_zero, Serving.stepsLeft]
      split
      · exact Puller.stepsLeft_mono id hdown _
      · exact Nat.le_refl 0
  | stop =>
      cases hstep
      refine ⟨.inl rfl, ?_⟩
      simp only [ServeAction.isLoop, Bool.false_eq_true, if_false,
        Nat.add_zero, Serving.stepsLeft]
      split
      · exact Puller.stepsLeft_mono (fun _ => rfl) id _
      · exact Nat.le_refl 0
  | loop i =>
      obtain ⟨hsteps, hless⟩ := Serving.loop_stepsLeft hstopping hstep
      refine ⟨hkept hsteps, ?_⟩
      by_cases heq : j = i
      · subst heq
        simpa [ServeAction.isLoop] using hless
      · simpa [ServeAction.isLoop, Ne.symm heq] using hsteps.stepsLeft_le heq
  | handler i event =>
      obtain ⟨hsteps, hless⟩ := Serving.handle_stepsLeft hinv hstep
      refine ⟨hkept hsteps, ?_⟩
      by_cases heq : j = i
      · subst heq
        simpa [ServeAction.isLoop] using hless
      · simpa [ServeAction.isLoop] using hsteps.stepsLeft_le heq

/-! ## Nothing but a handler holds a puller up -/

theorem Svc.take_isSome (svc : Svc) : svc.take.isSome := by
  unfold Svc.take
  simp only
  split
  · rfl
  · rename_i index queue hqueue
    split
    · rename_i hnone
      have hlive : svc.live index = true := by
        have hmem : index ∈ svc.prune.queue := by simp [hqueue]
        exact (List.mem_filter.mp hmem).2
      simp only [Svc.prune, List.getElem?_map, Option.map_eq_none_iff]
        at hnone
      simp [Svc.live, hnone] at hlive
    · rfl

theorem Svc.on_isSome {svc : Svc} {index : ℕ} {x : Exchange}
    {f : Exchange → Option Exchange} (hx : svc.exchanges[index]? = some x)
    (hf : (f x).isSome) : (svc.on index f).isSome := by
  obtain ⟨x', hx'⟩ := Option.isSome_iff_exists.mp hf
  simp [Svc.on, hx, hx']

/-- A puller outside its handler can always go on. -/
theorem Serving.Inv.goes_on (hinv : s.Inv) {p : Puller}
    (hp : s.pullers[i]? = some p) :
    p.phase = .left ∨ (∃ index, p.phase = .handler index) ∨
      (s.loop host i).isSome := by
  have howned : ∀ index, p.phase.index = some index →
      ∃ x, s.svc.exchanges[index]? = some x ∧ p.Holds x := fun index =>
    hinv.owned i p index hp
  unfold Puller.Holds at howned
  cases hphase : p.phase <;> rw [hphase] at howned
  case left => exact .inl rfl
  case handler index => exact .inr (.inl ⟨index, rfl⟩)
  case hold index =>
    obtain ⟨x, hx, hplace⟩ := howned index rfl
    refine .inr (.inr ?_)
    simp only [Serving.loop, hp, hphase, Option.isSome_map, Svc.step]
    exact Svc.on_isSome hx (by simp [Exchange.hold, hplace])
  case replyTaken index failing =>
    obtain ⟨x, hx, response, hplace⟩ := howned index rfl
    refine .inr (.inr ?_)
    simp only [Serving.loop, hp, hphase, Option.isSome_map, Svc.step]
    exact Svc.on_isSome hx (by simp [Exchange.leaveInFlight, hplace])
  case sending index failing =>
    obtain ⟨x, hx, response, hplace⟩ := howned index rfl
    refine .inr (.inr ?_)
    simp only [Serving.loop, hp, hphase, Option.isSome_map, Svc.step]
    exact Svc.on_isSome hx (by simp [Exchange.send, hplace])
  case free index exits =>
    obtain ⟨x, hx, hholds⟩ := howned index rfl
    refine .inr (.inr ?_)
    simp only [Serving.loop, hp, hphase]
    split
    · rename_i hplace
      simp only [Option.isSome_map, Svc.step]
      have hheld : x.sender = .held := by simpa [place, hx] using hplace
      exact Svc.on_isSome hx (by simp [Exchange.free, hheld])
    · rfl
  case dropping index exits =>
    obtain ⟨x, hx, hplace⟩ := howned index rfl
    refine .inr (.inr ?_)
    simp only [Serving.loop, hp, hphase, Option.isSome_map, Svc.step]
    exact Svc.on_isSome hx (by simp [Exchange.send, hplace])
  case dropped index exits =>
    obtain ⟨x, hx, hplace⟩ := howned index rfl
    refine .inr (.inr ?_)
    simp only [Serving.loop, hp, hphase, Option.isSome_map, Svc.step]
    exact Svc.on_isSome hx (by simp [Exchange.leaveInFlight, hplace])
  case pull =>
    refine .inr (.inr ?_)
    simp only [Serving.loop, hp, hphase, Option.isSome_map]
    exact Svc.take_isSome s.svc
  all_goals exact .inr (.inr (by simp [Serving.loop, hp, hphase]))

end Steps

end Web

open Httpd Web TransitionSystem in
/-- Once the cell of `stop` is set, or the server is down, every puller takes
at most thirteen steps more, whatever the tasks of the server, the other
pullers and the handlers do; and until it has left `%serve` it can always take
its next one, except in a handler. -/
theorem web_stop_joins (host : HeaderHost) (debug : Bool) (cap : ℕ)
    (handlerWait : Bool) (threads : ℕ) (s later : Serving)
    (hreach : (serveSystem host debug).Reaches
      (.new cap handlerWait threads) s)
    (hstopping : s.stopCell = true ∨ s.svc.down = true)
    (actions : List ServeAction)
    (hrun : (serveSystem host debug).run s actions = some later)
    (i : ℕ) :
    actions.countP (ServeAction.isLoop i) ≤ 13 ∧
      ∀ p, later.pullers[i]? = some p →
        p.phase = .left ∨ (∃ index, p.phase = .handler index) ∨
          ((serveSystem host debug).step later (.loop i)).isSome := by
  have hinv := Serving.inv_of_reaches hreach
  constructor
  · have hmeasure : later.stepsLeft i +
        actions.countP (ServeAction.isLoop i) ≤ s.stepsLeft i := by
      let stopping := fun before : Serving => before.Inv ∧ before.Stopping
      let anything := fun _ : ServeAction => True
      refine @System.run_measure _ _ _ stopping anything _ _ ?_ _ _ _
        ⟨hinv, hstopping⟩ (fun _ _ => trivial) hrun
      rintro before action next ⟨hbefore, hstops⟩ - hstep
      obtain ⟨hnext, hless⟩ := Serving.step_stepsLeft hbefore hstops hstep i
      exact ⟨⟨hbefore.step hstep, hnext⟩, hless⟩
    have hbound : s.stepsLeft i ≤ 13 := by
      unfold Serving.stepsLeft
      split
      · exact Puller.stepsLeft_le _ _ _
      · omega
    omega
  · intro p hp
    have hlater : later.Inv := by
      refine System.run_invariant ?_ hinv hrun
      intro before action next hbefore hstep
      exact hbefore.step hstep
    exact hlater.goes_on hp

open Httpd Web in
/-- One puller is in a handler when `stop` sets the cell, the other waits. -/
def busyRun : List ServeAction :=
  [.server (.arrive "GET"), .server (.checkDown 0),
    .server (.bodySlot 0 true), .server (.readBody 0 none), .server (.push 0),
    .loop 0, .loop 0, .loop 0, .loop 0, .loop 0, .loop 0, .loop 1, .loop 1,
    .loop 1, .stop]

open Httpd Web in
/-- The handler answers and returns, and both pullers leave. -/
def stoppedRun : List ServeAction :=
  [.loop 1, .handler 0 (.respond 200 none [104, 105]), .loop 0, .loop 0,
    .handler 0 .returns, .loop 1, .loop 0, .loop 0]

open Httpd Web in
theorem web_stop_joins_waiting :
    ∃ s later,
      (serveSystem verbatimHost true).run (.new 1 false 2) busyRun = some s ∧
        s.pullers = [⟨.handler 0, false⟩, ⟨.waiting, false⟩] ∧
        (serveSystem verbatimHost true).run s stoppedRun = some later ∧
        later.pullers = [⟨.left, true⟩, ⟨.left, false⟩] ∧
        ∀ i, stoppedRun.countP (ServeAction.isLoop i) ≤ 13 := by
  refine ⟨_, _, rfl, rfl, rfl, rfl, fun i => ?_⟩
  exact (web_stop_joins verbatimHost true 1 false 2 _ _ ⟨busyRun, rfl⟩
    (.inl rfl) stoppedRun rfl i).1

end Rulisp
