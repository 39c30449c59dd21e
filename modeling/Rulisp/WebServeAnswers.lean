import Rulisp.WebServe

/-!
# Every pulled request is answered by its puller

Over every run of any number of pullers: a request that has been pulled
belongs to one puller until it has been freed, and by then its client has
been sent an answer.
-/

namespace Rulisp

namespace Web

open Httpd TransitionSystem ListEntries

/-! ## What others see of a request -/

/-- The sender is in the hands of a puller. -/
def Engaged (place : SenderPlace) : Bool :=
  place.pulled && place ≠ .used true

/-- A step that no puller of the request can tell from none. -/
def Unseen (x x' : Exchange) : Prop :=
  x'.sender = x.sender ∧ x'.accepted = x.accepted ∨
    x.sender.pulled = false ∧ x'.sender.pulled = false

/-- No puller of request `index` can tell the two states apart. -/
def UnseenAt (index : ℕ) (before after : List Exchange) : Prop :=
  (∀ x, before[index]? = some x → ∃ x', after[index]? = some x' ∧
    Unseen x x') ∧
  ∀ x', after[index]? = some x' → x'.sender.pulled = true →
    ∃ x, before[index]? = some x ∧ Unseen x x'

section Server

variable {svc next : Svc} {xs ys zs : List Exchange}

theorem Unseen.refl (x : Exchange) : Unseen x x := .inl ⟨rfl, rfl⟩

theorem Unseen.trans {x y z : Exchange} (hfirst : Unseen x y)
    (hsecond : Unseen y z) : Unseen x z := by
  unfold Unseen at *
  rcases hfirst with ⟨hplace, haccepted⟩ | ⟨hbefore, hafter⟩
  · rw [← hplace, ← haccepted]
    exact hsecond
  · rcases hsecond with ⟨hplace, -⟩ | ⟨-, hlater⟩
    · exact .inr ⟨hbefore, by rw [hplace, hafter]⟩
    · exact .inr ⟨hbefore, hlater⟩

/-- What a puller sees of its request stays as it was. -/
theorem Unseen.same {x x' : Exchange} (hunseen : Unseen x x')
    (hpulled : x.sender.pulled = true ∨ x'.sender.pulled = true) :
    x'.sender = x.sender ∧ x'.accepted = x.accepted := by
  rcases hunseen with hsame | ⟨hbefore, hafter⟩
  · exact hsame
  · rw [hbefore, hafter] at hpulled
    simp at hpulled

theorem UnseenAt.refl (index : ℕ) (xs : List Exchange) :
    UnseenAt index xs xs :=
  ⟨fun x hx => ⟨x, hx, .refl x⟩, fun x hx _ => ⟨x, hx, .refl x⟩⟩

theorem UnseenAt.trans {index : ℕ} (hfirst : UnseenAt index xs ys)
    (hsecond : UnseenAt index ys zs) : UnseenAt index xs zs := by
  constructor
  · intro x hx
    obtain ⟨y, hy, hxy⟩ := hfirst.1 x hx
    obtain ⟨z, hz, hyz⟩ := hsecond.1 y hy
    exact ⟨z, hz, hxy.trans hyz⟩
  · intro z hz hpulled
    obtain ⟨y, hy, hyz⟩ := hsecond.2 z hz hpulled
    have hplace := (hyz.same (.inr hpulled)).1
    obtain ⟨x, hx, hxy⟩ := hfirst.2 y hy (hplace ▸ hpulled)
    exact ⟨x, hx, hxy.trans hyz⟩

/-- Replacing one request is not seen by the pullers of others. -/
theorem UnseenAt.set {index other : ℕ} {x x' : Exchange}
    (hx : xs[index]? = some x) (hunseen : other = index → Unseen x x') :
    UnseenAt other xs (xs.set index x') := by
  have hlt := (List.getElem?_eq_some_iff.mp hx).1
  constructor
  · intro y hy
    by_cases heq : index = other
    · subst heq
      rw [hx] at hy
      cases hy
      exact ⟨x', List.getElem?_set_self hlt, hunseen rfl⟩
    · exact ⟨y, by rw [List.getElem?_set_ne heq, hy], .refl y⟩
  · intro y' hy' _
    rcases getElem?_set_of_some hx hy' with ⟨rfl, rfl⟩ | ⟨-, hold⟩
    · exact ⟨x, hx, hunseen rfl⟩
    · exact ⟨y', hold, .refl y'⟩

theorem UnseenAt.on {index : ℕ} {f : Exchange → Option Exchange}
    (hf : ∀ x x', svc.exchanges[index]? = some x → f x = some x' →
      Unseen x x')
    (hstep : svc.on index f = some next) (other : ℕ) :
    UnseenAt other svc.exchanges next.exchanges := by
  obtain ⟨x, x', hx, hx', rfl⟩ := Svc.on_cases hstep
  exact UnseenAt.set hx fun _ => hf x x' hx hx'

theorem UnseenAt.map {f : Exchange → Exchange} (hf : ∀ x, Unseen x (f x))
    (xs : List Exchange) (index : ℕ) : UnseenAt index xs (xs.map f) := by
  constructor
  · intro x hx
    exact ⟨f x, by simp [hx], hf x⟩
  · intro x' hx' _
    simp only [List.getElem?_map, Option.map_eq_some_iff] at hx'
    obtain ⟨x, hx, rfl⟩ := hx'
    exact ⟨x, hx, hf x⟩

/-- A request that arrives has no puller. -/
theorem UnseenAt.arrive (xs : List Exchange) (method : String)
    (index : ℕ) : UnseenAt index xs (xs ++ [.new method]) := by
  constructor
  · intro x hx
    have hlt := (List.getElem?_eq_some_iff.mp hx).1
    exact ⟨x, by rw [List.getElem?_append_left hlt, hx], .refl x⟩
  · intro x hx hpulled
    rw [List.getElem?_append] at hx
    split_ifs at hx with hlt
    · exact ⟨x, hx, .refl x⟩
    · rw [List.mem_singleton.mp (List.mem_of_getElem? hx)] at hpulled
      cases hpulled

theorem Unseen.prune (x : Exchange) : Unseen x x.prune := by
  unfold Exchange.prune
  split_ifs with hqueued
  · exact .inr ⟨by rw [hqueued.1]; rfl, rfl⟩
  · exact .refl x

theorem Unseen.drain (x : Exchange) : Unseen x x.drain := by
  unfold Exchange.drain
  split_ifs with hqueued
  · exact .inr ⟨by rw [hqueued]; rfl, rfl⟩
  · exact .refl x

theorem unpulled_of_beforePark {x : Exchange} (hinv : x.Inv)
    (hphase : x.phase.beforePark = true) : x.sender.pulled = false := by
  rcases SenderPlace.of_beforePark (hinv.phaseBefore hphase) with
    hplace | hplace <;> rw [hplace] <;> rfl

theorem UnseenAt.push (hinv : svc.Inv) {index : ℕ}
    (hstep : svc.push index = some next) (other : ℕ) :
    UnseenAt other svc.exchanges next.exchanges := by
  unfold Svc.push at hstep
  split at hstep
  · cases hstep
  rename_i x hx
  have hinvx := hinv.exchanges x (List.mem_of_getElem? hx)
  split at hstep
  · rename_i hphase
    have hunpulled := unpulled_of_beforePark hinvx (by rw [hphase]; rfl)
    split at hstep
    · apply UnseenAt.on _ hstep
      intro y y' hy hy'
      rw [hx] at hy
      cases hy
      unfold Exchange.refusePush at hy'
      rw [hphase] at hy'
      cases hy'
      exact .inr ⟨hunpulled, rfl⟩
    · simp only at hstep
      split at hstep
      · cases hstep
        have hpruned : svc.prune.exchanges[index]? = some x.prune := by
          simp [Svc.prune, hx]
        have hplace : x.prune.sender.pulled = false := by
          unfold Exchange.prune
          split_ifs
          · rfl
          · exact hunpulled
        exact (UnseenAt.map Unseen.prune svc.exchanges other).trans
          (UnseenAt.set hpruned fun _ => .inr ⟨hplace, rfl⟩)
      · cases hstep
        exact UnseenAt.map Unseen.prune svc.exchanges other
  · cases hstep

/-- No step but a call's is seen by a puller. -/
theorem UnseenAt.server {host : HeaderHost} (hinv : svc.Inv)
    {action : HttpdAction} (hcall : HttpdAction.ofCall svc action = false)
    (hstep : svc.step host action = some next) (other : ℕ) :
    UnseenAt other svc.exchanges next.exchanges := by
  have hbefore : ∀ {index : ℕ} {x : Exchange},
      svc.exchanges[index]? = some x → x.phase.beforePark = true →
        x.sender.pulled = false := fun hx hphase =>
    unpulled_of_beforePark (hinv.exchanges _ (List.mem_of_getElem? hx)) hphase
  cases action with
  | arrive method =>
      cases hstep
      exact UnseenAt.arrive svc.exchanges method other
  | push index => exact UnseenAt.push hinv hstep other
  | prune =>
      cases hstep
      exact UnseenAt.map Unseen.prune svc.exchanges other
  | drain =>
      simp only [Svc.step] at hstep
      split_ifs at hstep
      cases hstep
      exact UnseenAt.map Unseen.drain svc.exchanges other
  | storeDown =>
      cases hstep
      exact UnseenAt.refl other svc.exchanges
  | timeout index =>
      simp only [Svc.step] at hstep
      split_ifs at hstep
      refine UnseenAt.on (fun x x' _ hx' => ?_) hstep other
      unfold Exchange.timeout at hx'
      split at hx' <;> cases hx'
      exact .inl ⟨rfl, rfl⟩
  | send index =>
      refine UnseenAt.on (fun x x' hx hx' => ?_) hstep other
      have hdraining : x.sender = .draining := by
        simpa [HttpdAction.ofCall, hx] using hcall
      unfold Exchange.send at hx'
      rw [hdraining] at hx'
      cases hx'
      exact .inr ⟨by rw [hdraining]; rfl, rfl⟩
  | take | hold | leaveInFlight | free | respond | respondFile => cases hcall
  | _ =>
      refine UnseenAt.on (fun x x' hx hx' => ?_) hstep other
      have hunpulled := hbefore hx
      simp only [Exchange.checkDown, Exchange.bodySlot, Exchange.readBody,
        Exchange.refusePush, Exchange.poll, Exchange.disconnect,
        Exchange.answer] at hx'
      split at hx'
      all_goals (try split at hx')
      all_goals (try split at hx')
      all_goals cases hx'
      all_goals first
        | exact .inl ⟨rfl, rfl⟩
        | exact .inr ⟨hunpulled (by simp [*, ParkPhase.beforePark]), rfl⟩

end Server

/-! ## The invariant -/

/-- The request that a puller has. -/
def PullerPhase.index : PullerPhase → Option ℕ
  | .hold index | .handler index => some index
  | .replyTaken index _ | .sending index _ => some index
  | .free index _ | .dropping index _ | .dropped index _ => some index
  | _ => none

/-- The handler is over. -/
def PullerPhase.pastHandler : PullerPhase → Bool
  | .free _ _ | .dropping _ _ | .dropped _ _ => true
  | _ => false

/-- The place of the reply sender, by where its puller is: the flag says
whether the reply has been taken. -/
def Puller.Holds (p : Puller) (x : Exchange) : Prop :=
  match p.phase with
  | .hold _ => x.sender = .taken
  | .handler _ | .free _ _ =>
      x.sender = if p.answered then .used true else .held
  | .replyTaken _ _ => ∃ response, x.sender = .responding response
  | .sending _ _ => ∃ response, x.sender = .sending response
  | .dropping _ _ => x.sender = .freeing
  | .dropped _ _ => x.sender = .freed
  | _ => True

structure Serving.Inv (s : Serving) : Prop where
  svc : s.svc.Inv
  owned : ∀ (i : ℕ) (p : Puller) (index : ℕ),
    s.pullers[i]? = some p → p.phase.index = some index →
      ∃ x, s.svc.exchanges[index]? = some x ∧ p.Holds x
  single : ∀ (i j : ℕ) (p q : Puller) (index : ℕ),
    s.pullers[i]? = some p → s.pullers[j]? = some q →
      p.phase.index = some index → q.phase.index = some index → i = j
  covered : ∀ (index : ℕ) (x : Exchange), s.svc.exchanges[index]? = some x →
    Engaged x.sender = true →
      ∃ (i : ℕ) (p : Puller),
        s.pullers[i]? = some p ∧ p.phase.index = some index
  warned : ∀ index ∈ s.warned, ∃ x : Exchange,
    s.svc.exchanges[index]? = some x ∧ x.sender.pulled = true ∧
    x.accepted = none ∧
    ∀ (i : ℕ) (p : Puller), s.pullers[i]? = some p →
      p.phase.index = some index → p.phase.pastHandler = true

theorem Serving.new_inv (cap : ℕ) (handlerWait : Bool) (threads : ℕ) :
    (Serving.new cap handlerWait threads).Inv := by
  have hidle : ∀ (i : ℕ) (p : Puller),
      (Serving.new cap handlerWait threads).pullers[i]? = some p →
        p.phase.index = none := by
    intro i p hp
    rw [List.eq_of_mem_replicate (List.mem_of_getElem? hp)]
    rfl
  constructor
  · exact Svc.new_inv cap handlerWait
  · intro i p index hp hindex
    rw [hidle i p hp] at hindex
    cases hindex
  · intro i j p q index hp _ hindex _
    rw [hidle i p hp] at hindex
    cases hindex
  · intro index x hx
    simp [Serving.new, Svc.new] at hx
  · intro index hindex
    cases hindex

section Steps

variable {host : HeaderHost} {debug : Bool} {s next : Serving}

theorem Puller.Holds.pulled {p : Puller} {x : Exchange} {index : ℕ}
    (hindex : p.phase.index = some index) (hholds : p.Holds x) :
    x.sender.pulled = true := by
  unfold Puller.Holds at hholds
  cases hphase : p.phase <;> rw [hphase] at hholds hindex <;>
    simp only at hholds
  case hold | dropping | dropped => rw [hholds]; rfl
  case handler | free =>
    rw [hholds]
    split_ifs <;> rfl
  case replyTaken | sending =>
    obtain ⟨response, hplace⟩ := hholds
    rw [hplace]
    rfl
  all_goals cases hindex

theorem Puller.Holds.congr {p : Puller} {x x' : Exchange}
    (hplace : x'.sender = x.sender) (hholds : p.Holds x) : p.Holds x' := by
  unfold Puller.Holds at *
  rw [hplace]
  exact hholds

/-- What a step keeps of the requests that a puller has not been given: those
of the other pullers, and those warned of. -/
theorem Serving.Inv.frame (hinv : s.Inv) {after : List Exchange} {index : ℕ}
    (hunseen : UnseenAt index s.svc.exchanges after) :
    (∀ (i : ℕ) (p : Puller), s.pullers[i]? = some p →
      p.phase.index = some index →
        ∃ x, after[index]? = some x ∧ p.Holds x) ∧
    (∀ x : Exchange, after[index]? = some x →
      Engaged x.sender = true → ∃ (i : ℕ) (p : Puller),
        s.pullers[i]? = some p ∧ p.phase.index = some index) ∧
    (index ∈ s.warned → ∃ x : Exchange, after[index]? = some x ∧
      x.sender.pulled = true ∧ x.accepted = none) := by
  refine ⟨?_, ?_, ?_⟩
  · intro i p hp hindex
    obtain ⟨x, hx, hholds⟩ := hinv.owned i p index hp hindex
    obtain ⟨x', hx', hsees⟩ := hunseen.1 x hx
    exact ⟨x', hx',
      hholds.congr (hsees.same (.inl (hholds.pulled hindex))).1⟩
  · intro x' hx' hengaged
    have hpulled : x'.sender.pulled = true := by
      simp only [Engaged, Bool.and_eq_true] at hengaged
      exact hengaged.1
    obtain ⟨x, hx, hsees⟩ := hunseen.2 x' hx' hpulled
    rw [(hsees.same (.inr hpulled)).1] at hengaged
    exact hinv.covered index x hx hengaged
  · intro hwarned
    obtain ⟨x, hx, hpulled, haccepted, -⟩ := hinv.warned index hwarned
    obtain ⟨x', hx', hsees⟩ := hunseen.1 x hx
    obtain ⟨hplace, hsame⟩ := hsees.same (.inl hpulled)
    exact ⟨x', hx', by rw [hplace, hpulled], by rw [hsame, haccepted]⟩

theorem Serving.Inv.server (hinv : s.Inv) {action : HttpdAction} {svc : Svc}
    (hcall : HttpdAction.ofCall s.svc action = false)
    (hstep : s.svc.step host action = some svc) :
    ({ s with svc := svc } : Serving).Inv := by
  have hunseen := UnseenAt.server hinv.svc hcall hstep
  constructor
  · exact hinv.svc.step hstep
  · intro i p index hp hindex
    exact (hinv.frame (hunseen index)).1 i p hp hindex
  · exact hinv.single
  · intro index x hx hengaged
    exact (hinv.frame (hunseen index)).2.1 x hx hengaged
  · intro index hwarned
    obtain ⟨x, hx, hpulled, haccepted⟩ :=
      (hinv.frame (hunseen index)).2.2 hwarned
    obtain ⟨-, -, -, -, hpast⟩ := hinv.warned index hwarned
    exact ⟨x, hx, hpulled, haccepted, hpast⟩

/-- A step of one puller: its own request, if it has one, is as its new
place says, and the others see nothing. -/
theorem Serving.Inv.moves (hinv : s.Inv) {i : ℕ} {p p' : Puller} {svc : Svc}
    (hp : s.pullers[i]? = some p) (hsvc : svc.Inv)
    (hothers : ∀ index, p.phase.index ≠ some index →
      UnseenAt index s.svc.exchanges svc.exchanges)
    (hindex : p'.phase.index = p.phase.index ∨ p'.phase.index = none)
    (hholds : ∀ index, p'.phase.index = some index →
      ∃ x, svc.exchanges[index]? = some x ∧ p'.Holds x)
    (hfreed : ∀ index, p.phase.index = some index → p'.phase.index = none →
      ∀ x, svc.exchanges[index]? = some x → Engaged x.sender = false)
    (hwarned : ∀ index, p.phase.index = some index →
      p.phase.pastHandler = true →
        (p'.phase.index = some index → p'.phase.pastHandler = true) ∧
        ∀ x, s.svc.exchanges[index]? = some x →
          ∃ x', svc.exchanges[index]? = some x' ∧
            x'.sender.pulled = true ∧ x'.accepted = x.accepted) :
    (s.set i p' svc).Inv := by
  have hset : ∀ {j : ℕ} {q : Puller}, (s.set i p' svc).pullers[j]? = some q →
      j = i ∧ q = p' ∨ j ≠ i ∧ s.pullers[j]? = some q :=
    fun hq => getElem?_set_of_some hp hq
  have howner : ∀ {j : ℕ} {q : Puller} {index : ℕ},
      (s.set i p' svc).pullers[j]? = some q → q.phase.index = some index →
        ∃ q₀, s.pullers[j]? = some q₀ ∧ q₀.phase.index = some index := by
    intro j q index hq hqindex
    rcases hset hq with ⟨rfl, rfl⟩ | ⟨-, hold⟩
    · rcases hindex with hsame | hnone
      · exact ⟨p, hp, hsame ▸ hqindex⟩
      · rw [hnone] at hqindex
        cases hqindex
    · exact ⟨q, hold, hqindex⟩
  have hlt := (List.getElem?_eq_some_iff.mp hp).1
  constructor
  · exact hsvc
  · intro j q index hq hqindex
    rcases hset hq with ⟨rfl, rfl⟩ | ⟨hne, hold⟩
    · exact hholds index hqindex
    · have hother : p.phase.index ≠ some index := fun hsame =>
        hne (hinv.single j i q p index hold hp hqindex hsame)
      exact (hinv.frame (hothers index hother)).1 j q hold hqindex
  · intro j k q r index hq hr hqindex hrindex
    obtain ⟨q₀, hq₀, hqindex₀⟩ := howner hq hqindex
    obtain ⟨r₀, hr₀, hrindex₀⟩ := howner hr hrindex
    exact hinv.single j k q₀ r₀ index hq₀ hr₀ hqindex₀ hrindex₀
  · intro index x hx hengaged
    by_cases hmine : p.phase.index = some index
    · rcases hindex with hsame | hnone
      · exact ⟨i, p', List.getElem?_set_self hlt, hsame.trans hmine⟩
      · rw [hfreed index hmine hnone x hx] at hengaged
        cases hengaged
    · obtain ⟨j, q, hq, hqindex⟩ :=
        (hinv.frame (hothers index hmine)).2.1 x hx hengaged
      have hne : i ≠ j := by
        rintro rfl
        rw [hp] at hq
        cases hq
        exact hmine hqindex
      exact ⟨j, q, by simp only [Serving.set, List.getElem?_set_ne hne, hq],
        hqindex⟩
  · intro index hmem
    obtain ⟨x, hx, hpulled, haccepted, hpast⟩ := hinv.warned index hmem
    by_cases hmine : p.phase.index = some index
    · obtain ⟨hstays, hafter⟩ := hwarned index hmine (hpast i p hp hmine)
      obtain ⟨x', hx', hpulled', hsame⟩ := hafter x hx
      refine ⟨x', hx', hpulled', hsame.trans haccepted, ?_⟩
      intro j q hq hqindex
      rcases hset hq with ⟨rfl, rfl⟩ | ⟨-, hold⟩
      · exact hstays hqindex
      · exact hpast j q hold hqindex
    · obtain ⟨x', hx', hpulled', hsame⟩ :=
        (hinv.frame (hothers index hmine)).2.2 hmem
      refine ⟨x', hx', hpulled', hsame, ?_⟩
      intro j q hq hqindex
      rcases hset hq with ⟨rfl, rfl⟩ | ⟨-, hold⟩
      · rcases hindex with hsame' | hnone
        · exact absurd (hsame' ▸ hqindex) hmine
        · rw [hnone] at hqindex
          cases hqindex
      · exact hpast j q hold hqindex

/-- A puller without a request moves, and none sees what else changes. -/
theorem Serving.Inv.idle (hinv : s.Inv) {i : ℕ} {p p' : Puller} {svc : Svc}
    (hp : s.pullers[i]? = some p) (hsvc : svc.Inv)
    (hunseen : ∀ index, UnseenAt index s.svc.exchanges svc.exchanges)
    (hindex : p.phase.index = none) (hindex' : p'.phase.index = none) :
    (s.set i p' svc).Inv := by
  apply hinv.moves hp hsvc (fun index _ => hunseen index) (.inr hindex')
  · intro index hsome
    rw [hindex'] at hsome
    cases hsome
  · intro index hsome
    rw [hindex] at hsome
    cases hsome
  · intro index hsome
    rw [hindex] at hsome
    cases hsome

/-- A puller changes its own request `x` to `x'`, and its place with it. -/
theorem Serving.Inv.own (hinv : s.Inv) {i : ℕ} {p p' : Puller} {svc : Svc}
    {index : ℕ} {x x' : Exchange} (hp : s.pullers[i]? = some p)
    (hindex : p.phase.index = some index) (hsvc : svc.Inv)
    (hx : s.svc.exchanges[index]? = some x)
    (hexchanges : svc.exchanges = s.svc.exchanges.set index x')
    (hgoes : p'.phase.index = some index ∧ p'.Holds x' ∨
      p'.phase.index = none ∧ Engaged x'.sender = false)
    (hpast : p.phase.pastHandler = true →
      x'.sender.pulled = true ∧ x'.accepted = x.accepted ∧
        (p'.phase.index = some index → p'.phase.pastHandler = true)) :
    (s.set i p' svc).Inv := by
  have hlt := (List.getElem?_eq_some_iff.mp hx).1
  have hx' : svc.exchanges[index]? = some x' := by
    rw [hexchanges, List.getElem?_set_self hlt]
  apply hinv.moves hp hsvc
  · intro other hother
    rw [hexchanges]
    exact UnseenAt.set hx fun hsame => absurd (hsame ▸ hindex) hother
  · exact hgoes.imp (fun h => h.1.trans hindex.symm) And.left
  · intro other hother
    rcases hgoes with ⟨hstays, hholds⟩ | ⟨hnone, -⟩
    · obtain rfl : index = other := by
        rw [hstays] at hother
        exact Option.some.inj hother
      exact ⟨x', hx', hholds⟩
    · rw [hnone] at hother
      cases hother
  · intro other hother hnone y hy
    obtain rfl : index = other := by
      rw [hindex] at hother
      exact Option.some.inj hother
    rw [hx'] at hy
    cases hy
    rcases hgoes with ⟨hstays, -⟩ | ⟨-, hfree⟩
    · rw [hnone] at hstays
      cases hstays
    · exact hfree
  · intro other hother hover
    obtain rfl : index = other := by
      rw [hindex] at hother
      exact Option.some.inj hother
    obtain ⟨hpulled, haccepted, hlater⟩ := hpast hover
    refine ⟨hlater, fun y hy => ?_⟩
    rw [hx] at hy
    cases hy
    exact ⟨x', hx', hpulled, haccepted⟩

/-- The front of the queue goes to a puller that has nothing. -/
theorem Serving.Inv.pull (hinv : s.Inv) {i : ℕ} {p : Puller} {svc : Svc}
    (hp : s.pullers[i]? = some p) (hindex : p.phase.index = none)
    (htake : s.svc.take = some svc) :
    (s.set i { p with phase := .ofQueue s.svc.prune.queue } svc).Inv := by
  have hsvc := hinv.svc.take htake
  unfold Svc.take at htake
  simp only at htake
  split at htake
  · rename_i hqueue
    cases htake
    rw [hqueue]
    exact hinv.idle hp hsvc
      (UnseenAt.map Unseen.prune s.svc.exchanges) hindex rfl
  rename_i index queue hqueue
  split at htake
  · cases htake
  rename_i y hy
  cases htake
  have hplace : y.sender = .queued := by
    obtain ⟨z, hz, hqueued⟩ :=
      (hinv.svc.prune.queued index).mp (by rw [hqueue]; exact List.mem_cons_self)
    rw [hy] at hz
    cases hz
    exact hqueued
  have hunpulled : y.sender.pulled = false := by rw [hplace]; rfl
  have hlt := (List.getElem?_eq_some_iff.mp hy).1
  have hprune : ∀ other, UnseenAt other s.svc.exchanges
      s.svc.prune.exchanges :=
    UnseenAt.map Unseen.prune s.svc.exchanges
  have hothers : ∀ other, other ≠ index → UnseenAt other s.svc.exchanges
      (s.svc.prune.exchanges.set index y.take) := fun other hne =>
    (hprune other).trans (UnseenAt.set hy fun hsame => absurd hsame hne)
  have hfresh : ∀ {j : ℕ} {q : Puller}, s.pullers[j]? = some q →
      q.phase.index ≠ some index := by
    intro j q hq hsome
    obtain ⟨z, hz, hholds⟩ := (hinv.frame (hprune index)).1 j q hq hsome
    rw [hy] at hz
    cases hz
    rw [hholds.pulled hsome] at hunpulled
    cases hunpulled
  rw [hqueue]
  have hset : ∀ {j : ℕ} {q : Puller},
      (s.pullers.set i { p with phase := .hold index })[j]? = some q →
        j = i ∧ q = { p with phase := .hold index } ∨
          j ≠ i ∧ s.pullers[j]? = some q :=
    fun hq => getElem?_set_of_some hp hq
  have hlti := (List.getElem?_eq_some_iff.mp hp).1
  constructor
  · exact hsvc
  · intro j q other hq hsome
    rcases hset hq with ⟨-, rfl⟩ | ⟨-, hold⟩
    · obtain rfl : index = other := Option.some.inj hsome
      exact ⟨y.take, List.getElem?_set_self hlt, rfl⟩
    · have hne : other ≠ index := fun heq => hfresh hold (heq ▸ hsome)
      exact (hinv.frame (hothers other hne)).1 j q hold hsome
  · intro j k q r other hq hr hqindex hrindex
    rcases hset hq with ⟨hj, rfl⟩ | ⟨-, hqold⟩ <;>
      rcases hset hr with ⟨hk, rfl⟩ | ⟨-, hrold⟩
    · rw [hj, hk]
    · obtain rfl : index = other := Option.some.inj hqindex
      exact absurd hrindex (hfresh hrold)
    · obtain rfl : index = other := Option.some.inj hrindex
      exact absurd hqindex (hfresh hqold)
    · exact hinv.single j k q r other hqold hrold hqindex hrindex
  · intro other x hx hengaged
    by_cases heq : other = index
    · subst heq
      exact ⟨i, _, List.getElem?_set_self hlti, rfl⟩
    · obtain ⟨j, q, hq, hsome⟩ :=
        (hinv.frame (hothers other heq)).2.1 x hx hengaged
      have hne : i ≠ j := by
        rintro rfl
        rw [hp] at hq
        cases hq
        rw [hindex] at hsome
        cases hsome
      exact ⟨j, q, by simp only [Serving.set, List.getElem?_set_ne hne, hq],
        hsome⟩
  · intro other hmem
    obtain ⟨-, -, -, -, hpast⟩ := hinv.warned other hmem
    have hne : other ≠ index := by
      rintro rfl
      obtain ⟨z, hz, hpulled, -⟩ := (hinv.frame (hprune other)).2.2 hmem
      rw [hy] at hz
      cases hz
      rw [hpulled] at hunpulled
      cases hunpulled
    obtain ⟨x, hx, hpulled, haccepted⟩ :=
      (hinv.frame (hothers other hne)).2.2 hmem
    refine ⟨x, hx, hpulled, haccepted, ?_⟩
    intro j q hq hsome
    rcases hset hq with ⟨-, rfl⟩ | ⟨-, hold⟩
    · exact absurd (Option.some.inj hsome).symm hne
    · exact hpast j q hold hsome

/-- A puller moves on with its request as it is. -/
theorem Serving.Inv.stays (hinv : s.Inv) {i : ℕ} {p p' : Puller}
    {index : ℕ} {x : Exchange} (hp : s.pullers[i]? = some p)
    (hindex : p.phase.index = some index)
    (hx : s.svc.exchanges[index]? = some x)
    (hgoes : p'.phase.index = some index ∧ p'.Holds x ∨
      p'.phase.index = none ∧ Engaged x.sender = false)
    (hpast : p.phase.pastHandler = true → x.sender.pulled = true ∧
      (p'.phase.index = some index → p'.phase.pastHandler = true)) :
    (s.set i p' s.svc).Inv := by
  obtain ⟨hlt, hget⟩ := List.getElem?_eq_some_iff.mp hx
  refine hinv.own hp hindex hinv.svc hx ?_ hgoes ?_
  · rw [← hget, List.set_getElem_self]
  · intro hover
    obtain ⟨hpulled, hlater⟩ := hpast hover
    exact ⟨hpulled, rfl, hlater⟩

/-- A `respond` is refused, or takes the reply of a request that has it. -/
theorem respond_cases {svc svc' : Svc} {index : ℕ}
    {built : Except HttpError Response}
    (hstep : svc.respond index built = some svc') :
    ∃ x, svc.exchanges[index]? = some x ∧
      (svc' = svc ∧ (∀ response, built = .ok response → x.sender ≠ .held) ∨
        ∃ response, x.sender = .held ∧ svc'.exchanges =
          svc.exchanges.set index { x with
            sender := .responding response, accepted := some response }) := by
  unfold Svc.respond at hstep
  split at hstep
  · cases hstep
  rename_i x hx
  refine ⟨x, hx, ?_⟩
  split at hstep
  · split at hstep
    · cases hstep
      exact .inl ⟨rfl, by simp⟩
    · rename_i response
      split at hstep
      · rename_i hrefused
        cases hstep
        refine .inl ⟨rfl, fun _ _ hheld => ?_⟩
        unfold Exchange.takeReply at hrefused
        rw [hheld] at hrefused
        cases hrefused
      · rename_i x' htaken
        cases hstep
        unfold Exchange.takeReply at htaken
        split at htaken
        · rename_i hheld
          cases htaken
          exact .inr ⟨response, hheld, rfl⟩
        · cases htaken
  · cases hstep

/-- A call of the handler on its request, or of `%respond-500`. -/
theorem Serving.Inv.call (hinv : s.Inv) {i : ℕ} {p₀ p : Puller} {index : ℕ}
    {svc : Svc} {built : Except HttpError Response} {refused : PullerPhase}
    {failing : Bool} (hp : s.pullers[i]? = some p₀)
    (hphase : p₀.phase = .handler index)
    (hstep : s.svc.respond index built = some svc)
    (hrefused : ∀ x, s.svc.exchanges[index]? = some x → p₀.Holds x →
      (∀ response, built = .ok response → x.sender ≠ .held) →
        refused.index = some index ∧ ({ p with phase := refused }).Holds x) :
    (s.set i
      { p with
        phase :=
          match place svc index with
          | some (.responding _) => .replyTaken index failing
          | _ => refused }
      svc).Inv := by
  have hindex : p₀.phase.index = some index := by rw [hphase]; rfl
  have hover : p₀.phase.pastHandler ≠ true := by
    rw [hphase]
    exact Bool.false_ne_true
  obtain ⟨x, hx, hcases⟩ := respond_cases hstep
  obtain ⟨y, hy, hholds⟩ := hinv.owned i p₀ index hp hindex
  rw [hx] at hy
  cases hy
  rcases hcases with ⟨rfl, hnot⟩ | ⟨response, hheld, hexchanges⟩
  · have hplace : ∀ response, place s.svc index ≠
        some (.responding response) := by
      intro response hsome
      have hsender : x.sender = .responding response := by
        simpa [place, hx] using hsome
      unfold Puller.Holds at hholds
      rw [hphase] at hholds
      simp only [hsender] at hholds
      split_ifs at hholds
    obtain ⟨hrindex, hrholds⟩ := hrefused x hx hholds hnot
    split
    · rename_i response hsome
      exact absurd hsome (hplace response)
    · exact hinv.stays hp hindex hx (.inl ⟨hrindex, hrholds⟩)
        (fun h => absurd h hover)
  · have hlt := (List.getElem?_eq_some_iff.mp hx).1
    have hplace : place svc index = some (.responding response) := by
      unfold place
      rw [hexchanges, List.getElem?_set_self hlt]
      rfl
    rw [hplace]
    exact hinv.own hp hindex (hinv.svc.respond hstep) hx hexchanges
      (.inl ⟨rfl, response, rfl⟩) (fun h => absurd h hover)

/-- What `%respond-500` sends can always be built. -/
theorem buildResponse_500 (host : HeaderHost) (method : String) :
    buildResponse host method 500 none [] = .ok (statusOnly 500) := rfl

theorem Serving.Inv.respond500 (hinv : s.Inv) {i : ℕ} {p : Puller}
    {index : ℕ} (hp : s.pullers[i]? = some p)
    (hphase : p.phase = .handler index)
    (hstep : s.respond500 host i p index = some next) : next.Inv := by
  obtain ⟨svc, hsvc, rfl⟩ := Option.map_eq_some_iff.mp hstep
  simp only [Svc.step] at hsvc
  split at hsvc
  · cases hsvc
  apply hinv.call hp hphase hsvc
  intro x hx hholds hnot
  refine ⟨rfl, ?_⟩
  have hused : x.sender ≠ .held := hnot _ (buildResponse_500 _ _)
  unfold Puller.Holds at hholds ⊢
  rw [hphase] at hholds
  simp only at hholds ⊢
  split_ifs at hholds with hflag
  · simpa using hholds
  · exact absurd hholds hused

/-- A request whose handler returns without a response has had none. -/
theorem Serving.Inv.warn (hinv : s.Inv) {i : ℕ} {p : Puller} {index : ℕ}
    (hp : s.pullers[i]? = some p) (hphase : p.phase = .free index false)
    (hflag : p.answered = false) :
    ({ s with warned := s.warned ++ [index] } : Serving).Inv := by
  obtain ⟨x, hx, hholds⟩ := hinv.owned i p index hp (by rw [hphase]; rfl)
  unfold Puller.Holds at hholds
  rw [hphase] at hholds
  simp only [hflag, Bool.false_eq_true, if_false] at hholds
  have hinvx := hinv.svc.exchanges x (List.mem_of_getElem? hx)
  refine ⟨hinv.svc, hinv.owned, hinv.single, hinv.covered, ?_⟩
  intro other hmem
  rcases List.mem_append.mp hmem with hold | hnew
  · exact hinv.warned other hold
  · obtain rfl := List.mem_singleton.mp hnew
    refine ⟨x, hx, by rw [hholds]; rfl,
      hinvx.unaccepted (by rw [hholds]; rfl), ?_⟩
    intro j q hq hsome
    obtain rfl := hinv.single j i q p other hq hp hsome (by rw [hphase]; rfl)
    rw [hp] at hq
    cases hq
    rw [hphase]
    rfl

/-- The handler of a puller, whatever it does. -/
theorem Serving.Inv.handle (hinv : s.Inv) {i : ℕ} {event : HandlerEvent}
    (hstep : s.handle host debug i event = some next) : next.Inv := by
  unfold Serving.handle at hstep
  split at hstep
  · cases hstep
  rename_i p hp
  split at hstep
  swap
  · cases hstep
  rename_i index hphase
  have hindex : p.phase.index = some index := by rw [hphase]; rfl
  have hover : p.phase.pastHandler ≠ true := by
    rw [hphase]
    exact Bool.false_ne_true
  obtain ⟨x, hx, hholds⟩ := hinv.owned i p index hp hindex
  have hsame : p.Holds x → x.sender =
      if p.answered then SenderPlace.used true else .held := by
    intro h
    unfold Puller.Holds at h
    rw [hphase] at h
    exact h
  have hfree : ∀ exits,
      (s.set i { p with phase := .free index exits } s.svc).Inv := fun exits =>
    hinv.stays hp hindex hx (.inl ⟨rfl, hsame hholds⟩)
      (fun h => absurd h hover)
  have hrefused : ∀ (built : Except HttpError Response) (y : Exchange),
      s.svc.exchanges[index]? = some y → p.Holds y →
      (∀ response, built = .ok response → y.sender ≠ .held) →
        (PullerPhase.handler index).index = some index ∧
          ({ p with phase := .handler index } : Puller).Holds y := by
    intro built y _ hy _
    refine ⟨rfl, ?_⟩
    unfold Puller.Holds at hy
    rw [hphase] at hy
    exact hy
  have hlt := (List.getElem?_eq_some_iff.mp hp).1
  cases event with
  | respond status headers body =>
      obtain ⟨svc, hsvc, rfl⟩ := Option.map_eq_some_iff.mp hstep
      simp only [Svc.step] at hsvc
      split at hsvc
      · cases hsvc
      exact hinv.call hp hphase hsvc (hrefused _)
  | respondFile built =>
      obtain ⟨svc, hsvc, rfl⟩ := Option.map_eq_some_iff.mp hstep
      exact hinv.call hp hphase hsvc (hrefused _)
  | returns =>
      cases hstep
      by_cases hflag : p.answered = true
      · simp only [if_pos hflag]
        exact hfree false
      · simp only [if_neg hflag]
        exact (hfree false).warn (List.getElem?_set_self hlt) rfl
          (Bool.eq_false_iff.mpr hflag)
  | signals =>
      simp only at hstep
      split at hstep
      · cases hstep
        exact hinv
      · exact hinv.respond500 hp hphase hstep
  | respond500 => exact hinv.respond500 hp hphase hstep
  | retryHandler =>
      cases hstep
      exact hinv
  | skipRequest =>
      cases hstep
      exact hfree false
  | exits =>
      cases hstep
      exact hfree true

/-! ### The calls of a puller -/

section Calls

variable {svc svc' : Svc} {index : ℕ}

theorem hold_cases (hstep : svc.step host (.hold index) = some svc') :
    ∃ x, svc.exchanges[index]? = some x ∧ x.sender = .taken ∧
      svc'.exchanges =
        svc.exchanges.set index { x with sender := .held } := by
  obtain ⟨held, hheld, rfl⟩ := Option.map_eq_some_iff.mp hstep
  obtain ⟨x, x', hx, hx', rfl⟩ := Svc.on_cases hheld
  unfold Exchange.hold at hx'
  split at hx'
  · rename_i hplace
    cases hx'
    exact ⟨x, hx, hplace, rfl⟩
  · cases hx'

/-- The place that `leaveInFlight` moves the sender to. -/
def leftPlace : SenderPlace → SenderPlace
  | .responding response => .sending response
  | _ => .used true

theorem leaveInFlight_cases {x : Exchange}
    (hx : svc.exchanges[index]? = some x)
    (hstep : svc.step host (.leaveInFlight index) = some svc') :
    svc'.exchanges =
      svc.exchanges.set index { x with sender := leftPlace x.sender } := by
  obtain ⟨next, hleft, rfl⟩ := Option.map_eq_some_iff.mp hstep
  obtain ⟨y, y', hy, hy', rfl⟩ := Svc.on_cases hleft
  rw [hx] at hy
  cases hy
  unfold Exchange.leaveInFlight at hy'
  split at hy'
  · rename_i hplace
    cases hy'
    rw [hplace]
    rfl
  · rename_i hplace
    cases hy'
    rw [hplace]
    rfl
  · cases hy'

/-- The place that `send` moves the sender to. -/
def sentPlace : SenderPlace → SenderPlace
  | .sending _ => .used true
  | .freeing => .freed
  | _ => .used false

theorem send_cases {x : Exchange} (hx : svc.exchanges[index]? = some x)
    (hstep : svc.step host (.send index) = some svc') :
    ∃ response, svc'.exchanges =
      svc.exchanges.set index (x.useSender response (sentPlace x.sender)) := by
  obtain ⟨y, y', hy, hy', rfl⟩ := Svc.on_cases hstep
  rw [hx] at hy
  cases hy
  unfold Exchange.send at hy'
  split at hy'
  · rename_i hplace
    cases hy'
    rw [hplace]
    exact ⟨_, rfl⟩
  · rename_i hplace
    cases hy'
    rw [hplace]
    exact ⟨_, rfl⟩
  · rename_i hplace
    cases hy'
    rw [hplace]
    exact ⟨_, rfl⟩
  · cases hy'

theorem free_cases {x : Exchange} (hx : svc.exchanges[index]? = some x)
    (hstep : svc.step host (.free index) = some svc') :
    svc'.exchanges =
      svc.exchanges.set index { x with sender := .freeing } := by
  obtain ⟨y, y', hy, hy', rfl⟩ := Svc.on_cases hstep
  rw [hx] at hy
  cases hy
  unfold Exchange.free at hy'
  split at hy'
  · cases hy'
    rfl
  · cases hy'

end Calls

/-- The next access of a puller outside its handler. -/
theorem Serving.Inv.loop (hinv : s.Inv) {i : ℕ}
    (hstep : s.loop host i = some next) : next.Inv := by
  unfold Serving.loop at hstep
  split at hstep
  · cases hstep
  rename_i p hp
  have hgo : ∀ {phase : PullerPhase}, p.phase.index = none →
      phase.index = none → (s.set i { p with phase := phase } s.svc).Inv :=
    fun hnone hnone' => hinv.idle hp hinv.svc
      (fun index => .refl index s.svc.exchanges) hnone hnone'
  simp only at hstep
  split at hstep
  · rename_i hphase
    cases hstep
    exact hgo (by rw [hphase]; rfl) (by split_ifs <;> rfl)
  · rename_i hphase
    cases hstep
    exact hgo (by rw [hphase]; rfl) (by split_ifs <;> rfl)
  · rename_i hphase
    cases hstep
    exact hinv.idle hp hinv.svc.prune
      (UnseenAt.map Unseen.prune s.svc.exchanges) (by rw [hphase]; rfl)
      (by simp only; split_ifs <;> rfl)
  · rename_i hphase
    cases hstep
    exact hgo (by rw [hphase]; rfl) (by split_ifs <;> rfl)
  · rename_i hphase
    cases hstep
    exact hgo (by rw [hphase]; rfl) (by split_ifs <;> rfl)
  · rename_i hphase
    obtain ⟨svc, hsvc, rfl⟩ := Option.map_eq_some_iff.mp hstep
    exact hinv.pull hp (by rw [hphase]; rfl) hsvc
  · rename_i index hphase
    obtain ⟨svc, hsvc, rfl⟩ := Option.map_eq_some_iff.mp hstep
    obtain ⟨x, hx, hplace, hset⟩ := hold_cases hsvc
    exact hinv.own hp (by rw [hphase]; rfl) (hinv.svc.step hsvc) hx hset
      (.inl ⟨rfl, rfl⟩) (by rw [hphase]; exact nofun)
  · rename_i index failing hphase
    obtain ⟨svc, hsvc, rfl⟩ := Option.map_eq_some_iff.mp hstep
    obtain ⟨x, hx, hholds⟩ := hinv.owned i p index hp (by rw [hphase]; rfl)
    unfold Puller.Holds at hholds
    rw [hphase] at hholds
    obtain ⟨response, hplace⟩ := hholds
    have hset := leaveInFlight_cases hx hsvc
    rw [hplace] at hset
    exact hinv.own hp (by rw [hphase]; rfl) (hinv.svc.step hsvc) hx hset
      (.inl ⟨rfl, response, rfl⟩) (by rw [hphase]; exact nofun)
  · rename_i index failing hphase
    obtain ⟨svc, hsvc, rfl⟩ := Option.map_eq_some_iff.mp hstep
    obtain ⟨x, hx, hholds⟩ := hinv.owned i p index hp (by rw [hphase]; rfl)
    unfold Puller.Holds at hholds
    rw [hphase] at hholds
    obtain ⟨response, hplace⟩ := hholds
    obtain ⟨answer, hset⟩ := send_cases hx hsvc
    rw [hplace] at hset
    refine hinv.own hp (by rw [hphase]; rfl) (hinv.svc.step hsvc) hx hset
      (.inl ?_) (by rw [hphase]; exact nofun)
    cases failing <;> exact ⟨rfl, rfl⟩
  · rename_i index exits hphase
    have hindex : p.phase.index = some index := by rw [hphase]; rfl
    obtain ⟨x, hx, hholds⟩ := hinv.owned i p index hp hindex
    unfold Puller.Holds at hholds
    rw [hphase] at hholds
    split at hstep
    · obtain ⟨svc, hsvc, rfl⟩ := Option.map_eq_some_iff.mp hstep
      exact hinv.own hp hindex (hinv.svc.step hsvc) hx (free_cases hx hsvc)
        (.inl ⟨rfl, rfl⟩) (fun _ => ⟨rfl, rfl, fun _ => rfl⟩)
    · rename_i hnot
      cases hstep
      have hused : x.sender = .used true := by
        simp only at hholds
        split_ifs at hholds
        · exact hholds
        · exact absurd (by simp [place, hx, hholds]) hnot
      refine hinv.stays hp hindex hx (.inr ⟨?_, by rw [hused]; rfl⟩) ?_
      · cases exits <;> rfl
      · intro _
        refine ⟨by rw [hused]; rfl, ?_⟩
        cases exits <;> exact nofun
  · rename_i index exits hphase
    obtain ⟨svc, hsvc, rfl⟩ := Option.map_eq_some_iff.mp hstep
    obtain ⟨x, hx, hholds⟩ := hinv.owned i p index hp (by rw [hphase]; rfl)
    unfold Puller.Holds at hholds
    rw [hphase] at hholds
    obtain ⟨answer, hset⟩ := send_cases hx hsvc
    rw [hholds] at hset
    exact hinv.own hp (by rw [hphase]; rfl) (hinv.svc.step hsvc) hx hset
      (.inl ⟨rfl, rfl⟩) (fun _ => ⟨rfl, rfl, fun _ => rfl⟩)
  · rename_i index exits hphase
    obtain ⟨svc, hsvc, rfl⟩ := Option.map_eq_some_iff.mp hstep
    obtain ⟨x, hx, hholds⟩ := hinv.owned i p index hp (by rw [hphase]; rfl)
    unfold Puller.Holds at hholds
    rw [hphase] at hholds
    have hset := leaveInFlight_cases hx hsvc
    rw [hholds] at hset
    refine hinv.own hp (by rw [hphase]; rfl) (hinv.svc.step hsvc) hx hset
      (.inr ⟨?_, rfl⟩) (fun _ => ⟨rfl, rfl, ?_⟩)
    · cases exits <;> rfl
    · cases exits <;> exact nofun
  · cases hstep
  · cases hstep

/-- One step keeps the invariant. -/
theorem Serving.Inv.step (hinv : s.Inv) {action : ServeAction}
    (hstep : s.step host debug action = some next) : next.Inv := by
  cases action with
  | server action =>
      simp only [Serving.step] at hstep
      split at hstep
      · cases hstep
      · rename_i hcall
        obtain ⟨svc, hsvc, rfl⟩ := Option.map_eq_some_iff.mp hstep
        exact hinv.server (Bool.eq_false_iff.mpr hcall) hsvc
  | stop =>
      cases hstep
      exact ⟨hinv.svc, hinv.owned, hinv.single, hinv.covered, hinv.warned⟩
  | loop i => exact hinv.loop hstep
  | handler i event => exact hinv.handle hstep

end Steps

theorem Serving.inv_of_reaches {host : HeaderHost} {debug : Bool}
    {cap threads : ℕ} {handlerWait : Bool} {s : Serving}
    (hreach : (serveSystem host debug).Reaches
      (.new cap handlerWait threads) s) : s.Inv :=
  hreach.invariant (fun _ _ _ hinv hstep => hinv.step hstep)
    (Serving.new_inv cap handlerWait threads)

end Web

open Httpd Web TransitionSystem in
/-- Over any number of pullers whose handlers answer through `respond` and
`respond-file` on their own threads, as often as they like and however they
are left: a request that has been pulled has had its answer sent, or is in the
hands of exactly one puller; in a handler the flag says whether its reply has
been taken; no puller between requests has left one unanswered or counted; and
a request warned of is one that no `respond` was accepted for. -/
theorem web_serve_answers (host : HeaderHost) (debug : Bool) (cap : ℕ)
    (handlerWait : Bool) (threads : ℕ) (s : Serving)
    (hreach : (serveSystem host debug).Reaches
      (.new cap handlerWait threads) s) :
    (∀ (index : ℕ) (x : Httpd.Exchange),
      s.svc.exchanges[index]? = some x → x.sender.pulled = true →
        x.sender = .used true ∨ ∃! i : ℕ, ∃ p : Puller,
          s.pullers[i]? = some p ∧ p.phase.index = some index) ∧
    (∀ (i : ℕ) (p : Puller) (index : ℕ), s.pullers[i]? = some p →
      p.phase = .handler index →
        ∃ x, s.svc.exchanges[index]? = some x ∧
          x.sender = if p.answered then .used true else .held) ∧
    ((∀ p : Puller, p ∈ s.pullers → p.phase.index = none) →
      s.svc.inFlight = 0 ∧ ∀ x ∈ s.svc.exchanges, x.sender.pulled = true →
        x.sender = .used true ∧ x.uses = 1) ∧
    (∀ index ∈ s.warned, ∃ x, s.svc.exchanges[index]? = some x ∧
      x.sender.pulled = true ∧ x.accepted = none) := by
  have hinv := Serving.inv_of_reaches hreach
  have hused : ∀ (x : Httpd.Exchange), x.sender.pulled = true →
      Engaged x.sender = false → x.sender = .used true := by
    intro x hpulled hfree
    simpa [Engaged, hpulled] using hfree
  refine ⟨?_, ?_, ?_, ?_⟩
  · intro index x hx hpulled
    cases hengaged : Engaged x.sender with
    | false => exact .inl (hused x hpulled hengaged)
    | true =>
        obtain ⟨i, p, hp, hindex⟩ := hinv.covered index x hx hengaged
        refine .inr ⟨i, ⟨p, hp, hindex⟩, ?_⟩
        rintro j ⟨q, hq, hqindex⟩
        exact hinv.single j i q p index hq hp hqindex hindex
  · intro i p index hp hphase
    obtain ⟨x, hx, hholds⟩ := hinv.owned i p index hp (by rw [hphase]; rfl)
    unfold Puller.Holds at hholds
    rw [hphase] at hholds
    exact ⟨x, hx, hholds⟩
  · intro hidle
    have hfree : ∀ x ∈ s.svc.exchanges, Engaged x.sender = false := by
      intro x hmem
      obtain ⟨index, hx⟩ := List.mem_iff_getElem?.mp hmem
      by_contra hengaged
      obtain ⟨i, p, hp, hindex⟩ :=
        hinv.covered index x hx (by simpa using hengaged)
      rw [hidle p (List.mem_of_getElem? hp)] at hindex
      cases hindex
    constructor
    · rw [hinv.svc.inFlight, List.countP_eq_zero]
      intro x hmem
      have hengaged := hfree x hmem
      revert hengaged
      cases x.sender <;>
        simp [Engaged, SenderPlace.pulled, SenderPlace.counted]
    · intro x hmem hpulled
      have hplace := hused x hpulled (hfree x hmem)
      refine ⟨hplace, ?_⟩
      rw [(hinv.svc.exchanges x hmem).uses, hplace]
      rfl
  · intro index hmem
    obtain ⟨x, hx, hpulled, haccepted, -⟩ := hinv.warned index hmem
    exact ⟨x, hx, hpulled, haccepted⟩

open Httpd Web in
/-- Two pullers and one request, whose handler returns without responding. -/
def silentRun : List ServeAction :=
  [.server (.arrive "GET"), .server (.checkDown 0),
    .server (.bodySlot 0 true), .server (.readBody 0 none), .server (.push 0),
    .loop 0, .loop 0, .loop 1, .loop 1, .loop 0, .loop 1, .loop 0, .loop 1,
    .loop 1, .loop 0, .loop 1, .handler 1 .returns, .loop 1, .loop 1, .loop 1,
    .server (.poll 0)]

open Httpd Web in
theorem web_serve_answers_silent :
    ∃ s, (serveSystem verbatimHost false).run (.new 1 false 2) silentRun =
        some s ∧
      s.warned = [0] ∧ s.svc.exchanges.map (fun x => x.answers) =
        [[statusOnly 500]] ∧
      ∀ index ∈ s.warned, ∃ x, s.svc.exchanges[index]? = some x ∧
        x.sender.pulled = true ∧ x.accepted = none := by
  refine ⟨_, rfl, rfl, rfl, ?_⟩
  exact (web_serve_answers verbatimHost false 1 false 2 _
    ⟨silentRun, rfl⟩).2.2.2

end Rulisp
