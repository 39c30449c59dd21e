import Rulisp.HttpdAnswers
import Rulisp.ListEntries

/-!
# The server answers once

The queue, `in_flight` and the drain, over every run of the server, and what
a client whose request was parked gets.
-/

namespace Rulisp

namespace Httpd

open TransitionSystem ListEntries

/-- The server after any run. -/
structure Svc.Inv (svc : Svc) : Prop where
  exchanges : ∀ x ∈ svc.exchanges, x.Inv
  nodup : svc.queue.Nodup
  queued : ∀ index, index ∈ svc.queue ↔
    ∃ x, svc.exchanges[index]? = some x ∧ x.sender = .queued
  bounded : svc.queue.length ≤ svc.cap
  inFlight : svc.inFlight =
    svc.exchanges.countP fun x => x.sender.counted
  drained : svc.drained = true → svc.down = true ∧ svc.queue = []

theorem Svc.new_inv (cap : ℕ) (handlerWait : Bool) :
    (Svc.new cap handlerWait).Inv where
  exchanges _ hx := absurd hx List.not_mem_nil
  nodup := List.nodup_nil
  queued index := by simp [Svc.new]
  bounded := Nat.zero_le cap
  inFlight := rfl
  drained hdrained := absurd hdrained Bool.false_ne_true

section Steps

variable {svc next : Svc}

theorem Svc.on_cases {index : ℕ} {f : Exchange → Option Exchange}
    (hstep : svc.on index f = some next) :
    ∃ x x', svc.exchanges[index]? = some x ∧ f x = some x' ∧
      next = { svc with exchanges := svc.exchanges.set index x' } := by
  unfold Svc.on at hstep
  split at hstep
  · cases hstep
  · rename_i x hx
    split at hstep
    · cases hstep
    · rename_i x' hx'
      cases hstep
      exact ⟨x, x', hx, hx', rfl⟩

/-- The number of exchanges that `in_flight` counts, after one has changed. -/
theorem Svc.counted_set {index : ℕ} {x : Exchange}
    (hx : svc.exchanges[index]? = some x) (x' : Exchange) :
    (svc.exchanges.set index x').countP (fun y => y.sender.counted) +
        x.sender.counted.toNat =
      svc.exchanges.countP (fun y => y.sender.counted) +
        x'.sender.counted.toNat := by
  have hcount := countP_set_add (fun y => y.sender.counted) hx x'
  cases hbefore : x.sender.counted <;> cases hafter : x'.sender.counted <;>
    simpa [hbefore, hafter] using hcount

theorem Svc.Inv.exchanges_set (hinv : svc.Inv) {index : ℕ} {x' : Exchange}
    (hx' : x'.Inv) : ∀ x ∈ svc.exchanges.set index x', x.Inv := by
  intro x hx
  rcases List.mem_or_eq_of_mem_set hx with hold | hnew
  · exact hinv.exchanges x hold
  · rw [hnew]
    exact hx'

/-- Replacing an exchange by one that is queued if and only if it was. -/
theorem Svc.Inv.queued_set (hinv : svc.Inv) {index : ℕ} {x x' : Exchange}
    (hx : svc.exchanges[index]? = some x)
    (hsame : x'.sender = .queued ↔ x.sender = .queued) (other : ℕ) :
    other ∈ svc.queue ↔
      ∃ y, (svc.exchanges.set index x')[other]? = some y ∧
        y.sender = .queued := by
  rw [hinv.queued]
  constructor
  · exact exists_getElem?_set hx hsame.mpr
  · rintro ⟨y, hy, hplace⟩
    rcases getElem?_set_of_some hx hy with ⟨rfl, rfl⟩ | ⟨-, hold⟩
    · exact ⟨x, hx, hsame.mp hplace⟩
    · exact ⟨y, hold, hplace⟩

/-- A step of one exchange that the queue and `in_flight` do not see. -/
theorem Svc.Inv.set_keeps (hinv : svc.Inv) {index : ℕ} {x x' : Exchange}
    (hx : svc.exchanges[index]? = some x) (hkeeps : x.Keeps x') :
    ({ svc with exchanges := svc.exchanges.set index x' } : Svc).Inv where
  exchanges := hinv.exchanges_set hkeeps.inv
  nodup := hinv.nodup
  queued := hinv.queued_set hx hkeeps.queued
  bounded := hinv.bounded
  inFlight := by
    have hcount := Svc.counted_set hx x'
    have hinFlight := hinv.inFlight
    rw [hkeeps.counted] at hcount
    dsimp only
    omega
  drained := hinv.drained

theorem Svc.Inv.on (hinv : svc.Inv) {index : ℕ}
    {f : Exchange → Option Exchange}
    (hkeeps : ∀ x x', x.Inv → f x = some x' → x.Keeps x')
    (hstep : svc.on index f = some next) : next.Inv := by
  obtain ⟨x, x', hx, hx', rfl⟩ := Svc.on_cases hstep
  have hinvx := hinv.exchanges x (List.mem_of_getElem? hx)
  exact hinv.set_keeps hx (hkeeps x x' hinvx hx')

/-! ### The queue -/

theorem Svc.live_iff {index : ℕ} {x : Exchange}
    (hx : svc.exchanges[index]? = some x) :
    svc.live index = true ↔ x.receiver = true := by
  unfold Svc.live
  rw [hx]

theorem Svc.Inv.prune (hinv : svc.Inv) : svc.prune.Inv where
  exchanges := by
    intro x hx
    obtain ⟨y, hy, rfl⟩ := List.mem_map.mp hx
    exact (hinv.exchanges y hy).prune
  nodup := hinv.nodup.filter _
  queued := by
    intro index
    simp only [Svc.prune, List.mem_filter, List.getElem?_map,
      Option.map_eq_some_iff]
    rw [hinv.queued]
    constructor
    · rintro ⟨⟨x, hx, hplace⟩, hlive⟩
      have halive := (Svc.live_iff hx).mp hlive
      exact ⟨x.prune, ⟨x, hx, rfl⟩, x.prune_queued.mpr ⟨hplace, halive⟩⟩
    · rintro ⟨-, ⟨x, hx, rfl⟩, hplace⟩
      obtain ⟨hbefore, halive⟩ := x.prune_queued.mp hplace
      exact ⟨⟨x, hx, hbefore⟩, (Svc.live_iff hx).mpr halive⟩
  bounded := (List.length_filter_le _ _).trans hinv.bounded
  inFlight := by
    simp only [Svc.prune, List.countP_map, Function.comp_def,
      Exchange.prune_counted]
    exact hinv.inFlight
  drained := by
    intro hdrained
    obtain ⟨hdown, hempty⟩ := hinv.drained hdrained
    exact ⟨hdown, by simp [Svc.prune, hempty]⟩

theorem Svc.Inv.drain (hinv : svc.Inv) (hdown : svc.down = true) :
    svc.drain.Inv where
  exchanges := by
    intro x hx
    obtain ⟨y, hy, rfl⟩ := List.mem_map.mp hx
    exact (hinv.exchanges y hy).drain
  nodup := List.nodup_nil
  queued := by
    intro index
    simp only [Svc.drain, List.getElem?_map, Option.map_eq_some_iff]
    constructor
    · exact fun hmem => absurd hmem List.not_mem_nil
    · rintro ⟨-, ⟨x, -, rfl⟩, hplace⟩
      exact absurd hplace x.drain_not_queued
  bounded := Nat.zero_le _
  inFlight := by
    simp only [Svc.drain, List.countP_map, Function.comp_def,
      Exchange.drain_counted]
    exact hinv.inFlight
  drained := fun _ => ⟨hdown, rfl⟩

/-- Parking a request in a queue that has room. -/
theorem Svc.Inv.park (hinv : svc.Inv) {index : ℕ} {x y : Exchange}
    (hx : svc.exchanges[index]? = some x) (hplace : x.sender ≠ .queued)
    (hcounted : x.sender.counted = false) (hy : y.Inv)
    (hqueued : y.sender = .queued) (hroom : svc.queue.length < svc.cap)
    (hup : svc.down = false) (parkings : ℕ) :
    ({ svc with
      queue := svc.queue ++ [index]
      parkings := parkings
      exchanges := svc.exchanges.set index y } : Svc).Inv where
  exchanges := hinv.exchanges_set hy
  nodup := by
    apply hinv.nodup.append (List.nodup_singleton index)
    intro other hother hnew
    rw [List.mem_singleton.mp hnew, hinv.queued] at hother
    obtain ⟨z, hz, hbefore⟩ := hother
    rw [hx] at hz
    cases hz
    exact hplace hbefore
  queued := by
    intro other
    have hlt := (List.getElem?_eq_some_iff.mp hx).1
    simp only [List.mem_append, List.mem_singleton]
    constructor
    · rintro (hold | rfl)
      · exact exists_getElem?_set hx (fun _ => hqueued)
          ((hinv.queued other).mp hold)
      · exact ⟨y, List.getElem?_set_self hlt, hqueued⟩
    · rintro ⟨z, hz, hafter⟩
      rcases getElem?_set_of_some hx hz with ⟨hsame, -⟩ | ⟨-, hold⟩
      · exact .inr hsame
      · exact .inl ((hinv.queued other).mpr ⟨z, hold, hafter⟩)
  bounded := by
    dsimp only
    rw [List.length_append, List.length_singleton]
    omega
  inFlight := by
    have hcount := Svc.counted_set hx y
    have hinFlight := hinv.inFlight
    rw [hcounted, hqueued] at hcount
    dsimp only
    exact hinFlight.trans hcount.symm
  drained := by
    intro hdrained
    have hdown := (hinv.drained hdrained).1
    rw [hup] at hdown
    cases hdown

theorem Svc.Inv.push (hinv : svc.Inv) {index : ℕ}
    (hstep : svc.push index = some next) : next.Inv := by
  unfold Svc.push at hstep
  split at hstep
  · cases hstep
  · rename_i x hx
    split at hstep
    · rename_i hphase
      have hinvx := hinv.exchanges x (List.mem_of_getElem? hx)
      have hbefore := hinvx.phaseBefore (by rw [hphase]; rfl)
      split at hstep
      · exact hinv.on (fun _ _ hinv hstep => hinv.refusePush hstep) hstep
      · rename_i hup
        simp only at hstep
        split at hstep
        · rename_i hroom
          cases hstep
          have hplace : x.sender ≠ .queued ∧ x.sender.counted = false := by
            rcases SenderPlace.of_beforePark hbefore with hplace | hplace <;>
              rw [hplace] <;> exact ⟨SenderPlace.noConfusion, rfl⟩
          have hsame : x.prune = x := if_neg fun h => hplace.1 h.1
          have hx' : svc.prune.exchanges[index]? = some x := by
            simp [Svc.prune, hx, hsame]
          have hopen : svc.prune.down = false := Bool.eq_false_iff.mpr hup
          exact hinv.prune.park hx' hplace.1 hplace.2 (hinvx.parked hphase)
            rfl hroom hopen _
        · cases hstep
          exact hinv.prune
    · cases hstep

/-- The front of the queue goes to a puller. -/
theorem Svc.Inv.pop (hinv : svc.Inv) {index : ℕ} {queue : List ℕ}
    {x : Exchange} (hqueue : svc.queue = index :: queue)
    (hx : svc.exchanges[index]? = some x) :
    ({ svc with
      queue := queue
      exchanges := svc.exchanges.set index x.take } : Svc).Inv := by
  have hplace : x.sender = .queued := by
    obtain ⟨y, hy, hplace⟩ :=
      (hinv.queued index).mp (by rw [hqueue]; exact List.mem_cons_self)
    rw [hx] at hy
    cases hy
    exact hplace
  have hnodup := hinv.nodup
  rw [hqueue, List.nodup_cons] at hnodup
  have hinvx := hinv.exchanges x (List.mem_of_getElem? hx)
  constructor
  · exact hinv.exchanges_set (hinvx.take hplace)
  · exact hnodup.2
  · intro other
    constructor
    · intro hmem
      have hne : index ≠ other := fun heq => hnodup.1 (heq ▸ hmem)
      obtain ⟨y, hy, hbefore⟩ := (hinv.queued other).mp (by
        rw [hqueue]
        exact List.mem_cons_of_mem index hmem)
      exact ⟨y, by rw [List.getElem?_set_ne hne, hy], hbefore⟩
    · rintro ⟨y, hy, hafter⟩
      rcases getElem?_set_of_some hx hy with ⟨-, rfl⟩ | ⟨hne, hold⟩
      · cases hafter
      · have hmem := (hinv.queued other).mpr ⟨y, hold, hafter⟩
        rw [hqueue] at hmem
        exact (List.mem_cons.mp hmem).resolve_left hne
  · have hbounded := hinv.bounded
    rw [hqueue, List.length_cons] at hbounded
    simp only
    omega
  · have hcount := Svc.counted_set hx x.take
    have hinFlight := hinv.inFlight
    rw [hplace] at hcount
    dsimp only
    exact hinFlight.trans hcount.symm
  · intro hdrained
    obtain ⟨-, hempty⟩ := hinv.drained hdrained
    rw [hqueue] at hempty
    cases hempty

theorem Svc.Inv.take (hinv : svc.Inv) (hstep : svc.take = some next) :
    next.Inv := by
  unfold Svc.take at hstep
  simp only at hstep
  split at hstep
  · cases hstep
    exact hinv.prune
  · rename_i index queue hqueue
    split at hstep
    · cases hstep
    · rename_i x hx
      cases hstep
      exact hinv.prune.pop hqueue hx

/-! ### The calls -/

theorem Svc.Inv.hold (hinv : svc.Inv) {index : ℕ}
    (hstep : svc.on index Exchange.hold = some next) :
    ({ next with inFlight := next.inFlight + 1 } : Svc).Inv := by
  obtain ⟨x, x', hx, hx', rfl⟩ := Svc.on_cases hstep
  have hinvx := hinv.exchanges x (List.mem_of_getElem? hx)
  obtain ⟨hinvx', hbefore, hafter⟩ := hinvx.hold hx'
  constructor
  · exact hinv.exchanges_set hinvx'
  · exact hinv.nodup
  · exact hinv.queued_set hx (by rw [hbefore, hafter]; simp)
  · exact hinv.bounded
  · have hcount := Svc.counted_set hx x'
    have hinFlight := hinv.inFlight
    have hone : SenderPlace.held.counted.toNat = 1 := rfl
    have hzero : SenderPlace.taken.counted.toNat = 0 := rfl
    rw [hbefore, hafter] at hcount
    dsimp only
    omega
  · exact hinv.drained

theorem Svc.Inv.leaveInFlight (hinv : svc.Inv) {index : ℕ}
    (hstep : svc.on index Exchange.leaveInFlight = some next) :
    ({ next with inFlight := fetchSub next.inFlight } : Svc).Inv := by
  obtain ⟨x, x', hx, hx', rfl⟩ := Svc.on_cases hstep
  have hinvx := hinv.exchanges x (List.mem_of_getElem? hx)
  obtain ⟨hinvx', hqueued, hbefore, hafter⟩ := hinvx.leaveInFlight hx'
  constructor
  · exact hinv.exchanges_set hinvx'
  · exact hinv.nodup
  · exact hinv.queued_set hx hqueued
  · exact hinv.bounded
  · have hcount := Svc.counted_set hx x'
    have hinFlight := hinv.inFlight
    have hpos : 0 < svc.exchanges.countP fun x => x.sender.counted :=
      List.countP_pos_iff.mpr ⟨x, List.mem_of_getElem? hx, hbefore⟩
    rw [hbefore, hafter, Bool.toNat_true, Bool.toNat_false] at hcount
    have hnonzero : svc.inFlight ≠ 0 := by omega
    dsimp only [fetchSub]
    rw [if_neg hnonzero]
    omega
  · exact hinv.drained

theorem Svc.Inv.respond (hinv : svc.Inv) {index : ℕ}
    {built : Except HttpError Response}
    (hstep : svc.respond index built = some next) : next.Inv := by
  unfold Svc.respond at hstep
  split at hstep
  · cases hstep
  · rename_i x hx
    have hinvx := hinv.exchanges x (List.mem_of_getElem? hx)
    split at hstep
    · split at hstep
      · cases hstep
        exact hinv
      · split at hstep
        · cases hstep
          exact hinv
        · rename_i x' hx'
          cases hstep
          exact hinv.set_keeps hx (hinvx.takeReply hx')
    · cases hstep

/-- One step of the server keeps the invariant. -/
theorem Svc.Inv.step {host : HeaderHost} (hinv : svc.Inv)
    {action : HttpdAction} (hstep : svc.step host action = some next) :
    next.Inv := by
  cases action with
  | arrive method =>
      cases hstep
      constructor
      · intro x hx
        rcases List.mem_append.mp hx with hold | hnew
        · exact hinv.exchanges x hold
        · rw [List.mem_singleton.mp hnew]
          exact Exchange.new_inv method
      · exact hinv.nodup
      · intro index
        rw [hinv.queued]
        constructor
        · rintro ⟨x, hx, hplace⟩
          have hlt := (List.getElem?_eq_some_iff.mp hx).1
          exact ⟨x, by rw [List.getElem?_append_left hlt, hx], hplace⟩
        · rintro ⟨x, hx, hplace⟩
          rw [List.getElem?_append] at hx
          split_ifs at hx with hlt
          · exact ⟨x, hx, hplace⟩
          · rw [List.mem_singleton.mp (List.mem_of_getElem? hx)] at hplace
            cases hplace
      · exact hinv.bounded
      · have hnew : (Exchange.new method).sender.counted = false := rfl
        simp only [List.countP_append, List.countP_singleton, hnew]
        exact hinv.inFlight
      · exact hinv.drained
  | checkDown index =>
      exact hinv.on (fun _ _ hinv hstep => hinv.checkDown hstep) hstep
  | bodySlot index acquired =>
      exact hinv.on (fun _ _ hinv hstep => hinv.bodySlot hstep) hstep
  | readBody index refusal =>
      exact hinv.on (fun _ _ hinv hstep => hinv.readBody hstep) hstep
  | push index => exact hinv.push hstep
  | pushDeadline index =>
      exact hinv.on (fun _ _ hinv hstep => hinv.refusePush hstep) hstep
  | poll index =>
      exact hinv.on (fun _ _ hinv hstep => hinv.poll hstep) hstep
  | timeout index =>
      simp only [Svc.step] at hstep
      split_ifs at hstep
      exact hinv.on (fun _ _ hinv hstep => hinv.timeout hstep) hstep
  | disconnect index =>
      exact hinv.on (fun _ _ hinv hstep => hinv.disconnect hstep) hstep
  | prune =>
      cases hstep
      exact hinv.prune
  | take => exact hinv.take hstep
  | hold index =>
      obtain ⟨held, hheld, rfl⟩ := Option.map_eq_some_iff.mp hstep
      exact hinv.hold hheld
  | respond index status headers body =>
      simp only [Svc.step] at hstep
      split at hstep
      · cases hstep
      · exact hinv.respond hstep
  | respondFile index built => exact hinv.respond hstep
  | leaveInFlight index =>
      obtain ⟨left, hleft, rfl⟩ := Option.map_eq_some_iff.mp hstep
      exact hinv.leaveInFlight hleft
  | send index =>
      exact hinv.on (fun _ _ hinv hstep => hinv.send hstep) hstep
  | free index =>
      exact hinv.on (fun _ _ hinv hstep => hinv.free hstep) hstep
  | storeDown =>
      cases hstep
      exact ⟨hinv.exchanges, hinv.nodup, hinv.queued, hinv.bounded,
        hinv.inFlight, fun hdrained => ⟨rfl, (hinv.drained hdrained).2⟩⟩
  | drain =>
      simp only [Svc.step] at hstep
      split_ifs at hstep with hdown
      cases hstep
      exact hinv.drain hdown

/-! ### What no step changes -/

/-- The configuration stays, and after a drain nothing is parked. -/
structure Svc.Continues (svc next : Svc) : Prop where
  cap : next.cap = svc.cap
  handlerWait : next.handlerWait = svc.handlerWait
  drained : svc.drained = true → next.drained = true
  parkings : svc.down = true → next.parkings = svc.parkings

theorem Svc.Continues.refl (svc : Svc) : svc.Continues svc :=
  ⟨rfl, rfl, id, fun _ => rfl⟩

theorem Svc.on_continues {index : ℕ} {f : Exchange → Option Exchange}
    (hstep : svc.on index f = some next) : svc.Continues next := by
  obtain ⟨x, x', -, -, rfl⟩ := Svc.on_cases hstep
  exact ⟨rfl, rfl, id, fun _ => rfl⟩

theorem Svc.push_continues {index : ℕ}
    (hstep : svc.push index = some next) : svc.Continues next := by
  unfold Svc.push at hstep
  split at hstep
  · cases hstep
  · split at hstep
    · split at hstep
      · exact Svc.on_continues hstep
      · rename_i hup
        simp only at hstep
        split at hstep
        · cases hstep
          exact ⟨rfl, rfl, id, fun hdown => absurd hdown hup⟩
        · cases hstep
          exact ⟨rfl, rfl, id, fun _ => rfl⟩
    · cases hstep

theorem Svc.take_continues (hstep : svc.take = some next) :
    svc.Continues next := by
  unfold Svc.take at hstep
  simp only at hstep
  split at hstep
  · cases hstep
    exact ⟨rfl, rfl, id, fun _ => rfl⟩
  · split at hstep
    · cases hstep
    · cases hstep
      exact ⟨rfl, rfl, id, fun _ => rfl⟩

theorem Svc.respond_continues {index : ℕ}
    {built : Except HttpError Response}
    (hstep : svc.respond index built = some next) : svc.Continues next := by
  unfold Svc.respond at hstep
  split at hstep
  · cases hstep
  · split at hstep
    · split at hstep
      · cases hstep
        exact .refl svc
      · split at hstep
        · cases hstep
          exact .refl svc
        · cases hstep
          exact ⟨rfl, rfl, id, fun _ => rfl⟩
    · cases hstep

theorem Svc.step_continues {host : HeaderHost} {action : HttpdAction}
    (hstep : svc.step host action = some next) : svc.Continues next := by
  cases action with
  | push index => exact Svc.push_continues hstep
  | take => exact Svc.take_continues hstep
  | respond index status headers body =>
      simp only [Svc.step] at hstep
      split at hstep
      · cases hstep
      · exact Svc.respond_continues hstep
  | respondFile index built => exact Svc.respond_continues hstep
  | timeout index =>
      simp only [Svc.step] at hstep
      split_ifs at hstep
      exact Svc.on_continues hstep
  | hold index =>
      obtain ⟨held, hheld, rfl⟩ := Option.map_eq_some_iff.mp hstep
      obtain ⟨hcap, hwait, hdrained, hparkings⟩ := Svc.on_continues hheld
      exact ⟨hcap, hwait, hdrained, hparkings⟩
  | leaveInFlight index =>
      obtain ⟨left, hleft, rfl⟩ := Option.map_eq_some_iff.mp hstep
      obtain ⟨hcap, hwait, hdrained, hparkings⟩ := Svc.on_continues hleft
      exact ⟨hcap, hwait, hdrained, hparkings⟩
  | arrive method =>
      cases hstep
      exact ⟨rfl, rfl, id, fun _ => rfl⟩
  | prune =>
      cases hstep
      exact ⟨rfl, rfl, id, fun _ => rfl⟩
  | storeDown =>
      cases hstep
      exact ⟨rfl, rfl, id, fun _ => rfl⟩
  | drain =>
      simp only [Svc.step] at hstep
      split_ifs at hstep
      cases hstep
      exact ⟨rfl, rfl, fun _ => rfl, fun _ => rfl⟩
  | _ => exact Svc.on_continues hstep

end Steps

/-! ## Runs -/

section Runs

variable {host : HeaderHost} {svc later : Svc}

theorem Svc.Inv.reaches (hinv : svc.Inv)
    (hreach : (httpdSystem host).Reaches svc later) : later.Inv :=
  hreach.invariant (fun _ _ _ hinv hstep => hinv.step hstep) hinv

theorem Svc.config_reaches
    (hreach : (httpdSystem host).Reaches svc later) :
    later.cap = svc.cap ∧ later.handlerWait = svc.handlerWait := by
  let same := fun next : Svc =>
    next.cap = svc.cap ∧ next.handlerWait = svc.handlerWait
  apply @System.Reaches.invariant _ _ _ same _ _ _ hreach ⟨rfl, rfl⟩
  intro before action next hsame hstep
  have hcontinues := Svc.step_continues hstep
  exact ⟨hcontinues.cap.trans hsame.1, hcontinues.handlerWait.trans hsame.2⟩

/-- Nothing is parked once a stop has drained the queue. -/
theorem Svc.Inv.drained_reaches (hinv : svc.Inv)
    (hdrained : svc.drained = true)
    (hreach : (httpdSystem host).Reaches svc later) :
    later.queue = [] ∧ later.parkings = svc.parkings := by
  let stopped := fun next : Svc => next.Inv ∧ next.drained = true ∧
    next.parkings = svc.parkings
  have hstopped : stopped later := by
    apply @System.Reaches.invariant _ _ _ stopped _ _ _ hreach
      ⟨hinv, hdrained, rfl⟩
    rintro before action next ⟨hbefore, hempty, hsame⟩ hstep
    have hcontinues := Svc.step_continues hstep
    have hdown := (hbefore.drained hempty).1
    exact ⟨hbefore.step hstep, hcontinues.drained hempty,
      (hcontinues.parkings hdown).trans hsame⟩
  exact ⟨(hstopped.1.drained hstopped.2.1).2, hstopped.2.2⟩

end Runs

/-! ## What holds in every state -/

section States

variable {svc : Svc}

theorem Exchange.Inv.at_most_once {x : Exchange} (hinv : x.Inv) :
    x.pulls ≤ 1 ∧ x.uses ≤ 1 ∧ x.answers.length ≤ 1 := by
  refine ⟨?_, ?_, ?_⟩
  · rw [hinv.pulls]
    split_ifs <;> decide
  · rw [hinv.uses]
    split_ifs <;> decide
  · rw [hinv.answers]
    cases x.phase <;> simp [ParkPhase.answers]

theorem Svc.on_of_some {index : ℕ} {x x' : Exchange}
    {f : Exchange → Option Exchange}
    (hx : svc.exchanges[index]? = some x) (hx' : f x = some x') :
    ∃ next, svc.on index f = some next ∧
      next.exchanges[index]? = some x' := by
  have hlt := (List.getElem?_eq_some_iff.mp hx).1
  refine ⟨{ svc with exchanges := svc.exchanges.set index x' }, ?_, ?_⟩
  · unfold Svc.on
    simp only [hx, hx']
  · exact List.getElem?_set_self hlt

/-- The task of a parked request answers once the reply channel has been used
or dropped. -/
theorem Svc.Inv.poll_answers (hinv : svc.Inv) {index : ℕ} {x : Exchange}
    (hx : svc.exchanges[index]? = some x) (hphase : x.phase = .parked)
    (hended : x.sender.spent = true ∨ x.sender = .dropped) :
    ∃ response next, svc.on index Exchange.poll = some next ∧
      next.exchanges[index]? = some (x.answer response) ∧
      x.MayGet response := by
  have hinvx := hinv.exchanges x (List.mem_of_getElem? hx)
  cases hvalue : x.value with
  | some response =>
      obtain ⟨next, hstep, hnext⟩ := Svc.on_of_some hx
        (show x.poll = some (x.answer response) by
          unfold Exchange.poll
          rw [hphase]
          simp only [hvalue])
      exact ⟨response, next, hstep, hnext, hinvx.value response hvalue⟩
  | none =>
      obtain ⟨next, hstep, hnext⟩ := Svc.on_of_some hx
        (show x.poll = some (x.answer (statusOnly 503)) by
          unfold Exchange.poll
          rw [hphase]
          simp only [hvalue]
          rw [if_pos hended])
      exact ⟨statusOnly 503, next, hstep, hnext, .inr (.inr (.inl rfl))⟩

theorem Svc.timeout_answers {index : ℕ} {x : Exchange}
    (hx : svc.exchanges[index]? = some x) (hphase : x.phase = .parked) :
    ∃ next, svc.on index Exchange.timeout = some next ∧
      next.exchanges[index]? = some (x.answer (statusOnly 504)) := by
  apply Svc.on_of_some hx
  unfold Exchange.timeout
  rw [hphase]

/-- A response that is refused leaves everything as it was, and the next one
that is not takes the reply. -/
theorem Svc.respond_held {index : ℕ} {x : Exchange}
    (hx : svc.exchanges[index]? = some x) (hheld : x.sender = .held) :
    (∀ e, svc.respond index (.error e) = some svc) ∧
    ∀ response, ∃ next, svc.respond index (.ok response) = some next ∧
      next.exchanges[index]? = some { x with
        sender := .responding response, accepted := some response } := by
  have hlt := (List.getElem?_eq_some_iff.mp hx).1
  have hpulled : (x.sender.pulled && decide (x.sender ≠ .taken)) = true := by
    rw [hheld]
    rfl
  constructor
  · intro e
    unfold Svc.respond
    simp only [hx]
    rw [if_pos hpulled]
  · intro response
    have htake : x.takeReply response = some { x with
        sender := .responding response, accepted := some response } := by
      unfold Exchange.takeReply
      rw [hheld]
    refine ⟨{ svc with exchanges := svc.exchanges.set index { x with
      sender := .responding response, accepted := some response } }, ?_, ?_⟩
    · unfold Svc.respond
      simp only [hx]
      rw [if_pos hpulled]
      simp only [htake]
    · exact List.getElem?_set_self hlt

/-- `in_flight` is never decremented below zero. -/
theorem Svc.Inv.inFlight_pos (hinv : svc.Inv) {x : Exchange}
    (hx : x ∈ svc.exchanges) (hcounted : x.sender.counted = true) :
    0 < svc.inFlight := by
  rw [hinv.inFlight]
  exact List.countP_pos_iff.mpr ⟨x, hx, hcounted⟩

theorem SenderPlace.counted_of_unanswered {place : SenderPlace}
    (hheld : place.unanswered = true) : place.counted = true := by
  cases place <;> first | rfl | cases hheld

theorem SenderPlace.counted_eq_of_not_busy {place : SenderPlace}
    (hidle : place.busy = false) : place.counted = place.unanswered := by
  cases place <;> first | rfl | cases hidle

theorem Svc.Inv.unanswered_le (hinv : svc.Inv) :
    svc.exchanges.countP (fun x => x.sender.unanswered) ≤ svc.inFlight := by
  rw [hinv.inFlight]
  exact List.countP_mono_left fun x _ hheld =>
    SenderPlace.counted_of_unanswered hheld

theorem Svc.Inv.inFlight_of_idle (hinv : svc.Inv)
    (hidle : ∀ x ∈ svc.exchanges, x.sender.busy = false) :
    svc.inFlight = svc.exchanges.countP fun x => x.sender.unanswered := by
  rw [hinv.inFlight]
  apply List.countP_congr
  intro x hx
  rw [SenderPlace.counted_eq_of_not_busy (hidle x hx)]

end States

end Httpd

open Httpd TransitionSystem in
/-- In every reachable state of the server, each request has been pulled, its
reply channel used and its client answered at most once; a parked request is
answered with the handler's response, 500, 503 or 504 as soon as its channel
has been used or dropped or its time has passed; a refused response leaves
the request answerable; the queue is within its cap; `in_flight` is at least
the number of pulled requests whose reply has not been taken (of the `Request`
values that exist: what a `take` has popped and not yet returned is none), and
that number when no call is at work on one; and nothing is parked after a
drain. -/
theorem httpd_answers_once (host : HeaderHost) (cap : ℕ) (handlerWait : Bool)
    (svc : Svc)
    (hreach : (httpdSystem host).Reaches (Svc.new cap handlerWait) svc) :
    (∀ x ∈ svc.exchanges,
      x.pulls ≤ 1 ∧ x.uses ≤ 1 ∧ x.answers.length ≤ 1 ∧
      (x.parks = 1 → ∀ response ∈ x.answers, x.MayGet response)) ∧
    (∀ index x, svc.exchanges[index]? = some x → x.phase = .parked →
      x.answers = [] ∧
      (x.sender.spent = true ∨ x.sender = .dropped →
        ∃ response next, svc.step host (.poll index) = some next ∧
          next.exchanges[index]? = some (x.answer response) ∧
          x.MayGet response) ∧
      (handlerWait = true →
        ∃ next, svc.step host (.timeout index) = some next ∧
          next.exchanges[index]? = some (x.answer (statusOnly 504)))) ∧
    (∀ index x, svc.exchanges[index]? = some x → x.sender = .held →
      ∀ status headers body,
      (∀ e, buildResponse host x.method status headers body = .error e →
        e.kind = "response" ∧
        svc.step host (.respond index status headers body) = some svc) ∧
      ∀ response,
        buildResponse host x.method status headers body = .ok response →
        ∃ next, svc.step host (.respond index status headers body) =
            some next ∧
          next.exchanges[index]? = some { x with
            sender := .responding response, accepted := some response }) ∧
    svc.queue.length ≤ cap ∧
    ((∀ x ∈ svc.exchanges, x.sender.counted = true → 0 < svc.inFlight) ∧
      svc.exchanges.countP (fun x => x.sender.unanswered) ≤ svc.inFlight ∧
      ((∀ x ∈ svc.exchanges, x.sender.busy = false) →
        svc.inFlight =
          svc.exchanges.countP fun x => x.sender.unanswered)) ∧
    (svc.drained = true → ∀ later, (httpdSystem host).Reaches svc later →
      later.queue = [] ∧ later.parkings = svc.parkings) := by
  have hinv : svc.Inv := (Svc.new_inv cap handlerWait).reaches hreach
  obtain ⟨hcap, hwait⟩ := Svc.config_reaches hreach
  refine ⟨?_, ?_, ?_, ?_, ⟨?_, hinv.unanswered_le, hinv.inFlight_of_idle⟩, ?_⟩
  · intro x hx
    have hinvx := hinv.exchanges x hx
    obtain ⟨hpulls, huses, hanswers⟩ := hinvx.at_most_once
    exact ⟨hpulls, huses, hanswers, hinvx.mayGet⟩
  · intro index x hx hphase
    have hinvx := hinv.exchanges x (List.mem_of_getElem? hx)
    refine ⟨by rw [hinvx.answers, hphase]; rfl, ?_, ?_⟩
    · exact hinv.poll_answers hx hphase
    · intro hlimit
      have hlimited : svc.handlerWait = true := hwait.trans hlimit
      simp only [Svc.step, hlimited, if_true]
      exact Svc.timeout_answers hx hphase
  · intro index x hx hheld status headers body
    obtain ⟨hrefused, haccepted⟩ := Svc.respond_held hx hheld
    simp only [Svc.step, hx]
    constructor
    · intro e herror
      have hkind := buildResponse_refuses x.method status headers body e herror
      rw [herror]
      exact ⟨hkind, hrefused e⟩
    · intro response hok
      rw [hok]
      exact haccepted response
  · have hbounded := hinv.bounded
    rw [hcap] at hbounded
    exact hbounded
  · exact fun x hx hcounted => hinv.inFlight_pos hx hcounted
  · exact fun hdrained later hlater =>
      hinv.drained_reaches hdrained hlater

open Httpd in
/-- A host that takes every name and value as it is. -/
def verbatimHost : HeaderHost where
  headerName bytes := .ok (String.ofList (bytes.map fun b =>
    (Char.ofNat b.toNat).toLower))
  headerValue bytes := .ok bytes
  fromUtf8Lossy bytes := String.ofList (bytes.map fun b => Char.ofNat b.toNat)

open Httpd in
/-- A request that is parked, pulled, refused a 100 and answered with 200. -/
def answeredRun : List HttpdAction :=
  [.arrive "GET", .checkDown 0, .bodySlot 0 true, .readBody 0 none, .push 0,
    .take, .hold 0, .respond 0 100 none [], .respond 0 200 none [104, 105],
    .leaveInFlight 0, .send 0, .poll 0]

open Httpd in
theorem httpd_answers_once_run :
    ∃ svc, (httpdSystem verbatimHost).run (Svc.new 1 true) answeredRun =
        some svc ∧
      svc.exchanges.map (fun x => x.answers) =
        [[⟨200, [], [104, 105]⟩]] ∧
      ∀ x ∈ svc.exchanges,
        x.pulls ≤ 1 ∧ x.uses ≤ 1 ∧ x.answers.length ≤ 1 := by
  have hrun : ((httpdSystem verbatimHost).run (Svc.new 1 true) answeredRun).map
      (fun svc => svc.exchanges.map fun x => x.answers) =
      some [[⟨200, [], [104, 105]⟩]] := by
    decide +kernel
  obtain ⟨svc, hsvc, hanswers⟩ := Option.map_eq_some_iff.mp hrun
  refine ⟨svc, hsvc, hanswers, fun x hx => ?_⟩
  obtain ⟨hpulls, huses, hlength, -⟩ :=
    (httpd_answers_once verbatimHost 1 true svc ⟨answeredRun, hsvc⟩).1 x hx
  exact ⟨hpulls, huses, hlength⟩

end Rulisp
