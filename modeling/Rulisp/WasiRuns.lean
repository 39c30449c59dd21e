import Rulisp.WasiSandbox

/-!
# Runs of the WASI sandbox

What one step of the sandbox can do, said once, and what follows for its
life: the captured output, the single run and the time of the host calls.
-/

namespace Rulisp

namespace Wasi

open DescriptorTable TransitionSystem

/-! ## Steps -/

/-- The guest's code is being executed. -/
def Sandbox.Alive (s : Sandbox) : Prop :=
  s.stage = .starting ∨ s.stage = .running

/-- What an accepted call on the handle does. -/
inductive Sandbox.Accepts (s : Sandbox) : HostCall → Sandbox → Prop
  | arg {arg : String} {pushed : Except String Unit}
      (hnul : arg.contains '\x00' = false) :
      Accepts s (.arg arg pushed) { s with args := s.args ++ [arg] }
  | env {key value : String} {pushed : Except String Unit}
      (hkey : key.contains '\x00' = false)
      (hvalue : value.contains '\x00' = false)
      (hname : key.isEmpty = false ∧ key.contains '=' = false)
      (hnew : key ∉ s.envKeys) :
      Accepts s (.env key value pushed)
        { s with
          env := s.env ++ [(key, value)], envKeys := s.envKeys ++ [key] }
  | preopen {hostDir guestPath : String} {dir fd : ℕ} :
      Accepts s (.preopen hostDir (.ok dir) guestPath (.ok fd))
        { s with
          preopens := s.preopens ++ [(dir, guestPath)]
          table := put s.table fd (.dir dir false) }
  | stdin {data : Bytes} :
      Accepts s (.stdin data)
        { s with
          table := put s.table 0 (.stdin data), live := s.dropAt 0 }
  | run :
      Accepts s .run
        { s with stage := .running, ran := true, starts := s.starts + 1 }

section Rules

variable {s next : Sandbox}

theorem bind_ok {ε α β : Type} {x : Except ε α} {f : α → Except ε β} {b : β}
    (h : (x >>= f) = .ok b) : ∃ a, x = .ok a ∧ f a = .ok b := by
  cases x with
  | error e => cases h
  | ok a => exact ⟨a, rfl, h⟩

/-- What `load` has not refused is at its (start) section. -/
theorem load_ok {module : Except String (Option FuncType)}
    {fuel memoryLimit : ℕ} (hload : load module fuel memoryLimit = .ok s) :
    s = .new fuel memoryLimit := by
  unfold load at hload
  split_ifs at hload
  split at hload
  · cases hload
  · cases hload
  · split_ifs at hload
    exact (Except.ok.inj hload).symm

theorem Sandbox.lock_ok {contended : Bool} {what : String} {u : Unit}
    (hlock : s.lock contended what = .ok u) :
    s.stage ≠ .running ∧ s.stage ≠ .poisoned := by
  unfold Sandbox.lock at hlock
  split_ifs at hlock with hheld hpoisoned
  exact ⟨fun h => hheld (.inl h), hpoisoned⟩

theorem Sandbox.notRunYet_ok {what : String} {u : Unit}
    (hfresh : s.notRunYet what = .ok u) : s.ran = false := by
  unfold Sandbox.notRunYet at hfresh
  split_ifs at hfresh with hran
  exact Bool.eq_false_iff.mpr hran

theorem noNul_ok {what text : String} {u : Unit}
    (h : noNul what text = .ok u) : text.contains '\x00' = false := by
  unfold noNul at h
  split_ifs at h with hnul
  exact Bool.eq_false_iff.mpr hnul

theorem mapError_ok {ε ε' α : Type} {x : Except ε α} {f : ε → ε'} {a : α}
    (h : x.mapError f = .ok a) : x = .ok a := by
  cases x with
  | error e => cases h
  | ok b =>
      cases h
      rfl

/-- An accepted call reads the output, or is made before the run. -/
theorem Sandbox.call_cases {contended : Bool} {call : HostCall}
    (hcall : s.call contended call = .ok next) :
    next = s ∨ (s.stage ≠ .running ∧ s.stage ≠ .poisoned) ∧
      s.ran = false ∧ s.Accepts call next := by
  cases call with
  | stdout | stderr =>
      obtain ⟨_, -, h⟩ := bind_ok hcall
      cases h
      exact .inl rfl
  | arg arg pushed =>
      obtain ⟨_, hlock, h⟩ := bind_ok hcall
      obtain ⟨_, hran, h⟩ := bind_ok h
      obtain ⟨_, hnul, h⟩ := bind_ok h
      obtain ⟨_, -, h⟩ := bind_ok h
      cases h
      exact .inr ⟨lock_ok hlock, notRunYet_ok hran, .arg (noNul_ok hnul)⟩
  | env key value pushed =>
      obtain ⟨_, hlock, h⟩ := bind_ok hcall
      obtain ⟨_, hran, h⟩ := bind_ok h
      obtain ⟨_, hkey, h⟩ := bind_ok h
      obtain ⟨_, hvalue, h⟩ := bind_ok h
      by_cases hname : (key.isEmpty || key.contains '=') = true
      · simp only [if_pos hname] at h
        cases h
      · by_cases hset : (s.envKeys.any fun x => x == key) = true
        · simp only [if_neg hname, if_pos hset] at h
          cases h
        · simp only [if_neg hname, if_neg hset] at h
          obtain ⟨_, -, h⟩ := bind_ok h
          cases h
          refine .inr ⟨lock_ok hlock, notRunYet_ok hran,
            .env (noNul_ok hkey) (noNul_ok hvalue) (by simpa using hname) ?_⟩
          simpa using hset
  | preopen hostDir opened guestPath pushed =>
      obtain ⟨_, hlock, h⟩ := bind_ok hcall
      obtain ⟨_, hran, h⟩ := bind_ok h
      obtain ⟨dir, hdir, h⟩ := bind_ok h
      obtain ⟨fd, hfd, h⟩ := bind_ok h
      obtain rfl := mapError_ok hdir
      obtain rfl := mapError_ok hfd
      cases h
      exact .inr ⟨lock_ok hlock, notRunYet_ok hran, .preopen⟩
  | stdin data =>
      obtain ⟨_, hlock, h⟩ := bind_ok hcall
      obtain ⟨_, hran, h⟩ := bind_ok h
      cases h
      exact .inr ⟨lock_ok hlock, notRunYet_ok hran, .stdin⟩
  | run =>
      obtain ⟨_, hlock, h⟩ := bind_ok hcall
      obtain ⟨_, hran, h⟩ := bind_ok h
      cases h
      exact .inr ⟨lock_ok hlock, notRunYet_ok hran, .run⟩

/-- How `load` or the run is left. -/
theorem Sandbox.finish_cases {outcome : Except WasmError ℕ} {started : Stage}
    (hfinish : s.finish outcome started = some next) :
    s.stage = .starting ∧
        ((∃ error, started = .failed error ∧
            next = { s.freshWasi with stage := .failed error }) ∨
          (∀ error, started ≠ .failed error) ∧
            next = { s with stage := started }) ∨
      s.stage = .running ∧
        next = { s.freshWasi with
          stage := .idle, outcomes := s.outcomes ++ [outcome] } := by
  unfold Sandbox.finish at hfinish
  split at hfinish
  · rename_i hstage
    refine .inl ⟨hstage, ?_⟩
    split at hfinish
    · rename_i error
      cases hfinish
      exact .inl ⟨error, rfl, rfl⟩
    · rename_i hnot
      cases hfinish
      exact .inr ⟨hnot, rfl⟩
  · rename_i hstage
    cases hfinish
    exact .inr ⟨hstage, rfl⟩
  · cases hfinish

/-- A WASI call leaves everything but the guest's own alone. -/
theorem Sandbox.serve_frame {call : GuestCall}
    (hserve : s.serve call = some next) :
    next = { s with
      captured := next.captured
      live := next.live
      table := next.table
      writes := next.writes
      asked := next.asked } := by
  cases call with
  | write fd bufs =>
      simp only [Sandbox.serve] at hserve
      split at hserve <;> cases hserve
      rfl
  | dir fd host call fresh =>
      simp only [Sandbox.serve] at hserve
      split at hserve
      · split at hserve
        · split at hserve <;> cases hserve
          rfl
        · cases hserve
          rfl
      · cases hserve
  | file fd call =>
      simp only [Sandbox.serve] at hserve
      split at hserve <;> cases hserve
      rfl
  | close fd =>
      simp only [Sandbox.serve] at hserve
      split at hserve <;> cases hserve
      rfl
  | renumber source target =>
      simp only [Sandbox.serve] at hserve
      split at hserve
      · split_ifs at hserve <;> cases hserve <;> rfl
      · cases hserve
  | other =>
      cases hserve
      rfl

/-- The states that a `started` of `finish` stands for. -/
def Stage.LeavesLoad (started : Stage) : Prop :=
  started = .idle ∨ ∃ error, started = .failed error

theorem Ending.startSection_leavesLoad (ending : Ending) :
    ending.startSection.LeavesLoad := by
  cases ending with
  | returns => exact .inl rfl
  | exits code => exact .inr ⟨_, rfl⟩
  | traps message => exact .inr ⟨_, rfl⟩

/-- A property that no part of a step breaks survives every step. -/
theorem Sandbox.step_rule (inv : Sandbox → Prop)
    (hserve : ∀ s call next, inv s → s.Alive → s.serve call = some next →
      inv next)
    (htime : ∀ s time elapsed, inv s →
      inv { s with time := time, elapsed := elapsed })
    (hfinish : ∀ s outcome started next, inv s → started.LeavesLoad →
      s.finish outcome started = some next → inv next)
    (hpanics : ∀ s, inv s → s.stage = .running →
      inv { s with stage := .poisoned })
    (hcall : ∀ s call next, inv s → s.stage = .idle → s.ran = false →
      call.possible s = true → s.Accepts call next → inv next)
    {action : WasiAction} (hinv : inv s) (hstep : s.step action = some next) :
    inv next := by
  cases action with
  | guest call before after =>
      simp only [Sandbox.step, Sandbox.guest] at hstep
      split_ifs at hstep with halive
      split at hstep
      · cases hstep
      · rename_i served hserved
        have hentered := htime s (s.time.callingHost before) s.elapsed hinv
        have hinv' := htime served (served.time.returningFromHost after)
          (s.elapsed ++ [after - before])
          (hserve _ call served hentered halive hserved)
        split_ifs at hstep
        · exact hfinish _ _ _ _ hinv' (.inr ⟨_, rfl⟩) hstep
        · cases hstep
          exact hinv'
  | ends ending =>
      exact hfinish s _ _ next hinv ending.startSection_leavesLoad hstep
  | panics =>
      simp only [Sandbox.step] at hstep
      split at hstep
      · rename_i hstage
        cases hstep
        exact hpanics s hinv hstage
      · cases hstep
  | host call contended =>
      simp only [Sandbox.step] at hstep
      split at hstep
      · cases hstep
      · cases hstep
      · rename_i hstarting hfailed
        split_ifs at hstep with hpossible
        split at hstep
        · rename_i called hcalled
          cases hstep
          rcases Sandbox.call_cases hcalled with
            rfl | ⟨⟨hrunning, hpoisoned⟩, hran, haccepts⟩
          · exact hinv
          · refine hcall s call _ hinv ?_ hran hpossible haccepts
            cases hstage : s.stage with
            | idle => rfl
            | starting => exact absurd hstage hstarting
            | failed error => exact absurd hstage (hfailed error)
            | running => exact absurd hstage hrunning
            | poisoned => exact absurd hstage hpoisoned
        · cases hstep
          exact hinv

end Rules

/-! ## The captured output -/

/-- Everything written to the two streams, in order. -/
def Sandbox.written (s : Sandbox) : List (Stream × UInt8) :=
  s.writes.flatMap fun write => tagged write.1 write.2.1.flatten

/-- What the guest is told of a write of `bufs` after `before` bytes. -/
def writeAnswer (cap before : ℕ) (bufs : List Bytes) : Except Errno ℕ :=
  if bufs.flatten.length = 0 then .ok 0
  else if cap ≤ before then .error .nospc
  else .ok (min (cap - before) bufs.flatten.length)

structure Sandbox.OutputInv (cap : ℕ) (s : Sandbox) : Prop where
  budget : s.captured.cap = cap
  keeps : s.captured.Keeps s.written
  answers : ∀ before stream bufs answer after,
    s.writes = before ++ (stream, bufs, answer) :: after →
      answer = writeAnswer cap
        (before.flatMap fun write => tagged write.1 write.2.1.flatten).length
        bufs

section Output

variable {s next : Sandbox} {cap : ℕ}

theorem Sandbox.new_outputInv (fuel memoryLimit : ℕ) :
    (Sandbox.new fuel memoryLimit).OutputInv memoryLimit where
  budget := rfl
  keeps := Captured.new_keeps memoryLimit
  answers before stream bufs answer after hsplit := by
    simp [Sandbox.new] at hsplit

/-- A property of the output is one of the captures and the writes. -/
theorem Sandbox.OutputInv.congr (hinv : s.OutputInv cap)
    (hcaptured : next.captured = s.captured) (hwrites : next.writes = s.writes) :
    next.OutputInv cap where
  budget := by rw [hcaptured, hinv.budget]
  keeps := by
    unfold Sandbox.written
    rw [hcaptured, hwrites]
    exact hinv.keeps
  answers := by
    rw [hwrites]
    exact hinv.answers

theorem append_singleton_split {α : Type} {xs before after : List α} {x y : α}
    (hsplit : xs ++ [x] = before ++ y :: after) :
    before = xs ∧ y = x ∧ after = [] ∨
      ∃ rest, after = rest ++ [x] ∧ xs = before ++ y :: rest := by
  rcases List.eq_nil_or_concat after with rfl | ⟨rest, last, rfl⟩
  · obtain ⟨hxs, hx⟩ := List.append_inj' hsplit rfl
    cases hx
    exact .inl ⟨hxs.symm, rfl, rfl⟩
  · rw [List.concat_eq_append, ← List.cons_append, ← List.append_assoc]
      at hsplit
    obtain ⟨hxs, hx⟩ := List.append_inj' hsplit rfl
    cases hx
    exact .inr ⟨rest, List.concat_eq_append, hxs⟩

theorem Sandbox.OutputInv.write (hinv : s.OutputInv cap) (stream : Stream)
    (bufs : List Bytes) :
    ({ s with
      captured := (s.captured.writeVectored stream bufs).1
      writes := s.writes ++
        [(stream, bufs, (s.captured.writeVectored stream bufs).2)] } :
      Sandbox).OutputInv cap := by
  constructor
  · rw [Captured.writeVectored_eq]
    exact (Captured.setTarget_cap _).trans hinv.budget
  · have hkeeps := @Captured.Keeps.write _ stream _ hinv.keeps bufs
    simpa [Sandbox.written, List.flatMap_append] using hkeeps
  · intro before stream' bufs' answer after hsplit
    rcases append_singleton_split hsplit with ⟨rfl, hlast, -⟩ | ⟨rest, -, hold⟩
    · cases hlast
      have hroom := hinv.keeps.room
      rw [hinv.budget] at hroom
      rw [Captured.writeVectored_eq]
      simp only [hroom, writeAnswer, Nat.sub_eq_zero_iff_le]
      rfl
    · exact hinv.answers before stream' bufs' answer rest hold

theorem Sandbox.OutputInv.serve (hinv : s.OutputInv cap) {call : GuestCall}
    (hserve : s.serve call = some next) : next.OutputInv cap := by
  cases call with
  | write fd bufs =>
      simp only [Sandbox.serve] at hserve
      split at hserve
      · rename_i stream _
        cases hserve
        exact hinv.write stream bufs
      · cases hserve
  | dir fd host call fresh =>
      simp only [Sandbox.serve] at hserve
      split at hserve
      · split at hserve
        · split at hserve <;> cases hserve
          exact hinv.congr rfl rfl
        · cases hserve
          exact hinv.congr rfl rfl
      · cases hserve
  | file fd call =>
      simp only [Sandbox.serve] at hserve
      split at hserve <;> cases hserve
      exact hinv.congr rfl rfl
  | close fd =>
      simp only [Sandbox.serve] at hserve
      split at hserve <;> cases hserve
      exact hinv.congr rfl rfl
  | renumber source target =>
      simp only [Sandbox.serve] at hserve
      split at hserve
      · split_ifs at hserve <;> cases hserve <;> exact hinv.congr rfl rfl
      · cases hserve
  | other =>
      cases hserve
      exact hinv

theorem Sandbox.OutputInv.step (hinv : s.OutputInv cap) {action : WasiAction}
    (hstep : s.step action = some next) : next.OutputInv cap := by
  refine Sandbox.step_rule (fun s => s.OutputInv cap) ?_ ?_ ?_ ?_ ?_ hinv hstep
  · intro s call next hinv _ hserve
    exact hinv.serve hserve
  · intro s time elapsed hinv
    exact hinv.congr rfl rfl
  · intro s outcome started next hinv _ hfinish
    rcases Sandbox.finish_cases hfinish with
      ⟨-, ⟨error, -, rfl⟩ | ⟨-, rfl⟩⟩ | ⟨-, rfl⟩ <;> exact hinv.congr rfl rfl
  · intro s hinv _
    exact hinv.congr rfl rfl
  · intro s call next hinv _ _ _ haccepts
    cases haccepts <;> exact hinv.congr rfl rfl

theorem Sandbox.outputInv_of_reaches {fuel memoryLimit : ℕ}
    (hreach : wasiSystem.Reaches (.new fuel memoryLimit) s) :
    s.OutputInv memoryLimit :=
  hreach.invariant (fun _ _ _ hinv hstep => hinv.step hstep)
    (Sandbox.new_outputInv fuel memoryLimit)

end Output

/-! ## The one run -/

/-- A name and a value that the guest's libc can read. -/
def WellNamed (entry : String × String) : Prop :=
  entry.1.isEmpty = false ∧ entry.1.contains '=' = false ∧
    entry.1.contains '\x00' = false ∧ entry.2.contains '\x00' = false

structure Sandbox.LifeInv (s : Sandbox) : Prop where
  starts : s.starts = s.ran.toNat
  before : s.stage = .starting ∨ (∃ error, s.stage = .failed error) →
    s.ran = false
  during : s.stage = .running ∨ s.stage = .poisoned → s.ran = true
  outcomes : s.outcomes.length =
    if s.ran = true ∧ s.stage = .idle then 1 else 0
  args : ∀ arg ∈ s.args, arg.contains '\x00' = false
  named : ∀ entry ∈ s.env, WellNamed entry
  keys : s.envKeys = s.env.map Prod.fst
  nodup : s.envKeys.Nodup

section Life

variable {s next later : Sandbox}

theorem Sandbox.new_lifeInv (fuel memoryLimit : ℕ) :
    (Sandbox.new fuel memoryLimit).LifeInv := by
  constructor <;> simp [Sandbox.new]

/-- Only the guest's own has changed. -/
theorem Sandbox.LifeInv.guest (hinv : s.LifeInv) (captured : Captured)
    (live : ℕ) (time : HostTime) (table : Table Entry)
    (writes : List (Stream × List Bytes × Except Errno ℕ))
    (asked : List HostEvent) (elapsed : List ℕ) :
    ({ s with
      captured := captured
      live := live
      time := time
      table := table
      writes := writes
      asked := asked
      elapsed := elapsed } : Sandbox).LifeInv :=
  ⟨hinv.starts, hinv.before, hinv.during, hinv.outcomes, hinv.args,
    hinv.named, hinv.keys, hinv.nodup⟩

theorem Sandbox.LifeInv.finish (hinv : s.LifeInv)
    {outcome : Except WasmError ℕ} {started : Stage}
    (hleaves : started.LeavesLoad)
    (hfinish : s.finish outcome started = some next) : next.LifeInv := by
  obtain ⟨hstarts, hbefore, hduring, houtcomes, hargs, hnamed, hkeys, hnodup⟩ :=
    hinv
  rcases Sandbox.finish_cases hfinish with
    ⟨hstage, ⟨error, -, rfl⟩ | ⟨hnot, rfl⟩⟩ | ⟨hstage, rfl⟩
  · have hran := hbefore (.inl hstage)
    refine ⟨hstarts, fun _ => hran, by simp, ?_, hargs, hnamed, hkeys, hnodup⟩
    simpa [Sandbox.freshWasi, hstage] using houtcomes
  · have hran := hbefore (.inl hstage)
    obtain rfl | ⟨error, rfl⟩ := hleaves
    · refine ⟨hstarts, by simp, by simp, ?_, hargs, hnamed, hkeys, hnodup⟩
      simpa [hstage, hran] using houtcomes
    · exact absurd rfl (hnot error)
  · have hran := hduring (.inl hstage)
    refine ⟨hstarts, by simp, by simp, ?_, hargs, hnamed, hkeys, hnodup⟩
    simp only [hstage, hran] at houtcomes
    simpa [Sandbox.freshWasi, hran] using houtcomes

theorem Sandbox.LifeInv.accepts (hinv : s.LifeInv) {call : HostCall}
    (hran : s.ran = false) (haccepts : s.Accepts call next) : next.LifeInv := by
  obtain ⟨hstarts, hbefore, hduring, houtcomes, hargs, hnamed, hkeys, hnodup⟩ :=
    hinv
  cases haccepts with
  | arg hnul =>
      refine ⟨hstarts, hbefore, hduring, houtcomes, ?_, hnamed, hkeys, hnodup⟩
      intro arg hmem
      rcases List.mem_append.mp hmem with hold | hnew
      · exact hargs arg hold
      · rw [List.mem_singleton.mp hnew]
        exact hnul
  | env hkey hvalue hname hnew =>
      refine ⟨hstarts, hbefore, hduring, houtcomes, hargs, ?_, ?_, ?_⟩
      · intro entry hmem
        rcases List.mem_append.mp hmem with hold | hlast
        · exact hnamed entry hold
        · rw [List.mem_singleton.mp hlast]
          exact ⟨hname.1, hname.2, hkey, hvalue⟩
      · simp [hkeys]
      · exact hnodup.append (List.nodup_singleton _) (by simpa using hnew)
  | preopen | stdin =>
      exact ⟨hstarts, hbefore, hduring, houtcomes, hargs, hnamed, hkeys, hnodup⟩
  | run =>
      refine ⟨?_, by simp, fun _ => rfl, ?_, hargs, hnamed, hkeys, hnodup⟩
      · simp [hstarts, hran]
      · simpa [hran] using houtcomes

theorem Sandbox.LifeInv.panic (hinv : s.LifeInv)
    (hstage : s.stage = .running) :
    ({ s with stage := .poisoned } : Sandbox).LifeInv := by
  have hran := hinv.during (.inl hstage)
  have houtcomes := hinv.outcomes
  refine ⟨hinv.starts, by simp, fun _ => hran, ?_, hinv.args, hinv.named,
    hinv.keys, hinv.nodup⟩
  simpa [hstage] using houtcomes

/-- A run that has an outcome is over. -/
theorem Sandbox.LifeInv.over (hinv : s.LifeInv) (hended : s.outcomes ≠ []) :
    s.ran = true ∧ s.stage = .idle := by
  by_contra hnot
  have hlength := hinv.outcomes
  rw [if_neg hnot] at hlength
  exact hended (List.length_eq_zero_iff.mp hlength)

theorem Sandbox.LifeInv.step (hinv : s.LifeInv) {action : WasiAction}
    (hstep : s.step action = some next) : next.LifeInv := by
  refine Sandbox.step_rule Sandbox.LifeInv ?_ ?_ ?_ ?_ ?_ hinv hstep
  · intro s call next hinv _ hserve
    rw [Sandbox.serve_frame hserve]
    exact hinv.guest _ _ _ _ _ _ _
  · intro s time elapsed hinv
    exact hinv.guest _ _ _ _ _ _ _
  · intro s outcome started next hinv hleaves hfinish
    exact hinv.finish hleaves hfinish
  · intro s hinv hstage
    exact hinv.panic hstage
  · intro s call next hinv _ hran _ haccepts
    exact hinv.accepts hran haccepts

theorem Sandbox.lifeInv_of_reaches {fuel memoryLimit : ℕ}
    (hreach : wasiSystem.Reaches (.new fuel memoryLimit) s) : s.LifeInv :=
  hreach.invariant (fun _ _ _ hinv hstep => hinv.step hstep)
    (Sandbox.new_lifeInv fuel memoryLimit)

/-- What was set up for the guest. -/
def Sandbox.config (s : Sandbox) :
    List String × List (String × String) × List (ℕ × String) :=
  (s.args, s.env, s.preopens)

/-- Once `_start` has been called, nothing is set up any more. -/
theorem Sandbox.config_step {action : WasiAction} (hran : s.ran = true)
    (hstep : s.step action = some next) :
    next.ran = true ∧ next.config = s.config := by
  refine Sandbox.step_rule
    (fun next => next.ran = true ∧ next.config = s.config)
    ?_ ?_ ?_ ?_ ?_ ⟨hran, rfl⟩ hstep
  · intro s' call next' hinv _ hserve
    rw [Sandbox.serve_frame hserve]
    exact hinv
  · intro s' time elapsed hinv
    exact hinv
  · intro s' outcome started next' hinv _ hfinish
    rcases Sandbox.finish_cases hfinish with
      ⟨-, ⟨error, -, rfl⟩ | ⟨-, rfl⟩⟩ | ⟨-, rfl⟩ <;> exact hinv
  · intro s' hinv _
    exact hinv
  · intro s' call next' hinv _ hfresh _ _
    rw [hinv.1] at hfresh
    cases hfresh

/-- After the run nothing changes. -/
theorem Sandbox.spent_step {action : WasiAction} (hran : s.ran = true)
    (hover : s.stage = .idle ∨ s.stage = .poisoned)
    (hstep : s.step action = some next) : next = s := by
  cases action with
  | guest call before after =>
      simp only [Sandbox.step, Sandbox.guest] at hstep
      split_ifs at hstep with halive
      rcases hover with hidle | hpoisoned <;> simp_all
  | ends ending =>
      rcases Sandbox.finish_cases hstep with ⟨hstage, -⟩ | ⟨hstage, -⟩ <;>
        simp_all
  | panics =>
      simp only [Sandbox.step] at hstep
      split at hstep
      · simp_all
      · cases hstep
  | host call contended =>
      simp only [Sandbox.step] at hstep
      split at hstep
      · cases hstep
      · cases hstep
      · split_ifs at hstep
        split at hstep
        · rename_i called hcalled
          cases hstep
          rcases Sandbox.call_cases hcalled with rfl | ⟨-, hfresh, -⟩
          · rfl
          · rw [hran] at hfresh
            cases hfresh
        · cases hstep
          rfl

end Life

/-! ## Host time -/

/-- What the host calls may take: a second, and a microsecond per unit of
fuel. -/
def hostBudget (fuel : ℕ) : ℕ := 10 ^ 9 + fuel * 1000

structure Sandbox.TimeInv (fuel : ℕ) (s : Sandbox) : Prop where
  budget : s.time.budget = hostBudget fuel
  spent : s.Alive ∨ s.stage = .idle ∧ s.ran = false →
    s.time.spent = s.elapsed.sum ∧ s.time.spent ≤ hostBudget fuel
  calls : s.elapsed.dropLast.sum ≤ hostBudget fuel

section Time

variable {s next : Sandbox} {fuel : ℕ}

theorem hostBudget_lt (hfuel : fuel < 2 ^ 64) :
    hostBudget fuel < Duration.max := by
  unfold hostBudget Duration.max
  omega

theorem Sandbox.new_timeInv (memoryLimit : ℕ) (hfuel : fuel < 2 ^ 64) :
    (Sandbox.new fuel memoryLimit).TimeInv fuel where
  budget := Nat.min_eq_right (Nat.le_of_lt (hostBudget_lt hfuel))
  spent _ := ⟨rfl, Nat.zero_le _⟩
  calls := Nat.zero_le _

theorem HostTime.returning_calling (time : HostTime) (before after : ℕ) :
    (time.callingHost before).returningFromHost after =
      { time with
        spent := min Duration.max (time.spent + (after - before))
        entered := none } := rfl

/-- The time of one more host call, within the budget or past it. -/
theorem Sandbox.TimeInv.guest (hinv : s.TimeInv fuel) (hlife : s.LifeInv)
    (hfuel : fuel < 2 ^ 64) {call : GuestCall} {before after : ℕ}
    (hstep : s.guest call before after = some next) :
    next.TimeInv fuel := by
  unfold Sandbox.guest at hstep
  split_ifs at hstep with halive
  split at hstep
  · cases hstep
  rename_i served hserved
  obtain ⟨hspent, hwithin⟩ := hinv.spent (.inl halive)
  have hframe := Sandbox.serve_frame hserved
  have htime : served.time = s.time.callingHost before :=
    congrArg Sandbox.time hframe
  rw [htime, HostTime.returning_calling] at hstep
  simp only [hinv.budget] at hstep
  have hcalls : (s.elapsed ++ [after - before]).dropLast.sum ≤
      hostBudget fuel := by
    rw [List.dropLast_concat]
    omega
  split_ifs at hstep with hover
  · rcases Sandbox.finish_cases hstep with
      ⟨-, ⟨error, -, rfl⟩ | ⟨hnot, -⟩⟩ | ⟨hstage, rfl⟩
    · refine ⟨rfl, ?_, hcalls⟩
      rintro ((hfailed | hfailed) | ⟨hfailed, -⟩) <;> cases hfailed
    · exact absurd rfl (hnot .hostTime)
    · have hrunning : s.stage = .running :=
        (congrArg Sandbox.stage hframe).symm.trans hstage
      have hran : served.ran = true :=
        (congrArg Sandbox.ran hframe).trans (hlife.during (.inl hrunning))
      refine ⟨rfl, ?_, hcalls⟩
      rintro ((hidle | hidle) | ⟨-, hfresh⟩)
      · cases hidle
      · cases hidle
      · cases hran.symm.trans hfresh
  · cases hstep
    refine ⟨rfl, fun _ => ?_, hcalls⟩
    have hmax := hostBudget_lt hfuel
    simp only [List.sum_append, List.sum_singleton]
    omega

/-- No other step takes time, or lets the guest go on past the budget. -/
theorem Sandbox.TimeInv.step (hinv : s.TimeInv fuel) (hlife : s.LifeInv)
    (hfuel : fuel < 2 ^ 64) {action : WasiAction}
    (hstep : s.step action = some next) : next.TimeInv fuel := by
  obtain ⟨hbudget, hspent, hcalls⟩ := hinv
  cases action with
  | guest call before after =>
      exact Sandbox.TimeInv.guest ⟨hbudget, hspent, hcalls⟩ hlife hfuel hstep
  | ends ending =>
      rcases Sandbox.finish_cases hstep with
        ⟨hstage, ⟨error, -, rfl⟩ | ⟨-, rfl⟩⟩ | ⟨hstage, rfl⟩
      · refine ⟨hbudget, ?_, hcalls⟩
        rintro ((hfailed | hfailed) | ⟨hfailed, -⟩) <;> cases hfailed
      · exact ⟨hbudget, fun _ => hspent (.inl (.inl hstage)), hcalls⟩
      · exact ⟨hbudget, fun _ => hspent (.inl (.inr hstage)), hcalls⟩
  | panics =>
      simp only [Sandbox.step] at hstep
      split at hstep
      · rename_i hstage
        cases hstep
        exact ⟨hbudget, fun _ => hspent (.inl (.inr hstage)), hcalls⟩
      · cases hstep
  | host call contended =>
      simp only [Sandbox.step] at hstep
      split at hstep
      · cases hstep
      · cases hstep
      · rename_i hstarting _
        split_ifs at hstep
        split at hstep
        · rename_i called hcalled
          cases hstep
          rcases Sandbox.call_cases hcalled with
            rfl | ⟨⟨hrunning, hpoisoned⟩, hran, haccepts⟩
          · exact ⟨hbudget, hspent, hcalls⟩
          · have hidle : s.stage = .idle := by
              cases hstage : s.stage <;> simp_all
            have hquiet := hspent (.inr ⟨hidle, hran⟩)
            cases haccepts <;> exact ⟨hbudget, fun _ => hquiet, hcalls⟩
        · cases hstep
          exact ⟨hbudget, hspent, hcalls⟩

theorem Sandbox.timeInv_of_reaches {memoryLimit : ℕ} (hfuel : fuel < 2 ^ 64)
    (hreach : wasiSystem.Reaches (.new fuel memoryLimit) s) :
    s.TimeInv fuel := by
  let both := fun next : Sandbox => next.LifeInv ∧ next.TimeInv fuel
  have hboth : both s := by
    refine @System.Reaches.invariant _ _ _ both ?_ _ _ hreach
      ⟨Sandbox.new_lifeInv fuel memoryLimit,
        Sandbox.new_timeInv memoryLimit hfuel⟩
    rintro before action next ⟨hlife, htime⟩ hstep
    exact ⟨hlife.step hstep, htime.step hlife hfuel hstep⟩
  exact hboth.2

end Time

end Wasi

open Wasi TransitionSystem in
/-- What a sandboxed guest has written to its two streams is kept up to the
one budget: the two captures hold exactly the first bytes written on either,
each write was told how many of its bytes were kept, and one that found the
budget used up was refused. -/
theorem wasi_output_first_bytes (module : Except String (Option FuncType))
    (fuel memoryLimit : ℕ) (loaded s : Sandbox)
    (hload : load module fuel memoryLimit = .ok loaded)
    (hreach : wasiSystem.Reaches loaded s) :
    (∀ stream, s.captured.target stream =
      project stream (s.written.take memoryLimit)) ∧
    s.captured.stdout.length + s.captured.stderr.length =
      min memoryLimit s.written.length ∧
    ∀ before stream bufs answer after,
      s.writes = before ++ (stream, bufs, answer) :: after →
        answer = writeAnswer memoryLimit
          (before.flatMap fun write =>
            tagged write.1 write.2.1.flatten).length bufs := by
  rw [load_ok hload] at hreach
  have hinv := Sandbox.outputInv_of_reaches hreach
  refine ⟨?_, ?_, hinv.answers⟩
  · intro stream
    rw [hinv.keeps stream, hinv.budget]
  · rw [hinv.keeps.length, hinv.budget]

open Wasi in
/-- A module that is a WASI command. -/
def commandModule : Except String (Option FuncType) := .ok (some ⟨0, 0⟩)

open Wasi in
/-- A guest that writes more than its four bytes, on both streams. -/
def floodRun : List WasiAction :=
  [.ends .returns, .host .run false, .guest (.write 1 [[1, 2], [3]]) 0 5,
    .guest (.write 2 [[4, 5]]) 7 9, .guest (.write 1 [[6]]) 10 11,
    .ends (.exits 3)]

open Wasi in
theorem wasi_output_first_bytes_flood :
    ∃ s, wasiSystem.run (.new 10 4) floodRun = some s ∧
      s.captured.stdout = [1, 2, 3] ∧ s.captured.stderr = [4] ∧
      s.captured.stdout.length + s.captured.stderr.length =
        min 4 s.written.length := by
  refine ⟨_, rfl, rfl, rfl, ?_⟩
  exact (wasi_output_first_bytes commandModule 10 4 _ _ rfl
    ⟨floodRun, rfl⟩).2.1

open Wasi TransitionSystem in
/-- `_start` is called at most once and its run ends at most once; the
environment has each name once, and no name or value that the guest's libc
would misread; once `_start` has been called no thread changes what was set
up, and once its run is over, or a panic has poisoned the handle, nothing
changes at all. -/
theorem wasi_runs_once (module : Except String (Option FuncType))
    (fuel memoryLimit : ℕ) (loaded s later : Sandbox)
    (hload : load module fuel memoryLimit = .ok loaded)
    (hreach : wasiSystem.Reaches loaded s)
    (hlater : wasiSystem.Reaches s later) :
    s.starts ≤ 1 ∧ s.outcomes.length ≤ s.starts ∧
    (s.env.map Prod.fst).Nodup ∧ (∀ entry ∈ s.env, WellNamed entry) ∧
    (s.starts = 1 → later.starts = 1 ∧ later.args = s.args ∧
      later.env = s.env ∧ later.preopens = s.preopens) ∧
    (s.outcomes ≠ [] ∨ s.stage = .poisoned → later = s) := by
  rw [load_ok hload] at hreach
  have hinv := Sandbox.lifeInv_of_reaches hreach
  have hlaterInv : later.LifeInv :=
    hlater.invariant (fun _ _ _ hinv hstep => hinv.step hstep) hinv
  have hran : s.starts = 1 → s.ran = true := by
    intro hstarted
    have hstarts := hinv.starts
    rw [hstarted] at hstarts
    cases h : s.ran with
    | true => rfl
    | false =>
        rw [h] at hstarts
        cases hstarts
  refine ⟨?_, ?_, hinv.keys ▸ hinv.nodup, hinv.named, ?_, ?_⟩
  · rw [hinv.starts]
    exact Bool.toNat_le s.ran
  · rw [hinv.starts, hinv.outcomes]
    split_ifs with hover
    · rw [hover.1]
      rfl
    · exact Nat.zero_le _
  · intro hstarted
    have hkept : later.ran = true ∧ later.config = s.config := by
      let kept := fun next : Sandbox =>
        next.ran = true ∧ next.config = s.config
      refine @System.Reaches.invariant _ _ _ kept ?_ _ _ hlater
        ⟨hran hstarted, rfl⟩
      rintro before action next ⟨hbefore, hsame⟩ hstep
      obtain ⟨hafter, hconfig⟩ := Sandbox.config_step hbefore hstep
      exact ⟨hafter, hconfig.trans hsame⟩
    obtain ⟨hafter, hconfig⟩ := hkept
    refine ⟨by rw [hlaterInv.starts, hafter]; rfl, ?_⟩
    simpa [Sandbox.config, Prod.ext_iff] using hconfig
  · intro hended
    have hover : s.ran = true ∧ (s.stage = .idle ∨ s.stage = .poisoned) := by
      rcases hended with houtcomes | hpoisoned
      · have hboth := hinv.over houtcomes
        exact ⟨hboth.1, .inl hboth.2⟩
      · exact ⟨hinv.during (.inr hpoisoned), .inr hpoisoned⟩
    let same := fun next : Sandbox => next = s
    refine @System.Reaches.invariant _ _ _ same ?_ _ _ hlater rfl
    intro before action next hsame hstep
    have hbefore : before = s := hsame
    rw [hbefore] at hstep
    exact Sandbox.spent_step hover.1 hover.2 hstep

open Wasi in
theorem wasi_runs_once_flood :
    ∃ s later, wasiSystem.run (.new 10 4) floodRun = some s ∧
      wasiSystem.run s [.host .run false, .host (.arg "late" (.ok ())) false] =
        some later ∧
      s.outcomes = [.ok 3] ∧ later = s := by
  refine ⟨_, _, rfl, rfl, rfl, ?_⟩
  refine (wasi_runs_once commandModule 10 4 _ _ _ rfl ⟨floodRun, rfl⟩
    ⟨[.host .run false, .host (.arg "late" (.ok ())) false], rfl⟩).2.2.2.2.2 ?_
  exact .inl (List.cons_ne_nil _ _)

open Wasi TransitionSystem in
/-- All the WASI calls of a sandboxed guest but the last take no longer than
a second and a microsecond per unit of fuel together, and while its code goes
on all of them do. -/
theorem wasi_host_time (module : Except String (Option FuncType))
    (fuel memoryLimit : ℕ) (hfuel : fuel < 2 ^ 64) (loaded s : Sandbox)
    (hload : load module fuel memoryLimit = .ok loaded)
    (hreach : wasiSystem.Reaches loaded s) :
    s.elapsed.dropLast.sum ≤ 10 ^ 9 + fuel * 1000 ∧
      (s.Alive → s.elapsed.sum ≤ 10 ^ 9 + fuel * 1000) := by
  rw [load_ok hload] at hreach
  have hinv := Sandbox.timeInv_of_reaches hfuel hreach
  refine ⟨hinv.calls, fun halive => ?_⟩
  obtain ⟨hspent, hwithin⟩ := hinv.spent (.inl halive)
  exact hspent ▸ hwithin

open Wasi in
/-- The second call goes past the budget, and the run with it. -/
def slowRun : List WasiAction :=
  [.ends .returns, .host .run false, .guest .other 0 999999999,
    .guest .other 1000000000 3000000000]

open Wasi in
theorem wasi_host_time_trap :
    ∃ s, wasiSystem.run (.new 1 4) slowRun = some s ∧
      s.outcomes = [.error .hostTime] ∧ s.elapsed = [999999999, 2000000000] ∧
      s.elapsed.dropLast.sum ≤ 10 ^ 9 + 1 * 1000 := by
  refine ⟨_, rfl, rfl, rfl, ?_⟩
  exact (wasi_host_time commandModule 1 4 (by decide) _ _ rfl
    ⟨slowRun, rfl⟩).1

end Rulisp
