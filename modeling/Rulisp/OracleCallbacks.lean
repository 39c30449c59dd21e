import Rulisp.CallbackClassification

/-!
# The callback shims of the ABI oracle

`tests/m1-handwritten` writes by hand what the macro generates for the
wordbag crate.  Its three callback-taking shims and the generated ones are run
with the same Lisp closures, which answer their invocations one after the
other with the statuses of a sequence, and may call the library themselves
before they answer.
-/

namespace Rulisp

/-! ## One call with a callback -/

/-- What a trampoline is given. -/
inductive CallbackArgument
  | word (text : String)
  | number (n : ℤ)
  deriving DecidableEq, Repr

/-- A call that has returned: its status and out-value, the last error that it
left and the invocations that it made. -/
structure CallOutcome where
  status : ℤ
  out : Option ℕ
  lastError : LastError
  invocations : List CallbackArgument
  deriving DecidableEq, Repr

/-- The thread-locals of one library on one thread, and the calls that have
returned there. -/
structure ShimThread where
  tunnel : Bool
  lastError : LastError
  returned : List CallOutcome
  deriving DecidableEq, Repr

structure CallbackRun where
  thread : ShimThread
  invocations : List CallbackArgument

/-- How the closure inside `shim` ends: a status and what was stored through
`out`, or the text of a panic. -/
abbrev ShimEnd := Except String (ℤ × Option ℕ)

structure ShimReturn where
  status : ℤ
  out : Option ℕ
  run : CallbackRun

/-- A Lisp closure behind a trampoline: the status of each invocation, and
what the invocation leaves of the thread. -/
structure Closure where
  status : ℕ → ℤ
  leaves : ℕ → ShimThread → ShimThread

/-- `words: Mutex<Vec<String>>`. -/
structure WordBag where
  words : List String
  poisoned : Bool
  deriving DecidableEq, Repr

/-- `bag.words.lock().unwrap().clone()`. -/
def WordBag.lockWords (bag : WordBag) : Except String (List String) :=
  if bag.poisoned then
    .error
      "called `Result::unwrap()` on an `Err` value: PoisonError \x7b .. \x7d"
  else .ok bag.words

section Shims

variable (closure : Closure)

/-- The trampoline called through its raw pointer. -/
def CallbackRun.invoke (run : CallbackRun) (argument : CallbackArgument) :
    ℤ × CallbackRun :=
  (closure.status run.invocations.length,
    { thread := closure.leaves run.invocations.length run.thread
      invocations := run.invocations ++ [argument] })

/-- `set_callback_tunnel` and `clear_callback_tunnel`. -/
def CallbackRun.setTunnel (run : CallbackRun) (flag : Bool) : CallbackRun :=
  { run with thread := { run.thread with tunnel := flag } }

def CallbackRun.setLastError (run : CallbackRun) (kind message : String) :
    CallbackRun :=
  { run with thread := { run.thread with lastError := ⟨kind, message⟩ } }

/-- `Callback::call`; `false` is `Err(CallbackError)`. -/
def CallbackRun.call (run : CallbackRun) (argument : CallbackArgument) :
    Bool × CallbackRun :=
  let (status, invoked) := run.invoke closure argument
  if status = 0 then (true, invoked) else (false, invoked.setTunnel true)

/-- `shim`. -/
def shim (body : CallbackRun → ShimEnd × CallbackRun) (run : CallbackRun) :
    ShimReturn :=
  match body run with
  | (.ok (status, out), run) => { status := status, out := out, run := run }
  | (.error message, run) =>
      { status := statusPanic
        out := none
        run := run.setLastError "panic" message }

/-! ## The hand-written shims -/

/-- The loop of `wordbag_rulisp_for_each_word`; `false` is its early
return. -/
def oracleEachWord : List String → CallbackRun → Bool × CallbackRun
  | [], run => (true, run)
  | w :: words, run =>
      let (status, invoked) := run.invoke closure (.word w)
      if status ≠ 0 then (false, invoked) else oracleEachWord words invoked

def oracleForEachWord (bag : WordBag) : CallbackRun → ShimReturn :=
  -- the one shim of the three that does not clear the tunnel flag
  shim fun run =>
    match bag.lockWords with
    | .error message => (.error message, run)
    | .ok words =>
        match oracleEachWord closure words run with
        | (false, left) => (.ok (statusCbErr, none), left)
        | (true, left) => (.ok (statusOk, some words.length), left)

/-- The loop of `wordbag_rulisp_count_ok`. -/
def oracleCountWords : List String → ℕ → CallbackRun → ℕ × CallbackRun
  | [], ok, run => (ok, run)
  | w :: words, ok, run =>
      let (status, invoked) := run.invoke closure (.word w)
      oracleCountWords words (if status = 0 then ok + 1 else ok) invoked

def oracleCountOk (bag : WordBag) : CallbackRun → ShimReturn :=
  shim fun run =>
    let cleared := run.setTunnel false
    match bag.lockWords with
    | .error message => (.error message, cleared)
    | .ok words =>
        let (ok, left) := oracleCountWords closure words 0 cleared
        (.ok (statusOk, some ok), left)

def oracleSwallowThenFail : CallbackRun → ShimReturn :=
  shim fun run =>
    let cleared := run.setTunnel false
    -- the raw pointer, not `Callback::call`
    let (_, invoked) := cleared.invoke closure (.number 7)
    if invoked.thread.tunnel then (.ok (statusCbErr, none), invoked)
    else
      (.ok (statusErr, none),
        invoked.setLastError "Error" "own error after swallow")

/-! ## The generated shims -/

/-- What a user function returns: its value, or the text of its error. -/
abbrev UserEnd (α : Type) := Except String (Except String α)

/-- `gen_fn` for a function with a borrowed callback; `error` is the name of
its error type, if it returns a `Result`. -/
def generatedShim {α : Type} (error : Option String) (writeOk : α → Option ℕ)
    (user : CallbackRun → UserEnd α × CallbackRun) :
    CallbackRun → ShimReturn :=
  shim fun run =>
    match user (run.setTunnel false) with
    | (.error message, left) => (.error message, left)
    | (.ok (.ok value), left) => (.ok (statusOk, writeOk value), left)
    | (.ok (.error message), left) =>
        if left.thread.tunnel then (.ok (statusCbErr, none), left)
        else
          (.ok (statusErr, none), left.setLastError (error.getD "") message)

/-- The loop of `for_each_word`; `false` is the `?` that returns. -/
def eachWord : List String → CallbackRun → Bool × CallbackRun
  | [], run => (true, run)
  | w :: words, run =>
      match run.call closure (.word w) with
      | (true, called) => eachWord words called
      | (false, called) => (false, called)

def forEachWord (bag : WordBag) (run : CallbackRun) :
    UserEnd ℕ × CallbackRun :=
  match bag.lockWords with
  | .error message => (.error message, run)
  | .ok words =>
      match eachWord closure words run with
      | (true, left) => (.ok (.ok words.length), left)
      | (false, left) =>
          (.ok (.error "Lisp callback signaled a condition"), left)

/-- The loop of `count_ok`. -/
def countWords : List String → ℕ → CallbackRun → ℕ × CallbackRun
  | [], ok, run => (ok, run)
  | w :: words, ok, run =>
      match run.call closure (.word w) with
      | (true, called) => countWords words (ok + 1) called
      | (false, called) => countWords words ok called

def countOk (bag : WordBag) (run : CallbackRun) : UserEnd ℕ × CallbackRun :=
  match bag.lockWords with
  | .error message => (.error message, run)
  | .ok words =>
      let (ok, left) := countWords closure words 0 run
      (.ok (.ok ok), left)

def swallowThenFail (run : CallbackRun) : UserEnd Unit × CallbackRun :=
  let (_, called) := run.call closure (.number 7)
  (.ok (.error "own error after swallow"), called)

def generatedForEachWord (bag : WordBag) : CallbackRun → ShimReturn :=
  generatedShim (some "Error") some (forEachWord closure bag)

def generatedCountOk (bag : WordBag) : CallbackRun → ShimReturn :=
  generatedShim none some (countOk closure bag)

def generatedSwallowThenFail : CallbackRun → ShimReturn :=
  generatedShim (some "Error") (fun _ => none) (swallowThenFail closure)

end Shims

/-! ## Calls within calls -/

/-- The three shims of one of the two libraries. -/
structure CallbackShims where
  forEachWord : Closure → WordBag → CallbackRun → ShimReturn
  countOk : Closure → WordBag → CallbackRun → ShimReturn
  swallowThenFail : Closure → CallbackRun → ShimReturn

def oracleShims : CallbackShims where
  forEachWord := oracleForEachWord
  countOk := oracleCountOk
  swallowThenFail := oracleSwallowThenFail

def generatedShims : CallbackShims where
  forEachWord := generatedForEachWord
  countOk := generatedCountOk
  swallowThenFail := generatedSwallowThenFail

mutual

/-- A call of the library, with what the closure does that it is given. -/
inductive WordbagCall
  | forEachWord (bag : WordBag) (closure : ℕ → ClosureRun)
  | countOk (bag : WordBag) (closure : ℕ → ClosureRun)
  | swallowThenFail (closure : ℕ → ClosureRun)
  /-- An export without a borrowed callback: the calls of the stored closure
  that it may invoke, and the error that it may leave. -/
  | other (calls : List WordbagCall) (error : Option LastError)

/-- One invocation: the calls that the closure makes, whatever it does with
what they signal, and then its status. -/
inductive ClosureRun
  | mk (calls : List WordbagCall) (status : ℤ)

end

def ClosureRun.calls : ClosureRun → List WordbagCall
  | .mk calls _ => calls

def ClosureRun.status : ClosureRun → ℤ
  | .mk _ status => status

def ShimReturn.outcome (left : ShimReturn) : CallOutcome where
  status := left.status
  out := left.out
  lastError := left.run.thread.lastError
  invocations := left.run.invocations

/-- The call has returned to its wrapper. -/
def ShimReturn.recorded (left : ShimReturn) : ShimThread :=
  { left.run.thread with
    returned := left.run.thread.returned ++ [left.outcome] }

mutual

def WordbagCall.run (shims : CallbackShims) :
    WordbagCall → ShimThread → ShimThread
  | .forEachWord bag closure, thread =>
      (shims.forEachWord
        ⟨fun n => (closure n).status, fun n => (closure n).run shims⟩ bag
        ⟨thread, []⟩).recorded
  | .countOk bag closure, thread =>
      (shims.countOk
        ⟨fun n => (closure n).status, fun n => (closure n).run shims⟩ bag
        ⟨thread, []⟩).recorded
  | .swallowThenFail closure, thread =>
      (shims.swallowThenFail
        ⟨fun n => (closure n).status, fun n => (closure n).run shims⟩
        ⟨thread, []⟩).recorded
  | .other calls none, thread => runWordbagCalls shims calls thread
  | .other calls (some error), thread =>
      { runWordbagCalls shims calls thread with lastError := error }

def ClosureRun.run (shims : CallbackShims) :
    ClosureRun → ShimThread → ShimThread
  | .mk calls _, thread => runWordbagCalls shims calls thread

def runWordbagCalls (shims : CallbackShims) :
    List WordbagCall → ShimThread → ShimThread
  | [], thread => thread
  | call :: rest, thread => runWordbagCalls shims rest (call.run shims thread)

end

/-! ## The condition on calls -/

/-- The words that the loops go through. -/
def WordBag.iterated (bag : WordBag) : List String :=
  if bag.poisoned then [] else bag.words

/-- Of the invocations from the `n`-th on, those that `for_each_word` makes. -/
def eachWordEvents (status : ℕ → ℤ) (events : ℕ → List TunnelEvent) :
    ℕ → List String → List TunnelEvent
  | _, [] => []
  | n, _ :: words =>
      events n ++
        if status n = 0 then eachWordEvents status events (n + 1) words else []

def countWordsEvents (events : ℕ → List TunnelEvent) :
    ℕ → List String → List TunnelEvent
  | _, [] => []
  | n, _ :: words => events n ++ countWordsEvents events (n + 1) words

mutual

/-- What moves the tunnel flag of the generated library. -/
def WordbagCall.events : WordbagCall → List TunnelEvent
  | .forEachWord bag closure =>
      .entered :: eachWordEvents (fun n => (closure n).status)
        (fun n => (closure n).events) 0 bag.iterated
  | .countOk bag closure =>
      .entered :: countWordsEvents (fun n => (closure n).events) 0 bag.iterated
  | .swallowThenFail closure => .entered :: (closure 0).events
  | .other calls _ => wordbagEvents calls

/-- A status other than zero comes back through `Callback::call`. -/
def ClosureRun.events : ClosureRun → List TunnelEvent
  | .mk calls status =>
      wordbagEvents calls ++ if status = 0 then [] else [.failed]

def wordbagEvents : List WordbagCall → List TunnelEvent
  | [] => []
  | call :: rest => call.events ++ wordbagEvents rest

end

theorem ClosureRun.events_eq (run : ClosureRun) :
    run.events = wordbagEvents run.calls ++
      if run.status = 0 then [] else [.failed] := by
  cases run
  rfl

mutual

/-- Wherever `swallow_then_fail` is called, the one invocation that it makes
returns zero, and of the calls that the closure made the last tunnel event is
no failure. -/
def WordbagCall.NothingSwallowed : WordbagCall → Prop
  | .forEachWord bag closure =>
      ∀ n < bag.iterated.length, (∀ k < n, (closure k).status = 0) →
        (closure n).NothingSwallowed
  | .countOk bag closure =>
      ∀ n < bag.iterated.length, (closure n).NothingSwallowed
  | .swallowThenFail closure =>
      (closure 0).NothingSwallowed ∧ (closure 0).status = 0 ∧
        ¬ FailureLast (wordbagEvents (closure 0).calls)
  | .other calls _ => AllUnswallowed calls

def ClosureRun.NothingSwallowed : ClosureRun → Prop
  | .mk calls _ => AllUnswallowed calls

def AllUnswallowed : List WordbagCall → Prop
  | [] => True
  | call :: rest => call.NothingSwallowed ∧ AllUnswallowed rest

end

/-! ## The calls that have returned -/

namespace ShimThread

/-- Nothing but the tunnel flag tells the threads apart. -/
structure Alike (left right : ShimThread) : Prop where
  lastError : left.lastError = right.lastError
  returned : left.returned = right.returned

/-- After the same calls another one returned on either thread. -/
def Diverged (left right : ShimThread) : Prop :=
  ∃ before x y after after', left.returned = before ++ x :: after ∧
    right.returned = before ++ y :: after' ∧ x ≠ y

/-- Threads that are alike as long as the condition holds. -/
def Related (agree : Prop) (left right : ShimThread) : Prop :=
  agree ∧ left.Alike right ∨ ¬ agree ∧ left.Diverged right

variable {left right left' right' : ShimThread} {agree agree' : Prop}

theorem Diverged.returned_ne (hdiverged : left.Diverged right) :
    left.returned ≠ right.returned := by
  obtain ⟨before, x, y, after, after', hleft, hright, hne⟩ := hdiverged
  rw [hleft, hright]
  intro heq
  exact hne (List.cons.inj (List.append_cancel_left heq)).1

theorem Diverged.mono (hdiverged : left.Diverged right)
    (hleft : left.returned <+: left'.returned)
    (hright : right.returned <+: right'.returned) :
    left'.Diverged right' := by
  obtain ⟨before, x, y, after, after', hbefore, hbefore', hne⟩ := hdiverged
  obtain ⟨more, hmore⟩ := hleft
  obtain ⟨more', hmore'⟩ := hright
  refine ⟨before, x, y, after ++ more, after' ++ more', ?_, ?_, hne⟩
  · rw [← hmore, hbefore, List.append_assoc, List.cons_append]
  · rw [← hmore', hbefore', List.append_assoc, List.cons_append]

theorem Related.of_iff (hrelated : left.Related agree right)
    (hiff : agree ↔ agree') : left.Related agree' right := by
  rwa [Related, ← hiff]

/-- On both threads calls have returned, and on threads that were alike they
were the same as long as the condition holds. -/
structure Lockstep (agree : Prop) (left right left' right' : ShimThread) :
    Prop where
  oracle : left.returned <+: left'.returned
  generated : right.returned <+: right'.returned
  related : left.Alike right → left'.Related agree right'

theorem Lockstep.trans {left'' right'' : ShimThread}
    (hfirst : Lockstep agree left right left' right')
    (hnext : Lockstep agree' left' right' left'' right'') :
    Lockstep (agree ∧ agree') left right left'' right'' where
  oracle := hfirst.oracle.trans hnext.oracle
  generated := hfirst.generated.trans hnext.generated
  related := by
    intro halike
    rcases hfirst.related halike with ⟨hagree, halike⟩ | ⟨hnot, hdiverged⟩
    · exact (hnext.related halike).of_iff (and_iff_right hagree).symm
    · exact .inr ⟨fun hboth => hnot hboth.1,
        hdiverged.mono hnext.oracle hnext.generated⟩

theorem Lockstep.of_iff (hstep : Lockstep agree left right left' right')
    (hiff : agree ↔ agree') : Lockstep agree' left right left' right' :=
  ⟨hstep.oracle, hstep.generated, fun halike => (hstep.related halike).of_iff hiff⟩

theorem Lockstep.of_returned (hleft : left'.returned = left.returned)
    (hright : right'.returned = right.returned)
    (hsame : left.lastError = right.lastError →
      left'.lastError = right'.lastError) :
    Lockstep True left right left' right' := by
  refine ⟨hleft ▸ List.prefix_rfl, hright ▸ List.prefix_rfl, fun halike => ?_⟩
  refine .inl ⟨trivial, hsame halike.lastError, ?_⟩
  rw [hleft, hright, halike.returned]

theorem Lockstep.tunnel (hstep : Lockstep agree left right left' right')
    (flag flag' : Bool) :
    Lockstep agree left right { left' with tunnel := flag }
      { right' with tunnel := flag' } := by
  have hlast : Lockstep True left' right' { left' with tunnel := flag }
      { right' with tunnel := flag' } := .of_returned rfl rfl id
  exact (hstep.trans hlast).of_iff (and_iff_left trivial)

theorem Lockstep.withError (hstep : Lockstep agree left right left' right')
    (error : LastError) :
    Lockstep agree left right { left' with lastError := error }
      { right' with lastError := error } := by
  have hlast : Lockstep True left' right' { left' with lastError := error }
      { right' with lastError := error } := .of_returned rfl rfl fun _ => rfl
  exact (hstep.trans hlast).of_iff (and_iff_left trivial)

/-- Calls that return something different on the two threads. -/
theorem Lockstep.diverge {left'' right'' : ShimThread} {x y : CallOutcome}
    (hstep : Lockstep agree left right left' right')
    (hleft : left''.returned = left'.returned ++ [x])
    (hright : right''.returned = right'.returned ++ [y]) (hne : x ≠ y) :
    Lockstep False left right left'' right'' := by
  have hprefix : left'.returned <+: left''.returned := ⟨[x], hleft.symm⟩
  have hprefix' : right'.returned <+: right''.returned := ⟨[y], hright.symm⟩
  refine ⟨hstep.oracle.trans hprefix, hstep.generated.trans hprefix', ?_⟩
  intro halike
  refine .inr ⟨id, ?_⟩
  rcases hstep.related halike with ⟨-, hsame⟩ | ⟨-, hdiverged⟩
  · refine ⟨left'.returned, x, y, [], [], hleft, ?_, hne⟩
    rw [hright, hsame.returned]
  · exact hdiverged.mono hprefix hprefix'

end ShimThread

/-! ## The shims on threads that are alike -/

open ShimThread (Lockstep)

/-- Two runs that have made the same invocations and go on in lockstep. -/
structure CallbackRun.Paired (agree : Prop)
    (left right left' right' : CallbackRun) : Prop where
  invocations : left'.invocations = right'.invocations
  threads : Lockstep agree left.thread right.thread left'.thread right'.thread

/-- Two shims that return the same, in lockstep. -/
structure ShimReturn.Paired (agree : Prop) (thread thread' : ShimThread)
    (left right : ShimReturn) : Prop where
  status : left.status = right.status
  out : left.out = right.out
  invocations : left.run.invocations = right.run.invocations
  threads : Lockstep agree thread thread' left.run.thread right.run.thread

theorem ShimReturn.Paired.recorded {agree : Prop} {thread thread' : ShimThread}
    {left right : ShimReturn} (hpaired : Paired agree thread thread' left right) :
    Lockstep agree thread thread' left.recorded right.recorded := by
  have hpushed : Lockstep True left.run.thread right.run.thread left.recorded
      right.recorded := by
    refine ⟨⟨_, rfl⟩, ⟨_, rfl⟩, fun halike => .inl ⟨trivial, ?_⟩⟩
    refine ⟨halike.lastError, ?_⟩
    simp only [ShimReturn.recorded, ShimReturn.outcome, halike.returned,
      halike.lastError, hpaired.status, hpaired.out, hpaired.invocations]
  exact (hpaired.threads.trans hpushed).of_iff (and_iff_left trivial)

/-- The first of the invocations that a loop makes, and the others. -/
theorem forall_invoked_succ {status : ℕ → ℤ} {agrees : ℕ → Prop}
    {start length : ℕ} :
    (∀ n < length + 1, (∀ k < n, status (start + k) = 0) →
        agrees (start + n)) ↔
      agrees start ∧ (status start = 0 →
        ∀ n < length, (∀ k < n, status (start + 1 + k) = 0) →
          agrees (start + 1 + n)) := by
  have hsucc : ∀ n, start + 1 + n = start + (n + 1) := fun n => by omega
  simp only [hsucc]
  constructor
  · intro hall
    refine ⟨hall 0 (by omega) nofun, fun hzero n hn hbefore => ?_⟩
    apply hall (n + 1) (by omega)
    intro k hk
    cases k with
    | zero => exact hzero
    | succ k => exact hbefore k (by omega)
  · rintro ⟨hfirst, hrest⟩ n hn hbefore
    cases n with
    | zero => exact hfirst
    | succ n =>
        exact hrest (hbefore 0 (by omega)) n (by omega)
          fun k hk => hbefore (k + 1) (by omega)

theorem CallbackRun.length_invocations_call {closure : Closure}
    {run : CallbackRun} (argument : CallbackArgument) :
    (run.call closure argument).2.invocations.length =
      run.invocations.length + 1 := by
  unfold CallbackRun.call CallbackRun.invoke
  simp only
  split <;> simp [CallbackRun.setTunnel]

/-- A loop that ended early left the tunnel flag up. -/
theorem eachWord_tunnel {closure : Closure} {run : CallbackRun}
    (words : List String) (hfailed : (eachWord closure words run).1 = false) :
    (eachWord closure words run).2.thread.tunnel = true := by
  induction words generalizing run with
  | nil => exact absurd hfailed (by simp [eachWord])
  | cons w words ih =>
      by_cases hzero : (run.invoke closure (.word w)).1 = 0
      · have hcall : run.call closure (.word w) =
            (true, (run.invoke closure (.word w)).2) := by
          simp [CallbackRun.call, hzero]
        simp only [eachWord, hcall] at hfailed ⊢
        exact ih hfailed
      · have hcall : run.call closure (.word w) =
            (false, (run.invoke closure (.word w)).2.setTunnel true) := by
          simp [CallbackRun.call, hzero]
        simp [eachWord, hcall, CallbackRun.setTunnel]

section Paired

variable (status : ℕ → ℤ) {leaves leaves' : ℕ → ShimThread → ShimThread}
  {agrees : ℕ → Prop} {left right : CallbackRun}

theorem CallbackRun.paired_self (hsame : left.invocations = right.invocations) :
    Paired True left right left right :=
  ⟨hsame, .of_returned rfl rfl id⟩

theorem CallbackRun.Paired.trans {agree agree' : Prop}
    {left' right' left'' right'' : CallbackRun}
    (hfirst : Paired agree left right left' right')
    (hnext : Paired agree' left' right' left'' right'') :
    Paired (agree ∧ agree') left right left'' right'' :=
  ⟨hnext.invocations, hfirst.threads.trans hnext.threads⟩

theorem CallbackRun.Paired.of_iff {agree agree' : Prop}
    {left' right' : CallbackRun} (hpaired : Paired agree left right left' right')
    (hiff : agree ↔ agree') : Paired agree' left right left' right' :=
  ⟨hpaired.invocations, hpaired.threads.of_iff hiff⟩

/-- The oracle's shim fails by itself, if the invocation leaves the flag
down. -/
theorem oracleSwallowThenFail_eq (thread : ShimThread)
    (hdown : (leaves 0 { thread with tunnel := false }).tunnel = false) :
    oracleSwallowThenFail ⟨status, leaves⟩ ⟨thread, []⟩ =
      { status := statusErr
        out := none
        run := (⟨leaves 0 { thread with tunnel := false }, [.number 7]⟩ :
          CallbackRun).setLastError "Error" "own error after swallow" } := by
  simp [oracleSwallowThenFail, shim, CallbackRun.invoke,
    CallbackRun.setTunnel, hdown]

theorem generatedSwallowThenFail_eq (thread : ShimThread)
    (hzero : status 0 = 0 ∧
      (leaves 0 { thread with tunnel := false }).tunnel = false) :
    generatedSwallowThenFail ⟨status, leaves⟩ ⟨thread, []⟩ =
      { status := statusErr
        out := none
        run := (⟨leaves 0 { thread with tunnel := false }, [.number 7]⟩ :
          CallbackRun).setLastError "Error" "own error after swallow" } := by
  simp [generatedSwallowThenFail, generatedShim, swallowThenFail, shim,
    CallbackRun.call, CallbackRun.invoke, CallbackRun.setTunnel, hzero]

/-- With the flag up, the generated shim takes the failure for the
callback's. -/
theorem generatedSwallowThenFail_raised (thread : ShimThread)
    (hraised : ¬ (status 0 = 0 ∧
      (leaves 0 { thread with tunnel := false }).tunnel = false)) :
    (generatedSwallowThenFail ⟨status, leaves⟩ ⟨thread, []⟩).status =
        statusCbErr ∧
      (generatedSwallowThenFail ⟨status, leaves⟩
        ⟨thread, []⟩).run.thread.returned =
          (leaves 0 { thread with tunnel := false }).returned := by
  by_cases hstatus : status 0 = 0
  · have hup : (leaves 0 { thread with tunnel := false }).tunnel = true := by
      simpa [hstatus] using hraised
    simp [generatedSwallowThenFail, generatedShim, swallowThenFail, shim,
      CallbackRun.call, CallbackRun.invoke, CallbackRun.setTunnel, hstatus,
      hup]
  · simp [generatedSwallowThenFail, generatedShim, swallowThenFail, shim,
      CallbackRun.call, CallbackRun.invoke, CallbackRun.setTunnel, hstatus]

section Leaves

variable (hleaves : ∀ n thread thread',
  Lockstep (agrees n) thread thread' (leaves n thread) (leaves' n thread'))
include hleaves

/-- The raw call and `Callback::call` answer the same. -/
theorem CallbackRun.paired_call (hsame : left.invocations = right.invocations)
    (argument : CallbackArgument) :
    (right.call ⟨status, leaves'⟩ argument).1 =
        decide ((left.invoke ⟨status, leaves⟩ argument).1 = 0) ∧
      Paired (agrees right.invocations.length) left right
        (left.invoke ⟨status, leaves⟩ argument).2
        (right.call ⟨status, leaves'⟩ argument).2 := by
  have hstep := hleaves right.invocations.length left.thread right.thread
  unfold CallbackRun.call CallbackRun.invoke
  rw [hsame]
  by_cases hzero : status right.invocations.length = 0
  · simp only [hzero, if_true, decide_true, true_and]
    exact ⟨rfl, hstep⟩
  · simp only [hzero, if_false, decide_false, true_and]
    exact ⟨rfl, hstep.tunnel _ true⟩

/-- A loop that ends at the first status other than zero. -/
theorem oracleEachWord_paired (words : List String)
    (hsame : left.invocations = right.invocations) :
    (eachWord ⟨status, leaves'⟩ words right).1 =
        (oracleEachWord ⟨status, leaves⟩ words left).1 ∧
      CallbackRun.Paired
        (∀ n < words.length,
          (∀ k < n, status (right.invocations.length + k) = 0) →
            agrees (right.invocations.length + n))
        left right
        (oracleEachWord ⟨status, leaves⟩ words left).2
        (eachWord ⟨status, leaves'⟩ words right).2 := by
  induction words generalizing left right with
  | nil => exact ⟨rfl, (CallbackRun.paired_self hsame).of_iff (by simp)⟩
  | cons w words ih =>
      have hcall := CallbackRun.paired_call status hleaves hsame (.word w)
      have hcond := @forall_invoked_succ status agrees
        right.invocations.length words.length
      have hlength := @CallbackRun.length_invocations_call ⟨status, leaves'⟩
        right (.word w)
      have hstatus : (left.invoke ⟨status, leaves⟩ (.word w)).1 =
          status right.invocations.length := by
        simp [CallbackRun.invoke, hsame]
      cases hright : right.call ⟨status, leaves'⟩ (.word w) with
      | mk ok called =>
          rw [hright, hstatus] at hcall
          rw [hright] at hlength
          obtain ⟨hok, hcalled⟩ := hcall
          simp only at hok hcalled hlength
          by_cases hzero : status right.invocations.length = 0
          · simp only [hzero, decide_true] at hok
            subst hok
            obtain ⟨hresult, hrest⟩ := ih hcalled.invocations
            rw [hlength] at hrest
            constructor
            · simpa [eachWord, oracleEachWord, hright, hstatus, hzero] using
                hresult
            · have hboth := (hcalled.trans hrest).of_iff
                (hcond.trans (and_congr_right fun _ => by simp [hzero])).symm
              simpa [eachWord, oracleEachWord, hright, hstatus, hzero] using
                hboth
          · simp only [hzero, decide_false] at hok
            subst hok
            constructor
            · simp [eachWord, oracleEachWord, hright, hstatus, hzero]
            · have hlast := hcalled.of_iff
                (hcond.trans (and_iff_left fun hstop => absurd hstop hzero)).symm
              simpa [eachWord, oracleEachWord, hright, hstatus, hzero] using
                hlast

/-- A loop that goes through all words. -/
theorem oracleCountWords_paired (words : List String) (ok : ℕ)
    (hsame : left.invocations = right.invocations) :
    (countWords ⟨status, leaves'⟩ words ok right).1 =
        (oracleCountWords ⟨status, leaves⟩ words ok left).1 ∧
      CallbackRun.Paired
        (∀ n < words.length, agrees (right.invocations.length + n)) left right
        (oracleCountWords ⟨status, leaves⟩ words ok left).2
        (countWords ⟨status, leaves'⟩ words ok right).2 := by
  induction words generalizing ok left right with
  | nil => exact ⟨rfl, (CallbackRun.paired_self hsame).of_iff (by simp)⟩
  | cons w words ih =>
      have hcall := CallbackRun.paired_call status hleaves hsame (.word w)
      have hlength := @CallbackRun.length_invocations_call ⟨status, leaves'⟩
        right (.word w)
      have hcond : agrees right.invocations.length ∧
          (∀ n < words.length,
            agrees (right.invocations.length + 1 + n)) ↔
          ∀ n < (w :: words).length,
            agrees (right.invocations.length + n) := by
        rw [List.length_cons, Nat.forall_lt_succ_left]
        simp only [Nat.add_right_comm, Nat.add_assoc, Nat.add_zero]
      cases hright : right.call ⟨status, leaves'⟩ (.word w) with
      | mk succeeded called =>
          rw [hright] at hcall hlength
          obtain ⟨hok, hcalled⟩ := hcall
          simp only at hok hcalled hlength
          by_cases hzero : (left.invoke ⟨status, leaves⟩ (.word w)).1 = 0
          · simp only [hzero, decide_true] at hok
            subst hok
            obtain ⟨hresult, hrest⟩ := ih (ok + 1) hcalled.invocations
            rw [hlength] at hrest
            have hboth := (hcalled.trans hrest).of_iff hcond
            simpa [countWords, oracleCountWords, hright, hzero] using
              And.intro hresult hboth
          · simp only [hzero, decide_false] at hok
            subst hok
            obtain ⟨hresult, hrest⟩ := ih ok hcalled.invocations
            rw [hlength] at hrest
            have hboth := (hcalled.trans hrest).of_iff hcond
            simpa [countWords, oracleCountWords, hright, hzero] using
              And.intro hresult hboth

/-! ## The shims -/

theorem forEachWord_paired (bag : WordBag) (thread thread' : ShimThread) :
    ShimReturn.Paired
      (∀ n < bag.iterated.length, (∀ k < n, status k = 0) → agrees n)
      thread thread'
      (oracleForEachWord ⟨status, leaves⟩ bag ⟨thread, []⟩)
      (generatedForEachWord ⟨status, leaves'⟩ bag ⟨thread', []⟩) := by
  have hstart : Lockstep True thread thread' thread
      { thread' with tunnel := false } := .of_returned rfl rfl id
  unfold oracleForEachWord generatedForEachWord generatedShim forEachWord
    WordBag.iterated WordBag.lockWords
  cases bag.poisoned with
  | true => exact ⟨rfl, rfl, rfl, (hstart.withError _).of_iff (by simp)⟩
  | false =>
      obtain ⟨hresult, hpaired⟩ := @oracleEachWord_paired status leaves leaves'
        agrees ⟨thread, []⟩ ⟨{ thread' with tunnel := false }, []⟩ hleaves
        bag.words rfl
      have hthreads := (hstart.trans hpaired.threads).of_iff (and_iff_right trivial)
      have htunnel := @eachWord_tunnel ⟨status, leaves'⟩
        ⟨{ thread' with tunnel := false }, []⟩ bag.words
      simp only [List.length_nil, Nat.zero_add] at hthreads
      simp only [Bool.false_eq_true, if_false, shim, CallbackRun.setTunnel]
      cases hleft : oracleEachWord ⟨status, leaves⟩ bag.words ⟨thread, []⟩ with
      | mk leftOk leftRun =>
          cases hright : eachWord ⟨status, leaves'⟩ bag.words
              ⟨{ thread' with tunnel := false }, []⟩ with
          | mk rightOk rightRun =>
              rw [hleft, hright] at hresult hthreads
              rw [hright] at htunnel
              have hsame := hpaired.invocations
              rw [hleft, hright] at hsame
              simp only at hresult hthreads htunnel hsame
              subst hresult
              cases rightOk with
              | true => exact ⟨rfl, rfl, hsame, hthreads⟩
              | false =>
                  simp only [htunnel rfl, if_true]
                  exact ⟨rfl, rfl, hsame, hthreads⟩

theorem countOk_paired (bag : WordBag) (thread thread' : ShimThread) :
    ShimReturn.Paired (∀ n < bag.iterated.length, agrees n) thread thread'
      (oracleCountOk ⟨status, leaves⟩ bag ⟨thread, []⟩)
      (generatedCountOk ⟨status, leaves'⟩ bag ⟨thread', []⟩) := by
  have hstart : Lockstep True thread thread' { thread with tunnel := false }
      { thread' with tunnel := false } := .of_returned rfl rfl id
  unfold oracleCountOk generatedCountOk generatedShim countOk
    WordBag.iterated WordBag.lockWords
  cases bag.poisoned with
  | true => exact ⟨rfl, rfl, rfl, (hstart.withError _).of_iff (by simp)⟩
  | false =>
      obtain ⟨hresult, hpaired⟩ := @oracleCountWords_paired status leaves leaves'
        agrees ⟨{ thread with tunnel := false }, []⟩
        ⟨{ thread' with tunnel := false }, []⟩ hleaves bag.words 0 rfl
      have hthreads := (hstart.trans hpaired.threads).of_iff (and_iff_right trivial)
      simp only [List.length_nil, Nat.zero_add] at hthreads
      exact ⟨rfl, congrArg some hresult.symm, hpaired.invocations, hthreads⟩

/-- The oracle fails by itself whatever the callback did; the generated shim
does if the invocation left the flag down. -/
theorem swallowThenFail_lockstep (thread thread' : ShimThread)
    (hdown : (leaves 0 { thread with tunnel := false }).tunnel = false) :
    Lockstep
      (agrees 0 ∧ status 0 = 0 ∧
        (leaves' 0 { thread' with tunnel := false }).tunnel = false)
      thread thread'
      (oracleSwallowThenFail ⟨status, leaves⟩ ⟨thread, []⟩).recorded
      (generatedSwallowThenFail ⟨status, leaves'⟩ ⟨thread', []⟩).recorded := by
  have hstart : Lockstep True thread thread' { thread with tunnel := false }
      { thread' with tunnel := false } := .of_returned rfl rfl id
  have hinvoked := (hstart.trans (hleaves 0 _ _)).of_iff (and_iff_right trivial)
  have horacle := oracleSwallowThenFail_eq status thread hdown
  by_cases hzero : status 0 = 0 ∧
      (leaves' 0 { thread' with tunnel := false }).tunnel = false
  · have hpaired : ShimReturn.Paired (agrees 0) thread thread'
        (oracleSwallowThenFail ⟨status, leaves⟩ ⟨thread, []⟩)
        (generatedSwallowThenFail ⟨status, leaves'⟩ ⟨thread', []⟩) := by
      rw [horacle, generatedSwallowThenFail_eq status thread' hzero]
      exact ⟨rfl, rfl, rfl, hinvoked.withError _⟩
    exact hpaired.recorded.of_iff (and_iff_left hzero).symm
  · obtain ⟨hraised, hkept⟩ := generatedSwallowThenFail_raised status thread' hzero
    have hleft : (oracleSwallowThenFail ⟨status, leaves⟩
        ⟨thread, []⟩).recorded.returned =
          (leaves 0 { thread with tunnel := false }).returned ++
            [(oracleSwallowThenFail ⟨status, leaves⟩ ⟨thread, []⟩).outcome] := by
      rw [horacle]
      rfl
    have hright : (generatedSwallowThenFail ⟨status, leaves'⟩
        ⟨thread', []⟩).recorded.returned =
          (leaves' 0 { thread' with tunnel := false }).returned ++
            [(generatedSwallowThenFail ⟨status, leaves'⟩
              ⟨thread', []⟩).outcome] := by
      rw [← hkept]
      rfl
    refine (hinvoked.diverge hleft hright fun heq => ?_).of_iff
      (iff_of_false id fun hall => hzero hall.2)
    have hne : statusErr ≠ statusCbErr := by decide
    have hstatus := congrArg CallOutcome.status heq
    simp only [ShimReturn.outcome, horacle, hraised] at hstatus
    exact hne hstatus

end Leaves

end Paired

/-! ## The oracle's flag -/

section Oracle

variable {status : ℕ → ℤ} {leaves : ℕ → ShimThread → ShimThread}
  (hleaves : ∀ n thread, thread.tunnel = false →
    (leaves n thread).tunnel = false)
include hleaves

theorem oracleEachWord_tunnel (words : List String) {run : CallbackRun}
    (hdown : run.thread.tunnel = false) :
    (oracleEachWord ⟨status, leaves⟩ words run).2.thread.tunnel = false := by
  induction words generalizing run with
  | nil => exact hdown
  | cons w words ih =>
      have hinvoked := hleaves run.invocations.length run.thread hdown
      simp only [oracleEachWord]
      split
      · exact hinvoked
      · exact ih hinvoked

theorem oracleCountWords_tunnel (words : List String) (ok : ℕ)
    {run : CallbackRun} (hdown : run.thread.tunnel = false) :
    (oracleCountWords ⟨status, leaves⟩ words ok run).2.thread.tunnel =
      false := by
  induction words generalizing ok run with
  | nil => exact hdown
  | cons w words ih =>
      exact ih _ (hleaves run.invocations.length run.thread hdown)

theorem oracleForEachWord_tunnel (bag : WordBag) {thread : ShimThread}
    (hdown : thread.tunnel = false) :
    (oracleForEachWord ⟨status, leaves⟩ bag
      ⟨thread, []⟩).recorded.tunnel = false := by
  have hloop := @oracleEachWord_tunnel status leaves hleaves bag.words
    ⟨thread, []⟩ hdown
  unfold oracleForEachWord WordBag.lockWords
  cases bag.poisoned with
  | true => exact hdown
  | false =>
      simp only [Bool.false_eq_true, if_false, shim, ShimReturn.recorded]
      cases hrun : oracleEachWord ⟨status, leaves⟩ bag.words ⟨thread, []⟩ with
      | mk finished left =>
          rw [hrun] at hloop
          cases finished <;> exact hloop

theorem oracleCountOk_tunnel (bag : WordBag) (thread : ShimThread) :
    (oracleCountOk ⟨status, leaves⟩ bag ⟨thread, []⟩).recorded.tunnel =
      false := by
  have hloop := @oracleCountWords_tunnel status leaves hleaves bag.words 0
    ⟨{ thread with tunnel := false }, []⟩ rfl
  unfold oracleCountOk WordBag.lockWords
  cases bag.poisoned with
  | true => rfl
  | false => exact hloop

theorem oracleSwallowThenFail_tunnel (thread : ShimThread) :
    (oracleSwallowThenFail ⟨status, leaves⟩ ⟨thread, []⟩).recorded.tunnel =
      false := by
  have hdown := hleaves 0 { thread with tunnel := false } rfl
  simp [oracleSwallowThenFail, shim, CallbackRun.invoke, CallbackRun.setTunnel,
    CallbackRun.setLastError, ShimReturn.recorded, hdown]

end Oracle

mutual

/-- Nothing in the oracle raises its flag. -/
theorem WordbagCall.tunnel_oracle :
    ∀ (call : WordbagCall) (thread : ShimThread), thread.tunnel = false →
      (call.run oracleShims thread).tunnel = false
  | .forEachWord bag closure, _, hdown =>
      oracleForEachWord_tunnel (fun n => (closure n).tunnel_oracle) bag hdown
  | .countOk bag closure, thread, _ =>
      oracleCountOk_tunnel (fun n => (closure n).tunnel_oracle) bag thread
  | .swallowThenFail closure, thread, _ =>
      oracleSwallowThenFail_tunnel (fun n => (closure n).tunnel_oracle) thread
  | .other calls none, thread, hdown =>
      tunnel_runWordbagCalls_oracle calls thread hdown
  | .other calls (some _), thread, hdown =>
      tunnel_runWordbagCalls_oracle calls thread hdown

theorem ClosureRun.tunnel_oracle :
    ∀ (run : ClosureRun) (thread : ShimThread), thread.tunnel = false →
      (run.run oracleShims thread).tunnel = false
  | .mk calls _, thread, hdown =>
      tunnel_runWordbagCalls_oracle calls thread hdown

theorem tunnel_runWordbagCalls_oracle :
    ∀ (calls : List WordbagCall) (thread : ShimThread),
      thread.tunnel = false →
        (runWordbagCalls oracleShims calls thread).tunnel = false
  | [], _, hdown => hdown
  | call :: rest, thread, hdown =>
      tunnel_runWordbagCalls_oracle rest _ (call.tunnel_oracle thread hdown)

end

/-! ## The generated library's flag -/

section Generated

variable {status : ℕ → ℤ} {leaves : ℕ → ShimThread → ShimThread}
  {nested events : ℕ → List TunnelEvent}
  (hleaves : ∀ n thread,
    (leaves n thread).tunnel = flagAfter thread.tunnel (nested n))
  (hevents : ∀ n, events n = nested n ++ if status n = 0 then [] else [.failed])
include hleaves hevents

theorem CallbackRun.tunnel_call (run : CallbackRun)
    (argument : CallbackArgument) :
    (run.call ⟨status, leaves⟩ argument).2.thread.tunnel =
      flagAfter run.thread.tunnel (events run.invocations.length) := by
  have hinvoked := hleaves run.invocations.length run.thread
  rw [hevents, flagAfter_append, ← hinvoked]
  unfold CallbackRun.call CallbackRun.invoke
  simp only
  split <;> rfl

theorem eachWord_events (words : List String) (run : CallbackRun) :
    (eachWord ⟨status, leaves⟩ words run).2.thread.tunnel =
      flagAfter run.thread.tunnel
        (eachWordEvents status events run.invocations.length words) := by
  induction words generalizing run with
  | nil => rfl
  | cons w words ih =>
      have hcall := run.tunnel_call hleaves hevents (.word w)
      have hlength := @CallbackRun.length_invocations_call ⟨status, leaves⟩ run
        (.word w)
      have hok : (run.call ⟨status, leaves⟩ (.word w)).1 =
          decide (status run.invocations.length = 0) := by
        unfold CallbackRun.call CallbackRun.invoke
        simp only
        split <;> simp [*]
      rw [eachWordEvents, flagAfter_append, ← hcall, ← hlength]
      cases hrun : run.call ⟨status, leaves⟩ (.word w) with
      | mk ok called =>
          rw [hrun] at hok
          by_cases hzero : status run.invocations.length = 0
          · simp only [hzero, decide_true] at hok
            subst hok
            simpa [eachWord, hrun, hzero] using ih called
          · simp only [hzero, decide_false] at hok
            subst hok
            simp [eachWord, hrun, hzero]

theorem countWords_events (words : List String) (ok : ℕ) (run : CallbackRun) :
    (countWords ⟨status, leaves⟩ words ok run).2.thread.tunnel =
      flagAfter run.thread.tunnel
        (countWordsEvents events run.invocations.length words) := by
  induction words generalizing ok run with
  | nil => rfl
  | cons w words ih =>
      have hcall := run.tunnel_call hleaves hevents (.word w)
      have hlength := @CallbackRun.length_invocations_call ⟨status, leaves⟩ run
        (.word w)
      rw [countWordsEvents, flagAfter_append, ← hcall, ← hlength]
      cases hrun : run.call ⟨status, leaves⟩ (.word w) with
      | mk succeeded called =>
          cases succeeded <;> simpa [countWords, hrun] using ih _ called

theorem generatedForEachWord_tunnel (bag : WordBag) (thread : ShimThread) :
    (generatedForEachWord ⟨status, leaves⟩ bag ⟨thread, []⟩).recorded.tunnel =
      flagAfter false (eachWordEvents status events 0 bag.iterated) := by
  have hloop := eachWord_events hleaves hevents bag.words
    ⟨{ thread with tunnel := false }, []⟩
  have htunnel := @eachWord_tunnel ⟨status, leaves⟩
    ⟨{ thread with tunnel := false }, []⟩ bag.words
  unfold generatedForEachWord generatedShim forEachWord WordBag.iterated
    WordBag.lockWords
  cases bag.poisoned with
  | true => rfl
  | false =>
      simp only [Bool.false_eq_true, if_false, shim, ShimReturn.recorded,
        CallbackRun.setTunnel]
      cases hrun : eachWord ⟨status, leaves⟩ bag.words
          ⟨{ thread with tunnel := false }, []⟩ with
      | mk finished left =>
          rw [hrun] at hloop htunnel
          cases finished with
          | true => exact hloop
          | false =>
              have hup : left.thread.tunnel = true := htunnel rfl
              simp only [hup, if_true]
              exact hup.symm.trans hloop

theorem generatedCountOk_tunnel (bag : WordBag) (thread : ShimThread) :
    (generatedCountOk ⟨status, leaves⟩ bag ⟨thread, []⟩).recorded.tunnel =
      flagAfter false (countWordsEvents events 0 bag.iterated) := by
  have hloop := countWords_events hleaves hevents bag.words 0
    ⟨{ thread with tunnel := false }, []⟩
  unfold generatedCountOk generatedShim countOk WordBag.iterated
    WordBag.lockWords
  cases bag.poisoned with
  | true => rfl
  | false => exact hloop

theorem generatedSwallowThenFail_tunnel (thread : ShimThread) :
    (generatedSwallowThenFail ⟨status, leaves⟩ ⟨thread, []⟩).recorded.tunnel =
      flagAfter false (events 0) := by
  have hcall := CallbackRun.tunnel_call hleaves hevents
    ⟨{ thread with tunnel := false }, []⟩ (.number 7)
  rw [← show (_ : Bool) = flagAfter false (events 0) from hcall]
  by_cases hup : (CallbackRun.call ⟨status, leaves⟩
      ⟨{ thread with tunnel := false }, []⟩ (.number 7)).2.thread.tunnel = true
  · simp [generatedSwallowThenFail, generatedShim, swallowThenFail, shim,
      CallbackRun.setTunnel, ShimReturn.recorded, hup]
  · simp [generatedSwallowThenFail, generatedShim, swallowThenFail, shim,
      CallbackRun.setTunnel, CallbackRun.setLastError, ShimReturn.recorded, hup]

end Generated

mutual

theorem WordbagCall.tunnel_generated :
    ∀ (call : WordbagCall) (thread : ShimThread),
      (call.run generatedShims thread).tunnel =
        flagAfter thread.tunnel call.events
  | .forEachWord bag closure, thread =>
      generatedForEachWord_tunnel (fun n => (closure n).tunnel_generated)
        (fun n => (closure n).events_eq) bag thread
  | .countOk bag closure, thread =>
      generatedCountOk_tunnel (fun n => (closure n).tunnel_generated)
        (fun n => (closure n).events_eq) bag thread
  | .swallowThenFail closure, thread =>
      generatedSwallowThenFail_tunnel (fun n => (closure n).tunnel_generated)
        (fun n => (closure n).events_eq) thread
  | .other calls none, thread => tunnel_runWordbagCalls_generated calls thread
  | .other calls (some _), thread =>
      tunnel_runWordbagCalls_generated calls thread

theorem ClosureRun.tunnel_generated :
    ∀ (run : ClosureRun) (thread : ShimThread),
      (run.run generatedShims thread).tunnel =
        flagAfter thread.tunnel (wordbagEvents run.calls)
  | .mk calls _, thread => tunnel_runWordbagCalls_generated calls thread

theorem tunnel_runWordbagCalls_generated :
    ∀ (calls : List WordbagCall) (thread : ShimThread),
      (runWordbagCalls generatedShims calls thread).tunnel =
        flagAfter thread.tunnel (wordbagEvents calls)
  | [], _ => rfl
  | call :: rest, thread => by
      rw [runWordbagCalls, tunnel_runWordbagCalls_generated rest,
        call.tunnel_generated thread, wordbagEvents, flagAfter_append]

end

/-! ## The oracle against the macro -/

mutual

theorem WordbagCall.lockstep :
    ∀ (call : WordbagCall) (thread thread' : ShimThread),
      Lockstep call.NothingSwallowed thread thread'
        (call.run oracleShims thread) (call.run generatedShims thread')
  | .forEachWord bag closure, thread, thread' =>
      (forEachWord_paired (fun n => (closure n).status)
        (fun n => (closure n).lockstep) bag thread thread').recorded
  | .countOk bag closure, thread, thread' =>
      (countOk_paired (fun n => (closure n).status)
        (fun n => (closure n).lockstep) bag thread thread').recorded
  | .swallowThenFail closure, thread, thread' =>
      (swallowThenFail_lockstep (fun n => (closure n).status)
        (fun n => (closure n).lockstep) thread thread'
        ((closure 0).tunnel_oracle _ rfl)).of_iff (by
          rw [(closure 0).tunnel_generated, WordbagCall.NothingSwallowed,
            ← flagAfter_false_iff, Bool.not_eq_true])
  | .other calls none, thread, thread' =>
      runWordbagCalls_lockstep calls thread thread'
  | .other calls (some error), thread, thread' =>
      (runWordbagCalls_lockstep calls thread thread').withError error

theorem ClosureRun.lockstep :
    ∀ (run : ClosureRun) (thread thread' : ShimThread),
      Lockstep run.NothingSwallowed thread thread'
        (run.run oracleShims thread) (run.run generatedShims thread')
  | .mk calls _, thread, thread' =>
      runWordbagCalls_lockstep calls thread thread'

theorem runWordbagCalls_lockstep :
    ∀ (calls : List WordbagCall) (thread thread' : ShimThread),
      Lockstep (AllUnswallowed calls) thread thread'
        (runWordbagCalls oracleShims calls thread)
        (runWordbagCalls generatedShims calls thread')
  | [], _, _ => .of_returned rfl rfl id
  | call :: rest, thread, thread' =>
      (call.lockstep thread thread').trans
        (runWordbagCalls_lockstep rest _ _)

end

/-- Every call that the oracle's shims return from, the generated ones return
from with the same status, out-value, last error and invocations, if and only
if no `swallow_then_fail` among them swallows a failure, one of its own
callback or one that the callback handled.  The flag need not have been the
same before. -/
theorem oracle_callbacks_agree_iff (call : WordbagCall) (thread : ShimThread)
    (flag : Bool) :
    (call.run oracleShims thread).returned =
        (call.run generatedShims { thread with tunnel := flag }).returned ↔
      call.NothingSwallowed := by
  have hstep := call.lockstep thread { thread with tunnel := flag }
  rcases hstep.related ⟨rfl, rfl⟩ with ⟨hagree, halike⟩ | ⟨hnot, hdiverged⟩
  · exact iff_of_true halike.returned hagree
  · exact iff_of_false hdiverged.returned_ne hnot

/-- The closure returns 1. -/
def swallowedStatus : WordbagCall := .swallowThenFail fun _ => .mk [] 1

/-- The closure handles the failure of a call that it makes, and returns 0. -/
def swallowedInside : WordbagCall :=
  .swallowThenFail fun _ =>
    .mk [.forEachWord ⟨["a", "b"], false⟩ fun _ => .mk [] 1] 0

def newShimThread : ShimThread where
  tunnel := false
  lastError := ⟨"", ""⟩
  returned := []

/-- The status that the call itself returns. -/
def WordbagCall.lastStatus (call : WordbagCall) (shims : CallbackShims) :
    Option ℤ :=
  (call.run shims newShimThread).returned.getLast?.map CallOutcome.status

/-- The oracle fails with status 1 where the generated shim fails with 4. -/
theorem oracle_swallow_then_fail_differs :
    swallowedStatus.lastStatus oracleShims = some statusErr ∧
      swallowedStatus.lastStatus generatedShims = some statusCbErr ∧
      swallowedInside.lastStatus oracleShims = some statusErr ∧
      swallowedInside.lastStatus generatedShims = some statusCbErr := by
  decide

end Rulisp
